import SeminarTouhou.Network.Attribution
import SeminarTouhou.Network.Holograms
import SeminarTouhou.Network.EntryInvariants

namespace SeminarTouhou

open Library

namespace HostSession

open ServerHandler

theorem clients_receive (p : Packet) (s : ServerHandler) :
    (s.receive p).state.connectedClients = s.connectedClients := by
  rcases receive_state p s with he | ⟨d, -, he⟩ | ⟨d, -, -, he | ⟨q, -, he, -⟩⟩
  all_goals simp [he, withResult]

theorem clients_next {h : HostSession} (hr : Roster h) {a : HostAction} {c : Connection}
    (hc : c ∈ (h.next a).handler.connectedClients) :
    a = .statusCallback .connected c ∨ c ∈ h.handler.connectedClients ∧
      (c ∈ h.participants → c ∈ (h.next a).participants) := by
  by_cases ha : Inert a
  · obtain ⟨hs, hp, -⟩ := same_inert (h := h) ha
    rw [hs.clients] at hc
    rw [hp]
    exact Or.inr ⟨hc, id⟩
  cases a with
  | statusCallback state d =>
    cases state with
    | connected =>
      simp only [next_handler, act, serverStatusCallback, handlePlayerJoining] at hc
      split_ifs at hc
      · exact Or.inr ⟨hc, id⟩
      · rcases List.mem_append.mp hc with hc | hc
        · exact Or.inr ⟨hc, id⟩
        · exact Or.inl (List.mem_singleton.mp hc ▸ rfl)
    | closedByPeer | problemDetectedLocally =>
      change c ∈ (closing d h.handler).connectedClients at hc
      refine Or.inr ?_
      rcases closing_cases d h.handler with ⟨hd, he⟩ | ⟨p, hd, he⟩
      · rw [he] at hc
        have hcd : c ≠ d := fun hcd => hd (hcd ▸ hr.known c hc)
        exact ⟨hc, fun hp => List.mem_filter.mpr ⟨hp, decide_eq_true hcd⟩⟩
      · rw [he] at hc
        obtain ⟨hcd, hc⟩ := hr.nodup.mem_erase_iff.mp hc
        exact ⟨hc, fun hp => List.mem_filter.mpr ⟨hp, decide_eq_true hcd⟩⟩
  | startGame => exact Or.inr ⟨hc, fun _ => hc⟩
  | levelLoaded position =>
    obtain ⟨t, hs, -⟩ := handleRegisterPlayer_state h.handler hr.server ⟨.player, position, .alive⟩
    simp only [next_handler, act, hs] at hc
    exact Or.inr ⟨hc, id⟩
  | sendPlayerResults r =>
    simp only [next_handler, act, handleSendPlayerResults] at hc
    split_ifs at hc
    · exact Or.inr ⟨hc, id⟩
    · simp only [Outcome.sends_state, handleGameEndCheck_clients] at hc
      exact Or.inr ⟨hc, id⟩
  | receive d p =>
    simp only [next_handler, act, clients_receive] at hc
    exact Or.inr ⟨hc, id⟩
  | endCheck b => cases b <;> exact Or.inr ⟨hc, id⟩
  | fireOffensiveBomb | sendPlayerData | broadcastPlayerCount | broadcastResults | interpolate
  | movePlayer | destroyPlayer | unloadScene | endOfFrame => exact absurd trivial ha

end HostSession

namespace World

/-- `c` was called into the level: `START` is on its way, or it acted on it. -/
inductive Plays (w : World) (c : Connection) : Prop
  | invited (room : UInt32) (h : (c, .gameState ⟨room, .startGame⟩) ∈ w.toClient)
  | loading (h : 4 ∈ (w.clients c).pending)
  | inLevel (h : (w.clients c).scene = 4)
  | started (h : (w.clients c).handler.mGameState = .gameStarted)
  | reported (p : Packet) (h : (c, p) ∈ w.toServer)

theorem plays_of_pending {w : World} {c : Connection} {a : ClientAction}
    (he : w.Enabled (.client c a)) (h : 4 ∈ ((w.clients c).next a).pending) : Plays w c := by
  rcases List.mem_append.mp h with h | h
  · refine .loading ?_
    cases a with
    | loadScene scene position => exact List.mem_of_mem_erase h
    | _ => exact h
  · obtain ⟨room, rfl⟩ := ClientSession.level_requested h
    exact .invited room he.2.2

theorem plays_of_loading {w : World} {c : Connection} {position : Vector3}
    (he : w.Enabled (.client c (.loadScene 4 position))) : Plays w c :=
  .loading (enabled_client he).2

theorem plays_of_reports {w : World} {c : Connection} {a : ClientAction}
    (he : w.Enabled (.client c a)) (hr : ClientSession.Reports a) : Plays w c := by
  cases a with
  | sendPlayerData => exact .started he.2.1
  | sendPlayerResults r => exact .inLevel he.2
  | fireOffensiveBomb pos => exact .inLevel he.2
  | _ => exact hr.elim

theorem plays_client {w : World} {c d : Connection} {a : ClientAction}
    (he : w.Enabled (.client d a)) (h : Plays (w.clientStep d a) c) : Plays w c := by
  have self {P : ClientSession → Prop} (hsame : P ((w.clientStep d a).clients c))
      (hw : P (w.clients c) → Plays w c) (hd : P ((w.clients d).next a) → Plays w d) : Plays w c := by
    by_cases hcd : c = d
    · subst hcd
      simp only [World.clientStep, Function.update_self] at hsame
      exact hd hsame
    · simp only [World.clientStep, Function.update_of_ne hcd] at hsame
      exact hw hsame
  cases h with
  | invited room h => exact .invited room (toClientAfter_subset w d a h)
  | loading h => exact self (P := fun s => 4 ∈ s.pending) h .loading (plays_of_pending he)
  | inLevel h =>
    refine self (P := fun s => s.scene = 4) h .inLevel (fun h => ?_)
    cases a with
    | loadScene scene position =>
      obtain rfl : scene = 4 := h
      exact plays_of_loading he
    | _ => exact .inLevel h
  | started h =>
    refine self (P := fun s => s.handler.mGameState = .gameStarted) h .started (fun h => ?_)
    rcases ClientSession.started_act h with h | ⟨position, rfl⟩
    · exact .started h
    · exact plays_of_loading he
  | reported p h =>
    rcases mem_toServer_clientStep h with h | ⟨rfl, h⟩
    · exact .reported p h
    · exact plays_of_reports he (ClientSession.sent_claimedID h).1

theorem plays_next {w : World} {a : WorldAction} {c : Connection} (he : w.Enabled a)
    (h : Plays (w.next a) c) :
    Plays w c ∨ a = .host .startGame ∧ c ∈ w.host.handler.connectedClients := by
  cases a with
  | host a =>
    cases h with
    | invited room h =>
      rcases List.mem_append.mp h with h | h
      · exact Or.inl (.invited room h)
      · have hs : HostSession.Sends a w.host.handler c (.gameState ⟨room, .startGame⟩) :=
          HostSession.sends_act h
        generalize hp : Packet.gameState ⟨room, .startGame⟩ = p at hs
        cases hs with
        | started ha hc => exact Or.inr ⟨ha ▸ rfl, hc⟩
        | news q id hq _ =>
          subst hp
          simp [Packet.about] at hq
        | register | finished | count | result => simp at hp
    | loading h => exact Or.inl (.loading h)
    | inLevel h => exact Or.inl (.inLevel h)
    | started h => exact Or.inl (.started h)
    | reported p h => exact Or.inl (.reported p (toServerAfter_subset w a h))
  | client d a => exact Or.inl (plays_client he h)
  | loseToServer e =>
    cases h with
    | invited room h => exact Or.inl (.invited room h)
    | loading h => exact Or.inl (.loading h)
    | inLevel h => exact Or.inl (.inLevel h)
    | started h => exact Or.inl (.started h)
    | reported p h => exact Or.inl (.reported p (List.mem_of_mem_erase h))
  | loseToClient e =>
    cases h with
    | invited room h => exact Or.inl (.invited room (List.mem_of_mem_erase h))
    | loading h => exact Or.inl (.loading h)
    | inLevel h => exact Or.inl (.inLevel h)
    | started h => exact Or.inl (.started h)
    | reported p h => exact Or.inl (.reported p h)

/-- Whoever is called into the level connected before, is a participant while its connection is
open, and knows its id. -/
structure Playing (w : World) : Prop where
  accepted : ∀ c, Plays w c → c ∈ w.accepted
  participant : ∀ c, Plays w c → c ∈ w.host.handler.connectedClients → c ∈ w.host.participants
  id : ∀ c, Plays w c → (w.clients c).handler.connectionIDOnServer = c
  connected : ∀ c ∈ w.host.handler.connectedClients, c ∈ w.accepted

/-- Ids are registered before `START`. -/
def RegistersFirst (w : World) : WorldAction → Prop
  | .host .startGame => ∀ c ∈ w.host.handler.connectedClients,
    (w.clients c).handler.connectionIDOnServer = c
  | _ => True

instance (w : World) (a : WorldAction) : Decidable (w.RegistersFirst a) := by
  have := List.decidableBAll (fun c => (w.clients c).handler.connectionIDOnServer = c)
    w.host.handler.connectedClients
  rcases a with ⟨_ | _⟩ | _ <;> dsimp only [RegistersFirst] <;> infer_instance

theorem start_not_plays (c : Connection) : ¬Plays start c := by
  intro h
  cases h with
  | invited room h => nomatch h
  | loading h => nomatch h
  | inLevel h => nomatch h
  | started h => nomatch h
  | reported p h => nomatch h

theorem start_playing : Playing start where
  accepted := fun c h => absurd h (start_not_plays c)
  participant := fun c h => absurd h (start_not_plays c)
  id := fun c h => absurd h (start_not_plays c)
  connected := fun _ h => nomatch h

theorem accepted_next (w : World) (a : WorldAction) : w.accepted ⊆ (w.next a).accepted := by
  cases a with
  | host a => exact subset_acceptedAfter w a
  | _ => exact List.Subset.refl _

theorem id_next {w : World} (hl : Labels w) {a : WorldAction} (he : w.Enabled a) {c : Connection}
    (h : (w.clients c).handler.connectionIDOnServer = c) :
    ((w.next a).clients c).handler.connectionIDOnServer = c := by
  cases a with
  | client d a =>
    by_cases hcd : c = d
    · subst hcd
      simp only [World.next, World.clientStep, Function.update_self, ClientSession.next_handler]
      rcases ClientSession.id_act a (w.clients c).handler with hs | ⟨r, rfl, hs⟩
      · rw [hs, h]
      · rw [hs, hl.registers c r he.2.2]
    · simp only [World.next, World.clientStep, Function.update_of_ne hcd, h]
  | host | loseToServer | loseToClient => exact h

theorem Playing.next {w : World} (hi : Playing w) (hl : Labels w) (hr : HostSession.Roster w.host)
    {a : WorldAction} (he : w.Enabled a) (hf : w.RegistersFirst a) : Playing (w.next a) := by
  constructor
  · intro c h
    rcases plays_next he h with h | ⟨rfl, hc⟩
    · exact accepted_next w a (hi.accepted c h)
    · exact hi.connected c hc
  · intro c h hc
    cases a with
    | host a =>
      rcases HostSession.clients_next hr hc with rfl | ⟨hcl, hkeep⟩
      · rcases plays_next he h with h | ⟨ha, -⟩
        · exact absurd (hi.accepted c h) he.2
        · simp at ha
      · rcases plays_next he h with h | ⟨ha, -⟩
        · exact hkeep (hi.participant c h hcl)
        · obtain rfl := WorldAction.host.inj ha
          exact hcl
    | client d a =>
      rcases plays_next he h with h | ⟨ha, -⟩
      · exact hi.participant c h hc
      · simp at ha
    | loseToServer e =>
      rcases plays_next he h with h | ⟨ha, -⟩
      · exact hi.participant c h hc
      · simp at ha
    | loseToClient e =>
      rcases plays_next he h with h | ⟨ha, -⟩
      · exact hi.participant c h hc
      · simp at ha
  · intro c h
    rcases plays_next he h with h | ⟨rfl, hc⟩
    · exact id_next hl he (hi.id c h)
    · exact hf c hc
  · intro c hc
    cases a with
    | host a =>
      rcases HostSession.clients_next hr hc with rfl | ⟨hcl, -⟩
      · exact List.mem_cons_self
      · exact subset_acceptedAfter w a (hi.connected c hcl)
    | client | loseToServer | loseToClient => exact hi.connected c hc

theorem signed_of_playing {w : World} (hi : Playing w) (hs : Signed w) {a : WorldAction}
    (he : w.Enabled a) : Signed (w.next a) := by
  refine hs.of_ids ?_
  rintro c b rfl hrep
  exact hi.id c (plays_of_reports he hrep)

/-- A result or a bomb is handled while its sender is connected and has no result yet. -/
def InTime (w : World) : WorldAction → Prop
  | .host (.receive c (.storePlayerResults _)) =>
    c ∈ w.host.handler.connectedClients ∧ c ∉ w.host.handler.mPlayerResults
  | .host (.receive c (.offensiveBombData _)) =>
    c ∈ w.host.handler.connectedClients ∧ c ∉ w.host.handler.mPlayerResults
  | _ => True

instance (w : World) (a : WorldAction) : Decidable (w.InTime a) := by
  rcases a with (_ | _ | _ | _ | _ | ⟨_, _ | _⟩ | _) | _ <;> dsimp only [InTime] <;> infer_instance

def Survives (w : World) : WorldAction → Prop
  | .host (.receive _ p) => (w.host.handler.receive p).thrown = none
  | _ => True

theorem survives_result {s : ServerHandler} {d : PlayerSendResultData}
    (hr : d.playerID ∉ s.mPlayerResults) (hs : s.mPlayers.Shown d.playerID) :
    (s.receive (.storePlayerResults d)).thrown = none := by
  obtain ⟨p, o, hp, -⟩ := PlayerTable.shown_iff.mp hs
  obtain ⟨events, he⟩ := hs.events hp d.resultContext
  simp [ServerHandler.receive, ServerHandler.handleReceivePlayerResult, hr, hp, he]

theorem survives_bomb {s : ServerHandler} {d : OffensiveBombData}
    (hs : s.mPlayers.Shown d.playerID) : (s.receive (.offensiveBombData d)).thrown = none := by
  obtain ⟨p, o, hp, ho, hkind, hlife⟩ := PlayerTable.shown_iff.mp hs
  simp [ServerHandler.receive, ServerHandler.handleOffensiveBombData, hp, ho, deref_of_alive hlife,
    hkind]

theorem survives_of_inTime {w : World} (hi : Playing w) (hsig : Signed w)
    (hshows : HostSession.Shows w.host) (hinit : w.host.handler.mPlayers.Init) {a : WorldAction}
    (he : w.Enabled a) (ht : w.InTime a) : w.Survives a := by
  cases a with
  | host a =>
    cases a with
    | receive c p =>
      have hg : w.host.handler.mGameState = .gameStarted := he.1
      have hid := hsig c p he.2
      have shown (hc : c ∈ w.host.handler.connectedClients)
          (hr : c ∉ w.host.handler.mPlayerResults) : w.host.handler.mPlayers.Shown c :=
        hshows hg c (hi.participant c (.reported p he.2) hc) hr
      cases p with
      | playerData d => exact (PlayerTable.handlePlayerData_init hinit).2
      | storePlayerResults d =>
        obtain rfl : d.playerID = c := by simpa [Packet.claimedID] using hid
        exact survives_result ht.2 (shown ht.1 ht.2)
      | offensiveBombData d =>
        obtain rfl : d.playerID = c := by simpa [Packet.claimedID] using hid
        exact survives_bomb (shown ht.1 ht.2)
      | registerPlayer | playerCount | gameState | sendResult | otherPlayerFinish => rfl
    | _ => trivial
  | _ => trivial

theorem roster_next {w : World} (hr : HostSession.Roster w.host) {a : WorldAction} (he : w.Enabled a) :
    HostSession.Roster (w.next a).host := by
  cases a with
  | host a => exact HostSession.keeps_roster hr (enabled_host he)
  | _ => exact hr

theorem shows_next {w : World} (hr : HostSession.Roster w.host) (hs : HostSession.Shows w.host)
    {a : WorldAction} (he : w.Enabled a) : HostSession.Shows (w.next a).host := by
  cases a with
  | host a => exact HostSession.keeps_shows hr hs (enabled_host he)
  | _ => exact hs

theorem init_next {w : World} (hi : w.host.handler.mPlayers.Init) (a : WorldAction) :
    (w.next a).host.handler.mPlayers.Init := by
  cases a with
  | host a =>
    exact HostSession.every_act PlayerTable.init_entries (Set.mem_univ _) (HostSession.places_univ a) hi
  | _ => exact hi

theorem server_survives {as : List WorldAction} (hl : system.Legal start as)
    (hf : system.Meets RegistersFirst start as) (ht : system.Meets InTime start as) :
    system.Meets Survives start as := by
  let Inv (w : World) : Prop := Playing w ∧ Labels w ∧ Signed w ∧ HostSession.Roster w.host ∧
    HostSession.Shows w.host ∧ w.host.handler.mPlayers.Init
  have hstep : ∀ w a, Inv w → system.enabled w a → w.RegistersFirst a ∧ w.InTime a →
      Inv (system.next w a) := by
    rintro w a ⟨hp, hlab, hsig, hr, hs, hinit⟩ he ⟨hf, -⟩
    exact ⟨hp.next hlab hr he hf, hlab.next he, signed_of_playing hp hsig he, roster_next hr he,
      shows_next hr hs he, init_next hinit a⟩
  have hsurvives : ∀ w a, Inv w → system.enabled w a → w.RegistersFirst a ∧ w.InTime a →
      w.Survives a := by
    rintro w a ⟨hp, -, hsig, -, hs, hinit⟩ he ⟨-, ht⟩
    exact survives_of_inTime hp hsig hs hinit he ht
  have hstart : Inv start := ⟨start_playing, start_labels, (by simp [Signed, start]),
    HostSession.start_roster, HostSession.start_shows,
    fun _ _ h => by simp [start, HostSession.start, ServerHandler.hosted] at h⟩
  exact System.every_step hstep hsurvives hstart hl (fun p hp => ⟨hf p hp, ht p hp⟩)

/-- A client fires a bomb and dies; the packet of its death is the first to arrive. -/
def overtakenBomb : List WorldAction :=
  [.client 5 (.statusUpdate .connected 9), .host (.statusCallback .connected 5),
    .client 5 (.receive (.registerPlayer ⟨1, 5⟩)), .host .startGame,
    .client 5 (.receive (.gameState ⟨1, .startGame⟩)), .host (.levelLoaded ⟨0, 0, 0⟩),
    .client 5 (.loadScene 4 ⟨1, 0, 0⟩), .client 5 (.fireOffensiveBomb ⟨1, 1⟩),
    .client 5 (.sendPlayerResults ⟨"client", 0, 30, 100, .playerDied⟩),
    .host (.receive 5 (.storePlayerResults ⟨1, 5, 30, 0, 100, .playerDied, "client"⟩))]

theorem overtakenBomb_throws :
    system.Legal start (overtakenBomb ++ [.host (.receive 5 (.offensiveBombData ⟨1, 5, ⟨1, 1, 0⟩⟩))]) ∧
    system.Meets RegistersFirst start
      (overtakenBomb ++ [.host (.receive 5 (.offensiveBombData ⟨1, 5, ⟨1, 1, 0⟩⟩))]) ∧
    ¬system.Meets Survives start
      (overtakenBomb ++ [.host (.receive 5 (.offensiveBombData ⟨1, 5, ⟨1, 1, 0⟩⟩))]) := by
  refine ⟨by decide +kernel, by decide +kernel, ?_⟩
  intro h
  have hlast := system.meets_concat h
  unfold Survives at hlast
  revert hlast
  decide +kernel

theorem server_survives_overtakenBomb : system.Meets Survives start overtakenBomb :=
  server_survives (by decide +kernel) (by decide +kernel) (by decide +kernel)

end World

end SeminarTouhou
