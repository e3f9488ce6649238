import SeminarTouhou.Network.ClientLaws

namespace SeminarTouhou

open Library

namespace PlayerTable

theorem handlePlayerData_local (d : PlayerData) (t : PlayerTable) :
    ∃ (q : Option PlayerGameData) (e : Option Exn), ∀ u : PlayerTable,
      u.lookup d.playerID = t.lookup d.playerID →
        u.handlePlayerData d = (q.elim u (fun q => u.insert d.playerID q), e) := by
  cases hp : t.lookup d.playerID with
  | none =>
    obtain ⟨q, hq⟩ := PlayerGameData.recordPose_init (p := .hologram) d.pos .hologram rfl
    refine ⟨some q, none, fun u hu => ?_⟩
    simp only [handlePlayerData, hu, hq, Option.elim_some]
  | some p =>
    cases ho : p.playerOBJ with
    | none =>
      refine ⟨none, none, fun u hu => ?_⟩
      simp only [handlePlayerData, hu, ho, Option.elim_none]
    | some o =>
      by_cases hus : o.usable = true
      · cases hr : p.recordPose d.pos o with
        | error e =>
          refine ⟨none, some e, fun u hu => ?_⟩
          simp only [handlePlayerData, hu, ho, hus, if_true, hr, Option.elim_none]
        | ok q =>
          refine ⟨some q, none, fun u hu => ?_⟩
          simp only [handlePlayerData, hu, ho, hus, if_true, hr, Option.elim_some]
      · refine ⟨none, none, fun u hu => ?_⟩
        simp only [handlePlayerData, hu, ho, hus, Bool.false_eq_true, if_false, Option.elim_none]

end PlayerTable

namespace ServerHandler

/-- Two handlers that differ at most in the entries of players other than `c`. -/
structure AgreeOn (c : UInt32) (s t : ServerHandler) : Prop where
  player : s.mPlayers.lookup c = t.mPlayers.lookup c
  result : s.mPlayerResults.lookup c = t.mPlayerResults.lookup c
  players : Dict.count s.mPlayers = Dict.count t.mPlayers
  results : Dict.count s.mPlayerResults = Dict.count t.mPlayerResults
  clients : s.connectedClients = t.connectedClients
  state : s.mGameState = t.mGameState
  done : s.mGameDone = t.mGameDone
  server : s.server = t.server
  checks : s.endChecks = t.endChecks

/-- Handling `p` writes no entry but that of `c`, and neither what it does to that entry nor
anything else it does depends on another entry. -/
structure Attributed (c : UInt32) (p : Packet) (s : ServerHandler) : Prop where
  writes : ∀ k, k ≠ c → (s.receive p).state.mPlayers.lookup k = s.mPlayers.lookup k ∧
    (s.receive p).state.mPlayerResults.lookup k = s.mPlayerResults.lookup k
  reads : ∀ t, AgreeOn c s t → AgreeOn c (s.receive p).state (t.receive p).state ∧
    (s.receive p).sent = (t.receive p).sent ∧ (s.receive p).raised = (t.receive p).raised ∧
    (s.receive p).thrown = (t.receive p).thrown

variable {c : UInt32} {s t : ServerHandler}

theorem AgreeOn.mem_results (h : AgreeOn c s t) : c ∈ s.mPlayerResults ↔ c ∈ t.mPlayerResults :=
  Dict.mem_congr h.result

theorem AgreeOn.withPlayer (h : AgreeOn c s t) (p : PlayerGameData) :
    AgreeOn c { s with mPlayers := s.mPlayers.insert c p }
      { t with mPlayers := t.mPlayers.insert c p } := by
  refine ⟨?_, h.result, ?_, h.results, h.clients, h.state, h.done, h.server, h.checks⟩
  · simp only [AList.lookup_insert]
  · simp only [Dict.count_insert, Dict.mem_congr h.player, h.players]

theorem AgreeOn.withResult (h : AgreeOn c s t) (r : PlayerStoredResultData) :
    AgreeOn c { s with mPlayerResults := s.mPlayerResults.insert c r }
      { t with mPlayerResults := t.mPlayerResults.insert c r } := by
  refine ⟨h.player, ?_, h.players, ?_, h.clients, h.state, h.done, h.server, h.checks⟩
  · simp only [AList.lookup_insert]
  · simp only [Dict.count_insert, h.mem_results, h.results]

theorem AgreeOn.handleGameEndCheck (h : AgreeOn c s t) :
    AgreeOn c s.handleGameEndCheck t.handleGameEndCheck := by
  have hcheck : s.checkIfGameFinished = t.checkIfGameFinished := by
    simp only [checkIfGameFinished, h.players, h.results]
  unfold ServerHandler.handleGameEndCheck
  rw [h.done]
  split_ifs
  · exact h
  · refine ⟨h.player, h.result, h.players, h.results, h.clients, h.state, rfl, h.server, ?_⟩
    simp only [h.checks, hcheck]

theorem attributed_playerData {d : PlayerData} (hd : d.playerID = c) :
    Attributed c (.playerData d) s := by
  subst hd
  constructor
  · intro k hk
    exact ⟨PlayerTable.handlePlayerData_other hk, rfl⟩
  · intro t h
    obtain ⟨q, e, hlocal⟩ := PlayerTable.handlePlayerData_local d s.mPlayers
    simp only [receive, handlePlayerData, hlocal s.mPlayers rfl, hlocal t.mPlayers h.player.symm,
      and_true]
    cases q with
    | none => exact h
    | some q => exact h.withPlayer q

theorem AgreeOn.sendPlayerFinish (h : AgreeOn c s t) (id : UInt32) (r : ResultContext) :
    s.sendPlayerFinishToAllOtherClients id r = t.sendPlayerFinishToAllOtherClients id r := by
  simp only [sendPlayerFinishToAllOtherClients, broadcastExcept, h.server, h.clients]

theorem attributed_storePlayerResults {d : PlayerSendResultData} (hd : d.playerID = c) :
    Attributed c (.storePlayerResults d) s := by
  subst hd
  constructor
  · intro k hk
    simp only [receive, handleReceivePlayerResult]
    split_ifs
    · exact ⟨rfl, rfl⟩
    · repeat' split
      all_goals simp [hk]
  · intro t h
    simp only [receive, handleReceivePlayerResult]
    by_cases hr : d.playerID ∈ s.mPlayerResults
    · rw [if_pos hr, if_pos (h.mem_results.mp hr)]
      exact ⟨h, rfl, rfl, rfl⟩
    · rw [if_neg hr, if_neg (fun ht => hr (h.mem_results.mpr ht)), ← h.player]
      have hstored := h.withResult (storedResult d)
      cases s.mPlayers.lookup d.playerID with
      | none => exact ⟨hstored, rfl, rfl, rfl⟩
      | some p =>
        cases he : finishEvents d.resultContext p.playerOBJ with
        | error e =>
          simp only [he]
          exact ⟨hstored, rfl, rfl, rfl⟩
        | ok events =>
          simp only [he]
          exact ⟨(hstored.withPlayer _).handleGameEndCheck,
            hstored.sendPlayerFinish d.playerID d.resultContext, trivial, trivial⟩

theorem attributed_offensiveBombData {d : OffensiveBombData} (hd : d.playerID = c) :
    Attributed c (.offensiveBombData d) s := by
  subst hd
  constructor
  · intro k _
    simp only [receive, handleOffensiveBombData]
    repeat' split
    all_goals exact ⟨rfl, rfl⟩
  · intro t h
    have hsent : s.sendBombDataToAllOtherClients d.pos.toVector2 d.playerID =
        t.sendBombDataToAllOtherClients d.pos.toVector2 d.playerID := by
      simp only [sendBombDataToAllOtherClients, broadcastExcept, h.server, h.clients]
    simp only [receive, handleOffensiveBombData]
    rw [← h.player]
    cases s.mPlayers.lookup d.playerID with
    | none => exact ⟨h, rfl, rfl, rfl⟩
    | some p =>
      cases ho : deref p.playerOBJ with
      | error e =>
        simp only [ho]
        exact ⟨h, rfl, rfl, rfl⟩
      | ok o =>
        simp only [ho]
        cases o.kind with
        | player => exact ⟨h, rfl, rfl, rfl⟩
        | hologram => exact ⟨h, hsent, rfl, rfl⟩

theorem attributed_of_claimedID {p : Packet} (hp : p.claimedID ∈ [none, some c]) :
    Attributed c p s := by
  cases p with
  | playerData d => exact attributed_playerData (by simpa [Packet.claimedID] using hp)
  | storePlayerResults d => exact attributed_storePlayerResults (by simpa [Packet.claimedID] using hp)
  | offensiveBombData d => exact attributed_offensiveBombData (by simpa [Packet.claimedID] using hp)
  | registerPlayer | playerCount | gameState | sendResult | otherPlayerFinish =>
    exact ⟨fun _ _ => ⟨rfl, rfl⟩, fun _ h => ⟨h, rfl, rfl, rfl⟩⟩

end ServerHandler

namespace World

structure Labels (w : World) : Prop where
  registers : ∀ c d, (c, .registerPlayer d) ∈ w.toClient → d = ⟨roomID, c⟩
  ids : ∀ c, (w.clients c).handler.connectionIDOnServer ∈ [0, c]

theorem start_labels : Labels start := by
  constructor <;> simp [start, ClientSession.start, ClientHandler.joining]

theorem Labels.hostStep {w : World} (hi : Labels w) (a : HostAction) : Labels (w.hostStep a) := by
  constructor
  · intro c d h
    rcases List.mem_append.mp h with h | h
    · exact hi.registers c d h
    · have hs : HostSession.Sends a w.host.handler c (.registerPlayer d) := HostSession.sends_act h
      generalize hp : Packet.registerPlayer d = p at hs
      cases hs with
      | news q id hq _ =>
        subst hp
        simp [Packet.about] at hq
      | register _ => exact Packet.registerPlayer.inj hp
      | started | finished | count | result => nomatch hp
  · exact hi.ids

theorem Labels.clientStep {w : World} (hi : Labels w) {c : Connection} {a : ClientAction}
    (he : w.Enabled (.client c a)) : Labels (w.clientStep c a) := by
  constructor
  · intro d r h
    exact hi.registers d r (toClientAfter_subset w c a h)
  · intro d
    by_cases hd : d = c
    · subst hd
      simp only [World.clientStep, Function.update_self, ClientSession.next_handler]
      rcases ClientSession.id_act a (w.clients d).handler with h | ⟨r, rfl, h⟩
      · rw [h]
        exact hi.ids d
      · rw [h, hi.registers d r he.2.2]
        simp
    · simp only [World.clientStep, Function.update_of_ne hd]
      exact hi.ids d

theorem Labels.next {w : World} (hi : Labels w) {a : WorldAction} (he : w.Enabled a) :
    Labels (w.next a) := by
  cases a with
  | host a => exact hi.hostStep a
  | client c a => exact hi.clientStep he
  | loseToServer e => exact ⟨hi.registers, hi.ids⟩
  | loseToClient e => exact ⟨fun c d h => hi.registers c d (List.mem_of_mem_erase h), hi.ids⟩

/-- Packets in flight to the server carry the id of their connection. -/
def Signed (w : World) : Prop := ∀ c p, (c, p) ∈ w.toServer → p.claimedID ∈ [none, some c]

/-- A client reports only once it has processed its `REGISTER_PLAYER`. -/
def ReportsRegistered (w : World) : WorldAction → Prop
  | .client c a => ClientSession.Reports a → (w.clients c).handler.connectionIDOnServer ≠ 0
  | _ => True

instance (w : World) (a : WorldAction) : Decidable (w.ReportsRegistered a) := by
  rcases a with ⟨⟩ <;> dsimp only [ReportsRegistered] <;> infer_instance

theorem Signed.of_ids {w : World} (hs : Signed w) {a : WorldAction}
    (hid : ∀ c b, a = .client c b → ClientSession.Reports b →
      (w.clients c).handler.connectionIDOnServer = c) : Signed (w.next a) := by
  intro c p h
  cases a with
  | host a => exact hs c p (toServerAfter_subset w a h)
  | client d a =>
    rcases mem_toServer_clientStep h with h | ⟨rfl, h⟩
    · exact hs c p h
    · obtain ⟨hrep, hclaim⟩ := ClientSession.sent_claimedID h
      simp [hclaim, hid c a rfl hrep]
  | loseToServer e => exact hs c p (List.mem_of_mem_erase h)
  | loseToClient e => exact hs c p h

theorem Signed.next {w : World} (hi : Labels w) (hs : Signed w) {a : WorldAction}
    (hr : w.ReportsRegistered a) : Signed (w.next a) := by
  refine hs.of_ids ?_
  rintro c b rfl hrep
  have hmem := hi.ids c
  have hne := hr hrep
  simpa only [List.mem_cons, hne, List.not_mem_nil, or_false, false_or] using hmem

def Attributes (w : World) : WorldAction → Prop
  | .host (.receive c p) => ServerHandler.Attributed c p w.host.handler
  | _ => True

theorem attributes_of_signed {w : World} (hs : Signed w) {a : WorldAction} (he : w.Enabled a) :
    w.Attributes a := by
  cases a with
  | host a =>
    cases a with
    | receive c p => exact ServerHandler.attributed_of_claimedID (hs c p he.2)
    | _ => trivial
  | _ => trivial

/-- When no client reports before it is registered, every packet is attributed to its sender. -/
theorem packets_attributed {as : List WorldAction} (hl : system.Legal start as)
    (hr : system.Meets ReportsRegistered start as) : system.Meets Attributes start as := by
  have hstep : ∀ w a, Labels w ∧ Signed w → system.enabled w a → w.ReportsRegistered a →
      Labels (system.next w a) ∧ Signed (system.next w a) :=
    fun _ _ hi he hr => ⟨hi.1.next he, Signed.next hi.1 hi.2 hr⟩
  have hstart : Labels start ∧ Signed start := ⟨start_labels, by simp [Signed, start]⟩
  exact System.every_step hstep (fun _ _ hi he _ => attributes_of_signed hi.2 he) hstart hl hr

/-- The registration of the client is lost, so it plays under the id of the host. -/
def lostRegistration : List WorldAction :=
  [.client 5 (.statusUpdate .connected 9), .host (.statusCallback .connected 5),
    .loseToClient (5, .registerPlayer ⟨1, 5⟩), .host .startGame,
    .client 5 (.receive (.gameState ⟨1, .startGame⟩)), .host (.levelLoaded ⟨0, 0, 0⟩),
    .client 5 (.loadScene 4 ⟨1, 0, 0⟩), .client 5 .sendPlayerData]

theorem lostRegistration_not_attributed :
    system.Legal start (lostRegistration ++ [.host (.receive 5 (.playerData ⟨1, 0, ⟨1, 0, 0⟩, 12⟩))]) ∧
    ¬system.Meets Attributes start
      (lostRegistration ++ [.host (.receive 5 (.playerData ⟨1, 0, ⟨1, 0, 0⟩, 12⟩))]) := by
  constructor
  · decide +kernel
  · intro h
    obtain ⟨hsame, -⟩ := (system.meets_concat h).writes 0 (by decide)
    revert hsame
    decide +kernel

def registration : List WorldAction :=
  [.client 5 (.statusUpdate .connected 9), .host (.statusCallback .connected 5),
    .client 5 (.receive (.registerPlayer ⟨1, 5⟩)), .host .startGame,
    .client 5 (.receive (.gameState ⟨1, .startGame⟩)), .host (.levelLoaded ⟨0, 0, 0⟩),
    .client 5 (.loadScene 4 ⟨1, 0, 0⟩), .client 5 .sendPlayerData,
    .host (.receive 5 (.playerData ⟨1, 5, ⟨1, 0, 0⟩, 12⟩))]

theorem registration_attributed : system.Meets Attributes start registration :=
  packets_attributed (by decide +kernel) (by decide +kernel)

end World

end SeminarTouhou
