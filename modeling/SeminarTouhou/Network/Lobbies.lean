import SeminarTouhou.Library.Mirror
import SeminarTouhou.Network.Connections
import SeminarTouhou.Network.InOrder
import SeminarTouhou.Network.Raised

namespace SeminarTouhou

open Library

/-- Until a first count arrives the text is the one of the scene. -/
structure PlayerCountDisplay where
  mPlayerCountText : Option ℤ
deriving DecidableEq

/-- The world with the displays of the lobbies, which are there while the lobby scene is loaded at
the node. -/
structure LobbySession where
  world : World
  hostLobby : Option PlayerCountDisplay
  lobbies : Connection → Option PlayerCountDisplay

namespace PlayerCountDisplay

def onPlayerCountChange (_ : PlayerCountDisplay) (newPlayerCount : ℤ) : PlayerCountDisplay :=
  ⟨some newPlayerCount⟩

def hears (events : List Event) (d : PlayerCountDisplay) : PlayerCountDisplay :=
  (events.filterMap HostSession.announced).foldl onPlayerCountChange d

theorem text_hears (events : List Event) (d : PlayerCountDisplay) :
    (d.hears events).mPlayerCountText =
      latest d.mPlayerCountText (events.filterMap HostSession.announced) := by
  rw [hears]
  generalize events.filterMap HostSession.announced = counts
  induction counts generalizing d with
  | nil => rfl
  | cons n counts ih => exact ih _

theorem hears_silent {events : List Event} (h : ∀ e ∈ events, HostSession.announced e = none)
    (d : PlayerCountDisplay) : d.hears events = d := by
  rw [hears, List.filterMap_eq_nil_iff.mpr h]
  rfl

end PlayerCountDisplay

namespace LobbySession

def start : LobbySession := ⟨.start, some ⟨none⟩, fun _ => none⟩

def hostLobbyAfter (s : LobbySession) : WorldAction → Option PlayerCountDisplay
  | .host (.levelLoaded _) => none
  | .host a => s.hostLobby.map (.hears (HostSession.act a s.world.host.handler).raised)
  | _ => s.hostLobby

def lobbyAfter (s : LobbySession) (c : Connection) : ClientAction → Option PlayerCountDisplay
  | .loadScene scene _ => if scene = 3 then some ⟨none⟩ else none
  | a => (s.lobbies c).map (.hears (ClientSession.act a (s.world.clients c).handler).raised)

def lobbiesAfter (s : LobbySession) : WorldAction → Connection → Option PlayerCountDisplay
  | .client c a => Function.update s.lobbies c (s.lobbyAfter c a)
  | _ => s.lobbies

def next (s : LobbySession) (a : WorldAction) : LobbySession :=
  ⟨s.world.next a, s.hostLobbyAfter a, s.lobbiesAfter a⟩

def system : System LobbySession WorldAction := ⟨fun s a => s.world.Enabled a, next⟩

/-- The same over a transport that is reliable and keeps the order. -/
def inOrder : System LobbySession WorldAction := ⟨fun s a => s.world.EnabledInOrder a, next⟩

instance (s : LobbySession) (a : WorldAction) : Decidable (system.enabled s a) :=
  inferInstanceAs (Decidable (s.world.Enabled a))

instance (s : LobbySession) (a : WorldAction) : Decidable (inOrder.enabled s a) :=
  inferInstanceAs (Decidable (s.world.EnabledInOrder a))

def numberOfPlayers (s : LobbySession) : ℤ := s.world.host.handler.numberOfPlayers

def counts (s : LobbySession) (c : Connection) : List ℤ :=
  (channel c s.world.toClient).filterMap HostSession.carried

end LobbySession

namespace HostSession

open ServerHandler

theorem counted_act {a : HostAction} {s : ServerHandler} {c : Connection} {p : Packet} {n : ℤ}
    (h : (c, p) ∈ (act a s).sent) (hn : carried p = some n) :
    a = .broadcastPlayerCount ∧ c ∈ s.connectedClients ∧ n = s.numberOfPlayers := by
  have hs : Sends a s c p := sends_act h
  cases hs with
  | news p id hp => simp [carried_of_about hp] at hn
  | count ha =>
    subst ha
    refine ⟨rfl, ?_, (Option.some.inj hn).symm⟩
    simp only [act, ServerHandler.broadcastPlayerCount, Outcome.sends_sent] at h
    split_ifs at h
    · exact (mem_broadcast.mp h).1
    · exact absurd h List.not_mem_nil
  | register | started | finished | result => simp [carried] at hn

end HostSession

namespace ClientSession

open HostSession (announced finishEvents_silent)

theorem announced_act {a : ClientAction} {s : ClientHandler} {e : Event} {n : ℤ}
    (he : e ∈ (act a s).raised) (hn : announced e = some n) :
    ∃ d, a = .receive (.playerCount d) ∧ d.playerCount = n := by
  have hr : Raises a s e := raises_act he
  cases hr with
  | scene e k he => obtain rfl | rfl := he <;> simp [announced] at hn
  | count d ha => exact ⟨d, ha, Option.some.inj hn⟩
  | finish e d p events ha hp hf he =>
    rw [finishEvents_silent hf e he] at hn
    cases hn
  | closed | result | bomb => simp [announced] at hn

theorem announced_none {a : ClientAction} (ha : ∀ d, a ≠ .receive (.playerCount d)) (s : ClientHandler) :
    ∀ e ∈ (act a s).raised, announced e = none := by
  intro e he
  cases hn : announced e with
  | none => rfl
  | some n =>
    obtain ⟨d, hd, -⟩ := announced_act he hn
    exact absurd hd (ha d)

end ClientSession

namespace LobbySession

open HostSession (announced carried)

section Genuine

variable {s : LobbySession}

def Told (s : LobbySession) (c : Connection) (n : ℤ) : Prop :=
  s.lobbies c = some ⟨some n⟩ ∨ ∃ p, (c, p) ∈ s.world.toClient ∧ carried p = some n

theorem lobby_next {c : Connection} {a : ClientAction} (ha : ∀ scene position, a ≠ .loadScene scene position)
    (s : LobbySession) : (s.next (.client c a)).lobbies c =
      (s.lobbies c).map (.hears (ClientSession.act a (s.world.clients c).handler).raised) := by
  simp only [next, lobbiesAfter, Function.update_self]
  cases a with
  | loadScene scene position => exact absurd rfl (ha scene position)
  | _ => rfl

theorem told_of_shown {a : WorldAction} (he : s.world.Enabled a) {c : Connection} {n : ℤ}
    (h : (s.next a).lobbies c = some ⟨some n⟩) : s.Told c n := by
  cases a with
  | host a => exact Or.inl h
  | loseToServer | loseToClient => exact Or.inl h
  | client b a =>
    by_cases hb : c = b
    · subst hb
      by_cases hload : ∃ scene position, a = .loadScene scene position
      · obtain ⟨scene, position, rfl⟩ := hload
        simp only [next, lobbiesAfter, Function.update_self, lobbyAfter] at h
        split_ifs at h
        simp at h
      · rw [lobby_next (fun scene position ha => hload ⟨scene, position, ha⟩)] at h
        obtain ⟨d, hd, hears⟩ := Option.map_eq_some_iff.mp h
        have htext := congrArg PlayerCountDisplay.mPlayerCountText hears
        rw [PlayerCountDisplay.text_hears] at htext
        obtain hold | hmem := of_latest htext
        · exact Or.inl (hd.trans (congrArg some (congrArg PlayerCountDisplay.mk hold)))
        · obtain ⟨e, he', hn⟩ := List.mem_filterMap.mp hmem
          obtain ⟨d, rfl, hcount⟩ := ClientSession.announced_act he' hn
          exact Or.inr ⟨.playerCount d, he.2.2, congrArg some hcount⟩
    · simp only [next, lobbiesAfter, Function.update_of_ne hb] at h
      exact Or.inl h

theorem told_next {a : WorldAction} (he : s.world.Enabled a) {c : Connection} {n : ℤ}
    (h : (s.next a).Told c n) : s.Told c n ∨ a = .host .broadcastPlayerCount ∧
      c ∈ s.world.host.handler.connectedClients ∧ n = s.numberOfPlayers := by
  obtain hshown | ⟨p, hp, hn⟩ := h
  · exact Or.inl (told_of_shown he hshown)
  · cases a with
    | host a =>
      obtain hold | hsent := List.mem_append.mp hp
      · exact Or.inl (Or.inr ⟨p, hold, hn⟩)
      · obtain ⟨rfl, hc, hcount⟩ := HostSession.counted_act hsent hn
        exact Or.inr ⟨rfl, hc, hcount⟩
    | client b a => exact Or.inl (Or.inr ⟨p, s.world.toClientAfter_subset b a hp, hn⟩)
    | loseToServer e => exact Or.inl (Or.inr ⟨p, hp, hn⟩)
    | loseToClient e => exact Or.inl (Or.inr ⟨p, List.mem_of_mem_erase hp, hn⟩)

end Genuine

def joined : List WorldAction :=
  [.host (.statusCallback .connected 1), .client 1 (.statusUpdate .connected 1),
    .client 1 (.loadScene 3 ⟨0, 0, 0⟩)]

def countRead : List WorldAction :=
  [.client 1 (.receive (.registerPlayer ⟨roomID, 1⟩)), .client 1 (.receive (.playerCount ⟨roomID, 2⟩))]

section Agree

variable {s : LobbySession}

def Quiet (c : Connection) : WorldAction → Prop
  | .host (.statusCallback _ _) => False
  | .client d (.loadScene _ _) => d ≠ c
  | _ => True

instance (c : Connection) (a : WorldAction) : Decidable (Quiet c a) := by
  rcases a with ⟨_ | _⟩ | ⟨_, _ | _⟩ | _ <;> dsimp only [Quiet] <;> infer_instance

/-- Once client `c` has read what is on its way to it, it shows the number of players. -/
def Settled (s : LobbySession) (c : Connection) : Prop :=
  ∃ d, s.lobbies c = some d ∧ latest d.mPlayerCountText (s.counts c) = some s.numberOfPlayers

theorem players_next {c : Connection} {a : WorldAction} (ha : Quiet c a) :
    (s.next a).numberOfPlayers = s.numberOfPlayers := by
  cases a with
  | host a =>
    have hclients : (HostSession.act a s.world.host.handler).state.connectedClients =
        s.world.host.handler.connectedClients := by
      refine HostSession.clients_act ?_
      rintro state d rfl
      exact ha
    exact congrArg (fun l : List Connection => (l.length : ℤ) + 1) hclients
  | client d a => rfl
  | loseToServer | loseToClient => rfl

def sentCounts (s : LobbySession) (a : HostAction) (c : Connection) : List ℤ :=
  (channel c (HostSession.act a s.world.host.handler).sent).filterMap carried

theorem counts_host (a : HostAction) (c : Connection) :
    (s.next (.host a)).counts c = s.counts c ++ s.sentCounts a c := by
  simp only [counts, sentCounts, next, World.next, World.hostStep, channel_append, List.filterMap_append]

theorem sentCounts_eq {a : HostAction} {c : Connection} {n : ℤ} (h : n ∈ s.sentCounts a c) :
    n = s.numberOfPlayers := by
  obtain ⟨p, hp, hn⟩ := List.mem_filterMap.mp h
  exact (HostSession.counted_act (mem_channel.mp hp) hn).2.2

theorem counts_read {c : Connection} {p : Packet} {d : PlayerCountDisplay}
    (he : s.world.EnabledInOrder (.client c (.receive p))) (hd : s.lobbies c = some d) :
    ∃ d', (s.next (.client c (.receive p))).lobbies c = some d' ∧
      latest d'.mPlayerCountText ((s.next (.client c (.receive p))).counts c) =
        latest d.mPlayerCountText (s.counts c) := by
  obtain ⟨q, hq⟩ : ∃ q, channel c s.world.toClient = p :: q := by
    obtain ⟨p', q, hq⟩ := List.exists_cons_of_ne_nil (l := channel c s.world.toClient)
      (fun hnil => by simp [World.EnabledInOrder, hnil] at he)
    rw [World.EnabledInOrder, hq, List.head?_cons] at he
    exact ⟨q, Option.some.inj he.2 ▸ hq⟩
  have hrest : (s.next (.client c (.receive p))).counts c = q.filterMap carried :=
    congrArg (List.filterMap carried) (channel_erase_head hq)
  have hold : s.counts c = (p :: q).filterMap carried := congrArg (List.filterMap carried) hq
  have hlobby := lobby_next (c := c) (a := .receive p) (fun _ _ h => ClientAction.noConfusion h) s
  rw [hd, Option.map_some] at hlobby
  refine ⟨_, hlobby, ?_⟩
  rw [hrest, hold]
  by_cases hp : ∃ e, p = .playerCount e
  · obtain ⟨e, rfl⟩ := hp
    rfl
  · have hsilent := ClientSession.announced_none (a := .receive p)
      (fun e he => hp ⟨e, ClientAction.receive.inj he⟩) (s.world.clients c).handler
    have hnone : carried p = none := by
      cases p with
      | playerCount e => exact absurd ⟨e, rfl⟩ hp
      | _ => rfl
    rw [PlayerCountDisplay.hears_silent hsilent, List.filterMap_cons_none hnone]

theorem Settled.client {c : Connection} (h : s.Settled c) {b : Connection} {a : ClientAction}
    (he : s.world.EnabledInOrder (.client b a)) (hq : Quiet c (.client b a)) :
    (s.next (.client b a)).Settled c := by
  obtain ⟨d, hd, hlatest⟩ := h
  rw [Settled, players_next hq]
  by_cases hb : b = c
  · subst hb
    by_cases hread : ∃ p, a = .receive p
    · obtain ⟨p, rfl⟩ := hread
      obtain ⟨d', hd', hsame⟩ := counts_read he hd
      exact ⟨d', hd', hsame.trans hlatest⟩
    · have hlobby := lobby_next (c := b) (a := a) (fun scene position ha => by
        subst ha
        exact hq rfl) s
      have hsilent := ClientSession.announced_none (a := a) (fun e ha => hread ⟨_, ha⟩)
        (s.world.clients b).handler
      have hcounts : (s.next (.client b a)).counts b = s.counts b := by
        have hkept : s.world.toClientAfter b a = s.world.toClient := by
          cases a with
          | receive p => exact absurd ⟨p, rfl⟩ hread
          | _ => rfl
        exact congrArg (fun l => (channel b l).filterMap carried) hkept
      rw [hd, Option.map_some, PlayerCountDisplay.hears_silent hsilent] at hlobby
      exact ⟨d, hlobby, hcounts ▸ hlatest⟩
  · have hlobby : (s.next (.client b a)).lobbies c = s.lobbies c :=
      Function.update_of_ne (fun hc : c = b => hb hc.symm) _ _
    have hcounts : (s.next (.client b a)).counts c = s.counts c := by
      cases a with
      | receive p => exact congrArg (List.filterMap carried) (channel_erase_ne hb p _)
      | _ => rfl
    exact ⟨d, hlobby.trans hd, hcounts ▸ hlatest⟩

theorem Settled.host {c : Connection} (h : s.Settled c) {a : HostAction} (hq : Quiet c (.host a)) :
    (s.next (.host a)).Settled c := by
  obtain ⟨d, hd, hlatest⟩ := h
  refine ⟨d, hd, ?_⟩
  rw [players_next hq, counts_host, latest_append, hlatest]
  exact latest_same (fun n hn => sentCounts_eq hn)

theorem Settled.next {c : Connection} (h : s.Settled c) {a : WorldAction}
    (he : s.world.EnabledInOrder a) (hq : Quiet c a) : (s.next a).Settled c := by
  cases a with
  | host a => exact h.host hq
  | client b a => exact h.client he hq
  | loseToServer | loseToClient => exact he.elim

theorem settled_broadcast {c : Connection} {d : PlayerCountDisplay} (hd : s.lobbies c = some d)
    (hc : c ∈ s.world.host.handler.connectedClients) (hserver : s.world.host.handler.server = true) :
    (s.next (.host .broadcastPlayerCount)).Settled c := by
  have hq : Quiet c (.host .broadcastPlayerCount) := trivial
  refine ⟨d, hd, ?_⟩
  rw [players_next hq, counts_host, latest_append]
  refine latest_of_mem (fun n hn => sentCounts_eq hn) ?_
  refine List.mem_filterMap.mpr ⟨.playerCount ⟨roomID, s.numberOfPlayers⟩, ?_, rfl⟩
  rw [mem_channel, HostSession.act, ServerHandler.broadcastPlayerCount, if_pos hserver]
  exact ServerHandler.mem_broadcast.mpr ⟨hc, rfl⟩

/-- The host's own lobby shows the number of players, or there was none but the host yet. -/
def HostSettled (s : LobbySession) : Prop :=
  ∀ d, s.hostLobby = some d → s.world.host.handler.mGameState = .searchingForPlayers ∧
    (d.mPlayerCountText = some s.numberOfPlayers ∨
      d.mPlayerCountText = none ∧ s.world.host.handler.connectedClients = [])

/-- In the lobby every change of the connected clients is announced. -/
theorem clients_unannounced {a : HostAction} {t : ServerHandler}
    (ht : t.mGameState = .searchingForPlayers)
    (h : ∀ e ∈ (HostSession.act a t).raised, announced e = none) :
    (HostSession.act a t).state.connectedClients = t.connectedClients := by
  by_cases ha : ∃ state d, a = .statusCallback state d
  · obtain ⟨state, d, rfl⟩ := ha
    have hleaving (inGame : Bool) (hact : HostSession.act (.statusCallback state d) t =
        t.handlePlayerLeaving d inGame) :
        (HostSession.act (.statusCallback state d) t).state.connectedClients = t.connectedClients := by
      rw [hact] at h ⊢
      unfold ServerHandler.handlePlayerLeaving at h ⊢
      cases hp : t.mPlayers.lookup d with
      | none => rfl
      | some p =>
        simp only [hp, ht, if_true] at h
        exact absurd (h _ (List.mem_cons_of_mem _ List.mem_cons_self)) (Option.some_ne_none _)
    cases state with
    | connected =>
      simp only [HostSession.act, ServerHandler.serverStatusCallback, ServerHandler.handlePlayerJoining]
        at h ⊢
      split_ifs at h ⊢ with hk
      · rfl
      · exact absurd (h _ List.mem_cons_self) (Option.some_ne_none _)
    | closedByPeer | problemDetectedLocally => exact hleaving _ rfl
  · exact HostSession.clients_act (fun state d he => ha ⟨state, d, he⟩)

theorem searching_next (hr : HostSession.Roster s.world.host) {a : HostAction}
    (he : s.world.Enabled (.host a)) (ha : ∀ position, a ≠ .levelLoaded position)
    (hs : s.world.host.handler.mGameState = .searchingForPlayers) :
    (s.next (.host a)).world.host.handler.mGameState = .searchingForPlayers := by
  obtain hp | ⟨⟨position, rfl⟩, -⟩ | ⟨rfl, -⟩ := HostSession.phase_act a s.world.host.handler
  · exact hp.trans hs
  · exact absurd rfl (ha position)
  · have hmem : true ∈ s.world.host.handler.endChecks := World.enabled_host he
    have hnone : s.world.host.handler.endChecks.count true = 0 :=
      Nat.eq_zero_of_add_eq_zero_right (hr.lobby hs).2.2
    exact absurd hmem (List.count_eq_zero.mp hnone)

theorem HostSettled.next (h : s.HostSettled) (hr : HostSession.Roster s.world.host) {a : WorldAction}
    (he : s.world.Enabled a) : (s.next a).HostSettled := by
  cases a with
  | client | loseToServer | loseToClient => exact h
  | host a =>
    by_cases ha : ∃ position, a = .levelLoaded position
    · obtain ⟨position, rfl⟩ := ha
      exact fun d hd => nomatch hd
    · have hlobby : (s.next (.host a)).hostLobby =
          s.hostLobby.map (.hears (HostSession.act a s.world.host.handler).raised) := by
        cases a with
        | levelLoaded position => exact absurd ⟨position, rfl⟩ ha
        | _ => rfl
      intro d' hd'
      rw [hlobby] at hd'
      obtain ⟨d, hd, rfl⟩ := Option.map_eq_some_iff.mp hd'
      obtain ⟨hs, htext⟩ := h d hd
      refine ⟨searching_next hr he (fun position hp => ha ⟨position, hp⟩) hs, ?_⟩
      rw [PlayerCountDisplay.text_hears]
      by_cases hsilent : ∀ e ∈ (HostSession.act a s.world.host.handler).raised, announced e = none
      · have hclients := clients_unannounced hs hsilent
        have hcount : (s.next (.host a)).numberOfPlayers = s.numberOfPlayers :=
          congrArg (fun l : List Connection => (l.length : ℤ) + 1) hclients
        rw [List.filterMap_eq_nil_iff.mpr hsilent, latest_nil, hcount]
        exact htext.imp_right (fun hnone => ⟨hnone.1, hclients.trans hnone.2⟩)
      · obtain ⟨e, hannounced⟩ := not_forall.mp hsilent
        obtain ⟨he', hn⟩ := Classical.not_imp.mp hannounced
        obtain ⟨n, hn⟩ := Option.ne_none_iff_exists'.mp hn
        have hall : ∀ m ∈ (HostSession.act a s.world.host.handler).raised.filterMap announced,
            m = (s.next (.host a)).numberOfPlayers := by
          intro m hm
          obtain ⟨f, hf, hm⟩ := List.mem_filterMap.mp hm
          exact HostSession.announced_act hf hm
        have hmem := List.mem_filterMap.mpr ⟨e, he', hn⟩
        exact Or.inl (latest_of_mem hall (hall n hmem ▸ hmem))

theorem start_hostSettled : start.HostSettled := by
  intro d hd
  obtain rfl := Option.some.inj hd
  exact ⟨rfl, Or.inr ⟨rfl, rfl⟩⟩

/-- The host's table is in order and its own lobby shows the right count. -/
structure Hosted (s : LobbySession) : Prop where
  roster : HostSession.Roster s.world.host
  settled : s.HostSettled

theorem Hosted.next (h : s.Hosted) {a : WorldAction} (he : s.world.EnabledInOrder a) :
    (s.next a).Hosted := by
  have henabled := World.enabled_of_inOrder he
  exact ⟨World.roster_next h.roster henabled, h.settled.next h.roster henabled⟩

end Agree

/-- With in-order delivery a lobby that nobody joins or leaves comes to agree: after a broadcast, each
connected client that stays in its lobby and has read the counts sent to it shows the number of
players, and so does the host. -/
theorem lobby_agrees {as bs : List WorldAction} {c : Connection}
    (hl : inOrder.Legal start (as ++ .host .broadcastPlayerCount :: bs))
    (hc : c ∈ (inOrder.run start as).world.host.handler.connectedClients)
    (hopen : ((inOrder.run start as).lobbies c).isSome) (hq : ∀ b ∈ bs, Quiet c b)
    (hread : (inOrder.run start (as ++ .host .broadcastPlayerCount :: bs)).counts c = []) :
    let s := inOrder.run start (as ++ .host .broadcastPlayerCount :: bs)
    s.lobbies c = some ⟨some s.numberOfPlayers⟩ ∧
      ∀ d, s.hostLobby = some d → d.mPlayerCountText = some s.numberOfPlayers := by
  intro s
  obtain ⟨hbefore, hafter⟩ := (System.meets_append _ _ _ _ _).mp hl
  obtain ⟨-, hlater⟩ := (System.legal_cons _ _ _ bs).mp hafter
  have hhosted : Hosted start := ⟨HostSession.start_roster, start_hostSettled⟩
  have hold : (inOrder.run start as).Hosted :=
    System.invariant_legal (fun _ _ h he => h.next he) hhosted hbefore
  have hall : s.Hosted := System.invariant_legal (fun _ _ h he => h.next he) hhosted hl
  obtain ⟨d, hd⟩ := Option.isSome_iff_exists.mp hopen
  have hstep : inOrder.next (inOrder.run start as) (.host .broadcastPlayerCount) =
      (inOrder.run start as).next (.host .broadcastPlayerCount) := rfl
  have hquiet : Quiet c (.host .broadcastPlayerCount) := trivial
  have hmeets := System.meets_of_forall (M := inOrder) hq
  have hsettled : s.Settled c := by
    change (inOrder.run start _).Settled c
    rw [System.run_append, System.run_cons, hstep]
    exact System.invariant_run (I := fun s => s.Settled c) (fun _ _ h he hq => h.next he hq)
      (settled_broadcast hd hc hold.roster.server) hlater (hmeets _)
  have hplayers : s.numberOfPlayers = (inOrder.run start as).numberOfPlayers := by
    change (inOrder.run start _).numberOfPlayers = _
    rw [System.run_append, System.run_cons, hstep]
    exact System.invariant_run (I := fun t => t.numberOfPlayers = (inOrder.run start as).numberOfPlayers)
      (fun _ _ h _ hq => (players_next hq).trans h) (players_next hquiet) hlater (hmeets _)
  constructor
  · obtain ⟨e, he, hlatest⟩ := hsettled
    rw [hread, latest_nil] at hlatest
    exact he.trans (congrArg some (congrArg PlayerCountDisplay.mk hlatest))
  · intro e he
    obtain ⟨-, htext | ⟨-, hnone⟩⟩ := hall.settled e he
    · exact htext
    · have hpos := List.length_pos_of_mem hc
      have hlength : s.numberOfPlayers = 1 := congrArg (fun l : List Connection => (l.length : ℤ) + 1) hnone
      rw [hplayers, numberOfPlayers, ServerHandler.numberOfPlayers] at hlength
      omega

theorem lobby_agrees_joined :
    let s := inOrder.run start (joined ++ .host .broadcastPlayerCount :: countRead)
    s.lobbies 1 = some ⟨some s.numberOfPlayers⟩ ∧
      ∀ d, s.hostLobby = some d → d.mPlayerCountText = some s.numberOfPlayers :=
  lobby_agrees (by decide +kernel) (by decide +kernel) (by decide +kernel) (by decide +kernel)
    (by decide +kernel)

end LobbySession

end SeminarTouhou
