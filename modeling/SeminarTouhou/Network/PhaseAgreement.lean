import SeminarTouhou.Network.ServerSurvival

namespace SeminarTouhou

open Library

/-- The world with what its past was: `told` whom a change of phase was broadcast to, `loaded` the
scenes each client loaded, `reported` the results each client sent, `closed` the connections that
were closed at either end. -/
structure PhaseSession where
  world : World
  told : List (Connection × EventTypes)
  loaded : List (Connection × ℕ)
  reported : List (Connection × PlayerStoredResultData)
  closed : List Connection

namespace PhaseSession

open World

def start : PhaseSession := ⟨.start, [], [], [], []⟩

def toldAfter (s : PhaseSession) : WorldAction → List (Connection × EventTypes)
  | .host .startGame =>
    s.told ++ s.world.host.handler.connectedClients.map (fun c => (c, .startGame))
  | .host (.endCheck true) =>
    s.told ++ s.world.host.handler.connectedClients.map (fun c => (c, .gameFinished))
  | _ => s.told

def loadedAfter (s : PhaseSession) : WorldAction → List (Connection × ℕ)
  | .client c (.loadScene scene _) => (c, scene) :: s.loaded
  | _ => s.loaded

def reportedAfter (s : PhaseSession) : WorldAction → List (Connection × PlayerStoredResultData)
  | .client c (.sendPlayerResults r) => (c, r.marshalled) :: s.reported
  | _ => s.reported

def closedAfter (s : PhaseSession) : WorldAction → List Connection
  | .host (.statusCallback .closedByPeer c) => c :: s.closed
  | .host (.statusCallback .problemDetectedLocally c) => c :: s.closed
  | .client c (.statusUpdate .closedByPeer _) => c :: s.closed
  | .client c (.statusUpdate .problemDetectedLocally _) => c :: s.closed
  | _ => s.closed

def next (s : PhaseSession) (a : WorldAction) : PhaseSession :=
  ⟨s.world.next a, s.toldAfter a, s.loadedAfter a, s.reportedAfter a, s.closedAfter a⟩

def system : System PhaseSession WorldAction := ⟨fun s a => s.world.Enabled a, next⟩

instance (s : PhaseSession) (a : WorldAction) : Decidable (system.enabled s a) :=
  inferInstanceAs (Decidable (s.world.Enabled a))

def connected (s : PhaseSession) : List Connection :=
  s.world.host.handler.connectedClients.filter (fun c => c ∉ s.closed)

/-- No packet is in flight and no node has anything left to run. -/
def Settled (s : PhaseSession) : Prop :=
  s.world.toServer = [] ∧ s.world.toClient = [] ∧ s.world.host.levelLoads = 0 ∧
    s.world.host.handler.endChecks = [] ∧ ∀ c ∈ s.connected, (s.world.clients c).pending = []

def sceneOf : EventTypes → ℕ
  | .startGame => 4
  | .gameFinished => 5

/-- At rest each connected client has carried out every change of phase it was told of, and the
server has a result of its own from each connected client that sent one. -/
def PhasesAgree (s : PhaseSession) : Prop :=
  s.Settled → ∀ c ∈ s.connected,
    (∀ e, (c, e) ∈ s.told → (c, sceneOf e) ∈ s.loaded) ∧
    ∀ r, (c, r) ∈ s.reported →
      ∃ r', s.world.host.handler.mPlayerResults.lookup c = some r' ∧ (c, r') ∈ s.reported

/-- The client has carried out the change of phase or is about to. -/
def Obeys (s : PhaseSession) (c : Connection) (e : EventTypes) : Prop :=
  (c, sceneOf e) ∈ s.loaded ∨ sceneOf e ∈ (s.world.clients c).pending

instance (s : PhaseSession) (c : Connection) (e : EventTypes) : Decidable (s.Obeys c e) :=
  inferInstanceAs (Decidable (_ ∨ _))

def isResult : Packet → Bool
  | .storePlayerResults _ => true
  | _ => false

/-- A change of phase is lost only on its way to a client that is gone, that obeys already or that
another copy is under way to; a result only of a client that is gone, that has one stored or that
has another one under way; and a client that reports knows its id. -/
def Delivers (s : PhaseSession) : WorldAction → Prop
  | .loseToClient (c, .gameState d) => c ∈ s.closed ∨ s.Obeys c d.gameState ∨
      (c, .gameState d) ∈ s.world.toClient.erase (c, .gameState d)
  | .loseToServer (c, .storePlayerResults d) => c ∈ s.closed ∨
      c ∈ s.world.host.handler.mPlayerResults ∨
      ∃ e ∈ s.world.toServer.erase (c, .storePlayerResults d), e.1 = c ∧ isResult e.2 = true
  | .client c (.sendPlayerResults _) => (s.world.clients c).handler.connectionIDOnServer = c
  | _ => True

instance (s : PhaseSession) (a : WorldAction) : Decidable (s.Delivers a) := by
  rcases a with _ | ⟨_, _ | _⟩ | ⟨_, _ | _⟩ | ⟨_, _ | _⟩ <;> dsimp only [Delivers] <;> infer_instance

theorem closed_next (s : PhaseSession) (a : WorldAction) : s.closed ⊆ (s.next a).closed := by
  cases a with
  | host a =>
    cases a with
    | statusCallback state c =>
      cases state with
      | connected => exact List.Subset.refl _
      | closedByPeer | problemDetectedLocally => exact List.subset_cons_self _ _
    | _ => exact List.Subset.refl _
  | client c a =>
    cases a with
    | statusUpdate state d =>
      cases state with
      | connected => exact List.Subset.refl _
      | closedByPeer | problemDetectedLocally => exact List.subset_cons_self _ _
    | _ => exact List.Subset.refl _
  | loseToServer | loseToClient => exact List.Subset.refl _

section Phases

def Reaches (s : PhaseSession) (c : Connection) (e : EventTypes) : Prop :=
  s.Obeys c e ∨ (c, .gameState ⟨roomID, e⟩) ∈ s.world.toClient

variable {s : PhaseSession} {c : Connection} {e : EventTypes}

theorem loaded_next (a : WorldAction) (h : (c, sceneOf e) ∈ s.loaded) :
    (c, sceneOf e) ∈ (s.next a).loaded := by
  cases a with
  | client d a =>
    cases a with
    | loadScene scene position => exact List.mem_cons_of_mem _ h
    | _ => exact h
  | _ => exact h

theorem Obeys.client (h : s.Obeys c e) (d : Connection) (a : ClientAction) :
    (s.next (.client d a)).Obeys c e := by
  obtain hl | hp := h
  · exact Or.inl (loaded_next _ hl)
  · by_cases hd : c = d
    · subst hd
      have hpend : ((s.next (.client c a)).world.clients c).pending =
          (s.world.clients c).pendingAfter a ++
            ClientSession.sceneRequests (ClientSession.act a (s.world.clients c).handler).raised := by
        simp [next, World.next, clientStep]
      cases a with
      | loadScene scene position =>
        by_cases hs : sceneOf e = scene
        · subst hs
          exact Or.inl List.mem_cons_self
        · right
          rw [hpend]
          exact List.mem_append_left _ ((List.mem_erase_of_ne hs).mpr hp)
      | _ =>
        right
        rw [hpend]
        exact List.mem_append_left _ hp
    · right
      simpa only [next, World.next, clientStep, Function.update_of_ne hd] using hp

theorem obeys_read (room : UInt32) :
    (s.next (.client c (.receive (.gameState ⟨room, e⟩)))).Obeys c e := by
  right
  simp only [next, World.next, clientStep, Function.update_self, ClientSession.next_pending]
  apply List.mem_append_right
  cases e <;> simp [ClientSession.act, ClientHandler.receive, ClientHandler.handleGameState,
    ClientSession.sceneRequests, sceneOf]

theorem Reaches.next (h : s.Reaches c e) {a : WorldAction} (hok : s.Delivers a)
    (hc : c ∉ s.closed) : (s.next a).Reaches c e := by
  obtain ho | hp := h
  · cases a with
    | client d a => exact Or.inl (ho.client d a)
    | host | loseToServer | loseToClient => exact Or.inl (ho.imp_left (loaded_next _))
  · cases a with
    | host a => exact Or.inr (List.mem_append_left _ hp)
    | loseToServer f => exact Or.inr hp
    | loseToClient f =>
      by_cases hf : (c, Packet.gameState ⟨roomID, e⟩) = f
      · subst hf
        obtain hcl | ho | hmore := hok
        · exact absurd hcl hc
        · exact Or.inl (ho.imp_left (loaded_next _))
        · exact Or.inr hmore
      · exact Or.inr ((List.mem_erase_of_ne hf).mpr hp)
    | client d a =>
      by_cases hread : d = c ∧ a = .receive (.gameState ⟨roomID, e⟩)
      · obtain ⟨rfl, rfl⟩ := hread
        exact Or.inl (obeys_read roomID)
      · exact Or.inr (World.mem_toClientAfter hp hread)

theorem mem_told {told : List (Connection × EventTypes)} {clients : List Connection} {f : EventTypes}
    (h : (c, e) ∈ told ++ clients.map (fun d => (d, f))) : (c, e) ∈ told ∨ c ∈ clients ∧ e = f := by
  refine (List.mem_append.mp h).imp_right (fun h => ?_)
  obtain ⟨d, hd, heq⟩ := List.mem_map.mp h
  obtain ⟨rfl, rfl⟩ := Prod.mk.inj heq
  exact ⟨hd, rfl⟩

theorem told_next (hs : s.world.host.handler.server = true) {a : WorldAction}
    (h : (c, e) ∈ (s.next a).told) : (c, e) ∈ s.told ∨ (s.next a).Reaches c e := by
  cases a with
  | host a =>
    cases a with
    | startGame =>
      obtain h | ⟨hc, rfl⟩ := mem_told h
      · exact Or.inl h
      · refine Or.inr (Or.inr (List.mem_append_right _ ?_))
        exact ServerHandler.mem_broadcast.mpr ⟨hc, rfl⟩
    | endCheck b =>
      cases b with
      | false => exact Or.inl h
      | true =>
        obtain h | ⟨hc, rfl⟩ := mem_told h
        · exact Or.inl h
        · refine Or.inr (Or.inr (List.mem_append_right _ ?_))
          simp only [HostSession.act, ServerHandler.coDelayEndGameCheck, if_true,
            ServerHandler.handleGameFinish, hs]
          exact ServerHandler.mem_broadcast.mpr ⟨hc, rfl⟩
    | _ => exact Or.inl h
  | _ => exact Or.inl h

end Phases

section Results

def Arrives (s : PhaseSession) (c : Connection) : Prop :=
  c ∈ s.world.host.handler.mPlayerResults ∨
    ∃ e ∈ s.world.toServer, e.1 = c ∧ isResult e.2 = true

structure Faithful (s : PhaseSession) : Prop where
  sent : ∀ c d, (c, .storePlayerResults d) ∈ s.world.toServer →
    d.playerID = c ∧ (c, ServerHandler.storedResult d) ∈ s.reported
  stored : ∀ k r, s.world.host.handler.mPlayerResults.lookup k = some r →
    k = serverPlayerID ∨ (k, r) ∈ s.reported
  clients : ∀ c r, (c, r) ∈ s.reported → c ≠ serverPlayerID

variable {s : PhaseSession} {c : Connection}

theorem isResult_iff {p : Packet} : isResult p = true ↔ ∃ d, p = .storePlayerResults d := by
  cases p <;> simp [isResult]

theorem reported_next (s : PhaseSession) (a : WorldAction) : s.reported ⊆ (s.next a).reported := by
  cases a with
  | client d a =>
    cases a with
    | sendPlayerResults r => exact List.subset_cons_self _ _
    | _ => exact List.Subset.refl _
  | _ => exact List.Subset.refl _

theorem start_faithful : start.Faithful := by
  constructor
  · intro c d h
    exact absurd h List.not_mem_nil
  · intro k r h
    simp [start, World.start, HostSession.start, ServerHandler.hosted] at h
  · intro c r h
    exact absurd h List.not_mem_nil

theorem result_sent {a : ClientAction} {t : ClientHandler} {d : PlayerSendResultData}
    (h : .storePlayerResults d ∈ (ClientSession.act a t).sent) :
    ∃ r, a = .sendPlayerResults r ∧ ServerHandler.storedResult d = r.marshalled ∧
      d.playerID = t.connectionIDOnServer := by
  have hid := (ClientSession.sent_claimedID h).2
  have hr := (ClientSession.sent_claimedID h).1
  cases a with
  | sendPlayerResults r =>
    simp only [ClientSession.act, ClientHandler.handleSendPlayerResults] at h
    split_ifs at h
    · obtain ⟨rfl⟩ := List.mem_singleton.mp h
      exact ⟨r, rfl, rfl, rfl⟩
    · simp at h
  | sendPlayerData =>
    obtain ⟨o, -, ho⟩ := List.mem_map.mp h
    cases ho
  | fireOffensiveBomb pos =>
    obtain ⟨o, -, ho⟩ := List.mem_map.mp h
    cases ho
  | statusUpdate | receive | loadScene | interpolate | movePlayer | destroyPlayer | endOfFrame =>
    exact hr.elim

theorem sent_next (h : s.Faithful) {a : WorldAction} (hok : s.Delivers a) {d : PlayerSendResultData}
    (hd : (c, .storePlayerResults d) ∈ (s.next a).world.toServer) :
    d.playerID = c ∧ (c, ServerHandler.storedResult d) ∈ (s.next a).reported := by
  have hold (hd : (c, .storePlayerResults d) ∈ s.world.toServer) :
      d.playerID = c ∧ (c, ServerHandler.storedResult d) ∈ (s.next a).reported :=
    ⟨(h.sent c d hd).1, reported_next s a (h.sent c d hd).2⟩
  cases a with
  | host a => exact hold (toServerAfter_subset s.world a hd)
  | loseToClient f => exact hold hd
  | loseToServer f => exact hold (List.erase_subset hd)
  | client b a =>
    obtain hd | ⟨rfl, hp⟩ := mem_toServer_clientStep hd
    · exact hold hd
    · obtain ⟨r, rfl, hstored, hid⟩ := result_sent hp
      have hreg : (s.world.clients c).handler.connectionIDOnServer = c := hok
      rw [hstored]
      exact ⟨hid.trans hreg, List.mem_cons_self⟩

theorem stored_next (h : s.Faithful) {a : WorldAction} (he : s.world.Enabled a) {k : UInt32}
    {r : PlayerStoredResultData}
    (hk : (s.next a).world.host.handler.mPlayerResults.lookup k = some r) :
    k = serverPlayerID ∨ (k, r) ∈ (s.next a).reported := by
  have hold (hk : s.world.host.handler.mPlayerResults.lookup k = some r) :
      k = serverPlayerID ∨ (k, r) ∈ (s.next a).reported :=
    (h.stored k r hk).imp_right (fun hr => reported_next s a hr)
  cases a with
  | client | loseToServer | loseToClient => exact hold hk
  | host a =>
    simp only [next, World.next, hostStep, HostSession.next_handler] at hk
    obtain hs | ⟨r', -, -, hs⟩ | ⟨c, d, rfl, -, hs⟩ := HostSession.results_act a s.world.host.handler
    · rw [hs] at hk
      exact hold hk
    · rw [hs] at hk
      by_cases hks : k = serverPlayerID
      · exact Or.inl hks
      · rw [AList.lookup_insert_ne hks] at hk
        exact hold hk
    · rw [hs] at hk
      obtain ⟨hid, hrep⟩ := h.sent c d he.2
      by_cases hkd : k = d.playerID
      · subst hkd
        rw [AList.lookup_insert, Option.some.injEq] at hk
        subst hk
        rw [hid]
        exact Or.inr (reported_next s _ hrep)
      · rw [AList.lookup_insert_ne hkd] at hk
        exact hold hk

theorem Faithful.next (h : s.Faithful) {a : WorldAction} (he : s.world.Enabled a)
    (hok : s.Delivers a) : (s.next a).Faithful := by
  constructor
  · intro c d
    exact sent_next h hok
  · intro k r
    exact stored_next h he
  · intro c r hr
    cases a with
    | client d a =>
      have hd := (enabled_client he).1
      cases a with
      | sendPlayerResults r' =>
        obtain heq | hr := List.mem_cons.mp hr
        · obtain ⟨rfl, -⟩ := Prod.mk.inj heq
          exact hd
        · exact h.clients c r hr
      | _ => exact h.clients c r hr
    | _ => exact h.clients c r hr

theorem Arrives.next (h : s.Arrives c) (hf : s.Faithful) {a : WorldAction} (hok : s.Delivers a)
    (hc : c ∉ s.closed) : (s.next a).Arrives c := by
  obtain hk | ⟨f, hmem, hfc, hfr⟩ := h
  · cases a with
    | host a => exact Or.inl (HostSession.results_kept hk)
    | _ => exact Or.inl hk
  · cases a with
    | client d a => exact Or.inr ⟨f, List.mem_append_left _ hmem, hfc, hfr⟩
    | loseToClient g => exact Or.inr ⟨f, hmem, hfc, hfr⟩
    | loseToServer g =>
      by_cases hfg : f = g
      · subst hfg
        obtain ⟨c', p⟩ := f
        obtain ⟨d, rfl⟩ := isResult_iff.mp hfr
        obtain rfl : c' = c := hfc
        obtain hcl | hk | hmore := hok
        · exact absurd hcl hc
        · exact Or.inl hk
        · exact Or.inr hmore
      · exact Or.inr ⟨f, (List.mem_erase_of_ne hfg).mpr hmem, hfc, hfr⟩
    | host a =>
      cases a with
      | receive b p =>
        by_cases hfg : f = (b, p)
        · subst hfg
          obtain ⟨d, rfl⟩ := isResult_iff.mp hfr
          obtain rfl : b = c := hfc
          left
          have hread := HostSession.results_read b d s.world.host.handler
          rwa [(hf.sent b d hmem).1] at hread
        · exact Or.inr ⟨f, (List.mem_erase_of_ne hfg).mpr hmem, hfc, hfr⟩
      | _ => exact Or.inr ⟨f, hmem, hfc, hfr⟩

end Results

structure Underway (s : PhaseSession) : Prop where
  roster : HostSession.Roster s.world.host
  sockets : ∀ c, (s.world.clients c).handler.client = true
  faithful : s.Faithful
  phases : ∀ c e, (c, e) ∈ s.told → c ∉ s.closed → s.Reaches c e
  results : ∀ c r, (c, r) ∈ s.reported → c ∉ s.closed → s.Arrives c

theorem start_underway : start.Underway := by
  refine ⟨HostSession.start_roster, fun _ => rfl, start_faithful, ?_, ?_⟩
  · intro c e h
    exact absurd h List.not_mem_nil
  · intro c r h
    exact absurd h List.not_mem_nil

theorem sockets_next {w : World} (h : ∀ c, (w.clients c).handler.client = true) (a : WorldAction)
    (c : Connection) : ((w.next a).clients c).handler.client = true := by
  cases a with
  | client d a =>
    by_cases hd : c = d
    · subst hd
      simp only [World.next, clientStep, Function.update_self, ClientSession.next_handler]
      rw [ClientSession.client_act]
      exact h c
    · simp only [World.next, clientStep, Function.update_of_ne hd]
      exact h c
  | host | loseToServer | loseToClient => exact h c

theorem reported_arrives {s : PhaseSession} {a : WorldAction} {c : Connection}
    {r : PlayerStoredResultData} (hclient : (s.world.clients c).handler.client = true)
    (h : (c, r) ∈ (s.next a).reported) : (c, r) ∈ s.reported ∨ (s.next a).Arrives c := by
  cases a with
  | client d a =>
    cases a with
    | sendPlayerResults r' =>
      obtain heq | h := List.mem_cons.mp h
      · obtain ⟨rfl, rfl⟩ := Prod.mk.inj heq
        have hsent : ∃ d, (ClientSession.act (.sendPlayerResults r') (s.world.clients c).handler).sent =
            [.storePlayerResults d] := by
          simp only [ClientSession.act, ClientHandler.handleSendPlayerResults, hclient, if_true]
          exact ⟨_, rfl⟩
        obtain ⟨d, hsent⟩ := hsent
        refine Or.inr (Or.inr ⟨(c, .storePlayerResults d), List.mem_append_right _ ?_, rfl, rfl⟩)
        rw [hsent]
        exact List.mem_singleton_self _
      · exact Or.inl h
    | _ => exact Or.inl h
  | _ => exact Or.inl h

theorem Underway.next {s : PhaseSession} (h : s.Underway) {a : WorldAction}
    (he : s.world.Enabled a) (hok : s.Delivers a) : (s.next a).Underway := by
  refine ⟨roster_next h.roster he, sockets_next h.sockets a, h.faithful.next he hok, ?_, ?_⟩
  · intro c e hce hc
    have hold : c ∉ s.closed := fun hcl => hc (closed_next s a hcl)
    obtain ht | hr := told_next h.roster.server hce
    · exact (h.phases c e ht hold).next hok hold
    · exact hr
  · intro c r hcr hc
    have hold : c ∉ s.closed := fun hcl => hc (closed_next s a hcl)
    obtain hr | ha := reported_arrives (h.sockets c) hcr
    · exact (h.results c r hr hold).next h.faithful hok hold
    · exact ha

theorem Underway.agree {s : PhaseSession} (h : s.Underway) : s.PhasesAgree := by
  rintro ⟨hserver, hclient, -, -, hpending⟩ c hc
  have hopen : c ∉ s.closed := of_decide_eq_true (List.mem_filter.mp hc).2
  constructor
  · intro e he
    obtain (hl | hp) | hf := h.phases c e he hopen
    · exact hl
    · rw [hpending c hc] at hp
      exact absurd hp List.not_mem_nil
    · rw [hclient] at hf
      exact absurd hf List.not_mem_nil
  · intro r hr
    obtain hk | ⟨f, hf, -⟩ := h.results c r hr hopen
    · obtain ⟨r', hr'⟩ := Dict.exists_lookup hk
      exact ⟨r', hr', (h.faithful.stored c r' hr').resolve_left (h.faithful.clients c r hr)⟩
    · rw [hserver] at hf
      exact absurd hf List.not_mem_nil

theorem phases_agree {as : List WorldAction} (hl : system.Legal start as)
    (hok : system.Meets Delivers start as) : (system.run start as).PhasesAgree := by
  have hstep (s : PhaseSession) (a : WorldAction) (hi : s.Underway) (he : system.enabled s a)
      (ha : s.Delivers a) : (system.next s a).Underway := hi.next he ha
  exact (System.invariant_run hstep start_underway hl hok).agree

/-- A client joins, its `START` is lost, and everything else runs to its end. -/
def lostStart : List WorldAction :=
  [.host (.statusCallback .connected 1), .client 1 (.statusUpdate .connected 1),
    .client 1 (.receive (.registerPlayer ⟨1, 1⟩)), .client 1 (.loadScene 3 ⟨0, 0, 0⟩),
    .host .startGame, .loseToClient (1, .gameState ⟨1, .startGame⟩), .host (.levelLoaded ⟨0, 0, 0⟩)]

theorem lostStart_disagrees : system.Legal start lostStart ∧
    ¬(system.run start lostStart).PhasesAgree := by
  refine ⟨by decide +kernel, ?_⟩
  intro h
  have hsettled : (system.run start lostStart).Settled := by
    refine ⟨by decide +kernel, by decide +kernel, by decide +kernel, by decide +kernel, ?_⟩
    have hpending : ((system.run start lostStart).connected.all
      (fun c => ((system.run start lostStart).world.clients c).pending = [])) = true := by decide +kernel
    simpa using hpending
  have hloaded := (h hsettled 1 (by decide +kernel)).1 .startGame (by decide +kernel)
  revert hloaded
  decide +kernel

def countLost : List WorldAction :=
  [.host (.statusCallback .connected 1), .client 1 (.statusUpdate .connected 1),
    .client 1 (.receive (.registerPlayer ⟨1, 1⟩)), .client 1 (.loadScene 3 ⟨0, 0, 0⟩),
    .host .broadcastPlayerCount, .loseToClient (1, .playerCount ⟨1, 2⟩), .host .startGame,
    .client 1 (.receive (.gameState ⟨1, .startGame⟩)), .client 1 (.loadScene 4 ⟨0, 0, 0⟩),
    .host (.levelLoaded ⟨0, 0, 0⟩), .host (.sendPlayerResults ⟨"host", 1, 1, 1, .playerDied⟩),
    .client 1 (.receive (.otherPlayerFinish ⟨1, 0, .playerDied⟩)),
    .client 1 (.sendPlayerResults ⟨"guest", 2, 2, 2, .playerWon⟩),
    .host (.receive 1 (.storePlayerResults ⟨1, 1, 2, 2, 2, .playerWon, "guest"⟩)),
    .host (.endCheck false), .host (.endCheck true),
    .client 1 (.receive (.gameState ⟨1, .gameFinished⟩)), .client 1 (.loadScene 5 ⟨0, 0, 0⟩)]

theorem phases_agree_countLost : (system.run start countLost).PhasesAgree :=
  phases_agree (by decide +kernel) (by decide +kernel)

end PhaseSession

end SeminarTouhou
