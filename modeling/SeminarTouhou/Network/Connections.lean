import SeminarTouhou.Network.ServerSurvival

namespace SeminarTouhou

open Library

namespace HostSession

open ServerHandler

def announced : Event → Option ℤ
  | .numberOfJoinedPlayersChanged n => some n
  | _ => none

def carried : Packet → Option ℤ
  | .playerCount d => some d.playerCount
  | _ => none

theorem finishEvents_silent {context : ResultContext} {obj : Option GameObject}
    {events : List Event} (h : finishEvents context obj = .ok events) :
    ∀ e ∈ events, announced e = none := by
  intro e he
  obtain ⟨pos, rfl | rfl⟩ := mem_finishEvents h he <;> rfl

theorem receive_silent (p : Packet) (s : ServerHandler) :
    ∀ e ∈ (s.receive p).raised, announced e = none := by
  cases p with
  | storePlayerResults d =>
    simp only [receive, handleReceivePlayerResult]
    split_ifs
    · simp
    · split
      · simp
      · split
        · simp
        · next h => exact finishEvents_silent h
  | offensiveBombData d =>
    simp only [receive, handleOffensiveBombData]
    repeat' split
    all_goals simp [announced]
  | playerData | registerPlayer | playerCount | gameState | sendResult | otherPlayerFinish =>
    simp [receive, ServerHandler.handlePlayerData]

theorem announced_leaving {c : Connection} {inGame : Bool} {s : ServerHandler} {e : Event} {n : ℤ}
    (he : e ∈ (s.handlePlayerLeaving c inGame).raised) (hn : announced e = some n) :
    n = (s.handlePlayerLeaving c inGame).state.numberOfPlayers := by
  unfold handlePlayerLeaving at he ⊢
  cases hp : s.mPlayers.lookup c with
  | none => simp [hp] at he
  | some p =>
    simp only [hp, Outcome.raises_raised, Outcome.raises_state] at he ⊢
    obtain rfl | he := List.mem_cons.mp he
    · simp [announced] at hn
    · by_cases hl : s.mGameState = .searchingForPlayers
      · rw [if_pos hl] at he
        obtain rfl := List.mem_singleton.mp he
        exact (Option.some.inj hn).symm
      · rw [if_neg hl] at he
        exact absurd he List.not_mem_nil

theorem announced_act {a : HostAction} {s : ServerHandler} {e : Event} {n : ℤ}
    (he : e ∈ (act a s).raised) (hn : announced e = some n) :
    n = (act a s).state.numberOfPlayers := by
  have hsilent (h : ∀ e ∈ (act a s).raised, announced e = none) :
      n = (act a s).state.numberOfPlayers := by
    rw [h e he] at hn
    simp at hn
  cases a with
  | statusCallback state c =>
    cases state with
    | connected =>
      simp only [act, serverStatusCallback, handlePlayerJoining] at he ⊢
      split_ifs at he ⊢
      · simp at he
      · obtain rfl := List.mem_singleton.mp he
        exact (Option.some.inj hn).symm
    | closedByPeer | problemDetectedLocally => exact announced_leaving he hn
  | receive c p => exact hsilent (receive_silent p s)
  | endCheck b =>
    apply hsilent
    simp only [act, coDelayEndGameCheck, handleGameFinish]
    split_ifs <;> simp [announced]
  | broadcastResults =>
    apply hsilent
    simp only [act, ServerHandler.broadcastResults]
    split_ifs
    · intro e he
      obtain ⟨d, -, rfl⟩ := List.mem_map.mp he
      rfl
    · simp
  | levelLoaded position =>
    apply hsilent
    simp only [act, handleRegisterPlayer]
    split_ifs <;> simp
  | sendPlayerResults r =>
    apply hsilent
    simp only [act, handleSendPlayerResults]
    split_ifs <;> simp
  | startGame | fireOffensiveBomb | sendPlayerData | broadcastPlayerCount | interpolate | movePlayer
  | destroyPlayer | unloadScene | endOfFrame =>
    apply hsilent
    simp [act, handleBroadcastGameStart, sendBombDataFromServer, ServerHandler.sendPlayerData,
      ServerHandler.broadcastPlayerCount, ServerHandler.handleInterpolatePlayerPoses]

theorem carried_of_about {p : Packet} {id : UInt32} (h : p.about = some id) : carried p = none := by
  cases p <;> first | rfl | simp [Packet.about] at h

theorem carried_act {a : HostAction} {s : ServerHandler} {e : Connection × Packet} {n : ℤ}
    (he : e ∈ (act a s).sent) (hn : carried e.2 = some n) :
    n = (act a s).state.numberOfPlayers := by
  obtain ⟨c, p⟩ := e
  have hs : Sends a s c p := sends_act he
  cases hs with
  | news p id hp => simp [carried_of_about hp] at hn
  | count ha =>
    subst ha
    exact (Option.some.inj hn).symm
  | register | started | finished | result => simp [carried] at hn

theorem clients_act {a : HostAction} {s : ServerHandler}
    (ha : ∀ state c, a ≠ .statusCallback state c) :
    (act a s).state.connectedClients = s.connectedClients := by
  cases a with
  | statusCallback state c => exact absurd rfl (ha state c)
  | receive c p => exact clients_receive p s
  | endCheck b => cases b <;> rfl
  | levelLoaded position =>
    simp only [act, handleRegisterPlayer]
    split_ifs <;> rfl
  | sendPlayerResults r =>
    simp only [act, handleSendPlayerResults]
    split_ifs
    · rfl
    · exact handleGameEndCheck_clients _
  | broadcastResults =>
    simp only [act, ServerHandler.broadcastResults]
    split_ifs <;> rfl
  | startGame | fireOffensiveBomb | sendPlayerData | broadcastPlayerCount | interpolate | movePlayer
  | destroyPlayer | unloadScene | endOfFrame => rfl

theorem keys_act {a : HostAction} {s : ServerHandler} (hs : s.server = true) {k : UInt32}
    (hk : k ∈ (act a s).state.mPlayers) : k ∈ s.mPlayers ∨ k = serverPlayerID ∨
      a = .statusCallback .connected k ∨ ∃ c p, a = .receive c p ∧ p.claimedID = some k := by
  by_cases ha : Inert a
  · exact Or.inl (((act_inert ha s).1.players k).mp hk)
  cases a with
  | statusCallback state c =>
    cases state with
    | connected =>
      simp only [act, serverStatusCallback, handlePlayerJoining] at hk
      split_ifs at hk
      · exact Or.inl hk
      · obtain rfl | hk := (AList.mem_insert _).mp hk
        · exact Or.inr (Or.inr (Or.inl rfl))
        · exact Or.inl hk
    | closedByPeer | problemDetectedLocally =>
      change k ∈ (closing c s).mPlayers at hk
      obtain ⟨-, he⟩ | ⟨p, hp, he⟩ := closing_cases c s
      · rw [he] at hk
        exact Or.inl hk
      · rw [he] at hk
        dsimp only at hk
        split_ifs at hk
        · obtain rfl | hk := (AList.mem_insert _).mp hk
          · exact Or.inl (Dict.mem_of_lookup hp)
          · exact Or.inl hk
        · exact Or.inl (AList.mem_erase.mp hk).2
  | startGame => exact Or.inl hk
  | levelLoaded position =>
    obtain ⟨t, he, -, hmem, -⟩ := handleRegisterPlayer_state s hs ⟨.player, position, .alive⟩
    simp only [act, he] at hk
    obtain rfl | hk := (hmem k).mp hk
    · exact Or.inr (Or.inl rfl)
    · exact Or.inl hk
  | sendPlayerResults r =>
    simp only [act, handleSendPlayerResults] at hk
    split_ifs at hk
    · exact Or.inl hk
    · simp only [Outcome.sends_state, handleGameEndCheck_players] at hk
      exact Or.inl hk
  | receive c p =>
    simp only [act] at hk
    obtain he | ⟨d, rfl, he⟩ | ⟨d, rfl, -, he | ⟨q, hd, he, -⟩⟩ := receive_state p s
    · rw [he] at hk
      exact Or.inl hk
    · rw [he] at hk
      by_cases hd : k = d.playerID
      · exact Or.inr (Or.inr (Or.inr ⟨c, _, rfl, congrArg some hd.symm⟩))
      · exact Or.inl ((Dict.mem_congr (PlayerTable.handlePlayerData_other hd)).mp hk)
    · rw [he] at hk
      exact Or.inl hk
    · rw [he, handleGameEndCheck_players] at hk
      obtain rfl | hk := (AList.mem_insert _).mp hk
      · exact Or.inl hd
      · exact Or.inl hk
  | endCheck b => cases b <;> exact Or.inl hk
  | fireOffensiveBomb | sendPlayerData | broadcastPlayerCount | broadcastResults | interpolate
  | movePlayer | destroyPlayer | unloadScene | endOfFrame => exact absurd trivial ha

end HostSession

/-- A hosted session and the connections whose `Connected` and whose close callback it has
processed. -/
structure ConnectedSession where
  session : HostSession
  opened : List Connection
  closed : List Connection
deriving DecidableEq

namespace ConnectedSession

open HostSession

def start : ConnectedSession := ⟨.start, [], []⟩

/-- A handle connects at most once, which it cannot do after it was closed, and a client that has
its id from the `Connected` callback puts it in its packets. -/
def Enabled (s : ConnectedSession) (a : HostAction) : Prop :=
  s.session.Enabled a ∧
    match a with
    | .statusCallback .connected c => c ∉ s.opened ∧ c ∉ s.closed
    | .receive c p => c ∈ s.opened ∧ p.claimedID ∈ [none, some c]
    | _ => True

instance (s : ConnectedSession) (a : HostAction) : Decidable (s.Enabled a) := by
  rcases a with ⟨_ | _, _⟩ | _ <;> dsimp only [Enabled] <;> infer_instance

def openedAfter (s : ConnectedSession) : HostAction → List Connection
  | .statusCallback .connected c => c :: s.opened
  | _ => s.opened

def closedAfter (s : ConnectedSession) : HostAction → List Connection
  | .statusCallback .closedByPeer c => c :: s.closed
  | .statusCallback .problemDetectedLocally c => c :: s.closed
  | _ => s.closed

def next (s : ConnectedSession) (a : HostAction) : ConnectedSession :=
  ⟨s.session.next a, s.openedAfter a, s.closedAfter a⟩

def system : System ConnectedSession HostAction := ⟨Enabled, next⟩

instance (s : ConnectedSession) (a : HostAction) : Decidable (system.enabled s a) :=
  inferInstanceAs (Decidable (s.Enabled a))

def connections (s : ConnectedSession) : List Connection := s.opened.filter (fun c => c ∉ s.closed)

/-- Every player count that a step announces or broadcasts is the number of connected clients
plus one. -/
def CountsExactly (s : ConnectedSession) (a : HostAction) : Prop :=
  (∀ e ∈ (act a s.session.handler).raised, ∀ n, announced e = some n →
    n = (s.next a).connections.length + 1) ∧
  ∀ e ∈ (act a s.session.handler).sent, ∀ n, carried e.2 = some n →
    n = (s.next a).connections.length + 1

structure Exact (s : ConnectedSession) : Prop where
  roster : Roster s.session
  once : s.opened.Nodup
  clients : ∀ c, c ∈ s.session.handler.connectedClients ↔ c ∈ s.connections
  keys : ∀ k ∈ s.session.handler.mPlayers, k = serverPlayerID ∨ k ∈ s.opened

theorem Exact.counted {s : ConnectedSession} (h : s.Exact) :
    s.session.handler.numberOfPlayers = s.connections.length + 1 := by
  have hp : s.session.handler.connectedClients.Perm s.connections :=
    (List.perm_ext_iff_of_nodup h.roster.nodup (h.once.filter _)).mpr h.clients
  rw [ServerHandler.numberOfPlayers, hp.length_eq]

theorem start_exact : start.Exact :=
  ⟨start_roster, List.nodup_nil, fun _ => Iff.rfl, fun k hk => absurd hk (AList.notMem_empty k)⟩

theorem mem_connections {s : ConnectedSession} {c : Connection} :
    c ∈ s.connections ↔ c ∈ s.opened ∧ c ∉ s.closed := by
  rw [connections, List.mem_filter, decide_eq_true_iff]

theorem Exact.open {s : ConnectedSession} (h : s.Exact) {c : Connection}
    (he : s.Enabled (.statusCallback .connected c)) : (s.next (.statusCallback .connected c)).Exact := by
  obtain ⟨hen, hnew, hclosed⟩ := he
  have hkey : c ∉ s.session.handler.mPlayers := by
    intro hk
    obtain h0 | ho := h.keys c hk
    · exact hen.1 h0
    · exact hnew ho
  have hclients : (act (.statusCallback .connected c) s.session.handler).state.connectedClients =
      s.session.handler.connectedClients ++ [c] := by
    simp only [act, ServerHandler.serverStatusCallback, ServerHandler.handlePlayerJoining, if_neg hkey]
  constructor
  · exact keeps_roster h.roster hen
  · exact List.nodup_cons.mpr ⟨hnew, h.once⟩
  · intro d
    rw [mem_connections, next, next_handler, hclients, List.mem_append, h.clients, mem_connections]
    simp only [openedAfter, closedAfter, List.mem_cons, List.not_mem_nil, or_false]
    constructor
    · rintro (⟨ho, hc⟩ | rfl)
      · exact ⟨Or.inr ho, hc⟩
      · exact ⟨Or.inl rfl, hclosed⟩
    · rintro ⟨rfl | ho, hc⟩
      · exact Or.inr rfl
      · exact Or.inl ⟨ho, hc⟩
  · intro k hk
    obtain hk | h0 | ha | ⟨d, p, ha, -⟩ := keys_act h.roster.server hk
    · exact (h.keys k hk).imp_right (List.mem_cons_of_mem c)
    · exact Or.inl h0
    · cases ha
      exact Or.inr List.mem_cons_self
    · cases ha

theorem Exact.close {s : ConnectedSession} (h : s.Exact) {a : HostAction} {c : Connection}
    (he : s.session.Enabled a) (ho : s.openedAfter a = s.opened)
    (hc : s.closedAfter a = c :: s.closed)
    (hs : (act a s.session.handler).state = closing c s.session.handler) : (s.next a).Exact := by
  constructor
  · exact keeps_roster h.roster he
  · rw [next, ho]
    exact h.once
  · intro d
    have hsplit : d ∈ (closing c s.session.handler).connectedClients ↔
        d ≠ c ∧ d ∈ s.session.handler.connectedClients := by
      obtain ⟨hk, he⟩ | ⟨p, hp, he⟩ := closing_cases c s.session.handler
      · rw [he]
        constructor
        · intro hd
          exact ⟨fun hdc => hk (hdc ▸ h.roster.known d hd), hd⟩
        · exact And.right
      · rw [he]
        exact h.roster.nodup.mem_erase_iff
    rw [mem_connections, next, next_handler, hs, hsplit, h.clients, mem_connections, ho, hc,
      List.mem_cons, not_or]
    tauto
  · intro k hk
    rw [next, ho]
    rw [next, next_handler, hs] at hk
    apply h.keys k
    obtain ⟨-, he⟩ | ⟨p, hp, he⟩ := closing_cases c s.session.handler
    · rwa [he] at hk
    · rw [he] at hk
      dsimp only at hk
      split_ifs at hk
      · obtain rfl | hk := (AList.mem_insert _).mp hk
        · exact Dict.mem_of_lookup hp
        · exact hk
      · exact (AList.mem_erase.mp hk).2

theorem Exact.quiet {s : ConnectedSession} (h : s.Exact) {a : HostAction} (he : s.Enabled a)
    (ha : ∀ state c, a ≠ .statusCallback state c) : (s.next a).Exact := by
  have ho : s.openedAfter a = s.opened := by
    cases a with
    | statusCallback state c => exact absurd rfl (ha state c)
    | _ => rfl
  have hc : s.closedAfter a = s.closed := by
    cases a with
    | statusCallback state c => exact absurd rfl (ha state c)
    | _ => rfl
  constructor
  · exact keeps_roster h.roster he.1
  · rw [next, ho]
    exact h.once
  · intro c
    rw [mem_connections, next, next_handler, clients_act ha, h.clients, mem_connections, ho, hc]
  · intro k hk
    rw [next, ho]
    obtain hk | h0 | hj | ⟨d, p, rfl, hp⟩ := keys_act h.roster.server hk
    · exact h.keys k hk
    · exact Or.inl h0
    · exact absurd hj (ha _ _)
    · obtain ⟨-, hopen, hid⟩ := he
      rw [hp] at hid
      simp only [List.mem_cons, reduceCtorEq, Option.some.injEq, List.not_mem_nil, or_false,
        false_or] at hid
      exact Or.inr (hid ▸ hopen)

theorem Exact.next {s : ConnectedSession} (h : s.Exact) {a : HostAction} (he : s.Enabled a) :
    (s.next a).Exact := by
  cases a with
  | statusCallback state c =>
    cases state with
    | connected => exact h.open he
    | closedByPeer | problemDetectedLocally => exact h.close he.1 rfl rfl rfl
  | _ => exact h.quiet he (fun _ _ => by simp)

theorem countsExactly {s : ConnectedSession} (h : s.Exact) {a : HostAction} (he : s.Enabled a) :
    s.CountsExactly a := by
  have hcount := (h.next he).counted
  constructor
  · intro e hm n hn
    rw [announced_act hm hn]
    exact hcount
  · intro e hm n hn
    rw [carried_act hm hn]
    exact hcount

/-- The server's roster is exact in every state of a session: its clients are the connections that
opened and did not close, each has its entry, in the lobby there is no other entry, and every count
that is announced is right. -/
theorem roster_exact {as : List HostAction} (hl : system.Legal start as) :
    let s := system.run start as
    let server := s.session.handler
    server.connectedClients.Nodup ∧
      (∀ c, c ∈ server.connectedClients ↔ c ∈ s.opened ∧ c ∉ s.closed) ∧
      (∀ c ∈ server.connectedClients, c ∈ server.mPlayers) ∧
      (server.mGameState = .searchingForPlayers →
        ∀ k, k ∈ server.mPlayers ↔ k ∈ server.connectedClients) ∧
      system.Meets CountsExactly start as := by
  have hstep : ∀ s a, Exact s → system.enabled s a → Exact (system.next s a) :=
    fun s a h he => h.next he
  have hlaw : ∀ s a, Exact s → system.enabled s a → CountsExactly s a :=
    fun s a h he => countsExactly h he
  have h := System.invariant_legal hstep start_exact hl
  refine ⟨h.roster.nodup, ?_, h.roster.known, ?_, System.every_legal_step hstep hlaw start_exact hl⟩
  · intro c
    rw [h.clients, mem_connections]
  · intro hlobby k
    exact ⟨(h.roster.lobby hlobby).2.1 k, h.roster.known k⟩

def joinAndLeave : List HostAction :=
  [.statusCallback .connected 7, .statusCallback .connected 9, .statusCallback .closedByPeer 7,
    .broadcastPlayerCount]

theorem roster_exact_joinAndLeave :
    let s := system.run start joinAndLeave
    let server := s.session.handler
    server.connectedClients.Nodup ∧
      (∀ c, c ∈ server.connectedClients ↔ c ∈ s.opened ∧ c ∉ s.closed) ∧
      (∀ c ∈ server.connectedClients, c ∈ server.mPlayers) ∧
      (server.mGameState = .searchingForPlayers →
        ∀ k, k ∈ server.mPlayers ↔ k ∈ server.connectedClients) ∧
      system.Meets CountsExactly start joinAndLeave :=
  roster_exact (by decide +kernel)

end ConnectedSession

end SeminarTouhou
