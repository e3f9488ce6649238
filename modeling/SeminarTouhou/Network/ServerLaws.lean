import SeminarTouhou.Network.HostSession

namespace SeminarTouhou

open Library

theorem mem_finishEvents {context : ResultContext} {obj : Option GameObject} {events : List Event}
    (h : finishEvents context obj = .ok events) {e : Event} (he : e ∈ events) :
    ∃ pos, e = .playerWin false pos ∨ e = .playerDie false pos := by
  cases context with
  | playerDisconnected =>
    simp only [finishEvents, Except.ok.injEq] at h
    rw [← h] at he
    exact absurd he List.not_mem_nil
  | playerWon | playerDied =>
    cases ho : deref obj with
    | error x => simp [finishEvents, ho, Except.map] at h
    | ok o =>
      simp only [finishEvents, ho, Except.map, Except.ok.injEq] at h
      rw [← h, List.mem_singleton] at he
      exact ⟨o.position, by simp [he]⟩

theorem finishEvents_noTransition {context : ResultContext} {obj : Option GameObject}
    {events : List Event} (h : finishEvents context obj = .ok events) (scene : ℕ) :
    .sceneTransition scene ∉ events := by
  intro he
  obtain ⟨pos, he | he⟩ := mem_finishEvents h he <;> nomatch he

theorem finishEvents_alive {obj : Option GameObject} {o : GameObject} (context : ResultContext)
    (ho : obj = some o) (h : o.life = .alive) : ∃ events, finishEvents context obj = .ok events := by
  subst ho
  cases context <;> simp [finishEvents, deref_of_alive h, Except.map]

namespace ServerHandler

/-- The fields that decide when the game ends are untouched. -/
structure SameRoster (s t : ServerHandler) : Prop where
  players : ∀ k, k ∈ t.mPlayers ↔ k ∈ s.mPlayers
  results : t.mPlayerResults = s.mPlayerResults
  clients : t.connectedClients = s.connectedClients
  state : t.mGameState = s.mGameState
  done : t.mGameDone = s.mGameDone
  server : t.server = s.server
  checks : t.endChecks = s.endChecks

theorem SameRoster.refl (s : ServerHandler) : SameRoster s s :=
  ⟨fun _ => Iff.rfl, rfl, rfl, rfl, rfl, rfl, rfl⟩

theorem sameRoster_players (s : ServerHandler) {t : PlayerTable}
    (h : ∀ k, k ∈ t ↔ k ∈ s.mPlayers) : SameRoster s { s with mPlayers := t } :=
  ⟨h, rfl, rfl, rfl, rfl, rfl, rfl⟩

@[simp] theorem handleGameEndCheck_players (s : ServerHandler) :
    s.handleGameEndCheck.mPlayers = s.mPlayers := by
  unfold handleGameEndCheck; split_ifs <;> rfl

@[simp] theorem handleGameEndCheck_results (s : ServerHandler) :
    s.handleGameEndCheck.mPlayerResults = s.mPlayerResults := by
  unfold handleGameEndCheck; split_ifs <;> rfl

@[simp] theorem handleGameEndCheck_clients (s : ServerHandler) :
    s.handleGameEndCheck.connectedClients = s.connectedClients := by
  unfold handleGameEndCheck; split_ifs <;> rfl

@[simp] theorem handleGameEndCheck_state (s : ServerHandler) :
    s.handleGameEndCheck.mGameState = s.mGameState := by
  unfold handleGameEndCheck; split_ifs <;> rfl

@[simp] theorem handleGameEndCheck_done (s : ServerHandler) :
    s.handleGameEndCheck.mGameDone = s.mGameDone := by
  unfold handleGameEndCheck; split_ifs <;> rfl

@[simp] theorem handleGameEndCheck_server (s : ServerHandler) :
    s.handleGameEndCheck.server = s.server := by
  unfold handleGameEndCheck; split_ifs <;> rfl

theorem handleGameEndCheck_checks {s : ServerHandler} (h : s.mGameDone = false) :
    s.handleGameEndCheck.endChecks = s.endChecks ++ [s.checkIfGameFinished] := by
  simp [handleGameEndCheck, h]

theorem checkIfGameFinished_iff {s : ServerHandler} (h : ∀ k ∈ s.mPlayerResults, k ∈ s.mPlayers) :
    s.checkIfGameFinished = true ↔ ∀ k ∈ s.mPlayers, k ∈ s.mPlayerResults := by
  simp only [checkIfGameFinished, decide_eq_true_eq]
  exact Dict.count_eq_iff h

def withResult (s : ServerHandler) (k : UInt32) (r : PlayerStoredResultData) : ServerHandler :=
  { s with mPlayerResults := s.mPlayerResults.insert k r }

/-- A result is refused, stored by a call that then fails, or stored and followed by the check. -/
theorem handleReceivePlayerResult_cases (d : PlayerSendResultData) (s : ServerHandler) :
    (d.playerID ∈ s.mPlayerResults ∧ s.handleReceivePlayerResult d = .throws s .argument) ∨
    (d.playerID ∉ s.mPlayerResults ∧
      ((∃ e, s.handleReceivePlayerResult d =
          .throws (s.withResult d.playerID (storedResult d)) e ∧
          (d.playerID ∉ s.mPlayers ∨
            ∃ p, s.mPlayers.lookup d.playerID = some p ∧
              finishEvents d.resultContext p.playerOBJ = .error e)) ∨
        ∃ p events, s.mPlayers.lookup d.playerID = some p ∧
          finishEvents d.resultContext p.playerOBJ = .ok events ∧
          s.handleReceivePlayerResult d =
            ⟨handleGameEndCheck { s.withResult d.playerID (storedResult d) with
                mPlayers := s.mPlayers.insert d.playerID { p with playerOBJ := none } },
              s.sendPlayerFinishToAllOtherClients d.playerID d.resultContext, events, none⟩)) := by
  by_cases hr : d.playerID ∈ s.mPlayerResults
  · exact Or.inl ⟨hr, by simp [handleReceivePlayerResult, hr]⟩
  · refine Or.inr ⟨hr, ?_⟩
    cases hp : s.mPlayers.lookup d.playerID with
    | none =>
      refine Or.inl ⟨.keyNotFound, ?_, Or.inl (AList.lookup_eq_none.mp hp)⟩
      simp [handleReceivePlayerResult, hr, hp, withResult]
    | some p =>
      cases he : finishEvents d.resultContext p.playerOBJ with
      | error e =>
        refine Or.inl ⟨e, ?_, Or.inr ⟨p, rfl, he⟩⟩
        simp [handleReceivePlayerResult, hr, hp, he, withResult]
      | ok events =>
        refine Or.inr ⟨p, events, rfl, he, ?_⟩
        simp only [handleReceivePlayerResult, hr, hp, he, if_false]
        rfl

/-- What a packet can leave behind: nothing, a pose, or a stored result with or without the end of
the call that stored it. -/
theorem receive_state (p : Packet) (s : ServerHandler) :
    (s.receive p).state = s ∨
    (∃ d, p = .playerData d ∧
      (s.receive p).state = { s with mPlayers := (s.mPlayers.handlePlayerData d).1 }) ∨
    ∃ d, p = .storePlayerResults d ∧ d.playerID ∉ s.mPlayerResults ∧
      ((s.receive p).state = s.withResult d.playerID (storedResult d) ∨
        ∃ q, d.playerID ∈ s.mPlayers ∧ (s.receive p).state =
          handleGameEndCheck { s.withResult d.playerID (storedResult d) with
            mPlayers := s.mPlayers.insert d.playerID { q with playerOBJ := none } } ∧
          s.mPlayers.lookup d.playerID = some q) := by
  cases p with
  | playerData d => exact Or.inr (Or.inl ⟨d, rfl, rfl⟩)
  | storePlayerResults d =>
    rcases handleReceivePlayerResult_cases d s with ⟨-, hs⟩ | ⟨hr, ⟨e, hs, -⟩ | ⟨q, events, hq, -, hs⟩⟩
    · exact Or.inl (by rw [receive, hs]; rfl)
    · exact Or.inr (Or.inr ⟨d, rfl, hr, Or.inl (by rw [receive, hs]; rfl)⟩)
    · exact Or.inr (Or.inr ⟨d, rfl, hr, Or.inr ⟨q, Dict.mem_of_lookup hq, by rw [receive, hs], hq⟩⟩)
  | offensiveBombData d =>
    refine Or.inl ?_
    simp only [receive, handleOffensiveBombData]
    repeat' split
    all_goals rfl
  | registerPlayer | playerCount | gameState | sendResult | otherPlayerFinish => exact Or.inl rfl

end ServerHandler

namespace HostSession

open ServerHandler

def Inert : HostAction → Prop
  | .fireOffensiveBomb _ => True
  | .sendPlayerData => True
  | .broadcastPlayerCount => True
  | .broadcastResults => True
  | .interpolate _ => True
  | .movePlayer _ => True
  | .destroyPlayer => True
  | .unloadScene => True
  | .endOfFrame => True
  | _ => False

theorem act_inert {a : HostAction} (ha : Inert a) (s : ServerHandler) :
    SameRoster s (act a s).state ∧ .sceneTransition 5 ∉ (act a s).raised := by
  cases a with
  | statusCallback | startGame | levelLoaded | sendPlayerResults | receive | endCheck => exact ha.elim
  | fireOffensiveBomb | sendPlayerData | broadcastPlayerCount =>
    exact ⟨SameRoster.refl s, by simp [act, sendBombDataFromServer, ServerHandler.sendPlayerData,
      ServerHandler.broadcastPlayerCount]⟩
  | broadcastResults =>
    by_cases hs : s.server = true
    · exact ⟨by simpa [act, ServerHandler.broadcastResults, hs] using SameRoster.refl s,
        by simp [act, ServerHandler.broadcastResults, hs]⟩
    · exact ⟨by simpa [act, ServerHandler.broadcastResults, hs] using SameRoster.refl s,
        by simp [act, ServerHandler.broadcastResults, hs]⟩
  | interpolate deltaTime =>
    refine ⟨sameRoster_players s (fun k => ?_), by simp [act, handleInterpolatePlayerPoses]⟩
    exact PlayerTable.mem_congr (PlayerTable.interpolateKeys_status _ _ _ _)
  | movePlayer | destroyPlayer | unloadScene | endOfFrame =>
    exact ⟨sameRoster_players s (fun k => PlayerTable.mem_onObjects), by simp [act]⟩

theorem results_act (a : HostAction) (s : ServerHandler) :
    (act a s).state.mPlayerResults = s.mPlayerResults ∨
    (∃ r, a = .sendPlayerResults r ∧ serverPlayerID ∉ s.mPlayerResults ∧
      (act a s).state.mPlayerResults = s.mPlayerResults.insert serverPlayerID r) ∨
    ∃ c d, a = .receive c (.storePlayerResults d) ∧ d.playerID ∉ s.mPlayerResults ∧
      (act a s).state.mPlayerResults = s.mPlayerResults.insert d.playerID (storedResult d) := by
  by_cases ha : Inert a
  · exact Or.inl (act_inert ha s).1.results
  cases a with
  | statusCallback state c =>
    left
    cases state with
    | connected =>
      simp only [act, serverStatusCallback, handlePlayerJoining]
      split_ifs <;> rfl
    | closedByPeer | problemDetectedLocally =>
      simp only [act, serverStatusCallback, handlePlayerLeaving]
      split <;> rfl
  | startGame => exact Or.inl rfl
  | levelLoaded position =>
    left
    simp only [act, handleRegisterPlayer]
    split_ifs <;> rfl
  | sendPlayerResults r =>
    by_cases hr : serverPlayerID ∈ s.mPlayerResults
    · exact Or.inl (by simp [act, handleSendPlayerResults, hr])
    · exact Or.inr (Or.inl ⟨r, rfl, hr, by simp [act, handleSendPlayerResults, hr]⟩)
  | receive c p =>
    obtain hs | ⟨d, rfl, hs⟩ | ⟨d, rfl, hr, hs | ⟨q, -, hs, -⟩⟩ := receive_state p s
    · exact Or.inl (by rw [act, hs])
    · exact Or.inl (by rw [act, hs])
    · exact Or.inr (Or.inr ⟨c, d, rfl, hr, by rw [act, hs]; rfl⟩)
    · exact Or.inr (Or.inr ⟨c, d, rfl, hr, by rw [act, hs, handleGameEndCheck_results]; rfl⟩)
  | endCheck b => cases b <;> exact Or.inl rfl
  | fireOffensiveBomb | sendPlayerData | broadcastPlayerCount | broadcastResults | interpolate
  | movePlayer | destroyPlayer | unloadScene | endOfFrame => exact absurd trivial ha

theorem results_kept {a : HostAction} {s : ServerHandler} {k : UInt32} (hk : k ∈ s.mPlayerResults) :
    k ∈ (act a s).state.mPlayerResults := by
  obtain hs | ⟨r, -, -, hs⟩ | ⟨c, d, -, -, hs⟩ := results_act a s
  · rwa [hs]
  · rw [hs]
    exact (AList.mem_insert _).mpr (Or.inr hk)
  · rw [hs]
    exact (AList.mem_insert _).mpr (Or.inr hk)

theorem results_extend (a : HostAction) (s : ServerHandler) :
    s.mPlayerResults.ExtendedBy (act a s).state.mPlayerResults := by
  obtain hs | ⟨r, -, hk, hs⟩ | ⟨c, d, -, hk, hs⟩ := results_act a s
  · rw [hs]
    exact Dict.ExtendedBy.refl _
  · rw [hs]
    exact Dict.extendedBy_insert hk r
  · rw [hs]
    exact Dict.extendedBy_insert hk _

/-- A result that was read is in the table, also when the call that stored it throws. -/
theorem results_read (c : Connection) (d : PlayerSendResultData) (s : ServerHandler) :
    d.playerID ∈ (act (.receive c (.storePlayerResults d)) s).state.mPlayerResults := by
  obtain ⟨hr, hs⟩ | ⟨-, ⟨e, hs, -⟩ | ⟨q, events, -, -, hs⟩⟩ := handleReceivePlayerResult_cases d s
  · rwa [act, receive, hs]
  · rw [act, receive, hs]
    exact (AList.mem_insert _).mpr (Or.inl rfl)
  · rw [act, receive, hs, handleGameEndCheck_results]
    exact (AList.mem_insert _).mpr (Or.inl rfl)

end HostSession

end SeminarTouhou
