import SeminarTouhou.Network.ClientLaws

namespace SeminarTouhou

open Library

theorem finishEvents_position {context : ResultContext} {obj : Option GameObject} {events : List Event}
    (h : finishEvents context obj = .ok events) {e : Event} (he : e ∈ events) :
    ∃ o, obj = some o ∧ (context = .playerWon ∧ e = .playerWin false o.position ∨
      context = .playerDied ∧ e = .playerDie false o.position) := by
  cases context with
  | playerDisconnected =>
    obtain rfl := Except.ok.inj h
    exact absurd he List.not_mem_nil
  | playerWon | playerDied =>
    cases obj with
    | none => cases h
    | some o =>
      cases hd : deref (some o) with
      | error x => simp [finishEvents, hd, Except.map] at h
      | ok o' =>
        have ho : o' = o := by
          simp only [deref] at hd
          split_ifs at hd
          exact (Except.ok.inj hd).symm
        simp only [finishEvents, hd, Except.map, Except.ok.injEq] at h
        subst h ho
        simpa using he

namespace ServerHandler

def Publishes (s : ServerHandler) (d : PlayerSendResultData) : Prop :=
  ∃ r, s.mPlayerResults.lookup d.playerID = some r ∧ d = resultPacket d.playerID r

theorem mem_results {s : ServerHandler} {d : PlayerSendResultData} :
    d ∈ s.mPlayerResults.entries.map (fun e => resultPacket e.1 e.2) ↔ s.Publishes d := by
  rw [List.mem_map]
  constructor
  · rintro ⟨e, he, rfl⟩
    exact ⟨e.2, AList.mem_lookup_iff.mpr he, rfl⟩
  · rintro ⟨r, hr, hd⟩
    exact ⟨⟨d.playerID, r⟩, AList.mem_lookup_iff.mp hr, hd.symm⟩

end ServerHandler

namespace HostSession

open ServerHandler

/-- What a step of the host can raise: a new count of players, the closing of a connection, a stored
result, the end of a player whose result is stored, the bomb of a client, or the results scene. -/
inductive Raises (a : HostAction) (s : ServerHandler) : Event → Prop
  | count (state : ConnectionState) (c : Connection) (ha : a = .statusCallback state c) :
    Raises a s (.numberOfJoinedPlayersChanged (act a s).state.numberOfPlayers)
  | closed (state : ConnectionState) (c : Connection) (ha : a = .statusCallback state c) :
    Raises a s (.closeConnection c)
  | result (d : PlayerSendResultData) (ha : a = .broadcastResults) (hd : s.Publishes d) :
    Raises a s (.registerOtherPlayerResult d)
  | finish (e : Event) (c : Connection) (d : PlayerSendResultData) (p : PlayerGameData)
    (events : List Event) (ha : a = .receive c (.storePlayerResults d))
    (hp : s.mPlayers.lookup d.playerID = some p)
    (hf : finishEvents d.resultContext p.playerOBJ = .ok events) (he : e ∈ events) : Raises a s e
  | bomb (c : Connection) (d : OffensiveBombData) (ha : a = .receive c (.offensiveBombData d)) :
    Raises a s (.spawnOffensiveBomb d.playerID d.pos.toVector2)
  | results (ha : a = .endCheck true) : Raises a s (.sceneTransition 5)

theorem raises_leaving {state : ConnectionState} {c : Connection} {s : ServerHandler} {e : Event}
    (hs : act (.statusCallback state c) s = s.handlePlayerLeaving c (s.mGameState = .gameStarted))
    (h : e ∈ (act (.statusCallback state c) s).raised) : Raises (.statusCallback state c) s e := by
  have hcount (n : ℤ) (hn : n = (act (.statusCallback state c) s).state.numberOfPlayers) :
      Raises (.statusCallback state c) s (.numberOfJoinedPlayersChanged n) := by
    rw [hn]
    exact .count state c rfl
  rw [hs] at h
  simp only [handlePlayerLeaving] at h
  split at h
  · exact absurd h List.not_mem_nil
  · next p hp =>
    obtain rfl | h := List.mem_cons.mp h
    · exact .closed state c rfl
    · by_cases hg : s.mGameState = .searchingForPlayers
      · rw [if_pos hg] at h
        obtain rfl := List.mem_singleton.mp h
        apply hcount
        simp only [hs, handlePlayerLeaving, hp, Outcome.raises_state]
      · rw [if_neg hg] at h
        exact absurd h List.not_mem_nil

theorem raises_receive {c : Connection} {p : Packet} {s : ServerHandler} {e : Event}
    (h : e ∈ (s.receive p).raised) : Raises (.receive c p) s e := by
  cases p with
  | storePlayerResults d =>
    obtain ⟨-, hs⟩ | ⟨-, ⟨x, hs, -⟩ | ⟨q, events, hq, hf, hs⟩⟩ := handleReceivePlayerResult_cases d s
    · rw [receive, hs] at h
      exact absurd h List.not_mem_nil
    · rw [receive, hs] at h
      exact absurd h List.not_mem_nil
    · rw [receive, hs] at h
      exact .finish e c d q events rfl hq hf h
  | offensiveBombData d =>
    simp only [receive, handleOffensiveBombData] at h
    repeat' split at h
    all_goals first
      | exact absurd h List.not_mem_nil
      | obtain rfl := List.mem_singleton.mp h
        exact .bomb c d rfl
  | playerData | registerPlayer | playerCount | gameState | sendResult | otherPlayerFinish =>
    exact absurd h List.not_mem_nil

theorem raises_act {a : HostAction} {s : ServerHandler} {e : Event} (h : e ∈ (act a s).raised) :
    Raises a s e := by
  cases a with
  | statusCallback state c =>
    cases state with
    | connected =>
      have hact : act (.statusCallback .connected c) s = s.handlePlayerJoining c := rfl
      have hcount (n : ℤ) (hn : n = (act (.statusCallback .connected c) s).state.numberOfPlayers) :
          Raises (.statusCallback .connected c) s (.numberOfJoinedPlayersChanged n) := by
        rw [hn]
        exact .count .connected c rfl
      rw [hact, handlePlayerJoining] at h
      split_ifs at h with hk
      · exact absurd h List.not_mem_nil
      · obtain rfl := List.mem_singleton.mp h
        apply hcount
        rw [hact, handlePlayerJoining, if_neg hk]
    | closedByPeer => exact raises_leaving rfl h
    | problemDetectedLocally => exact raises_leaving rfl h
  | levelLoaded position =>
    simp only [act, handleRegisterPlayer] at h
    split_ifs at h <;> exact absurd h List.not_mem_nil
  | sendPlayerResults r =>
    simp only [act, handleSendPlayerResults] at h
    split_ifs at h <;> exact absurd h List.not_mem_nil
  | receive c p => exact raises_receive h
  | endCheck b =>
    cases b with
    | false => exact absurd h List.not_mem_nil
    | true =>
      obtain rfl := List.mem_singleton.mp h
      exact .results rfl
  | broadcastResults =>
    simp only [act, ServerHandler.broadcastResults] at h
    split_ifs at h
    · obtain ⟨d, hd, rfl⟩ := List.mem_map.mp h
      exact .result d rfl (mem_results.mp hd)
    · exact absurd h List.not_mem_nil
  | startGame | fireOffensiveBomb | sendPlayerData | broadcastPlayerCount | interpolate | movePlayer
  | destroyPlayer | unloadScene | endOfFrame => exact absurd h List.not_mem_nil

end HostSession

namespace ClientSession

/-- What a step of a client can raise: a scene to load, the closing of its connection, the number of
players, a result, the end of another player, or the bomb of another player. -/
inductive Raises (a : ClientAction) (s : ClientHandler) : Event → Prop
  | scene (e : Event) (n : ℕ) (he : e = .loadScene n ∨ e = .sceneTransition n) : Raises a s e
  | closed (c : Connection) : Raises a s (.closeConnection c)
  | count (d : PlayerCountData) (ha : a = .receive (.playerCount d)) :
    Raises a s (.numberOfJoinedPlayersChanged d.playerCount)
  | result (d : PlayerSendResultData) (ha : a = .receive (.sendResult d)) :
    Raises a s (.registerOtherPlayerResult d)
  | finish (e : Event) (d : OtherClientFinishState) (p : PlayerGameData) (events : List Event)
    (ha : a = .receive (.otherPlayerFinish d)) (hp : s.mPlayers.lookup d.playerID = some p)
    (hf : finishEvents d.finishState p.playerOBJ = .ok events) (he : e ∈ events) : Raises a s e
  | bomb (d : OffensiveBombData) (ha : a = .receive (.offensiveBombData d)) :
    Raises a s (.spawnOffensiveBomb d.playerID d.pos.toVector2)

theorem raises_receive {p : Packet} {s : ClientHandler} {e : Event} (h : e ∈ (s.receive p).raised) :
    Raises (.receive p) s e := by
  cases p with
  | playerCount d =>
    obtain rfl := List.mem_singleton.mp h
    exact .count d rfl
  | sendResult d =>
    obtain rfl := List.mem_singleton.mp h
    exact .result d rfl
  | gameState d =>
    obtain ⟨room, g⟩ := d
    cases g <;> exact .scene e _ (Or.inr (List.mem_singleton.mp h))
  | offensiveBombData d =>
    simp only [ClientHandler.receive, ClientHandler.handleOffensiveBombData] at h
    repeat' split at h
    all_goals first
      | exact absurd h List.not_mem_nil
      | obtain rfl := List.mem_singleton.mp h
        exact .bomb d rfl
  | otherPlayerFinish d =>
    simp only [ClientHandler.receive, ClientHandler.handleOtherPlayerFinish] at h
    split at h
    · exact absurd h List.not_mem_nil
    · next q hq =>
      split at h
      · exact absurd h List.not_mem_nil
      · next events hf => exact .finish e d q events rfl hq hf h
  | playerData d =>
    simp only [ClientHandler.receive, ClientHandler.handlePlayerData] at h
    split_ifs at h <;> exact absurd h List.not_mem_nil
  | registerPlayer d =>
    simp only [ClientHandler.receive, ClientHandler.handleRegisterPlayerPacket] at h
    split_ifs at h <;> exact absurd h List.not_mem_nil
  | storePlayerResults => exact absurd h List.not_mem_nil

theorem raises_act {a : ClientAction} {s : ClientHandler} {e : Event} (h : e ∈ (act a s).raised) :
    Raises a s e := by
  cases a with
  | receive p => exact raises_receive h
  | statusUpdate state connection =>
    cases state with
    | connected => exact .scene e 3 (Or.inl (List.mem_singleton.mp h))
    | closedByPeer | problemDetectedLocally =>
      obtain rfl := List.mem_singleton.mp h
      exact .closed _
  | loadScene scene position =>
    simp only [act] at h
    split_ifs at h <;> exact absurd h List.not_mem_nil
  | sendPlayerResults r =>
    simp only [act, ClientHandler.handleSendPlayerResults] at h
    split_ifs at h <;> exact absurd h List.not_mem_nil
  | fireOffensiveBomb | sendPlayerData | interpolate | movePlayer | destroyPlayer | endOfFrame =>
    exact absurd h List.not_mem_nil

end ClientSession

end SeminarTouhou
