import SeminarTouhou.Network.World
import SeminarTouhou.Network.ServerLaws

namespace SeminarTouhou

open Library

namespace ClientSession

theorem sceneRequests_finishEvents {context : ResultContext} {obj : Option GameObject}
    {events : List Event} (h : finishEvents context obj = .ok events) : sceneRequests events = [] := by
  apply List.filterMap_eq_nil_iff.mpr
  intro e he
  obtain ⟨pos, rfl | rfl⟩ := mem_finishEvents h he <;> rfl

inductive Received (s : ClientHandler) : Packet → ClientHandler.Result → Prop
  | registered (d : RegisterPlayer) (t : PlayerTable) (thrown : Option Exn) :
    Received s (.registerPlayer d)
      ⟨{ s with connectionIDOnServer := d.playerID, mPlayers := t }, [], [], thrown⟩
  | started (room : UInt32) : Received s (.gameState ⟨room, .startGame⟩) (.raises s [.sceneTransition 4])
  | finished (room : UInt32) : Received s (.gameState ⟨room, .gameFinished⟩)
      (.raises { s with mGameState := .resultsScreen } [.sceneTransition 5])
  | players (p : Packet) (t : PlayerTable) (events : List Event) (thrown : Option Exn)
    (hq : sceneRequests events = []) : Received s p ⟨{ s with mPlayers := t }, [], events, thrown⟩

theorem received (p : Packet) (s : ClientHandler) : Received s p (s.receive p) := by
  cases p with
  | playerData d =>
    simp only [ClientHandler.receive, ClientHandler.handlePlayerData]
    split_ifs
    · exact .players _ s.mPlayers [] none rfl
    · exact .players _ _ [] _ rfl
  | registerPlayer d =>
    simp only [ClientHandler.receive, ClientHandler.handleRegisterPlayerPacket]
    split_ifs
    · exact .registered d s.mPlayers _
    · exact .registered d _ none
  | gameState d =>
    obtain ⟨room, e⟩ := d
    cases e with
    | startGame => exact .started room
    | gameFinished => exact .finished room
  | offensiveBombData d =>
    simp only [ClientHandler.receive, ClientHandler.handleOffensiveBombData]
    repeat' split
    all_goals exact .players _ s.mPlayers _ _ rfl
  | otherPlayerFinish d =>
    simp only [ClientHandler.receive, ClientHandler.handleOtherPlayerFinish]
    split
    · exact .players _ s.mPlayers _ _ rfl
    · split
      · exact .players _ s.mPlayers _ _ rfl
      · next hok => exact .players _ _ _ _ (sceneRequests_finishEvents hok)
  | playerCount | storePlayerResults | sendResult => exact .players _ s.mPlayers _ _ rfl

/-- Only three calls of a client send anything. -/
def Reports : ClientAction → Prop
  | .sendPlayerData => True
  | .sendPlayerResults _ => True
  | .fireOffensiveBomb _ => True
  | _ => False

instance (a : ClientAction) : Decidable (Reports a) := by
  rcases a with ⟨⟩ <;> dsimp only [Reports] <;> infer_instance

theorem sent_claimedID {a : ClientAction} {s : ClientHandler} {p : Packet} (h : p ∈ (act a s).sent) :
    Reports a ∧ p.claimedID = some s.connectionIDOnServer := by
  cases a with
  | sendPlayerData =>
    obtain ⟨o, -, rfl⟩ := List.mem_map.mp h
    exact ⟨trivial, rfl⟩
  | fireOffensiveBomb pos =>
    obtain ⟨o, -, rfl⟩ := List.mem_map.mp h
    exact ⟨trivial, rfl⟩
  | sendPlayerResults r =>
    simp only [act, ClientHandler.handleSendPlayerResults] at h
    split_ifs at h
    · obtain rfl := List.mem_singleton.mp h
      exact ⟨trivial, rfl⟩
    · simp at h
  | receive q =>
    have hr := received q s
    simp only [act] at h
    generalize s.receive q = o at h hr
    cases hr <;> simp at h
  | statusUpdate state connection => cases state <;> simp [act, ClientHandler.onClientStatusUpdate,
      ClientHandler.completeJoinConnection] at h
  | loadScene scene position =>
    simp only [act, ClientHandler.handleRegisterPlayer] at h
    split_ifs at h <;> simp at h
  | interpolate | movePlayer | destroyPlayer | endOfFrame =>
    simp [act, ClientHandler.handleInterpolatePlayerPoses] at h

theorem id_act (a : ClientAction) (s : ClientHandler) :
    (act a s).state.connectionIDOnServer = s.connectionIDOnServer ∨
      ∃ d, a = .receive (.registerPlayer d) ∧ (act a s).state.connectionIDOnServer = d.playerID := by
  cases a with
  | receive q =>
    have hr := received q s
    simp only [act]
    generalize s.receive q = o at hr
    cases hr with
    | registered d t thrown => exact Or.inr ⟨d, rfl, rfl⟩
    | started | finished | players => exact Or.inl rfl
  | statusUpdate state connection => cases state <;> exact Or.inl rfl
  | loadScene scene position =>
    simp only [act]
    split_ifs <;> exact Or.inl rfl
  | sendPlayerResults r =>
    simp only [act, ClientHandler.handleSendPlayerResults]
    split_ifs <;> exact Or.inl rfl
  | fireOffensiveBomb | sendPlayerData | interpolate | movePlayer | destroyPlayer | endOfFrame =>
    exact Or.inl rfl

theorem client_act (a : ClientAction) (s : ClientHandler) : (act a s).state.client = s.client := by
  cases a with
  | receive q =>
    have hr := received q s
    simp only [act]
    generalize s.receive q = o at hr
    cases hr <;> rfl
  | statusUpdate state connection => cases state <;> rfl
  | loadScene scene position =>
    simp only [act]
    split_ifs <;> rfl
  | sendPlayerResults r =>
    simp only [act, ClientHandler.handleSendPlayerResults]
    split_ifs <;> rfl
  | fireOffensiveBomb | sendPlayerData | interpolate | movePlayer | destroyPlayer | endOfFrame => rfl

theorem level_requested {a : ClientAction} {s : ClientHandler}
    (h : 4 ∈ sceneRequests (act a s).raised) :
    ∃ room, a = .receive (.gameState ⟨room, .startGame⟩) := by
  cases a with
  | receive q =>
    have hr := received q s
    simp only [act] at h
    generalize s.receive q = o at h hr
    cases hr with
    | started room => exact ⟨room, rfl⟩
    | players p t events thrown hq => simp [hq] at h
    | registered | finished => simp [sceneRequests] at h
  | statusUpdate state connection => cases state <;> simp [act, ClientHandler.onClientStatusUpdate,
      ClientHandler.completeJoinConnection, sceneRequests] at h
  | loadScene scene position =>
    simp only [act, ClientHandler.handleRegisterPlayer] at h
    split_ifs at h <;> simp [sceneRequests] at h
  | sendPlayerResults r =>
    simp only [act, ClientHandler.handleSendPlayerResults] at h
    split_ifs at h <;> simp [sceneRequests] at h
  | fireOffensiveBomb | sendPlayerData | interpolate | movePlayer | destroyPlayer | endOfFrame =>
    simp [act, ClientHandler.sendBombData, ClientHandler.sendPlayerData,
      ClientHandler.handleInterpolatePlayerPoses, sceneRequests] at h

theorem started_act {a : ClientAction} {s : ClientHandler}
    (h : (act a s).state.mGameState = .gameStarted) :
    s.mGameState = .gameStarted ∨ ∃ position, a = .loadScene 4 position := by
  cases a with
  | loadScene scene position =>
    by_cases hs : scene = 4
    · subst hs
      exact Or.inr ⟨position, rfl⟩
    · simp only [act, if_neg hs] at h
      exact Or.inl h
  | receive q =>
    have hr := received q s
    simp only [act] at h
    generalize s.receive q = o at h hr
    cases hr with
    | finished => nomatch h
    | registered | started | players => exact Or.inl h
  | statusUpdate state connection =>
    cases state with
    | connected => nomatch h
    | closedByPeer | problemDetectedLocally => exact Or.inl h
  | sendPlayerResults r =>
    simp only [act, ClientHandler.handleSendPlayerResults] at h
    split_ifs at h <;> exact Or.inl h
  | fireOffensiveBomb | sendPlayerData | interpolate | movePlayer | destroyPlayer | endOfFrame =>
    exact Or.inl h

end ClientSession

end SeminarTouhou
