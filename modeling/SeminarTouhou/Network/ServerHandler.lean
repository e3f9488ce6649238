import SeminarTouhou.Network.PlayerTable

namespace SeminarTouhou

open Library

structure PlayerStoredResultData where
  name : String
  points : ℤ
  time : ℚ
  score : ℤ
  resultContext : ResultContext
deriving DecidableEq

def PlayerStoredResultData.marshalled (r : PlayerStoredResultData) : PlayerStoredResultData :=
  { r with name := cutName r.name }

@[simp] theorem PlayerStoredResultData.marshalled_marshalled (r : PlayerStoredResultData) :
    r.marshalled.marshalled = r.marshalled := by
  simp [marshalled]

/-- The handler in LAN mode (`mUsingRelay` is never assigned). `server` says whether the socket
exists; `endChecks` holds the argument `gameFinishedCheck` of each `Co_DelayEndGameCheck` that
still waits. -/
structure ServerHandler where
  mPlayers : PlayerTable
  mPlayerResults : Dict UInt32 PlayerStoredResultData
  connectedClients : List Connection
  mGameState : GameState
  mGameDone : Bool
  server : Bool
  endChecks : List Bool
deriving DecidableEq

namespace ServerHandler

abbrev Result := Outcome ServerHandler (Connection × Packet) Event

def hosted : ServerHandler := ⟨∅, ∅, [], .searchingForPlayers, false, true, []⟩

def broadcast (s : ServerHandler) (p : Packet) : List (Connection × Packet) :=
  s.connectedClients.map (fun c => (c, p))

def broadcastExcept (s : ServerHandler) (owner : UInt32) (p : Packet) : List (Connection × Packet) :=
  (s.connectedClients.filter (fun c => c ≠ owner)).map (fun c => (c, p))

def numberOfPlayers (s : ServerHandler) : ℤ := s.connectedClients.length + 1

def handlePlayerJoining (playerID : Connection) (s : ServerHandler) : Result :=
  if playerID ∈ s.mPlayers then .returns s
  else
    let s' := { s with
      connectedClients := s.connectedClients ++ [playerID]
      mPlayers := s.mPlayers.insert playerID (.init .new) }
    ⟨s', [(playerID, .registerPlayer ⟨roomID, playerID⟩)],
      [.numberOfJoinedPlayersChanged s'.numberOfPlayers], none⟩

def handlePlayerLeaving (playerID : Connection) (inGame : Bool) (s : ServerHandler) : Result :=
  match s.mPlayers.lookup playerID with
  | none => .returns s
  | some p =>
    let s' := { s with
      connectedClients := s.connectedClients.erase playerID
      mPlayers := if inGame then s.mPlayers.insert playerID (p.onObject .destroy)
        else s.mPlayers.erase playerID }
    .raises s' (.closeConnection playerID :: if s.mGameState = .searchingForPlayers then
      [.numberOfJoinedPlayersChanged s'.numberOfPlayers] else [])

inductive ConnectionState
  | connected
  | closedByPeer
  | problemDetectedLocally
deriving DecidableEq

def serverStatusCallback (state : ConnectionState) (c : Connection) (s : ServerHandler) : Result :=
  match state with
  | .connected => s.handlePlayerJoining c
  | .closedByPeer => s.handlePlayerLeaving c (s.mGameState = .gameStarted)
  | .problemDetectedLocally => s.handlePlayerLeaving c (s.mGameState = .gameStarted)

def handleBroadcastGameStart (s : ServerHandler) : Result :=
  .sends s (s.broadcast (.gameState ⟨roomID, .startGame⟩))

def handleRegisterPlayer (player : GameObject) (s : ServerHandler) : Result :=
  let s := { s with mGameState := .gameStarted }
  if s.server then
    let s := { s with mPlayers := Dict.mapValues (fun _ _ => PlayerGameData.hologram) s.mPlayers }
    if serverPlayerID ∈ s.mPlayers then .throws s .argument
    else
      .returns { s with mPlayers :=
        s.mPlayers.insert serverPlayerID (.init { PlayerGameData.new with playerOBJ := some player }) }
  else .returns s

def handleGameFinish (s : ServerHandler) : Result :=
  let s := { s with mGameState := .resultsScreen }
  ⟨s, if s.server then s.broadcast (.gameState ⟨roomID, .gameFinished⟩) else [],
    [.sceneTransition 5], none⟩

def sendPlayerData (s : ServerHandler) : Result :=
  .sends s (if s.server then
    s.mPlayers.entries.flatMap (fun e =>
      match e.2.playerOBJ with
      | none => []
      | some o =>
        if o.usable then s.broadcastExcept e.1 (.playerData ⟨roomID, e.1, o.position, 12⟩) else [])
    else [])

def broadcastPlayerCount (s : ServerHandler) : Result :=
  .sends s (if s.server then s.broadcast (.playerCount ⟨roomID, s.numberOfPlayers⟩) else [])

/-- The packet that carries a stored result; its `resultContext` is left at the default. -/
def resultPacket (playerID : UInt32) (r : PlayerStoredResultData) : PlayerSendResultData :=
  ⟨roomID, playerID, r.time, r.points, r.score, .playerWon, r.name⟩

def broadcastResults (s : ServerHandler) : Result :=
  if s.server then
    let results := s.mPlayerResults.entries.map (fun e => resultPacket e.1 e.2)
    ⟨s, results.flatMap (fun d => s.broadcast (.sendResult d.marshalled)),
      results.map .registerOtherPlayerResult, none⟩
  else .returns s

def handlePlayerData (d : PlayerData) (s : ServerHandler) : Result :=
  let r := s.mPlayers.handlePlayerData d
  ⟨{ s with mPlayers := r.1 }, [], [], r.2⟩

def handleInterpolatePlayerPoses (deltaTime : ℚ) (s : ServerHandler) : Result :=
  let r := s.mPlayers.handleInterpolatePlayerPoses deltaTime
  ⟨{ s with mPlayers := r.1 }, [], [], r.2⟩

def checkIfGameFinished (s : ServerHandler) : Bool :=
  Dict.count s.mPlayers = Dict.count s.mPlayerResults

def handleGameEndCheck (s : ServerHandler) : ServerHandler :=
  if s.mGameDone then s else { s with endChecks := s.endChecks ++ [s.checkIfGameFinished] }

def coDelayEndGameCheck (gameFinishedCheck : Bool) (s : ServerHandler) : Result :=
  let s := { s with endChecks := s.endChecks.erase gameFinishedCheck }
  if gameFinishedCheck then s.handleGameFinish else .returns s

def sendPlayerFinishToAllOtherClients (clientThatDied : UInt32) (finishReason : ResultContext)
    (s : ServerHandler) : List (Connection × Packet) :=
  if s.server then
    s.broadcastExcept clientThatDied (.otherPlayerFinish ⟨roomID, clientThatDied, finishReason⟩)
  else []

def storedResult (d : PlayerSendResultData) : PlayerStoredResultData :=
  ⟨d.name, d.points, d.time, d.score, d.resultContext⟩

def handleReceivePlayerResult (d : PlayerSendResultData) (s : ServerHandler) : Result :=
  if d.playerID ∈ s.mPlayerResults then .throws s .argument
  else
    -- the result is in the table before anything below can throw
    let s := { s with mPlayerResults := s.mPlayerResults.insert d.playerID (storedResult d) }
    match s.mPlayers.lookup d.playerID with
    | none => .throws s .keyNotFound
    | some prevData =>
      match finishEvents d.resultContext prevData.playerOBJ with
      | .error e => .throws s e
      | .ok events =>
        let sent := s.sendPlayerFinishToAllOtherClients d.playerID d.resultContext
        let s := { s with
          mPlayers := s.mPlayers.insert d.playerID { prevData with playerOBJ := none } }
        ⟨s.handleGameEndCheck, sent, events, none⟩

def sendBombDataToAllOtherClients (pos : Vector2) (owningClient : UInt32) (s : ServerHandler) :
    List (Connection × Packet) :=
  if s.server then
    s.broadcastExcept owningClient (.offensiveBombData ⟨roomID, owningClient, pos.toVector3⟩)
  else []

def sendBombDataFromServer (pos : Vector2) (s : ServerHandler) : Result :=
  .sends s (s.sendBombDataToAllOtherClients pos serverPlayerID)

def handleOffensiveBombData (d : OffensiveBombData) (s : ServerHandler) : Result :=
  match s.mPlayers.lookup d.playerID with
  | none => .throws s .keyNotFound
  | some p =>
    match deref p.playerOBJ with
    | .error e => .throws s e
    | .ok o =>
      match o.kind with
      | .player => .throws s .nullReference
      | .hologram =>
        ⟨s, s.sendBombDataToAllOtherClients d.pos.toVector2 d.playerID,
          [.spawnOffensiveBomb d.playerID d.pos.toVector2], none⟩

def handleSendPlayerResults (r : PlayerStoredResultData) (s : ServerHandler) : Result :=
  if serverPlayerID ∈ s.mPlayerResults then .throws s .argument
  else
    let s := { s with mPlayerResults := s.mPlayerResults.insert serverPlayerID r }
    .sends s.handleGameEndCheck (s.sendPlayerFinishToAllOtherClients serverPlayerID r.resultContext)

def receive (p : Packet) (s : ServerHandler) : Result :=
  match p with
  | .playerData d => s.handlePlayerData d
  | .storePlayerResults d => s.handleReceivePlayerResult d
  | .offensiveBombData d => s.handleOffensiveBombData d
  | _ => .returns s

end ServerHandler

end SeminarTouhou
