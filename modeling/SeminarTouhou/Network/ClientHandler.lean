import SeminarTouhou.Network.ServerHandler

namespace SeminarTouhou

open Library

structure ClientHandler where
  client : Bool
  connectionIDOnServer : UInt32
  serverConnection : Connection
  mPlayers : PlayerTable
  mShouldSendData : Bool
  mGameState : GameState
deriving DecidableEq

namespace ClientHandler

open ServerHandler (ConnectionState)

abbrev Result := Outcome ClientHandler Packet Event

/-- A handler whose `RunClientSetUp` has run. -/
def joining : ClientHandler := ⟨true, 0, 0, ∅, true, .lookingForHost⟩

def completeJoinConnection (s : ClientHandler) : Result :=
  .raises { s with mGameState := .searchingForPlayers } [.loadScene 3]

def onClientStatusUpdate (state : ConnectionState) (connection : Connection) (s : ClientHandler) :
    Result :=
  match state with
  | .connected => completeJoinConnection { s with serverConnection := connection }
  | .closedByPeer => .raises s [.closeConnection s.serverConnection]
  | .problemDetectedLocally => .raises s [.closeConnection s.serverConnection]

def ownPlayer (s : ClientHandler) : Option GameObject :=
  if s.client then
    ((s.mPlayers.lookup s.connectionIDOnServer).bind (fun p => p.playerOBJ)).filter (fun o => o.usable)
  else none

def sendPlayerData (s : ClientHandler) : Result :=
  .sends s (s.ownPlayer.toList.map
    (fun o => .playerData ⟨roomID, s.connectionIDOnServer, o.position, 12⟩))

def sendBombData (pos : Vector2) (s : ClientHandler) : Result :=
  .sends s (s.ownPlayer.toList.map
    (fun _ => .offensiveBombData ⟨roomID, s.connectionIDOnServer, pos.toVector3⟩))

def handleSendPlayerResults (r : PlayerStoredResultData) (s : ClientHandler) : Result :=
  if s.client then
    let d : PlayerSendResultData :=
      ⟨roomID, s.connectionIDOnServer, r.time, r.points, r.score, r.resultContext, r.name⟩
    .sends { s with mShouldSendData := false } [.storePlayerResults d.marshalled]
  else .throws s .nullReference

def handlePlayerData (d : PlayerData) (s : ClientHandler) : Result :=
  if d.playerID = s.connectionIDOnServer then .returns s
  else
    let r := s.mPlayers.handlePlayerData d
    ⟨{ s with mPlayers := r.1 }, [], [], r.2⟩

def handleInterpolatePlayerPoses (deltaTime : ℚ) (s : ClientHandler) : Result :=
  let r := s.mPlayers.handleInterpolatePlayerPoses deltaTime
  ⟨{ s with mPlayers := r.1 }, [], [], r.2⟩

def handleRegisterPlayer (player : GameObject) (s : ClientHandler) : Result :=
  let others := Dict.mapValues
    (fun k p => if k = s.connectionIDOnServer then p else PlayerGameData.hologram) s.mPlayers
  .returns { s with
    mGameState := .gameStarted
    mPlayers := others.insert s.connectionIDOnServer
      { PlayerGameData.init .new with playerOBJ := some player } }

/-- `handleRegisterPlayer`, the handler of `REGISTER_PLAYER`. -/
def handleRegisterPlayerPacket (d : RegisterPlayer) (s : ClientHandler) : Result :=
  let s := { s with connectionIDOnServer := d.playerID }
  if d.playerID ∈ s.mPlayers then .throws s .argument
  else .returns { s with mPlayers := s.mPlayers.insert d.playerID (.init .new) }

def handleOtherPlayerFinish (otherPlayerID : UInt32) (finishReason : ResultContext)
    (s : ClientHandler) : Result :=
  match s.mPlayers.lookup otherPlayerID with
  | none => .throws s .keyNotFound
  | some prevData =>
    match finishEvents finishReason prevData.playerOBJ with
    | .error e => .throws s e
    | .ok events =>
      .raises { s with
        mPlayers := s.mPlayers.insert otherPlayerID { prevData with playerOBJ := none } } events

def handleOffensiveBombData (d : OffensiveBombData) (s : ClientHandler) : Result :=
  match s.mPlayers.lookup d.playerID with
  | none => .throws s .keyNotFound
  | some p =>
    match p.playerOBJ with
    | none => .returns s
    | some o =>
      if o.usable then
        match o.kind with
        | .player => .throws s .nullReference
        | .hologram => .raises s [.spawnOffensiveBomb d.playerID d.pos.toVector2]
      else .returns s

def handleGameState (e : EventTypes) (s : ClientHandler) : Result :=
  match e with
  | .startGame => .raises s [.sceneTransition 4]
  | .gameFinished => .raises { s with mGameState := .resultsScreen } [.sceneTransition 5]

def receive (p : Packet) (s : ClientHandler) : Result :=
  match p with
  | .playerData d => s.handlePlayerData d
  | .registerPlayer d => s.handleRegisterPlayerPacket d
  | .playerCount d => .raises s [.numberOfJoinedPlayersChanged d.playerCount]
  | .sendResult d => .raises s [.registerOtherPlayerResult d]
  | .gameState d => s.handleGameState d.gameState
  | .offensiveBombData d => s.handleOffensiveBombData d
  | .otherPlayerFinish d => s.handleOtherPlayerFinish d.playerID d.finishState
  | .storePlayerResults _ => .returns s

def onOwnPlayer (f : GameObject → GameObject) (s : ClientHandler) : ClientHandler :=
  { s with
    mPlayers := s.mPlayers.onObjects (fun o => if o.kind = .player then f o else o) }

def onObjects (f : GameObject → GameObject) (s : ClientHandler) : ClientHandler :=
  { s with mPlayers := s.mPlayers.onObjects f }

end ClientHandler

/-- What a client should be showing of the other players, told from the packets it processed:
`known` players have sent it their position, `shown` ones have a hologram in the loaded scene. -/
structure View where
  known : List UInt32
  shown : List UInt32
deriving DecidableEq

/-- A client process: its handler, the loaded scene, the scenes it is about to load and what it
should be showing. -/
structure ClientSession where
  handler : ClientHandler
  scene : ℕ
  pending : List ℕ
  view : View
deriving DecidableEq

inductive ClientAction
  | statusUpdate (state : ServerHandler.ConnectionState) (connection : Connection)
  | receive (p : Packet)
  | loadScene (scene : ℕ) (position : Vector3)
  | sendPlayerResults (r : PlayerStoredResultData)
  | fireOffensiveBomb (pos : Vector2)
  | sendPlayerData
  | interpolate (deltaTime : ℚ)
  | movePlayer (position : Vector3)
  | destroyPlayer
  | endOfFrame
deriving DecidableEq

namespace ClientSession

def start : ClientSession := ⟨.joining, 2, [], ⟨[], []⟩⟩

def act (a : ClientAction) (s : ClientHandler) : ClientHandler.Result :=
  match a with
  | .statusUpdate state connection => s.onClientStatusUpdate state connection
  | .receive p => s.receive p
  | .loadScene scene position =>
    let s := s.onObjects .unload
    if scene = 4 then s.handleRegisterPlayer ⟨.player, position, .alive⟩ else .returns s
  | .sendPlayerResults r => s.handleSendPlayerResults r
  | .fireOffensiveBomb pos => s.sendBombData pos
  | .sendPlayerData => s.sendPlayerData
  | .interpolate deltaTime => s.handleInterpolatePlayerPoses deltaTime
  | .movePlayer position => .returns (s.onOwnPlayer (.moveTo position))
  | .destroyPlayer => .returns (s.onOwnPlayer .destroy)
  | .endOfFrame => .returns (s.onObjects .endOfFrame)

/-- Messages are read in all states that `Update` handles; results and bombs come from the level
scene. -/
def Enabled (s : ClientSession) : ClientAction → Prop
  | .statusUpdate .connected _ => s.handler.mGameState = .lookingForHost
  | .receive _ => s.handler.mGameState ∈
      [GameState.searchingForPlayers, .gameStarted, .resultsScreen]
  | .loadScene scene _ => scene ∈ s.pending
  | .sendPlayerResults _ => s.scene = 4
  | .fireOffensiveBomb _ => s.scene = 4
  | .sendPlayerData => s.handler.mGameState = .gameStarted ∧ s.handler.mShouldSendData = true
  | .interpolate _ => s.handler.mGameState = .gameStarted
  | _ => True

instance (s : ClientSession) (a : ClientAction) : Decidable (s.Enabled a) := by
  cases a with
  | statusUpdate state c => cases state <;> dsimp only [Enabled] <;> infer_instance
  | _ => dsimp only [Enabled]; infer_instance

def sceneRequests (events : List Event) : List ℕ :=
  events.filterMap (fun e =>
    match e with
    | .sceneTransition scene => some scene
    | .loadScene scene => some scene
    | _ => none)

def pendingAfter (s : ClientSession) : ClientAction → List ℕ
  | .loadScene scene _ => s.pending.erase scene
  | _ => s.pending

def sceneAfter (s : ClientSession) : ClientAction → ℕ
  | .loadScene scene _ => scene
  | _ => s.scene

def viewAfter (s : ClientSession) : ClientAction → View
  | .receive (.playerData d) =>
    if d.playerID = s.handler.connectionIDOnServer ∨ d.playerID ∈ s.view.known then s.view
    else ⟨d.playerID :: s.view.known, d.playerID :: s.view.shown⟩
  | .receive (.otherPlayerFinish d) => ⟨s.view.known, s.view.shown.filter (fun k => k ≠ d.playerID)⟩
  | .loadScene scene _ => ⟨s.view.known, if scene = 4 then s.view.known else []⟩
  | _ => s.view

def next (s : ClientSession) (a : ClientAction) : ClientSession :=
  ⟨(act a s.handler).state, s.sceneAfter a,
    s.pendingAfter a ++ sceneRequests (act a s.handler).raised, s.viewAfter a⟩

@[simp] theorem next_handler (s : ClientSession) (a : ClientAction) :
    (s.next a).handler = (act a s.handler).state := rfl

@[simp] theorem next_scene (s : ClientSession) (a : ClientAction) :
    (s.next a).scene = s.sceneAfter a := rfl

@[simp] theorem next_pending (s : ClientSession) (a : ClientAction) : (s.next a).pending =
    s.pendingAfter a ++ sceneRequests (act a s.handler).raised := rfl

@[simp] theorem next_view (s : ClientSession) (a : ClientAction) :
    (s.next a).view = s.viewAfter a := rfl

end ClientSession

end SeminarTouhou
