import SeminarTouhou.Network.ServerHandler

namespace SeminarTouhou

open Library

/-- A hosted session: the handler with what surrounds it. `participants` are the open connections
that `START` was broadcast to, `levelLoads` the loads of the level scene that button presses asked
for, `log` every event raised so far. -/
structure HostSession where
  handler : ServerHandler
  participants : List Connection
  levelLoads : ℕ
  log : List Event
deriving DecidableEq

inductive HostAction
  | statusCallback (state : ServerHandler.ConnectionState) (c : Connection)
  | startGame
  | levelLoaded (position : Vector3)
  | sendPlayerResults (r : PlayerStoredResultData)
  | fireOffensiveBomb (pos : Vector2)
  | receive (c : Connection) (p : Packet)
  | endCheck (gameFinishedCheck : Bool)
  | sendPlayerData
  | broadcastPlayerCount
  | broadcastResults
  | interpolate (deltaTime : ℚ)
  | movePlayer (position : Vector3)
  | destroyPlayer
  | unloadScene
  | endOfFrame
deriving DecidableEq

def Packet.claimedID : Packet → Option UInt32
  | .playerData d => some d.playerID
  | .storePlayerResults d => some d.playerID
  | .offensiveBombData d => some d.playerID
  | _ => none

-- Decidable membership of a claimed id refers to this by name.
instance instLawfulBEqClaimedID : LawfulBEq (Option UInt32) := inferInstance

namespace ServerHandler

def onOwnPlayer (f : GameObject → GameObject) (s : ServerHandler) : ServerHandler :=
  { s with
    mPlayers := s.mPlayers.onObjects (fun o => if o.kind = .player then f o else o) }

def onObjects (f : GameObject → GameObject) (s : ServerHandler) : ServerHandler :=
  { s with mPlayers := s.mPlayers.onObjects f }

end ServerHandler

namespace HostSession

open ServerHandler (ConnectionState)

def start : HostSession := ⟨.hosted, [], 0, []⟩

def act (a : HostAction) (s : ServerHandler) : ServerHandler.Result :=
  match a with
  | .statusCallback state c => s.serverStatusCallback state c
  | .startGame => s.handleBroadcastGameStart
  | .levelLoaded position => s.handleRegisterPlayer ⟨.player, position, .alive⟩
  | .sendPlayerResults r => s.handleSendPlayerResults r
  | .fireOffensiveBomb pos => s.sendBombDataFromServer pos
  | .receive _ p => s.receive p
  | .endCheck b => s.coDelayEndGameCheck b
  | .sendPlayerData => s.sendPlayerData
  | .broadcastPlayerCount => s.broadcastPlayerCount
  | .broadcastResults => s.broadcastResults
  | .interpolate deltaTime => s.handleInterpolatePlayerPoses deltaTime
  | .movePlayer position => .returns (s.onOwnPlayer (.moveTo position))
  | .destroyPlayer => .returns (s.onOwnPlayer .destroy)
  | .unloadScene => .returns (s.onObjects .unload)
  | .endOfFrame => .returns (s.onObjects .endOfFrame)

/-- When the engine or the player can cause an action. The button is in the lobby scene; bombs and
results come from the level; packets are only read in `GAME_STARTED`. -/
def Enabled (h : HostSession) : HostAction → Prop
  | .statusCallback _ c => c ≠ 0 ∧ h.handler.mGameState ∈
      [GameState.searchingForPlayers, .gameStarted, .resultsScreen]
  | .startGame => h.handler.mGameState = .searchingForPlayers
  | .levelLoaded _ => 0 < h.levelLoads
  | .sendPlayerResults _ => h.handler.mGameState ∈ [GameState.gameStarted, .resultsScreen]
  | .fireOffensiveBomb _ => h.handler.mGameState ∈ [GameState.gameStarted, .resultsScreen]
  | .receive _ _ => h.handler.mGameState = .gameStarted
  | .endCheck b => b ∈ h.handler.endChecks
  | .sendPlayerData => h.handler.mGameState = .gameStarted
  | .broadcastPlayerCount => h.handler.mGameState = .searchingForPlayers
  | .broadcastResults => h.handler.mGameState = .resultsScreen
  | .interpolate _ => h.handler.mGameState = .gameStarted
  | .unloadScene => h.handler.mGameState = .resultsScreen
  | _ => True

instance (h : HostSession) (a : HostAction) : Decidable (h.Enabled a) := by
  cases a <;> dsimp only [Enabled] <;> infer_instance

def participantsAfter (h : HostSession) : HostAction → List Connection
  | .startGame => h.handler.connectedClients
  | .statusCallback .closedByPeer c => h.participants.filter (fun d => d ≠ c)
  | .statusCallback .problemDetectedLocally c => h.participants.filter (fun d => d ≠ c)
  | _ => h.participants

def levelLoadsAfter (h : HostSession) : HostAction → ℕ
  | .startGame => h.levelLoads + 1
  | .levelLoaded _ => h.levelLoads - 1
  | _ => h.levelLoads

def next (h : HostSession) (a : HostAction) : HostSession :=
  ⟨(act a h.handler).state, h.participantsAfter a, h.levelLoadsAfter a,
    h.log ++ (act a h.handler).raised⟩

def system : System HostSession HostAction := ⟨Enabled, next⟩

instance (h : HostSession) (a : HostAction) : Decidable (system.enabled h a) :=
  inferInstanceAs (Decidable (h.Enabled a))

@[simp] theorem next_handler (h : HostSession) (a : HostAction) :
    (h.next a).handler = (act a h.handler).state := rfl

@[simp] theorem next_participants (h : HostSession) (a : HostAction) :
    (h.next a).participants = h.participantsAfter a := rfl

@[simp] theorem next_log (h : HostSession) (a : HostAction) :
    (h.next a).log = h.log ++ (act a h.handler).raised := rfl

end HostSession

end SeminarTouhou
