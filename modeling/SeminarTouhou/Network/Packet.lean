import SeminarTouhou.Engine.GameObject

namespace SeminarTouhou

open Library

abbrev Connection := UInt32

inductive GameState
  | none
  | lookingForHost
  | searchingForPlayers
  | gameStarted
  | resultsScreen
deriving DecidableEq

inductive ResultContext
  | playerWon
  | playerDied
  | playerDisconnected
deriving DecidableEq

inductive EventTypes
  | startGame
  | gameFinished
deriving DecidableEq

structure PlayerData where
  roomID : UInt32
  playerID : UInt32
  pos : Vector3
  speed : ℚ
deriving DecidableEq

structure RegisterPlayer where
  roomID : UInt32
  playerID : UInt32
deriving DecidableEq

structure PlayerCountData where
  roomID : UInt32
  playerCount : ℤ
deriving DecidableEq

structure GameStateData where
  roomID : UInt32
  gameState : EventTypes
deriving DecidableEq

structure PlayerSendResultData where
  roomID : UInt32
  playerID : UInt32
  time : ℚ
  points : ℤ
  score : ℤ
  resultContext : ResultContext
  name : String
deriving DecidableEq

/-- What a field of 50 bytes holds of a name: its last byte ends the name, and so does a zero. -/
def cutName (name : String) : String :=
  String.ofList ((name.toList.take 49).takeWhile (fun c => c ≠ Char.ofNat 0))

@[simp] theorem cutName_cutName (name : String) : cutName (cutName name) = cutName name := by
  have hlen : ((name.toList.take 49).takeWhile (fun c => c ≠ Char.ofNat 0)).length ≤ 49 :=
    (List.takeWhile_sublist _).length_le.trans (List.length_take_le _ _)
  simp only [cutName, String.toList_ofList, List.take_of_length_le hlen]
  rw [List.takeWhile_takeWhile]
  simp

def PlayerSendResultData.marshalled (d : PlayerSendResultData) : PlayerSendResultData :=
  { d with name := cutName d.name }

@[simp] theorem PlayerSendResultData.marshalled_marshalled (d : PlayerSendResultData) :
    d.marshalled.marshalled = d.marshalled := by
  simp [marshalled]

structure OffensiveBombData where
  roomID : UInt32
  playerID : UInt32
  pos : Vector3
deriving DecidableEq

structure OtherClientFinishState where
  roomID : UInt32
  playerID : UInt32
  finishState : ResultContext
deriving DecidableEq

inductive Packet
  | playerData (d : PlayerData)
  | registerPlayer (d : RegisterPlayer)
  | playerCount (d : PlayerCountData)
  | gameState (d : GameStateData)
  | storePlayerResults (d : PlayerSendResultData)
  | sendResult (d : PlayerSendResultData)
  | offensiveBombData (d : OffensiveBombData)
  | otherPlayerFinish (d : OtherClientFinishState)
deriving DecidableEq

-- Decidable membership of a packet in flight refers to this by name.
instance : LawfulBEq (Connection × Packet) := inferInstance

def roomID : UInt32 := 1

def serverPlayerID : UInt32 := 0

def packetTargetSendTime : ℚ := 33 / 1000

inductive Event
  | numberOfJoinedPlayersChanged (n : ℤ)
  | registerOtherPlayerResult (d : PlayerSendResultData)
  | playerWin (isOwningPlayer : Bool) (pos : Vector3)
  | playerDie (isOwningPlayer : Bool) (pos : Vector3)
  | spawnOffensiveBomb (player : UInt32) (pos : Vector2)
  | sceneTransition (scene : ℕ)
  | loadScene (scene : ℕ)
  | closeConnection (c : Connection)
deriving DecidableEq

end SeminarTouhou
