import SeminarTouhou.Library.Layout
import SeminarTouhou.Network.Packet

namespace SeminarTouhou

open Library

inductive PacketType
  | playerData
  | registerPlayer
  | playerCount
  | gameState
  | storePlayerResults
  | sendResult
  | offensiveBombData
  | otherPlayerFinish
  | registerRoom
  | joinRoom
deriving DecidableEq

namespace PacketType

def value : PacketType → UInt32
  | playerData => 0
  | registerPlayer => 1
  | playerCount => 2
  | gameState => 3
  | storePlayerResults => 4
  | sendResult => 5
  | offensiveBombData => 6
  | otherPlayerFinish => 7
  | registerRoom => 8
  | joinRoom => 9

/-- The case that a `switch` on a cast number selects, if it has a name. -/
def ofValue (w : UInt32) : Option PacketType :=
  [playerData, registerPlayer, playerCount, gameState, storePlayerResults, sendResult,
    offensiveBombData, otherPlayerFinish, registerRoom, joinRoom][w.toNat]?

theorem ofValue_value (t : PacketType) : ofValue t.value = some t := by
  cases t <;> rfl

end PacketType

/-- A packet struct: the fields that follow its `type`, in memory and in the program. -/
structure Struct (α : Type) where
  fields : Layout
  values : α → fields.Values
  build : fields.Values → α

namespace Struct

variable {α : Type} (S : Struct α)

def layout : Layout := .word :: S.fields

def size : ℕ := S.layout.size

def bytes (pad : ℕ → UInt8) (t : PacketType) (a : α) : List UInt8 :=
  Layout.encode pad S.layout (t.value, S.values a)

/-- `Marshal.PtrToStructure` at the start of the bytes. -/
def read (bytes : List UInt8) : α := S.build (S.layout.decode bytes).2

end Struct

def typeFinder (bytes : List UInt8) : Option PacketType :=
  PacketType.ofValue (Layout.decode [.word] bytes).1

namespace Wire

/-- A `float`, by its bits. -/
structure Single where
  bits : UInt32
deriving DecidableEq

structure Vector3 where
  x : Single
  y : Single
  z : Single
deriving DecidableEq

structure PlayerData where
  roomID : UInt32
  playerID : UInt32
  pos : Vector3
  speed : Single
deriving DecidableEq

structure PlayerCountData where
  roomID : UInt32
  playerCount : Int32
deriving DecidableEq

structure GameStateData where
  roomID : UInt32
  gameState : Int32
deriving DecidableEq

/-- The name has one byte for each character. -/
structure PlayerSendResultData where
  roomID : UInt32
  playerID : UInt32
  time : Single
  points : Int32
  score : Int32
  resultContext : Int32
  name : List UInt8
deriving DecidableEq

structure OffensiveBombData where
  roomID : UInt32
  playerID : UInt32
  pos : Vector3
deriving DecidableEq

structure OtherClientFinishState where
  roomID : UInt32
  playerID : UInt32
  finishState : Int32
deriving DecidableEq

def playerData : Struct PlayerData where
  fields := [.word, .word, .word, .word, .word, .word]
  values d := (d.roomID, d.playerID, d.pos.x.bits, d.pos.y.bits, d.pos.z.bits, d.speed.bits, ())
  build := fun (room, id, x, y, z, speed, _) => ⟨room, id, ⟨⟨x⟩, ⟨y⟩, ⟨z⟩⟩, ⟨speed⟩⟩

def registerPlayer : Struct RegisterPlayer where
  fields := [.word, .word]
  values d := (d.roomID, d.playerID, ())
  build := fun (room, id, _) => ⟨room, id⟩

def playerCount : Struct PlayerCountData where
  fields := [.word, .word]
  values d := (d.roomID, d.playerCount.toUInt32, ())
  build := fun (room, count, _) => ⟨room, count.toInt32⟩

def gameState : Struct GameStateData where
  fields := [.word, .word]
  values d := (d.roomID, d.gameState.toUInt32, ())
  build := fun (room, state, _) => ⟨room, state.toInt32⟩

def playerSendResultData : Struct PlayerSendResultData where
  fields := [.word, .word, .word, .word, .word, .word, .text 50]
  values d := (d.roomID, d.playerID, d.time.bits, d.points.toUInt32, d.score.toUInt32,
    d.resultContext.toUInt32, d.name, ())
  build := fun (room, id, time, points, score, context, name, _) =>
    ⟨room, id, ⟨time⟩, points.toInt32, score.toInt32, context.toInt32, name⟩

def offensiveBombData : Struct OffensiveBombData where
  fields := [.word, .word, .word, .word, .word]
  values d := (d.roomID, d.playerID, d.pos.x.bits, d.pos.y.bits, d.pos.z.bits, ())
  build := fun (room, id, x, y, z, _) => ⟨room, id, ⟨⟨x⟩, ⟨y⟩, ⟨z⟩⟩⟩

def otherClientFinishState : Struct OtherClientFinishState where
  fields := [.word, .word, .word]
  values d := (d.roomID, d.playerID, d.finishState.toUInt32, ())
  build := fun (room, id, state, _) => ⟨room, id, state.toInt32⟩

inductive Message
  | playerData (d : PlayerData)
  | registerPlayer (d : RegisterPlayer)
  | playerCount (d : PlayerCountData)
  | gameState (d : GameStateData)
  | storePlayerResults (d : PlayerSendResultData)
  | sendResult (d : PlayerSendResultData)
  | offensiveBombData (d : OffensiveBombData)
  | otherPlayerFinish (d : OtherClientFinishState)
deriving DecidableEq

namespace Message

def packetType : Message → PacketType
  | playerData _ => .playerData
  | registerPlayer _ => .registerPlayer
  | playerCount _ => .playerCount
  | gameState _ => .gameState
  | storePlayerResults _ => .storePlayerResults
  | sendResult _ => .sendResult
  | offensiveBombData _ => .offensiveBombData
  | otherPlayerFinish _ => .otherPlayerFinish

/-- What the sender hands to `SendMessageToConnection`. A pinned struct and one that
`StructureToPtr` wrote have the same bytes, up to those that no field covers. -/
def bytes (pad : ℕ → UInt8) : Message → List UInt8
  | playerData d => Wire.playerData.bytes pad .playerData d
  | registerPlayer d => Wire.registerPlayer.bytes pad .registerPlayer d
  | playerCount d => Wire.playerCount.bytes pad .playerCount d
  | gameState d => Wire.gameState.bytes pad .gameState d
  | storePlayerResults d => playerSendResultData.bytes pad .storePlayerResults d
  | sendResult d => playerSendResultData.bytes pad .sendResult d
  | offensiveBombData d => Wire.offensiveBombData.bytes pad .offensiveBombData d
  | otherPlayerFinish d => otherClientFinishState.bytes pad .otherPlayerFinish d

def sentByClient : Message → Bool
  | playerData _ | storePlayerResults _ | offensiveBombData _ => true
  | _ => false

def sentByServer : Message → Bool
  | storePlayerResults _ => false
  | _ => true

end Message

def serverReads (buffer : List UInt8) : Option Message :=
  match typeFinder buffer with
  | some .playerData => some (.playerData (playerData.read buffer))
  | some .storePlayerResults => some (.storePlayerResults (playerSendResultData.read buffer))
  | some .offensiveBombData => some (.offensiveBombData (offensiveBombData.read buffer))
  | _ => none

def clientReads (buffer : List UInt8) : Option Message :=
  match typeFinder buffer with
  | some .playerData => some (.playerData (playerData.read buffer))
  | some .registerPlayer => some (.registerPlayer (registerPlayer.read buffer))
  | some .playerCount => some (.playerCount (playerCount.read buffer))
  | some .sendResult => some (.sendResult (playerSendResultData.read buffer))
  | some .gameState => some (.gameState (gameState.read buffer))
  | some .offensiveBombData => some (.offensiveBombData (offensiveBombData.read buffer))
  | some .otherPlayerFinish => some (.otherPlayerFinish (otherClientFinishState.read buffer))
  | _ => none

end Wire

abbrev Buffer := {bytes : List UInt8 // bytes.length = 256}

/-- `NetworkingMessage.CopyTo`; `Marshal.Copy` checks the bounds before it copies. -/
def Buffer.copyTo (message : List UInt8) (destination : Buffer) : Except Exn Buffer :=
  if h : message.length ≤ 256 then
    .ok ⟨message ++ destination.1.drop message.length, by
      rw [List.length_append, List.length_drop, destination.2]
      omega⟩
  else .error .argumentOutOfRange

namespace Struct

variable {α : Type} (S : Struct α)

def cut (a : α) : α := S.build (S.fields.cut (S.values a))

theorem length_bytes (pad : ℕ → UInt8) (t : PacketType) (a : α) :
    (S.bytes pad t a).length = S.size := Layout.length_encode _ _ _

theorem read_bytes (pad : ℕ → UInt8) (t : PacketType) (a : α) (rest : List UInt8) :
    S.read (S.bytes pad t a ++ rest) = S.cut a := by
  have h := Layout.decode_encode pad S.layout (t.value, S.values a) rest
  rw [read, bytes, h]
  rfl

theorem typeFinder_bytes (pad : ℕ → UInt8) (t : PacketType) (a : α) (rest : List UInt8) :
    typeFinder (S.bytes pad t a ++ rest) = some t := by
  have h := Layout.decode_encode pad S.layout (t.value, S.values a) rest
  have htype : (Layout.decode [.word] (S.bytes pad t a ++ rest)).1 = t.value := congrArg Prod.fst h
  rw [typeFinder, htype, PacketType.ofValue_value]

end Struct

namespace Wire

/-- A name is cut at its first zero byte and to the 49 bytes that its field has for it. -/
def cutName (name : List UInt8) : List UInt8 := (name.take 49).takeWhile (fun b => b ≠ 0)

namespace Message

def cut : Message → Message
  | storePlayerResults d => storePlayerResults { d with name := cutName d.name }
  | sendResult d => sendResult { d with name := cutName d.name }
  | m => m

theorem length_bytes_le (pad : ℕ → UInt8) (m : Message) : (m.bytes pad).length ≤ 256 := by
  cases m <;> simp only [bytes, Struct.length_bytes] <;> decide

theorem typeFinder_bytes (pad : ℕ → UInt8) (m : Message) (rest : List UInt8) :
    typeFinder (m.bytes pad ++ rest) = some m.packetType := by
  cases m <;> exact Struct.typeFinder_bytes _ pad _ _ rest

theorem serverReads_bytes (pad : ℕ → UInt8) (m : Message) (rest : List UInt8) :
    serverReads (m.bytes pad ++ rest) = if m.sentByClient then some m.cut else none := by
  rw [serverReads, typeFinder_bytes]
  cases m with
  | playerData d =>
    exact congrArg (fun d => some (playerData d)) (Struct.read_bytes _ pad _ d rest)
  | storePlayerResults d =>
    exact congrArg (fun d => some (storePlayerResults d)) (Struct.read_bytes _ pad _ d rest)
  | offensiveBombData d =>
    exact congrArg (fun d => some (offensiveBombData d)) (Struct.read_bytes _ pad _ d rest)
  | registerPlayer | playerCount | gameState | sendResult | otherPlayerFinish => rfl

theorem clientReads_bytes (pad : ℕ → UInt8) (m : Message) (rest : List UInt8) :
    clientReads (m.bytes pad ++ rest) = if m.sentByServer then some m.cut else none := by
  rw [clientReads, typeFinder_bytes]
  cases m with
  | playerData d =>
    exact congrArg (fun d => some (playerData d)) (Struct.read_bytes _ pad _ d rest)
  | registerPlayer d =>
    exact congrArg (fun d => some (registerPlayer d)) (Struct.read_bytes _ pad _ d rest)
  | playerCount d =>
    exact congrArg (fun d => some (playerCount d)) (Struct.read_bytes _ pad _ d rest)
  | gameState d =>
    exact congrArg (fun d => some (gameState d)) (Struct.read_bytes _ pad _ d rest)
  | storePlayerResults d => rfl
  | sendResult d =>
    exact congrArg (fun d => some (sendResult d)) (Struct.read_bytes _ pad _ d rest)
  | offensiveBombData d =>
    exact congrArg (fun d => some (offensiveBombData d)) (Struct.read_bytes _ pad _ d rest)
  | otherPlayerFinish d =>
    exact congrArg (fun d => some (otherPlayerFinish d)) (Struct.read_bytes _ pad _ d rest)

end Message

/-- Whatever a packet carries and whatever the buffer held before, the other side selects the
packet's case and reads its fields; a packet meant for the sender's own side is not looked at. -/
theorem packets_round_trip (m : Message) (pad : ℕ → UInt8) (buffer : Buffer) :
    ∃ received : Buffer, buffer.copyTo (m.bytes pad) = .ok received ∧
      typeFinder received.1 = some m.packetType ∧
      serverReads received.1 = (if m.sentByClient then some m.cut else none) ∧
      clientReads received.1 = (if m.sentByServer then some m.cut else none) := by
  refine ⟨_, dif_pos (m.length_bytes_le pad), ?_, ?_, ?_⟩
  · exact m.typeFinder_bytes pad _
  · exact m.serverReads_bytes pad _
  · exact m.clientReads_bytes pad _

end Wire

end SeminarTouhou
