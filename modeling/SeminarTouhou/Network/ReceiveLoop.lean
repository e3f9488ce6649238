import SeminarTouhou.Network.Wire
import SeminarTouhou.Network.ClientHandler

namespace SeminarTouhou

open Library

namespace Wire

def Vector3.toVector3 (value : Single → ℚ) (v : Vector3) : SeminarTouhou.Vector3 :=
  ⟨value v.x, value v.y, value v.z⟩

def nameOf (bytes : List UInt8) : String := String.ofList (bytes.map (fun b => Char.ofNat b.toNat))

/-- No `switch` tells a number without a name from `PLAYER_DISCONNECTED`. -/
def resultContext (n : Int32) : ResultContext :=
  if n = 0 then .playerWon else if n = 1 then .playerDied else .playerDisconnected

def eventType (n : Int32) : Option EventTypes :=
  if n = 3 then some .startGame else if n = 6 then some .gameFinished else none

def resultData (value : Single → ℚ) (d : PlayerSendResultData) : SeminarTouhou.PlayerSendResultData :=
  ⟨d.roomID, d.playerID, value d.time, d.points.toInt, d.score.toInt, resultContext d.resultContext,
    nameOf d.name⟩

/-- The packet that a message stands for when `value` gives the number of each `float`. There is
none for a change of state that the client does not know. -/
def Message.packet (value : Single → ℚ) : Message → Option Packet
  | .playerData d => some (.playerData
      ⟨d.roomID, d.playerID, d.pos.toVector3 value, value d.speed⟩)
  | .registerPlayer d => some (.registerPlayer d)
  | .playerCount d => some (.playerCount ⟨d.roomID, d.playerCount.toInt⟩)
  | .gameState d => (eventType d.gameState).map (fun e => .gameState ⟨d.roomID, e⟩)
  | .storePlayerResults d => some (.storePlayerResults (resultData value d))
  | .sendResult d => some (.sendResult (resultData value d))
  | .offensiveBombData d => some (.offensiveBombData
      ⟨d.roomID, d.playerID, d.pos.toVector3 value⟩)
  | .otherPlayerFinish d => some (.otherPlayerFinish
      ⟨d.roomID, d.playerID, resultContext d.finishState⟩)

theorem nameOf_cutName (bytes : List UInt8) :
    nameOf (cutName bytes) = SeminarTouhou.cutName (nameOf bytes) := by
  have hzero : ((fun c : Char => decide (c ≠ Char.ofNat 0)) ∘ fun b : UInt8 => Char.ofNat b.toNat) =
      fun b : UInt8 => decide (b ≠ 0) := by
    funext b
    have hvalid : b.toNat.isValidChar := Or.inl (b.toNat_lt.trans (by decide))
    have hb : (Char.ofNat b.toNat).toNat = b.toNat := by
      rw [Char.toNat_ofNat, if_pos hvalid]
    apply decide_eq_decide.mpr
    apply not_congr
    constructor
    · intro h
      exact UInt8.toNat_inj.mp (hb.symm.trans (congrArg Char.toNat h))
    · rintro rfl
      rfl
  simp only [nameOf, cutName, SeminarTouhou.cutName, String.toList_ofList]
  rw [← List.map_take, List.takeWhile_map, hzero]

end Wire

def Packet.marshalled : Packet → Packet
  | .storePlayerResults d => .storePlayerResults d.marshalled
  | .sendResult d => .sendResult d.marshalled
  | p => p

/-- What a message stands for when its bytes were written and read again. -/
theorem Wire.Message.packet_cut (value : Wire.Single → ℚ) (m : Wire.Message) :
    m.cut.packet value = (m.packet value).map Packet.marshalled := by
  have hresult (d : Wire.PlayerSendResultData) :
      Wire.resultData value { d with name := Wire.cutName d.name } =
        (Wire.resultData value d).marshalled := by
    rw [Wire.resultData, Wire.nameOf_cutName]
    rfl
  cases m with
  | storePlayerResults d | sendResult d =>
    simp only [Wire.Message.cut, Wire.Message.packet, hresult]
    rfl
  | gameState d =>
    simp only [Wire.Message.cut, Wire.Message.packet]
    cases Wire.eventType d.gameState <;> rfl
  | playerData | registerPlayer | playerCount | offensiveBombData | otherPlayerFinish => rfl

/-- One pass of the server's loop, once the buffer holds the message. -/
def ServerHandler.handleMessage (value : Wire.Single → ℚ) (buffer : List UInt8) (s : ServerHandler) :
    ServerHandler.Result :=
  match (Wire.serverReads buffer).bind (Wire.Message.packet value) with
  | none => .returns s
  | some p => s.receive p

/-- One pass of the loop in `HandleNetMessages`, once the buffer holds the message. -/
def ClientHandler.handleMessage (value : Wire.Single → ℚ) (buffer : List UInt8) (s : ClientHandler) :
    ClientHandler.Result :=
  match (Wire.clientReads buffer).bind (Wire.Message.packet value) with
  | none => .returns s
  | some p => s.receive p

def Outcome.onState {σ τ μ ε : Type*} (f : σ → τ) (o : Outcome σ μ ε) : Outcome τ μ ε :=
  ⟨f o.state, o.sent, o.raised, o.thrown⟩

structure Inbox (σ : Type) where
  handler : σ
  messageDataBuffer : Buffer

namespace Inbox

variable {σ μ ε : Type}

def receive (handle : List UInt8 → σ → Outcome σ μ ε) (message : List UInt8) (n : Inbox σ) :
    Outcome (Inbox σ) μ ε :=
  match n.messageDataBuffer.copyTo message with
  | .error e => .throws n e
  | .ok buffer => (handle buffer.1 n.handler).onState (fun s => ⟨s, buffer⟩)

def receiveAll (handle : List UInt8 → σ → Outcome σ μ ε) :
    List (List UInt8) → Inbox σ → Outcome (Inbox σ) μ ε
  | [], n => .returns n
  | m :: ms, n => (n.receive handle m).andThen (receiveAll handle ms)

end Inbox

def Packet.player : Packet → Option UInt32
  | .playerData d => some d.playerID
  | .registerPlayer d => some d.playerID
  | .storePlayerResults d => some d.playerID
  | .sendResult d => some d.playerID
  | .offensiveBombData d => some d.playerID
  | .otherPlayerFinish d => some d.playerID
  | _ => none

/-- Positions and registrations are how a node comes to know a player. -/
def Packet.introduces : Packet → Bool
  | .playerData _ | .registerPlayer _ => true
  | _ => false

section Isolation

variable {σ μ ε : Type}

/-- The batch without a buffer: each message is handled on its own bytes. -/
def handleEach (handle : List UInt8 → σ → Outcome σ μ ε) : List (List UInt8) → σ → Outcome σ μ ε
  | [], s => .returns s
  | m :: ms, s => (handle m s).andThen (handleEach handle ms)

/-- The message has all bytes of the struct that its type selects, and it fits into the buffer. -/
def Complete (size : List UInt8 → ℕ) (m : List UInt8) : Prop :=
  4 ≤ m.length ∧ size m ≤ m.length ∧ m.length ≤ 256

def Wire.serverSize (m : List UInt8) : ℕ :=
  match typeFinder m with
  | some .playerData => playerData.size
  | some .storePlayerResults => playerSendResultData.size
  | some .offensiveBombData => offensiveBombData.size
  | _ => 4

def Wire.clientSize (m : List UInt8) : ℕ :=
  match typeFinder m with
  | some .playerData => playerData.size
  | some .registerPlayer => registerPlayer.size
  | some .playerCount => playerCount.size
  | some .sendResult => playerSendResultData.size
  | some .gameState => gameState.size
  | some .offensiveBombData => offensiveBombData.size
  | some .otherPlayerFinish => otherClientFinishState.size
  | _ => 4

theorem Struct.read_append {α : Type} (S : Struct α) {m : List UInt8} (h : S.size ≤ m.length)
    (rest : List UInt8) : S.read (m ++ rest) = S.read m := by
  rw [read, Layout.decode_append h]
  rfl

theorem typeFinder_append {m : List UInt8} (h : 4 ≤ m.length) (rest : List UInt8) :
    typeFinder (m ++ rest) = typeFinder m := by
  have hsize : Layout.size [.word] ≤ m.length := h
  rw [typeFinder, Layout.decode_append hsize]
  rfl

namespace Wire

theorem serverReads_append {m : List UInt8} (h : Complete serverSize m) (rest : List UInt8) :
    serverReads (m ++ rest) = serverReads m := by
  obtain ⟨htype, hsize, -⟩ := h
  rw [serverReads, typeFinder_append htype, serverReads]
  rw [serverSize] at hsize
  cases ht : typeFinder m with
  | none => rfl
  | some t =>
    rw [ht] at hsize
    cases t with
    | playerData | storePlayerResults | offensiveBombData =>
      dsimp only at hsize ⊢
      rw [Struct.read_append _ hsize]
    | _ => rfl

theorem clientReads_append {m : List UInt8} (h : Complete clientSize m) (rest : List UInt8) :
    clientReads (m ++ rest) = clientReads m := by
  obtain ⟨htype, hsize, -⟩ := h
  rw [clientReads, typeFinder_append htype, clientReads]
  rw [clientSize] at hsize
  cases ht : typeFinder m with
  | none => rfl
  | some t =>
    rw [ht] at hsize
    cases t with
    | storePlayerResults | registerRoom | joinRoom => rfl
    | _ =>
      dsimp only at hsize ⊢
      rw [Struct.read_append _ hsize]

end Wire

/-- How a node treats the messages of a batch when `reads` tells which packet the bytes of one
carry. Messages that lack bytes of their struct, and what an exception does to the rest of its
batch, are left open. -/
structure Isolates (handle : List UInt8 → σ → Outcome σ μ ε) (size : List UInt8 → ℕ)
    (reads : List UInt8 → Option Packet) (players : σ → PlayerTable) : Prop where
  own : ∀ m (n : Inbox σ), Complete size m →
    (n.receive handle m).onState Inbox.handler = handle m n.handler
  batch : ∀ ms (n : Inbox σ), (∀ m ∈ ms, Complete size m) →
    (n.receiveAll handle ms).onState Inbox.handler = handleEach handle ms n.handler
  rest : ∀ ms ms' (n : Inbox σ), (n.receiveAll handle ms).thrown = none →
    (n.receiveAll handle (ms ++ ms')).state =
      ((n.receiveAll handle ms).state.receiveAll handle ms').state
  tooLong : ∀ m (n : Inbox σ), 256 < m.length → (n.receive handle m).state = n
  unknownType : ∀ m, typeFinder m = none → reads m = none
  ignored : ∀ m s, reads m = none → handle m s = .returns s
  stranger : ∀ m s p k, reads m = some p → p.player = some k → p.introduces = false →
    k ∉ players s → players (handle m s).state = players s
  newcomer : ∀ m s p k, reads m = some p → p.player = some k → p.introduces = true →
    ∀ j, j ≠ k → (players (handle m s).state).lookup j = (players s).lookup j

theorem onState_andThen {τ : Type} (g : σ → τ) (o : Outcome σ μ ε) {f : σ → Outcome σ μ ε}
    {h : τ → Outcome τ μ ε} (hf : ∀ s, (f s).onState g = h (g s)) :
    (o.andThen f).onState g = (o.onState g).andThen h := by
  obtain ⟨s, sent, raised, thrown⟩ := o
  cases thrown with
  | some e => rfl
  | none =>
    have hs := hf s
    simp only [Outcome.andThen, Outcome.onState] at hs ⊢
    rw [← hs]

theorem andThen_state {o : Outcome σ μ ε} (h : o.thrown = none) (f : σ → Outcome σ μ ε) :
    (o.andThen f).state = (f o.state).state ∧ (o.andThen f).thrown = (f o.state).thrown := by
  simp only [Outcome.andThen, h, and_self]

theorem thrown_of_andThen {o : Outcome σ μ ε} {f : σ → Outcome σ μ ε}
    (h : (o.andThen f).thrown = none) : o.thrown = none := by
  cases ho : o.thrown with
  | none => rfl
  | some e => simp [Outcome.andThen, ho] at h

namespace Inbox

variable {handle : List UInt8 → σ → Outcome σ μ ε}

theorem receive_own {size : List UInt8 → ℕ}
    (hown : ∀ m s, Complete size m → ∀ rest, handle (m ++ rest) s = handle m s)
    (m : List UInt8) (n : Inbox σ) (hm : Complete size m) :
    (n.receive handle m).onState Inbox.handler = handle m n.handler := by
  simp only [receive, Buffer.copyTo, dif_pos hm.2.2, hown m n.handler hm]
  rfl

theorem receiveAll_own {size : List UInt8 → ℕ}
    (hown : ∀ m s, Complete size m → ∀ rest, handle (m ++ rest) s = handle m s)
    (ms : List (List UInt8)) (n : Inbox σ) (hms : ∀ m ∈ ms, Complete size m) :
    (n.receiveAll handle ms).onState Inbox.handler = handleEach handle ms n.handler := by
  induction ms generalizing n with
  | nil => rfl
  | cons m ms ih =>
    have hrest (n : Inbox σ) := ih n (fun m hm => hms m (List.mem_cons_of_mem _ hm))
    rw [receiveAll, onState_andThen Inbox.handler _ hrest,
      receive_own hown m n (hms m List.mem_cons_self)]
    rfl

theorem receiveAll_append (ms ms' : List (List UInt8)) (n : Inbox σ)
    (h : (n.receiveAll handle ms).thrown = none) :
    (n.receiveAll handle (ms ++ ms')).state =
      ((n.receiveAll handle ms).state.receiveAll handle ms').state := by
  induction ms generalizing n with
  | nil => rfl
  | cons m ms ih =>
    rw [receiveAll] at h
    have hm := thrown_of_andThen h
    rw [List.cons_append, receiveAll, receiveAll, (andThen_state hm _).1, (andThen_state hm _).1]
    exact ih _ ((andThen_state hm _).2 ▸ h)

theorem receive_tooLong {m : List UInt8} (h : 256 < m.length) (n : Inbox σ) :
    (n.receive handle m).state = n := by
  rw [receive, Buffer.copyTo, dif_neg (not_le.mpr h)]
  rfl

end Inbox

theorem isolates_of_reads {handle : List UInt8 → σ → Outcome σ μ ε} {size : List UInt8 → ℕ}
    {reads : List UInt8 → Option Packet} {players : σ → PlayerTable}
    (receive : Packet → σ → Outcome σ μ ε)
    (hhandle : ∀ m s, handle m s = (reads m).elim (.returns s) (fun p => receive p s))
    (happend : ∀ m, Complete size m → ∀ rest, reads (m ++ rest) = reads m)
    (htype : ∀ m, typeFinder m = none → reads m = none)
    (hstranger : ∀ s p k, Packet.player p = some k → p.introduces = false → k ∉ players s →
      players (receive p s).state = players s)
    (hnewcomer : ∀ s p k, Packet.player p = some k → p.introduces = true → ∀ j, j ≠ k →
      (players (receive p s).state).lookup j = (players s).lookup j) :
    Isolates handle size reads players := by
  have hown : ∀ m s, Complete size m → ∀ rest, handle (m ++ rest) s = handle m s := by
    intro m s hm rest
    rw [hhandle, hhandle, happend m hm]
  refine ⟨Inbox.receive_own hown, Inbox.receiveAll_own hown, Inbox.receiveAll_append,
    fun m n h => Inbox.receive_tooLong h n, htype, ?_, ?_, ?_⟩
  · intro m s hr
    rw [hhandle, hr]
    rfl
  · intro m s p k hr hp hi hk
    rw [hhandle, hr]
    exact hstranger s p k hp hi hk
  · intro m s p k hr hp hi j hj
    rw [hhandle, hr]
    exact hnewcomer s p k hp hi j hj

theorem ServerHandler.receive_stranger {s : ServerHandler} {p : Packet} {k : UInt32}
    (hp : p.player = some k) (hi : p.introduces = false) (hk : k ∉ s.mPlayers) :
    (s.receive p).state.mPlayers = s.mPlayers := by
  have hnone := AList.lookup_eq_none.mpr hk
  cases p with
  | storePlayerResults d =>
    obtain rfl := Option.some.inj hp
    simp only [receive, handleReceivePlayerResult, hnone]
    split_ifs <;> rfl
  | offensiveBombData d =>
    obtain rfl := Option.some.inj hp
    simp only [receive, handleOffensiveBombData, hnone]
    rfl
  | playerData d => simp [Packet.introduces] at hi
  | _ => rfl

theorem ClientHandler.receive_stranger {s : ClientHandler} {p : Packet} {k : UInt32}
    (hp : p.player = some k) (hi : p.introduces = false) (hk : k ∉ s.mPlayers) :
    (s.receive p).state.mPlayers = s.mPlayers := by
  have hnone := AList.lookup_eq_none.mpr hk
  cases p with
  | otherPlayerFinish d =>
    obtain rfl := Option.some.inj hp
    simp only [receive, handleOtherPlayerFinish, hnone]
    rfl
  | offensiveBombData d =>
    obtain rfl := Option.some.inj hp
    simp only [receive, handleOffensiveBombData, hnone]
    rfl
  | playerData | registerPlayer => simp [Packet.introduces] at hi
  | gameState d => simp [Packet.player] at hp
  | _ => rfl

theorem ServerHandler.receive_newcomer {s : ServerHandler} {p : Packet} {k : UInt32}
    (hp : p.player = some k) (hi : p.introduces = true) {j : UInt32} (hj : j ≠ k) :
    (s.receive p).state.mPlayers.lookup j = s.mPlayers.lookup j := by
  cases p with
  | playerData d =>
    obtain rfl := Option.some.inj hp
    exact PlayerTable.handlePlayerData_other hj
  | registerPlayer d => rfl
  | _ => simp [Packet.introduces] at hi

theorem ClientHandler.receive_newcomer {s : ClientHandler} {p : Packet} {k : UInt32}
    (hp : p.player = some k) (hi : p.introduces = true) {j : UInt32} (hj : j ≠ k) :
    (s.receive p).state.mPlayers.lookup j = s.mPlayers.lookup j := by
  cases p with
  | playerData d =>
    obtain rfl := Option.some.inj hp
    simp only [receive, ClientHandler.handlePlayerData]
    split_ifs
    · rfl
    · exact PlayerTable.handlePlayerData_other hj
  | registerPlayer d =>
    obtain rfl := Option.some.inj hp
    simp only [receive, handleRegisterPlayerPacket]
    split_ifs
    · rfl
    · exact AList.lookup_insert_ne hj
  | _ => simp [Packet.introduces] at hi

end Isolation

namespace Wire

def serverPacket (value : Single → ℚ) (m : List UInt8) : Option Packet :=
  (serverReads m).bind (Message.packet value)

def clientPacket (value : Single → ℚ) (m : List UInt8) : Option Packet :=
  (clientReads m).bind (Message.packet value)

/-- Both loops treat a message that has all its bytes as a function of these alone and go on after
each that does not throw; one that is too long, of unknown type or about a player that the node
does not know changes no player table, unless it is how the node comes to know that player. -/
theorem messages_isolated (value : Single → ℚ) :
    Isolates (ServerHandler.handleMessage value) serverSize (serverPacket value)
        ServerHandler.mPlayers ∧
      Isolates (ClientHandler.handleMessage value) clientSize (clientPacket value)
        ClientHandler.mPlayers := by
  constructor
  · apply isolates_of_reads (fun p s => s.receive p)
    · intro m s
      rw [ServerHandler.handleMessage, serverPacket]
      cases (serverReads m).bind (Message.packet value) <;> rfl
    · intro m hm rest
      rw [serverPacket, serverReads_append hm, serverPacket]
    · intro m hm
      rw [serverPacket, serverReads, hm]
      rfl
    · intro s p k hp hi hk
      exact ServerHandler.receive_stranger hp hi hk
    · intro s p k hp hi j hj
      exact ServerHandler.receive_newcomer hp hi hj
  · apply isolates_of_reads (fun p s => s.receive p)
    · intro m s
      rw [ClientHandler.handleMessage, clientPacket]
      cases (clientReads m).bind (Message.packet value) <;> rfl
    · intro m hm rest
      rw [clientPacket, clientReads_append hm, clientPacket]
    · intro m hm
      rw [clientPacket, clientReads, hm]
      rfl
    · intro s p k hp hi hk
      exact ClientHandler.receive_stranger hp hi hk
    · intro s p k hp hi j hj
      exact ClientHandler.receive_newcomer hp hi hj

def emptyBuffer : Buffer := ⟨List.replicate 256 0, List.length_replicate⟩

theorem unknownPlayer_enters :
    let server : ServerHandler := { ServerHandler.hosted with mGameState := .gameStarted }
    let message := (Message.playerData ⟨1, 7, ⟨⟨0⟩, ⟨0⟩, ⟨0⟩⟩, ⟨0⟩⟩).bytes (fun _ => 0)
    let handle := ServerHandler.handleMessage (fun _ => 0)
    7 ∉ server.mPlayers ∧
      7 ∈ ((Inbox.mk server emptyBuffer).receiveAll handle [message]).state.handler.mPlayers := by
  decide +kernel

end Wire

end SeminarTouhou
