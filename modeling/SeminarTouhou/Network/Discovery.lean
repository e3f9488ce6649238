import SeminarTouhou.Library.Layout
import SeminarTouhou.Library.Ranking
import SeminarTouhou.Network.ReceiveLoop

namespace SeminarTouhou

open Library

/-- `LAN_DiscoveryClient` and `JoinRoomUIHandler` in the scene where rooms are searched. `receiving`
says that a `BeginReceive` is pending; of a `JoinIPData` only the name is kept. -/
structure JoinRoom where
  isReciving : Bool
  receiving : Bool
  mRoomsToAddToUI : List (Option String × Option String)
  mJoinableIPs : Dict String (Option String)
  rows : List (String × Option String)

namespace JoinRoom

/-- `IPData`: two texts of 50 bytes. -/
def ipData : Layout := [.text 50, .text 50]

abbrev Result := Outcome JoinRoom Empty (Option String × Option String)

def start : JoinRoom := ⟨true, true, [], ∅, []⟩

/-- `PtrToStructure`, where `ansi` turns the bytes before the first zero into a string. -/
def readData (ansi : List UInt8 → String) (bytes : List UInt8) : String × String :=
  let v := ipData.decode bytes
  (ansi v.1, ansi v.2.1)

def addIP (ip connectionName : Option String) (s : JoinRoom) : JoinRoom :=
  { s with mRoomsToAddToUI := s.mRoomsToAddToUI ++ [(ip, connectionName)] }

/-- The `finally` block, which runs on both ways. -/
def announce (ip name : Option String) (s : JoinRoom) : Result :=
  if s.isReciving then .raises { s.addIP ip name with receiving := true } [(ip, name)] else .returns s

/-- `Marshal.Copy` takes the size of the struct from the datagram, and throws when it is shorter; then
the strings of `newIPData` are still null. -/
def recieveServerInfo (ansi : List UInt8 → String) (bytes : List UInt8) (s : JoinRoom) : Result :=
  let s := { s with receiving := false }
  if ipData.size ≤ bytes.length then
    let data := readData ansi bytes
    s.announce (some data.1) (some data.2)
  else { s.announce none none with thrown := some .argumentOutOfRange }

def addRow (ip : String) (name : Option String) (s : JoinRoom) : JoinRoom :=
  { s with mJoinableIPs := s.mJoinableIPs.insert ip name, rows := s.rows ++ [(ip, name)] }

/-- The loop of `Update`. A dictionary throws when it is asked for a null key. -/
def updateLoop : List (Option String × Option String) → JoinRoom → Result
  | [], s => .returns { s with mRoomsToAddToUI := [] }
  | (none, _) :: rest, s => .throws { s with mRoomsToAddToUI := rest } .argument
  | (some ip, name) :: rest, s =>
    if ip ∈ s.mJoinableIPs then updateLoop rest s else updateLoop rest (s.addRow ip name)

def update (s : JoinRoom) : Result := updateLoop s.mRoomsToAddToUI s

end JoinRoom

structure RoomSearch where
  room : JoinRoom
  received : List (List UInt8)

inductive RoomAction
  | datagram (bytes : List UInt8)
  | update
deriving DecidableEq

namespace RoomSearch

open JoinRoom

variable (ansi : List UInt8 → String)

def start : RoomSearch := ⟨.start, []⟩

def act (s : JoinRoom) : RoomAction → JoinRoom.Result
  | .datagram bytes => s.recieveServerInfo ansi bytes
  | .update => s.update

def next (s : RoomSearch) (a : RoomAction) : RoomSearch where
  room := (act ansi s.room a).state
  received :=
    match a with
    | .datagram bytes => s.received ++ [bytes]
    | .update => s.received

def Enabled (s : RoomSearch) : RoomAction → Prop
  | .datagram _ => s.room.receiving = true
  | .update => True

instance (s : RoomSearch) (a : RoomAction) : Decidable (s.Enabled a) := by
  cases a <;> dsimp only [Enabled] <;> infer_instance

def system : System RoomSearch RoomAction := ⟨Enabled, next ansi⟩

instance (s : RoomSearch) (a : RoomAction) : Decidable ((system ansi).enabled s a) :=
  inferInstanceAs (Decidable (s.Enabled a))

def WellFormed (bytes : List UInt8) : Prop := ipData.size ≤ bytes.length

instance : DecidablePred WellFormed := fun bytes =>
  inferInstanceAs (Decidable (ipData.size ≤ bytes.length))

def row (bytes : List UInt8) : String × Option String :=
  ((readData ansi bytes).1, some (readData ansi bytes).2)

def announced (received : List (List UInt8)) : List (String × Option String) :=
  (received.filter WellFormed).map (row ansi)

/-- A malformed datagram raises no event, the next one can be received, and `Update` shows one row for
each ip, with the name that came with it first. -/
def ShowsRooms (s : RoomSearch) (a : RoomAction) : Prop :=
  match a with
  | .datagram bytes =>
    (act ansi s.room a).raised =
        (if WellFormed bytes then [(some (row ansi bytes).1, (row ansi bytes).2)] else []) ∧
      (act ansi s.room a).state.receiving = true
  | .update =>
    (act ansi s.room a).thrown = none ∧
      (act ansi s.room a).state.rows = firsts Prod.fst (announced ansi s.received)

def GetsWellFormed (_ : RoomSearch) : RoomAction → Prop
  | .datagram bytes => WellFormed bytes
  | .update => True

instance (s : RoomSearch) (a : RoomAction) : Decidable (s.GetsWellFormed a) := by
  cases a <;> dsimp only [GetsWellFormed] <;> infer_instance

end RoomSearch

namespace JoinRoom

structure Lists (done : List (String × Option String)) (s : JoinRoom) : Prop where
  rows : s.rows = firsts Prod.fst done
  keys : ∀ ip, ip ∈ s.mJoinableIPs ↔ ip ∈ done.map Prod.fst

variable {s : JoinRoom} {done : List (String × Option String)}

theorem Lists.known (h : s.Lists done) {r : String × Option String} (hk : r.1 ∈ s.mJoinableIPs) :
    s.Lists (done ++ [r]) := by
  have hmem := (h.keys r.1).mp hk
  refine ⟨?_, ?_⟩
  · rw [firsts_concat, if_pos hmem]
    exact h.rows
  · intro ip
    rw [h.keys, List.map_append, List.mem_append]
    constructor
    · exact Or.inl
    · rintro (hip | hip)
      · exact hip
      · rwa [List.mem_singleton.mp hip]

theorem Lists.addRow (h : s.Lists done) {r : String × Option String} (hk : r.1 ∉ s.mJoinableIPs) :
    (s.addRow r.1 r.2).Lists (done ++ [r]) := by
  have hmem := fun hr => hk ((h.keys r.1).mpr hr)
  refine ⟨?_, ?_⟩
  · rw [firsts_concat, if_neg hmem, ← h.rows]
    rfl
  · intro ip
    rw [JoinRoom.addRow, AList.mem_insert, h.keys, List.map_append, List.mem_append, or_comm]
    simp

theorem updateLoop_lists (h : s.Lists done) (waiting : List (String × Option String)) :
    let o := updateLoop (waiting.map (fun r => (some r.1, r.2))) s
    o.thrown = none ∧ o.state.Lists (done ++ waiting) ∧ o.state.mRoomsToAddToUI = [] ∧
      o.state.isReciving = s.isReciving ∧ o.state.receiving = s.receiving := by
  induction waiting generalizing done s with
  | nil =>
    rw [List.append_nil]
    exact ⟨rfl, ⟨h.rows, h.keys⟩, rfl, rfl, rfl⟩
  | cons r waiting ih =>
    rw [List.map_cons, updateLoop, ← List.singleton_append, ← List.append_assoc]
    split_ifs with hk
    · exact ih (h.known hk)
    · exact ih (h.addRow hk)

end JoinRoom

namespace RoomSearch

open JoinRoom

variable {ansi : List UInt8 → String} {s : RoomSearch} {a : RoomAction}

/-- `done` is what `Update` has taken out of the queue. -/
structure Listens (ansi : List UInt8 → String) (s : RoomSearch) : Prop where
  isReciving : s.room.isReciving = true
  receiving : s.room.receiving = true
  queue : ∃ done waiting, announced ansi s.received = done ++ waiting ∧
    s.room.mRoomsToAddToUI = waiting.map (fun r => (some r.1, r.2)) ∧ s.room.Lists done

theorem announced_concat {bytes : List UInt8} (h : WellFormed bytes) (received : List (List UInt8)) :
    announced ansi (received ++ [bytes]) = announced ansi received ++ [row ansi bytes] := by
  rw [announced, List.filter_append, List.filter_singleton, decide_eq_true h, List.map_append]
  rfl

theorem recieve_eq (ansi : List UInt8 → String) {room : JoinRoom} {bytes : List UInt8} (h : WellFormed bytes)
    (hr : room.isReciving = true) : room.recieveServerInfo ansi bytes =
      .raises { room with
        mRoomsToAddToUI := room.mRoomsToAddToUI ++ [(some (row ansi bytes).1, (row ansi bytes).2)]
        receiving := true } [(some (row ansi bytes).1, (row ansi bytes).2)] := by
  have hsize : ipData.size ≤ bytes.length := h
  rw [recieveServerInfo, if_pos hsize]
  exact if_pos hr

theorem recieve_malformed {room : JoinRoom} {bytes : List UInt8} (h : ¬ WellFormed bytes)
    (hr : room.isReciving = true) : (room.recieveServerInfo ansi bytes).raised = [(none, none)] := by
  have hsize : ¬ ipData.size ≤ bytes.length := h
  rw [recieveServerInfo, if_neg hsize]
  exact congrArg Outcome.raised (if_pos hr)

theorem Listens.update (h : s.Listens ansi) :
    s.room.update.thrown = none ∧ s.room.update.state.mRoomsToAddToUI = [] ∧
      s.room.update.state.isReciving = true ∧ s.room.update.state.receiving = true ∧
      s.room.update.state.Lists (announced ansi s.received) := by
  obtain ⟨done, waiting, hsplit, hqueue, hlists⟩ := h.queue
  obtain ⟨hthrown, hdone, hempty, hreciving, hreceiving⟩ := updateLoop_lists hlists waiting
  rw [JoinRoom.update, hqueue, hsplit]
  exact ⟨hthrown, hempty, hreciving.trans h.isReciving, hreceiving.trans h.receiving, hdone⟩

theorem Listens.next (h : s.Listens ansi) (ho : s.GetsWellFormed a) : (s.next ansi a).Listens ansi := by
  cases a with
  | datagram bytes =>
    obtain ⟨done, waiting, hsplit, hqueue, hlists⟩ := h.queue
    have hroom := congrArg Outcome.state (recieve_eq ansi ho h.isReciving)
    refine ⟨?_, ?_, done, waiting ++ [row ansi bytes], ?_, ?_, ?_⟩
    · exact (congrArg JoinRoom.isReciving hroom).trans h.isReciving
    · exact congrArg JoinRoom.receiving hroom
    · rw [← List.append_assoc, ← hsplit]
      exact announced_concat ho s.received
    · rw [List.map_append, ← hqueue]
      exact congrArg JoinRoom.mRoomsToAddToUI hroom
    · exact ⟨(congrArg JoinRoom.rows hroom).trans hlists.rows,
        fun ip => (congrArg (ip ∈ JoinRoom.mJoinableIPs ·) hroom).to_iff.trans (hlists.keys ip)⟩
  | update =>
    obtain ⟨-, hempty, hreciving, hreceiving, hlists⟩ := h.update
    exact ⟨hreciving, hreceiving, _, [], (List.append_nil _).symm, hempty, hlists⟩

theorem Listens.showsRooms_iff (h : s.Listens ansi) : s.ShowsRooms ansi a ↔ s.GetsWellFormed a := by
  cases a with
  | datagram bytes =>
    rw [ShowsRooms, GetsWellFormed, act]
    by_cases hw : WellFormed bytes
    · rw [recieve_eq ansi hw h.isReciving, if_pos hw]
      exact iff_of_true ⟨rfl, rfl⟩ hw
    · rw [recieve_malformed hw h.isReciving, if_neg hw]
      exact iff_of_false (by simp) hw
  | update =>
    obtain ⟨hthrown, -, -, -, hlists⟩ := h.update
    exact iff_of_true ⟨hthrown, hlists.rows⟩ trivial

/-- The event is raised in a `finally` block, also when the datagram could not be read. -/
theorem shows_rooms_iff {as : List RoomAction} (hl : (system ansi).Legal start as) :
    (system ansi).Meets (ShowsRooms ansi) start as ↔ (system ansi).Meets GetsWellFormed start as := by
  have hstart : start.Listens ansi :=
    ⟨rfl, rfl, [], [], rfl, rfl, rfl, fun ip => by simp [start, JoinRoom.start]⟩
  exact System.meets_iff (fun _ _ h _ ho => h.next ho) (fun _ _ h _ => h.showsRooms_iff) hstart hl

/-- "10.0.0.1" and "Ada", each followed by zeros up to its 50 bytes. -/
def ada : List UInt8 :=
  [49, 48, 46, 48, 46, 48, 46, 49] ++ .replicate 42 0 ++ ([65, 100, 97] ++ .replicate 47 0)

theorem shows_rooms_sameHost :
    let as := [.datagram ada, .datagram ada, .update]
    (system Wire.nameOf).Meets (ShowsRooms Wire.nameOf) start as ↔
      (system Wire.nameOf).Meets GetsWellFormed start as :=
  shows_rooms_iff (by decide +kernel)

theorem shortDatagram_raises : ¬ ∀ as, (system Wire.nameOf).Legal start as →
    (system Wire.nameOf).Meets (ShowsRooms Wire.nameOf) start as := by
  intro h
  have hshows := h [.datagram [0]] (by decide +kernel)
  obtain ⟨⟨hraised, -⟩, -⟩ := ((system Wire.nameOf).meets_cons _ _ (.datagram [0]) []).mp hshows
  exact absurd hraised (by decide +kernel)

end RoomSearch

end SeminarTouhou
