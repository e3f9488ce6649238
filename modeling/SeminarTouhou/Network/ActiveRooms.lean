import SeminarTouhou.Library.Json
import SeminarTouhou.Network.RoomIDs

namespace SeminarTouhou

open Library

/-- What `NameInput` sets, `PlayerInfo.PlayerName` with it. -/
structure NameInput where
  playerName : List Char
  joinOptions : Bool
  nameText : Bool
  nameButton : Bool

def NameInput.submit (name : List Char) (s : NameInput) : NameInput :=
  { s with joinOptions := true, playerName := name, nameText := false, nameButton := false }

namespace WANDiscovery

def addRoomToActiveRooms (roomID roomName ip : List Char) : List Char :=
  "\x7b\"roomName\":\"".toList ++ roomName ++ "\", \"roomID\":\"".toList ++ roomID ++
    "\", \"roomIP\":\"".toList ++ ip ++ "\"\x7d".toList

def registerRoom (tryParse : List Char → Option UInt16) (s : NameInput) (p : IPv4) :
    Option (Except Exn (List Char)) :=
  (roomID tryParse p).map (fun r => r.map (fun id => addRoomToActiveRooms id s.playerName p.text))

/-- The body is an object with the three fields and nothing else. -/
def Faithful (roomID roomName ip body : List Char) : Prop :=
  ∃ members, Json.parse body = some (.object members) ∧
    members.Perm [("roomName".toList, .string roomName), ("roomID".toList, .string roomID),
      ("roomIP".toList, .string ip)]

theorem faithful_plain_iff (roomID roomName ip : List Char) :
    Faithful roomID roomName ip (addRoomToActiveRooms roomID roomName ip) ↔
      Json.Plain roomName ∧ Json.Plain roomID ∧ Json.Plain ip := by
  have hbody : addRoomToActiveRooms roomID roomName ip = Json.printObject ("roomName".toList, roomName)
      [("roomID".toList, roomID), ("roomIP".toList, ip)] := by
    delta addRoomToActiveRooms
    simp [Json.printObject, Json.printMembers, Json.printBehind]
  have hparse := Json.parse_printObject_iff ("roomName".toList, roomName)
    [("roomID".toList, roomID), ("roomIP".toList, ip)] ?_ ?_
  · rw [hbody]
    refine hparse.trans ?_
    simp
  · simp only [List.forall_mem_cons, String.reduceToList]
    decide
  · simp only [List.map_cons, List.map_nil, String.reduceToList]
    decide

/-- Nothing on the way from the name field to the request escapes the name. -/
theorem body_faithful_iff (s : NameInput) (name roomID ip : List Char) :
    Faithful roomID name ip (addRoomToActiveRooms roomID (s.submit name).playerName ip) ↔
      Json.Plain name ∧ Json.Plain roomID ∧ Json.Plain ip :=
  faithful_plain_iff roomID name ip

theorem quoteInName_unfaithful : ¬ ∀ (s : NameInput) (name roomID ip : List Char),
    Faithful roomID name ip (addRoomToActiveRooms roomID (s.submit name).playerName ip) := by
  intro h
  obtain ⟨members, hparse, -⟩ := h ⟨[], false, true, true⟩ "\"".toList "105000".toList "10.0.0.1".toList
  have hnone : (Json.parse (addRoomToActiveRooms "105000".toList "\"".toList "10.0.0.1".toList)).isNone := by
    decide +kernel
  exact Bool.false_ne_true ((congrArg Option.isNone hparse).symm.trans hnone)

theorem plain_decimal (n : UInt8) : Json.Plain (IPv4.decimal n) :=
  Json.plain_of_isDigit (fun _ hc => Nat.isDigit_of_mem_toDigits (by decide) (by decide) hc)

theorem plain_text (p : IPv4) : Json.Plain p.text := by
  have hdot : '.' ≠ '"' ∧ '.' ≠ '\\' ∧ 32 ≤ '.'.toNat := by decide
  have hbehind : ∀ n s, Json.Plain s → Json.Plain (IPv4.decimal n ++ '.' :: s) := fun n s hs =>
    Json.plain_append.mpr ⟨plain_decimal n, Json.plain_cons.mpr ⟨hdot, hs⟩⟩
  exact hbehind _ _ (hbehind _ _ (hbehind _ _ (plain_decimal p.d)))

theorem plain_padded (width n : ℕ) : Json.Plain (padded width n) := by
  refine Json.plain_of_isDigit fun c hc => ?_
  obtain hc | hc := List.mem_append.mp hc
  · exact Nat.isDigit_of_mem_toDigits (by decide) (by decide) hc
  · rw [List.eq_of_mem_replicate hc]
    rfl

theorem registerRoom_faithful_iff {tryParse : List Char → Option UInt16} (h : ParsesOctets tryParse)
    (s : NameInput) (p : IPv4) : ∃ id body, roomID tryParse p = some (.ok id) ∧
      registerRoom tryParse s p = some (.ok body) ∧
      (Faithful id s.playerName p.text body ↔ Json.Plain s.playerName) := by
  refine ⟨_, _, h.roomID_eq p, by rw [registerRoom, h.roomID_eq]; rfl, ?_⟩
  rw [faithful_plain_iff]
  exact and_iff_left ⟨plain_padded 6 _, plain_text p⟩

end WANDiscovery

end SeminarTouhou
