import SeminarTouhou.Network.WANDiscovery

namespace SeminarTouhou

open Library

structure IPv4 where
  a : UInt8
  b : UInt8
  c : UInt8
  d : UInt8
deriving DecidableEq

namespace IPv4

def decimal (n : UInt8) : List Char := Nat.toDigits 10 n.toNat

def text (p : IPv4) : List Char :=
  decimal p.a ++ '.' :: (decimal p.b ++ '.' :: (decimal p.c ++ '.' :: decimal p.d))

def xor (p : IPv4) : UInt8 := p.a ^^^ p.b ^^^ p.c ^^^ p.d

end IPv4

namespace WANDiscovery

def removeRoomFromActiveRooms (roomID : List Char) : Option (List Char) :=
  if roomID = [] then none else some ("\x7b\"roomID\":\"".toList ++ roomID ++ "\"\x7d".toList)

variable (tryParse : List Char → Option UInt16)

def roomID (p : IPv4) : Option (Except Exn (List Char)) := generateRoomID tryParse p.text.length p.text

def removal (p : IPv4) : Option (Except Exn (Option (List Char))) :=
  (roomID tryParse p).map (fun r => r.map removeRoomFromActiveRooms)

def Identified (p q : IPv4) : Prop :=
  roomID tryParse p ≠ roomID tryParse q ∧ removal tryParse p ≠ removal tryParse q

/-- `ushort.TryParse` reads the decimal form of an octet, and nothing in the empty string. -/
structure ParsesOctets : Prop where
  empty : tryParse [] = none
  octet : ∀ n, tryParse (IPv4.decimal n) = some n.toUInt16

/-- Neither number is the other one with zeros behind it. -/
def DigitsApart (x y : ℕ) : Prop := ∀ k, x ≠ y * 10 ^ k ∧ y ≠ x * 10 ^ k

variable {tryParse} {p q : IPv4}

theorem dot_not_mem_decimal (n : UInt8) : '.' ∉ IPv4.decimal n := by
  intro h
  exact absurd (Nat.isDigit_of_mem_toDigits (by decide) (by decide) h) (by decide)

theorem splitOn_text (p : IPv4) : p.text.splitOn '.' =
    [IPv4.decimal p.a, IPv4.decimal p.b, IPv4.decimal p.c, IPv4.decimal p.d] := by
  rw [IPv4.text, List.splitOn_append_cons_self_of_not_mem (dot_not_mem_decimal p.a),
    List.splitOn_append_cons_self_of_not_mem (dot_not_mem_decimal p.b),
    List.splitOn_append_cons_self_of_not_mem (dot_not_mem_decimal p.c),
    List.splitOn_eq_singleton (dot_not_mem_decimal p.d)]

theorem ParsesOctets.xorAll (h : ParsesOctets tryParse) (p : IPv4) :
    xorAll (octets tryParse (p.text.splitOn '.')) = p.xor.toUInt16 := by
  rw [splitOn_text, octets_cons_some (h.octet p.a), octets_cons_some (h.octet p.b),
    octets_cons_some (h.octet p.c), octets_cons_some (h.octet p.d), WANDiscovery.xorAll]
  simp [octets, IPv4.xor]

theorem ParsesOctets.roomID_eq (h : ParsesOctets tryParse) (p : IPv4) :
    roomID tryParse p = some (.ok (padded 6 p.xor.toNat)) := by
  have hdot : '.' ∈ p.text := List.mem_append_right _ List.mem_cons_self
  rw [roomID, generateRoomID_eq h.empty hdot le_rfl, h.xorAll, UInt8.toNat_toUInt16]

theorem padded_octet_inj_iff (x y : UInt8) :
    padded 6 x.toNat = padded 6 y.toNat ↔ ¬ DigitsApart x.toNat y.toNat := by
  have hlength : ∀ n : UInt8, (Nat.toDigits 10 n.toNat).length ≤ 6 := by
    intro n
    rw [Nat.length_toDigits_le_iff (by decide) (by decide)]
    exact n.toNat_lt.trans (by decide)
  rw [padded_inj_iff (hlength x) (hlength y), DigitsApart]
  push Not
  exact exists_congr (fun k => by rw [← or_iff_not_imp_left])

theorem removeRoom_injective {s t : List Char}
    (h : removeRoomFromActiveRooms s = removeRoomFromActiveRooms t) : s = t := by
  rw [removeRoomFromActiveRooms, removeRoomFromActiveRooms] at h
  split_ifs at h with hs ht ht
  · rw [hs, ht]
  · exact List.append_cancel_left (List.append_cancel_right (Option.some.inj h))

/-- The id keeps the XOR of the octets only, and of that not the zeros at its end. -/
theorem identified_iff (h : ParsesOctets tryParse) (p q : IPv4) :
    Identified tryParse p q ↔ DigitsApart p.xor.toNat q.xor.toNat := by
  rw [← not_iff_not, ← padded_octet_inj_iff, Identified, removal, removal, h.roomID_eq, h.roomID_eq]
  constructor
  · intro hsame
    by_contra hne
    refine hsame ⟨fun heq => ?_, fun heq => ?_⟩
    · exact hne (Except.ok.inj (Option.some.inj heq))
    · exact hne (removeRoom_injective (Except.ok.inj (Option.some.inj heq)))
  · rintro heq ⟨hne, -⟩
    exact hne (by rw [heq])

theorem parseDecimal_octets : ParsesOctets parseDecimal := by
  refine ⟨by decide, fun n => ?_⟩
  have hall : (IPv4.decimal n).all Char.isDigit :=
    List.all_eq_true.mpr (fun c hc => Nat.isDigit_of_mem_toDigits (by decide) (by decide) hc)
  have hvalue : Nat.ofDigitChars 10 (IPv4.decimal n) 0 = n.toNat := Nat.ofDigitChars_ten_toDigits
  have hlt : n.toNat < 65536 := n.toNat_lt.trans (by decide)
  rw [parseDecimal, hvalue, if_pos ⟨Nat.toDigits_ne_nil, hall, hlt⟩, ← UInt8.toNat_toUInt16,
    UInt16.ofNat_toNat]

theorem identified_home : Identified parseDecimal ⟨192, 168, 0, 2⟩ ⟨192, 168, 0, 3⟩ ↔
    DigitsApart (IPv4.xor ⟨192, 168, 0, 2⟩).toNat (IPv4.xor ⟨192, 168, 0, 3⟩).toNat :=
  identified_iff parseDecimal_octets _ _

theorem swappedOctets_sameID : ¬ ∀ p q : IPv4, p ≠ q → Identified parseDecimal p q := by
  intro h
  refine (h ⟨192, 168, 0, 1⟩ ⟨192, 168, 1, 0⟩ (by decide)).1 ?_
  rw [parseDecimal_octets.roomID_eq, parseDecimal_octets.roomID_eq]
  rfl

end WANDiscovery

end SeminarTouhou
