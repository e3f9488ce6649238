import SeminarTouhou.Library.Decimal
import SeminarTouhou.Engine.GameObject

namespace SeminarTouhou

open Library

namespace WANDiscovery

/-- `IndexOf`, which answers -1 when the character is missing. -/
def indexOf (c : Char) (s : List Char) : ℤ := if c ∈ s then s.idxOf c else -1

def substring (s : List Char) (start length : ℤ) : Except Exn (List Char) :=
  if 0 ≤ start ∧ 0 ≤ length ∧ start + length ≤ s.length then
    .ok ((s.drop start.toNat).take length.toNat)
  else .error .argumentOutOfRange

def substringFrom (s : List Char) (start : ℤ) : Except Exn (List Char) :=
  substring s start (s.length - start)

/-- The `for` loop at the end, which runs `n` times. -/
def padZeros : ℕ → List Char → List Char
  | 0, s => s
  | n + 1, s => padZeros n (s ++ ['0'])

variable (tryParse : List Char → Option UInt16)

def generateLoop (ipForRoom : List Char) : ℕ → ℤ → ℤ → UInt16 → Option (Except Exn UInt16)
  | 0, _, _, _ => none
  | fuel + 1, ipIndex, ipSegmentLength, encodedOctet =>
    match substring ipForRoom ipIndex ipSegmentLength with
    | .error e => some (.error e)
    | .ok segment =>
      match tryParse segment with
      | none => some (.ok encodedOctet)
      | some currOctet =>
        let encodedOctet := encodedOctet ^^^ currOctet
        let ipIndex := ipIndex + ipSegmentLength + 1
        if ipForRoom.length ≤ ipIndex then some (.ok encodedOctet)
        else
          match substringFrom ipForRoom ipIndex with
          | .error e => some (.error e)
          | .ok rest =>
            let ipSegmentLength := indexOf '.' rest
            generateLoop ipForRoom fuel ipIndex
              (if ipSegmentLength = -1 then ipForRoom.length - ipIndex else ipSegmentLength) encodedOctet

/-- `GenerateRoomID`, where `none` says that the fuel was used up. -/
def generateRoomID (fuel : ℕ) (ipForRoom : List Char) : Option (Except Exn (List Char)) :=
  (generateLoop tryParse ipForRoom fuel 0 (indexOf '.' ipForRoom) 0).map fun r =>
    r.map fun encodedOctet =>
      let encodedString := Nat.toDigits 10 encodedOctet.toNat
      padZeros (6 - encodedString.length) encodedString

/-- The values of the segments up to the first one that does not parse. -/
def octets (segments : List (List Char)) : List UInt16 :=
  (segments.takeWhile (fun s => (tryParse s).isSome)).filterMap tryParse

def xorAll (octets : List UInt16) : UInt16 := octets.foldl (· ^^^ ·) 0

/-- What the id is for: the octets of the address, put together by XOR, as six digits. -/
def IsRoomID (ipForRoom id : List Char) : Prop :=
  id.length = 6 ∧ ∃ n, id =
    Nat.toDigits 10 (xorAll (octets tryParse (ipForRoom.splitOn '.'))).toNat ++ List.replicate n '0'

variable {tryParse} {s : List Char}

theorem padZeros_eq (n : ℕ) (s : List Char) : padZeros n s = s ++ List.replicate n '0' := by
  induction n generalizing s with
  | zero => exact (List.append_nil s).symm
  | succ n ih => rw [padZeros, ih, List.append_assoc, List.singleton_append, ← List.replicate_succ]

theorem substring_middle (done segment rest : List Char) :
    substring (done ++ (segment ++ rest)) done.length segment.length = .ok segment := by
  rw [substring, if_pos, Int.toNat_natCast, Int.toNat_natCast, List.drop_left, List.take_left]
  rw [List.length_append, List.length_append]
  omega

theorem length_behind (done rest : List Char) :
    ((done ++ rest).length : ℤ) - done.length = rest.length := by
  rw [List.length_append]
  omega

theorem substringFrom_right (done rest : List Char) :
    substringFrom (done ++ rest) done.length = .ok rest := by
  have hmiddle := substring_middle done rest []
  rw [List.append_nil] at hmiddle
  rw [substringFrom, length_behind, hmiddle]

theorem indexOf_left {segment : List Char} (h : '.' ∉ segment) (rest : List Char) :
    indexOf '.' (segment ++ '.' :: rest) = segment.length := by
  rw [indexOf, if_pos (List.mem_append_right _ List.mem_cons_self), List.idxOf_append_of_notMem h,
    List.idxOf_cons_self, Nat.add_zero]

theorem octets_cons_none {segment : List Char} (h : tryParse segment = none)
    (segments : List (List Char)) : octets tryParse (segment :: segments) = [] := by
  rw [octets, List.takeWhile_cons_of_neg (by simp [h])]
  rfl

theorem octets_cons_some {segment : List Char} {v : UInt16} (h : tryParse segment = some v)
    (segments : List (List Char)) :
    octets tryParse (segment :: segments) = v :: octets tryParse segments := by
  rw [octets, List.takeWhile_cons_of_pos (by simp [h]), List.filterMap_cons_some h]
  rfl

def segmentLength (rest : List Char) : ℤ := if indexOf '.' rest = -1 then rest.length else indexOf '.' rest

theorem segmentLength_last {rest : List Char} (h : '.' ∉ rest) : segmentLength rest = rest.length := by
  rw [segmentLength, indexOf, if_neg h, if_pos rfl]

theorem segmentLength_left {segment : List Char} (h : '.' ∉ segment) (rest : List Char) :
    segmentLength (segment ++ '.' :: rest) = segment.length := by
  rw [segmentLength, indexOf_left h, if_neg (by omega)]

theorem generateLoop_next {segment : List Char} {v : UInt16} (hv : tryParse segment = some v)
    {rest : List Char} (hrest : rest ≠ []) (done : List Char) (fuel : ℕ) (enc : UInt16) :
    generateLoop tryParse (done ++ (segment ++ '.' :: rest)) (fuel + 1) done.length segment.length enc =
      generateLoop tryParse ((done ++ (segment ++ ['.'])) ++ rest) fuel
        (done ++ (segment ++ ['.'])).length (segmentLength rest) (enc ^^^ v) := by
  have hip : done ++ (segment ++ '.' :: rest) = (done ++ (segment ++ ['.'])) ++ rest := by simp
  have hindex : (done.length : ℤ) + segment.length + 1 = (done ++ (segment ++ ['.'])).length := by
    simp only [List.length_append, List.length_singleton]
    omega
  have hmore : ¬ (((done ++ (segment ++ ['.'])) ++ rest).length : ℤ) ≤
      (done ++ (segment ++ ['.'])).length := by
    have hpos := List.length_pos_of_ne_nil hrest
    have hbehind := length_behind (done ++ (segment ++ ['.'])) rest
    omega
  rw [generateLoop, substring_middle]
  dsimp only
  rw [hv, hip]
  dsimp only
  rw [hindex, if_neg hmore, substringFrom_right]
  dsimp only
  rw [length_behind, segmentLength]

theorem generateLoop_stop {segment : List Char} (hv : tryParse segment = none) (done rest : List Char)
    (fuel : ℕ) (enc : UInt16) :
    generateLoop tryParse (done ++ (segment ++ rest)) (fuel + 1) done.length segment.length enc =
      some (.ok enc) := by
  rw [generateLoop, substring_middle]
  dsimp only
  rw [hv]

theorem generateLoop_end {segment : List Char} {v : UInt16} (hv : tryParse segment = some v)
    {rest : List Char} (hrest : rest.length ≤ 1) (done : List Char) (fuel : ℕ) (enc : UInt16) :
    generateLoop tryParse (done ++ (segment ++ rest)) (fuel + 1) done.length segment.length enc =
      some (.ok (enc ^^^ v)) := by
  rw [generateLoop, substring_middle]
  dsimp only
  rw [hv]
  refine if_pos ?_
  rw [List.length_append, List.length_append]
  omega

/-- Each turn takes a segment and its dot off what is left, so the fuel is enough. -/
theorem generateLoop_eq (hempty : tryParse [] = none) {fuel : ℕ} {rest : List Char} (hrest : rest ≠ [])
    (hfuel : rest.length ≤ fuel) (done : List Char) (enc : UInt16) :
    generateLoop tryParse (done ++ rest) fuel done.length (segmentLength rest) enc =
      some (.ok ((octets tryParse (rest.splitOn '.')).foldl (· ^^^ ·) enc)) := by
  induction fuel generalizing rest done enc with
  | zero => exact absurd (List.length_eq_zero_iff.mp (Nat.le_zero.mp hfuel)) hrest
  | succ fuel ih =>
    by_cases hdot : '.' ∈ rest
    · obtain ⟨segment, rest, rfl, hsegment⟩ := List.eq_append_cons_of_mem hdot
      rw [segmentLength_left hsegment, List.splitOn_append_cons_self_of_not_mem hsegment]
      cases hv : tryParse segment with
      | none => rw [generateLoop_stop hv, octets_cons_none hv, List.foldl_nil]
      | some v =>
        rw [octets_cons_some hv, List.foldl_cons]
        by_cases hlast : rest = []
        · rw [generateLoop_end hv (by simp [hlast]), hlast, List.splitOn_nil, octets_cons_none hempty,
            List.foldl_nil]
        · rw [generateLoop_next hv hlast]
          refine ih hlast ?_ _ _
          rw [List.length_append, List.length_cons] at hfuel
          omega
    · rw [segmentLength_last hdot, List.splitOn_eq_singleton hdot]
      nth_rewrite 1 [← List.append_nil rest]
      cases hv : tryParse rest with
      | none => rw [generateLoop_stop hv, octets_cons_none hv, List.foldl_nil]
      | some v =>
        rw [generateLoop_end hv (by simp), octets_cons_some hv, List.foldl_cons]
        rfl

theorem decimal_length_le (n : UInt16) : (Nat.toDigits 10 n.toNat).length ≤ 6 := by
  rw [Nat.length_toDigits_le_iff (by decide) (by decide)]
  exact n.toNat_lt.trans (by decide)

theorem generateRoomID_eq (hempty : tryParse [] = none) {ip : List Char} (hdot : '.' ∈ ip) {fuel : ℕ}
    (hfuel : ip.length ≤ fuel) :
    generateRoomID tryParse fuel ip =
      some (.ok (padded 6 (xorAll (octets tryParse (ip.splitOn '.'))).toNat)) := by
  have hlength : indexOf '.' ip = segmentLength ip := by
    rw [segmentLength, indexOf, if_pos hdot, if_neg (by omega)]
  have hloop := generateLoop_eq hempty (List.ne_nil_of_mem hdot) hfuel [] 0
  rw [List.nil_append, List.length_nil, Nat.cast_zero] at hloop
  rw [generateRoomID, hlength, hloop, padded, ← padZeros_eq]
  rfl

theorem generateRoomID_spec (hempty : tryParse [] = none) {ip : List Char} (hdot : '.' ∈ ip) {fuel : ℕ}
    (hfuel : ip.length ≤ fuel) :
    ∃ id, generateRoomID tryParse fuel ip = some (.ok id) ∧ IsRoomID tryParse ip id := by
  exact ⟨_, generateRoomID_eq hempty hdot hfuel, padded_length (decimal_length_le _), _, rfl⟩

/-- What `ushort.TryParse` does with digits, which is all that an address has between its dots. -/
def parseDecimal (s : List Char) : Option UInt16 :=
  if s ≠ [] ∧ s.all Char.isDigit ∧ Nat.ofDigitChars 10 s 0 < 65536 then
    some (.ofNat (Nat.ofDigitChars 10 s 0))
  else none

theorem generateRoomID_home : ∃ id, generateRoomID parseDecimal 11 "192.168.0.7".toList = some (.ok id) ∧
    IsRoomID parseDecimal "192.168.0.7".toList id :=
  generateRoomID_spec (by decide) (by decide) (by decide)

end WANDiscovery

end SeminarTouhou
