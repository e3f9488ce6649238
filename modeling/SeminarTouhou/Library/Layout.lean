import Mathlib

namespace Library

def littleEndian (w : UInt32) : List UInt8 :=
  [w.toUInt8, (w >>> 8).toUInt8, (w >>> 16).toUInt8, (w >>> 24).toUInt8]

def wordOf (bytes : List UInt8) : UInt32 := .ofNat (Nat.ofDigits 256 (bytes.map UInt8.toNat))

theorem wordOf_littleEndian (w : UInt32) : wordOf (littleEndian w) = w := by
  apply UInt32.toNat_inj.mp
  have hw := w.toNat_lt
  simp only [wordOf, littleEndian, List.map_cons, List.map_nil, Nat.ofDigits_cons,
    Nat.ofDigits_nil, UInt32.toNat_ofNat', UInt32.toNat_toUInt8, UInt32.toNat_shiftRight,
    UInt32.reduceToNat, Nat.reduceMod, Nat.shiftRight_eq_div_pow, Nat.reducePow]
  omega

inductive Field
  | word
  | text (size : ℕ)
deriving DecidableEq

namespace Field

def size : Field → ℕ
  | word => 4
  | text n => n

def alignment : Field → ℕ
  | word => 4
  | text _ => 1

abbrev Value : Field → Type
  | word => UInt32
  | text _ => List UInt8

/-- A text is followed by at least one zero, for which it may be cut. -/
def encode : (f : Field) → f.Value → List UInt8
  | word, w => littleEndian w
  | text n, s => s.take (n - 1) ++ List.replicate (n - (s.take (n - 1)).length) 0

def decode : (f : Field) → List UInt8 → f.Value
  | word, bytes => wordOf (bytes.take 4)
  | text n, bytes => (bytes.take n).takeWhile (fun b => b ≠ 0)

/-- What is left of a value that went through `encode` and `decode`. -/
def cut : (f : Field) → f.Value → f.Value
  | word, w => w
  | text n, s => (s.take (n - 1)).takeWhile (fun b => b ≠ 0)

theorem length_encode (f : Field) (v : f.Value) : (f.encode v).length = f.size := by
  cases f with
  | word => rfl
  | text n =>
    simp only [encode, size, List.length_append, List.length_replicate, List.length_take]
    omega

theorem decode_append {f : Field} {bytes : List UInt8} (h : f.size ≤ bytes.length)
    (rest : List UInt8) : f.decode (bytes ++ rest) = f.decode bytes := by
  cases f with
  | word =>
    have htake : (bytes ++ rest).take 4 = bytes.take 4 := List.take_append_of_le_length h
    simp only [decode, htake]
  | text n =>
    have htake : (bytes ++ rest).take n = bytes.take n := List.take_append_of_le_length h
    simp only [decode, htake]

theorem takeWhile_append_replicate (s : List UInt8) (n : ℕ) :
    (s ++ List.replicate n 0).takeWhile (fun b => b ≠ 0) = s.takeWhile (fun b => b ≠ 0) := by
  induction s with
  | nil => cases n <;> simp [List.replicate_succ]
  | cons b s ih =>
    by_cases hb : b = 0
    · simp [hb]
    · simpa [List.takeWhile_cons, hb] using ih

theorem decode_encode (f : Field) (v : f.Value) (rest : List UInt8) :
    f.decode (f.encode v ++ rest) = f.cut v := by
  rw [decode_append (length_encode f v).ge]
  cases f with
  | word => exact wordOf_littleEndian v
  | text n =>
    have hl : (encode (text n) v).length ≤ n := (length_encode (text n) v).le
    simp only [decode, cut]
    rw [List.take_of_length_le hl]
    exact takeWhile_append_replicate _ _

end Field

/-- A structure whose fields follow one another, each aligned to its own size. -/
abbrev Layout := List Field

namespace Layout

abbrev Values : Layout → Type
  | [] => Unit
  | f :: fs => f.Value × Values fs

def gap (offset alignment : ℕ) : ℕ := (alignment - offset % alignment) % alignment

def alignment (fs : Layout) : ℕ := fs.foldr (fun f n => max f.alignment n) 1

def endOffset : Layout → ℕ → ℕ
  | [], offset => offset
  | f :: fs, offset => endOffset fs (offset + gap offset f.alignment + f.size)

def size (fs : Layout) : ℕ := fs.endOffset 0 + gap (fs.endOffset 0) fs.alignment

def padding (pad : ℕ → UInt8) (offset n : ℕ) : List UInt8 :=
  (List.range n).map (fun i => pad (offset + i))

def encodeFrom (pad : ℕ → UInt8) : (fs : Layout) → ℕ → fs.Values → List UInt8
  | [], _, _ => []
  | f :: fs, offset, v =>
    padding pad offset (gap offset f.alignment) ++ (f.encode v.1 ++
      encodeFrom pad fs (offset + gap offset f.alignment + f.size) v.2)

def encode (pad : ℕ → UInt8) (fs : Layout) (v : fs.Values) : List UInt8 :=
  encodeFrom pad fs 0 v ++ padding pad (fs.endOffset 0) (gap (fs.endOffset 0) fs.alignment)

def decodeFrom : (fs : Layout) → ℕ → List UInt8 → fs.Values
  | [], _, _ => ()
  | f :: fs, offset, bytes =>
    (f.decode (bytes.drop (offset + gap offset f.alignment)),
      decodeFrom fs (offset + gap offset f.alignment + f.size) bytes)

def decode (fs : Layout) (bytes : List UInt8) : fs.Values := decodeFrom fs 0 bytes

def cut : (fs : Layout) → fs.Values → fs.Values
  | [], _ => ()
  | f :: fs, v => (f.cut v.1, cut fs v.2)

@[simp] theorem length_padding (pad : ℕ → UInt8) (offset n : ℕ) :
    (padding pad offset n).length = n := by
  simp [padding]

theorem le_endOffset (fs : Layout) (offset : ℕ) : offset ≤ fs.endOffset offset := by
  induction fs generalizing offset with
  | nil => exact le_refl offset
  | cons f fs ih =>
    have := ih (offset + gap offset f.alignment + f.size)
    simp only [endOffset]
    omega

theorem length_encodeFrom (pad : ℕ → UInt8) (fs : Layout) (offset : ℕ) (v : fs.Values) :
    offset + (encodeFrom pad fs offset v).length = fs.endOffset offset := by
  induction fs generalizing offset with
  | nil => rfl
  | cons f fs ih =>
    have := ih (offset + gap offset f.alignment + f.size) v.2
    simp only [encodeFrom, List.length_append, length_padding, Field.length_encode, endOffset]
    omega

theorem length_encode (pad : ℕ → UInt8) (fs : Layout) (v : fs.Values) :
    (encode pad fs v).length = fs.size := by
  have := length_encodeFrom pad fs 0 v
  simp only [encode, List.length_append, length_padding, size]
  omega

theorem decodeFrom_append (fs : Layout) {offset : ℕ} {bytes : List UInt8}
    (h : fs.endOffset offset ≤ bytes.length) (rest : List UInt8) :
    decodeFrom fs offset (bytes ++ rest) = decodeFrom fs offset bytes := by
  induction fs generalizing offset with
  | nil => rfl
  | cons f fs ih =>
    have hend := le_endOffset fs (offset + gap offset f.alignment + f.size)
    simp only [endOffset] at h
    have hfield : f.size ≤ (bytes.drop (offset + gap offset f.alignment)).length := by
      rw [List.length_drop]
      omega
    simp only [decodeFrom]
    rw [List.drop_append_of_le_length (by omega), Field.decode_append hfield, ih h]

theorem decode_append {fs : Layout} {bytes : List UInt8} (h : fs.size ≤ bytes.length)
    (rest : List UInt8) : fs.decode (bytes ++ rest) = fs.decode bytes := by
  apply decodeFrom_append
  simp only [size] at h
  omega

theorem decodeFrom_encodeFrom (pad : ℕ → UInt8) (fs : Layout) (before : List UInt8)
    (v : fs.Values) (rest : List UInt8) :
    decodeFrom fs before.length (before ++ (encodeFrom pad fs before.length v ++ rest)) =
      fs.cut v := by
  induction fs generalizing before with
  | nil => rfl
  | cons f fs ih =>
    let front := before ++ padding pad before.length (gap before.length f.alignment)
    have hfront : front.length = before.length + gap before.length f.alignment := by
      simp [front]
    let done := front ++ f.encode v.1
    have hdone : done.length = before.length + gap before.length f.alignment + f.size := by
      simp [done, hfront, Field.length_encode]
    have hbytes : before ++ (encodeFrom pad (f :: fs) before.length v ++ rest) =
        done ++ (encodeFrom pad fs done.length v.2 ++ rest) := by
      rw [hdone]
      simp [encodeFrom, done, front, List.append_assoc]
    simp only [decodeFrom, cut]
    rw [hbytes]
    congr 1
    · rw [← hfront]
      simp only [done, List.append_assoc, List.drop_left]
      exact Field.decode_encode f v.1 _
    · rw [← hdone]
      exact ih done v.2

theorem decode_encode (pad : ℕ → UInt8) (fs : Layout) (v : fs.Values) (rest : List UInt8) :
    fs.decode (encode pad fs v ++ rest) = fs.cut v := by
  have h := decodeFrom_encodeFrom pad fs [] v
    (padding pad (fs.endOffset 0) (gap (fs.endOffset 0) fs.alignment) ++ rest)
  rw [encode, decode, List.append_assoc]
  exact h

end Layout

end Library
