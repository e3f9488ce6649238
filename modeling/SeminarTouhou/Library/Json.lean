import Mathlib

namespace Library

/-- A number is kept as it is written. -/
inductive Json
  | null
  | bool (b : Bool)
  | number (s : List Char)
  | string (s : List Char)
  | array (elements : List Json)
  | object (members : List (List Char × Json))

namespace Json

def isBlank (c : Char) : Bool := c = ' ' ∨ c = '\t' ∨ c = '\n' ∨ c = '\r'

def skipBlanks (s : List Char) : List Char := s.dropWhile isBlank

def hexDigit (c : Char) : Option ℕ :=
  if c.isDigit then some (c.toNat - '0'.toNat)
  else if 'a' ≤ c ∧ c ≤ 'f' then some (c.toNat - 'a'.toNat + 10)
  else if 'A' ≤ c ∧ c ≤ 'F' then some (c.toNat - 'A'.toNat + 10)
  else none

def readHex : ℕ → ℕ → List Char → Option (ℕ × List Char)
  | 0, value, s => some (value, s)
  | _ + 1, _, [] => none
  | n + 1, value, c :: s =>
    match hexDigit c with
    | none => none
    | some d => readHex n (16 * value + d) s

/-- Half of a surrogate pair alone is no character. -/
def unicodeChar (n : ℕ) : Char := if n.isValidChar then Char.ofNat n else '\uFFFD'

def readLow : List Char → Option (ℕ × List Char)
  | '\\' :: 'u' :: s => (readHex 4 0 s).filter (fun r => 0xDC00 ≤ r.1 ∧ r.1 < 0xE000)
  | _ => none

def readUnicode (s : List Char) : Option (Char × List Char) :=
  match readHex 4 0 s with
  | none => none
  | some (high, s) =>
    if 0xD800 ≤ high ∧ high < 0xDC00 then
      match readLow s with
      | none => some (unicodeChar high, s)
      | some (low, s) => some (unicodeChar (0x10000 + (high - 0xD800) * 0x400 + (low - 0xDC00)), s)
    else some (unicodeChar high, s)

def escaped : Char → Option Char
  | '"' => some '"'
  | '\\' => some '\\'
  | '/' => some '/'
  | 'b' => some '\x08'
  | 'f' => some '\x0c'
  | 'n' => some '\n'
  | 'r' => some '\r'
  | 't' => some '\t'
  | _ => none

def readEscape : List Char → Option (Char × List Char)
  | [] => none
  | c :: s => if c = 'u' then readUnicode s else (escaped c).map (fun c => (c, s))

def readChars : ℕ → List Char → Option (List Char × List Char)
  | 0, _ => none
  | _ + 1, [] => none
  | n + 1, c :: s =>
    if c = '"' then some ([], s)
    else if c = '\\' then
      match readEscape s with
      | none => none
      | some (c, s) => (readChars n s).map (fun r => (c :: r.1, r.2))
    else if c.toNat < 32 then none
    else (readChars n s).map (fun r => (c :: r.1, r.2))

def readString (s : List Char) : Option (List Char × List Char) := readChars (s.length + 1) s

/-- The characters that stand for themselves between quotes. -/
def Plain (s : List Char) : Prop := ∀ c ∈ s, c ≠ '"' ∧ c ≠ '\\' ∧ 32 ≤ c.toNat

-- over the list, not over the finite type of all characters
instance : DecidablePred Plain := fun s => List.decidableBAll _ s

variable {n : ℕ} {c : Char} {s t u v rest : List Char}

theorem plain_cons : Plain (c :: s) ↔ (c ≠ '"' ∧ c ≠ '\\' ∧ 32 ≤ c.toNat) ∧ Plain s := List.forall_mem_cons

theorem plain_append : Plain (s ++ t) ↔ Plain s ∧ Plain t := List.forall_mem_append

theorem plain_of_isDigit (h : ∀ c ∈ s, c.isDigit = true) : Plain s := by
  intro c hc
  have hdigit := h c hc
  refine ⟨?_, ?_, ?_⟩
  · rintro rfl
    exact absurd hdigit (by decide)
  · rintro rfl
    exact absurd hdigit (by decide)
  · simp only [Char.isDigit, Bool.and_eq_true, decide_eq_true_eq, ge_iff_le, UInt32.le_iff_toNat_le] at hdigit
    exact Nat.le_trans (by decide) hdigit.1

theorem readHex_raw {value m : ℕ} (h : readHex n value s = some (m, rest)) :
    ∃ raw, s = raw ++ rest ∧ '"' ∉ raw := by
  induction n generalizing value s with
  | zero =>
    cases h
    exact ⟨[], rfl, List.not_mem_nil⟩
  | succ n ih =>
    cases s with
    | nil => cases h
    | cons c s =>
      rw [readHex] at h
      cases hd : hexDigit c with
      | none =>
        rw [hd] at h
        cases h
      | some d =>
        rw [hd] at h
        obtain ⟨raw, rfl, hraw⟩ := ih h
        refine ⟨c :: raw, rfl, fun hc => ?_⟩
        obtain rfl | hc := List.mem_cons.mp hc
        · have hnone : hexDigit '"' = none := by decide
          exact Option.some_ne_none d (hd.symm.trans hnone)
        · exact hraw hc

theorem readLow_raw {m : ℕ} (h : readLow s = some (m, rest)) : ∃ raw, s = raw ++ rest ∧ '"' ∉ raw := by
  unfold readLow at h
  split at h
  · obtain ⟨hhex, -⟩ := Option.filter_eq_some_iff.mp h
    obtain ⟨raw, rfl, hraw⟩ := readHex_raw hhex
    exact ⟨'\\' :: 'u' :: raw, rfl, by simpa using hraw⟩
  · cases h

theorem readUnicode_raw (h : readUnicode s = some (c, rest)) : ∃ raw, s = raw ++ rest ∧ '"' ∉ raw := by
  rw [readUnicode] at h
  cases hhigh : readHex 4 0 s with
  | none =>
    rw [hhigh] at h
    cases h
  | some r =>
    obtain ⟨raw, rfl, hraw⟩ := readHex_raw hhigh
    rw [hhigh] at h
    dsimp only at h
    split_ifs at h with hpair
    · cases hlow : readLow r.2 with
      | none =>
        rw [hlow] at h
        cases h
        exact ⟨raw, rfl, hraw⟩
      | some q =>
        rw [hlow] at h
        obtain ⟨-, hrest⟩ := Prod.mk.inj (Option.some.inj h)
        obtain ⟨raw', hr, hraw'⟩ := readLow_raw hlow
        refine ⟨raw ++ raw', by rw [hr, hrest, List.append_assoc], fun hc => ?_⟩
        exact (List.mem_append.mp hc).elim hraw hraw'
    · cases h
      exact ⟨raw, rfl, hraw⟩

theorem readEscape_raw (h : readEscape s = some (c, rest)) :
    ∃ e raw, s = e :: (raw ++ rest) ∧ '"' ∉ raw := by
  cases s with
  | nil => cases h
  | cons e s =>
    rw [readEscape] at h
    split_ifs at h with he
    · obtain ⟨raw, rfl, hraw⟩ := readUnicode_raw h
      exact ⟨e, raw, rfl, hraw⟩
    · obtain ⟨d, -, hd⟩ := Option.map_eq_some_iff.mp h
      cases hd
      exact ⟨e, [], rfl, List.not_mem_nil⟩

theorem readChars_plain (h : Plain u) (hn : u.length < n) (t : List Char) :
    readChars n (u ++ '"' :: t) = some (u, t) := by
  induction u generalizing n with
  | nil =>
    obtain ⟨n, rfl⟩ := Nat.exists_eq_add_one_of_ne_zero (Nat.ne_of_gt hn)
    rfl
  | cons c u ih =>
    obtain ⟨n, rfl⟩ := Nat.exists_eq_add_one_of_ne_zero (Nat.ne_zero_of_lt hn)
    obtain ⟨⟨hquote, hslash, hcontrol⟩, hplain⟩ := plain_cons.mp h
    rw [List.cons_append, readChars, if_neg hquote, if_neg hslash, if_neg (Nat.not_lt.mpr hcontrol),
      ih hplain (Nat.lt_of_succ_lt_succ hn)]
    rfl

theorem readString_plain (h : Plain u) (t : List Char) : readString (u ++ '"' :: t) = some (u, t) := by
  refine readChars_plain h ?_ t
  rw [List.length_append]
  omega

theorem append_of_quote {raw : List Char} (h : u ++ '"' :: t = raw ++ rest) (hraw : '"' ∉ raw) :
    ∃ u', u = raw ++ u' ∧ rest = u' ++ '"' :: t := by
  obtain ⟨w, hw, hrest⟩ | ⟨w, hw, hrest⟩ := List.append_eq_append_iff.mp h
  · cases w with
    | nil => exact ⟨[], by simpa using hw.symm, hrest.symm⟩
    | cons d w =>
      obtain ⟨rfl, -⟩ := List.cons.inj hrest
      exact absurd (hw ▸ List.mem_append_right u List.mem_cons_self) hraw
  · exact ⟨w, hw, hrest⟩

/-- A string that is read over `u` is `u` itself, or shorter, or `u` ends in a backslash that hides the
quote behind it. -/
theorem readChars_cases (h : readChars n (u ++ '"' :: t) = some (v, rest)) :
    (v = u ∧ Plain u ∧ rest = t) ∨ v.length < u.length ∨
      ∃ w, u = w ++ ['\\'] ∧ ∃ m v₁ v₂, readChars m t = some (v₂, rest) ∧ v = v₁ ++ '"' :: v₂ := by
  induction n generalizing u v with
  | zero => cases h
  | succ n ih =>
    cases u with
    | nil =>
      cases h
      exact Or.inl ⟨rfl, fun c hc => absurd hc List.not_mem_nil, rfl⟩
    | cons c u =>
      rw [List.cons_append, readChars] at h
      split_ifs at h with hquote hslash hcontrol
      · cases h
        exact Or.inr (Or.inl (Nat.succ_pos _))
      · cases he : readEscape (u ++ '"' :: t) with
        | none =>
          rw [he] at h
          cases h
        | some r =>
          rw [he] at h
          obtain ⟨⟨v, rest⟩, hread, hv⟩ := Option.map_eq_some_iff.mp h
          cases hv
          cases u with
          | nil =>
            obtain rfl : ('"', t) = r := Option.some.inj he
            exact Or.inr (Or.inr ⟨[], by rw [hslash]; rfl, n, [], v, hread, rfl⟩)
          | cons d u =>
            obtain ⟨e, raw, hsplit, hraw⟩ := readEscape_raw he
            obtain ⟨u, rfl, hr⟩ := append_of_quote (List.cons.inj hsplit).2 hraw
            rw [hr] at hread
            obtain ⟨rfl, -, -⟩ | hlt | ⟨w, rfl, m, v₁, v₂, hbehind, rfl⟩ := ih hread
            · refine Or.inr (Or.inl ?_)
              simp only [List.length_cons, List.length_append]
              omega
            · refine Or.inr (Or.inl ?_)
              simp only [List.length_cons, List.length_append]
              omega
            · refine Or.inr (Or.inr ⟨c :: d :: (raw ++ w), ?_, m, r.1 :: v₁, v₂, hbehind, rfl⟩)
              rw [← List.append_assoc]
              rfl
      · obtain ⟨⟨v, rest⟩, hread, hv⟩ := Option.map_eq_some_iff.mp h
        cases hv
        obtain ⟨rfl, hplain, hrest⟩ | hlt | ⟨w, rfl, m, v₁, v₂, hbehind, rfl⟩ := ih hread
        · exact Or.inl ⟨rfl, plain_cons.mpr ⟨⟨hquote, hslash, Nat.not_lt.mp hcontrol⟩, hplain⟩, hrest⟩
        · exact Or.inr (Or.inl (Nat.succ_lt_succ hlt))
        · exact Or.inr (Or.inr ⟨c :: w, rfl, m, c :: v₁, v₂, hbehind, rfl⟩)

/-- What comes back unchanged was plain, unless a string behind its closing quote ends in a backslash. -/
theorem readString_self (h : readString (u ++ '"' :: t) = some (u, rest))
    (ht : ∀ m w r, readChars m t = some (w, r) → w.getLast? ≠ some '\\') : Plain u ∧ rest = t := by
  obtain ⟨-, hplain, hrest⟩ | hlt | ⟨w, hw, m, v₁, v₂, hbehind, hv⟩ := readChars_cases h
  · exact ⟨hplain, hrest⟩
  · exact absurd hlt (Nat.lt_irrefl _)
  · have hlast := congrArg List.getLast? (hw.symm.trans hv)
    rw [List.getLast?_concat, List.getLast?_append, List.getLast?_cons, Option.some_or] at hlast
    cases hv₂ : v₂.getLast? with
    | none =>
      rw [hv₂] at hlast
      exact absurd hlast (by decide)
    | some d =>
      rw [hv₂] at hlast
      exact absurd (hv₂.trans hlast.symm) (ht m v₂ rest hbehind)

def readDigits (s : List Char) : Option (List Char × List Char) :=
  let digits := s.takeWhile Char.isDigit
  if digits = [] then none else some (digits, s.dropWhile Char.isDigit)

def readInt : List Char → Option (List Char × List Char)
  | '0' :: s => some (['0'], s)
  | s => readDigits s

def readFraction : List Char → Option (List Char × List Char)
  | '.' :: s => (readDigits s).map (fun r => ('.' :: r.1, r.2))
  | s => some ([], s)

def readSigned (e : Char) : List Char → Option (List Char × List Char)
  | '+' :: s => (readDigits s).map (fun r => (e :: '+' :: r.1, r.2))
  | '-' :: s => (readDigits s).map (fun r => (e :: '-' :: r.1, r.2))
  | s => (readDigits s).map (fun r => (e :: r.1, r.2))

def readExponent : List Char → Option (List Char × List Char)
  | 'e' :: s => readSigned 'e' s
  | 'E' :: s => readSigned 'E' s
  | s => some ([], s)

def readUnsigned (s : List Char) : Option (List Char × List Char) := do
  let (int, s) ← readInt s
  let (fraction, s) ← readFraction s
  let (exponent, s) ← readExponent s
  return (int ++ fraction ++ exponent, s)

def readNumber : List Char → Option (List Char × List Char)
  | '-' :: s => (readUnsigned s).map (fun r => ('-' :: r.1, r.2))
  | s => readUnsigned s

def readScalar : List Char → Option (Json × List Char)
  | 'n' :: 'u' :: 'l' :: 'l' :: s => some (.null, s)
  | 't' :: 'r' :: 'u' :: 'e' :: s => some (.bool true, s)
  | 'f' :: 'a' :: 'l' :: 's' :: 'e' :: s => some (.bool false, s)
  | s => (readNumber s).map (fun r => (.number r.1, r.2))

def readName : List Char → Option (List Char × List Char)
  | '"' :: s =>
    match readString s with
    | none => none
    | some (name, s) =>
      match skipBlanks s with
      | ':' :: s => some (name, skipBlanks s)
      | _ => none
  | _ => none

/-- What stands behind an entry: the end of the list, or a comma and `more`. -/
def readMore {α : Type} (close : Char) (more : List Char → Option (List α × List Char)) (x : α)
    (s : List Char) : Option (List α × List Char) :=
  match skipBlanks s with
  | [] => none
  | c :: s =>
    if c = close then some ([x], s)
    else if c = ',' then (more (skipBlanks s)).map (fun r => (x :: r.1, r.2))
    else none

mutual

def readValue : ℕ → List Char → Option (Json × List Char)
  | 0, _ => none
  | _ + 1, '"' :: s => (readString s).map (fun r => (.string r.1, r.2))
  | n + 1, '[' :: s =>
    match skipBlanks s with
    | ']' :: s => some (.array [], s)
    | s => (readElements n s).map (fun r => (.array r.1, r.2))
  | n + 1, '\x7b' :: s =>
    match skipBlanks s with
    | '\x7d' :: s => some (.object [], s)
    | s => (readMembers n s).map (fun r => (.object r.1, r.2))
  | _ + 1, s => readScalar s

def readElements : ℕ → List Char → Option (List Json × List Char)
  | 0, _ => none
  | n + 1, s => (readValue n s).bind (fun r => readMore ']' (readElements n) r.1 r.2)

def readMembers : ℕ → List Char → Option (List (List Char × Json) × List Char)
  | 0, _ => none
  | n + 1, s => (readName s).bind (fun m =>
      (readValue n m.2).bind (fun r => readMore '\x7d' (readMembers n) (m.1, r.1) r.2))

end

/-- A text is one value with blanks around it. -/
def parse (s : List Char) : Option Json :=
  match readValue (s.length + 1) (skipBlanks s) with
  | none => none
  | some (value, s) => if skipBlanks s = [] then some value else none

/-- Members put together by hand: nothing is escaped. -/
def printBehind : List (List Char × List Char) → List Char
  | [] => ['\x7d']
  | m :: members =>
    ',' :: ' ' :: '"' :: (m.1 ++ '"' :: ':' :: '"' :: (m.2 ++ '"' :: printBehind members))

def printMembers (m : List Char × List Char) (members : List (List Char × List Char)) : List Char :=
  '"' :: (m.1 ++ '"' :: ':' :: '"' :: (m.2 ++ '"' :: printBehind members))

def member (m : List Char × List Char) : List Char × Json := (m.1, .string m.2)

variable {m : List Char × List Char} {members : List (List Char × List Char)}

theorem readMembers_string {name : List Char} (h : Plain name) (n : ℕ) (s : List Char) :
    readMembers (n + 2) ('"' :: (name ++ '"' :: ':' :: '"' :: s)) = (readString s).bind (fun r =>
      readMore '\x7d' (readMembers (n + 1)) (name, .string r.1) r.2) := by
  have hname : readName ('"' :: (name ++ '"' :: ':' :: '"' :: s)) = some (name, '"' :: s) := by
    rw [readName, readString_plain h]
    rfl
  rw [readMembers, hname, Option.bind_some, readValue]
  cases readString s <;> rfl

theorem readMembers_short {n : ℕ} (hn : n < 2) (s : List Char) : readMembers n s = none := by
  obtain rfl | rfl := Nat.le_one_iff_eq_zero_or_eq_one.mp (Nat.le_of_lt_succ hn)
  · rfl
  · rw [readMembers]
    cases readName s <;> rfl

theorem readMembers_print (hnames : ∀ f ∈ m :: members, Plain f.1) (h : ∀ f ∈ m :: members, Plain f.2)
    (hn : members.length + 2 ≤ n) :
    readMembers n (printMembers m members) = some ((m :: members).map member, []) := by
  induction members generalizing m n with
  | nil =>
    obtain ⟨n, rfl⟩ := Nat.exists_eq_add_of_le' hn
    rw [printMembers, List.length_nil, Nat.zero_add, readMembers_string (hnames m List.mem_cons_self),
      readString_plain (h m List.mem_cons_self)]
    rfl
  | cons f members ih =>
    obtain ⟨k, rfl⟩ := Nat.exists_eq_add_of_le' (Nat.le_trans (Nat.le_add_left 2 _) hn)
    rw [printMembers, readMembers_string (hnames m List.mem_cons_self),
      readString_plain (h m List.mem_cons_self), Option.bind_some]
    have hrest := ih (n := k + 1) (fun g hg => hnames g (List.mem_cons_of_mem _ hg))
      (fun g hg => h g (List.mem_cons_of_mem _ hg)) (by rw [List.length_cons] at hn; omega)
    change (readMembers (k + 1) (printMembers f members)).map _ = _
    rw [hrest]
    rfl

theorem readChars_behind {w : List Char} (h : readChars n (printBehind members) = some (w, rest)) :
    w.getLast? ≠ some '\\' := by
  cases members with
  | nil =>
    obtain _ | _ | n := n <;> cases h
  | cons f members =>
    obtain _ | _ | _ | n := n <;> cases h
    simp

theorem mem_of_readMore {α : Type} {close : Char} {more : List Char → Option (List α × List Char)} {x : α}
    {l : List α} (h : readMore close more x s = some (l, rest)) : x ∈ l := by
  unfold readMore at h
  split at h
  · cases h
  · split_ifs at h
    · cases h
      exact List.mem_cons_self
    · obtain ⟨r, -, hr⟩ := Option.map_eq_some_iff.mp h
      cases hr
      exact List.mem_cons_self

theorem plain_first {ms : List (List Char × Json)} (hname : Plain m.1)
    (h : readMembers n (printMembers m members) = some (ms, rest))
    (hms : ∀ g ∈ ms, g.1 = m.1 → g.2 = .string m.2) : Plain m.2 ∧
      ∃ k, readMore '\x7d' (readMembers (k + 1)) (member m) (printBehind members) = some (ms, rest) := by
  obtain hshort | hn := Nat.lt_or_ge n 2
  · rw [readMembers_short hshort] at h
    cases h
  · obtain ⟨k, rfl⟩ := Nat.exists_eq_add_of_le' hn
    rw [printMembers, readMembers_string hname] at h
    obtain ⟨⟨v, s⟩, hv, hmore⟩ := Option.bind_eq_some_iff.mp h
    obtain rfl := Json.string.inj (hms _ (mem_of_readMore hmore) rfl)
    obtain ⟨hplain, rfl⟩ := readString_self hv (fun _ _ _ hbehind => readChars_behind hbehind)
    exact ⟨hplain, k, hmore⟩

theorem plain_of_readMembers {ms : List (List Char × Json)} (hnames : ∀ f ∈ m :: members, Plain f.1)
    (h : readMembers n (printMembers m members) = some (ms, rest))
    (hms : ∀ f ∈ m :: members, ∀ g ∈ ms, g.1 = f.1 → g.2 = .string f.2) :
    ∀ f ∈ m :: members, Plain f.2 := by
  induction members generalizing m n ms with
  | nil =>
    have hfirst := plain_first (hnames m List.mem_cons_self) h (hms m List.mem_cons_self)
    exact List.forall_mem_singleton.mpr hfirst.1
  | cons f members ih =>
    obtain ⟨hplain, k, hmore⟩ := plain_first (hnames m List.mem_cons_self) h (hms m List.mem_cons_self)
    change (readMembers (k + 1) (printMembers f members)).map _ = _ at hmore
    obtain ⟨⟨ms, s⟩, hrest, hr⟩ := Option.map_eq_some_iff.mp hmore
    cases hr
    refine List.forall_mem_cons.mpr ⟨hplain, ih (fun g hg => hnames g (List.mem_cons_of_mem _ hg)) hrest ?_⟩
    exact fun g hg e he => hms g (List.mem_cons_of_mem _ hg) e (List.mem_cons_of_mem _ he)

def printObject (m : List Char × List Char) (members : List (List Char × List Char)) : List Char :=
  '\x7b' :: printMembers m members

theorem length_printBehind (members : List (List Char × List Char)) :
    members.length < (printBehind members).length := by
  induction members with
  | nil => exact Nat.one_pos
  | cons m members ih =>
    simp only [printBehind, List.length_cons, List.length_append]
    omega

theorem readValue_printObject (n : ℕ) : readValue (n + 1) (printObject m members) =
    (readMembers n (printMembers m members)).map (fun r => (.object r.1, r.2)) := by
  rw [printObject, readValue]
  rfl

/-- An object that is put together without escapes says what it should if and only if all its values are
plain. -/
theorem parse_printObject_iff (m : List Char × List Char) (members : List (List Char × List Char))
    (hnames : ∀ f ∈ m :: members, Plain f.1) (hnodup : ((m :: members).map Prod.fst).Nodup) :
    (∃ ms, parse (printObject m members) = some (.object ms) ∧ ms.Perm ((m :: members).map member)) ↔
      ∀ f ∈ m :: members, Plain f.2 := by
  have hskip : skipBlanks (printObject m members) = printObject m members := rfl
  rw [parse, hskip, readValue_printObject]
  constructor
  · rintro ⟨ms, hparse, hperm⟩
    cases hread : readMembers (printObject m members).length (printMembers m members) with
    | none =>
      rw [hread] at hparse
      cases hparse
    | some r =>
      rw [hread] at hparse
      dsimp only [Option.map_some] at hparse
      split_ifs at hparse
      cases hparse
      refine plain_of_readMembers hnames hread fun f hf g hg hgf => ?_
      obtain ⟨e, he, rfl⟩ := List.mem_map.mp (hperm.mem_iff.mp hg)
      rw [List.inj_on_of_nodup_map hnodup he hf hgf, member]
  · intro h
    refine ⟨_, ?_, List.Perm.refl _⟩
    rw [readMembers_print hnames h]
    · rfl
    · have hlength := length_printBehind members
      simp only [printObject, printMembers, List.length_cons, List.length_append]
      omega

end Json

end Library
