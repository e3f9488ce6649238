import SeminarTouhou.Level.StagedEnemy
import SeminarTouhou.Library.MachineInt

namespace SeminarTouhou

open Library

/-- `==`, which is approximate: the square of the distance is compared with that of `kEpsilon`. -/
def Vector2.approx (a b : Vector2) : Bool :=
  decide ((a.x - b.x) ^ 2 + (a.y - b.y) ^ 2 < (1 / 100000) ^ 2)

/-- `Vector2.Distance(a, b) < range`, without the root. -/
def Vector2.within (range : ℚ) (a b : Vector2) : Bool :=
  decide (0 < range) && decide ((a.x - b.x) ^ 2 + (a.y - b.y) ^ 2 < range ^ 2)

def PositionContainer.element (c : PositionContainer) (i : Int32) : Option Vector2 :=
  if i < 0 then none else c.intermedatePos[i.toInt.toNat]?

def PositionContainer.count (c : PositionContainer) : ℤ := c.intermedatePos.length

/-- Of `BaseEnemy` what its movement reads and writes, with the index of the machine. -/
structure PathEnemy where
  posData : PositionContainer
  range : ℚ
  speed : ℚ
  isBoss : Bool
  position : Vector3
  currentSelectedPositon : Vector2
  currentIndex : Int32
  isAtEnd : Bool
  isDead : Bool
deriving DecidableEq

namespace PathEnemy

abbrev Result := Outcome PathEnemy Empty Empty

def spawned (posData : PositionContainer) (range speed : ℚ) (isBoss : Bool) (position : Vector3) :
    PathEnemy :=
  ⟨posData, range, speed, isBoss, position, ⟨0, 0⟩, 0, false, false⟩

def start (e : PathEnemy) : Result :=
  if e.currentIndex.toInt < e.posData.count then
    match e.posData.element e.currentIndex with
    | none => .throws e .argumentOutOfRange
    | some p => .returns { e with currentSelectedPositon := p }
  else .returns { e with currentSelectedPositon := e.posData.endPosition }

def inRange (e : PathEnemy) : Bool := e.position.toVector2.within e.range e.currentSelectedPositon

def findClosestPosition (e : PathEnemy) : Result :=
  if e.inRange then
    let e := { e with currentIndex := e.currentIndex + 1 }
    if e.posData.count ≤ e.currentIndex.toInt then
      .returns { e with currentSelectedPositon := e.posData.endPosition }
    else
      match e.posData.element e.currentIndex with
      | none => .throws e .argumentOutOfRange
      | some p => .returns { e with currentSelectedPositon := p }
  else .returns e

def moveTo (p : Vector2) (e : PathEnemy) : PathEnemy :=
  { e with position := ⟨p.x, p.y, e.position.z⟩ }

def reachedEnd (e : PathEnemy) : Bool :=
  e.position.toVector2.approx e.posData.endPosition && !e.isBoss

def doMovement (moveTowards : Vector2 → Vector2 → ℚ → Vector2) (deltaTime : ℚ) (e : PathEnemy) :
    Result :=
  e.findClosestPosition.andThen (fun e =>
    let e := e.moveTo
      (moveTowards e.position.toVector2 e.currentSelectedPositon (deltaTime * e.speed))
    .returns (if e.reachedEnd then { e with isAtEnd := true, isDead := false } else e))

def path (e : PathEnemy) : List Vector2 := e.posData.intermedatePos ++ [e.posData.endPosition]

def place (e : PathEnemy) : ℕ := min e.currentIndex.toInt.toNat e.posData.intermedatePos.length

end PathEnemy

/-- An enemy on its way. `selected` are the targets it has had, one for each place on its path. -/
structure PathSession where
  enemy : PathEnemy
  selected : List Vector2
deriving DecidableEq

namespace PathSession

variable (moveTowards : Vector2 → Vector2 → ℚ → Vector2)

def start (e : PathEnemy) : PathSession :=
  let e := e.start.state
  ⟨e, [e.currentSelectedPositon]⟩

def next (s : PathSession) (deltaTime : ℚ) : PathSession :=
  let e := (s.enemy.doMovement moveTowards deltaTime).state
  ⟨e, if e.place = s.enemy.place then s.selected else s.selected ++ [e.currentSelectedPositon]⟩

def system : System PathSession ℚ := ⟨fun _ _ => True, next moveTowards⟩

structure FollowsPath (s : PathSession) (deltaTime : ℚ) : Prop where
  inBounds : (s.enemy.doMovement moveTowards deltaTime).thrown = none
  along : (s.next moveTowards deltaTime).selected <+: s.enemy.path
  current : (s.next moveTowards deltaTime).selected.getLast? =
    some (s.next moveTowards deltaTime).enemy.currentSelectedPositon
  advances : (s.next moveTowards deltaTime).selected = s.selected ∨
    s.enemy.inRange = true ∧ ∃ target, (s.next moveTowards deltaTime).selected = s.selected ++ [target]
  stays : s.selected = s.enemy.path →
    (s.next moveTowards deltaTime).enemy.currentSelectedPositon = s.enemy.posData.endPosition

def IndexFits (s : PathSession) (_deltaTime : ℚ) : Prop :=
  s.enemy.inRange = true → s.enemy.currentIndex.toInt + 1 < 2 ^ 31

end PathSession

namespace PathEnemy

variable (moveTowards : Vector2 → Vector2 → ℚ → Vector2) (deltaTime : ℚ) {e : PathEnemy}

theorem element_cases {c : PositionContainer} {i : Int32} (h : 0 ≤ i.toInt) :
    c.count ≤ i.toInt ∧ c.intermedatePos[i.toInt.toNat]? = none ∨
      i.toInt < c.count ∧ ∃ p, c.element i = some p ∧ c.intermedatePos[i.toInt.toNat]? = some p := by
  have hneg : ¬i < 0 := by
    rw [Int32.lt_iff_toInt_lt, Int32.toInt_zero]
    omega
  rw [PositionContainer.count, PositionContainer.element, if_neg hneg]
  cases hp : c.intermedatePos[i.toInt.toNat]? with
  | none =>
    have hle := List.getElem?_eq_none_iff.mp hp
    exact Or.inl ⟨by omega, rfl⟩
  | some p =>
    obtain ⟨hlt, -⟩ := List.getElem?_eq_some_iff.mp hp
    exact Or.inr ⟨by omega, p, rfl, rfl⟩

theorem start_eq (h : 0 ≤ e.currentIndex.toInt) : e.start = .returns { e with
    currentSelectedPositon :=
      e.posData.intermedatePos[e.currentIndex.toInt.toNat]?.getD e.posData.endPosition } := by
  rw [start]
  obtain ⟨hle, hp⟩ | ⟨hlt, p, he, hp⟩ := element_cases (c := e.posData) h
  · rw [if_neg (not_lt.mpr hle), hp, Option.getD_none]
  · rw [if_pos hlt, he, hp, Option.getD_some]

theorem findClosestPosition_far (h : e.inRange = false) : e.findClosestPosition = .returns e := by
  rw [findClosestPosition, if_neg (Bool.eq_false_iff.mp h)]

theorem findClosestPosition_near (h : e.inRange = true) (h0 : 0 ≤ e.currentIndex.toInt)
    (hfit : e.currentIndex.toInt + 1 < 2 ^ 31) : e.findClosestPosition = .returns { e with
      currentIndex := e.currentIndex + 1
      currentSelectedPositon :=
        e.posData.intermedatePos[e.currentIndex.toInt.toNat + 1]?.getD e.posData.endPosition } := by
  have hnext : (e.currentIndex + 1).toInt = e.currentIndex.toInt + 1 := toInt_add_of_lt h0 hfit
  have hnat : (e.currentIndex + 1).toInt.toNat = e.currentIndex.toInt.toNat + 1 := by omega
  have hnonneg : 0 ≤ (e.currentIndex + 1).toInt := by omega
  rw [findClosestPosition, if_pos h, ← hnat]
  dsimp only
  obtain ⟨hle, hp⟩ | ⟨hlt, p, he, hp⟩ := element_cases (c := e.posData) hnonneg
  · rw [if_pos hle, hp, Option.getD_none]
  · rw [if_neg (not_le.mpr hlt), he, hp, Option.getD_some]

/-- The index wraps around to the other end of its range. -/
theorem findClosestPosition_overflow (h : e.inRange = true) (hfit : ¬e.currentIndex.toInt + 1 < 2 ^ 31) :
    e.findClosestPosition.thrown = some .argumentOutOfRange := by
  have hneg : (e.currentIndex + 1).toInt < 0 := toInt_add_overflow (not_lt.mp hfit)
  have hcount : ¬e.posData.count ≤ (e.currentIndex + 1).toInt := by
    rw [PositionContainer.count]
    omega
  have hlt : e.currentIndex + 1 < 0 := by rwa [Int32.lt_iff_toInt_lt, Int32.toInt_zero]
  rw [findClosestPosition, if_pos h]
  dsimp only
  rw [if_neg hcount, PositionContainer.element, if_pos hlt]
  rfl

theorem doMovement_of_returns {t : PathEnemy} (h : e.findClosestPosition = .returns t) :
    ∃ u, e.doMovement moveTowards deltaTime = .returns u ∧ u.posData = t.posData ∧
      u.currentIndex = t.currentIndex ∧ u.currentSelectedPositon = t.currentSelectedPositon := by
  rw [doMovement, h]
  refine ⟨_, rfl, ?_⟩
  dsimp only [Outcome.returns_state]
  split_ifs <;> exact ⟨rfl, rfl, rfl⟩

/-- A fixed update leaves the target as it is, or selects the next one within range of it. -/
theorem doMovement_cases (h0 : 0 ≤ e.currentIndex.toInt)
    (hfit : e.inRange = true → e.currentIndex.toInt + 1 < 2 ^ 31) :
    ∃ u, e.doMovement moveTowards deltaTime = .returns u ∧ u.posData = e.posData ∧
      (u.currentIndex = e.currentIndex ∧ u.currentSelectedPositon = e.currentSelectedPositon ∨
        e.inRange = true ∧ u.currentIndex.toInt = e.currentIndex.toInt + 1 ∧
          u.currentSelectedPositon =
            e.posData.intermedatePos[e.currentIndex.toInt.toNat + 1]?.getD e.posData.endPosition) := by
  cases hr : e.inRange with
  | false =>
    obtain ⟨u, hu, hp, hi, ht⟩ :=
      doMovement_of_returns moveTowards deltaTime (findClosestPosition_far hr)
    exact ⟨u, hu, hp, Or.inl ⟨hi, ht⟩⟩
  | true =>
    obtain ⟨u, hu, hp, hi, ht⟩ :=
      doMovement_of_returns moveTowards deltaTime (findClosestPosition_near hr h0 (hfit hr))
    refine ⟨u, hu, hp, Or.inr ⟨rfl, ?_, ht⟩⟩
    rw [hi]
    exact toInt_add_of_lt h0 (hfit hr)

theorem doMovement_overflow (h : e.inRange = true) (hfit : ¬e.currentIndex.toInt + 1 < 2 ^ 31) :
    (e.doMovement moveTowards deltaTime).thrown = some .argumentOutOfRange := by
  have ht := findClosestPosition_overflow h hfit
  rw [doMovement, Outcome.andThen, ht]
  exact ht

theorem path_place {e : PathEnemy} {i : ℕ} (h : e.currentIndex.toInt.toNat = i) :
    e.path[e.place]? = some (e.posData.intermedatePos[i]?.getD e.posData.endPosition) := by
  rw [path, place, h]
  obtain hlt | hle := lt_or_ge i e.posData.intermedatePos.length
  · rw [min_eq_left hlt.le, List.getElem?_append_left hlt, List.getElem?_eq_getElem hlt, Option.getD_some]
  · rw [min_eq_right hle, List.getElem?_append_right (le_refl _), Nat.sub_self,
      List.getElem?_eq_none hle, Option.getD_none]
    rfl

theorem place_lt (e : PathEnemy) : e.place < e.path.length := by
  rw [path, place, List.length_append, List.length_singleton]
  omega

end PathEnemy

namespace PathSession

variable {moveTowards : Vector2 → Vector2 → ℚ → Vector2} {s : PathSession} {deltaTime : ℚ}

theorem next_of_returns {u : PathEnemy}
    (hu : s.enemy.doMovement moveTowards deltaTime = .returns u) : s.next moveTowards deltaTime =
      ⟨u, if u.place = s.enemy.place then s.selected
        else s.selected ++ [u.currentSelectedPositon]⟩ := by
  rw [PathSession.next, hu]
  rfl

variable (moveTowards)

structure Selects (s : PathSession) : Prop where
  index : 0 ≤ s.enemy.currentIndex.toInt
  selected : s.selected = s.enemy.path.take (s.enemy.place + 1)
  target : s.enemy.path[s.enemy.place]? = some s.enemy.currentSelectedPositon

theorem start_index (posData : PositionContainer) (range speed : ℚ) (isBoss : Bool)
    (position : Vector3) :
    (start (.spawned posData range speed isBoss position)).enemy.currentIndex.toInt = 0 := by
  have hstart :=
    PathEnemy.start_eq (e := .spawned posData range speed isBoss position) Int32.toInt_zero.ge
  rw [start, hstart]
  exact Int32.toInt_zero

theorem start_selects (posData : PositionContainer) (range speed : ℚ) (isBoss : Bool)
    (position : Vector3) : (PathEnemy.spawned posData range speed isBoss position).start.thrown = none ∧
      (start (.spawned posData range speed isBoss position)).Selects := by
  have hstart :=
    PathEnemy.start_eq (e := .spawned posData range speed isBoss position) Int32.toInt_zero.ge
  have hindex := start_index posData range speed isBoss position
  refine ⟨congrArg Outcome.thrown hstart, ?_⟩
  rw [start] at hindex ⊢
  generalize he : (PathEnemy.spawned posData range speed isBoss position).start.state = e
  rw [he] at hindex
  have hplace : e.place = 0 := by
    rw [PathEnemy.place, hindex]
    exact Nat.zero_min _
  have htarget : e.path[0]? = some e.currentSelectedPositon := by
    rw [← hplace, PathEnemy.path_place (congrArg Int.toNat hindex), ← he, hstart]
    rfl
  refine ⟨hindex.ge, ?_, ?_⟩
  · rw [hplace, List.take_add_one, htarget]
    rfl
  · rw [hplace, htarget]

theorem Selects.place_next (h : s.Selects) (hfit : s.IndexFits deltaTime) :
    ∃ u, s.enemy.doMovement moveTowards deltaTime = .returns u ∧ u.path = s.enemy.path ∧
      0 ≤ u.currentIndex.toInt ∧ u.path[u.place]? = some u.currentSelectedPositon ∧
      (u.place = s.enemy.place ∨ s.enemy.inRange = true ∧ u.place = s.enemy.place + 1) := by
  obtain ⟨u, hu, hp, hcase⟩ :=
    PathEnemy.doMovement_cases moveTowards deltaTime h.index hfit
  have hpath : u.path = s.enemy.path := by rw [PathEnemy.path, PathEnemy.path, hp]
  have hindex := h.index
  refine ⟨u, hu, hpath, ?_⟩
  obtain ⟨hi, ht⟩ | ⟨hr, hi, ht⟩ := hcase
  · have hplace : u.place = s.enemy.place := by rw [PathEnemy.place, PathEnemy.place, hp, hi]
    rw [hi, hpath, hplace, ht]
    exact ⟨hindex, h.target, Or.inl rfl⟩
  · have hnat : u.currentIndex.toInt.toNat = s.enemy.currentIndex.toInt.toNat + 1 := by omega
    refine ⟨by omega, ?_, ?_⟩
    · rw [PathEnemy.path_place hnat, ht, hp]
    · rw [PathEnemy.place, PathEnemy.place, hp, hnat]
      obtain hlt | hle := lt_or_ge s.enemy.currentIndex.toInt.toNat s.enemy.posData.intermedatePos.length
      · exact Or.inr ⟨hr, by omega⟩
      · exact Or.inl (by omega)

theorem Selects.next (h : s.Selects) (hfit : s.IndexFits deltaTime) :
    (s.next moveTowards deltaTime).Selects := by
  obtain ⟨u, hu, hpath, hindex, htarget, hplace⟩ := h.place_next moveTowards hfit
  rw [next_of_returns hu]
  refine ⟨hindex, ?_, htarget⟩
  dsimp only
  obtain he | ⟨-, he⟩ := hplace
  · rw [if_pos he, h.selected, hpath, he]
  · rw [if_neg (by omega), h.selected, List.take_add_one (i := u.place), htarget, hpath, he]
    rfl

theorem Selects.follows (h : s.Selects) (hfit : s.IndexFits deltaTime) :
    s.FollowsPath moveTowards deltaTime := by
  obtain ⟨u, hu, hpath, -, htarget, hplace⟩ := h.place_next moveTowards hfit
  have hselected := (h.next moveTowards hfit).selected
  have henemy : (s.next moveTowards deltaTime).enemy = u := congrArg Outcome.state hu
  rw [henemy] at hselected
  constructor
  · rw [hu]
    rfl
  · rw [hselected, hpath]
    exact List.take_prefix _ _
  · rw [hselected, henemy, List.getLast?_take, if_neg (Nat.succ_ne_zero _), Nat.add_sub_cancel,
      htarget]
    rfl
  · obtain he | ⟨hr, he⟩ := hplace
    · left
      rw [hselected, hpath, he, h.selected]
    · refine Or.inr ⟨hr, u.currentSelectedPositon, ?_⟩
      rw [hselected, List.take_add_one, htarget, hpath, he, h.selected]
      rfl
  · intro hall
    have hlength : s.enemy.path.length = s.enemy.posData.intermedatePos.length + 1 := List.length_append
    have hlast : u.place = s.enemy.posData.intermedatePos.length := by
      have hlt := hpath ▸ u.place_lt
      have hle : s.enemy.path.length ≤ s.enemy.place + 1 := by
        rw [h.selected] at hall
        exact List.take_eq_self_iff _ |>.mp hall
      omega
    rw [henemy]
    rw [hpath, hlast, PathEnemy.path, List.getElem?_append_right (le_refl _), Nat.sub_self] at htarget
    exact (Option.some.inj htarget).symm

theorem Selects.indexFits_iff (h : s.Selects) (deltaTime : ℚ) :
    s.FollowsPath moveTowards deltaTime ↔ s.IndexFits deltaTime := by
  constructor
  · intro hf hr
    by_contra hfit
    have hthrown := PathEnemy.doMovement_overflow moveTowards deltaTime hr hfit
    rw [hf.inBounds] at hthrown
    cases hthrown
  · exact h.follows moveTowards

variable {moveTowards}

theorem Selects.meets_iff (h : s.Selects) (as : List ℚ) :
    (system moveTowards).Meets (FollowsPath moveTowards) s as ↔ (system moveTowards).Meets IndexFits s as :=
  System.meets_iff (fun _ _ h _ hfit => h.next moveTowards hfit)
    (fun _ a h _ => h.indexFits_iff moveTowards a) h (fun _ _ => trivial)

/-- The index is raised for good, also at the end of the path. -/
theorem follows_iff (posData : PositionContainer) (range speed : ℚ) (isBoss : Bool)
    (position : Vector3) (as : List ℚ) :
    let e := PathEnemy.spawned posData range speed isBoss position
    e.start.thrown = none ∧ (system moveTowards).Meets (FollowsPath moveTowards) (start e) as ↔
      (system moveTowards).Meets IndexFits (start e) as := by
  obtain ⟨hthrown, hstart⟩ := start_selects posData range speed isBoss position
  dsimp only
  rw [and_iff_right hthrown]
  exact hstart.meets_iff as

theorem Selects.index_next (h : s.Selects) (hfit : s.IndexFits deltaTime) :
    (s.next moveTowards deltaTime).enemy.currentIndex.toInt ≤ s.enemy.currentIndex.toInt + 1 := by
  obtain ⟨u, hu, -, ⟨hi, -⟩ | ⟨-, hi, -⟩⟩ :=
    PathEnemy.doMovement_cases moveTowards deltaTime h.index hfit
  · rw [next_of_returns hu, hi]
    omega
  · rw [next_of_returns hu, hi]

theorem Selects.meets_indexFits (h : s.Selects) {as : List ℚ}
    (hl : s.enemy.currentIndex.toInt + as.length < 2 ^ 31) :
    (system moveTowards).Meets IndexFits s as := by
  induction as generalizing s with
  | nil => exact System.meets_nil _ _ _
  | cons a as ih =>
    rw [List.length_cons] at hl
    have hfit : s.IndexFits a := fun _ => by omega
    have hindex : (s.next moveTowards a).enemy.currentIndex.toInt ≤ s.enemy.currentIndex.toInt + 1 :=
      h.index_next hfit
    refine (System.meets_cons _ _ _ _ _).mpr ⟨hfit, ih (h.next moveTowards hfit) ?_⟩
    change (s.next moveTowards a).enemy.currentIndex.toInt + _ < _
    omega

theorem follows_of_length (posData : PositionContainer) (range speed : ℚ) (isBoss : Bool)
    (position : Vector3) {as : List ℚ} (hl : as.length < 2 ^ 31) :
    let e := PathEnemy.spawned posData range speed isBoss position
    e.start.thrown = none ∧ (system moveTowards).Meets (FollowsPath moveTowards) (start e) as := by
  obtain ⟨hthrown, hstart⟩ := start_selects posData range speed isBoss position
  refine ⟨hthrown, (hstart.meets_iff as).mpr (hstart.meets_indexFits ?_)⟩
  rw [start_index]
  omega

/-- `MoveTowards` with no way to go. -/
def stay (current _target : Vector2) (_maxDistanceDelta : ℚ) : Vector2 := current

def lingering (i : Int32) : PathEnemy :=
  ⟨⟨⟨0, 0⟩, ⟨1, 0⟩, []⟩, 2, 0, false, ⟨0, 0, 0⟩, ⟨1, 0⟩, i, false, false⟩

theorem lingering_inRange (i : Int32) : (lingering i).inRange = true := by
  simp only [PathEnemy.inRange, lingering]
  decide +kernel

theorem lingering_doMovement {i : Int32} (h0 : 0 ≤ i.toInt) (hfit : i.toInt + 1 < 2 ^ 31) :
    (lingering i).doMovement stay deltaTime = .returns (lingering (i + 1)) := by
  have hnear := PathEnemy.findClosestPosition_near (e := lingering i) (lingering_inRange i) h0 hfit
  rw [PathEnemy.doMovement, hnear]
  have hend : (lingering (i + 1)).reachedEnd = false := by
    simp only [PathEnemy.reachedEnd, lingering]
    decide +kernel
  exact congrArg Outcome.returns (if_neg (Bool.eq_false_iff.mp hend))

theorem lingering_run (deltaTime : ℚ) {i : Int32} (h0 : 0 ≤ i.toInt) {n : ℕ} (hn : i.toInt + n < 2 ^ 31)
    (selected : List Vector2) : ∃ j : Int32, j.toInt = i.toInt + n ∧
      ((system stay).run ⟨lingering i, selected⟩ (List.replicate n deltaTime)).enemy = lingering j := by
  induction n generalizing i selected with
  | zero => exact ⟨i, (add_zero _).symm, rfl⟩
  | succ n ih =>
    push_cast at hn
    have hnext : (i + 1).toInt = i.toInt + 1 := toInt_add_of_lt h0 (by rw [Int32.toInt_one]; omega)
    rw [List.replicate_succ, System.run_cons]
    change ∃ j : Int32, _ ∧
      ((system stay).run (PathSession.next stay ⟨lingering i, selected⟩ deltaTime) _).enemy = _
    rw [next_of_returns (s := ⟨lingering i, selected⟩) (lingering_doMovement h0 (by omega))]
    obtain ⟨j, hj, hrun⟩ := ih (i := i + 1) (by omega) (by omega) _
    exact ⟨j, by push_cast; omega, hrun⟩

/-- After 2 ^ 31 - 1 fixed updates in range the next one reads `intermedatePos` at -2 ^ 31. -/
theorem lingering_throws : ¬ ∀ posData range speed isBoss position (as : List ℚ),
    let e := PathEnemy.spawned posData range speed isBoss position
    e.start.thrown = none ∧ (system stay).Meets (FollowsPath stay) (start e) as := by
  intro h
  have hstart : start (.spawned ⟨⟨0, 0⟩, ⟨1, 0⟩, []⟩ 2 0 false ⟨0, 0, 0⟩) =
      ⟨lingering 0, [⟨1, 0⟩]⟩ := by decide +kernel
  have hmeets := (h ⟨⟨0, 0⟩, ⟨1, 0⟩, []⟩ 2 0 false ⟨0, 0, 0⟩ (List.replicate 2147483647 0 ++ [0])).2
  rw [hstart] at hmeets
  obtain ⟨j, hj, hrun⟩ := lingering_run 0 Int32.toInt_zero.ge (n := 2147483647)
    (by rw [Int32.toInt_zero]; norm_num) [⟨1, 0⟩]
  have hbounds := ((system stay).meets_concat hmeets).inBounds
  rw [hrun, PathEnemy.doMovement_overflow stay 0 (lingering_inRange j)] at hbounds
  · cases hbounds
  · change ¬j.toInt + 1 < 2 ^ 31
    rw [hj, Int32.toInt_zero]
    norm_num

end PathSession

end SeminarTouhou
