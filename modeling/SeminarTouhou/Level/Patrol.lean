import SeminarTouhou.Level.TimeBonus

namespace SeminarTouhou

open Library

def PositionContainer.cycle (c : PositionContainer) (i : ℕ) : Vector3 :=
  (c.intermedatePos[i % c.intermedatePos.length]?.getD ⟨0, 0⟩).toVector3

/-- At least two patrol points, any two of them at least 0.5 apart. -/
structure PositionContainer.Spread (c : PositionContainer) : Prop where
  two : 2 ≤ c.intermedatePos.length
  apart : c.intermedatePos.Pairwise
    (fun p q => (1 / 2) ^ 2 ≤ p.toVector3.sqrDistance q.toVector3)

instance (c : PositionContainer) : Decidable c.Spread :=
  decidable_of_iff (2 ≤ c.intermedatePos.length ∧ c.intermedatePos.Pairwise
    (fun p q => (1 / 2) ^ 2 ≤ p.toVector3.sqrDistance q.toVector3))
    ⟨fun h => ⟨h.1, h.2⟩, fun h => ⟨h.two, h.apart⟩⟩

namespace PositionContainer

variable {c : PositionContainer}

theorem cycle_of_lt {i : ℕ} (hi : i < c.intermedatePos.length) :
    c.cycle i = (c.intermedatePos[i]).toVector3 := by
  rw [cycle, Nat.mod_eq_of_lt hi, List.getElem?_eq_getElem hi]
  rfl

theorem cycle_mod (c : PositionContainer) (i : ℕ) : c.cycle (i % c.intermedatePos.length) = c.cycle i := by
  rw [cycle, Nat.mod_mod]
  rfl

theorem Spread.ne (h : c.Spread) {i j : ℕ} (hij : i < j) (hj : j < c.intermedatePos.length) :
    c.cycle i ≠ c.cycle j := by
  have hapart := List.pairwise_iff_getElem.mp h.apart i j (hij.trans hj) hj hij
  intro heq
  rw [cycle_of_lt (hij.trans hj), cycle_of_lt hj] at heq
  rw [heq, Vector3.sqrDistance] at hapart
  norm_num at hapart

theorem Spread.cycle_eq_iff (h : c.Spread) {i j : ℕ} :
    c.cycle i = c.cycle j ↔ i % c.intermedatePos.length = j % c.intermedatePos.length := by
  have hpos : 0 < c.intermedatePos.length := lt_of_lt_of_le Nat.zero_lt_two h.two
  constructor
  · intro heq
    rw [← cycle_mod c i, ← cycle_mod c j] at heq
    rcases lt_trichotomy (i % c.intermedatePos.length) (j % c.intermedatePos.length) with hlt | he | hlt
    · exact absurd heq (h.ne hlt (Nat.mod_lt j hpos))
    · exact he
    · exact absurd heq.symm (h.ne hlt (Nat.mod_lt i hpos))
  · intro he
    rw [← cycle_mod c i, he, cycle_mod]

end PositionContainer

namespace PatrolBoss

variable (moveTowards : Vector2 → Vector2 → ℚ → Vector2) {b : PatrolBoss}

theorem fixedUpdate_away (deltaTime : ℚ) (h : (b.isMoving && b.near) = false) :
    ∃ position, (b.fixedUpdate moveTowards deltaTime).state = { b with position := position } := by
  rw [fixedUpdate]
  by_cases hm : b.isMoving = true
  · rw [hm, Bool.true_and] at h
    rw [if_pos hm, doMovement, if_neg (by rw [h]; exact Bool.false_ne_true)]
    exact ⟨_, rfl⟩
  · rw [if_neg hm]
    exact ⟨b.position, rfl⟩

theorem fixedUpdate_reaches (deltaTime : ℚ) {i : ℤ} {p : Vector2} (h : (b.isMoving && b.near) = true)
    (hi : (if b.positions.intermedatePos.length ≤ b.currentPositionIndex + 1 then 0
      else b.currentPositionIndex + 1) = i)
    (hp : b.intermedatePos i = some p) :
    b.fixedUpdate moveTowards deltaTime = .returns (moveOn moveTowards deltaTime
      { b with currentPositionIndex := i, targetPosition := p.toVector3 }.checkDistance) := by
  obtain ⟨hm, hn⟩ := Bool.and_eq_true_iff.mp h
  rw [fixedUpdate, if_pos hm, doMovement, if_pos hn]
  dsimp only
  rw [hi]
  have hp' : intermedatePos { b with currentPositionIndex := i } i = some p := hp
  rw [hp']

end PatrolBoss

namespace PatrolSession

variable (moveTowards : Vector2 → Vector2 → ℚ → Vector2) (c : PositionContainer)

def Patrols (s : PatrolSession) (a : PatrolAction) : Prop :=
  s.Reaches a = true → ∃ i, s.boss.targetPosition = c.cycle i ∧
    (s.next moveTowards a).boss.targetPosition = c.cycle (i + 1)

def HasReached (s : PatrolSession) (a : PatrolAction) : Prop :=
  s.Reaches a = true → s.boss.currentPositionIndex ≠ -1

instance (s : PatrolSession) (a : PatrolAction) : Decidable (s.HasReached a) :=
  inferInstanceAs (Decidable (_ → _))

/-- After `k` arrivals: the first target is given twice, from then on the targets go in turn. -/
structure OnCourse (k : ℕ) (s : PatrolSession) : Prop where
  positions : s.boss.positions = c
  targets : s.targets = c.cycle 0 :: (List.range k).map c.cycle
  target : s.boss.targetPosition = c.cycle (k - 1)
  index : s.boss.currentPositionIndex =
    if k = 0 then (-1 : ℤ) else ((k - 1) % c.intermedatePos.length : ℕ)

variable {c} {s : PatrolSession} {a : PatrolAction} {k : ℕ}

theorem start_onCourse {isMoving : Bool} {e : StagedEnemy} {list : List CompletionTimeBonus} {time : ℚ}
    (hinit : ((PatrolBoss.prefab isMoving e list c).init time).thrown = none) (n : Int32) :
    OnCourse c 0 (start (.prefab isMoving e list c) time n) := by
  have hfirst : c.cycle 0 = (c.intermedatePos[0]?.getD (⟨0, 0⟩ : Vector2)).toVector3 := by
    rw [PositionContainer.cycle, Nat.zero_mod]
  simp only [start, PatrolBoss.init] at hinit ⊢
  cases ht : e.init.thrown with
  | some exn =>
    simp only [PatrolBoss.prefab, ht] at hinit
    cases hinit
  | none =>
    simp only [PatrolBoss.prefab, PatrolBoss.intermedatePos, ht, lt_irrefl, if_false, Int.toNat_zero]
      at hinit ⊢
    cases hp : c.intermedatePos[0]? with
    | none =>
      rw [hp] at hinit
      cases hinit
    | some p =>
      rw [hp] at hfirst
      have htarget : p.toVector3 = c.cycle 0 := hfirst.symm
      exact ⟨rfl, congrArg (fun v => [v]) htarget, htarget, rfl⟩

theorem OnCourse.stays (h : OnCourse c k s) (hr : s.Reaches a = false) :
    OnCourse c k (s.next moveTowards a) := by
  have hlog : (s.next moveTowards a).targets = s.targets := by
    rw [next_targets, hr, if_neg Bool.false_ne_true]
  have hsame : (act moveTowards s.boss a).positions = s.boss.positions ∧
      (act moveTowards s.boss a).targetPosition = s.boss.targetPosition ∧
      (act moveTowards s.boss a).currentPositionIndex = s.boss.currentPositionIndex := by
    cases a with
    | stage time a =>
      simp only [act, PatrolBoss.after, PatrolBoss.specialMoveHandeler]
      split_ifs
      all_goals exact ⟨rfl, rfl, rfl⟩
    | fixedUpdate deltaTime =>
      obtain ⟨position, hstate⟩ := PatrolBoss.fixedUpdate_away moveTowards deltaTime hr
      rw [act, hstate]
      exact ⟨rfl, rfl, rfl⟩
    | moveAgain => exact ⟨rfl, rfl, rfl⟩
  obtain ⟨hpositions, htarget, hindex⟩ := hsame
  exact ⟨hpositions.trans h.positions, hlog.trans h.targets, htarget.trans h.target,
    hindex.trans h.index⟩

theorem OnCourse.nextIndex (h : OnCourse c k s) (hc : c.Spread) :
    (if (c.intermedatePos.length : ℤ) ≤ s.boss.currentPositionIndex + 1 then 0
      else s.boss.currentPositionIndex + 1) = ((k % c.intermedatePos.length : ℕ) : ℤ) := by
  have htwo := hc.two
  rw [h.index]
  cases k with
  | zero => simp
  | succ k =>
    have hlt : k % c.intermedatePos.length < c.intermedatePos.length := Nat.mod_lt k (by omega)
    rw [if_neg (Nat.succ_ne_zero k), Nat.add_sub_cancel, ← Nat.mod_add_mod k]
    by_cases hlast : k % c.intermedatePos.length + 1 = c.intermedatePos.length
    · rw [hlast, Nat.mod_self, if_pos (by omega)]
      rfl
    · rw [Nat.mod_eq_of_lt (show k % c.intermedatePos.length + 1 < c.intermedatePos.length by omega),
        if_neg (by omega)]
      rfl

theorem OnCourse.arrives (h : OnCourse c k s) (hc : c.Spread) (hr : s.Reaches a = true) :
    OnCourse c (k + 1) (s.next moveTowards a) := by
  have hlt : k % c.intermedatePos.length < c.intermedatePos.length :=
    Nat.mod_lt k (lt_of_lt_of_le Nat.zero_lt_two hc.two)
  have hp : c.intermedatePos[k % c.intermedatePos.length]? =
      some c.intermedatePos[k % c.intermedatePos.length] := List.getElem?_eq_getElem hlt
  have hcycle : c.cycle k = (c.intermedatePos[k % c.intermedatePos.length]).toVector3 := by
    rw [PositionContainer.cycle, hp]
    rfl
  cases a with
  | fixedUpdate deltaTime =>
    have hindex := h.nextIndex hc
    rw [← h.positions] at hindex
    have hpoint : s.boss.intermedatePos (k % c.intermedatePos.length : ℕ) =
        some c.intermedatePos[k % c.intermedatePos.length] := by
      rw [PatrolBoss.intermedatePos, if_neg (Int.natCast_nonneg _).not_gt, Int.toNat_natCast, h.positions]
      exact hp
    have hact := PatrolBoss.fixedUpdate_reaches moveTowards deltaTime hr
      (hindex.trans (by rw [h.positions])) hpoint
    have htarget : (s.next moveTowards (.fixedUpdate deltaTime)).boss.targetPosition = c.cycle k := by
      rw [next_boss, act, hact, hcycle]
      rfl
    refine ⟨?_, ?_, htarget, ?_⟩
    · rw [next_boss, act, hact]
      exact h.positions
    · rw [next_targets, if_pos hr, htarget, h.targets, List.range_succ, List.map_append]
      rfl
    · rw [next_boss, act, hact]
      rfl
  | stage time a => cases hr
  | moveAgain => cases hr

theorem OnCourse.next (h : OnCourse c k s) (hc : c.Spread) :
    ∃ k, OnCourse c k (s.next moveTowards a) := by
  cases hr : s.Reaches a with
  | true => exact ⟨k + 1, h.arrives moveTowards hc hr⟩
  | false => exact ⟨k, h.stays moveTowards hr⟩

theorem OnCourse.patrols_iff (h : OnCourse c k s) (hc : c.Spread) :
    s.Patrols moveTowards c a ↔ s.HasReached a := by
  have htwo := hc.two
  apply forall_congr'
  intro hr
  have htarget := (h.arrives moveTowards hc hr).target
  rw [h.target, htarget, h.index]
  cases k with
  | zero =>
    apply iff_of_false
    · rintro ⟨i, hi, hsucc⟩
      rw [hc.cycle_eq_iff] at hi hsucc
      -- the first target would be its own successor
      have hone : (i + 1) % c.intermedatePos.length = 1 := by
        rw [← Nat.mod_add_mod i, ← hi, Nat.zero_mod, Nat.zero_add, Nat.mod_eq_of_lt htwo]
      rw [hone] at hsucc
      simp at hsucc
    · simp
  | succ k =>
    apply iff_of_true
    · exact ⟨k, rfl, rfl⟩
    · rw [if_neg (Nat.succ_ne_zero k)]
      omega

theorem OnCourse.length (h : OnCourse c k s) : s.targets.length = k + 1 := by
  rw [h.targets, List.length_cons, List.length_map, List.length_range]

theorem OnCourse.inTurn_iff (h : OnCourse c k s) (hc : c.Spread) :
    s.targets = (List.range s.targets.length).map c.cycle ↔ s.targets.length = 1 := by
  rw [h.length, h.targets]
  cases k with
  | zero => simp
  | succ k =>
    apply iff_of_false
    · intro heq
      rw [List.range_succ_eq_map, List.range_succ_eq_map] at heq
      have hsecond := congrArg (fun l => l[1]?) heq
      simp [hc.cycle_eq_iff, Nat.mod_eq_of_lt hc.two] at hsecond
    · omega

theorem length_le_run (s : PatrolSession) (as : List PatrolAction) :
    s.targets.length ≤ ((system moveTowards).run s as).targets.length := by
  induction as generalizing s with
  | nil => exact le_refl _
  | cons a as ih =>
    apply le_trans _ (ih (s.next moveTowards a))
    rw [next_targets]
    split_ifs
    · simp
    · exact le_refl _

theorem OnCourse.length_eq_one_iff (h : OnCourse c 0 s) (hc : c.Spread) (as : List PatrolAction) :
    ((system moveTowards).run s as).targets.length = 1 ↔
      (system moveTowards).Meets HasReached s as := by
  induction as generalizing s with
  | nil => exact iff_of_true h.length ((system moveTowards).meets_nil _ _)
  | cons a as ih =>
    rw [System.run_cons, System.meets_cons]
    cases hr : s.Reaches a with
    | true =>
      have hlength := (h.arrives moveTowards hc hr).length
      have hrun := length_le_run moveTowards (s.next moveTowards a) as
      apply iff_of_false
      · rw [hlength] at hrun
        exact (Nat.lt_of_lt_of_le Nat.one_lt_two hrun).ne'
      · rintro ⟨hreached, -⟩
        exact hreached hr h.index
    | false =>
      have hnone : s.HasReached a := fun htrue => absurd (hr.symm.trans htrue) Bool.false_ne_true
      rw [and_iff_right hnone]
      exact ih (h.stays moveTowards hr)

/-- `Init` sets the index apart from the target, so that the first target is given twice. -/
theorem patrol_iff {isMoving : Bool} {e : StagedEnemy} {list : List CompletionTimeBonus} {time : ℚ}
    (hc : c.Spread) (hinit : ((PatrolBoss.prefab isMoving e list c).init time).thrown = none) (n : Int32)
    {as : List PatrolAction}
    (hl : (system moveTowards).Legal (start (.prefab isMoving e list c) time n) as) :
    let s := start (.prefab isMoving e list c) time n
    let targets := ((system moveTowards).run s as).targets
    (targets = (List.range targets.length).map c.cycle ↔ (system moveTowards).Meets HasReached s as) ∧
      (system moveTowards).Meets (fun s a => s.Patrols moveTowards c a ↔ s.HasReached a) s as := by
  have hstart := start_onCourse hinit n
  have hstep : ∀ s a, (∃ k, OnCourse c k s) → (system moveTowards).enabled s a →
      ∃ k, OnCourse c k ((system moveTowards).next s a) := by
    rintro s a ⟨k, h⟩ -
    exact h.next moveTowards hc
  have hlaw : ∀ s a, (∃ k, OnCourse c k s) → (system moveTowards).enabled s a →
      (s.Patrols moveTowards c a ↔ s.HasReached a) := by
    rintro s a ⟨k, h⟩ -
    exact h.patrols_iff moveTowards hc
  obtain ⟨k, hend⟩ := System.invariant_legal hstep ⟨0, hstart⟩ hl
  exact ⟨(hend.inTurn_iff hc).trans (hstart.length_eq_one_iff moveTowards hc as),
    System.every_legal_step hstep hlaw ⟨0, hstart⟩ hl⟩

def square : PositionContainer := ⟨⟨0, 0⟩, ⟨0, 0⟩, [⟨0, 2⟩, ⟨-6, 2⟩]⟩

def nearby : PatrolBoss := .prefab true { dummy with position := ⟨1 / 4, 2, 0⟩ } [] square

theorem patrol_twoPoints :
    let s := start nearby 0 0
    let as := [.fixedUpdate (1 / 50), .moveAgain, .fixedUpdate (1 / 50), .fixedUpdate (1 / 50)]
    let targets := ((system alongAxis).run s as).targets
    (targets = (List.range targets.length).map square.cycle ↔
        (system alongAxis).Meets HasReached s as) ∧
      (system alongAxis).Meets (fun s a => s.Patrols alongAxis square a ↔ s.HasReached a) s as :=
  patrol_iff alongAxis (by decide +kernel) (by decide +kernel) 0 (by decide +kernel)

theorem firstTarget_repeated : ¬ ∀ (c : PositionContainer) isMoving e list time n as, c.Spread →
    ((PatrolBoss.prefab isMoving e list c).init time).thrown = none →
    (system alongAxis).Legal (start (.prefab isMoving e list c) time n) as →
    (system alongAxis).Meets (Patrols alongAxis c) (start (.prefab isMoving e list c) time n) as := by
  intro h
  have hc : square.Spread := by decide +kernel
  have hcourse : OnCourse square 0 (start nearby 0 0) := start_onCourse (by decide +kernel) 0
  have hpatrols := h square true { dummy with position := ⟨1 / 4, 2, 0⟩ } [] 0 0
    [.fixedUpdate (1 / 50)] hc (by decide +kernel) (by decide +kernel)
  obtain ⟨hfirst, -⟩ := ((system alongAxis).meets_cons _ _ _ []).mp hpatrols
  exact absurd ((hcourse.patrols_iff alongAxis hc).mp hfirst) (by decide +kernel)

end PatrolSession

end SeminarTouhou
