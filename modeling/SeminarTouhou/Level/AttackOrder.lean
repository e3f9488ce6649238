import SeminarTouhou.Level.Sequencer

namespace SeminarTouhou

namespace Sequencer

def ask (s : Sequencer) : Sequencer := s.getNextAttackEmmiter.2

def answer (k : ℕ) (s : Sequencer) : Option AttackData := (ask^[k] s).getNextAttackEmmiter.1

def atIndex (i : ℕ) (s : Sequencer) : Sequencer := { s with currentAttackIndex := i }

variable {s : Sequencer}

@[simp] theorem atIndex_attacks (i : ℕ) (s : Sequencer) : (s.atIndex i).attacks = s.attacks := rfl
@[simp] theorem atIndex_loop (i : ℕ) (s : Sequencer) : (s.atIndex i).shouldLoop = s.shouldLoop := rfl
@[simp] theorem atIndex_index (i : ℕ) (s : Sequencer) : (s.atIndex i).currentAttackIndex = i := rfl

theorem next_within (h : s.currentAttackIndex < s.attacks.length) :
    s.getNextAttackEmmiter =
      (s.attacks[s.currentAttackIndex]?, s.atIndex (s.currentAttackIndex + 1)) := by
  rw [getNextAttackEmmiter, if_neg (not_le.mpr h)]
  rfl

theorem next_wrap (h : s.attacks.length ≤ s.currentAttackIndex) (hl : s.shouldLoop = true)
    (ha : s.attacks ≠ []) : s.getNextAttackEmmiter = (s.attacks[0]?, s.atIndex 0) := by
  have hcond : (s.shouldLoop && !s.attacks.isEmpty) = true := by simp [hl, ha]
  rw [getNextAttackEmmiter, if_pos h, if_pos hcond]
  rfl

theorem next_end (h : s.attacks.length ≤ s.currentAttackIndex) (hl : s.shouldLoop = false) :
    s.getNextAttackEmmiter = (none, s) := by
  rw [getNextAttackEmmiter, if_pos h, hl]
  rfl

theorem ask_within {k : ℕ} (h : s.currentAttackIndex + k ≤ s.attacks.length) :
    ask^[k] s = s.atIndex (s.currentAttackIndex + k) := by
  induction k with
  | zero => rfl
  | succ k ih =>
    rw [Function.iterate_succ_apply', ih (by omega), ask, next_within (by dsimp; omega)]
    rfl

theorem answer_within {k : ℕ} (h : s.currentAttackIndex + k < s.attacks.length) :
    s.answer k = s.attacks[s.currentAttackIndex + k]? := by
  rw [answer, ask_within h.le, next_within h]
  rfl

theorem answer_end (hl : s.shouldLoop = false) {k : ℕ}
    (h : s.attacks.length ≤ s.currentAttackIndex + k) : s.answer k = none := by
  have hend (i : ℕ) (hi : s.attacks.length ≤ i) : (s.atIndex i).ask = s.atIndex i := by
    have h := next_end (s := s.atIndex i) hi hl
    rw [ask, h]
  have hstay (i : ℕ) (hi : s.attacks.length ≤ i) (m : ℕ) : ask^[m] (s.atIndex i) = s.atIndex i :=
    Function.iterate_fixed (hend i hi) m
  rcases le_total s.attacks.length s.currentAttackIndex with hi | hi
  · have hk := hstay s.currentAttackIndex hi k
    rw [show s.atIndex s.currentAttackIndex = s from rfl] at hk
    rw [answer, hk, next_end hi hl]
  · obtain ⟨m, rfl⟩ := Nat.exists_eq_add_of_le' (show s.attacks.length - s.currentAttackIndex ≤ k by omega)
    have hfirst : ask^[s.attacks.length - s.currentAttackIndex] s = s.atIndex s.attacks.length := by
      rw [ask_within (by omega), Nat.add_sub_of_le hi]
    rw [answer, Function.iterate_add_apply, hfirst, hstay _ (le_refl _)]
    have h := next_end (s := s.atIndex s.attacks.length) (le_refl _) hl
    rw [h]

theorem answer_loop (hl : s.shouldLoop = true) (ha : s.attacks ≠ []) {k : ℕ}
    (hk : k < s.attacks.length - s.currentAttackIndex + 1 + s.attacks.length) :
    s.answer k =
      (s.attacks.drop s.currentAttackIndex ++ (s.attacks.take 1 ++ s.attacks))[k]? := by
  have hpos := List.length_pos_iff.mpr ha
  have hone : (s.attacks.take 1).length = 1 := by
    rw [List.length_take]
    omega
  by_cases hrest : k < s.attacks.length - s.currentAttackIndex
  · rw [answer_within (by omega), List.getElem?_append_left (by rwa [List.length_drop]),
      List.getElem?_drop]
  · obtain ⟨m, rfl⟩ := Nat.exists_eq_add_of_le (not_lt.mp hrest)
    have hend : ask^[s.attacks.length - s.currentAttackIndex] s =
        s.atIndex (max s.attacks.length s.currentAttackIndex) := by
      rcases le_total s.attacks.length s.currentAttackIndex with hi | hi
      · rw [Nat.sub_eq_zero_of_le hi, max_eq_right hi]
        rfl
      · rw [ask_within (by omega), Nat.add_sub_of_le hi, max_eq_left hi]
    have hwrap := next_wrap (s := s.atIndex (max s.attacks.length s.currentAttackIndex))
      (le_max_left _ _) hl ha
    rw [List.getElem?_append_right (by rw [List.length_drop]; omega), List.length_drop,
      Nat.add_sub_cancel_left]
    cases m with
    | zero =>
      rw [List.getElem?_append_left (by omega), List.getElem?_take_of_lt Nat.one_pos, answer,
        Nat.add_zero, hend, hwrap]
      rfl
    | succ j =>
      have hj : (s.atIndex 0).answer j = s.attacks[j]? := by
        rw [answer_within (by dsimp; omega)]
        simp
      rw [List.getElem?_append_right (by omega), hone, Nat.add_sub_cancel, ← hj, answer,
        Nat.add_comm, Function.iterate_add_apply, hend, Function.iterate_succ_apply, ask, hwrap]
      rfl

/-- The `k`-th call returns attack `k`, of the list over and over or of the list once. -/
def CyclesFairly (s : Sequencer) : Prop :=
  ∀ k, s.answer k = if s.shouldLoop then s.attacks[k % s.attacks.length]? else s.attacks[k]?

theorem answer_mem (hl : s.shouldLoop = true) (ha : s.attacks ≠ []) (k : ℕ) :
    ∃ a ∈ s.attacks, s.answer k = some a := by
  have hsame : (ask^[k] s).attacks = s.attacks ∧ (ask^[k] s).shouldLoop = true := by
    induction k with
    | zero => exact ⟨rfl, hl⟩
    | succ k ih =>
      rw [Function.iterate_succ_apply', ask]
      rcases lt_or_ge (ask^[k] s).currentAttackIndex (ask^[k] s).attacks.length with hi | hi
      · rw [next_within hi]
        exact ih
      · rw [next_wrap hi ih.2 (ih.1 ▸ ha)]
        exact ih
  rw [answer]
  rcases lt_or_ge (ask^[k] s).currentAttackIndex (ask^[k] s).attacks.length with hi | hi
  · rw [next_within hi]
    exact ⟨_, hsame.1 ▸ List.getElem_mem hi, List.getElem?_eq_getElem hi⟩
  · have hpos := List.length_pos_iff.mpr ha
    rw [next_wrap hi hsame.2 (hsame.1 ▸ ha)]
    exact ⟨_, List.getElem_mem hpos, by simp only [hsame.1, List.getElem?_eq_getElem hpos]⟩

/-- The second pass starts with the first attack twice, which nobody notices only where all
attacks are the same. -/
theorem cycles_fairly_iff (h0 : s.currentAttackIndex = 0) (ha : s.attacks ≠ []) :
    s.CyclesFairly ↔ s.shouldLoop = false ∨ ∀ a ∈ s.attacks, s.attacks.head? = some a := by
  have hpos := List.length_pos_iff.mpr ha
  cases hl : s.shouldLoop with
  | false =>
    refine iff_of_true ?_ (Or.inl rfl)
    intro k
    rw [hl, if_neg Bool.false_ne_true]
    rcases lt_or_ge k s.attacks.length with hk | hk
    · rw [answer_within (by omega), h0, Nat.zero_add]
    · rw [answer_end hl (by omega), List.getElem?_eq_none hk]
  | true =>
    simp only [CyclesFairly, hl, if_true, Bool.true_eq_false, false_or]
    constructor
    · intro h
      have hstep (j : ℕ) (hj : j + 1 < s.attacks.length) :
          s.attacks[j + 1]? = s.attacks[j]? := by
        have hlate := h (s.attacks.length + 1 + j)
        rw [answer_loop hl ha (by omega), h0, List.drop_zero,
          List.getElem?_append_right (by omega),
          List.getElem?_append_right (by rw [List.length_take]; omega), List.length_take] at hlate
        have hindex : s.attacks.length + 1 + j - s.attacks.length - min 1 s.attacks.length = j := by
          omega
        have hmod : (s.attacks.length + 1 + j) % s.attacks.length = j + 1 := by
          rw [Nat.add_assoc, Nat.add_mod_left, Nat.mod_eq_of_lt (by omega), Nat.add_comm]
        rw [hindex, hmod] at hlate
        exact hlate.symm
      have hall (j : ℕ) (hj : j < s.attacks.length) : s.attacks[j]? = s.attacks[0]? := by
        induction j with
        | zero => rfl
        | succ j ih => rw [hstep j hj, ih (by omega)]
      intro a hm
      obtain ⟨j, hj, rfl⟩ := List.getElem_of_mem hm
      rw [List.head?_eq_getElem?, ← hall j hj, List.getElem?_eq_getElem hj]
    · intro h k
      obtain ⟨a, hm, hk⟩ := answer_mem hl ha k
      have hlt := Nat.mod_lt k hpos
      rw [hk, List.getElem?_eq_getElem hlt, ← h a hm, ← h _ (List.getElem_mem hlt)]

theorem cycles_fairly_onePass :
    (new [⟨false, 0, 0⟩, ⟨true, 2, 1⟩, ⟨false, 0, 0⟩] false).CyclesFairly :=
  (cycles_fairly_iff rfl (by decide)).mpr (Or.inl rfl)

theorem secondPass_repeatsFirst : ¬ ∀ s : Sequencer, s.currentAttackIndex = 0 → s.attacks ≠ [] →
    s.CyclesFairly := by
  intro h
  have h3 := h (new [⟨false, 0, 0⟩, ⟨false, 0, 1⟩] true) rfl (by decide) 3
  exact absurd h3 (by decide)

end Sequencer

end SeminarTouhou
