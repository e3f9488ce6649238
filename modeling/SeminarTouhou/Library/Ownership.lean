import Mathlib

namespace Library

variable {ι α : Type*}

/-- Every object is in at most one place, and there once. -/
def Exclusive (place : ι → List α) : Prop :=
  (∀ i, (place i).Nodup) ∧ ∀ ⦃i j x⦄, x ∈ place i → x ∈ place j → i = j

namespace Exclusive

variable {p q : ι → List α} {i j : ι} {l : List α} {x : α}

theorem nodup (h : Exclusive p) (i : ι) : (p i).Nodup := h.1 i

theorem same (h : Exclusive p) (hi : x ∈ p i) (hj : x ∈ p j) : i = j := h.2 hi hj

theorem empty : Exclusive (fun _ : ι => ([] : List α)) :=
  ⟨fun _ => List.nodup_nil, fun _ _ _ hi => absurd hi (List.not_mem_nil)⟩

theorem drop (h : Exclusive p) (hq : ∀ k, (q k).Subperm (p k)) : Exclusive q := by
  constructor
  · intro k
    obtain ⟨l, hl, hs⟩ := hq k
    exact hl.nodup_iff.mp (hs.nodup (h.nodup k))
  · intro k m x hk hm
    exact h.same ((hq k).subset hk) ((hq m).subset hm)

theorem add (h : Exclusive p) (hl : l.Nodup) (hfresh : ∀ k, ∀ x ∈ l, x ∉ p k)
    (hi : (q i).Perm (p i ++ l)) (ho : ∀ k, k ≠ i → (q k).Perm (p k)) : Exclusive q := by
  have hmem : ∀ {k x}, x ∈ q k → x ∈ p k ∨ k = i ∧ x ∈ l := by
    intro k x hx
    by_cases hk : k = i
    · subst hk
      exact (List.mem_append.mp (hi.mem_iff.mp hx)).imp_right (fun hx => ⟨rfl, hx⟩)
    · exact Or.inl ((ho k hk).mem_iff.mp hx)
  constructor
  · intro k
    by_cases hk : k = i
    · subst hk
      apply hi.nodup_iff.mpr
      apply List.Nodup.append (h.nodup k) hl
      intro x hx hxl
      exact hfresh k x hxl hx
    · exact (ho k hk).nodup_iff.mpr (h.nodup k)
  · intro k m x hk hm
    obtain hk | ⟨hki, hkl⟩ := hmem hk
    · obtain hm | ⟨-, hml⟩ := hmem hm
      · exact h.same hk hm
      · exact absurd hk (hfresh k x hml)
    · obtain hm | ⟨hmi, -⟩ := hmem hm
      · exact absurd hm (hfresh m x hkl)
      · rw [hki, hmi]

theorem transfer (h : Exclusive p) (hij : i ≠ j) (hi : (p i).Perm (l ++ q i))
    (hj : (q j).Perm (p j ++ l)) (ho : ∀ k, k ≠ i → k ≠ j → (q k).Perm (p k)) : Exclusive q := by
  classical
  -- what is left after the objects were taken out, before they are put in
  let r : ι → List α := fun k => if k = i then q i else p k
  have hl : ∀ {x}, x ∈ l → x ∈ p i := fun hx => hi.mem_iff.mpr (List.mem_append_left _ hx)
  have hn : (l ++ q i).Nodup := hi.nodup_iff.mp (h.nodup i)
  have hr : Exclusive r := by
    apply h.drop
    intro k
    by_cases hk : k = i
    · subst hk
      simp only [r, if_true]
      exact (List.sublist_append_right l (q k)).subperm.trans hi.symm.subperm
    · simp only [r, if_neg hk]
      exact List.Subperm.refl _
  apply hr.add (i := j) (l := l) hn.of_append_left
  · intro k x hx hk
    by_cases hki : k = i
    · subst hki
      simp only [r, if_true] at hk
      exact List.disjoint_of_nodup_append hn hx hk
    · simp only [r, if_neg hki] at hk
      exact hki (h.same hk (hl hx))
  · simpa only [r, if_neg hij.symm] using hj
  · intro k hk
    by_cases hki : k = i
    · subst hki
      simp only [r, if_true]
      exact List.Perm.refl _
    · simpa only [r, if_neg hki] using ho k hki hk

end Exclusive

end Library
