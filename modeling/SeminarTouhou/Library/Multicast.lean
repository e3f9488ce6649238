import Mathlib

namespace Library

variable {κ η : Type*} [DecidableEq κ] [BEq η] [LawfulBEq η]

/-- The handlers of each event, in the order in which they are called. -/
abbrev Multicast (κ η : Type*) := κ → List η

namespace Multicast

def add (l : Multicast κ η) (p : κ × η) : Multicast κ η := Function.update l p.1 (l p.1 ++ [p.2])

/-- The last occurrence of the handler goes. -/
def remove (l : Multicast κ η) (p : κ × η) : Multicast κ η :=
  Function.update l p.1 ((l p.1).reverse.erase p.2).reverse

def addAll (l : Multicast κ η) (ps : List (κ × η)) : Multicast κ η := ps.foldl add l

def removeAll (l : Multicast κ η) (ps : List (κ × η)) : Multicast κ η := ps.foldl remove l

theorem count_add (l : Multicast κ η) (p : κ × η) (k : κ) (h : η) :
    (l.add p k).count h = (l k).count h + [p].count (k, h) := by
  obtain ⟨j, g⟩ := p
  by_cases hk : k = j
  · subst hk
    by_cases hg : g = h <;> simp [add, hg]
  · have hne : (j, g) ≠ (k, h) := fun he => hk (congrArg Prod.fst he).symm
    simp [add, hk, hne]

theorem count_remove (l : Multicast κ η) (p : κ × η) (k : κ) (h : η) :
    (l.remove p k).count h = (l k).count h - [p].count (k, h) := by
  obtain ⟨j, g⟩ := p
  by_cases hk : k = j
  · subst hk
    by_cases hg : g = h
    · subst hg
      simp [remove, List.count_erase_self]
    · have hne : h ≠ g := fun he => hg he.symm
      simp [remove, List.count_erase_of_ne hne, hg]
  · have hne : (j, g) ≠ (k, h) := fun he => hk (congrArg Prod.fst he).symm
    simp [remove, hk, hne]

theorem count_addAll (l : Multicast κ η) (ps : List (κ × η)) (k : κ) (h : η) :
    (l.addAll ps k).count h = (l k).count h + ps.count (k, h) := by
  induction ps generalizing l with
  | nil => rfl
  | cons p ps ih =>
    have hp := count_add l p k h
    have hps : (p :: ps).count (k, h) = [p].count (k, h) + ps.count (k, h) := by
      rw [← List.count_append, List.singleton_append]
    have hrest := ih (l.add p)
    change ((l.add p).addAll ps k).count h = _
    omega

theorem count_removeAll (l : Multicast κ η) (ps : List (κ × η)) (k : κ) (h : η) :
    (l.removeAll ps k).count h = (l k).count h - ps.count (k, h) := by
  induction ps generalizing l with
  | nil => rfl
  | cons p ps ih =>
    have hp := count_remove l p k h
    have hps : (p :: ps).count (k, h) = [p].count (k, h) + ps.count (k, h) := by
      rw [← List.count_append, List.singleton_append]
    have hrest := ih (l.remove p)
    change ((l.remove p).removeAll ps k).count h = _
    omega

section Own

variable {ι μ : Type*} [BEq ι] [LawfulBEq ι] [BEq μ] [LawfulBEq μ]

def own (x : ι) (ps : List (κ × μ)) : List (κ × ι × μ) := ps.map (fun p => (p.1, x, p.2))

theorem count_own (x : ι) (ps : List (κ × μ)) (k : κ) (m : μ) :
    (own x ps).count (k, x, m) = ps.count (k, m) := by
  refine List.count_map_of_injective ps (fun p : κ × μ => (p.1, x, p.2)) ?_ (k, m)
  intro p q he
  obtain ⟨hk, hm⟩ := Prod.mk.inj he
  exact Prod.ext hk (Prod.mk.inj hm).2

theorem count_own_ne {x y : ι} (h : y ≠ x) (ps : List (κ × μ)) (k : κ) (m : μ) :
    (own x ps).count (k, y, m) = 0 := by
  refine List.count_eq_zero.mpr ?_
  intro hmem
  obtain ⟨p, -, hp⟩ := List.mem_map.mp hmem
  exact h (congrArg (fun q => q.2.1) hp).symm

end Own

end Multicast

end Library
