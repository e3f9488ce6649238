import Mathlib

namespace Library

variable {α ι κ : Type*} [LinearOrder κ]

section Place

variable (key : α → κ)

def Ranked (l : List α) : Prop := l.Pairwise (fun a b => key b ≤ key a)

def tier (k : κ) (l : List α) : List α := l.filter (fun a => key a = k)

/-- Put `a` in front of the first entry that it beats. -/
def place (a : α) (l : List α) : List α := l.orderedInsert (fun x y => key y < key x) a

def rank (l : List α) : List α := l.foldl (fun acc a => place key a acc) []

variable {key}

@[simp] theorem place_nil (a : α) : place key a [] = [a] := rfl

theorem place_cons_beaten {a b : α} (h : key b < key a) (l : List α) :
    place key a (b :: l) = a :: b :: l := List.orderedInsert_cons_of_le _ l h

theorem place_cons_unbeaten {a b : α} (h : ¬ key b < key a) (l : List α) :
    place key a (b :: l) = b :: place key a l := List.orderedInsert_of_not_le _ l h

theorem perm_place (a : α) (l : List α) : (place key a l).Perm (a :: l) :=
  List.perm_orderedInsert _ a l

theorem Ranked.place {l : List α} (h : Ranked key l) (a : α) : Ranked key (place key a l) := by
  induction l with
  | nil => exact List.pairwise_singleton _ a
  | cons b l ih =>
    obtain ⟨hb, hl⟩ := List.pairwise_cons.mp h
    by_cases hba : key b < key a
    · rw [place_cons_beaten hba]
      apply List.pairwise_cons.mpr
      refine ⟨?_, h⟩
      intro c hc
      obtain rfl | hc := List.mem_cons.mp hc
      · exact le_of_lt hba
      · exact (hb c hc).trans (le_of_lt hba)
    · rw [place_cons_unbeaten hba]
      apply List.pairwise_cons.mpr
      refine ⟨?_, ih hl⟩
      intro c hc
      obtain rfl | hc := List.mem_cons.mp ((perm_place a l).mem_iff.mp hc)
      · exact not_lt.mp hba
      · exact hb c hc

theorem tier_eq_nil {k : κ} {l : List α} (h : ∀ a ∈ l, key a < k) : tier key k l = [] := by
  apply List.filter_eq_nil_iff.mpr
  intro a ha
  simpa using (h a ha).ne

theorem tier_append (k : κ) (l m : List α) : tier key k (l ++ m) = tier key k l ++ tier key k m :=
  List.filter_append l m

theorem tier_cons (k : κ) (a : α) (l : List α) :
    tier key k (a :: l) = tier key k [a] ++ tier key k l := by
  rw [← tier_append, List.singleton_append]

/-- A placed entry comes last in its tier, and no other tier changes. -/
theorem tier_place {l : List α} (h : Ranked key l) (a : α) (k : κ) :
    tier key k (place key a l) = tier key k l ++ tier key k [a] := by
  induction l with
  | nil => rfl
  | cons b l ih =>
    obtain ⟨hb, hl⟩ := List.pairwise_cons.mp h
    by_cases hba : key b < key a
    · rw [place_cons_beaten hba, tier_cons]
      by_cases hk : key a = k
      · have hnil : tier key k (b :: l) = [] := by
          apply tier_eq_nil
          intro c hc
          obtain rfl | hc := List.mem_cons.mp hc
          · exact hk ▸ hba
          · exact hk ▸ (hb c hc).trans_lt hba
        rw [hnil, List.append_nil, List.nil_append]
      · have hnil : tier key k [a] = [] := by simp [tier, hk]
        rw [hnil, List.append_nil, List.nil_append]
    · rw [place_cons_unbeaten hba, tier_cons, ih hl, tier_cons k b l, List.append_assoc]

theorem rank_concat (l : List α) (a : α) : rank key (l ++ [a]) = place key a (rank key l) := by
  simp [rank]

variable (key) in
theorem rank_spec (l : List α) :
    Ranked key (rank key l) ∧ (rank key l).Perm l ∧ ∀ k, tier key k (rank key l) = tier key k l := by
  induction l using List.reverseRecOn with
  | nil => exact ⟨List.Pairwise.nil, List.Perm.refl _, fun k => rfl⟩
  | append_singleton l a ih =>
    obtain ⟨hr, hp, ht⟩ := ih
    rw [rank_concat]
    refine ⟨hr.place a, ?_, ?_⟩
    · calc (place key a (rank key l)).Perm (a :: rank key l) := perm_place a _
        _ |>.Perm (a :: l) := hp.cons a
        _ |>.Perm (l ++ [a]) := (List.perm_append_singleton a l).symm
    · intro k
      rw [tier_place hr, ht k, tier_append]

theorem Ranked.ext {l m : List α} (hl : Ranked key l) (hm : Ranked key m)
    (h : ∀ k, tier key k l = tier key k m) : l = m := by
  induction l generalizing m with
  | nil =>
    cases m with
    | nil => rfl
    | cons b m => simpa [tier] using h (key b)
  | cons a l ih =>
    cases m with
    | nil => simpa [tier] using h (key a)
    | cons b m =>
      obtain ⟨ha, hla⟩ := List.pairwise_cons.mp hl
      obtain ⟨hb, hmb⟩ := List.pairwise_cons.mp hm
      have hab : key a = key b := by
        have hmem : a ∈ tier key (key a) (b :: m) := by
          rw [← h]
          simp [tier]
        have hmem' : b ∈ tier key (key b) (a :: l) := by
          rw [h]
          simp [tier]
        have hle : key a ≤ key b := by
          obtain he | he := List.mem_cons.mp (List.mem_filter.mp hmem).1
          · rw [he]
          · exact hb a he
        have hge : key b ≤ key a := by
          obtain he | he := List.mem_cons.mp (List.mem_filter.mp hmem').1
          · rw [he]
          · exact ha b he
        exact le_antisymm hle hge
      have hk := h (key a)
      simp only [tier, List.filter_cons, hab, decide_true, if_true, List.cons.injEq] at hk
      obtain ⟨rfl, -⟩ := hk
      congr 1
      apply ih hla hmb
      intro k
      have hk := h k
      rw [tier_cons k a l, tier_cons k a m] at hk
      exact List.append_cancel_left hk

theorem rank_eq_iff {l m : List α} :
    rank key l = rank key m ↔ ∀ k, tier key k l = tier key k m := by
  obtain ⟨hl, -, htl⟩ := rank_spec key l
  obtain ⟨hm, -, htm⟩ := rank_spec key m
  constructor
  · intro h k
    rw [← htl, ← htm, h]
  · intro h
    apply hl.ext hm
    intro k
    rw [htl, htm, h]

theorem rank_keys {l m : List α} (h : l.Perm m) : (rank key l).map key = (rank key m).map key := by
  obtain ⟨hl, hpl, -⟩ := rank_spec key l
  obtain ⟨hm, hpm, -⟩ := rank_spec key m
  have hp : ((rank key l).map key).Perm ((rank key m).map key) :=
    ((hpl.trans h).trans hpm.symm).map key
  have hanti : ∀ a b, a ∈ (rank key l).map key → b ∈ (rank key m).map key → b ≤ a → a ≤ b → a = b :=
    fun a b _ _ hba hab => le_antisymm hab hba
  exact List.Perm.eq_of_pairwise hanti (List.pairwise_map.mpr hl) (List.pairwise_map.mpr hm) hp

theorem pairwise_of_tiers {S : α → α → Prop} {l : List α}
    (h : ∀ k, (tier key k l).Pairwise S) : l.Pairwise (fun a b => key a = key b → S a b) := by
  induction l with
  | nil => exact List.Pairwise.nil
  | cons a l ih =>
    apply List.pairwise_cons.mpr
    constructor
    · intro b hb he
      have ha := h (key a)
      simp only [tier, List.filter_cons, decide_true, if_true] at ha
      apply (List.pairwise_cons.mp ha).1
      exact List.mem_filter.mpr ⟨hb, by simp [he]⟩
    · apply ih
      intro k
      have hk := h k
      rw [tier_cons] at hk
      exact (List.pairwise_append.mp hk).2.1

end Place

section Firsts

variable [DecidableEq ι] (name : α → ι)

def firsts : List α → List α
  | [] => []
  | a :: l => a :: (firsts l).filter (fun b => name b ≠ name a)

variable {name}

theorem mem_firsts {l : List α} {a : α} :
    a ∈ firsts name l ↔ l.find? (fun b => name b = name a) = some a := by
  induction l with
  | nil => simp [firsts]
  | cons b l ih =>
    by_cases h : name b = name a
    · rw [firsts, List.find?_cons_of_pos (by simpa using h), Option.some.injEq, List.mem_cons,
        List.mem_filter]
      constructor
      · rintro (rfl | ⟨-, hne⟩)
        · rfl
        · simp [h] at hne
      · rintro rfl
        exact Or.inl rfl
    · rw [firsts, List.find?_cons_of_neg (by simpa using h), ← ih, List.mem_cons, List.mem_filter]
      constructor
      · rintro (rfl | ⟨ha, -⟩)
        · exact absurd rfl h
        · exact ha
      · intro ha
        exact Or.inr ⟨ha, by simpa using Ne.symm h⟩

theorem name_mem_firsts {l : List α} {i : ι} :
    i ∈ (firsts name l).map name ↔ i ∈ l.map name := by
  induction l with
  | nil => rfl
  | cons b l ih =>
    simp only [firsts, List.map_cons, List.mem_cons]
    apply or_congr_right'
    intro hi
    rw [← ih]
    constructor
    · intro h
      obtain ⟨a, ha, rfl⟩ := List.mem_map.mp h
      exact List.mem_map_of_mem (List.mem_filter.mp ha).1
    · intro h
      obtain ⟨a, ha, rfl⟩ := List.mem_map.mp h
      exact List.mem_map_of_mem (List.mem_filter.mpr ⟨ha, by simpa using hi⟩)

theorem firsts_pairwise (l : List α) : (firsts name l).Pairwise (fun a b =>
    l.findIdx (fun c => name c = name a) < l.findIdx (fun c => name c = name b)) := by
  induction l with
  | nil => exact List.Pairwise.nil
  | cons b l ih =>
    have hother {a : α} (ha : a ∈ (firsts name l).filter (fun c => name c ≠ name b)) :
        (b :: l).findIdx (fun c => name c = name a) = l.findIdx (fun c => name c = name a) + 1 := by
      have hne : name b ≠ name a := by simpa using Ne.symm (of_decide_eq_true (List.mem_filter.mp ha).2)
      simp [List.findIdx_cons, hne]
    apply List.pairwise_cons.mpr
    constructor
    · intro a ha
      rw [hother ha]
      simp [List.findIdx_cons]
    · apply (ih.filter _).imp_of_mem
      intro a c ha hc h
      rw [hother ha, hother hc]
      omega

theorem firsts_nodup (l : List α) : ((firsts name l).map name).Nodup := by
  apply List.pairwise_map.mpr
  apply (firsts_pairwise l).imp
  intro a b h he
  rw [he] at h
  exact lt_irrefl _ h

theorem firsts_concat (l : List α) (a : α) : firsts name (l ++ [a]) =
    if name a ∈ l.map name then firsts name l else firsts name l ++ [a] := by
  induction l with
  | nil => rfl
  | cons b l ih =>
    simp only [List.cons_append, firsts, ih, List.map_cons, List.mem_cons]
    by_cases hl : name a ∈ l.map name
    · rw [if_pos hl, if_pos (Or.inr hl)]
    · rw [if_neg hl, List.filter_append]
      by_cases hb : name a = name b
      · rw [if_pos (Or.inl hb), List.filter_cons_of_neg (by simp [hb])]
        simp
      · rw [if_neg (not_or.mpr ⟨hb, hl⟩), List.filter_cons_of_pos (by simp [hb])]
        rfl

theorem firsts_of_nodup {l : List α} (h : (l.map name).Nodup) : firsts name l = l := by
  induction l with
  | nil => rfl
  | cons a l ih =>
    obtain ⟨ha, hl⟩ := List.nodup_cons.mp h
    rw [firsts, ih hl, List.filter_eq_self.mpr]
    intro b hb
    simp only [ne_eq, decide_eq_true_eq]
    intro he
    exact ha (he ▸ List.mem_map_of_mem hb)

end Firsts

end Library
