import SeminarTouhou.Library.System

namespace Library

variable {κ μ : Type*} [DecidableEq κ]

/-- The messages of channel `c`, oldest first, out of those in flight on all channels. -/
def channel (c : κ) (l : List (κ × μ)) : List μ := (l.filter (fun e => e.1 = c)).map Prod.snd

theorem channel_append (c : κ) (l m : List (κ × μ)) :
    channel c (l ++ m) = channel c l ++ channel c m := by
  simp only [channel, List.filter_append, List.map_append]

theorem channel_cons_self (c : κ) (x : μ) (l : List (κ × μ)) :
    channel c ((c, x) :: l) = x :: channel c l := by
  simp [channel]

theorem channel_cons_ne {c d : κ} (h : d ≠ c) (x : μ) (l : List (κ × μ)) :
    channel c ((d, x) :: l) = channel c l := by
  simp [channel, h]

theorem mem_channel {c : κ} {x : μ} {l : List (κ × μ)} : x ∈ channel c l ↔ (c, x) ∈ l := by
  simp only [channel, List.mem_map, List.mem_filter, decide_eq_true_eq]
  constructor
  · rintro ⟨⟨d, y⟩, ⟨hm, rfl⟩, rfl⟩
    exact hm
  · intro h
    exact ⟨(c, x), ⟨h, rfl⟩, rfl⟩

theorem channel_map_const (c : κ) (x : μ) (cs : List κ) :
    channel c (cs.map (fun d => (d, x))) = List.replicate (cs.count c) x := by
  induction cs with
  | nil => rfl
  | cons d cs ih =>
    by_cases h : d = c
    · subst h
      rw [List.map_cons, channel_cons_self, ih, List.count_cons_self, List.replicate_succ]
    · rw [List.map_cons, channel_cons_ne h, ih, List.count_cons_of_ne h]

theorem channel_eq_nil {c : κ} {l : List (κ × μ)} : channel c l = [] ↔ ∀ e ∈ l, e.1 ≠ c := by
  simp [channel]

variable [DecidableEq μ]

theorem channel_erase_ne {c d : κ} (h : d ≠ c) (x : μ) (l : List (κ × μ)) :
    channel c (l.erase (d, x)) = channel c l := by
  induction l with
  | nil => rfl
  | cons e l ih =>
    by_cases he : e = (d, x)
    · subst he
      rw [List.erase_cons_head, channel_cons_ne h]
    · rw [List.erase_cons_tail (by simpa using he)]
      obtain ⟨b, y⟩ := e
      by_cases hb : b = c
      · subst hb
        rw [channel_cons_self, channel_cons_self, ih]
      · rw [channel_cons_ne hb, channel_cons_ne hb, ih]

theorem channel_erase_self (c : κ) (x : μ) (l : List (κ × μ)) :
    channel c (l.erase (c, x)) = (channel c l).erase x := by
  induction l with
  | nil => rfl
  | cons e l ih =>
    obtain ⟨b, y⟩ := e
    by_cases hb : b = c
    · subst hb
      rw [channel_cons_self]
      by_cases hy : y = x
      · subst hy
        rw [List.erase_cons_head, List.erase_cons_head]
      · rw [List.erase_cons_tail (by simpa using hy), List.erase_cons_tail (by simpa using hy),
          channel_cons_self, ih]
    · rw [List.erase_cons_tail (by simp [hb]), channel_cons_ne hb, channel_cons_ne hb, ih]

theorem channel_erase_head {c : κ} {x : μ} {l : List (κ × μ)} {q : List μ}
    (h : channel c l = x :: q) : channel c (l.erase (c, x)) = q := by
  rw [channel_erase_self, h, List.erase_cons_head]

end Library
