import SeminarTouhou.Library.System

namespace Library

variable {σ α τ : Type*} [AddCommGroup τ]

def duration (time : α → τ) (as : List α) : τ := (as.map time).sum

@[simp] theorem duration_nil (time : α → τ) : duration time [] = 0 := rfl

@[simp] theorem duration_cons (time : α → τ) (a : α) (as : List α) :
    duration time (a :: as) = time a + duration time as := rfl

namespace System

variable [LinearOrder τ]

/-- While `event` does not happen, `left` falls by no more than the time that passes, and `event`
happens only when nothing is left. -/
structure Countdown (M : System σ α) (time : α → τ) (ok event : σ → α → Prop) (I : σ → Prop)
    (left : σ → τ) : Prop where
  passes : ∀ s a, M.enabled s a → 0 ≤ time a
  keeps : ∀ s a, I s → M.enabled s a → ok s a → I (M.next s a)
  runs : ∀ s a, I s → M.enabled s a → ok s a → ¬ event s a → left s ≤ time a + left (M.next s a)
  fires : ∀ s a, I s → M.enabled s a → ok s a → event s a → left s ≤ 0

variable [IsOrderedAddMonoid τ] {M : System σ α} {time : α → τ} {ok event : σ → α → Prop}
  {I : σ → Prop} {left : σ → τ}

theorem Countdown.duration_nonneg (h : M.Countdown time ok event I left) {s : σ} {as : List α}
    (hl : M.Legal s as) : 0 ≤ duration time as := by
  induction as generalizing s with
  | nil => exact le_refl 0
  | cons a as ih =>
    obtain ⟨he, hl⟩ := (M.legal_cons s a as).mp hl
    exact add_nonneg (h.passes s a he) (ih hl)

/-- The event does not happen, at any later step, before the time that is left has passed. -/
theorem Countdown.spaced (h : M.Countdown time ok event I left) {s : σ} {as : List α} {a : α}
    (hs : I s) (hl : M.Legal s (as ++ [a])) (hok : M.Meets ok s (as ++ [a]))
    (he : event (M.run s as) a) : left s ≤ duration time as := by
  induction as generalizing s with
  | nil =>
    obtain ⟨ha, -⟩ := (M.legal_cons s a []).mp hl
    obtain ⟨hoka, -⟩ := (M.meets_cons ok s a []).mp hok
    exact h.fires s a hs ha hoka he
  | cons b as ih =>
    obtain ⟨hb, hlater⟩ := (M.legal_cons s b _).mp hl
    obtain ⟨hokb, hok⟩ := (M.meets_cons ok s b _).mp hok
    by_cases hev : event s b
    · have hlegal := ((M.meets_append M.enabled s (b :: as) [a]).mp hl).1
      exact (h.fires s b hs hb hokb hev).trans (h.duration_nonneg hlegal)
    · have hrest := ih (h.keeps s b hs hb hokb) hlater hok he
      exact (h.runs s b hs hb hokb hev).trans (add_le_add_right hrest (time b))

end System

end Library
