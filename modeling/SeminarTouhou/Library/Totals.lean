import SeminarTouhou.Library.System

namespace Library

variable {σ α : Type*}

namespace System

variable (M : System σ α)

/-- What the steps of a run come to, when `w` says what one step comes to. -/
def total (w : σ → α → ℕ) (s : σ) (as : List α) : ℕ := ((M.steps s as).map (fun p => w p.1 p.2)).sum

@[simp] theorem total_nil (w : σ → α → ℕ) (s : σ) : M.total w s [] = 0 := rfl

@[simp] theorem total_cons (w : σ → α → ℕ) (s : σ) (a : α) (as : List α) :
    M.total w s (a :: as) = w s a + M.total w (M.next s a) as := by
  simp [total]

variable {M} {I : σ → Prop} {w v : σ → α → ℕ} {s : σ} {as : List α}

theorem total_add : M.total (fun s a => w s a + v s a) s as = M.total w s as + M.total v s as := by
  induction as generalizing s with
  | nil => rfl
  | cons a as ih =>
    rw [total_cons, total_cons, total_cons, ih]
    omega

theorem total_mono (hkeep : ∀ s a, I s → M.enabled s a → I (M.next s a))
    (hstep : ∀ s a, I s → M.enabled s a → w s a ≤ v s a) (hs : I s) (hl : M.Legal s as) :
    M.total w s as ≤ M.total v s as := by
  induction as generalizing s with
  | nil => exact le_refl 0
  | cons a as ih =>
    obtain ⟨he, hl⟩ := (M.legal_cons s a as).mp hl
    rw [total_cons, total_cons]
    exact Nat.add_le_add (hstep s a hs he) (ih (hkeep s a hs he) hl)

theorem total_eq_zero (hkeep : ∀ s a, I s → M.enabled s a → I (M.next s a))
    (hstep : ∀ s a, I s → M.enabled s a → w s a = 0) (hs : I s) (hl : M.Legal s as) :
    M.total w s as = 0 := by
  have hle := total_mono (v := fun _ _ => 0) hkeep (fun s a hi he => (hstep s a hi he).le) hs hl
  have hzero : M.total (fun _ _ => 0) s as = 0 := by simp [total]
  omega

/-- What can only be spent while `isOpen`, at most one at a time, and closes with that, is spent once. -/
theorem total_le_one (isOpen : σ → Prop) (hkeep : ∀ s a, I s → M.enabled s a → I (M.next s a))
    (hopen : ∀ s a, I s → M.enabled s a → isOpen (M.next s a) → isOpen s)
    (hspent : ∀ s a, I s → M.enabled s a → 0 < w s a → isOpen s ∧ ¬ isOpen (M.next s a))
    (hone : ∀ s a, I s → M.enabled s a → w s a ≤ 1) (hs : I s) (hl : M.Legal s as) :
    M.total w s as ≤ 1 := by
  have hclosed : ∀ (as : List α) (s : σ), I s → ¬ isOpen s → M.Legal s as → M.total w s as = 0 := by
    intro as
    induction as with
    | nil => exact fun _ _ _ _ => rfl
    | cons a as ih =>
      intro s hs hc hl
      obtain ⟨he, hl⟩ := (M.legal_cons s a as).mp hl
      have hstep : ¬ 0 < w s a := fun hpos => hc (hspent s a hs he hpos).1
      have hrest := ih _ (hkeep s a hs he) (fun ho => hc (hopen s a hs he ho)) hl
      rw [total_cons, hrest]
      omega
  induction as generalizing s with
  | nil => exact Nat.zero_le 1
  | cons a as ih =>
    obtain ⟨he, hl⟩ := (M.legal_cons s a as).mp hl
    rw [total_cons]
    by_cases hpos : 0 < w s a
    · have hrest := hclosed as _ (hkeep s a hs he) (hspent s a hs he hpos).2 hl
      have hle := hone s a hs he
      omega
    · have hrest := ih (hkeep s a hs he) hl
      omega

/-- Nothing more goes out of a store than was in it or came in. -/
theorem total_flow (stock : σ → ℕ) (hkeep : ∀ s a, I s → M.enabled s a → I (M.next s a))
    (hstep : ∀ s a, I s → M.enabled s a → stock (M.next s a) + w s a ≤ stock s + v s a)
    (hs : I s) (hl : M.Legal s as) :
    stock (M.run s as) + M.total w s as ≤ stock s + M.total v s as := by
  induction as generalizing s with
  | nil => exact le_refl _
  | cons a as ih =>
    obtain ⟨he, hl⟩ := (M.legal_cons s a as).mp hl
    have hfirst := hstep s a hs he
    have hrest := ih (hkeep s a hs he) hl
    rw [total_cons, total_cons, run_cons]
    omega

/-- While `P` lasts, a rank that no step raises and each tick lowers bounds the ticks. -/
theorem countP_add_rank_le {I P : σ → Prop} {r : σ → ℕ} (tick : α → Bool)
    (hkeep : ∀ s a, I s → M.enabled s a → I (M.next s a))
    (hback : ∀ s a, I s → M.enabled s a → P (M.next s a) → P s)
    (hstep : ∀ s a, I s → M.enabled s a → P (M.next s a) → r (M.next s a) + (tick a).toNat ≤ r s)
    (hs : I s) (hl : M.Legal s as) (hP : P (M.run s as)) :
    P s ∧ r (M.run s as) + as.countP tick ≤ r s := by
  induction as generalizing s with
  | nil => exact ⟨hP, le_refl _⟩
  | cons a as ih =>
    obtain ⟨he, hl⟩ := (M.legal_cons s a as).mp hl
    obtain ⟨hPnext, hrest⟩ := ih (hkeep s a hs he) hl hP
    have hfirst := hstep s a hs he hPnext
    refine ⟨hback s a hs he hPnext, ?_⟩
    rw [run_cons, List.countP_cons]
    rw [Bool.toNat, Bool.cond_eq_ite] at hfirst
    omega

end System

end Library
