import Mathlib

namespace Library

variable {σ α : Type*}

/-- A guarded transition system whose labels resolve every choice: `enabled` says which labels may
occur in a state and `next` what they do. -/
structure System (σ α : Type*) where
  enabled : σ → α → Prop
  next : σ → α → σ

namespace System

variable (M : System σ α)

def steps : σ → List α → List (σ × α)
  | _, [] => []
  | s, a :: as => (s, a) :: steps (M.next s a) as

def run (s : σ) (as : List α) : σ := as.foldl M.next s

def Meets (ok : σ → α → Prop) (s : σ) (as : List α) : Prop := ∀ p ∈ M.steps s as, ok p.1 p.2

def Legal (s : σ) (as : List α) : Prop := M.Meets M.enabled s as

instance (ok : σ → α → Prop) [∀ s a, Decidable (ok s a)] (s : σ) (as : List α) :
    Decidable (M.Meets ok s as) :=
  inferInstanceAs (Decidable (∀ p ∈ M.steps s as, ok p.1 p.2))

instance [∀ s a, Decidable (M.enabled s a)] (s : σ) (as : List α) : Decidable (M.Legal s as) :=
  inferInstanceAs (Decidable (M.Meets M.enabled s as))

@[simp] theorem run_nil (s : σ) : M.run s [] = s := rfl

@[simp] theorem run_cons (s : σ) (a : α) (as : List α) :
    M.run s (a :: as) = M.run (M.next s a) as := rfl

@[simp] theorem steps_cons (s : σ) (a : α) (as : List α) :
    M.steps s (a :: as) = (s, a) :: M.steps (M.next s a) as := rfl

@[simp] theorem meets_nil (ok : σ → α → Prop) (s : σ) : M.Meets ok s [] := by
  simp [Meets, steps]

@[simp] theorem meets_cons (ok : σ → α → Prop) (s : σ) (a : α) (as : List α) :
    M.Meets ok s (a :: as) ↔ ok s a ∧ M.Meets ok (M.next s a) as := by
  simp [Meets]

@[simp] theorem legal_cons (s : σ) (a : α) (as : List α) :
    M.Legal s (a :: as) ↔ M.enabled s a ∧ M.Legal (M.next s a) as :=
  M.meets_cons M.enabled s a as

theorem meets_append (ok : σ → α → Prop) (s : σ) (as bs : List α) :
    M.Meets ok s (as ++ bs) ↔ M.Meets ok s as ∧ M.Meets ok (M.run s as) bs := by
  induction as generalizing s with
  | nil => simp
  | cons a as ih => rw [List.cons_append, meets_cons, meets_cons, ih, run_cons, and_assoc]

theorem meets_concat {ok : σ → α → Prop} {s : σ} {as : List α} {a : α}
    (h : M.Meets ok s (as ++ [a])) : ok (M.run s as) a :=
  ((M.meets_cons ok _ a []).mp ((M.meets_append ok s as [a]).mp h).2).1

variable {M}

theorem meets_of_forall {P : α → Prop} {as : List α} (h : ∀ a ∈ as, P a) (s : σ) :
    M.Meets (fun _ a => P a) s as := by
  induction as generalizing s with
  | nil => exact M.meets_nil _ s
  | cons a as ih =>
    rw [meets_cons]
    exact ⟨h a List.mem_cons_self, ih (fun b hb => h b (List.mem_cons_of_mem a hb)) _⟩

/-- An invariant kept by every enabled step that meets `ok` holds in every state of a legal run
whose steps all meet `ok`. -/
theorem invariant {I : σ → Prop} {ok : σ → α → Prop} {s : σ} {as : List α}
    (hstep : ∀ s a, I s → M.enabled s a → ok s a → I (M.next s a))
    (hs : I s) (hl : M.Legal s as) (hok : M.Meets ok s as) :
    I (M.run s as) ∧ ∀ p ∈ M.steps s as, I p.1 := by
  induction as generalizing s with
  | nil => exact ⟨hs, by simp [steps]⟩
  | cons a as ih =>
    obtain ⟨he, hl⟩ := (M.legal_cons s a as).mp hl
    obtain ⟨ha, hok⟩ := (M.meets_cons ok s a as).mp hok
    obtain ⟨hrun, hall⟩ := ih (hstep s a hs he ha) hl hok
    refine ⟨hrun, ?_⟩
    rintro p hp
    rcases List.mem_cons.mp hp with rfl | hp
    · exact hs
    · exact hall p hp

theorem invariant_run {I : σ → Prop} {ok : σ → α → Prop} {s : σ} {as : List α}
    (hstep : ∀ s a, I s → M.enabled s a → ok s a → I (M.next s a))
    (hs : I s) (hl : M.Legal s as) (hok : M.Meets ok s as) : I (M.run s as) :=
  (invariant hstep hs hl hok).1

theorem every_step {I : σ → Prop} {ok Q : σ → α → Prop} {s : σ} {as : List α}
    (hstep : ∀ s a, I s → M.enabled s a → ok s a → I (M.next s a))
    (hQ : ∀ s a, I s → M.enabled s a → ok s a → Q s a)
    (hs : I s) (hl : M.Legal s as) (hok : M.Meets ok s as) : M.Meets Q s as := by
  intro p hp
  exact hQ p.1 p.2 ((invariant hstep hs hl hok).2 p hp) (hl p hp) (hok p hp)

/-- An invariant that every step keeps, enabled or not, holds after every run. -/
theorem invariant_always {I : σ → Prop} {s : σ} (hstep : ∀ s a, I s → I (M.next s a)) (hs : I s)
    (as : List α) : I (M.run s as) := by
  induction as generalizing s with
  | nil => exact hs
  | cons a as ih => exact ih (hstep s a hs)

/-- A preorder that every step goes up in is one that every run goes up in. -/
theorem run_ascends {R : σ → σ → Prop} (hrefl : ∀ s, R s s) (htrans : ∀ s t u, R s t → R t u → R s u)
    (hstep : ∀ s a, R s (M.next s a)) (s : σ) (as : List α) : R s (M.run s as) := by
  induction as generalizing s with
  | nil => exact hrefl s
  | cons a as ih => exact htrans s _ _ (hstep s a) (ih (M.next s a))

theorem run_append (s : σ) (as bs : List α) : M.run s (as ++ bs) = M.run (M.run s as) bs :=
  List.foldl_append

/-- An invariant that every enabled step keeps holds after every legal run. -/
theorem invariant_legal {I : σ → Prop} {s : σ} {as : List α}
    (hstep : ∀ s a, I s → M.enabled s a → I (M.next s a))
    (hs : I s) (hl : M.Legal s as) : I (M.run s as) :=
  invariant_run (fun s a h he _ => hstep s a h he) hs hl hl

theorem every_legal_step {I : σ → Prop} {Q : σ → α → Prop} {s : σ} {as : List α}
    (hstep : ∀ s a, I s → M.enabled s a → I (M.next s a))
    (hQ : ∀ s a, I s → M.enabled s a → Q s a)
    (hs : I s) (hl : M.Legal s as) : M.Meets Q s as :=
  every_step (fun s a h he _ => hstep s a h he) (fun s a h he _ => hQ s a h he) hs hl hl

/-- As long as the steps meet `ok` the invariant holds, and there `Q` says the same as `ok`: a run
meets the one exactly when it meets the other. -/
theorem meets_iff {I : σ → Prop} {ok Q : σ → α → Prop} {s : σ} {as : List α}
    (hstep : ∀ s a, I s → M.enabled s a → ok s a → I (M.next s a))
    (hQ : ∀ s a, I s → M.enabled s a → (Q s a ↔ ok s a))
    (hs : I s) (hl : M.Legal s as) : M.Meets Q s as ↔ M.Meets ok s as := by
  induction as generalizing s with
  | nil => simp
  | cons a as ih =>
    obtain ⟨he, hl⟩ := (M.legal_cons s a as).mp hl
    rw [meets_cons, meets_cons, hQ s a hs he]
    apply and_congr_right
    intro ha
    exact ih (hstep s a hs he ha) hl

end System

end Library
