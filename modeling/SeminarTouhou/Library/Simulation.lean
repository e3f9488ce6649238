import SeminarTouhou.Library.System

namespace Library

variable {σ τ α β : Type*}

namespace System

/-- A legal run leads from the one state to the other. -/
def Leads (N : System τ β) (w v : τ) : Prop := ∃ bs, N.Legal w bs ∧ N.run w bs = v

variable {M : System σ α} {N : System τ β} {u v w : τ}

theorem leads_refl (w : τ) : N.Leads w w := ⟨[], N.meets_nil _ w, rfl⟩

theorem leads_next {b : β} (h : N.enabled w b) : N.Leads w (N.next w b) :=
  ⟨[b], (N.legal_cons w b []).mpr ⟨h, N.meets_nil _ _⟩, rfl⟩

theorem Leads.trans (h : N.Leads u v) (h' : N.Leads v w) : N.Leads u w := by
  obtain ⟨bs, hl, rfl⟩ := h
  obtain ⟨cs, hl', rfl⟩ := h'
  exact ⟨bs ++ cs, (N.meets_append N.enabled u bs cs).mpr ⟨hl, hl'⟩, N.run_append u bs cs⟩

/-- Where each step of the one system is a run of the other, so is each run. -/
theorem simulation {R : σ → τ → Prop}
    (hstep : ∀ s w a, R s w → M.enabled s a → ∃ v, N.Leads w v ∧ R (M.next s a) v)
    {s : σ} {as : List α} (hR : R s w) (hl : M.Legal s as) :
    ∃ v, N.Leads w v ∧ R (M.run s as) v := by
  induction as generalizing s w with
  | nil => exact ⟨w, leads_refl w, hR⟩
  | cons a as ih =>
    obtain ⟨he, hl⟩ := (M.legal_cons s a as).mp hl
    obtain ⟨u, hu, hRu⟩ := hstep s w a hR he
    obtain ⟨v, hv, hRv⟩ := ih hRu hl
    exact ⟨v, hu.trans hv, hRv⟩

end System

end Library
