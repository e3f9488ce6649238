import SeminarTouhou.Library.System
import SeminarTouhou.Engine.GameObject

namespace SeminarTouhou

open Library

inductive HandlerClass
  | serverHandler
  | clientHandler
deriving DecidableEq

/-- `accepted` is what `Start` has decided, once it has run. -/
structure HandlerObject where
  handlerClass : HandlerClass
  accepted : Option Bool
  life : Life
deriving DecidableEq

/-- The handlers that the scenes have created, by number; `singleton` is the static `instance` of
each class. -/
structure Handlers where
  singleton : HandlerClass → Option ℕ
  objects : List HandlerObject

inductive HandlerAction
  | create (c : HandlerClass)
  | start (x : ℕ)
  | destroy (x : ℕ)
  | onDestroy (x : ℕ)
deriving DecidableEq

namespace Handlers

def instanceIsNull (c : HandlerClass) (s : Handlers) : Bool :=
  match s.singleton c with
  | none => true
  | some x =>
    match s.objects[x]? with
    | none => true
    | some o => o.life = .destroyed

/-- A duplicate destroys itself, a `ServerHandler` alone and a `ClientHandler` with its object. -/
def start (x : ℕ) (c : HandlerClass) (s : Handlers) : Handlers :=
  if !s.instanceIsNull c then
    { s with
      objects := s.objects.modify x
        (fun o => { o with accepted := some false, life := o.life.destroy }) }
  else
    { singleton := Function.update s.singleton c (some x)
      objects := s.objects.modify x (fun o => { o with accepted := some true }) }

def onDestroy (x : ℕ) (c : HandlerClass) (s : Handlers) : Handlers :=
  { singleton := Function.update s.singleton c none
    objects := s.objects.modify x (fun o => { o with life := .destroyed }) }

def empty : Handlers := ⟨fun _ => none, []⟩

/-- `Start` runs once, and `OnDestroy` at the end of a frame in which the object was destroyed. -/
def Enabled (s : Handlers) : HandlerAction → Prop
  | .start x => ∃ o ∈ s.objects[x]?, o.accepted = none ∧ o.life ≠ .destroyed
  | .onDestroy x => ∃ o ∈ s.objects[x]?, o.life = .dying
  | _ => True

instance (s : Handlers) (a : HandlerAction) : Decidable (s.Enabled a) := by
  cases a <;> dsimp only [Enabled] <;> infer_instance

def next (s : Handlers) : HandlerAction → Handlers
  | .create c => { s with objects := s.objects ++ [⟨c, none, .alive⟩] }
  | .start x => (s.objects[x]?).elim s (fun o => s.start x o.handlerClass)
  | .destroy x =>
    { s with objects := s.objects.modify x (fun o => { o with life := o.life.destroy }) }
  | .onDestroy x => (s.objects[x]?).elim s (fun o => s.onDestroy x o.handlerClass)

def system : System Handlers HandlerAction := ⟨Enabled, next⟩

instance (s : Handlers) (a : HandlerAction) : Decidable (system.enabled s a) :=
  inferInstanceAs (Decidable (s.Enabled a))

/-- `x` has completed `Start` without being rejected, and exists. -/
def Accepted (s : Handlers) (c : HandlerClass) (x : ℕ) : Prop :=
  ∃ o, s.objects[x]? = some o ∧ o.handlerClass = c ∧ o.accepted = some true ∧ o.life ≠ .destroyed

/-- `instance` refers to every accepted handler, so there is at most one of each class. -/
def Valid (s : Handlers) : Prop :=
  (∀ c x, s.Accepted c x → s.singleton c = some x) ∧
    ∀ c x y, s.Accepted c x → s.Accepted c y → x = y

/-- A handler that runs `OnDestroy` is the accepted one of its class, or there is none. -/
def SparesAccepted (s : Handlers) (a : HandlerAction) : Prop :=
  ∀ x o, a = .onDestroy x → s.objects[x]? = some o → ∀ y, s.Accepted o.handlerClass y → y = x

variable {s : Handlers}

theorem valid_iff : s.Valid ↔ ∀ c x, s.Accepted c x → s.singleton c = some x := by
  apply and_iff_left_of_imp
  intro h c x y hx hy
  exact Option.some.inj ((h c x hx).symm.trans (h c y hy))

theorem accepted_modify {t : Handlers} {x : ℕ} {f : HandlerObject → HandlerObject}
    (ht : t.objects = s.objects.modify x f) (c : HandlerClass) (y : ℕ) :
    t.Accepted c y ↔ y ≠ x ∧ s.Accepted c y ∨
      y = x ∧ ∃ o, s.objects[x]? = some o ∧ (f o).handlerClass = c ∧ (f o).accepted = some true ∧
        (f o).life ≠ .destroyed := by
  rw [Accepted, ht, List.getElem?_modify]
  by_cases hy : y = x
  · subst hy
    simp
  · have hx : x ≠ y := Ne.symm hy
    simp [hy, hx, Accepted]

theorem instance_of_accepted (h : s.Valid) {c : HandlerClass} {x : ℕ} (hx : s.Accepted c x) :
    s.instanceIsNull c = false := by
  have hs := h.1 c x hx
  obtain ⟨o, ho, -, -, hl⟩ := hx
  simp only [instanceIsNull, hs, ho]
  exact decide_eq_false hl

theorem Valid.create (h : s.Valid) (c : HandlerClass) : (s.next (.create c)).Valid := by
  rw [valid_iff] at h ⊢
  rintro d x ⟨o, ho, hd, ha, hl⟩
  refine h d x ⟨o, ?_, hd, ha, hl⟩
  have ho : (s.objects ++ [⟨c, none, .alive⟩])[x]? = some o := ho
  rcases lt_or_ge x s.objects.length with hx | hx
  · rwa [List.getElem?_append_left hx] at ho
  · rw [List.getElem?_append_right hx] at ho
    have hnew := List.mem_of_getElem? ho
    rw [List.mem_singleton] at hnew
    rw [hnew] at ha
    exact absurd ha (by simp)

theorem Valid.start (h : s.Valid) {x : ℕ} {o : HandlerObject} (ho : s.objects[x]? = some o) :
    (s.start x o.handlerClass).Valid := by
  rw [Handlers.start]
  cases hnull : s.instanceIsNull o.handlerClass with
  | false =>
    rw [Bool.not_false, if_pos rfl, valid_iff]
    intro c y hy
    rcases (accepted_modify rfl c y).mp hy with ⟨-, hy⟩ | ⟨-, p, -, -, ha, -⟩
    · exact h.1 c y hy
    · exact absurd ha (by simp)
  | true =>
    rw [Bool.not_true, if_neg Bool.false_ne_true, valid_iff]
    intro c y hy
    rcases (accepted_modify rfl c y).mp hy with ⟨-, hy⟩ | ⟨rfl, p, hp, hc, -, -⟩
    · have hc : c ≠ o.handlerClass := by
        rintro rfl
        have hnot := instance_of_accepted h hy
        rw [hnull] at hnot
        exact absurd hnot (by simp)
      dsimp only
      rw [Function.update_of_ne hc]
      exact h.1 c y hy
    · obtain rfl : o = p := Option.some.inj (ho.symm.trans hp)
      subst hc
      exact Function.update_self _ _ _

theorem Valid.destroy (h : s.Valid) (x : ℕ) : (s.next (.destroy x)).Valid := by
  rw [valid_iff]
  intro c y hy
  rcases (accepted_modify rfl c y).mp hy with ⟨-, hy⟩ | ⟨rfl, o, ho, hc, ha, hl⟩
  · exact h.1 c y hy
  · refine h.1 c y ⟨o, ho, hc, ha, ?_⟩
    intro hdestroyed
    dsimp only at hl
    rw [hdestroyed] at hl
    exact hl rfl

theorem Valid.onDestroy_iff (h : s.Valid) (x : ℕ) (c : HandlerClass) :
    (s.onDestroy x c).Valid ↔ ∀ y, s.Accepted c y → y = x := by
  rw [valid_iff]
  constructor
  · intro hv y hy
    by_contra hne
    have hstays := hv c y ((accepted_modify rfl c y).mpr (Or.inl ⟨hne, hy⟩))
    have hnone : (s.onDestroy x c).singleton c = none := Function.update_self _ _ _
    rw [hnone] at hstays
    exact absurd hstays (by simp)
  · intro honly d y hy
    rcases (accepted_modify rfl d y).mp hy with ⟨hne, hold⟩ | ⟨-, p, -, -, -, hl⟩
    · have hd : d ≠ c := by
        rintro rfl
        exact hne (honly y hold)
      have hkeeps : (s.onDestroy x c).singleton d = s.singleton d := Function.update_of_ne hd _ _
      rw [hkeeps]
      exact h.1 d y hold
    · exact absurd rfl hl

theorem Valid.next_iff (h : s.Valid) {a : HandlerAction} (he : s.Enabled a) :
    (s.next a).Valid ↔ s.SparesAccepted a := by
  have hother (ha : ∀ x, a ≠ .onDestroy x) : s.SparesAccepted a :=
    fun x _ hx => absurd hx (ha x)
  cases a with
  | create c => exact iff_of_true (h.create c) (hother (by simp))
  | start x =>
    obtain ⟨o, ho, -⟩ := he
    have hnext : s.next (.start x) = s.start x o.handlerClass := by
      rw [next, Option.mem_def.mp ho]
      rfl
    rw [hnext]
    exact iff_of_true (h.start ho) (hother (by simp))
  | destroy x => exact iff_of_true (h.destroy x) (hother (by simp))
  | onDestroy x =>
    obtain ⟨o, ho, -⟩ := he
    have hnext : s.next (.onDestroy x) = s.onDestroy x o.handlerClass := by
      rw [next, Option.mem_def.mp ho]
      rfl
    rw [hnext, h.onDestroy_iff]
    constructor
    · intro honly y p hy hp
      cases hy
      obtain rfl : o = p := Option.some.inj ((Option.mem_def.mp ho).symm.trans hp)
      exact honly
    · intro hspares
      exact hspares x o rfl ho

/-- A rejected duplicate runs `OnDestroy` as well, and so takes `instance` from the handler that
was accepted. -/
theorem singletons_valid_iff {as : List HandlerAction} (hl : system.Legal empty as) :
    system.Meets (fun s a => (s.next a).Valid) empty as ↔ system.Meets SparesAccepted empty as := by
  have hstart : empty.Valid := by
    rw [valid_iff]
    rintro c x ⟨o, ho, -⟩
    exact absurd ho (by simp [empty])
  apply System.meets_iff (I := Valid) _ _ hstart hl
  · intro s a h he hspares
    exact (h.next_iff he).mpr hspares
  · intro s a h he
    exact h.next_iff he

/-- The accepted handler is destroyed before the duplicate is. -/
theorem singletons_valid_duplicate :
    let as : List HandlerAction := [.create .serverHandler, .start 0, .create .serverHandler, .start 1,
      .create .clientHandler, .start 2, .destroy 0, .onDestroy 0, .onDestroy 1]
    system.Meets (fun s a => (s.next a).Valid) empty as ↔ system.Meets SparesAccepted empty as :=
  singletons_valid_iff (by decide +kernel)

theorem duplicate_takesInstance : ¬ ∀ as, system.Legal empty as →
    system.Meets (fun s a => (s.next a).Valid) empty as := by
  intro h
  let as : List HandlerAction :=
    [.create .serverHandler, .start 0, .create .serverHandler, .start 1]
  have hlast := system.meets_concat (h (as ++ [.onDestroy 1]) (by decide +kernel))
  have haccepted := hlast.1 .serverHandler 0
    ⟨⟨.serverHandler, some true, .alive⟩, by decide +kernel, rfl, rfl, by decide⟩
  exact absurd haccepted (by decide +kernel)

end Handlers

end SeminarTouhou
