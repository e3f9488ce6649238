import SeminarTouhou.Library.Dictionary

namespace SeminarTouhou

structure Vector2 where
  x : ℚ
  y : ℚ
deriving DecidableEq

structure Vector3 where
  x : ℚ
  y : ℚ
  z : ℚ
deriving DecidableEq

def Vector2.toVector3 (v : Vector2) : Vector3 := ⟨v.x, v.y, 0⟩

namespace Vector3

def toVector2 (v : Vector3) : Vector2 := ⟨v.x, v.y⟩

def lerp (a b : Vector3) (t : ℚ) : Vector3 :=
  let t := max 0 (min t 1)
  ⟨a.x + (b.x - a.x) * t, a.y + (b.y - a.y) * t, a.z + (b.z - a.z) * t⟩

end Vector3

inductive Exn
  | keyNotFound
  | argument
  | argumentOutOfRange
  | nullReference
  | missingReference
deriving DecidableEq

/-- `Destroy` takes effect at the end of the frame: until then the object can still be used, and
only afterwards does it compare equal to `null`. -/
inductive Life
  | alive
  | dying
  | destroyed
deriving DecidableEq

namespace Life

def destroy : Life → Life
  | alive => dying
  | l => l

def endOfFrame : Life → Life
  | dying => destroyed
  | l => l

end Life

inductive Prefab
  | player
  | hologram
deriving DecidableEq

structure GameObject where
  kind : Prefab
  position : Vector3
  life : Life
deriving DecidableEq

namespace GameObject

/-- `Instantiate(m_PlayerHologramPrefab)`, at the position stored in the prefab. -/
def hologram : GameObject := ⟨.hologram, ⟨-272 / 100, -531 / 100, 0⟩, .alive⟩

def usable (o : GameObject) : Bool := o.life ≠ .destroyed

def destroy (o : GameObject) : GameObject := { o with life := o.life.destroy }

def endOfFrame (o : GameObject) : GameObject := { o with life := o.life.endOfFrame }

def unload (o : GameObject) : GameObject := { o with life := .destroyed }

def moveTo (p : Vector3) (o : GameObject) : GameObject := { o with position := p }

@[simp] theorem destroy_kind (o : GameObject) : o.destroy.kind = o.kind := rfl

@[simp] theorem endOfFrame_kind (o : GameObject) : o.endOfFrame.kind = o.kind := rfl

@[simp] theorem unload_kind (o : GameObject) : o.unload.kind = o.kind := rfl

@[simp] theorem moveTo_kind (p : Vector3) (o : GameObject) : (o.moveTo p).kind = o.kind := rfl

@[simp] theorem moveTo_life (p : Vector3) (o : GameObject) : (o.moveTo p).life = o.life := rfl

theorem endOfFrame_alive {o : GameObject} (h : o.life = .alive) : o.endOfFrame.life = .alive := by
  simp [endOfFrame, h, Life.endOfFrame]

theorem usable_of_alive {o : GameObject} (h : o.life = .alive) : o.usable = true := by
  simp [usable, h]

end GameObject

def deref : Option GameObject → Except Exn GameObject
  | none => .error .nullReference
  | some o => if o.usable then .ok o else .error .missingReference

theorem deref_of_alive {o : GameObject} (h : o.life = .alive) : deref (some o) = .ok o := by
  simp [deref, GameObject.usable_of_alive h]

/-- What a method call does: the state it leaves behind, also when it throws, the messages it sends
and the events it raises before it returns or throws, and the exception that escapes it. -/
structure Outcome (σ μ ε : Type*) where
  state : σ
  sent : List μ
  raised : List ε
  thrown : Option Exn

namespace Outcome

variable {σ μ ε : Type*}

def returns (s : σ) : Outcome σ μ ε := ⟨s, [], [], none⟩

def throws (s : σ) (e : Exn) : Outcome σ μ ε := ⟨s, [], [], some e⟩

def sends (s : σ) (ms : List μ) : Outcome σ μ ε := ⟨s, ms, [], none⟩

def raises (s : σ) (es : List ε) : Outcome σ μ ε := ⟨s, [], es, none⟩

def andThen (o : Outcome σ μ ε) (f : σ → Outcome σ μ ε) : Outcome σ μ ε :=
  match o.thrown with
  | some _ => o
  | none =>
    let p := f o.state
    ⟨p.state, o.sent ++ p.sent, o.raised ++ p.raised, p.thrown⟩

@[simp] theorem returns_state (s : σ) : (returns s : Outcome σ μ ε).state = s := rfl
@[simp] theorem returns_sent (s : σ) : (returns s : Outcome σ μ ε).sent = [] := rfl
@[simp] theorem returns_raised (s : σ) : (returns s : Outcome σ μ ε).raised = [] := rfl
@[simp] theorem returns_thrown (s : σ) : (returns s : Outcome σ μ ε).thrown = none := rfl
@[simp] theorem throws_state (s : σ) (e : Exn) : (throws s e : Outcome σ μ ε).state = s := rfl
@[simp] theorem throws_sent (s : σ) (e : Exn) : (throws s e : Outcome σ μ ε).sent = [] := rfl
@[simp] theorem throws_raised (s : σ) (e : Exn) : (throws s e : Outcome σ μ ε).raised = [] := rfl
@[simp] theorem throws_thrown (s : σ) (e : Exn) : (throws s e : Outcome σ μ ε).thrown = some e := rfl
@[simp] theorem sends_state (s : σ) (ms : List μ) : (sends s ms : Outcome σ μ ε).state = s := rfl
@[simp] theorem sends_sent (s : σ) (ms : List μ) : (sends s ms : Outcome σ μ ε).sent = ms := rfl
@[simp] theorem sends_raised (s : σ) (ms : List μ) : (sends s ms : Outcome σ μ ε).raised = [] := rfl
@[simp] theorem sends_thrown (s : σ) (ms : List μ) : (sends s ms : Outcome σ μ ε).thrown = none := rfl
@[simp] theorem raises_state (s : σ) (es : List ε) : (raises s es : Outcome σ μ ε).state = s := rfl
@[simp] theorem raises_sent (s : σ) (es : List ε) : (raises s es : Outcome σ μ ε).sent = [] := rfl
@[simp] theorem raises_raised (s : σ) (es : List ε) : (raises s es : Outcome σ μ ε).raised = es := rfl
@[simp] theorem raises_thrown (s : σ) (es : List ε) : (raises s es : Outcome σ μ ε).thrown = none := rfl

end Outcome

end SeminarTouhou
