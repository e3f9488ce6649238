import SeminarTouhou.Engine.GameObject
import SeminarTouhou.Library.System

namespace SeminarTouhou

open Library

structure Mathf where
  cos : ℚ → ℚ
  sin : ℚ → ℚ
  normalized : Vector2 → Vector2

inductive BulletClass
  | baseBullet
  | streght
  | wave
deriving DecidableEq

/-- A bullet with what decides its flight. `started` says whether its `Start` has run. -/
structure BaseBullet where
  kind : BulletClass
  scaler : ℚ
  lifeTime : ℚ
  maxLifetime : ℚ
  direction : Vector2
  position : Vector3
  activeSelf : Bool
  started : Bool
deriving DecidableEq

/-- A spawn of one of the four patterns: the pattern's fields that it uses and the `i` of its loop. -/
inductive Shot
  | cirlce (center : Vector2) (radius scaler : ℚ) (invert : Bool) (i : ℕ)
  | singleShot (position : Vector3) (diretion : Vector2) (modifyScaler : ℚ)
  | snake (center : Vector2) (scaler : ℚ) (i : ℕ)
  | star (center : Vector2) (radius scaler k : ℚ) (i : ℕ)
deriving DecidableEq

namespace BaseBullet

def initialMaxLifetime : ℚ := 20

/-- A clone has the prefab's serialized fields; `maxLifetime` is not one of them. -/
def instantiated (pooledSizePrefab : BaseBullet) : BaseBullet :=
  { pooledSizePrefab with
    maxLifetime := initialMaxLifetime
    position := ⟨0, 0, 0⟩
    activeSelf := false
    started := false }

/-- `Wave` hides the `Start` of its base class and does not read the life time in its own. -/
def start (b : BaseBullet) : BaseBullet :=
  match b.kind with
  | .baseBullet | .streght => { b with maxLifetime := b.lifeTime, started := true }
  | .wave => { b with started := true }

def update (deltaTime : ℚ) (b : BaseBullet) : BaseBullet :=
  { b with lifeTime := b.lifeTime - deltaTime }

def initProj (m : Mathf) (origin : Vector2) (b : BaseBullet) : BaseBullet :=
  { b with
    direction := m.normalized ⟨origin.x - b.position.x, origin.y - b.position.y⟩
    lifeTime := b.maxLifetime }

/-- `translation` is what the two `Translate` calls of a `Wave` amount to. -/
def updatePorjectile (m : Mathf) (translation : Vector3) (b : BaseBullet) : BaseBullet :=
  match b.kind with
  | .baseBullet => b
  | .streght =>
    let direction := m.normalized b.direction
    { b with
      direction := direction
      position := ⟨b.position.x - direction.x * b.scaler, b.position.y - direction.y * b.scaler,
        b.position.z⟩ }
  | .wave =>
    { b with position := ⟨b.position.x + translation.x, b.position.y + translation.y,
        b.position.z + translation.z⟩ }

def enqueued (b : BaseBullet) : BaseBullet := { b with position := ⟨0, 0, 0⟩, activeSelf := false }

def placed (spawnPos : Vector2) (b : BaseBullet) : BaseBullet :=
  { b with position := spawnPos.toVector3, activeSelf := true }

def modifyScaler (scaler : ℚ) (b : BaseBullet) : BaseBullet :=
  if 0 < scaler then { b with scaler := scaler } else b

/-- `Start` sets `inverted` after it has started the coroutine, which by then has spawned the first
bullet. -/
def inverted (invert : Bool) (i : ℕ) : ℚ := if invert && i ≠ 0 then -1 else 1

def cirlcePos (m : Mathf) (center : Vector2) (radius : ℚ) (invert : Bool) (i : ℕ) : Vector2 :=
  ⟨center.x + radius * (inverted invert i * m.cos i), center.y + radius * (inverted invert i * m.sin i)⟩

def snakePos (m : Mathf) (center : Vector2) (i : ℕ) : Vector2 :=
  ⟨center.x + m.sin (i * (6 / 10)) * 2, center.y - i * (6 / 10) - 1⟩

def starPos (m : Mathf) (center : Vector2) (radius k : ℚ) (i : ℕ) : Vector2 :=
  ⟨center.x + radius * (k - 1) * m.cos i + radius * m.cos ((k - 1) * i),
    center.y + radius * (k - 1) * m.sin i - radius * m.sin ((k - 1) * i)⟩

def spawnCircle (m : Mathf) (center : Vector2) (radius scaler : ℚ) (invert : Bool) (i : ℕ)
    (b : BaseBullet) : BaseBullet :=
  ((b.placed (cirlcePos m center radius invert i)).modifyScaler scaler).initProj m center

def spawnBulellets (m : Mathf) (position : Vector3) (diretion : Vector2) (scaler : ℚ)
    (b : BaseBullet) : BaseBullet :=
  ((b.placed position.toVector2).initProj m
    ⟨diretion.x + position.x, diretion.y + position.y⟩).modifyScaler scaler

def spawnSnake (m : Mathf) (center : Vector2) (scaler : ℚ) (i : ℕ) (b : BaseBullet) : BaseBullet :=
  let spawnPos := snakePos m center i
  let direction := m.normalized ⟨spawnPos.x - center.x, spawnPos.y - center.y⟩
  { ((b.placed spawnPos).modifyScaler scaler).initProj m center with
    direction := ⟨-direction.x, -direction.y⟩ }

def spawnStar (m : Mathf) (center : Vector2) (radius scaler k : ℚ) (i : ℕ) (b : BaseBullet) :
    BaseBullet :=
  ((b.placed (starPos m center radius k i)).modifyScaler scaler).initProj m center

def spawn (m : Mathf) (b : BaseBullet) : Shot → BaseBullet
  | .cirlce center radius scaler invert i => b.spawnCircle m center radius scaler invert i
  | .singleShot position diretion modifyScaler => b.spawnBulellets m position diretion modifyScaler
  | .snake center scaler i => b.spawnSnake m center scaler i
  | .star center radius scaler k i => b.spawnStar m center radius scaler k i

end BaseBullet

/-- What can happen to a bullet of the pool. Any emitter may spawn it, also one that got it while
another has it. -/
inductive BulletAction
  | spawn (shot : Shot)
  | start
  | update (deltaTime : ℚ)
  | updatePorjectile (translation : Vector3)
  | enqueue
deriving DecidableEq

namespace BaseBullet

variable (m : Mathf)

def next (b : BaseBullet) : BulletAction → BaseBullet
  | .spawn shot => b.spawn m shot
  | .start => b.start
  | .update deltaTime => b.update deltaTime
  | .updatePorjectile translation => b.updatePorjectile m translation
  | .enqueue => b.enqueued

def Enabled (b : BaseBullet) : BulletAction → Prop
  | .start => b.activeSelf = true ∧ b.started = false
  | .update _ => b.activeSelf = true ∧ b.started = true
  | _ => True

instance (b : BaseBullet) (a : BulletAction) : Decidable (b.Enabled a) := by
  cases a <;> dsimp only [Enabled] <;> infer_instance

def system : System BaseBullet BulletAction := ⟨Enabled, next m⟩

instance (b : BaseBullet) (a : BulletAction) : Decidable ((system m).enabled b a) :=
  inferInstanceAs (Decidable (b.Enabled a))

end BaseBullet

namespace Shot

variable (m : Mathf)

def scaler : Shot → ℚ
  | .cirlce _ _ scaler _ _ | .singleShot _ _ scaler | .snake _ scaler _ | .star _ _ scaler _ _ => scaler

def spawnPos : Shot → Vector2
  | .cirlce center radius _ invert i => BaseBullet.cirlcePos m center radius invert i
  | .singleShot position _ _ => position.toVector2
  | .snake center _ i => BaseBullet.snakePos m center i
  | .star center radius _ k i => BaseBullet.starPos m center radius k i

def direction (shot : Shot) : Vector2 :=
  let p := shot.spawnPos m
  match shot with
  | .cirlce center _ _ _ _ | .star center _ _ _ _ => m.normalized ⟨center.x - p.x, center.y - p.y⟩
  | .singleShot position diretion _ =>
    m.normalized ⟨diretion.x + position.x - p.x, diretion.y + position.y - p.y⟩
  | .snake center _ _ =>
    let direction := m.normalized ⟨p.x - center.x, p.y - center.y⟩
    ⟨-direction.x, -direction.y⟩

end Shot

namespace BaseBullet

variable {m : Mathf} {prefab b c : BaseBullet}

theorem modifyScaler_eq (scaler : ℚ) (b : BaseBullet) :
    b.modifyScaler scaler = { b with scaler := if 0 < scaler then scaler else b.scaler } := by
  rw [modifyScaler]
  split_ifs <;> rfl

/-- All that a spawn leaves of the bullet's history is its `maxLifetime`, and the scaler if the
pattern has none. -/
theorem spawn_eq (shot : Shot) (b : BaseBullet) :
    b.spawn m shot = { b with
      scaler := if 0 < shot.scaler then shot.scaler else b.scaler
      lifeTime := b.maxLifetime
      direction := shot.direction m
      position := (shot.spawnPos m).toVector3
      activeSelf := true } := by
  cases shot with
  | cirlce center radius scaler invert i => rw [spawn, spawnCircle, modifyScaler_eq]; rfl
  | singleShot position diretion scaler => rw [spawn, spawnBulellets, modifyScaler_eq]; rfl
  | snake center scaler i => rw [spawn, spawnSnake, modifyScaler_eq]; rfl
  | star center radius scaler k i => rw [spawn, spawnStar, modifyScaler_eq]; rfl

/-- A bullet has the initial `maxLifetime` until its `Start`, and `Start` finds the life time that
`initProj` set from it. -/
structure Keeps (b : BaseBullet) : Prop where
  maxLifetime : b.maxLifetime = initialMaxLifetime
  lifeTime : b.activeSelf = true → b.started = false → b.lifeTime = initialMaxLifetime

theorem Keeps.next (h : b.Keeps) {a : BulletAction} (he : b.Enabled a) : (b.next m a).Keeps := by
  cases a with
  | spawn shot =>
    rw [BaseBullet.next, spawn_eq]
    exact ⟨h.maxLifetime, fun _ _ => h.maxLifetime⟩
  | start =>
    obtain ⟨hactive, hnew⟩ := he
    have hlife := h.lifeTime hactive hnew
    rw [BaseBullet.next, BaseBullet.start]
    cases b.kind with
    | wave => exact ⟨h.maxLifetime, fun _ _ => hlife⟩
    | _ => exact ⟨hlife, fun _ _ => hlife⟩
  | update deltaTime =>
    refine ⟨h.maxLifetime, fun _ hnew => ?_⟩
    exact absurd (he.2.symm.trans hnew) (by decide)
  | updatePorjectile translation =>
    rw [BaseBullet.next, updatePorjectile]
    cases b.kind with
    | _ => exact ⟨h.maxLifetime, h.lifeTime⟩
  | enqueue => exact ⟨h.maxLifetime, nofun⟩

theorem keeps_run {as : List BulletAction} (hl : (system m).Legal prefab.instantiated as) :
    ((system m).run prefab.instantiated as).Keeps := by
  have hnew : prefab.instantiated.Keeps := ⟨rfl, nofun⟩
  exact System.invariant_legal (fun b a h he => h.next he) hnew hl

structure GoodAsNew (m : Mathf) (prefab : BaseBullet) (shot : Shot) (b c : BaseBullet) : Prop where
  scaler : (b.spawn m shot).scaler = (c.spawn m shot).scaler
  direction : (b.spawn m shot).direction = (c.spawn m shot).direction
  lifeTime : (b.spawn m shot).lifeTime = (c.spawn m shot).lifeTime
  position : (b.spawn m shot).position = (c.spawn m shot).position
  configured : (b.spawn m shot).lifeTime = prefab.lifeTime

def carriedScaler (scaler : ℚ) : List BulletAction → ℚ
  | [] => scaler
  | .spawn shot :: as => carriedScaler (if 0 < shot.scaler then shot.scaler else scaler) as
  | _ :: as => carriedScaler scaler as

theorem run_scaler (b : BaseBullet) (as : List BulletAction) :
    ((system m).run b as).scaler = carriedScaler b.scaler as := by
  induction as generalizing b with
  | nil => rfl
  | cons a as ih =>
    rw [System.run_cons, ih]
    cases a with
    | spawn shot =>
      change carriedScaler (b.spawn m shot).scaler as = _
      rw [spawn_eq]
      rfl
    | start =>
      change carriedScaler b.start.scaler as = _
      rw [BaseBullet.start]
      cases b.kind <;> rfl
    | updatePorjectile translation =>
      change carriedScaler (b.updatePorjectile m translation).scaler as = _
      rw [updatePorjectile]
      cases b.kind <;> rfl
    | update deltaTime => rfl
    | enqueue => rfl

/-- The pattern sets the scaler, or both bullets carry the same one; and the prefab has the life
time that every bullet gets. -/
def Resets (prefab : BaseBullet) (shot : Shot) (as bs : List BulletAction) : Prop :=
  (0 < shot.scaler ∨ carriedScaler prefab.scaler as = carriedScaler prefab.scaler bs) ∧
    prefab.lifeTime = initialMaxLifetime

theorem goodAsNew_iff (hb : b.Keeps) (hc : c.Keeps) (shot : Shot) :
    GoodAsNew m prefab shot b c ↔
      (0 < shot.scaler ∨ b.scaler = c.scaler) ∧ prefab.lifeTime = initialMaxLifetime := by
  have hscaler : (b.spawn m shot).scaler = (c.spawn m shot).scaler ↔
      0 < shot.scaler ∨ b.scaler = c.scaler := by
    rw [spawn_eq, spawn_eq]
    by_cases hs : 0 < shot.scaler
    · simp [hs]
    · simp [hs]
  have hlife : ∀ d : BaseBullet, d.Keeps → (d.spawn m shot).lifeTime = initialMaxLifetime := by
    intro d hd
    rw [spawn_eq]
    exact hd.maxLifetime
  constructor
  · intro h
    exact ⟨hscaler.mp h.scaler, h.configured.symm.trans (hlife b hb)⟩
  · rintro ⟨hs, hp⟩
    refine ⟨hscaler.mpr hs, ?_, ?_, ?_, ?_⟩
    · rw [spawn_eq, spawn_eq]
    · rw [hlife b hb, hlife c hc]
    · rw [spawn_eq, spawn_eq]
    · rw [hlife b hb, hp]

theorem recycled_goodAsNew_iff (shot : Shot) {as bs : List BulletAction}
    (ha : (system m).Legal prefab.instantiated as) (hb : (system m).Legal prefab.instantiated bs) :
    GoodAsNew m prefab shot ((system m).run prefab.instantiated as)
        ((system m).run prefab.instantiated bs) ↔
      Resets prefab shot as bs := by
  have hcarried : ∀ cs, ((system m).run prefab.instantiated cs).scaler =
      carriedScaler prefab.scaler cs := run_scaler prefab.instantiated
  rw [goodAsNew_iff (keeps_run ha) (keeps_run hb), hcarried, hcarried, Resets]

/-- The values at the angle 0, and on unit vectors. -/
def straight : Mathf := ⟨fun _ => 1, fun _ => 0, id⟩

def bullet : BaseBullet := ⟨.streght, 5 / 1000, 20, 0, ⟨0, 0⟩, ⟨0, 0, 0⟩, false, false⟩

theorem recycled_goodAsNew_snake :
    let as := [.spawn (.snake ⟨0, 0⟩ (1 / 100) 0), .start, .update 20, .enqueue]
    let shot := .singleShot ⟨0, 4, 0⟩ ⟨0, -1⟩ (3 / 100)
    GoodAsNew straight bullet shot ((system straight).run bullet.instantiated as)
        ((system straight).run bullet.instantiated []) ↔
      Resets bullet shot as [] :=
  recycled_goodAsNew_iff _ (by decide +kernel) (by decide +kernel)

/-- A shot that does not modify the scaler has the one of the snake that the bullet was part of. -/
theorem recycledScaler_differs : ¬ ∀ prefab shot as bs,
    (system straight).Legal prefab.instantiated as → (system straight).Legal prefab.instantiated bs →
    GoodAsNew straight prefab shot ((system straight).run prefab.instantiated as)
      ((system straight).run prefab.instantiated bs) := by
  intro h
  have hnew := h bullet (.singleShot ⟨0, 4, 0⟩ ⟨0, -1⟩ 0)
    [.spawn (.snake ⟨0, 0⟩ (1 / 100) 0), .start, .update 20, .enqueue] []
    (by decide +kernel) (by decide +kernel)
  exact absurd hnew.scaler (by decide +kernel)

end BaseBullet

end SeminarTouhou
