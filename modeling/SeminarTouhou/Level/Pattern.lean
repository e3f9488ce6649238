import SeminarTouhou.Level.PoolOwnership

namespace SeminarTouhou

open Library

inductive PatternClass
  | cirlcePattern
  | singleShotPattern
  | snakePattern
  | starPattern
deriving DecidableEq

/-- An emitter. `spawning` is the `i` at which its spawn coroutine goes on, `none` once it has
ended. The two classes that have no `cIsRunning` leave it `false`. -/
structure Pattern where
  kind : PatternClass
  ammount : ℚ
  bullets : List ℕ
  cIsRunning : Bool
  spawning : Option ℕ
  life : Life

namespace Pattern

def returnBullet (b : ℕ) (p : ObjectPool) : ObjectPool × Option Exn :=
  (p.setActive b false).enqeueObject b "BaseBullet"

def returnAll : List ℕ → ObjectPool → ObjectPool × Option Exn
  | [], p => (p, none)
  | b :: bs, p =>
    match returnBullet b p with
    | (p, some e) => (p, some e)
    | (p, none) => returnAll bs p

/-- The list as `RemoveAll` leaves it, unless a call before it throws. -/
def cleanList (removal listToRemoveFrom : List ℕ) (p : ObjectPool) :
    (List ℕ × ObjectPool) × Option Exn :=
  match returnAll removal p with
  | (p, some e) => ((listToRemoveFrom, p), some e)
  | (p, none) => ((listToRemoveFrom.filter (fun b => (p.objects b).activeSelf), p), none)

def clearLoop : List ℕ → ObjectPool → ObjectPool × Option Exn
  | [], p => (p, none)
  | b :: bs, p =>
    if (p.objects b).activeSelf then
      match returnBullet b p with
      | (p, some e) => (p, some e)
      | (p, none) => clearLoop bs p
    else clearLoop bs p

def clearBullets (e : Pattern) (p : ObjectPool) : Pattern × ObjectPool :=
  match clearLoop e.bullets p with
  | (p, some _) => (e, p)
  | (p, none) => ({ e with bullets := [] }, p)

def onDestroy (e : Pattern) (p : ObjectPool) : Pattern × ObjectPool :=
  clearBullets { e with life := .destroyed, spawning := none } p

/-- The list does not change while `removalIndex` is in use, so the indices in it stand for the
bullets found `expired`. Where the loop returns them to the pool itself, `CleanList` returns them
once more. -/
def updateProjectile (enqueuesInLoop : Bool) (expired : List ℕ) (e : Pattern) (p : ObjectPool) :
    Pattern × ObjectPool :=
  let removal := e.bullets.filter (· ∈ expired)
  match if enqueuesInLoop then returnAll removal p else (p, none) with
  | (p, some _) => (e, p)
  | (p, none) =>
    match if removal = [] then ((e.bullets, p), none) else cleanList removal e.bullets p with
    | ((bullets, p), some _) => ({ e with bullets := bullets }, p)
    | ((bullets, p), none) =>
      ({ e with
          bullets := bullets
          life := if bullets = [] then e.life.destroy else e.life }, p)

def fixedUpdate (expired : List ℕ) (e : Pattern) (p : ObjectPool) : Pattern × ObjectPool :=
  match e.kind with
  | .cirlcePattern => updateProjectile false expired e p
  | .singleShotPattern => updateProjectile true expired e p
  | .snakePattern => if e.cIsRunning then (e, p) else updateProjectile true expired e p
  | .starPattern => if e.cIsRunning then (e, p) else updateProjectile false expired e p

/-- From `i` to the next `yield`. An exception ends the coroutine. -/
def spawn (i : ℕ) (spawnPos : Vector3) (e : Pattern) (p : ObjectPool) : Pattern × ObjectPool :=
  if i < e.ammount then
    match p.dequeueObject "BaseBullet" with
    | (p, .error _) => ({ e with spawning := none }, p)
    | (p, .ok bul) =>
      ({ e with bullets := e.bullets ++ [bul], spawning := some (i + 1) },
        (p.moveTo bul spawnPos).setActive bul true)
  else ({ e with cIsRunning := false, spawning := none }, p)

/-- What `DequeueObject` hands to the coroutine that goes on at `i`. -/
def takes (i : ℕ) (e : Pattern) (p : ObjectPool) : List ℕ :=
  if i < e.ammount then (p.dequeueObject "BaseBullet").2.toOption.toList else []

def started (kind : PatternClass) (ammount : ℚ) : Pattern :=
  ⟨kind, ammount, [], kind = .starPattern, none, .alive⟩

end Pattern

/-- The level's emitters on their pool. `taken` and `returned` record, for each emitter, what
`DequeueObject` handed to it and what its calls appended to the queue. -/
structure PatternSession where
  pool : ObjectPool
  emitters : ℕ → Option Pattern
  taken : ℕ → List ℕ
  returned : ℕ → List ℕ

namespace PatternSession

def start : PatternSession := ⟨.empty, fun _ => none, fun _ => [], fun _ => []⟩

def bullets (s : PatternSession) (k : ℕ) : List ℕ := ((s.emitters k).map Pattern.bullets).getD []

/-- `fixedUpdate` names the bullets whose life time is over. `destroy` is `Destroy(gameObject)`
from elsewhere; `onDestroy` comes at the end of that frame, or with the scene or a parent. -/
inductive PatternAction
  | setUpPool (pooledSizePrefab : Option Component) (ammount : ℤ)
  | start (k : ℕ) (kind : PatternClass) (ammount : ℚ) (spawnPos : Vector3)
  | resume (k : ℕ) (spawnPos : Vector3)
  | fixedUpdate (k : ℕ) (expired : List ℕ)
  | clearBullets (k : ℕ)
  | destroy (k : ℕ)
  | onDestroy (k : ℕ)

def life (s : PatternSession) (k : ℕ) : Life := ((s.emitters k).map Pattern.life).getD .destroyed

def Enabled (s : PatternSession) : PatternAction → Prop
  | .setUpPool _ _ => True
  | .start k _ _ _ => s.emitters k = none
  | .resume k _ => s.life k ≠ .destroyed ∧ ((s.emitters k).bind Pattern.spawning).isSome
  | .fixedUpdate k _ | .clearBullets k | .destroy k | .onDestroy k => s.life k ≠ .destroyed

instance (s : PatternSession) (a : PatternAction) : Decidable (s.Enabled a) := by
  cases a <;> dsimp only [Enabled] <;> infer_instance

def turn (k : ℕ) (took : List ℕ) (s : PatternSession) (r : Pattern × ObjectPool) :
    PatternSession :=
  let appended := (r.2.queue "BaseBullet").drop (s.pool.queue "BaseBullet").length
  { pool := r.2
    emitters := Function.update s.emitters k (some r.1)
    taken := Function.update s.taken k (s.taken k ++ took)
    returned := Function.update s.returned k (s.returned k ++ appended) }

def act (k : ℕ) (f : Pattern → ObjectPool → Pattern × ObjectPool) (s : PatternSession) :
    PatternSession :=
  match s.emitters k with
  | none => s
  | some e => s.turn k [] (f e s.pool)

def next (s : PatternSession) : PatternAction → PatternSession
  | .setUpPool pooledSizePrefab ammount =>
    { s with pool := (s.pool.setUpPool pooledSizePrefab ammount "BaseBullet").1 }
  | .start k kind ammount spawnPos =>
    let e := Pattern.started kind ammount
    s.turn k (e.takes 0 s.pool) (e.spawn 0 spawnPos s.pool)
  | .resume k spawnPos =>
    match s.emitters k with
    | none => s
    | some e =>
      match e.spawning with
      | none => s
      | some i => s.turn k (e.takes i s.pool) (e.spawn i spawnPos s.pool)
  | .fixedUpdate k expired => s.act k (Pattern.fixedUpdate expired)
  | .clearBullets k => s.act k Pattern.clearBullets
  | .destroy k => s.act k (fun e p => ({ e with life := e.life.destroy }, p))
  | .onDestroy k => s.act k Pattern.onDestroy

def system : System PatternSession PatternAction := ⟨Enabled, next⟩

instance (s : PatternSession) (a : PatternAction) : Decidable (system.enabled s a) :=
  inferInstanceAs (Decidable (s.Enabled a))

end PatternSession

end SeminarTouhou
