import SeminarTouhou.Level.EnemyPath

namespace SeminarTouhou

open Library

inductive DeathEvent
  | triggerDrop (dropType : DropTypes)
  | deathAni (position : Vector3)
deriving DecidableEq

structure DeathAni where
  hasSpriteRenderer : Bool
deriving DecidableEq

/-- Of `BaseEnemy` its movement and what its hits read and write, the sounds and the size of the
death animation apart; `collider` is its `BoxCollider2D`. It has the `SpriteRenderer` that
`TakeDamage` switches off. -/
structure MovingEnemy extends PathEnemy where
  health : ℚ
  dropType : DropTypes
  deathAni : Option DeathAni
  hasDeathAniSprite : Bool
  collider : Life
  life : Life
deriving DecidableEq

namespace PathEnemy

variable (moveTowards : Vector2 → Vector2 → ℚ → Vector2) (deltaTime : ℚ)

/-- `DoMovement` up to the comparison with the end position. -/
def moved (e : PathEnemy) : Result :=
  e.findClosestPosition.andThen (fun e => .returns
    (e.moveTo (moveTowards e.position.toVector2 e.currentSelectedPositon (deltaTime * e.speed))))

def comesToEnd (e : PathEnemy) : Bool :=
  (e.moved moveTowards deltaTime).thrown.isNone && (e.moved moveTowards deltaTime).state.reachedEnd

end PathEnemy

namespace MovingEnemy

variable {e : MovingEnemy}

abbrev Result := Outcome MovingEnemy Empty DeathEvent

def after (o : PathEnemy.Result) (e : MovingEnemy) : Result :=
  ⟨{ e with toPathEnemy := o.state }, [], [], o.thrown⟩

def start (e : MovingEnemy) : Result := e.after e.toPathEnemy.start

def doMovement (moveTowards : Vector2 → Vector2 → ℚ → Vector2) (deltaTime : ℚ) (e : MovingEnemy) :
    Result :=
  e.after (e.toPathEnemy.doMovement moveTowards deltaTime)

def createDeathAni (e : MovingEnemy) : Result :=
  match e.deathAni with
  | none => .throws e .argument
  | some ani =>
    if e.hasDeathAniSprite && !ani.hasSpriteRenderer then
      ⟨e, [], [.deathAni e.position], some .nullReference⟩
    else .raises { e with life := e.life.destroy } [.deathAni e.position]

def die (e : MovingEnemy) : Result :=
  let e := { e with
    collider := e.collider.destroy
    dropType := e.dropType.setLocation e.position }
  (Outcome.raises { e with isDead := true } [.triggerDrop e.dropType]).andThen createDeathAni

def takeDamage (damadge : ℚ) (e : MovingEnemy) : Result :=
  if e.isDead then .returns e
  else
    let e := { e with health := e.health - damadge }
    if e.health ≤ 0 then e.die else .returns e

def onTriggerEnter2D (isBullet : Bool) (bulletDamage : ℚ) (e : MovingEnemy) : Result :=
  if isBullet && !e.isBoss then e.takeDamage bulletDamage else .returns e

def endOfFrame (e : MovingEnemy) : MovingEnemy :=
  { e with collider := e.collider.endOfFrame, life := e.life.endOfFrame }

end MovingEnemy

/-- `destroy` is the `Destroy` of the wave manager. -/
inductive HitAction
  | fixedUpdate (deltaTime : ℚ)
  | onTriggerEnter2D (isBullet : Bool) (bulletDamage : ℚ)
  | destroy
  | endOfFrame
deriving DecidableEq

structure EnemyDeath where
  enemy : MovingEnemy
  raised : List DeathEvent
deriving DecidableEq

namespace EnemyDeath

variable (moveTowards : Vector2 → Vector2 → ℚ → Vector2) {s : EnemyDeath} {a : HitAction}

def start (e : MovingEnemy) : EnemyDeath := ⟨e.start.state, []⟩

def act (e : MovingEnemy) : HitAction → MovingEnemy.Result
  | .fixedUpdate deltaTime => e.doMovement moveTowards deltaTime
  | .onTriggerEnter2D isBullet bulletDamage => e.onTriggerEnter2D isBullet bulletDamage
  | .destroy => .returns { e with life := e.life.destroy }
  | .endOfFrame => .returns e.endOfFrame

def next (s : EnemyDeath) (a : HitAction) : EnemyDeath :=
  let o := act moveTowards s.enemy a
  ⟨o.state, s.raised ++ o.raised⟩

def Enabled (s : EnemyDeath) : HitAction → Prop
  | .onTriggerEnter2D _ _ => s.enemy.life ≠ .destroyed ∧ s.enemy.collider ≠ .destroyed
  | _ => s.enemy.life ≠ .destroyed

instance (s : EnemyDeath) (a : HitAction) : Decidable (s.Enabled a) := by
  cases a <;> dsimp only [Enabled] <;> infer_instance

def system : System EnemyDeath HitAction := ⟨Enabled, next moveTowards⟩

instance (s : EnemyDeath) (a : HitAction) : Decidable ((system moveTowards).enabled s a) :=
  inferInstanceAs (Decidable (s.Enabled a))

def drops (s : EnemyDeath) : List DeathEvent := s.raised.filter (· matches .triggerDrop _)

def animations (s : EnemyDeath) : List DeathEvent := s.raised.filter (· matches .deathAni _)

structure DiesOnce (s : EnemyDeath) (a : HitAction) : Prop where
  drops : (s.next moveTowards a).drops.length ≤ 1
  animations : (s.next moveTowards a).animations.length ≤ 1
  isDead : s.enemy.isDead = true → (s.next moveTowards a).enemy.isDead = true

/-- A dead enemy that is still there is not moved to its end position. -/
def NotRevived (s : EnemyDeath) : HitAction → Prop
  | .fixedUpdate deltaTime =>
    s.enemy.isDead = true → s.enemy.comesToEnd moveTowards deltaTime = false
  | _ => True

instance (s : EnemyDeath) (a : HitAction) : Decidable (s.NotRevived moveTowards a) := by
  cases a <;> dsimp only [NotRevived] <;> infer_instance

end EnemyDeath

namespace PathEnemy

variable (moveTowards : Vector2 → Vector2 → ℚ → Vector2) (deltaTime : ℚ) (e : PathEnemy)

theorem doMovement_eq : e.doMovement moveTowards deltaTime = (e.moved moveTowards deltaTime).andThen
    (fun e => .returns (if e.reachedEnd then { e with isAtEnd := true, isDead := false } else e)) := by
  rw [doMovement, moved]
  obtain ⟨t, sent, raised, thrown⟩ := e.findClosestPosition
  cases thrown with
  | some x => rfl
  | none => simp [Outcome.andThen]

theorem findClosestPosition_isDead : e.findClosestPosition.state.isDead = e.isDead := by
  dsimp only [findClosestPosition]
  split_ifs
  · rfl
  · split <;> rfl
  · rfl

theorem moved_isDead : (e.moved moveTowards deltaTime).state.isDead = e.isDead := by
  rw [moved, Outcome.andThen]
  split <;> exact e.findClosestPosition_isDead

theorem doMovement_isDead : (e.doMovement moveTowards deltaTime).state.isDead =
    (!e.comesToEnd moveTowards deltaTime && e.isDead) := by
  have hmoved := e.moved_isDead moveTowards deltaTime
  rw [doMovement_eq, Outcome.andThen, comesToEnd]
  cases ht : (e.moved moveTowards deltaTime).thrown with
  | some x => simpa using hmoved
  | none =>
    cases hr : (e.moved moveTowards deltaTime).state.reachedEnd with
    | false => simpa using hmoved
    | true => simp

end PathEnemy

namespace MovingEnemy

theorem doMovement_isDead (moveTowards : Vector2 → Vector2 → ℚ → Vector2) (deltaTime : ℚ)
    (e : MovingEnemy) : (e.doMovement moveTowards deltaTime).state.isDead =
      (!e.comesToEnd moveTowards deltaTime && e.isDead) :=
  PathEnemy.doMovement_isDead moveTowards deltaTime e.toPathEnemy

theorem die_raises (e : MovingEnemy) :
    e.die.state.isDead = true ∧
      ∃ rest, e.die.raised = .triggerDrop (e.dropType.setLocation e.position) :: rest ∧
        (rest = [] ∨ rest = [.deathAni e.position]) := by
  rw [die, Outcome.andThen]
  cases ha : e.deathAni with
  | none => simp [createDeathAni]
  | some ani =>
    by_cases hs : e.hasDeathAniSprite && !ani.hasSpriteRenderer
    all_goals simp [createDeathAni, hs]

theorem onTriggerEnter2D_cases (isBullet : Bool) (bulletDamage : ℚ) (e : MovingEnemy) :
    (e.onTriggerEnter2D isBullet bulletDamage).state.isDead = e.isDead ∧
        (e.onTriggerEnter2D isBullet bulletDamage).raised = [] ∨
      e.isDead = false ∧
        e.onTriggerEnter2D isBullet bulletDamage =
          { e with health := e.health - bulletDamage }.die := by
  rw [onTriggerEnter2D, takeDamage]
  by_cases hbullet : isBullet && !e.isBoss
  · cases hdead : e.isDead with
    | true => simp [hbullet, hdead]
    | false =>
      by_cases hhealth : e.health - bulletDamage ≤ 0
      · right
        simp [hbullet, hhealth]
      · left
        simp [hbullet, hhealth, hdead]
  · left
    simp [hbullet]

end MovingEnemy

namespace EnemyDeath

variable {moveTowards : Vector2 → Vector2 → ℚ → Vector2} {s : EnemyDeath} {a : HitAction}

structure Once (s : EnemyDeath) : Prop where
  drops : s.drops.length ≤ 1
  animations : s.animations.length ≤ 1
  alive : s.enemy.isDead = false → s.raised = []

theorem Once.of_raised_eq {t : EnemyDeath} (h : s.Once) (hr : t.raised = s.raised)
    (hd : t.enemy.isDead = false → s.enemy.isDead = false) : t.Once := by
  refine ⟨?_, ?_, ?_⟩
  · rw [EnemyDeath.drops, hr]
    exact h.drops
  · rw [EnemyDeath.animations, hr]
    exact h.animations
  · intro ht
    rw [hr]
    exact h.alive (hd ht)

theorem Once.hit (h : s.Once) (isBullet : Bool) (bulletDamage : ℚ) :
    (s.next moveTowards (.onTriggerEnter2D isBullet bulletDamage)).Once := by
  rcases s.enemy.onTriggerEnter2D_cases isBullet bulletDamage with ⟨hd, hr⟩ | ⟨hd, hdie⟩
  · refine h.of_raised_eq ?_ ?_
    · rw [next, act, hr, List.append_nil]
    · intro ht
      rwa [next, act, hd] at ht
  · have hraised := h.alive hd
    obtain ⟨hdead, rest, hr, hrest⟩ :=
      MovingEnemy.die_raises { s.enemy with health := s.enemy.health - bulletDamage }
    rw [next, act, hdie, hraised, hr, List.nil_append]
    obtain rfl | rfl := hrest
    all_goals
      refine ⟨by simp [EnemyDeath.drops], by simp [EnemyDeath.animations], ?_⟩
      intro ht
      simp [hdead] at ht

theorem Once.next (h : s.Once) (ho : s.NotRevived moveTowards a) : (s.next moveTowards a).Once := by
  cases a with
  | fixedUpdate deltaTime =>
    refine h.of_raised_eq (List.append_nil _) ?_
    intro ht
    by_contra hd
    have hr := ho (Bool.not_eq_false _ ▸ hd)
    simp [EnemyDeath.next, act, MovingEnemy.doMovement_isDead, hr, hd] at ht
  | onTriggerEnter2D isBullet bulletDamage => exact h.hit isBullet bulletDamage
  | destroy => exact h.of_raised_eq (List.append_nil _) id
  | endOfFrame => exact h.of_raised_eq (List.append_nil _) id

theorem isDead_next (hd : s.enemy.isDead = true) :
    (s.next moveTowards a).enemy.isDead = true ↔ s.NotRevived moveTowards a := by
  cases a with
  | fixedUpdate deltaTime =>
    simp [EnemyDeath.next, act, MovingEnemy.doMovement_isDead, NotRevived, hd]
  | onTriggerEnter2D isBullet bulletDamage =>
    apply iff_of_true _ trivial
    rcases s.enemy.onTriggerEnter2D_cases isBullet bulletDamage with ⟨hsame, -⟩ | ⟨halive, -⟩
    · exact hsame.trans hd
    · rw [hd] at halive
      cases halive
  | destroy => exact iff_of_true hd trivial
  | endOfFrame => exact iff_of_true hd trivial

theorem notRevived_of_alive (hd : s.enemy.isDead = false) : s.NotRevived moveTowards a := by
  cases a with
  | fixedUpdate deltaTime =>
    intro ht
    rw [hd] at ht
    cases ht
  | _ => trivial

theorem Once.diesOnce_iff (h : s.Once) :
    s.DiesOnce moveTowards a ↔ s.NotRevived moveTowards a := by
  constructor
  · intro hq
    cases hd : s.enemy.isDead with
    | true => exact (isDead_next hd).mp (hq.isDead hd)
    | false => exact notRevived_of_alive hd
  · intro ho
    have hnext := h.next ho
    exact ⟨hnext.drops, hnext.animations, fun hd => (isDead_next hd).mpr ho⟩

/-- `DoMovement` writes the flag too: it revives an enemy that died in the same frame. -/
theorem dies_once_iff {e : MovingEnemy} {as : List HitAction}
    (hl : (system moveTowards).Legal (start e) as) :
    (system moveTowards).Meets (DiesOnce moveTowards) (start e) as ↔
      (system moveTowards).Meets (NotRevived moveTowards) (start e) as := by
  have hstart : (start e).Once := ⟨Nat.zero_le 1, Nat.zero_le 1, fun _ => rfl⟩
  exact System.meets_iff (fun s a h _ ho => Once.next h ho) (fun s a h _ => h.diesOnce_iff) hstart hl

/-- `MoveTowards` when the target is in reach. -/
def step (_current target : Vector2) (_maxDistanceDelta : ℚ) : Vector2 := target

def fodder : MovingEnemy where
  toPathEnemy := .spawned ⟨⟨0, 4⟩, ⟨0, 4⟩, []⟩ (1 / 5) 1 false ⟨0, 4, 0⟩
  health := 30
  dropType := ⟨[⟨.score, 1⟩, ⟨.power, 1⟩], ⟨0, 0, 0⟩⟩
  deathAni := some ⟨true⟩
  hasDeathAniSprite := false
  collider := .alive
  life := .alive

theorem dies_once_lastHit :
    let as := [.fixedUpdate (1 / 50), .onTriggerEnter2D true 20, .onTriggerEnter2D true 20,
      .onTriggerEnter2D true 20, .endOfFrame]
    (system step).Meets (DiesOnce step) (start fodder) as ↔
      (system step).Meets (NotRevived step) (start fodder) as :=
  dies_once_iff (by decide +kernel)

/-- Two physics steps in one frame, each with a hit. -/
theorem secondStep_diesTwice : ¬ ∀ e as, (system step).Legal (start e) as →
    (system step).Meets (DiesOnce step) (start e) as := by
  intro h
  let as : List HitAction := [.fixedUpdate (1 / 50), .onTriggerEnter2D true 40, .fixedUpdate (1 / 50)]
  have hlast := (system step).meets_concat
    (h fodder (as ++ [.onTriggerEnter2D true 40]) (by decide +kernel))
  exact absurd hlast.drops (by decide +kernel)

end EnemyDeath

end SeminarTouhou
