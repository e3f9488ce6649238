import SeminarTouhou.Level.StageOrder

namespace SeminarTouhou

open Library

structure CompletionTimeBonus where
  bonusPoints : Int32
  timeToCompleteIn : ℚ
deriving DecidableEq

/-- `Boss` and `MiniBoss` have the same code, up to the `isMoving` they start with. `waiting` counts
the `Co_CheckDistance` coroutines that wait. -/
structure PatrolBoss extends StagedEnemy where
  completionTimeBonusList : List CompletionTimeBonus
  mTimeTracker : ℚ
  positions : PositionContainer
  targetPosition : Vector3
  currentPositionIndex : ℤ
  isMoving : Bool
  waiting : ℕ
deriving DecidableEq

def Vector3.sqrDistance (a b : Vector3) : ℚ := (a.x - b.x) ^ 2 + (a.y - b.y) ^ 2 + (a.z - b.z) ^ 2

namespace PatrolBoss

abbrev Result := Outcome PatrolBoss Empty EnemyEvent

def prefab (isMoving : Bool) (e : StagedEnemy) (completionTimeBonusList : List CompletionTimeBonus)
    (positions : PositionContainer) : PatrolBoss :=
  ⟨e, completionTimeBonusList, 0, positions, ⟨0, 0, 0⟩, 0, isMoving, 0⟩

def intermedatePos (b : PatrolBoss) (i : ℤ) : Option Vector2 :=
  if i < 0 then none else b.positions.intermedatePos[i.toNat]?

/-- `OrderBy` returns a new sequence, which is dropped: the list stays as it is. -/
def init (time : ℚ) (b : PatrolBoss) : Result :=
  let o := b.toStagedEnemy.init
  let b := { b with toStagedEnemy := o.state }
  match o.thrown with
  | some e => .throws b e
  | none =>
    let b := { b with mTimeTracker := time }
    match b.intermedatePos b.currentPositionIndex with
    | none => .throws b .argumentOutOfRange
    | some p => .returns { b with targetPosition := p.toVector3, currentPositionIndex := -1 }

/-- `HandleBonuses` on what is left of the list and on `PlayerInfo.PlayerTimeBonus`. -/
def handleBonuses (completionTime : ℚ) : List CompletionTimeBonus → Int32 → Int32
  | [], playerTimeBonus => playerTimeBonus
  | bonus :: rest, playerTimeBonus =>
    if completionTime ≤ bonus.timeToCompleteIn then playerTimeBonus + bonus.bonusPoints
    else handleBonuses completionTime rest playerTimeBonus

def specialMoveHandeler (b : PatrolBoss) : PatrolBoss :=
  if b.currentStage = 2 then { b with isMoving := true } else b

/-- `distance < 0.5`, without the root -/
def near (b : PatrolBoss) : Bool := decide (b.position.sqrDistance b.targetPosition < (1 / 2) ^ 2)

def moveOn (moveTowards : Vector2 → Vector2 → ℚ → Vector2) (deltaTime : ℚ) (b : PatrolBoss) :
    PatrolBoss :=
  let p := moveTowards b.position.toVector2 b.targetPosition.toVector2 (deltaTime * (3 / 2))
  { b with position := ⟨p.x, p.y, b.position.z⟩ }

/-- `Co_CheckDistance` up to its wait. -/
def checkDistance (b : PatrolBoss) : PatrolBoss :=
  { b with isMoving := false, waiting := b.waiting + 1 }

def moveAgain (b : PatrolBoss) : PatrolBoss :=
  { b with isMoving := true, waiting := b.waiting - 1 }

def doMovement (moveTowards : Vector2 → Vector2 → ℚ → Vector2) (deltaTime : ℚ) (b : PatrolBoss) :
    Result :=
  if b.near then
    let next := b.currentPositionIndex + 1
    let i := if b.positions.intermedatePos.length ≤ next then 0 else next
    let b := { b with currentPositionIndex := i }
    match b.intermedatePos i with
    | none => .throws b .argumentOutOfRange
    | some p =>
      .returns (moveOn moveTowards deltaTime { b with targetPosition := p.toVector3 }.checkDistance)
  else .returns (b.moveOn moveTowards deltaTime)

def fixedUpdate (moveTowards : Vector2 → Vector2 → ℚ → Vector2) (deltaTime : ℚ) (b : PatrolBoss) :
    Result :=
  if b.isMoving then b.doMovement moveTowards deltaTime else .returns b

/-- What a method of the base class leaves behind; `StageComplete` calls `SpecialMoveHandeler`. -/
def after (o : StagedEnemy.Result) (b : PatrolBoss) : PatrolBoss :=
  let b := { b with toStagedEnemy := o.state }
  if .stageComplete ∈ o.raised then b.specialMoveHandeler else b

end PatrolBoss

def Boss.prefab : StagedEnemy → List CompletionTimeBonus → PositionContainer → PatrolBoss :=
  PatrolBoss.prefab false

def MiniBoss.prefab : StagedEnemy → List CompletionTimeBonus → PositionContainer → PatrolBoss :=
  PatrolBoss.prefab true

/-- A boss, `PlayerInfo.PlayerTimeBonus` and the targets that the boss has had since `Init`. -/
structure PatrolSession where
  boss : PatrolBoss
  playerTimeBonus : Int32
  targets : List Vector3
deriving DecidableEq

/-- `stage` is what happens to the boss as a `TempEnemy`, at `Time.time`. -/
inductive PatrolAction
  | stage (time : ℚ) (a : StageAction)
  | fixedUpdate (deltaTime : ℚ)
  | moveAgain
deriving DecidableEq

namespace PatrolSession

variable (moveTowards : Vector2 → Vector2 → ℚ → Vector2)

def start (b : PatrolBoss) (time : ℚ) (playerTimeBonus : Int32) : PatrolSession :=
  ⟨(b.init time).state, playerTimeBonus, [(b.init time).state.targetPosition]⟩

/-- Whether `TakeDamage` comes to `Kill`, whose override begins with `HandleBonuses`. -/
def Kills (s : PatrolSession) : PatrolAction → Bool
  | .stage _ (.hit damage deltaTime _) => (s.boss.toTempEnemy.takeDamage damage deltaTime).2
  | _ => false

def Reaches (s : PatrolSession) : PatrolAction → Bool
  | .fixedUpdate _ => s.boss.isMoving && s.boss.near
  | _ => false

def act (b : PatrolBoss) : PatrolAction → PatrolBoss
  | .stage _ a => b.after (StageSession.act a b.toStagedEnemy)
  | .fixedUpdate deltaTime => (b.fixedUpdate moveTowards deltaTime).state
  | .moveAgain => b.moveAgain

def bonusAfter (s : PatrolSession) (time : ℚ) : Int32 :=
  PatrolBoss.handleBonuses (time - s.boss.mTimeTracker) s.boss.completionTimeBonusList s.playerTimeBonus

def next (s : PatrolSession) (a : PatrolAction) : PatrolSession where
  boss := act moveTowards s.boss a
  playerTimeBonus :=
    match a with
    | .stage time _ => if s.Kills a then s.bonusAfter time else s.playerTimeBonus
    | _ => s.playerTimeBonus
  targets := if s.Reaches a then s.targets ++ [(act moveTowards s.boss a).targetPosition] else s.targets

@[simp] theorem next_boss (s : PatrolSession) (a : PatrolAction) :
    (s.next moveTowards a).boss = act moveTowards s.boss a := rfl

theorem next_targets (s : PatrolSession) (a : PatrolAction) :
    (s.next moveTowards a).targets =
      if s.Reaches a then s.targets ++ [(s.next moveTowards a).boss.targetPosition]
      else s.targets := rfl

def Enabled (s : PatrolSession) : PatrolAction → Prop
  | .stage _ (.move _) => False
  | .moveAgain => s.boss.life ≠ .destroyed ∧ 0 < s.boss.waiting
  | _ => s.boss.life ≠ .destroyed

instance (s : PatrolSession) (a : PatrolAction) : Decidable (s.Enabled a) := by
  rcases a with ⟨_, _ | _ | _ | _ | _⟩ | _ | _ <;> dsimp only [Enabled] <;> infer_instance

def system : System PatrolSession PatrolAction := ⟨Enabled, next moveTowards⟩

instance (s : PatrolSession) (a : PatrolAction) : Decidable ((system moveTowards).enabled s a) :=
  inferInstanceAs (Decidable (s.Enabled a))

end PatrolSession

end SeminarTouhou
