import SeminarTouhou.Level.LevelSession
import SeminarTouhou.Level.Sequencer

namespace SeminarTouhou

open Library

inductive DropType
  | power
  | score
  | life
  | defBomb
  | offBomb
deriving DecidableEq

structure DropCont where
  dropType : DropType
  ammount : ℤ
deriving DecidableEq

structure DropTypes where
  dropList : List DropCont
  locaiton : Vector3
deriving DecidableEq

def DropTypes.setLocation (location : Vector3) (d : DropTypes) : DropTypes :=
  { d with locaiton := location }

inductive EnemyEvent
  | triggerDrop (stage : ℕ) (dropType : DropTypes)
  | enemyDeath
  | stageComplete
  | enemyRespawnUpdate (time : ℚ)
  | playerWin (isOwningPlayer : Bool) (winPos : Vector3)
  | playerResult (resultContext : ResultContext)
deriving DecidableEq

/-- `TempEnemy` with everything its stages bring about. `drops` are the `drops` of each stage. -/
structure StagedEnemy extends TempEnemy where
  drops : List (Option DropTypes)
  containter : List (List AttackData)
  conIndex : ℕ
  sequencer : Sequencer
  position : Vector3
  life : Life
deriving DecidableEq

namespace StagedEnemy

abbrev Result := Outcome StagedEnemy Empty EnemyEvent

def prefab (mEnemyType : EnemyType) (stages : List BossStage) (drops : List (Option DropTypes))
    (containter : List (List AttackData)) (sequencer : Sequencer) (position : Vector3) :
    StagedEnemy :=
  ⟨⟨mEnemyType, stages, false, 0, 0, 0, false, false⟩, drops, containter, 0, sequencer, position, .alive⟩

def init (e : StagedEnemy) : Result :=
  match e.stages[0]? with
  | none => .throws e .argumentOutOfRange
  | some stage =>
    .returns { e with
      currentHealth := stage.maxHealth
      currentRespawnTime := stage.respawnTime
      isDead := false
      sequencer := e.sequencer.spawnEmmiter }

/-- `ClearAttackList` and `CleanSequencer`. From the second stage on the list that the sequencer
holds, and clears, is the one in `containter`. -/
def stopAttacks (e : StagedEnemy) : StagedEnemy :=
  { e with
    containter := if 0 < e.conIndex then e.containter.set e.conIndex [] else e.containter
    sequencer := e.sequencer.clearAttackList.cleanSequencer }

def triggerDrop (e : StagedEnemy) : List EnemyEvent :=
  match e.drops[e.currentStage]? with
  | some (some d) => [.triggerDrop e.currentStage (d.setLocation e.position)]
  | _ => []

/-- `player` is what `FindGameObjectWithTag` finds. -/
def kill (player : Option Vector3) (e : StagedEnemy) : Result :=
  let e := stopAttacks { e with isDead := true }
  let events := .enemyDeath :: e.triggerDrop
  match e.mEnemyType with
  | .finalBoss =>
    match player with
    | none => ⟨e, [], events, some .nullReference⟩
    | some pos =>
      .raises { e with life := e.life.destroy }
        (events ++ [.playerWin true pos, .playerResult .playerWon])
  | .midBoss => .raises { e with life := e.life.destroy } events
  | .enemy => .raises e events

/-- A missing stage, or a missing attack list, throws after it was counted. -/
def revive (e : StagedEnemy) : Result :=
  if e.isDead then
    let e := { e with isDead := false, currentStage := e.currentStage + 1 }
    match e.stages[e.currentStage]? with
    | none => .throws e .argumentOutOfRange
    | some stage =>
      let e := { e with
        currentHealth := stage.maxHealth
        currentRespawnTime := stage.respawnTime
        conIndex := e.conIndex + 1 }
      match e.containter[e.conIndex]? with
      | none => .throws e .argumentOutOfRange
      | some attacks =>
        .raises { e with sequencer := (e.sequencer.setSequeceList attacks).spawnEmmiter }
          [.stageComplete, .enemyRespawnUpdate e.currentRespawnTime]
  else .returns e

/-- One pass of the loop in `Respawn`, or what comes after it. -/
def respawn (deltaTime : ℚ) (e : StagedEnemy) : Result :=
  if 0 ≤ e.currentRespawnTime then
    .raises { e with currentRespawnTime := e.currentRespawnTime - deltaTime, respawning := true }
      [.enemyRespawnUpdate (e.currentRespawnTime - deltaTime)]
  else revive { e with isInvincible := false, respawning := false }

/-- `Respawn` up to its first `yield`. -/
def startRespawn (deltaTime : ℚ) (e : StagedEnemy) : Result :=
  respawn deltaTime { e with isInvincible := true, isDead := true }

def takeDamage (stage : ℕ) (damage deltaTime : ℚ) (player : Option Vector3) (e : StagedEnemy) :
    Result :=
  if e.isDead || e.isInvincible then .returns e
  else
    match e.stages[stage]? with
    | none => .throws { e with currentHealth := e.currentHealth - damage } .argumentOutOfRange
    | some s =>
      let e := { e with
        currentHealth := clamp (e.currentHealth - damage) 0 (s.maxHealth : ℚ) }
      if e.currentHealth ≤ 0 then
        if e.currentStage + 1 ≠ e.stages.length then
          Outcome.andThen (.raises e.stopAttacks e.triggerDrop) (startRespawn deltaTime)
        else e.kill player
      else .returns e

/-- A bullet hits: `TakeDamage` with the current stage and the damage of the player's bullets. -/
def onTriggerEnter2D (damage deltaTime : ℚ) (player : Option Vector3) (e : StagedEnemy) : Result :=
  if e.isDead || e.isInvincible then .returns e
  else e.takeDamage e.currentStage damage deltaTime player

section Stages

variable (e : StagedEnemy)

theorem revive_toTempEnemy : e.revive.state.toTempEnemy = e.toTempEnemy.revive := by
  simp only [revive, TempEnemy.revive]
  by_cases hd : e.isDead = true
  · simp only [if_pos hd]
    cases e.stages[e.currentStage + 1]? with
    | none => rfl
    | some stage =>
      dsimp only
      cases e.containter[e.conIndex + 1]? with
      | none => rfl
      | some attacks => rfl
  · simp only [if_neg hd]
    rfl

theorem respawn_toTempEnemy (deltaTime : ℚ) :
    (e.respawn deltaTime).state.toTempEnemy = e.toTempEnemy.respawn deltaTime := by
  simp only [respawn, TempEnemy.respawn]
  split_ifs
  · rfl
  · exact revive_toTempEnemy _

theorem kill_toTempEnemy (player : Option Vector3) :
    (e.kill player).state.toTempEnemy = { e.toTempEnemy with isDead := true } := by
  simp only [kill]
  repeat' split
  all_goals rfl

/-- A hit does to the enemy of the level what it does to one with all its stages. -/
theorem onTriggerEnter2D_toTempEnemy (damage deltaTime : ℚ) (player : Option Vector3) :
    (e.onTriggerEnter2D damage deltaTime player).state.toTempEnemy =
      (e.toTempEnemy.takeDamage damage deltaTime).1 := by
  simp only [onTriggerEnter2D, takeDamage, TempEnemy.takeDamage]
  by_cases hg : (e.isDead || e.isInvincible) = true
  · simp only [if_pos hg]
    rfl
  · simp only [if_neg hg]
    cases e.stages[e.currentStage]? with
    | none => rfl
    | some stage =>
      dsimp only
      split_ifs
      · exact respawn_toTempEnemy _ deltaTime
      · exact kill_toTempEnemy _ player
      · rfl

end Stages

end StagedEnemy

structure StageSession where
  enemy : StagedEnemy
  log : List EnemyEvent
deriving DecidableEq

inductive StageAction
  | hit (damage deltaTime : ℚ) (player : Option Vector3)
  | frame (deltaTime : ℚ)
  | move (position : Vector3)
  | destroy
  | endOfFrame
deriving DecidableEq

namespace StageSession

def start (e : StagedEnemy) : StageSession := ⟨e.init.state, e.init.raised⟩

def act (a : StageAction) (e : StagedEnemy) : StagedEnemy.Result :=
  match a with
  | .hit damage deltaTime player => e.onTriggerEnter2D damage deltaTime player
  | .frame deltaTime => if e.respawning then e.respawn deltaTime else .returns e
  | .move position => .returns { e with position := position }
  | .destroy => .returns { e with life := e.life.destroy }
  | .endOfFrame => .returns { e with life := e.life.endOfFrame }

/-- Frame times are positive, damages are not negative, and a destroyed object does nothing. -/
def Enabled (s : StageSession) : StageAction → Prop
  | .hit damage deltaTime _ => s.enemy.life ≠ .destroyed ∧ 0 ≤ damage ∧ 0 < deltaTime
  | .frame deltaTime => s.enemy.life ≠ .destroyed ∧ 0 < deltaTime
  | _ => True

instance (s : StageSession) (a : StageAction) : Decidable (s.Enabled a) := by
  cases a <;> dsimp only [Enabled] <;> infer_instance

def next (s : StageSession) (a : StageAction) : StageSession :=
  ⟨(act a s.enemy).state, s.log ++ (act a s.enemy).raised⟩

def system : System StageSession StageAction := ⟨Enabled, next⟩

instance (s : StageSession) (a : StageAction) : Decidable (system.enabled s a) :=
  inferInstanceAs (Decidable (s.Enabled a))

end StageSession

end SeminarTouhou
