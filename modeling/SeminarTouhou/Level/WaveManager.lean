import SeminarTouhou.Engine.GameObject

namespace SeminarTouhou

open Library

inductive EnemyType
  | enemy
  | midBoss
  | finalBoss
deriving DecidableEq

structure PositionContainer where
  spawnPosition : Vector2
  endPosition : Vector2
  intermedatePos : List Vector2
deriving DecidableEq

/-- An entry whose `enemy` prefab is `null` stands for a boss. -/
structure WaveContainter where
  enemy : Option ℕ
  isCustomTime : Bool
  timeTillSpawn : ℚ
  pos : PositionContainer
deriving DecidableEq

/-- `waitTillActivesEmpty` waits for the timer first and then, `ready`, for the enemies. -/
inductive Routine
  | waitForNextSpawn
  | waitTillActivesEmpty (ready : Bool)
  | waitForBossToDie
  | timeTillTimeOut
deriving DecidableEq

inductive WaveEvent
  | process (entry : WaveContainter) (index : ℕ)
  | spawnEnemy (obj : ℕ)
  | transitionBG (bgIndex cloudLevIndex cloudShadowIndex : ℤ)
  | spawnBoss (obj : ℕ)
deriving DecidableEq

structure WaveObject where
  position : Vector3
  posData : Option PositionContainer
  life : Life
deriving DecidableEq

/-- `midBoss` and `finalBoss` are the types of the two boss prefabs, `routines` the manager's
suspended coroutines, and `objects` what it instantiated so far. -/
structure WaveManager where
  wave : List WaveContainter
  midBoss : EnemyType
  finalBoss : EnemyType
  activeList : List ℕ
  activeBoss : Option ℕ
  currentTime : ℚ
  shouldSpawn : Bool
  bossState : Bool
  miniBossSpawned : Bool
  waveIndex : ℕ
  timeOutTimer : Option ℕ
  activeSelf : Bool
  routines : ℕ → Option Routine
  startedRoutines : ℕ
  objects : ℕ → WaveObject
  instances : ℕ

namespace WaveManager

abbrev Result := Outcome WaveManager Empty WaveEvent

def centerPosition : Vector3 := ⟨-266 / 100, 313 / 100, 0⟩

def onObject (x : ℕ) (f : WaveObject → WaveObject) (m : WaveManager) : WaveManager :=
  { m with objects := Function.update m.objects x (f (m.objects x)) }

def destroy (x : ℕ) : WaveManager → WaveManager :=
  onObject x (fun o => { o with life := o.life.destroy })

def life (m : WaveManager) (x : ℕ) : Life := (m.objects x).life

def isNull (m : WaveManager) (x : ℕ) : Bool := m.life x = .destroyed

def instantiate (position : Vector3) (posData : Option PositionContainer) (m : WaveManager) :
    WaveManager :=
  { m with
    objects := Function.update m.objects m.instances ⟨position, posData, .alive⟩
    instances := m.instances + 1 }

def startCoroutine (c : Routine) (m : WaveManager) : WaveManager :=
  { m with
    routines := Function.update m.routines m.startedRoutines (some c)
    startedRoutines := m.startedRoutines + 1 }

def stopCoroutine (r : ℕ) (m : WaveManager) : WaveManager :=
  { m with routines := Function.update m.routines r none }

def changeWaveState (state : Bool) (m : WaveManager) : WaveManager :=
  let m := { m with bossState := state }
  if state then m.startCoroutine (.waitTillActivesEmpty false) else { m with activeBoss := none }

def bossNext (m : WaveManager) : Bool := (m.wave[m.waveIndex + 1]?).any (·.enemy.isNone)

def transitionBG (m : WaveManager) : WaveEvent :=
  if m.miniBossSpawned then .transitionBG 2 (-1) (-1) else .transitionBG 1 0 0

def setTimer (entry : WaveContainter) (m : WaveManager) : WaveManager :=
  { m with currentTime := if entry.isCustomTime then entry.timeTillSpawn else 0 }

def addEnemy (entry : WaveContainter) (m : WaveManager) : WaveManager :=
  { m.instantiate entry.pos.spawnPosition.toVector3 (some entry.pos) with
    activeList := m.activeList ++ [m.instances] }

def waitAndAdvance (m : WaveManager) : WaveManager :=
  { m.startCoroutine .waitForNextSpawn with waveIndex := m.waveIndex + 1 }

/-- `transition` is the exception that a subscriber of `OnTransitionBG` throws, if one does. -/
def spawnEnemy (transition : Option Exn) (m : WaveManager) : Result :=
  if m.shouldSpawn && !m.bossState then
    match m.wave[m.waveIndex]? with
    | none => .returns m
    | some entry =>
      let m := m.setTimer entry
      match entry.enemy with
      | none => .raises (m.changeWaveState true) [.process entry m.waveIndex]
      | some _ =>
        let spawned := [.process entry m.waveIndex, .spawnEnemy m.instances]
        let m := m.addEnemy entry
        if m.bossNext then
          match transition with
          | some e => ⟨m, [], spawned ++ [m.transitionBG], some e⟩
          | none => .raises m.waitAndAdvance (spawned ++ [m.transitionBG])
        else .raises m.waitAndAdvance spawned
  else .returns m

def toSpawn (m : WaveManager) : EnemyType := if m.miniBossSpawned then m.finalBoss else m.midBoss

def addBoss (m : WaveManager) : WaveManager :=
  { m.instantiate centerPosition none with
    miniBossSpawned := true
    activeBoss := some m.instances }

def startTimeOut (m : WaveManager) : WaveManager :=
  { m.startCoroutine .timeTillTimeOut with timeOutTimer := some m.startedRoutines }

def spawnBoss (m : WaveManager) : Result :=
  let listening := m.addBoss.startCoroutine .waitForBossToDie
  .raises (if m.toSpawn ≠ .finalBoss then listening.startTimeOut else listening)
    [.spawnBoss m.instances]

/-- `if(activeBoss != null && activeBoss.Item1 != null)`, then `Destroy(activeBoss.Item1)` -/
def destroyActiveBoss (m : WaveManager) : WaveManager :=
  { m with
    objects :=
      match m.activeBoss with
      | some boss => if m.isNull boss then m.objects else (m.destroy boss).objects
      | none => m.objects }

def leaveBoss (m : WaveManager) : WaveManager :=
  ({ m.destroyActiveBoss with activeBoss := none }.changeWaveState false).waitAndAdvance

/-- `StopCoroutine(Co_TimeTillTimeOut())` stops nothing: the enumerator it gets is a new one. Only
`StopCoroutine(timeOutTimer)` does, and throws when no timer was ever started. -/
def bossDead (m : WaveManager) : Result :=
  match m.timeOutTimer with
  | some r => .returns (m.leaveBoss.stopCoroutine r)
  | none => .throws m.leaveBoss .nullReference

def checkIfActiveBossDead (m : WaveManager) : Bool :=
  match m.activeBoss with
  | some boss => m.isNull boss
  | none => true

def checkActivesForEmpty (m : WaveManager) : Bool := m.activeList.length = 0

def readyToSpawnNextEnemy (m : WaveManager) : Bool := m.currentTime ≤ 0

def doTimer (deltaTime : ℚ) (m : WaveManager) : WaveManager :=
  if m.currentTime > 0 then { m with currentTime := m.currentTime - deltaTime }
  else { m with currentTime := 0 }

/-- `shouldDestroy` holds the enemies of which `ShouldDestroy` says so. -/
def checkActives (shouldDestroy : List ℕ) (m : WaveManager) : WaveManager :=
  let m := { m with
    objects := fun x =>
      if x ∈ m.activeList ∧ x ∈ shouldDestroy then (m.destroy x).objects x else m.objects x }
  { m with activeList := m.activeList.filter (fun x => !m.isNull x) }

/-- The subscriber of `OnPlayerDeath`. `SetActive(false)` ends all coroutines and unsubscribes. -/
def clearAndDisable (m : WaveManager) : WaveManager :=
  { { m with activeList := [] }.destroyActiveBoss with
    activeBoss := none
    activeSelf := false
    routines := fun _ => none }

def ready (m : WaveManager) : Routine → Bool
  | .waitForNextSpawn => m.readyToSpawnNextEnemy
  | .waitTillActivesEmpty false => m.readyToSpawnNextEnemy
  | .waitTillActivesEmpty true => m.checkActivesForEmpty
  | .waitForBossToDie => m.checkIfActiveBossDead
  | .timeTillTimeOut => true

def resume (r : ℕ) (transition : Option Exn) (m : WaveManager) : Result :=
  match m.routines r with
  | none => .returns m
  | some (.waitTillActivesEmpty false) =>
    .returns { m with routines := Function.update m.routines r (some (.waitTillActivesEmpty true)) }
  | some .waitForNextSpawn => (m.stopCoroutine r).spawnEnemy transition
  | some (.waitTillActivesEmpty true) => (m.stopCoroutine r).spawnBoss
  | some .waitForBossToDie => (m.stopCoroutine r).bossDead
  | some .timeTillTimeOut => (m.stopCoroutine r).bossDead

def endOfFrame (m : WaveManager) : WaveManager :=
  { m with objects := fun x => { m.objects x with life := (m.objects x).life.endOfFrame } }

def loaded (wave : List WaveContainter) (mid final : EnemyType) : WaveManager where
  wave := wave
  midBoss := mid
  finalBoss := final
  activeList := []
  activeBoss := none
  currentTime := 0
  shouldSpawn := true
  bossState := false
  miniBossSpawned := false
  waveIndex := 0
  timeOutTimer := none
  activeSelf := true
  routines := fun _ => none
  startedRoutines := 0
  objects := fun _ => ⟨⟨0, 0, 0⟩, none, .destroyed⟩
  instances := 0

end WaveManager

/-- A level's wave manager, with the entries it processed, each with its index, and the bosses it
instantiated. -/
structure WaveSession where
  manager : WaveManager
  started : Bool
  processed : List (WaveContainter × ℕ)
  bosses : List ℕ

namespace WaveSession

/-- `destroy` is an enemy or a boss that destroys itself when it is killed. The `Option Exn` is
what a subscriber of `OnTransitionBG` throws. -/
inductive WaveAction
  | start (transition : Option Exn)
  | resume (r : ℕ) (transition : Option Exn)
  | fixedUpdate (deltaTime : ℚ) (shouldDestroy : List ℕ)
  | destroy (x : ℕ)
  | endOfFrame
  | playerDeath

def Enabled (s : WaveSession) : WaveAction → Prop
  | .start _ => s.started = false ∧ s.manager.activeSelf
  | .resume r _ => ∃ c ∈ s.manager.routines r, s.manager.ready c
  | .fixedUpdate deltaTime _ => s.started ∧ s.manager.activeSelf ∧ 0 ≤ deltaTime
  | .destroy x => x < s.manager.instances
  | .endOfFrame => True
  | .playerDeath => s.manager.activeSelf

instance (s : WaveSession) (a : WaveAction) : Decidable (s.Enabled a) := by
  cases a <;> dsimp only [Enabled] <;> infer_instance

def act (m : WaveManager) : WaveAction → WaveManager.Result
  | .start transition => m.spawnEnemy transition
  | .resume r transition => m.resume r transition
  | .fixedUpdate deltaTime shouldDestroy =>
    .returns ((m.doTimer deltaTime).checkActives shouldDestroy)
  | .destroy x => .returns (m.destroy x)
  | .endOfFrame => .returns m.endOfFrame
  | .playerDeath => .returns m.clearAndDisable

def processedBy : WaveEvent → Option (WaveContainter × ℕ)
  | .process entry index => some (entry, index)
  | _ => none

def bossOf : WaveEvent → Option ℕ
  | .spawnBoss obj => some obj
  | _ => none

def next (s : WaveSession) (a : WaveAction) : WaveSession :=
  let o := act s.manager a
  { manager := o.state
    started := s.started || a matches .start _
    processed := s.processed ++ o.raised.filterMap processedBy
    bosses := s.bosses ++ o.raised.filterMap bossOf }

def system : System WaveSession WaveAction := ⟨Enabled, next⟩

instance (s : WaveSession) (a : WaveAction) : Decidable (system.enabled s a) :=
  inferInstanceAs (Decidable (s.Enabled a))

def start (wave : List WaveContainter) (mid final : EnemyType) : WaveSession :=
  ⟨.loaded wave mid final, false, [], []⟩

end WaveSession

end SeminarTouhou
