import SeminarTouhou.Level.WaveManager
import SeminarTouhou.Network.ServerHandler

namespace SeminarTouhou

open Library

def clamp {α : Type*} [LT α] [DecidableLT α] (value min max : α) : α :=
  if value < min then min else if max < value then max else value

/-- `bufferedHits` counts the `BufferHits` coroutines that wait. -/
structure PlayerHealth where
  maxHealth : Int32
  currentHealth : Int32
  isDead : Bool
  isInvincible : Bool
  bufferedHits : ℕ
deriving DecidableEq

namespace PlayerHealth

def start (maxHealth : Int32) : PlayerHealth := ⟨maxHealth, maxHealth, false, false, 0⟩

def bufferHits (p : PlayerHealth) : PlayerHealth :=
  { p with isInvincible := true, bufferedHits := p.bufferedHits + 1 }

/-- The second component says whether `KillPlayer` is called. -/
def takeDamage (damage : Int32) (p : PlayerHealth) : PlayerHealth × Bool :=
  if p.isDead || p.isInvincible then (p, false)
  else
    let p := { p with currentHealth := clamp (p.currentHealth - damage) 0 p.maxHealth }
    if p.currentHealth ≤ 0 then (bufferHits { p with isDead := true }, true)
    else (p.bufferHits, false)

def vulnerable (p : PlayerHealth) : PlayerHealth :=
  { p with isInvincible := false, bufferedHits := p.bufferedHits - 1 }

def heal (amount : Int32) (p : PlayerHealth) : PlayerHealth :=
  if p.isDead then p
  else { p with currentHealth := clamp (p.currentHealth + amount) 0 p.maxHealth }

end PlayerHealth

structure BossStage where
  maxHealth : ℤ
  respawnTime : ℚ
deriving DecidableEq

/-- `respawning` says that the `Respawn` coroutine is suspended. -/
structure TempEnemy where
  mEnemyType : EnemyType
  stages : List BossStage
  isDead : Bool
  currentHealth : ℚ
  currentStage : ℕ
  currentRespawnTime : ℚ
  isInvincible : Bool
  respawning : Bool
deriving DecidableEq

namespace TempEnemy

def init (mEnemyType : EnemyType) (stages : List BossStage) : TempEnemy :=
  match stages[0]? with
  | none => ⟨mEnemyType, stages, false, 0, 0, 0, false, false⟩
  | some stage => ⟨mEnemyType, stages, false, stage.maxHealth, 0, stage.respawnTime, false, false⟩

def revive (e : TempEnemy) : TempEnemy :=
  if e.isDead then
    let e := { e with isDead := false, currentStage := e.currentStage + 1 }
    match e.stages[e.currentStage]? with
    | none => e
    | some stage =>
      { e with currentHealth := stage.maxHealth, currentRespawnTime := stage.respawnTime }
  else e

def respawn (deltaTime : ℚ) (e : TempEnemy) : TempEnemy :=
  if 0 ≤ e.currentRespawnTime then
    { e with currentRespawnTime := e.currentRespawnTime - deltaTime, respawning := true }
  else revive { e with isInvincible := false, respawning := false }

/-- Called with the current stage. The second component says whether `Kill` is called. -/
def takeDamage (damage deltaTime : ℚ) (e : TempEnemy) : TempEnemy × Bool :=
  if e.isDead || e.isInvincible then (e, false)
  else
    match e.stages[e.currentStage]? with
    | none => ({ e with currentHealth := e.currentHealth - damage }, false)
    | some stage =>
      let e := { e with
        currentHealth := clamp (e.currentHealth - damage) 0 (stage.maxHealth : ℚ) }
      if e.currentHealth ≤ 0 then
        if e.currentStage + 1 ≠ e.stages.length then
          (respawn deltaTime { e with isInvincible := true, isDead := true }, false)
        else ({ e with isDead := true }, true)
      else (e, false)

end TempEnemy

/-- A level of one player. `bosses` are the `TempEnemy` components of the bosses, `results` the
contexts of the `SendPlayerResultData` events so far. -/
structure LevelSession where
  waves : WaveSession
  midStages : List BossStage
  finalStages : List BossStage
  player : PlayerHealth
  playerLife : Life
  bosses : ℕ → Option TempEnemy
  results : List ResultContext

namespace LevelSession

def start (wave : List WaveContainter) (mid final : EnemyType) (midStages finalStages : List BossStage)
    (maxHealth : Int32) : LevelSession :=
  ⟨.start wave mid final, midStages, finalStages, .start maxHealth, .alive, fun _ => none, []⟩

/-- `deltaTime` is that of the frame in which a `Respawn` runs. -/
inductive LevelAction
  | wave (a : WaveSession.WaveAction)
  | endOfFrame
  | hitPlayer (damage : Int32)
  | heal (amount : Int32)
  | vulnerable
  | hitBoss (x : ℕ) (damage deltaTime : ℚ)
  | respawn (x : ℕ) (deltaTime : ℚ)

/-- Bosses and the manager end in no other way than by a timeout, a kill or the player's death. -/
def Enabled (s : LevelSession) : LevelAction → Prop
  | .wave a => s.waves.Enabled a ∧
    match a with
    | .destroy x => s.bosses x = none
    | .endOfFrame => False
    | .playerDeath => False
    | _ => True
  | .endOfFrame => True
  | .hitPlayer _ => s.playerLife ≠ .destroyed
  | .heal _ => s.playerLife ≠ .destroyed
  | .vulnerable => s.playerLife ≠ .destroyed ∧ 0 < s.player.bufferedHits
  | .hitBoss x _ _ => s.waves.manager.life x ≠ .destroyed ∧ (s.bosses x).isSome
  | .respawn x _ => s.waves.manager.life x ≠ .destroyed ∧ ∃ e ∈ s.bosses x, e.respawning = true

instance (s : LevelSession) (a : LevelAction) : Decidable (s.Enabled a) := by
  rcases a with ⟨_ | _⟩ | _ <;> dsimp only [Enabled] <;> infer_instance

def newBoss (s : LevelSession) : TempEnemy :=
  .init s.waves.manager.toSpawn
    (if s.waves.manager.miniBossSpawned then s.finalStages else s.midStages)

def waveStep (a : WaveSession.WaveAction) (s : LevelSession) : LevelSession :=
  let spawned := (WaveSession.act s.waves.manager a).raised.filterMap WaveSession.bossOf
  { s with
    waves := s.waves.next a
    bosses := fun x => if x ∈ spawned then some s.newBoss else s.bosses x }

def setBoss (x : ℕ) (e : TempEnemy) (s : LevelSession) : LevelSession :=
  { s with bosses := Function.update s.bosses x (some e) }

def destroyBoss (x : ℕ) (s : LevelSession) : LevelSession :=
  { s with waves := { s.waves with manager := s.waves.manager.destroy x } }

/-- `OnPlayerDeath` reaches the wave manager while it is subscribed. -/
def killPlayer (s : LevelSession) : LevelSession :=
  { s with
    waves := if s.waves.manager.activeSelf then s.waves.next .playerDeath else s.waves
    results := s.results ++ [.playerDied]
    playerLife := s.playerLife.destroy }

/-- The end of `Kill`. For a final boss `FindGameObjectWithTag` must find the player, else
`playerOBJ.transform` throws before the events are raised. -/
def kill (x : ℕ) (mEnemyType : EnemyType) (s : LevelSession) : LevelSession :=
  match mEnemyType with
  | .enemy => s
  | .midBoss => s.destroyBoss x
  | .finalBoss =>
    if s.playerLife = .destroyed then s
    else { s.destroyBoss x with results := s.results ++ [.playerWon] }

def next (s : LevelSession) : LevelAction → LevelSession
  | .wave a => s.waveStep a
  | .endOfFrame =>
    { s with waves := s.waves.next .endOfFrame, playerLife := s.playerLife.endOfFrame }
  | .hitPlayer damage =>
    match s.player.takeDamage damage with
    | (p, true) => { s with player := p }.killPlayer
    | (p, false) => { s with player := p }
  | .heal amount => { s with player := s.player.heal amount }
  | .vulnerable => { s with player := s.player.vulnerable }
  | .hitBoss x damage deltaTime =>
    match s.bosses x with
    | none => s
    | some e =>
      match e.takeDamage damage deltaTime with
      | (e, true) => (s.setBoss x e).kill x e.mEnemyType
      | (e, false) => s.setBoss x e
  | .respawn x deltaTime =>
    match s.bosses x with
    | none => s
    | some e => s.setBoss x (e.respawn deltaTime)

def system : System LevelSession LevelAction := ⟨Enabled, next⟩

instance (s : LevelSession) (a : LevelAction) : Decidable (system.enabled s a) :=
  inferInstanceAs (Decidable (s.Enabled a))

end LevelSession

end SeminarTouhou
