import SeminarTouhou.Engine.GameObject

namespace SeminarTouhou

structure AttackData where
  isCustomTime : Bool
  customLifeTime : ℚ
  emmiter : ℕ
deriving DecidableEq

/-- `emitters` are the objects that the sequencer has instantiated, by number, with the attack each
of them carries out; where they stand is left out. -/
structure Sequencer where
  attacks : List AttackData
  shouldLoop : Bool
  currentAttackIndex : ℕ
  activeEmmiter : List ℕ
  timeTillNextAttack : List ℚ
  isCustomTime : Bool
  emitters : List (AttackData × Life)
deriving DecidableEq

namespace Sequencer

def new (attacks : List AttackData) (shouldLoop : Bool) : Sequencer :=
  ⟨attacks, shouldLoop, 0, [], [], false, []⟩

def emitterIsNull (s : Sequencer) (x : ℕ) : Bool :=
  match s.emitters[x]? with
  | none => true
  | some e => e.2 = .destroyed

def getNextAttackEmmiter (s : Sequencer) : Option AttackData × Sequencer :=
  if s.attacks.length ≤ s.currentAttackIndex then
    if s.shouldLoop && !s.attacks.isEmpty then
      (s.attacks[0]?, { s with currentAttackIndex := 0 })
    else (none, s)
  else (s.attacks[s.currentAttackIndex]?, { s with currentAttackIndex := s.currentAttackIndex + 1 })

def addTime (a : AttackData) (s : Sequencer) : Sequencer :=
  if a.isCustomTime then
    { s with
      isCustomTime := true
      timeTillNextAttack := (s.timeTillNextAttack ++ [a.customLifeTime]).insertionSort (· ≤ ·) }
  else { s with isCustomTime := false }

def instantiate (a : AttackData) (s : Sequencer) : Sequencer :=
  { s with
    emitters := s.emitters ++ [(a, .alive)]
    activeEmmiter := s.activeEmmiter ++ [s.emitters.length] }

def cleanList (s : Sequencer) : Sequencer :=
  { s with activeEmmiter := s.activeEmmiter.filter (fun x => !s.emitterIsNull x) }

def spawnEmmiter (s : Sequencer) : Sequencer :=
  match s.getNextAttackEmmiter with
  | (none, s) => s
  | (some a, s) => ((s.addTime a).instantiate a).cleanList

def cleanSequencer (s : Sequencer) : Sequencer :=
  { s with
    emitters := s.emitters.mapIdx (fun x e => if x ∈ s.activeEmmiter then (e.1, e.2.destroy) else e) }

def cleanTimeList (s : Sequencer) : Sequencer :=
  { s with timeTillNextAttack := s.timeTillNextAttack.filter (fun t => 0 < t) }

def checkIfShouldSpawn (s : Sequencer) : Bool × Sequencer :=
  if s.activeEmmiter.isEmpty then (true, s)
  else if s.isCustomTime then
    if s.timeTillNextAttack.any (fun t => t ≤ 0) then (true, s.cleanTimeList) else (false, s)
  else (s.activeEmmiter.getLast?.any s.emitterIsNull, s)

def updateLifeTimes (deltaTime : ℚ) (s : Sequencer) : Sequencer :=
  { s with timeTillNextAttack := s.timeTillNextAttack.map (fun t => t - deltaTime) }

def fixedUpdate (deltaTime : ℚ) (s : Sequencer) : Sequencer :=
  match s.checkIfShouldSpawn with
  | (true, s) => s.spawnEmmiter.updateLifeTimes deltaTime
  | (false, s) => s.updateLifeTimes deltaTime

def getIfAtEnd (s : Sequencer) : Bool := s.activeEmmiter.isEmpty

def emitterEnds (x : ℕ) (s : Sequencer) : Sequencer :=
  { s with emitters := s.emitters.modify x (fun e => (e.1, e.2.destroy)) }

def endOfFrame (s : Sequencer) : Sequencer :=
  { s with emitters := s.emitters.map (fun e => (e.1, e.2.endOfFrame)) }

def clearAttackList (s : Sequencer) : Sequencer := { s with attacks := [] }

def setSequeceList (sequeceList : List AttackData) (s : Sequencer) : Sequencer :=
  { s with attacks := sequeceList }

theorem getNextAttackEmmiter_index (s : Sequencer) :
    ∃ i, s.getNextAttackEmmiter.2 = { s with currentAttackIndex := i } := by
  rw [getNextAttackEmmiter]
  split_ifs
  · exact ⟨0, rfl⟩
  · exact ⟨s.currentAttackIndex, rfl⟩
  · exact ⟨s.currentAttackIndex + 1, rfl⟩

theorem addTime_times (a : AttackData) (s : Sequencer) :
    ∃ custom times, s.addTime a = { s with isCustomTime := custom, timeTillNextAttack := times } := by
  rw [addTime]
  split_ifs
  · exact ⟨true, _, rfl⟩
  · exact ⟨false, s.timeTillNextAttack, rfl⟩

theorem spawnEmmiter_cases (s : Sequencer) : ∃ i,
    s.getNextAttackEmmiter = (none, { s with currentAttackIndex := i }) ∧
        s.spawnEmmiter = { s with currentAttackIndex := i } ∨
      ∃ a custom times, s.getNextAttackEmmiter = (some a, { s with currentAttackIndex := i }) ∧
        s.spawnEmmiter = (instantiate a { s with
          currentAttackIndex := i
          isCustomTime := custom
          timeTillNextAttack := times }).cleanList := by
  obtain ⟨i, hi⟩ := s.getNextAttackEmmiter_index
  refine ⟨i, ?_⟩
  rw [spawnEmmiter]
  rcases hn : s.getNextAttackEmmiter with ⟨_ | a, t⟩
  · rw [hn] at hi
    obtain rfl : t = _ := hi
    exact Or.inl ⟨rfl, rfl⟩
  · rw [hn] at hi
    obtain rfl : t = _ := hi
    obtain ⟨custom, times, ht⟩ := addTime_times a { s with currentAttackIndex := i }
    exact Or.inr ⟨a, custom, times, rfl, congrArg (fun s => (instantiate a s).cleanList) ht⟩

theorem checkIfShouldSpawn_times (s : Sequencer) :
    ∃ times, s.checkIfShouldSpawn.2 = { s with timeTillNextAttack := times } := by
  rw [checkIfShouldSpawn]
  split_ifs
  · exact ⟨s.timeTillNextAttack, rfl⟩
  · exact ⟨_, rfl⟩
  · exact ⟨s.timeTillNextAttack, rfl⟩
  · exact ⟨s.timeTillNextAttack, rfl⟩

theorem fixedUpdate_cases (deltaTime : ℚ) (s : Sequencer) : ∃ times,
    s.fixedUpdate deltaTime = updateLifeTimes deltaTime { s with timeTillNextAttack := times } ∨
      s.fixedUpdate deltaTime =
        updateLifeTimes deltaTime (spawnEmmiter { s with timeTillNextAttack := times }) := by
  obtain ⟨times, ht⟩ := s.checkIfShouldSpawn_times
  refine ⟨times, ?_⟩
  rw [fixedUpdate]
  rcases hc : s.checkIfShouldSpawn with ⟨_ | _, t⟩
  · rw [hc] at ht
    obtain rfl : t = _ := ht
    exact Or.inl rfl
  · rw [hc] at ht
    obtain rfl : t = _ := ht
    exact Or.inr rfl

end Sequencer

inductive SequencerAction
  | fixedUpdate (deltaTime : ℚ)
  | spawnEmmiter
  | cleanSequencer
  | emitterEnds (x : ℕ)
  | endOfFrame
deriving DecidableEq

def Sequencer.act (s : Sequencer) : SequencerAction → Sequencer
  | .fixedUpdate deltaTime => s.fixedUpdate deltaTime
  | .spawnEmmiter => s.spawnEmmiter
  | .cleanSequencer => s.cleanSequencer
  | .emitterEnds x => s.emitterEnds x
  | .endOfFrame => s.endOfFrame

end SeminarTouhou
