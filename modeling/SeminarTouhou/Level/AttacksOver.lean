import SeminarTouhou.Library.System
import SeminarTouhou.Level.Sequencer

namespace SeminarTouhou

open Library

/-- Of `BaseEnemy` what `ShouldDestroy` reads and writes. -/
structure BaseEnemy where
  isAtEnd : Bool
  despawnTimer : ℚ
  sqe : Sequencer
deriving DecidableEq

inductive BaseEnemyAction
  | sequencer (a : SequencerAction)
  | reachEnd
  | shouldDestroy (deltaTime : ℚ)
deriving DecidableEq

namespace BaseEnemy

def new (attacks : List AttackData) (shouldLoop : Bool) : BaseEnemy :=
  ⟨false, 5, Sequencer.new attacks shouldLoop⟩

def shouldDestroy (deltaTime : ℚ) (e : BaseEnemy) : Bool × BaseEnemy :=
  if e.isAtEnd && e.sqe.getIfAtEnd then (true, e)
  else if e.isAtEnd && !e.sqe.getIfAtEnd then
    if e.despawnTimer ≤ 0 then (true, e)
    else (false, { e with despawnTimer := e.despawnTimer - deltaTime })
  else (false, e)

def act (e : BaseEnemy) : BaseEnemyAction → BaseEnemy
  | .sequencer a => { e with sqe := e.sqe.act a }
  | .reachEnd => { e with isAtEnd := true }
  | .shouldDestroy deltaTime => (e.shouldDestroy deltaTime).2

def system : System BaseEnemy BaseEnemyAction := ⟨fun _ _ => True, act⟩

end BaseEnemy

namespace Sequencer

/-- A call of `SpawnEmmiter`, seen from the emitters: nothing happens, or a new emitter is added and
is on the list of the active ones. -/
def SpawnsUpTo (s s' : Sequencer) : Prop :=
  (s'.emitters = s.emitters ∧ s'.activeEmmiter = s.activeEmmiter) ∨
    ∃ a, s'.emitters = s.emitters ++ [(a, .alive)] ∧ s.emitters.length ∈ s'.activeEmmiter

theorem spawnEmmiter_spawns (s : Sequencer) : SpawnsUpTo s s.spawnEmmiter := by
  obtain ⟨i, ⟨-, hs⟩ | ⟨a, custom, times, -, hs⟩⟩ := s.spawnEmmiter_cases
  · rw [hs]
    exact Or.inl ⟨rfl, rfl⟩
  · rw [hs]
    refine Or.inr ⟨a, rfl, List.mem_filter.mpr ⟨?_, ?_⟩⟩
    · simp [instantiate]
    · simp [emitterIsNull, instantiate]

theorem fixedUpdate_spawns (deltaTime : ℚ) (s : Sequencer) :
    SpawnsUpTo s (s.fixedUpdate deltaTime) := by
  obtain ⟨times, hs | hs⟩ := s.fixedUpdate_cases deltaTime
  · rw [hs]
    exact Or.inl ⟨rfl, rfl⟩
  · rw [hs]
    exact spawnEmmiter_spawns { s with timeTillNextAttack := times }

/-- The list of the active emitters is empty only as long as nothing was spawned: an emitter is
taken off the list only when another one has just been put on it. -/
def Listed (s : Sequencer) : Prop := s.activeEmmiter = [] ↔ s.emitters = []

theorem Listed.spawns {s s' : Sequencer} (h : s.Listed) (hs : SpawnsUpTo s s') : s'.Listed := by
  rcases hs with ⟨he, ha⟩ | ⟨a, he, ha⟩
  · rwa [Listed, he, ha]
  · apply iff_of_false (List.ne_nil_of_mem ha)
    rw [he]
    exact List.append_ne_nil_of_right_ne_nil _ (List.cons_ne_nil _ _)

theorem Listed.act {s : Sequencer} (h : s.Listed) (a : SequencerAction) : (s.act a).Listed := by
  cases a with
  | fixedUpdate deltaTime => exact h.spawns (s.fixedUpdate_spawns deltaTime)
  | spawnEmmiter => exact h.spawns s.spawnEmmiter_spawns
  | cleanSequencer => exact h.trans List.mapIdx_eq_nil_iff.symm
  | emitterEnds x => exact h.trans List.modify_eq_nil_iff.symm
  | endOfFrame => exact h.trans List.map_eq_nil_iff.symm

theorem getIfAtEnd_iff {s : Sequencer} (h : s.Listed) : s.getIfAtEnd = true ↔ s.emitters = [] := by
  rw [getIfAtEnd, List.isEmpty_iff]
  exact h

def Over (s : Sequencer) : Prop := ∀ e ∈ s.emitters, e.2 ≠ .alive

instance (s : Sequencer) : Decidable s.Over :=
  inferInstanceAs (Decidable (∀ e ∈ s.emitters, e.2 ≠ .alive))

def Attacking (s : Sequencer) : Prop := s.emitters = [] ∨ ∃ e ∈ s.emitters, e.2 = .alive

theorem Over.attacking_iff {s : Sequencer} (h : s.Over) : s.Attacking ↔ s.emitters = [] := by
  constructor
  · rintro (he | ⟨e, hm, ha⟩)
    · exact he
    · exact absurd ha (h e hm)
  · exact Or.inl

theorem attacking_of_not_over {s : Sequencer} (h : ¬ s.Over) : s.Attacking := by
  simp only [Over, not_forall, not_not] at h
  obtain ⟨e, hm, ha⟩ := h
  exact Or.inr ⟨e, hm, ha⟩

theorem endOfFrame_attacking (s : Sequencer) : s.endOfFrame.Attacking ↔ s.Attacking := by
  apply or_congr List.map_eq_nil_iff
  constructor
  · rintro ⟨e, hm, ha⟩
    obtain ⟨⟨a, l⟩, hd, rfl⟩ := List.mem_map.mp hm
    cases l with
    | alive => exact ⟨_, hd, rfl⟩
    | dying => cases ha
    | destroyed => cases ha
  · rintro ⟨e, hm, ha⟩
    obtain ⟨a, l⟩ := e
    subst ha
    exact ⟨(a, .alive), List.mem_map.mpr ⟨_, hm, rfl⟩, rfl⟩

end Sequencer

namespace BaseEnemy

/-- `GetIfAtEnd` holds when the attacks are over, and then, or when the despawn timer has run out,
an enemy at its end position is removed. -/
def TellsTruth (e : BaseEnemy) : Prop :=
  (e.sqe.getIfAtEnd = true ↔ e.sqe.Over) ∧
    (e.isAtEnd = true → ∀ deltaTime,
      (e.shouldDestroy deltaTime).1 = true ↔ e.sqe.Over ∨ e.despawnTimer ≤ 0)

theorem shouldDestroy_iff {e : BaseEnemy} (h : e.isAtEnd = true) (deltaTime : ℚ) :
    (e.shouldDestroy deltaTime).1 = true ↔ e.sqe.getIfAtEnd = true ∨ e.despawnTimer ≤ 0 := by
  rw [shouldDestroy, h]
  by_cases hs : e.sqe.getIfAtEnd = true
  · simp [hs]
  · by_cases ht : e.despawnTimer ≤ 0
    · simp [hs, ht]
    · simp [hs, ht]

theorem tellsTruth_iff {e : BaseEnemy} (h : e.sqe.Listed) : e.TellsTruth ↔ e.sqe.Attacking := by
  have htruth : (e.sqe.getIfAtEnd = true ↔ e.sqe.Over) ↔ e.sqe.Attacking := by
    rw [Sequencer.getIfAtEnd_iff h]
    by_cases ho : e.sqe.Over
    · rw [ho.attacking_iff]
      exact iff_true_right ho
    · apply iff_of_true
      · apply iff_of_false _ ho
        intro he
        exact ho (by rw [Sequencer.Over, he]; exact fun _ hm => absurd hm List.not_mem_nil)
      · exact Sequencer.attacking_of_not_over ho
  rw [TellsTruth, htruth]
  apply and_iff_left_of_imp
  intro ha hend deltaTime
  rw [shouldDestroy_iff hend, htruth.mpr ha]

theorem listed_act {e : BaseEnemy} (h : e.sqe.Listed) (a : BaseEnemyAction) :
    (e.act a).sqe.Listed := by
  cases a with
  | sequencer a => exact h.act a
  | reachEnd => exact h
  | shouldDestroy deltaTime =>
    rw [act, shouldDestroy]
    split_ifs <;> exact h

/-- Once everything that was spawned has ended, the sequencer is still believed to attack. -/
theorem attacks_over_iff (attacks : List AttackData) (shouldLoop : Bool)
    (as : List BaseEnemyAction) :
    system.Meets (fun e a => a = .sequencer .endOfFrame → (e.act a).TellsTruth)
        (new attacks shouldLoop) as ↔
      system.Meets (fun e a => a = .sequencer .endOfFrame → e.sqe.Attacking)
        (new attacks shouldLoop) as := by
  have hstart : (new attacks shouldLoop).sqe.Listed := iff_of_true rfl rfl
  have hlegal : system.Legal (new attacks shouldLoop) as := fun _ _ => trivial
  apply System.meets_iff (I := fun e => e.sqe.Listed) _ _ hstart hlegal
  · intro e a h _ _
    exact listed_act h a
  · intro e a h _
    apply imp_congr_right
    rintro rfl
    rw [tellsTruth_iff (listed_act h _)]
    exact e.sqe.endOfFrame_attacking

theorem endedAttack_notAtEnd : ¬ ∀ attacks shouldLoop as,
    system.Meets (fun e a => a = .sequencer .endOfFrame → (e.act a).TellsTruth)
      (new attacks shouldLoop) as := by
  intro h
  let as : List BaseEnemyAction := [.sequencer (.fixedUpdate (1 / 50)), .sequencer (.emitterEnds 0)]
  have hlast := system.meets_concat (h [⟨false, 0, 0⟩] false (as ++ [.sequencer .endOfFrame])) rfl
  exact absurd hlast.1 (by decide +kernel)

end BaseEnemy

end SeminarTouhou
