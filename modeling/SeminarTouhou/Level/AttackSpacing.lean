import SeminarTouhou.Library.Spacing
import SeminarTouhou.Level.Sequencer

namespace SeminarTouhou

open Library

inductive SequencerCall
  | act (a : SequencerAction)
  | clearAttackList
  | setSequeceList (sequeceList : List AttackData)
deriving DecidableEq

namespace Sequencer

variable {s : Sequencer} {c : SequencerCall}

def Enabled (_ : Sequencer) : SequencerCall → Prop
  | .act (.fixedUpdate deltaTime) => 0 ≤ deltaTime
  | _ => True

instance (s : Sequencer) (c : SequencerCall) : Decidable (s.Enabled c) := by
  rcases c with (_ | _) | _ | _ <;> dsimp only [Enabled] <;> infer_instance

def call (s : Sequencer) : SequencerCall → Sequencer
  | .act a => s.act a
  | .clearAttackList => s.clearAttackList
  | .setSequeceList sequeceList => s.setSequeceList sequeceList

def system : System Sequencer SequencerCall := ⟨Enabled, call⟩

instance (s : Sequencer) (c : SequencerCall) : Decidable (system.enabled s c) :=
  inferInstanceAs (Decidable (s.Enabled c))

def elapsed : SequencerCall → ℚ
  | .act (.fixedUpdate deltaTime) => deltaTime
  | _ => 0

def spawnedBy (s : Sequencer) (c : SequencerCall) : List AttackData :=
  ((s.call c).emitters.drop s.emitters.length).map Prod.fst

def OneTimer (s : Sequencer) : Prop :=
  s.timeTillNextAttack = [] ∨
    ∃ t, s.timeTillNextAttack = [t] ∧ s.isCustomTime = true ∧ s.activeEmmiter ≠ []

theorem addTime_timer (a : AttackData) (h : s.timeTillNextAttack = []) :
    (s.addTime a).isCustomTime = a.isCustomTime ∧ (s.addTime a).timeTillNextAttack =
      if a.isCustomTime then [a.customLifeTime] else [] := by
  rw [addTime]
  split_ifs with hc
  · exact ⟨hc.symm, by simp [h]⟩
  · exact ⟨(Bool.not_eq_true _ ▸ hc).symm, h⟩

theorem added_active (a : AttackData) (s : Sequencer) :
    ((s.instantiate a).cleanList).activeEmmiter ≠ [] := by
  have hnew : s.emitters.length ∈ ((s.instantiate a).cleanList).activeEmmiter := by
    simp [cleanList, instantiate, emitterIsNull]
  exact List.ne_nil_of_mem hnew

theorem spawnEmmiter_timed (h : s.timeTillNextAttack = []) : s.spawnEmmiter.OneTimer ∧
    ((s.spawnEmmiter.emitters = s.emitters ∧ s.spawnEmmiter.timeTillNextAttack = []) ∨
      ∃ a, s.spawnEmmiter.emitters = s.emitters ++ [(a, .alive)] ∧
        s.spawnEmmiter.timeTillNextAttack = if a.isCustomTime then [a.customLifeTime] else []) := by
  obtain ⟨i, hi⟩ := s.getNextAttackEmmiter_index
  rw [spawnEmmiter]
  rcases hn : s.getNextAttackEmmiter with ⟨_ | a, t⟩
  all_goals
    rw [hn] at hi
    obtain rfl : t = _ := hi
  · exact ⟨Or.inl h, Or.inl ⟨rfl, h⟩⟩
  · obtain ⟨hcustom, htimer⟩ := addTime_timer (s := { s with currentAttackIndex := i }) a h
    obtain ⟨custom, times, ht⟩ := addTime_times a { s with currentAttackIndex := i }
    have hactive := added_active a (addTime a { s with currentAttackIndex := i })
    have hemitters : (((addTime a { s with currentAttackIndex := i }).instantiate
        a).cleanList).emitters = s.emitters ++ [(a, .alive)] := by
      rw [ht]
      rfl
    refine ⟨?_, Or.inr ⟨a, hemitters, htimer⟩⟩
    cases hc : a.isCustomTime with
    | true =>
      rw [hc] at hcustom
      rw [hc, if_pos rfl] at htimer
      exact Or.inr ⟨a.customLifeTime, htimer, hcustom, hactive⟩
    | false =>
      rw [hc, if_neg Bool.false_ne_true] at htimer
      exact Or.inl htimer

theorem OneTimer.fixedUpdate_cases (h : s.OneTimer) (deltaTime : ℚ) :
    s.fixedUpdate deltaTime = s.updateLifeTimes deltaTime ∨
      ∃ t : Sequencer, t.timeTillNextAttack = [] ∧ t.emitters = s.emitters ∧
        s.timeTillNextAttack.sum ≤ 0 ∧
        s.fixedUpdate deltaTime = t.spawnEmmiter.updateLifeTimes deltaTime := by
  have hnone (hs : s.timeTillNextAttack = [])
      (hc : s.checkIfShouldSpawn = (true, s) ∨ s.checkIfShouldSpawn = (false, s)) :
      s.fixedUpdate deltaTime = s.updateLifeTimes deltaTime ∨
        ∃ t : Sequencer, t.timeTillNextAttack = [] ∧ t.emitters = s.emitters ∧
          s.timeTillNextAttack.sum ≤ 0 ∧
          s.fixedUpdate deltaTime = t.spawnEmmiter.updateLifeTimes deltaTime := by
    obtain hc | hc := hc
    · exact Or.inr ⟨s, hs, rfl, by simp [hs], by rw [fixedUpdate, hc]⟩
    · exact Or.inl (by rw [fixedUpdate, hc])
  obtain hs | ⟨t, hs, hcustom, hactive⟩ := h
  · apply hnone hs
    rw [checkIfShouldSpawn, hs]
    split_ifs with hempty hcustom hdue
    · exact Or.inl rfl
    · exact absurd hdue (by simp)
    · exact Or.inr rfl
    · cases s.activeEmmiter.getLast?.any s.emitterIsNull with
      | true => exact Or.inl rfl
      | false => exact Or.inr rfl
  · have hcheck : s.checkIfShouldSpawn =
        if t ≤ 0 then (true, s.cleanTimeList) else (false, s) := by
      simp [checkIfShouldSpawn, hs, hcustom, hactive]
    rw [fixedUpdate, hcheck]
    split_ifs with ht
    · refine Or.inr ⟨s.cleanTimeList, ?_, rfl, by simpa [hs] using ht, rfl⟩
      simp [cleanTimeList, hs, ht]
    · exact Or.inl rfl

theorem OneTimer.updateLifeTimes (h : s.OneTimer) (deltaTime : ℚ) :
    (s.updateLifeTimes deltaTime).OneTimer := by
  obtain h | ⟨t, h, hcustom, hactive⟩ := h
  · exact Or.inl (by simp [Sequencer.updateLifeTimes, h])
  · exact Or.inr ⟨t - deltaTime, by simp [Sequencer.updateLifeTimes, h], hcustom, hactive⟩

theorem OneTimer.sum_le (h : s.OneTimer) {deltaTime : ℚ} (hd : 0 ≤ deltaTime) :
    s.timeTillNextAttack.sum ≤
      deltaTime + (s.updateLifeTimes deltaTime).timeTillNextAttack.sum := by
  obtain h | ⟨t, h, -⟩ := h
  all_goals simp [Sequencer.updateLifeTimes, h, hd]

theorem spawnedBy_quiet (h : (s.call c).emitters.length = s.emitters.length) :
    s.spawnedBy c = [] := by
  rw [spawnedBy, List.drop_eq_nil_of_le h.le, List.map_nil]

theorem spawnedBy_append {e : AttackData × Life} (h : (s.call c).emitters = s.emitters ++ [e]) :
    s.spawnedBy c = [e.1] := by
  rw [spawnedBy, h, List.drop_left, List.map_singleton]

/-- From outside, an attack is spawned only when no timer is in the list. -/
def Undisturbed (s : Sequencer) (c : SequencerCall) : Prop :=
  c = .act .spawnEmmiter → s.getNextAttackEmmiter.1 = none ∨ s.timeTillNextAttack = []

instance (s : Sequencer) (c : SequencerCall) : Decidable (s.Undisturbed c) :=
  inferInstanceAs (Decidable (_ → _))

/-- A call that spawns nothing takes no more time off the timer than passes; one that spawns an
attack finds no time left, and starts the timer of the new attack. -/
inductive Turn (s : Sequencer) (c : SequencerCall) : Prop
  | quiet (hs : s.spawnedBy c = [])
      (ht : s.timeTillNextAttack.sum ≤ elapsed c + (s.call c).timeTillNextAttack.sum)
  | spawn (a : AttackData) (hs : s.spawnedBy c = [a]) (ht : s.timeTillNextAttack.sum ≤ 0)
      (ha : a.isCustomTime = true →
        a.customLifeTime ≤ elapsed c + (s.call c).timeTillNextAttack.sum)

theorem OneTimer.fixedUpdate (h : s.OneTimer) {deltaTime : ℚ} (hd : 0 ≤ deltaTime) :
    (s.fixedUpdate deltaTime).OneTimer ∧ s.Turn (.act (.fixedUpdate deltaTime)) := by
  obtain hs | ⟨t, ht, hemitters, hdue, hs⟩ := h.fixedUpdate_cases deltaTime
  · constructor
    · rw [hs]
      exact h.updateLifeTimes deltaTime
    · apply Turn.quiet
      · apply spawnedBy_quiet
        exact congrArg (fun s => s.emitters.length) hs
      · exact (h.sum_le hd).trans_eq (congrArg (fun s => deltaTime + s.timeTillNextAttack.sum) hs.symm)
  · have hcall : s.call (.act (.fixedUpdate deltaTime)) = t.spawnEmmiter.updateLifeTimes deltaTime := hs
    obtain ⟨hone, ⟨he, hnone⟩ | ⟨a, he, htimer⟩⟩ := spawnEmmiter_timed ht
    · refine ⟨hs ▸ hone.updateLifeTimes deltaTime, .quiet ?_ ?_⟩
      · apply spawnedBy_quiet
        rw [hcall]
        exact congrArg List.length (he.trans hemitters)
      · have hsum := hone.sum_le hd
        rw [hnone, List.sum_nil] at hsum
        rw [hcall]
        exact hdue.trans hsum
    · refine ⟨hs ▸ hone.updateLifeTimes deltaTime, .spawn a ?_ hdue ?_⟩
      · apply spawnedBy_append (e := (a, .alive))
        rw [hcall]
        exact he.trans (congrArg (· ++ _) hemitters)
      · intro hc
        have hsum := hone.sum_le hd
        rw [htimer, if_pos hc, List.sum_singleton] at hsum
        rw [hcall]
        exact hsum

theorem OneTimer.spawnEmmiter (h : s.OneTimer) (hu : s.Undisturbed (.act .spawnEmmiter)) :
    s.spawnEmmiter.OneTimer ∧ s.Turn (.act .spawnEmmiter) := by
  obtain hnone | ht := hu rfl
  · obtain ⟨i, ⟨-, hs⟩ | ⟨a, -, -, hn, -⟩⟩ := s.spawnEmmiter_cases
    · have hcall : s.call (.act .spawnEmmiter) = { s with currentAttackIndex := i } := hs
      refine ⟨hs ▸ h, .quiet (spawnedBy_quiet ?_) ?_⟩
      · rw [hcall]
      · rw [hcall]
        exact (zero_add _).ge
    · rw [hn] at hnone
      cases hnone
  · obtain ⟨hone, ⟨he, hnone⟩ | ⟨a, he, htimer⟩⟩ := spawnEmmiter_timed ht
    · refine ⟨hone, .quiet (spawnedBy_quiet (congrArg List.length he)) ?_⟩
      rw [ht]
      exact add_nonneg (le_refl 0) (by rw [call, act, hnone, List.sum_nil])
    · have hs : s.spawnedBy (.act .spawnEmmiter) = [a] :=
        spawnedBy_append (s := s) (c := .act .spawnEmmiter) he
      refine ⟨hone, .spawn a hs (by rw [ht, List.sum_nil]) ?_⟩
      intro hc
      rw [call, act, htimer, if_pos hc, List.sum_singleton]
      exact (zero_add _).ge

theorem OneTimer.call (h : s.OneTimer) (he : s.Enabled c) (hu : s.Undisturbed c) :
    (s.call c).OneTimer ∧ s.Turn c := by
  have hquiet (htimes : (s.call c).timeTillNextAttack = s.timeTillNextAttack)
      (hlength : (s.call c).emitters.length = s.emitters.length) (hzero : elapsed c = 0) :
      s.Turn c := by
    refine .quiet (spawnedBy_quiet hlength) ?_
    rw [htimes, hzero, zero_add]
  rcases c with (_ | _) | _ | _
  · exact h.fixedUpdate he
  · exact h.spawnEmmiter hu
  · exact ⟨h, hquiet rfl List.length_mapIdx rfl⟩
  · exact ⟨h, hquiet rfl (List.length_modify ..) rfl⟩
  · exact ⟨h, hquiet rfl (List.length_map ..) rfl⟩
  · exact ⟨h, hquiet rfl rfl rfl⟩
  · exact ⟨h, hquiet rfl rfl rfl⟩

theorem timer_countdown : system.Countdown elapsed Undisturbed (fun s c => s.spawnedBy c ≠ [])
    OneTimer (fun s => s.timeTillNextAttack.sum) := by
  constructor
  · intro s c he
    rcases c with (_ | _) | _ | _
    · exact he
    all_goals exact le_refl 0
  · intro s c h he hu
    exact (h.call he hu).1
  · intro s c h he hu hev
    obtain ⟨-, ht⟩ | ⟨a, hs, -, -⟩ := (h.call he hu).2
    · exact ht
    · exact absurd (hs ▸ List.cons_ne_nil a []) hev
  · intro s c h he hu hev
    obtain ⟨hs, -⟩ | ⟨-, -, ht, -⟩ := (h.call he hu).2
    · exact absurd hs hev
    · exact ht

/-- Whenever an attack with a custom time is spawned, no later `FixedUpdate` spawns an attack before
that time is over, unless the emitter is gone. -/
def RespectsTimes (s : Sequencer) (cs : List SequencerCall) : Prop :=
  ∀ as c bs deltaTime, as ++ c :: (bs ++ [.act (.fixedUpdate deltaTime)]) <+: cs →
    ∀ a ∈ (system.run s as).spawnedBy c, a.isCustomTime = true →
      (system.run s (as ++ c :: bs)).emitterIsNull (system.run s as).emitters.length = false →
      (system.run s (as ++ c :: bs)).spawnedBy (.act (.fixedUpdate deltaTime)) ≠ [] →
      a.customLifeTime ≤ duration elapsed (c :: bs)

theorem custom_times_respected (attacks : List AttackData) (shouldLoop : Bool)
    {cs : List SequencerCall} (hl : system.Legal (new attacks shouldLoop) cs)
    (hu : system.Meets Undisturbed (new attacks shouldLoop) cs) :
    RespectsTimes (new attacks shouldLoop) cs := by
  rintro as c bs deltaTime ⟨rest, rfl⟩ a ha hc - hb
  obtain ⟨hl, -⟩ := (system.meets_append _ _ _ rest).mp hl
  obtain ⟨hbefore, hl⟩ := (system.meets_append _ _ as _).mp hl
  obtain ⟨he, hl⟩ := (system.legal_cons _ c _).mp hl
  obtain ⟨hu, -⟩ := (system.meets_append _ _ _ rest).mp hu
  obtain ⟨hubefore, hu⟩ := (system.meets_append _ _ as _).mp hu
  obtain ⟨huc, hu⟩ := (system.meets_cons _ _ c _).mp hu
  have hone : OneTimer (system.run (new attacks shouldLoop) as) :=
    System.invariant_run (fun s c h he hu => (h.call he hu).1) (Or.inl rfl) hbefore hubefore
  obtain ⟨hnext, ⟨hs, -⟩ | ⟨a', hs, -, htimer⟩⟩ := hone.call he huc
  · rw [hs] at ha
    cases ha
  · rw [hs] at ha
    obtain rfl := List.mem_singleton.mp ha
    rw [System.run, List.foldl_append] at hb
    have hspaced := timer_countdown.spaced hnext hl hu hb
    exact (htimer hc).trans (add_le_add_right hspaced _)

def twoSeconds : AttackData := ⟨true, 2, 0⟩

/-- The timer of the first stage has run out when the enemy spawns an attack of the second. -/
theorem custom_times_respected_secondStage :
    RespectsTimes (new [twoSeconds] false) (List.replicate 3 (.act (.fixedUpdate 1)) ++
      [.clearAttackList, .act .cleanSequencer, .act .endOfFrame,
        .setSequeceList [twoSeconds, twoSeconds], .act .spawnEmmiter, .act (.fixedUpdate 1)]) :=
  custom_times_respected [twoSeconds] false (by decide +kernel) (by decide +kernel)

/-- A stage ends one second after its attack was spawned: the new stage's attack is spawned with the
old timer still in the list. -/
def stageChange : List SequencerCall :=
  [.act (.fixedUpdate 1), .clearAttackList, .act .cleanSequencer, .act .endOfFrame,
    .setSequeceList (List.replicate 3 twoSeconds)]

theorem stageChange_tooEarly : ¬ ∀ attacks shouldLoop cs,
    system.Legal (new attacks shouldLoop) cs → RespectsTimes (new attacks shouldLoop) cs := by
  intro h
  have hearly := h [twoSeconds] false
    (stageChange ++ .act .spawnEmmiter :: ([.act (.fixedUpdate 1)] ++ [.act (.fixedUpdate 1)]))
    (by decide +kernel) stageChange (.act .spawnEmmiter) [.act (.fixedUpdate 1)] 1
    (List.prefix_refl _) twoSeconds (by decide +kernel) rfl (by decide +kernel) (by decide +kernel)
  exact absurd hearly (by decide +kernel)

end Sequencer

end SeminarTouhou
