import SeminarTouhou.Library.Spacing
import SeminarTouhou.Level.WaveOrder

namespace SeminarTouhou

open Library

namespace WaveManager

theorem spawnBoss_time (m : WaveManager) : m.spawnBoss.state.currentTime = m.currentTime := by
  simp only [spawnBoss]
  split_ifs <;> rfl

theorem bossDead_time (m : WaveManager) : m.bossDead.state.currentTime = m.currentTime := by
  simp only [bossDead]
  cases m.timeOutTimer <;> rfl

theorem doTimer_le {deltaTime : ℚ} (m : WaveManager) (h : 0 ≤ deltaTime) :
    m.currentTime ≤ deltaTime + (m.doTimer deltaTime).currentTime := by
  rw [doTimer]
  split_ifs with hpos
  · exact le_of_eq (by ring)
  · exact (not_lt.mp hpos).trans (add_nonneg h (le_refl 0))

end WaveManager

namespace WaveSession

variable {s : WaveSession} {a b : WaveAction}

def doTimerTime : WaveAction → ℚ
  | .fixedUpdate deltaTime _ => deltaTime
  | _ => 0

def processing (s : WaveSession) (a : WaveAction) : List (WaveContainter × ℕ) :=
  (act s.manager a).raised.filterMap processedBy

/-- `SpawnEnemy` is called by `Start` and by a coroutine that waited for the timer; everything else
processes nothing and leaves the timer to `DoTimer`. -/
inductive Times (m : WaveManager) (a : WaveAction) (o : WaveManager.Result) : Prop
  | spawnEnemy (n : WaveManager) (t : Option Exn) (ho : o = n.spawnEnemy t)
      (hn : n.currentTime = m.currentTime)
      (ha : a = .start t ∨ ∃ r, a = .resume r t ∧ m.routines r = some .waitForNextSpawn)
  | quiet (ho : o.raised.filterMap processedBy = [])
      (ht : o.state.currentTime = m.currentTime) (ha : doTimerTime a = 0)
  | doTimer (deltaTime : ℚ) (l : List ℕ) (ha : a = .fixedUpdate deltaTime l)
      (ho : o.raised.filterMap processedBy = [])
      (ht : o.state.currentTime = (m.doTimer deltaTime).currentTime)

theorem act_times (m : WaveManager) (a : WaveAction) : Times m a (act m a) := by
  cases a with
  | start t => exact .spawnEnemy m t rfl rfl (Or.inl rfl)
  | fixedUpdate deltaTime l => exact .doTimer deltaTime l rfl rfl rfl
  | destroy | endOfFrame | playerDeath => exact .quiet rfl rfl rfl
  | resume r t =>
    simp only [act, WaveManager.resume]
    rcases hr : m.routines r with _ | c
    · exact .quiet rfl rfl rfl
    have hdead : Times m (.resume r t) (m.stopCoroutine r).bossDead := by
      refine .quiet ?_ (WaveManager.bossDead_time _) rfl
      rw [(WaveManager.bossDead_frame _).1]
      rfl
    cases c with
    | waitForNextSpawn =>
      exact .spawnEnemy (m.stopCoroutine r) t rfl rfl (Or.inr ⟨r, rfl, hr⟩)
    | waitTillActivesEmpty ready =>
      cases ready with
      | false => exact .quiet rfl rfl rfl
      | true =>
        refine .quiet ?_ (WaveManager.spawnBoss_time _) rfl
        rw [(WaveManager.spawnBoss_frame _).1]
        rfl
    | waitForBossToDie | timeTillTimeOut => exact hdead

theorem spawnEnemy_timed (t : Option Exn) (n : WaveManager) :
    ((n.spawnEnemy t).raised.filterMap processedBy = [] ∧
        (n.spawnEnemy t).state.currentTime = n.currentTime) ∨
      ∃ entry, (n.spawnEnemy t).raised.filterMap processedBy = [(entry, n.waveIndex)] ∧
        (n.spawnEnemy t).state.currentTime = (n.setTimer entry).currentTime := by
  have hbg : [n.transitionBG].filterMap processedBy = [] := by
    rw [WaveManager.transitionBG]
    split_ifs <;> rfl
  have hs := n.spawnEnemy_spawns t
  generalize n.spawnEnemy t = o at hs
  cases hs with
  | idle => exact Or.inl ⟨rfl, rfl⟩
  | boss entry => exact Or.inr ⟨entry, rfl, rfl⟩
  | enemy entry hb hw es hes =>
    refine Or.inr ⟨entry, ?_, rfl⟩
    obtain rfl | rfl := hes
    · rfl
    · rw [Outcome.raises_raised, List.filterMap_append, hbg]
      rfl
  | interrupted entry =>
    refine Or.inr ⟨entry, ?_, rfl⟩
    rw [List.filterMap_append, hbg]
    rfl

theorem processing_timer {entry : WaveContainter} {index : ℕ}
    (h : (entry, index) ∈ s.processing a) (hc : entry.isCustomTime = true) :
    (s.next a).manager.currentTime = entry.timeTillSpawn := by
  rw [processing] at h
  change (act s.manager a).state.currentTime = _
  cases act_times s.manager a with
  | quiet ho | doTimer _ _ _ ho =>
    rw [ho] at h
    cases h
  | spawnEnemy n t ho =>
    rw [ho] at h ⊢
    obtain ⟨hnone, -⟩ | ⟨e, hone, ht⟩ := spawnEnemy_timed t n
    · rw [hnone] at h
      cases h
    · rw [hone] at h
      obtain rfl : entry = e := congrArg Prod.fst (List.mem_singleton.mp h)
      rw [ht]
      exact if_pos hc

def Begun (s : WaveSession) : Prop := s.started = true ∨ ∀ r, s.manager.routines r = none

theorem Begun.next (h : s.Begun) (he : s.Enabled a) : (s.next a).Begun := by
  obtain h | h := h
  · exact Or.inl (by simp [WaveSession.next, h])
  cases a with
  | start => exact Or.inl (by simp [WaveSession.next])
  | resume r t =>
    obtain ⟨c, hc, -⟩ := he
    rw [h r] at hc
    cases hc
  | fixedUpdate => exact Or.inl (by simp [WaveSession.next, he.1])
  | destroy | endOfFrame => exact Or.inr h
  | playerDeath => exact Or.inr (fun _ => rfl)

theorem Begun.started (h : s.Begun) (he : s.Enabled a) (ha : s.processing a ≠ []) :
    (s.next a).started = true := by
  cases act_times s.manager a with
  | quiet ho | doTimer _ _ _ ho => exact absurd ho ha
  | spawnEnemy n t _ _ hr =>
    obtain rfl | ⟨r, rfl, -⟩ := hr
    · simp [WaveSession.next]
    · obtain ⟨c, hc, -⟩ := he
      obtain h | h := h
      · simp [WaveSession.next, h]
      · rw [h r] at hc
        cases hc

theorem timer_countdown : system.Countdown doTimerTime system.enabled
    (fun s a => s.processing a ≠ []) (fun s => s.started = true)
    (fun s => s.manager.currentTime) := by
  constructor
  · intro s a he
    cases a with
    | fixedUpdate deltaTime l => exact he.2.2
    | _ => exact le_refl 0
  · intro s a hs _ _
    simp [system, next, hs]
  · intro s a hs he _ hev
    change _ ≤ _ + (act s.manager a).state.currentTime
    cases act_times s.manager a with
    | quiet _ ht ha => exact le_of_eq (by rw [ht, ha, zero_add])
    | doTimer deltaTime l ha _ ht =>
      subst ha
      rw [ht]
      exact s.manager.doTimer_le he.2.2
    | spawnEnemy n t ho hn ha =>
      have hzero : doTimerTime a = 0 := by
        obtain rfl | ⟨r, rfl, -⟩ := ha <;> rfl
      obtain ⟨-, ht⟩ | ⟨entry, hone, -⟩ := spawnEnemy_timed t n
      · rw [ho, ht, hn, hzero, zero_add]
      · rw [processing, ho, hone] at hev
        exact absurd (List.cons_ne_nil _ _) hev
  · intro s a hs he _ hev
    cases act_times s.manager a with
    | quiet ho | doTimer _ _ _ ho => exact absurd ho hev
    | spawnEnemy n t _ _ ha =>
      obtain rfl | ⟨r, rfl, hr⟩ := ha
      · exact absurd hs (by simp [he.1])
      · obtain ⟨c, hc, hready⟩ := he
        obtain rfl : c = .waitForNextSpawn := Option.some.inj (hc.symm.trans hr)
        simpa [WaveManager.ready, WaveManager.readyToSpawnNextEnemy] using hready

theorem waves_spaced (wave : List WaveContainter) (mid final : EnemyType)
    {as bs : List WaveAction} {a b : WaveAction}
    (hl : system.Legal (start wave mid final) (as ++ a :: (bs ++ [b])))
    {entry : WaveContainter} {index : ℕ}
    (ha : (entry, index) ∈ (system.run (start wave mid final) as).processing a)
    (hc : entry.isCustomTime = true)
    (hb : (system.run (start wave mid final) (as ++ a :: bs)).processing b ≠ []) :
    entry.timeTillSpawn ≤ duration doTimerTime bs := by
  obtain ⟨hbefore, hafter⟩ := (system.meets_append _ _ as _).mp hl
  obtain ⟨he, hlater⟩ := (system.legal_cons _ a _).mp hafter
  have hbegun : Begun (system.run (start wave mid final) as) :=
    System.invariant_legal (fun s a h he => h.next he) (Or.inr fun _ => rfl) hbefore
  rw [← processing_timer ha hc]
  apply timer_countdown.spaced (hbegun.started he (List.ne_nil_of_mem ha)) hlater hlater
  rwa [System.run, List.foldl_append] at hb

def delayedEntry : WaveContainter := { enemyEntry with isCustomTime := true, timeTillSpawn := 2 }

theorem waves_spaced_twoSeconds : let bs := [.fixedUpdate 1 [], .fixedUpdate (3 / 2) []];
    delayedEntry.timeTillSpawn ≤ duration doTimerTime bs :=
  waves_spaced [delayedEntry, enemyEntry] .midBoss .finalBoss
    (show system.Legal _ ([] ++ .start none :: ([_, _] ++ [.resume 0 none])) by decide +kernel)
    (show (_, 0) ∈ _ by decide +kernel) rfl (by decide +kernel)

end WaveSession

end SeminarTouhou
