import SeminarTouhou.Level.WaveManager

namespace SeminarTouhou

open Library

namespace WaveManager

variable {m : WaveManager}

@[simp] theorem startCoroutine_routines (c : Routine) (m : WaveManager) (r : ℕ) :
    (m.startCoroutine c).routines r = if r = m.startedRoutines then some c else m.routines r := by
  simp [startCoroutine, Function.update_apply]

@[simp] theorem stopCoroutine_routines (q : ℕ) (m : WaveManager) (r : ℕ) :
    (m.stopCoroutine q).routines r = if r = q then none else m.routines r := by
  simp [stopCoroutine, Function.update_apply]

/-- What `SpawnEnemy` does: nothing, a boss entry, an enemy entry, or an enemy entry at which a
subscriber of `OnTransitionBG` throws. -/
inductive Spawns (transition : Option Exn) (m : WaveManager) : Result → Prop
  | idle (h : m.bossState = true ∨ m.shouldSpawn = false ∨ m.wave.length ≤ m.waveIndex) :
      Spawns transition m (.returns m)
  | boss (entry : WaveContainter) (h : m.bossState = false) (hw : m.wave[m.waveIndex]? = some entry)
      (he : entry.enemy = none) :
      Spawns transition m
        (.raises ((m.setTimer entry).changeWaveState true) [.process entry m.waveIndex])
  | enemy (entry : WaveContainter) (h : m.bossState = false)
      (hw : m.wave[m.waveIndex]? = some entry) (es : List WaveEvent)
      (hes : es = [] ∨ es = [m.transitionBG]) :
      Spawns transition m
        (.raises ((m.setTimer entry).addEnemy entry).waitAndAdvance
          ([.process entry m.waveIndex, .spawnEnemy m.instances] ++ es))
  | interrupted (entry : WaveContainter) (h : m.bossState = false)
      (hw : m.wave[m.waveIndex]? = some entry) (e : Exn) (ht : transition = some e) :
      Spawns transition m
        ⟨(m.setTimer entry).addEnemy entry, [],
          [.process entry m.waveIndex, .spawnEnemy m.instances] ++ [m.transitionBG], some e⟩

theorem spawnEnemy_spawns (transition : Option Exn) (m : WaveManager) :
    Spawns transition m (m.spawnEnemy transition) := by
  simp only [spawnEnemy]
  by_cases hg : (m.shouldSpawn && !m.bossState) = true
  · rw [if_pos hg]
    have hb : m.bossState = false := by simpa using (Bool.and_eq_true_iff.mp hg).2
    rcases hw : m.wave[m.waveIndex]? with _ | entry
    · exact .idle (Or.inr (Or.inr (List.getElem?_eq_none_iff.mp hw)))
    · dsimp only
      rcases he : entry.enemy with _ | prefab
      · exact .boss entry hb hw he
      · dsimp only
        split_ifs
        · cases transition with
          | none => exact .enemy entry hb hw [_] (Or.inr rfl)
          | some e => exact .interrupted entry hb hw e rfl
        · have h := @Spawns.enemy transition m entry hb hw [] (Or.inl rfl)
          rwa [List.append_nil] at h
  · rw [if_neg hg]
    apply Spawns.idle
    by_cases hb : m.bossState = true
    · exact Or.inl hb
    · exact Or.inr (Or.inl (by simpa [hb] using hg))

theorem bossDead_frame (m : WaveManager) :
    m.bossDead.raised = [] ∧ m.bossDead.state.wave = m.wave ∧
      m.bossDead.state.waveIndex = m.waveIndex + 1 ∧ m.bossDead.state.bossState = false ∧
      m.bossDead.state.activeBoss = none ∧ m.bossDead.state.instances = m.instances ∧
      m.bossDead.state.objects = m.destroyActiveBoss.objects := by
  simp only [bossDead]
  cases m.timeOutTimer <;> exact ⟨rfl, rfl, rfl, rfl, rfl, rfl, rfl⟩

theorem bossDead_routines {r : ℕ} {c : Routine} (h : m.bossDead.state.routines r = some c) :
    c = .waitForNextSpawn ∨ m.timeOutTimer ≠ some r ∧ m.routines r = some c := by
  have hleave : ∀ r, m.leaveBoss.routines r =
      if r = m.startedRoutines then some .waitForNextSpawn else m.routines r :=
    startCoroutine_routines _ _
  simp only [bossDead] at h
  rcases ht : m.timeOutTimer with _ | q
  all_goals rw [ht] at h
  · simp only [Outcome.throws_state, hleave] at h
    split_ifs at h
    · exact Or.inl (Option.some.inj h).symm
    · exact Or.inr ⟨by simp, h⟩
  · simp only [Outcome.returns_state, stopCoroutine_routines, hleave] at h
    split_ifs at h with hq
    · exact Or.inl (Option.some.inj h).symm
    · exact Or.inr ⟨fun he => hq (Option.some.inj he).symm, h⟩

theorem spawnBoss_frame (m : WaveManager) :
    m.spawnBoss.raised = [.spawnBoss m.instances] ∧ m.spawnBoss.state.bossState = m.bossState ∧
      m.spawnBoss.state.activeBoss = some m.instances ∧
      m.spawnBoss.state.instances = m.instances + 1 ∧
      m.spawnBoss.state.objects = (m.instantiate centerPosition none).objects := by
  simp only [spawnBoss]
  split_ifs <;> exact ⟨rfl, rfl, rfl, rfl, rfl⟩

theorem spawnBoss_wave (m : WaveManager) :
    m.spawnBoss.state.wave = m.wave ∧ m.spawnBoss.state.waveIndex = m.waveIndex := by
  simp only [spawnBoss]
  split_ifs <;> exact ⟨rfl, rfl⟩

theorem spawnBoss_routines {r : ℕ} {c : Routine} (h : m.spawnBoss.state.routines r = some c) :
    (c = .waitForBossToDie ∧ r = m.startedRoutines) ∨
      (c = .timeTillTimeOut ∧ m.spawnBoss.state.timeOutTimer = some r) ∨ m.routines r = some c := by
  have hone : ∀ (n : WaveManager) (d : Routine), (n.startCoroutine d).routines r = some c →
      (c = d ∧ r = n.startedRoutines) ∨ n.routines r = some c := by
    intro n d hd
    rw [startCoroutine_routines] at hd
    split_ifs at hd with hr
    · exact Or.inl ⟨(Option.some.inj hd).symm, hr⟩
    · exact Or.inr hd
  simp only [spawnBoss] at h ⊢
  split_ifs at h ⊢
  · obtain ⟨hc, hr⟩ | h := hone _ .timeTillTimeOut h
    · exact Or.inr (Or.inl ⟨hc, hr ▸ rfl⟩)
    · obtain h | h := hone _ .waitForBossToDie h
      · exact Or.inl h
      · exact Or.inr (Or.inr h)
  · obtain h | h := hone _ .waitForBossToDie h
    · exact Or.inl h
    · exact Or.inr (Or.inr h)

end WaveManager

namespace WaveSession

variable {s : WaveSession} {a : WaveAction}

theorem noBoss_of_spawns {transition : Option Exn} {m : WaveManager} {o : WaveManager.Result}
    (h : WaveManager.Spawns transition m o) : o.raised.filterMap bossOf = [] := by
  have hbg : [m.transitionBG].filterMap bossOf = [] := by
    simp only [WaveManager.transitionBG]
    split_ifs <;> rfl
  cases h with
  | idle => rfl
  | boss => rfl
  | enemy entry hb hw es hes =>
    obtain rfl | rfl := hes
    · rfl
    · rw [Outcome.raises_raised, List.filterMap_append, hbg]
      rfl
  | interrupted =>
    rw [List.filterMap_append, hbg]
    rfl

theorem bossState_of_spawns {transition : Option Exn} {m : WaveManager} {o : WaveManager.Result}
    (h : WaveManager.Spawns transition m o) {x : ℕ} (hx : .spawnEnemy x ∈ o.raised) :
    m.bossState = false := by
  cases h with
  | idle => exact absurd hx List.not_mem_nil
  | boss entry hb => exact hb
  | enemy entry hb => exact hb
  | interrupted entry hb => exact hb

/-- The entries processed so far are the first ones of the list, and the index has passed all of
them, except for the boss entry that is in progress. -/
def InOrder (s : WaveSession) : Prop :=
  s.processed <+: s.manager.wave.zipIdx ∧
    s.manager.waveIndex + s.manager.bossState.toNat = s.processed.length

instance (s : WaveSession) : Decidable s.InOrder := inferInstanceAs (Decidable (_ ∧ _))

inductive Advance (m : WaveManager) (a : WaveAction) (o : WaveManager.Result) : Prop
  | quiet (hi : o.state.waveIndex = m.waveIndex) (hb : o.state.bossState = m.bossState)
      (hp : o.raised.filterMap processedBy = [])
  | process (entry : WaveContainter) (h : m.bossState = false)
      (hw : m.wave[m.waveIndex]? = some entry)
      (hi : o.state.waveIndex + o.state.bossState.toNat = m.waveIndex + 1)
      (hp : o.raised.filterMap processedBy = [(entry, m.waveIndex)])
  | interrupt (h : m.bossState = false) (hi : o.state.waveIndex = m.waveIndex)
      (hb : o.state.bossState = false)
      (ht : ∃ e, a = .start (some e) ∨ ∃ r, a = .resume r (some e))
  | bossDead (hi : o.state.waveIndex = m.waveIndex + 1) (hb : o.state.bossState = false)
      (hp : o.raised.filterMap processedBy = [])
      (hr : ∃ r t c, a = .resume r t ∧ m.routines r = some c ∧
        (c = .waitForBossToDie ∨ c = .timeTillTimeOut))

theorem advance_spawnEnemy {m n : WaveManager} {transition : Option Exn} (hw : n.wave = m.wave)
    (hi : n.waveIndex = m.waveIndex) (hb : n.bossState = m.bossState)
    (ha : ∀ e, transition = some e → a = .start (some e) ∨ ∃ r, a = .resume r (some e)) :
    Advance m a (n.spawnEnemy transition) := by
  have hs := WaveManager.spawnEnemy_spawns transition n
  generalize n.spawnEnemy transition = o at hs
  cases hs with
  | idle => exact .quiet hi hb rfl
  | boss entry h he hne =>
    refine .process entry (hb ▸ h) (hw ▸ hi ▸ he) ?_ (by rw [← hi]; rfl)
    rw [← hi]
    rfl
  | enemy entry h he es hes =>
    refine .process entry (hb ▸ h) (hw ▸ hi ▸ he) ?_ ?_
    · rw [← hi, ← Nat.add_zero (n.waveIndex + 1)]
      exact congrArg (n.waveIndex + 1 + Bool.toNat ·) h
    · obtain rfl | rfl := hes
      · rw [← hi]
        rfl
      · simp only [WaveManager.transitionBG]
        split_ifs
        all_goals
          rw [← hi]
          rfl
  | interrupted entry h he e ht => exact .interrupt (hb ▸ h) hi h ⟨e, ha e ht⟩

theorem act_advance (m : WaveManager) (a : WaveAction) : Advance m a (act m a) := by
  cases a with
  | start transition => exact advance_spawnEnemy rfl rfl rfl (fun e he => Or.inl (he ▸ rfl))
  | fixedUpdate deltaTime shouldDestroy =>
    simp only [act, WaveManager.doTimer]
    split_ifs <;> exact .quiet rfl rfl rfl
  | destroy | endOfFrame | playerDeath => exact .quiet rfl rfl rfl
  | resume r transition =>
    simp only [act, WaveManager.resume]
    rcases hr : m.routines r with _ | c
    · exact .quiet rfl rfl rfl
    have hdead : c = .waitForBossToDie ∨ c = .timeTillTimeOut →
        Advance m (.resume r transition) (m.stopCoroutine r).bossDead := by
      intro hc
      obtain ⟨hp, -, hi, hb, -⟩ := WaveManager.bossDead_frame (m.stopCoroutine r)
      exact .bossDead hi hb (by rw [hp]; rfl) ⟨r, transition, c, rfl, hr, hc⟩
    cases c with
    | waitForNextSpawn =>
      exact advance_spawnEnemy rfl rfl rfl (fun e he => Or.inr ⟨r, he ▸ rfl⟩)
    | waitTillActivesEmpty ready =>
      cases ready with
      | false => exact .quiet rfl rfl rfl
      | true =>
        obtain ⟨hr, hb, -⟩ := WaveManager.spawnBoss_frame (m.stopCoroutine r)
        exact .quiet (WaveManager.spawnBoss_wave _).2 hb (by rw [hr]; rfl)
    | waitForBossToDie => exact hdead (Or.inl rfl)
    | timeTillTimeOut => exact hdead (Or.inr rfl)

theorem act_wave (m : WaveManager) (a : WaveAction) : (act m a).state.wave = m.wave := by
  have hspawn : ∀ n t, n.wave = m.wave → (WaveManager.spawnEnemy t n).state.wave = m.wave := by
    intro n t hn
    have hs := WaveManager.spawnEnemy_spawns t n
    generalize n.spawnEnemy t = o at hs
    cases hs <;> exact hn
  cases a with
  | start transition => exact hspawn m transition rfl
  | fixedUpdate deltaTime shouldDestroy =>
    simp only [act, WaveManager.doTimer]
    split_ifs <;> rfl
  | destroy | endOfFrame | playerDeath => rfl
  | resume r transition =>
    simp only [act, WaveManager.resume]
    rcases m.routines r with _ | c
    · rfl
    cases c with
    | waitForNextSpawn => exact hspawn _ transition rfl
    | waitTillActivesEmpty ready =>
      cases ready with
      | false => rfl
      | true => exact (WaveManager.spawnBoss_wave _).1
    | waitForBossToDie | timeTillTimeOut => exact (WaveManager.bossDead_frame _).2.1

/-- No boss times out, and no subscriber of `OnTransitionBG` throws. -/
def OnTime (s : WaveSession) : WaveAction → Prop
  | .start transition => transition = none
  | .resume r transition => transition = none ∧ s.manager.routines r ≠ some .timeTillTimeOut
  | _ => True

instance (s : WaveSession) (a : WaveAction) : Decidable (s.OnTime a) := by
  rcases a with ⟨⟩ <;> dsimp only [OnTime] <;> infer_instance

def AwaitsBoss (m : WaveManager) (r : ℕ) : Prop :=
  ∃ c, m.routines r = some c ∧ c ≠ .waitForNextSpawn ∧ c ≠ .timeTillTimeOut

structure Orderly (s : WaveSession) : Prop where
  order : s.InOrder
  engaged : ∀ r, AwaitsBoss s.manager r → s.manager.bossState = true
  single : ∀ r q, AwaitsBoss s.manager r → AwaitsBoss s.manager q → r = q

theorem start_orderly (wave : List WaveContainter) (mid final : EnemyType) :
    (start wave mid final).Orderly := by
  have hnone : ∀ r, ¬ AwaitsBoss (start wave mid final).manager r := by
    rintro r ⟨c, hc, -⟩
    exact absurd hc (by simp [start, WaveManager.loaded])
  exact ⟨⟨List.nil_prefix, rfl⟩, fun r hr => absurd hr (hnone r), fun r q hr => absurd hr (hnone r)⟩

theorem prefix_concat {α : Type*} {l xs : List α} {x : α} (h : l <+: xs)
    (hx : xs[l.length]? = some x) : l ++ [x] <+: xs := by
  obtain ⟨t, rfl⟩ := h
  rw [List.getElem?_append_right (le_refl _), Nat.sub_self] at hx
  cases t with
  | nil => exact absurd hx (by simp)
  | cons y t =>
    obtain rfl : y = x := Option.some.inj hx
    exact ⟨t, by simp⟩

/-- Whatever ends the entry in progress, another boss entry must be in progress. -/
theorem next_inOrder (h : s.InOrder)
    (hdead : ∀ r transition c, a = .resume r transition → s.manager.routines r = some c →
      c = .waitForBossToDie ∨ c = .timeTillTimeOut → s.manager.bossState = true)
    (hintact : ∀ e, a ≠ .start (some e) ∧ ∀ r, a ≠ .resume r (some e)) : (s.next a).InOrder := by
  obtain ⟨hpre, hlen⟩ := h
  simp only [InOrder, next, act_wave]
  cases act_advance s.manager a with
  | quiet hi hb hp =>
    rw [hp, hi, hb, List.append_nil]
    exact ⟨hpre, hlen⟩
  | process entry h hw hi hp =>
    rw [h, Bool.toNat_false, Nat.add_zero] at hlen
    rw [hp, hi, List.length_append, List.length_singleton, hlen]
    refine ⟨prefix_concat hpre ?_, rfl⟩
    rw [← hlen, List.getElem?_zipIdx, hw, Option.map_some, Nat.zero_add]
  | interrupt h hi hb ht =>
    obtain ⟨e, ht | ⟨r, ht⟩⟩ := ht
    · exact absurd ht (hintact e).1
    · exact absurd ht ((hintact e).2 r)
  | bossDead hi hb hp hr =>
    obtain ⟨r, t, c, ha, hc, hd⟩ := hr
    rw [hdead r t c ha hc hd, Bool.toNat_true] at hlen
    rw [hp, hi, hb, List.append_nil]
    exact ⟨hpre, hlen⟩

theorem OnTime.intact (ho : s.OnTime a) (e : Exn) :
    a ≠ .start (some e) ∧ ∀ r, a ≠ .resume r (some e) := by
  constructor
  · rintro rfl
    exact absurd ho (by simp [OnTime])
  · rintro r rfl
    exact absurd ho.1 (by simp)

theorem awaits_spawnEnemy {n : WaveManager} {transition : Option Exn} {q : ℕ}
    (h : AwaitsBoss (n.spawnEnemy transition).state q) :
    (AwaitsBoss n q ∧ (n.bossState = true → (n.spawnEnemy transition).state.bossState = true)) ∨
      (q = n.startedRoutines ∧ n.bossState = false ∧
        (n.spawnEnemy transition).state.bossState = true) := by
  have hs := WaveManager.spawnEnemy_spawns transition n
  generalize n.spawnEnemy transition = o at h hs
  obtain ⟨c, hc, hn, ht⟩ := h
  cases hs with
  | idle => exact Or.inl ⟨⟨c, hc, hn, ht⟩, id⟩
  | boss entry hb =>
    have hr : (if q = n.startedRoutines then some (Routine.waitTillActivesEmpty false)
        else n.routines q) = some c :=
      (WaveManager.startCoroutine_routines _ _ q).symm.trans hc
    split_ifs at hr with hq
    · exact Or.inr ⟨hq, hb, rfl⟩
    · exact Or.inl ⟨⟨c, hr, hn, ht⟩, fun _ => rfl⟩
  | enemy =>
    have hr : (if q = n.startedRoutines then some Routine.waitForNextSpawn
        else n.routines q) = some c :=
      (WaveManager.startCoroutine_routines _ _ q).symm.trans hc
    split_ifs at hr
    · exact absurd (Option.some.inj hr).symm hn
    · exact Or.inl ⟨⟨c, hr, hn, ht⟩, id⟩
  | interrupted => exact Or.inl ⟨⟨c, hc, hn, ht⟩, id⟩

theorem awaits_stopCoroutine {m : WaveManager} {r q : ℕ} (h : AwaitsBoss (m.stopCoroutine r) q) :
    q ≠ r ∧ AwaitsBoss m q := by
  obtain ⟨c, hc, hn, ht⟩ := h
  rw [WaveManager.stopCoroutine_routines] at hc
  split_ifs at hc with hq
  exact ⟨hq, c, hc, hn, ht⟩

theorem awaits_resumed {m : WaveManager} {r : ℕ} {c : Routine} (hc : m.routines r = some c)
    (hn : c ≠ .waitForNextSpawn) (ht : c ≠ .timeTillTimeOut) : AwaitsBoss m r := ⟨c, hc, hn, ht⟩

theorem Orderly.none_left (h : s.Orderly) {r q : ℕ} (hr : AwaitsBoss s.manager r) :
    ¬ AwaitsBoss (s.manager.stopCoroutine r) q := by
  intro hq
  obtain ⟨hne, hq⟩ := awaits_stopCoroutine hq
  exact hne (h.single q r hq hr)

theorem Orderly.spawnEnemy (h : s.Orderly) {n : WaveManager} (transition : Option Exn)
    (hb : n.bossState = s.manager.bossState) (hn : ∀ r, AwaitsBoss n r → AwaitsBoss s.manager r) :
    let m := (n.spawnEnemy transition).state
    (∀ r, AwaitsBoss m r → m.bossState = true) ∧ ∀ r q, AwaitsBoss m r → AwaitsBoss m q → r = q := by
  have hold : ∀ r, AwaitsBoss n r → n.bossState = true := fun r hr => hb ▸ h.engaged r (hn r hr)
  constructor
  · intro r hr
    obtain ⟨hr, hm⟩ | ⟨-, -, hm⟩ := awaits_spawnEnemy hr
    · exact hm (hold r hr)
    · exact hm
  · intro r q hr hq
    obtain ⟨hr, -⟩ | ⟨hr, hf, -⟩ := awaits_spawnEnemy hr
    · obtain ⟨hq, -⟩ | ⟨-, hf, -⟩ := awaits_spawnEnemy hq
      · exact h.single r q (hn r hr) (hn q hq)
      · exact absurd (hold r hr) (by simp [hf])
    · obtain ⟨hq, -⟩ | ⟨hq, -, -⟩ := awaits_spawnEnemy hq
      · exact absurd (hold q hq) (by simp [hf])
      · rw [hr, hq]

theorem engaged_of_none {m : WaveManager} (hnone : ∀ r, ¬ AwaitsBoss m r) :
    (∀ r, AwaitsBoss m r → m.bossState = true) ∧ ∀ r q, AwaitsBoss m r → AwaitsBoss m q → r = q :=
  ⟨fun r hr => absurd hr (hnone r), fun r _ hr => absurd hr (hnone r)⟩

theorem Orderly.awaits_next (h : s.Orderly) (ho : s.OnTime a) :
    let m := (s.next a).manager
    (∀ r, AwaitsBoss m r → m.bossState = true) ∧ ∀ r q, AwaitsBoss m r → AwaitsBoss m q → r = q := by
  cases a with
  | start transition => exact h.spawnEnemy transition rfl (fun _ => id)
  | fixedUpdate deltaTime shouldDestroy =>
    simp only [next, act, WaveManager.doTimer]
    split_ifs <;> exact ⟨h.engaged, h.single⟩
  | destroy | endOfFrame => exact ⟨h.engaged, h.single⟩
  | playerDeath =>
    apply engaged_of_none
    rintro r ⟨c, hc, -⟩
    exact absurd hc (by simp [next, act, WaveManager.clearAndDisable])
  | resume r transition =>
    simp only [next, act, WaveManager.resume]
    rcases hr : s.manager.routines r with _ | c
    · exact ⟨h.engaged, h.single⟩
    cases c with
    | waitForNextSpawn =>
      exact h.spawnEnemy transition rfl (fun q hq => (awaits_stopCoroutine hq).2)
    | waitTillActivesEmpty ready =>
      have hwait : AwaitsBoss s.manager r := awaits_resumed hr (by simp) (by simp)
      cases ready with
      | false =>
        have hkeep : ∀ q, AwaitsBoss { s.manager with
            routines := Function.update s.manager.routines r (some (.waitTillActivesEmpty true)) }
            q → AwaitsBoss s.manager q := by
          rintro q ⟨c, hc, hn, ht⟩
          by_cases hq : q = r
          · rwa [hq]
          · exact ⟨c, by simpa [hq] using hc, hn, ht⟩
        exact ⟨fun q hq => h.engaged q (hkeep q hq),
          fun q q' hq hq' => h.single q q' (hkeep q hq) (hkeep q' hq')⟩
      | true =>
        obtain ⟨-, hb, -⟩ := WaveManager.spawnBoss_frame (s.manager.stopCoroutine r)
        have hnew : ∀ q, AwaitsBoss (s.manager.stopCoroutine r).spawnBoss.state q →
            q = (s.manager.stopCoroutine r).startedRoutines := by
          rintro q ⟨c, hc, hn, ht⟩
          obtain ⟨-, hq⟩ | ⟨hq, -⟩ | hq := WaveManager.spawnBoss_routines hc
          · exact hq
          · exact absurd hq ht
          · exact absurd ⟨c, hq, hn, ht⟩ (h.none_left hwait)
        exact ⟨fun q _ => hb.trans (h.engaged r hwait),
          fun q q' hq hq' => (hnew q hq).trans (hnew q' hq').symm⟩
    | waitForBossToDie =>
      have hwait : AwaitsBoss s.manager r := awaits_resumed hr (by simp) (by simp)
      apply engaged_of_none
      rintro q ⟨c, hc, hn, ht⟩
      obtain hq | ⟨-, hq⟩ := WaveManager.bossDead_routines hc
      · exact hn hq
      · exact h.none_left hwait ⟨c, hq, hn, ht⟩
    | timeTillTimeOut => exact absurd hr ho.2

theorem orderly_next (h : s.Orderly) (ho : s.OnTime a) : (s.next a).Orderly := by
  obtain ⟨he, hs⟩ := h.awaits_next ho
  refine ⟨next_inOrder h.order ?_ ho.intact, he, hs⟩
  rintro r transition c rfl hc (rfl | rfl)
  · exact h.engaged r ⟨_, hc, by simp, by simp⟩
  · exact absurd hc ho.2

theorem waves_in_order (wave : List WaveContainter) (mid final : EnemyType) (as : List WaveAction)
    (hl : system.Legal (start wave mid final) as)
    (ho : system.Meets OnTime (start wave mid final) as) :
    system.Meets (fun s a => (s.next a).InOrder) (start wave mid final) as :=
  System.every_step (I := Orderly) (fun _ _ h _ ho => orderly_next h ho)
    (fun _ _ h _ ho => (orderly_next h ho).order) (start_orderly wave mid final) hl ho

/-- Why a boss must not time out: the listener it leaves behind advances the index once more. -/
theorem staleListener_skips {r : ℕ} (h : s.InOrder) (hb : s.manager.bossState = false)
    (hr : s.manager.routines r = some .waitForBossToDie) (transition : Option Exn) :
    ¬ (s.next (.resume r transition)).InOrder := by
  obtain ⟨hp, -, hi, hb', -⟩ := WaveManager.bossDead_frame (s.manager.stopCoroutine r)
  rintro ⟨-, hlen⟩
  have hold := h.2
  simp only [next, act, WaveManager.resume, hr, hp, hi, hb', List.filterMap_nil,
    List.append_nil] at hlen
  rw [hb] at hold
  have hidx : (s.manager.stopCoroutine r).waveIndex = s.manager.waveIndex := rfl
  rw [hidx] at hlen
  omega

def bossEntry : WaveContainter := ⟨none, false, 0, ⟨⟨0, 0⟩, ⟨0, 0⟩, []⟩⟩

def enemyEntry : WaveContainter := ⟨some 0, false, 0, ⟨⟨0, 3⟩, ⟨0, -5⟩, []⟩⟩

def timedOut : List WaveAction :=
  [.start none, .resume 0 none, .resume 0 none, .resume 2 none, .endOfFrame, .resume 1 none]

theorem timedOut_skips :
    system.Legal (start [bossEntry, enemyEntry, enemyEntry] .midBoss .finalBoss)
      (timedOut ++ [.resume 3 none]) ∧
    ¬system.Meets (fun s a => (s.next a).InOrder)
      (start [bossEntry, enemyEntry, enemyEntry] .midBoss .finalBoss)
      (timedOut ++ [.resume 3 none]) := by
  refine ⟨by decide +kernel, ?_⟩
  intro h
  have hlast := (system.meets_concat h).1
  revert hlast
  decide +kernel

def bossKilled : List WaveAction :=
  [.start none, .resume 0 none, .resume 0 none, .destroy 0, .endOfFrame, .resume 1 none,
    .resume 3 none]

theorem waves_in_order_bossKilled :
    system.Meets (fun s a => (s.next a).InOrder)
      (start [bossEntry, enemyEntry] .midBoss .finalBoss) bossKilled :=
  waves_in_order [bossEntry, enemyEntry] .midBoss .finalBoss bossKilled (by decide +kernel)
    (by decide +kernel)

end WaveSession

end SeminarTouhou
