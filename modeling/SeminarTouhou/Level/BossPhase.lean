import SeminarTouhou.Level.WaveOrder

namespace SeminarTouhou

open Library

namespace WaveSession

variable {s : WaveSession} {a : WaveAction}

/-- A boss entry was processed whose boss is not there yet, or a boss is alive. -/
def BossPhase (s : WaveSession) : Prop :=
  (∃ r ready, s.manager.routines r = some (.waitTillActivesEmpty ready)) ∨
    ∃ x ∈ s.bosses, s.manager.life x = .alive

def Exclusive (s : WaveSession) (a : WaveAction) : Prop :=
  (∀ x, .spawnEnemy x ∈ (act s.manager a).raised → ¬ s.BossPhase) ∧
    (∀ x, .spawnBoss x ∈ (act s.manager a).raised →
      ∀ y ∈ s.manager.activeList, s.manager.life y ≠ .alive) ∧
    ∀ x ∈ (s.next a).bosses, ∀ y ∈ (s.next a).bosses,
      (s.next a).manager.life x = .alive → (s.next a).manager.life y = .alive → x = y

def BossDue (m : WaveManager) : Prop :=
  m.bossState = false ∧ ∃ entry ∈ m.wave[m.waveIndex]?, entry.enemy = none

/-- A boss entry is not processed while a `Co_WaitForBossToDie` is still pending. -/
def Unattended (s : WaveSession) : WaveAction → Prop
  | .start _ => BossDue s.manager →
      ∀ q < s.manager.startedRoutines, s.manager.routines q ≠ some .waitForBossToDie
  | .resume r _ => s.manager.routines r = some .waitForNextSpawn → BossDue s.manager →
      ∀ q < s.manager.startedRoutines, s.manager.routines q ≠ some .waitForBossToDie
  | _ => True

instance (m : WaveManager) : Decidable (BossDue m) := inferInstanceAs (Decidable (_ ∧ _))

instance (s : WaveSession) (a : WaveAction) : Decidable (s.Unattended a) := by
  rcases a with ⟨⟩ <;> dsimp only [Unattended] <;> infer_instance

def Known (m : WaveManager) : Prop := ∀ r c, m.routines r = some c → r < m.startedRoutines

theorem Known.startCoroutine {m : WaveManager} (h : Known m) (c : Routine) :
    Known (m.startCoroutine c) := by
  intro r d hd
  rw [WaveManager.startCoroutine_routines] at hd
  split_ifs at hd with hr
  · exact hr ▸ Nat.lt_succ_self _
  · exact Nat.lt_succ_of_lt (h r d hd)

theorem Known.stopCoroutine {m : WaveManager} (h : Known m) (q : ℕ) : Known (m.stopCoroutine q) := by
  intro r d hd
  rw [WaveManager.stopCoroutine_routines] at hd
  split_ifs at hd
  exact h r d hd

theorem Known.spawnBoss {m : WaveManager} (h : Known m) : Known m.spawnBoss.state := by
  have hlisten : Known (m.addBoss.startCoroutine .waitForBossToDie) :=
    Known.startCoroutine (m := m.addBoss) h _
  simp only [WaveManager.spawnBoss]
  split_ifs
  · exact hlisten.startCoroutine _
  · exact hlisten

theorem Known.bossDead {m : WaveManager} (h : Known m) : Known m.bossDead.state := by
  have hleave : Known m.leaveBoss := fun r c hc => h.startCoroutine .waitForNextSpawn r c hc
  simp only [WaveManager.bossDead]
  cases m.timeOutTimer with
  | none => exact hleave
  | some r => exact hleave.stopCoroutine r

structure Phases (m : WaveManager) (bosses : List ℕ) : Prop where
  known : Known m
  waiting : ∀ r ready, m.routines r = some (.waitTillActivesEmpty ready) →
    m.bossState = true ∧ m.activeBoss = none ∧
      ∀ q c, m.routines q = some c → c = .waitForNextSpawn ∨ q = r
  fighting : ∀ x, m.activeBoss = some x → m.bossState = true
  timer : ∀ r, m.routines r = some .timeTillTimeOut →
    m.timeOutTimer = some r ∧ m.activeBoss ≠ none
  listener : m.bossState = true → ∀ r, m.routines r = some .waitForBossToDie → m.activeBoss ≠ none
  alive : ∀ x ∈ bosses, m.life x = .alive → m.activeBoss = some x
  made : ∀ x ∈ bosses, x < m.instances

namespace Phases

variable {m n : WaveManager} {bosses : List ℕ}

theorem loaded (wave : List WaveContainter) (mid final : EnemyType) :
    Phases (.loaded wave mid final) [] := by
  constructor
  · exact fun r c h => absurd h (by simp [WaveManager.loaded])
  · exact fun r b h => absurd h (by simp [WaveManager.loaded])
  · exact fun x h => absurd h (by simp [WaveManager.loaded])
  · exact fun r h => absurd h (by simp [WaveManager.loaded])
  · exact fun h => absurd h (by simp [WaveManager.loaded])
  · exact fun x h => absurd h List.not_mem_nil
  · exact fun x h => absurd h List.not_mem_nil

theorem same (h : Phases m bosses) (hr : n.routines = m.routines)
    (hk : n.startedRoutines = m.startedRoutines) (hb : n.bossState = m.bossState)
    (ha : n.activeBoss = m.activeBoss) (ht : n.timeOutTimer = m.timeOutTimer)
    (hi : n.instances = m.instances) (hl : ∀ x, n.life x = .alive → m.life x = .alive) :
    Phases n bosses := by
  constructor
  · rw [Known, hr, hk]
    exact h.known
  · rw [hr, hb, ha]
    exact h.waiting
  · rw [ha, hb]
    exact h.fighting
  · rw [hr, ht, ha]
    exact h.timer
  · rw [hr, hb, ha]
    exact h.listener
  · rw [ha]
    exact fun x hx hlx => h.alive x hx (hl x hlx)
  · rw [hi]
    exact h.made

/-- Outside a boss entry no coroutine leads to a boss, no timer runs and no boss is alive. -/
theorem idle (h : Phases m bosses) (hb : m.bossState = false) :
    m.activeBoss = none ∧ (∀ r ready, m.routines r ≠ some (.waitTillActivesEmpty ready)) ∧
      (∀ r, m.routines r ≠ some .timeTillTimeOut) ∧ ∀ x ∈ bosses, m.life x ≠ .alive := by
  have hnone : m.activeBoss = none := by
    by_contra hne
    obtain ⟨x, hx⟩ := Option.ne_none_iff_exists'.mp hne
    exact absurd (h.fighting x hx) (by simp [hb])
  refine ⟨hnone, ?_, ?_, ?_⟩
  · intro r ready hr
    exact absurd (h.waiting r ready hr).1 (by simp [hb])
  · exact fun r hr => (h.timer r hr).2 hnone
  · intro x hx hl
    exact absurd (h.alive x hx hl) (by simp [hnone])

theorem stopCoroutine (h : Phases m bosses) (r : ℕ) : Phases (m.stopCoroutine r) bosses := by
  have hold : ∀ {q c}, (m.stopCoroutine r).routines q = some c → m.routines q = some c := by
    intro q c hc
    rw [WaveManager.stopCoroutine_routines] at hc
    split_ifs at hc
    exact hc
  constructor
  · exact h.known.stopCoroutine r
  · intro q ready hq
    obtain ⟨hb, ha, hall⟩ := h.waiting q ready (hold hq)
    exact ⟨hb, ha, fun q' c hc => hall q' c (hold hc)⟩
  · exact h.fighting
  · exact fun q hq => h.timer q (hold hq)
  · exact fun hb q hq => h.listener hb q (hold hq)
  · exact h.alive
  · exact h.made

theorem startNext (h : Phases m bosses) : Phases (m.startCoroutine .waitForNextSpawn) bosses := by
  have hold : ∀ {q c}, (m.startCoroutine .waitForNextSpawn).routines q = some c →
      c ≠ .waitForNextSpawn → m.routines q = some c := by
    intro q c hc hn
    rw [WaveManager.startCoroutine_routines] at hc
    split_ifs at hc
    · exact absurd (Option.some.inj hc).symm hn
    · exact hc
  constructor
  · exact h.known.startCoroutine _
  · intro q ready hq
    obtain ⟨hb, ha, hall⟩ := h.waiting q ready (hold hq (by simp))
    refine ⟨hb, ha, ?_⟩
    intro q' c hc
    by_cases hn : c = .waitForNextSpawn
    · exact Or.inl hn
    · exact hall q' c (hold hc hn)
  · exact h.fighting
  · exact fun q hq => h.timer q (hold hq (by simp))
  · exact fun hb q hq => h.listener hb q (hold hq (by simp))
  · exact h.alive
  · exact h.made

theorem addEnemy (h : Phases m bosses) (entry : WaveContainter) :
    Phases ((m.setTimer entry).addEnemy entry) bosses := by
  have hlife : ∀ x ∈ bosses, ((m.setTimer entry).addEnemy entry).life x = m.life x := by
    intro x hx
    have hne : x ≠ (m.setTimer entry).instances := (h.made x hx).ne
    simp only [WaveManager.life, WaveManager.addEnemy, WaveManager.instantiate,
      Function.update_of_ne hne]
    rfl
  constructor
  · exact h.known
  · exact h.waiting
  · exact h.fighting
  · exact h.timer
  · exact h.listener
  · exact fun x hx hl => h.alive x hx (hlife x hx ▸ hl)
  · exact fun x hx => Nat.lt_succ_of_lt (h.made x hx)

theorem engage (h : Phases m bosses) (hb : m.bossState = false)
    (hl : ∀ q < m.startedRoutines, m.routines q ≠ some .waitForBossToDie)
    (entry : WaveContainter) : Phases ((m.setTimer entry).changeWaveState true) bosses := by
  obtain ⟨hnone, hwait, htimer, halive⟩ := h.idle hb
  have hrout : ∀ {q c}, ((m.setTimer entry).changeWaveState true).routines q = some c →
      (q = m.startedRoutines ∧ c = .waitTillActivesEmpty false) ∨
        c = .waitForNextSpawn := by
    intro q c hc
    have hc : (if q = m.startedRoutines then some (Routine.waitTillActivesEmpty false)
        else m.routines q) = some c :=
      (WaveManager.startCoroutine_routines _ _ q).symm.trans hc
    split_ifs at hc with hq
    · exact Or.inl ⟨hq, (Option.some.inj hc).symm⟩
    · cases c with
      | waitForNextSpawn => exact Or.inr rfl
      | waitTillActivesEmpty ready => exact absurd hc (hwait q ready)
      | waitForBossToDie => exact absurd hc (hl q (h.known q _ hc))
      | timeTillTimeOut => exact absurd hc (htimer q)
  constructor
  · exact Known.startCoroutine (m := { m.setTimer entry with bossState := true }) h.known _
  · intro q ready hq
    refine ⟨rfl, hnone, ?_⟩
    intro q' c hc
    obtain ⟨hq', -⟩ | hc := hrout hc
    · obtain ⟨hq, -⟩ | hq := hrout hq
      · exact Or.inr (hq'.trans hq.symm)
      · exact absurd hq (by simp)
    · exact Or.inl hc
  · exact fun _ _ => rfl
  · intro q hq
    obtain ⟨-, hq⟩ | hq := hrout hq <;> exact absurd hq (by simp)
  · intro _ q hq
    obtain ⟨-, hq⟩ | hq := hrout hq <;> exact absurd hq (by simp)
  · exact fun x hx hl => absurd hl (halive x hx)
  · exact h.made

theorem spawnBoss (h : Phases m bosses) {r : ℕ}
    (hr : m.routines r = some (.waitTillActivesEmpty true)) :
    Phases (m.stopCoroutine r).spawnBoss.state (bosses ++ [m.instances]) := by
  obtain ⟨hb, hnone, hall⟩ := h.waiting r true hr
  obtain ⟨-, hb', ha', hi', ho'⟩ := WaveManager.spawnBoss_frame (m.stopCoroutine r)
  have hrout : ∀ {q c}, (m.stopCoroutine r).spawnBoss.state.routines q = some c →
      c = .waitForBossToDie ∨
        (c = .timeTillTimeOut ∧
          (m.stopCoroutine r).spawnBoss.state.timeOutTimer = some q) ∨ c = .waitForNextSpawn := by
    intro q c hc
    obtain ⟨hc, -⟩ | hc | hc := WaveManager.spawnBoss_routines hc
    · exact Or.inl hc
    · exact Or.inr (Or.inl hc)
    · rw [WaveManager.stopCoroutine_routines] at hc
      split_ifs at hc with hq
      exact Or.inr (Or.inr ((hall q c hc).resolve_right hq))
  constructor
  · exact (h.known.stopCoroutine r).spawnBoss
  · intro q ready hq
    obtain hq | ⟨hq, -⟩ | hq := hrout hq <;> exact absurd hq (by simp)
  · exact fun _ _ => hb'.trans hb
  · intro q hq
    obtain hq | ⟨-, ht⟩ | hq := hrout hq
    · exact absurd hq (by simp)
    · exact ⟨ht, by simp [ha']⟩
    · exact absurd hq (by simp)
  · exact fun _ _ _ => by simp [ha']
  · intro x hx hl
    obtain hx | hx := List.mem_append.mp hx
    · have hne : x ≠ (m.stopCoroutine r).instances := (h.made x hx).ne
      simp only [WaveManager.life, ho', WaveManager.instantiate, Function.update_of_ne hne] at hl
      exact absurd (h.alive x hx hl) (by simp [hnone])
    · rw [List.mem_singleton.mp hx]
      exact ha'
  · intro x hx
    rw [hi']
    obtain hx | hx := List.mem_append.mp hx
    · exact Nat.lt_succ_of_lt (h.made x hx)
    · rw [List.mem_singleton.mp hx]
      exact Nat.lt_succ_self _

theorem destroyActiveBoss_alive {x : ℕ} (hl : m.destroyActiveBoss.life x = .alive) :
    m.life x = .alive ∧ m.activeBoss ≠ some x := by
  simp only [WaveManager.life, WaveManager.destroyActiveBoss] at hl
  rcases ha : m.activeBoss with _ | boss
  all_goals simp only [ha] at hl
  · exact ⟨hl, by simp⟩
  · by_cases hx : x = boss
    · subst hx
      exfalso
      split_ifs at hl with hn
      · simp [WaveManager.isNull, WaveManager.life, hl] at hn
      · simp only [WaveManager.destroy, WaveManager.onObject, Function.update_self] at hl
        cases hd : (m.objects x).life <;> simp [hd, Life.destroy] at hl
    · refine ⟨?_, fun he => hx (Option.some.inj he).symm⟩
      split_ifs at hl
      · exact hl
      · simp only [WaveManager.destroy, WaveManager.onObject, Function.update_of_ne hx] at hl
        exact hl

theorem bossDead (h : Phases m bosses) (hb : m.bossState = true → m.activeBoss ≠ none) :
    Phases m.bossDead.state bosses := by
  obtain ⟨-, -, -, hb', ha', hi', ho'⟩ := WaveManager.bossDead_frame m
  have hwait : ∀ r ready, m.routines r ≠ some (.waitTillActivesEmpty ready) := by
    intro r ready hr
    obtain ⟨hbs, ha, -⟩ := h.waiting r ready hr
    exact hb hbs ha
  constructor
  · exact h.known.bossDead
  · intro q ready hq
    obtain hq | ⟨-, hq⟩ := WaveManager.bossDead_routines hq
    · exact absurd hq (by simp)
    · exact absurd hq (hwait q ready)
  · exact fun x hx => absurd hx (by simp [ha'])
  · intro q hq
    obtain hq | ⟨ht, hq⟩ := WaveManager.bossDead_routines hq
    · exact absurd hq (by simp)
    · exact absurd (h.timer q hq).1 ht
  · exact fun hbs => absurd hbs (by simp [hb'])
  · intro x hx hl
    have hl : m.destroyActiveBoss.life x = .alive := by rwa [WaveManager.life, ho'] at hl
    obtain ⟨hl, ha⟩ := destroyActiveBoss_alive hl
    exact absurd (h.alive x hx hl) ha
  · rw [hi']
    exact h.made

theorem clearAndDisable (h : Phases m bosses) : Phases m.clearAndDisable bosses := by
  have hnone : ∀ r c, m.clearAndDisable.routines r ≠ some c := fun r c hc => absurd hc (by
    simp [WaveManager.clearAndDisable])
  constructor
  · exact fun r c hc => absurd hc (hnone r c)
  · exact fun r ready hc => absurd hc (hnone r _)
  · exact fun x hx => absurd hx (by simp [WaveManager.clearAndDisable])
  · exact fun r hc => absurd hc (hnone r _)
  · exact fun _ r hc => absurd hc (hnone r _)
  · intro x hx hl
    obtain ⟨hl, ha⟩ := destroyActiveBoss_alive (m := { m with activeList := [] }) hl
    exact absurd (h.alive x hx hl) ha
  · exact h.made

theorem spawnEnemy (h : Phases m bosses) (transition : Option Exn)
    (hu : BossDue m → ∀ q < m.startedRoutines, m.routines q ≠ some .waitForBossToDie) :
    Phases (m.spawnEnemy transition).state bosses := by
  have hs := WaveManager.spawnEnemy_spawns transition m
  generalize m.spawnEnemy transition = o at hs
  cases hs with
  | idle => exact h
  | boss entry hb hw he => exact h.engage hb (hu ⟨hb, entry, hw, he⟩) entry
  | enemy entry =>
    exact (h.addEnemy entry).startNext.same rfl rfl rfl rfl rfl rfl (fun _ => id)
  | interrupted entry => exact h.addEnemy entry

end Phases

theorem checkActives_alive {m : WaveManager} {l : List ℕ} {x : ℕ}
    (h : (m.checkActives l).life x = .alive) : m.life x = .alive := by
  simp only [WaveManager.life, WaveManager.checkActives, WaveManager.destroy, WaveManager.onObject,
    Function.update_self] at h ⊢
  split_ifs at h
  · cases hd : (m.objects x).life <;> simp [hd, Life.destroy] at h ⊢
  · exact h

theorem destroy_alive {m : WaveManager} {x y : ℕ} (h : (m.destroy y).life x = .alive) :
    m.life x = .alive := by
  by_cases hx : x = y
  · subst hx
    simp only [WaveManager.life, WaveManager.destroy, WaveManager.onObject,
      Function.update_self] at h ⊢
    cases hd : (m.objects x).life <;> simp [hd, Life.destroy] at h ⊢
  · simpa [WaveManager.life, WaveManager.destroy, WaveManager.onObject, hx] using h

theorem endOfFrame_alive {m : WaveManager} {x : ℕ} (h : m.endOfFrame.life x = .alive) :
    m.life x = .alive := by
  simp only [WaveManager.life, WaveManager.endOfFrame] at h ⊢
  cases hd : (m.objects x).life <;> simp [hd, Life.endOfFrame] at h ⊢

/-- The call spawns an ordinary enemy only outside a boss entry, and a boss only into an empty
field. -/
structure Spawned (m : WaveManager) (o : WaveManager.Result) (bosses : List ℕ) : Prop where
  phases : Phases o.state (bosses ++ o.raised.filterMap bossOf)
  enemy : ∀ x, .spawnEnemy x ∈ o.raised → m.bossState = false
  boss : ∀ x, .spawnBoss x ∈ o.raised → m.activeList = []

theorem Spawned.silent {m n : WaveManager} {bosses : List ℕ} (h : Phases n bosses) :
    Spawned m (.returns n) bosses := by
  constructor
  · simpa using h
  · exact fun x hx => absurd hx List.not_mem_nil
  · exact fun x hx => absurd hx List.not_mem_nil

theorem Spawned.spawnEnemy {m n : WaveManager} {bosses : List ℕ} (h : Phases n bosses)
    (hb : n.bossState = m.bossState) (transition : Option Exn)
    (hu : BossDue n → ∀ q < n.startedRoutines, n.routines q ≠ some .waitForBossToDie) :
    Spawned m (n.spawnEnemy transition) bosses := by
  have hs := WaveManager.spawnEnemy_spawns transition n
  have hr := noBoss_of_spawns hs
  constructor
  · rw [hr, List.append_nil]
    exact h.spawnEnemy transition hu
  · exact fun x hx => hb ▸ bossState_of_spawns hs hx
  · intro x hx
    have hx : x ∈ (n.spawnEnemy transition).raised.filterMap bossOf :=
      List.mem_filterMap.mpr ⟨_, hx, rfl⟩
    rw [hr] at hx
    exact absurd hx List.not_mem_nil

theorem Spawned.bossDead {m n : WaveManager} {bosses : List ℕ} (h : Phases n bosses)
    (hb : n.bossState = true → n.activeBoss ≠ none) : Spawned m n.bossDead bosses := by
  have hr : n.bossDead.raised = [] := (WaveManager.bossDead_frame n).1
  constructor
  · rw [hr]
    simpa using h.bossDead hb
  · exact fun x hx => absurd (hr ▸ hx) List.not_mem_nil
  · exact fun x hx => absurd (hr ▸ hx) List.not_mem_nil

theorem act_spawned (h : Phases s.manager s.bosses) (he : s.Enabled a) (hu : s.Unattended a) :
    Spawned s.manager (act s.manager a) s.bosses := by
  cases a with
  | start transition => exact .spawnEnemy h rfl transition hu
  | fixedUpdate deltaTime shouldDestroy =>
    simp only [act, WaveManager.doTimer]
    split_ifs
    all_goals exact .silent (h.same rfl rfl rfl rfl rfl rfl (fun _ => checkActives_alive))
  | destroy x => exact .silent (h.same rfl rfl rfl rfl rfl rfl (fun _ => destroy_alive))
  | endOfFrame => exact .silent (h.same rfl rfl rfl rfl rfl rfl (fun _ => endOfFrame_alive))
  | playerDeath => exact .silent h.clearAndDisable
  | resume r transition =>
    obtain ⟨c, hr, hready⟩ := he
    have hr : s.manager.routines r = some c := hr
    simp only [act, WaveManager.resume, hr]
    have hstop := h.stopCoroutine r
    cases c with
    | waitForNextSpawn =>
      refine Spawned.spawnEnemy (m := s.manager) hstop rfl transition ?_
      intro hd q hq
      rw [WaveManager.stopCoroutine_routines]
      split_ifs
      · simp
      · exact hu hr hd q hq
    | waitTillActivesEmpty ready =>
      cases ready with
      | false =>
        obtain ⟨hb, hnone, hall⟩ := h.waiting r false hr
        refine .silent ⟨?_, ?_, h.fighting, ?_, ?_, h.alive, h.made⟩
        · intro q c hc
          by_cases hq : q = r
          · exact hq ▸ h.known r _ hr
          · exact h.known q c (by simpa [hq] using hc)
        · intro q ready hq
          refine ⟨hb, hnone, ?_⟩
          by_cases hqr : q = r
          · subst hqr
            intro q' c hc
            by_cases hq' : q' = q
            · exact Or.inr hq'
            · exact hall q' c (by simpa [hq'] using hc)
          · have hq : s.manager.routines q = some (.waitTillActivesEmpty ready) := by
              simpa [hqr] using hq
            exact absurd (hall q _ hq) (by simp [hqr])
        · intro q hq
          by_cases hqr : q = r
          · simp [hqr] at hq
          · exact h.timer q (by simpa [hqr] using hq)
        · intro hb' q hq
          by_cases hqr : q = r
          · simp [hqr] at hq
          · exact h.listener hb' q (by simpa [hqr] using hq)
      | true =>
        have hevents := (WaveManager.spawnBoss_frame (s.manager.stopCoroutine r)).1
        constructor
        · rw [hevents]
          exact h.spawnBoss hr
        · intro x hx
          rw [hevents] at hx
          exact absurd (List.mem_singleton.mp hx) (by simp)
        · intro x _
          simpa [WaveManager.ready, WaveManager.checkActivesForEmpty] using hready
    | waitForBossToDie => exact .bossDead hstop (fun hb => h.listener hb r hr)
    | timeTillTimeOut => exact .bossDead hstop (fun _ => (h.timer r hr).2)

theorem next_exclusive (h : Phases s.manager s.bosses) (he : s.Enabled a) (hu : s.Unattended a) :
    s.Exclusive a := by
  obtain ⟨hp, hen, hbo⟩ := act_spawned h he hu
  refine ⟨?_, ?_, ?_⟩
  · intro x hx hphase
    obtain ⟨-, hwait, -, halive⟩ := h.idle (hen x hx)
    obtain ⟨r, ready, hr⟩ | ⟨y, hy, hl⟩ := hphase
    · exact hwait r ready hr
    · exact halive y hy hl
  · intro x hx y hy
    rw [hbo x hx] at hy
    exact absurd hy List.not_mem_nil
  · intro x hx y hy hlx hly
    have hax := hp.alive x hx hlx
    have hay := hp.alive y hy hly
    exact Option.some.inj (hax.symm.trans hay)

theorem boss_phases_exclusive (wave : List WaveContainter) (mid final : EnemyType)
    (as : List WaveAction) (hl : system.Legal (start wave mid final) as)
    (hu : system.Meets Unattended (start wave mid final) as) :
    system.Meets Exclusive (start wave mid final) as :=
  System.every_step (I := fun s => Phases s.manager s.bosses)
    (fun _ _ h he hu => (act_spawned h he hu).phases) (fun _ _ h he hu => next_exclusive h he hu)
    (Phases.loaded wave mid final) hl hu

/-- The mini boss times out and the next spawn comes before its listener notices: the listener ends
the second boss entry before its boss is there. -/
def listenerLeft : List WaveAction :=
  [.start none, .resume 0 none, .resume 0 none, .resume 2 none, .endOfFrame, .resume 3 none,
    .resume 1 none]

theorem listenerLeft_overlaps :
    system.Legal (start [bossEntry, bossEntry, enemyEntry] .midBoss .finalBoss)
      (listenerLeft ++ [.resume 5 none]) ∧
    ¬system.Meets Exclusive (start [bossEntry, bossEntry, enemyEntry] .midBoss .finalBoss)
      (listenerLeft ++ [.resume 5 none]) := by
  refine ⟨by decide +kernel, ?_⟩
  intro h
  obtain ⟨henemy, -⟩ := system.meets_concat h
  exact henemy 1 (by decide +kernel) (Or.inl ⟨4, false, by decide +kernel⟩)

def listenerGone : List WaveAction :=
  [.start none, .resume 0 none, .resume 0 none, .resume 2 none, .endOfFrame, .resume 1 none,
    .resume 3 none, .resume 4 none, .resume 5 none]

theorem boss_phases_exclusive_listenerGone :
    system.Meets Exclusive (start [bossEntry, enemyEntry, bossEntry] .midBoss .finalBoss)
      listenerGone :=
  boss_phases_exclusive [bossEntry, enemyEntry, bossEntry] .midBoss .finalBoss listenerGone
    (by decide +kernel) (by decide +kernel)

end WaveSession

end SeminarTouhou
