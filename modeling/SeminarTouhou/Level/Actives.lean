import SeminarTouhou.Library.Totals
import SeminarTouhou.Level.BossPhase
import SeminarTouhou.Level.DespawnTime
import SeminarTouhou.Level.EnemyDeath

namespace SeminarTouhou

open Library

/-- A level's waves with the enemies themselves, by the number of their object. -/
structure ActivesSession where
  waves : WaveSession
  enemies : ℕ → ActiveEnemy

/-- In a fixed update the enemies that are `first` move before the wave manager looks at them, the
others afterwards, and `sequencerAtEnd` is what `GetIfAtEnd` says of their sequencers. -/
inductive ActivesAction
  | wave (a : WaveSession.WaveAction)
  | fixedUpdate (sequencerAtEnd first : ℕ → Bool)

namespace ActivesSession

variable (moveTowards : Vector2 → Vector2 → ℚ → Vector2) (fixedDeltaTime : ℚ) (prefabs : ℕ → EnemyPrefab)

def manager (s : ActivesSession) : WaveManager := s.waves.manager

/-- The enemy that `SpawnEnemy` instantiated, if it did. -/
def addSpawned (enemies : ℕ → ActiveEnemy) : List WaveEvent → ℕ → ActiveEnemy
  | .process entry _ :: .spawnEnemy obj :: _ =>
    match entry.enemy with
    | some prefab => Function.update enemies obj (.spawn (prefabs prefab) entry.pos)
    | none => enemies
  | _ => enemies

def move (moves : ℕ → Bool) (s : ActivesSession) : ActivesSession :=
  { s with enemies := fun x =>
      if moves x && !s.manager.isNull x then (s.enemies x).fixedUpdate moveTowards fixedDeltaTime
      else s.enemies x }

def check (sequencerAtEnd : ℕ → Bool) (s : ActivesSession) : ActivesSession :=
  let asked x := (s.enemies x).shouldDestroy (sequencerAtEnd x) fixedDeltaTime
  { waves := s.waves.next (.fixedUpdate fixedDeltaTime (s.manager.activeList.filter (fun x => (asked x).1)))
    enemies := fun x => if x ∈ s.manager.activeList then (asked x).2 else s.enemies x }

def next (s : ActivesSession) : ActivesAction → ActivesSession
  | .wave a =>
    { waves := s.waves.next a
      enemies := addSpawned prefabs s.enemies (WaveSession.act s.manager a).raised }
  | .fixedUpdate sequencerAtEnd first =>
    ((s.move moveTowards fixedDeltaTime first).check fixedDeltaTime sequencerAtEnd).move moveTowards
      fixedDeltaTime (fun x => !first x)

def Enabled (s : ActivesSession) : ActivesAction → Prop
  | .wave (.fixedUpdate _ _) => False
  | .wave a => s.waves.Enabled a
  | .fixedUpdate _ _ => s.waves.Enabled (.fixedUpdate fixedDeltaTime [])

instance (s : ActivesSession) : (a : ActivesAction) → Decidable (s.Enabled fixedDeltaTime a)
  | .wave (.fixedUpdate _ _) => isFalse id
  | .wave (.start e) => inferInstanceAs (Decidable (s.waves.Enabled (.start e)))
  | .wave (.resume r e) => inferInstanceAs (Decidable (s.waves.Enabled (.resume r e)))
  | .wave (.destroy x) => inferInstanceAs (Decidable (s.waves.Enabled (.destroy x)))
  | .wave .endOfFrame => inferInstanceAs (Decidable (s.waves.Enabled .endOfFrame))
  | .wave .playerDeath => inferInstanceAs (Decidable (s.waves.Enabled .playerDeath))
  | .fixedUpdate _ _ => inferInstanceAs (Decidable (s.waves.Enabled (.fixedUpdate fixedDeltaTime [])))

def system : System ActivesSession ActivesAction :=
  ⟨Enabled fixedDeltaTime, next moveTowards fixedDeltaTime prefabs⟩

instance (s : ActivesSession) (a : ActivesAction) :
    Decidable ((system moveTowards fixedDeltaTime prefabs).enabled s a) :=
  inferInstanceAs (Decidable (s.Enabled fixedDeltaTime a))

def start (wave : List WaveContainter) (mid final : EnemyType) : ActivesSession :=
  ⟨.start wave mid final, fun _ => .spawn (prefabs 0) ⟨⟨0, 0⟩, ⟨0, 0⟩, []⟩⟩

def isFixedUpdate : ActivesAction → Bool
  | .fixedUpdate _ _ => true
  | .wave _ => false

end ActivesSession

/-- An entry whose enemy moves, can reach the end of its path and is gone after `n` fixed updates. -/
structure WaveContainter.Passes (prefabs : ℕ → EnemyPrefab) (deltaTime : ℚ) (n : ℕ)
    (entry : WaveContainter) : Prop where
  range : ∀ k ∈ entry.enemy, 0 < (prefabs k).range
  speed : ∀ k ∈ entry.enemy, 0 < (prefabs k).speed
  isBoss : ∀ k ∈ entry.enemy, (prefabs k).isBoss = false
  frames : ∀ k ∈ entry.enemy, (ActiveEnemy.spawn (prefabs k) entry.pos).framesLeft deltaTime ≤ n

namespace Life

def age : Life → ℕ
  | alive => 0
  | dying => 1
  | destroyed => 2

theorem age_le_destroy (l : Life) : l.age ≤ l.destroy.age := by cases l <;> decide

theorem age_le_endOfFrame (l : Life) : l.age ≤ l.endOfFrame.age := by cases l <;> decide

theorem eq_alive {l k : Life} (h : l.age ≤ k.age) (hk : k = .alive) : l = .alive := by
  subst hk
  cases l <;> first | rfl | exact absurd h (by decide)

theorem eq_destroyed {l k : Life} (h : l.age ≤ k.age) (hl : l = .destroyed) : k = .destroyed := by
  subst hl
  cases k <;> first | rfl | exact absurd h (by decide)

end Life

namespace WaveManager

variable {m : WaveManager}

theorem age_onObject (m : WaveManager) (x y : ℕ) : (m.life x).age ≤ ((m.destroy y).life x).age := by
  by_cases hx : x = y
  · subst hx
    simpa [life, destroy, onObject] using Life.age_le_destroy _
  · simp [life, destroy, onObject, hx]

theorem life_instantiate {x : ℕ} (h : x < m.instances) (position : Vector3)
    (posData : Option PositionContainer) : (m.instantiate position posData).life x = m.life x := by
  simp [life, instantiate, h.ne]

theorem age_destroyActiveBoss (m : WaveManager) (x : ℕ) :
    (m.life x).age ≤ (m.destroyActiveBoss.life x).age := by
  rw [life, life, destroyActiveBoss]
  cases m.activeBoss with
  | none => exact le_refl _
  | some boss =>
    dsimp only
    split_ifs
    · exact le_refl _
    · exact m.age_onObject x boss

/-- What a call does to the list of the enemies and to the objects that exist. -/
inductive Lists (m : WaveManager) (o : Result) : Prop
  | kept (hl : ∀ x ∈ o.state.activeList, x ∈ m.activeList) (hi : m.instances ≤ o.state.instances)
      (ha : ∀ x < m.instances, (m.life x).age ≤ (o.state.life x).age)
      (hr : ∀ entry i obj es, o.raised ≠ .process entry i :: .spawnEnemy obj :: es)
  | added (entry : WaveContainter) (k : ℕ) (hentry : entry ∈ m.wave) (hk : entry.enemy = some k)
      (es : List WaveEvent) (hr : o.raised = .process entry m.waveIndex :: .spawnEnemy m.instances :: es)
      (hl : o.state.activeList = m.activeList ++ [m.instances]) (hi : o.state.instances = m.instances + 1)
      (ha : ∀ x < m.instances, o.state.life x = m.life x)

theorem Lists.quiet {o : Result} (hl : ∀ x ∈ o.state.activeList, x ∈ m.activeList)
    (hi : m.instances ≤ o.state.instances) (ha : ∀ x < m.instances, (m.life x).age ≤ (o.state.life x).age)
    (hr : ∀ entry i, .process entry i ∉ o.raised) : m.Lists o :=
  .kept hl hi ha (fun entry i _ _ heq => hr entry i (heq ▸ List.mem_cons_self))

theorem lists_spawnEnemy (transition : Option Exn) (m : WaveManager) : m.Lists (m.spawnEnemy transition) := by
  have hidle : m.Lists (.returns m) :=
    .quiet (fun _ => id) (le_refl _) (fun _ _ => le_refl _) (fun _ _ => List.not_mem_nil)
  rw [spawnEnemy]
  split_ifs
  · cases hw : m.wave[m.waveIndex]? with
    | none => exact hidle
    | some entry =>
      have hentry : entry ∈ m.wave := List.mem_of_getElem? hw
      cases he : entry.enemy with
      | none =>
        simp only [he]
        exact .kept (fun _ => id) (le_refl _) (fun _ _ => le_refl _)
          (fun _ _ _ _ heq => List.cons_ne_nil _ _ (List.cons.inj heq).2.symm)
      | some k =>
        have hlife : ∀ x < m.instances, ((m.setTimer entry).addEnemy entry).life x = m.life x :=
          fun x hx => life_instantiate (m := m.setTimer entry) hx _ _
        simp only [he]
        split_ifs
        · cases transition with
          | none => exact .added entry k hentry he _ rfl rfl rfl hlife
          | some e => exact .added entry k hentry he _ rfl rfl rfl hlife
        · exact .added entry k hentry he _ rfl rfl rfl hlife
  · exact hidle

theorem lists_spawnBoss (m : WaveManager) : m.Lists m.spawnBoss := by
  obtain ⟨hraised, -, -, hinstances, hobjects⟩ := m.spawnBoss_frame
  have hlist : m.spawnBoss.state.activeList = m.activeList := by
    simp only [spawnBoss]
    split_ifs <;> rfl
  refine .quiet (fun _ hx => hlist ▸ hx) (by omega) (fun x hx => ?_) (fun entry i hmem => ?_)
  · have hlife := life_instantiate hx centerPosition none
    change _ ≤ (m.spawnBoss.state.objects x).life.age
    rw [hobjects]
    exact (congrArg Life.age hlife).ge
  · rw [hraised] at hmem
    cases List.mem_singleton.mp hmem

theorem lists_bossDead (m : WaveManager) : m.Lists m.bossDead := by
  obtain ⟨hraised, -, -, -, -, hinstances, hobjects⟩ := m.bossDead_frame
  have hlist : m.bossDead.state.activeList = m.activeList := by
    simp only [bossDead]
    cases m.timeOutTimer <;> rfl
  refine .quiet (fun _ hx => hlist ▸ hx) hinstances.ge (fun x _ => ?_) (fun entry i hmem => ?_)
  · have hage := m.age_destroyActiveBoss x
    rw [life, life, ← hobjects] at hage
    exact hage
  · rw [hraised] at hmem
    exact absurd hmem List.not_mem_nil

theorem doTimer_same (deltaTime : ℚ) (m : WaveManager) : (m.doTimer deltaTime).activeList = m.activeList ∧
    (m.doTimer deltaTime).instances = m.instances ∧ (m.doTimer deltaTime).life = m.life := by
  rw [doTimer]
  split_ifs <;> exact ⟨rfl, rfl, rfl⟩

theorem life_checkActives (shouldDestroy : List ℕ) (m : WaveManager) (x : ℕ) :
    (m.checkActives shouldDestroy).life x =
      if x ∈ m.activeList ∧ x ∈ shouldDestroy then (m.life x).destroy else m.life x := by
  simp only [life, checkActives, destroy, onObject, Function.update_self]
  split_ifs <;> rfl

theorem isNull_checkActives {shouldDestroy : List ℕ} {x : ℕ}
    (h : x ∈ (m.checkActives shouldDestroy).activeList) : (m.checkActives shouldDestroy).isNull x = false :=
  Bool.not_eq_true' _ ▸ (List.mem_filter.mp h).2

theorem lists_checkActives (deltaTime : ℚ) (shouldDestroy : List ℕ) (m : WaveManager) :
    m.Lists (.returns ((m.doTimer deltaTime).checkActives shouldDestroy)) := by
  have htimer := m.doTimer_same deltaTime
  refine .quiet (fun x hx => ?_) htimer.2.1.ge (fun x _ => ?_) (fun _ _ => List.not_mem_nil)
  · exact htimer.1 ▸ List.mem_of_mem_filter hx
  · rw [Outcome.returns_state, life_checkActives, htimer.2.2]
    split_ifs
    · exact Life.age_le_destroy _
    · exact le_refl _

theorem Lists.of_stopCoroutine {r : ℕ} {o : Result} (h : (m.stopCoroutine r).Lists o) : m.Lists o := by
  cases h with
  | kept hl hi ha hr => exact .kept hl hi ha hr
  | added entry k hentry hk es hr hl hi ha => exact .added entry k hentry hk es hr hl hi ha

theorem lists_act (m : WaveManager) (a : WaveSession.WaveAction) : m.Lists (WaveSession.act m a) := by
  have hsame : ∀ n : WaveManager, n.activeList = m.activeList → n.instances = m.instances →
      n.objects = m.objects → m.Lists (.returns n) := by
    intro n hl hi ho
    refine .quiet (fun _ hx => hl ▸ hx) hi.ge (fun x _ => ?_) (fun _ _ => List.not_mem_nil)
    rw [life, life, Outcome.returns_state, ho]
  cases a with
  | start transition => exact m.lists_spawnEnemy transition
  | fixedUpdate deltaTime shouldDestroy => exact m.lists_checkActives deltaTime shouldDestroy
  | destroy y =>
    exact .quiet (fun _ => id) (le_refl _) (fun x _ => m.age_onObject x y) (fun _ _ => List.not_mem_nil)
  | endOfFrame =>
    exact .quiet (fun _ => id) (le_refl _) (fun _ _ => Life.age_le_endOfFrame _)
      (fun _ _ => List.not_mem_nil)
  | playerDeath =>
    refine .quiet (fun _ hx => absurd hx List.not_mem_nil) (le_refl _) (fun x _ => ?_)
      (fun _ _ => List.not_mem_nil)
    exact { m with activeList := [] }.age_destroyActiveBoss x
  | resume r transition =>
    simp only [WaveSession.act, resume]
    rcases m.routines r with _ | c
    · exact hsame m rfl rfl rfl
    cases c with
    | waitForNextSpawn => exact .of_stopCoroutine ((m.stopCoroutine r).lists_spawnEnemy transition)
    | waitTillActivesEmpty ready =>
      cases ready with
      | false => exact hsame _ rfl rfl rfl
      | true => exact .of_stopCoroutine (m.stopCoroutine r).lists_spawnBoss
    | waitForBossToDie | timeTillTimeOut => exact .of_stopCoroutine (m.stopCoroutine r).lists_bossDead

end WaveManager

namespace ActivesSession

variable {moveTowards : Vector2 → Vector2 → ℚ → Vector2} {fixedDeltaTime : ℚ} {prefabs : ℕ → EnemyPrefab}
  {s : ActivesSession} {a : ActivesAction} {n : ℕ}

/-- The enemies of the list that are alive are on their way out, within `n` fixed updates. -/
structure Fielded (prefabs : ℕ → EnemyPrefab) (fixedDeltaTime : ℚ) (n : ℕ) (s : ActivesSession) : Prop where
  passes : ∀ entry ∈ s.manager.wave, entry.Passes prefabs fixedDeltaTime n
  listed : ∀ x ∈ s.manager.activeList, x < s.manager.instances
  leaving : ∀ x ∈ s.manager.activeList, s.manager.life x = .alive → (s.enemies x).Leaving fixedDeltaTime n

def Fights (x : ℕ) (s : ActivesSession) : Prop := x ∈ s.manager.activeList ∧ s.manager.life x = .alive

theorem leaving_spawn {entry : WaveContainter} {k : ℕ} (h : entry.Passes prefabs fixedDeltaTime n)
    (hk : entry.enemy = some k) : (ActiveEnemy.spawn (prefabs k) entry.pos).Leaving fixedDeltaTime n := by
  have hselects := (PathSession.start_selects entry.pos (prefabs k).range (prefabs k).speed
    (prefabs k).isBoss entry.pos.spawnPosition.toVector3).2
  have hindex := PathSession.start_index entry.pos (prefabs k).range (prefabs k).speed
    (prefabs k).isBoss entry.pos.spawnPosition.toVector3
  have hstart := PathEnemy.start_eq (e := .spawned entry.pos (prefabs k).range (prefabs k).speed
    (prefabs k).isBoss entry.pos.spawnPosition.toVector3) Int32.toInt_zero.ge
  have hframes := h.frames k hk
  refine ⟨⟨?_, ?_, ?_, hselects.index, hselects.target⟩, ?_⟩
  · rw [ActiveEnemy.spawn, hstart]
    exact h.range k hk
  · rw [ActiveEnemy.spawn, hstart]
    exact h.speed k hk
  · rw [ActiveEnemy.spawn, hstart]
    exact h.isBoss k hk
  · change (PathSession.start _).enemy.currentIndex.toInt + _ ≤ _
    rw [hindex]
    omega

theorem manager_next_wave (s : ActivesSession) (a : WaveSession.WaveAction) :
    (s.next moveTowards fixedDeltaTime prefabs (.wave a)).manager = (WaveSession.act s.manager a).state := rfl

theorem addSpawned_kept {enemies : ℕ → ActiveEnemy} {raised : List WaveEvent}
    (h : ∀ entry i obj es, raised ≠ .process entry i :: .spawnEnemy obj :: es) :
    addSpawned prefabs enemies raised = enemies := by
  rw [addSpawned.eq_def]
  split
  · exact absurd rfl (h _ _ _ _)
  · rfl

theorem Fielded.wave (h : s.Fielded prefabs fixedDeltaTime n) (a : WaveSession.WaveAction) :
    (s.next moveTowards fixedDeltaTime prefabs (.wave a)).Fielded prefabs fixedDeltaTime n := by
  have hwave := WaveSession.act_wave s.manager a
  cases s.manager.lists_act a with
  | kept hl hi ha hr =>
    have henemies : (s.next moveTowards fixedDeltaTime prefabs (.wave a)).enemies = s.enemies :=
      addSpawned_kept hr
    refine ⟨?_, ?_, ?_⟩
    · rw [manager_next_wave, hwave]
      exact h.passes
    · exact fun x hx => (h.listed x (hl x hx)).trans_le hi
    · intro x hx hlife
      rw [henemies]
      exact h.leaving x (hl x hx) (Life.eq_alive (ha x (h.listed x (hl x hx))) hlife)
  | added entry k hentry hk es hr hl hi ha =>
    have henemies : (s.next moveTowards fixedDeltaTime prefabs (.wave a)).enemies =
        Function.update s.enemies s.manager.instances (.spawn (prefabs k) entry.pos) := by
      change addSpawned prefabs s.enemies _ = _
      rw [hr, addSpawned, hk]
    refine ⟨?_, ?_, ?_⟩
    · rw [manager_next_wave, hwave]
      exact h.passes
    · intro x hx
      rw [manager_next_wave, hl] at hx
      rw [manager_next_wave, hi]
      rcases List.mem_append.mp hx with hold | hnew
      · exact (h.listed x hold).trans (Nat.lt_succ_self _)
      · exact List.mem_singleton.mp hnew ▸ Nat.lt_succ_self _
    · intro x hx hlife
      rw [manager_next_wave, hl] at hx
      rw [henemies]
      rcases List.mem_append.mp hx with hold | hnew
      · have hlt := h.listed x hold
        rw [Function.update_of_ne hlt.ne]
        exact h.leaving x hold ((ha x hlt).symm.trans hlife)
      · rw [List.mem_singleton.mp hnew, Function.update_self]
        exact leaving_spawn (h.passes entry hentry) hk

theorem manager_fixedUpdate (sequencerAtEnd first : ℕ → Bool) (s : ActivesSession) :
    (s.next moveTowards fixedDeltaTime prefabs (.fixedUpdate sequencerAtEnd first)).manager =
      (s.manager.doTimer fixedDeltaTime).checkActives (s.manager.activeList.filter (fun x =>
        (((s.move moveTowards fixedDeltaTime first).enemies x).shouldDestroy (sequencerAtEnd x)
          fixedDeltaTime).1)) := rfl

theorem Fielded.fixedUpdate (h : s.Fielded prefabs fixedDeltaTime n) (hm : MovesTowards moveTowards)
    (hdelta : 0 < fixedDeltaTime) (hn : n < 2 ^ 31) (sequencerAtEnd first : ℕ → Bool) {x : ℕ}
    (hx : (s.next moveTowards fixedDeltaTime prefabs (.fixedUpdate sequencerAtEnd first)).Fights x) :
    let t := s.next moveTowards fixedDeltaTime prefabs (.fixedUpdate sequencerAtEnd first)
    (t.enemies x).Leaving fixedDeltaTime n ∧
      (t.enemies x).framesLeft fixedDeltaTime + 1 ≤ (s.enemies x).framesLeft fixedDeltaTime := by
  obtain ⟨hlist, hlife⟩ := hx
  have htimer := s.manager.doTimer_same fixedDeltaTime
  have hnull : (s.next moveTowards fixedDeltaTime prefabs
      (.fixedUpdate sequencerAtEnd first)).manager.isNull x = false := by
    rw [WaveManager.isNull, hlife]
    rfl
  rw [manager_fixedUpdate] at hlist hlife hnull
  have hold : x ∈ s.manager.activeList := htimer.1 ▸ List.mem_of_mem_filter hlist
  rw [WaveManager.life_checkActives, htimer.1, htimer.2.2] at hlife
  have hkept : ((((s.move moveTowards fixedDeltaTime first).enemies x).shouldDestroy (sequencerAtEnd x)
      fixedDeltaTime).1) = false := by
    by_contra hd
    rw [if_pos ⟨hold, List.mem_filter.mpr ⟨hold, by simpa using hd⟩⟩] at hlife
    cases hl : s.manager.life x <;> simp [hl, Life.destroy] at hlife
  have halive : s.manager.life x = .alive := by
    rwa [if_neg (fun hmem => by simp [hkept] at hmem)] at hlife
  have hnull' : s.manager.isNull x = false := by
    rw [WaveManager.isNull, halive]
    rfl
  refine (h.leaving x hold halive).update hm hdelta hn (first x) (sequencerAtEnd x) ?_ rfl hkept ?_
  · simp only [move, hnull', Bool.not_false, Bool.and_true]
  · have hchecked :
        ((s.move moveTowards fixedDeltaTime first).check fixedDeltaTime sequencerAtEnd).enemies x =
        (((s.move moveTowards fixedDeltaTime first).enemies x).shouldDestroy (sequencerAtEnd x)
          fixedDeltaTime).2 := if_pos hold
    have hnull'' : ((s.move moveTowards fixedDeltaTime first).check fixedDeltaTime
        sequencerAtEnd).manager.isNull x = false := hnull
    change (if !first x && !((s.move moveTowards fixedDeltaTime first).check fixedDeltaTime
      sequencerAtEnd).manager.isNull x then _ else _) = _
    rw [hnull'', hchecked]
    cases first x <;> rfl

variable (moveTowards fixedDeltaTime prefabs)

theorem lists_next (s : ActivesSession) (a : ActivesAction) : ∃ o : WaveManager.Result,
    s.manager.Lists o ∧ o.state = (s.next moveTowards fixedDeltaTime prefabs a).manager ∧
      (s.next moveTowards fixedDeltaTime prefabs a).manager.wave = s.manager.wave := by
  cases a with
  | wave a => exact ⟨_, s.manager.lists_act a, rfl, WaveSession.act_wave s.manager a⟩
  | fixedUpdate sequencerAtEnd first =>
    exact ⟨_, s.manager.lists_act (.fixedUpdate fixedDeltaTime _), rfl, WaveSession.act_wave s.manager
      (.fixedUpdate fixedDeltaTime (s.manager.activeList.filter (fun x =>
        (((s.move moveTowards fixedDeltaTime first).enemies x).shouldDestroy (sequencerAtEnd x)
          fixedDeltaTime).1)))⟩

theorem next_older (s : ActivesSession) (a : ActivesAction) :
    let t := s.next moveTowards fixedDeltaTime prefabs a
    s.manager.instances ≤ t.manager.instances ∧ ∀ x < s.manager.instances,
      (x ∈ t.manager.activeList → x ∈ s.manager.activeList) ∧
        (s.manager.life x).age ≤ (t.manager.life x).age := by
  obtain ⟨o, hlists, ho, -⟩ := s.lists_next moveTowards fixedDeltaTime prefabs a
  intro t
  have ht : t.manager = o.state := ho.symm
  rw [ht]
  cases hlists with
  | kept hl hi ha hr => exact ⟨hi, fun x hx => ⟨hl x, ha x hx⟩⟩
  | added entry k hentry hk es hr hl hi ha =>
    refine ⟨by omega, fun x hx => ⟨fun hmem => ?_, (congrArg Life.age (ha x hx)).ge⟩⟩
    rw [hl] at hmem
    exact (List.mem_append.mp hmem).resolve_right (fun hnew => hx.ne (List.mem_singleton.mp hnew))

variable {moveTowards fixedDeltaTime prefabs}

theorem Fielded.next (h : s.Fielded prefabs fixedDeltaTime n) (hm : MovesTowards moveTowards)
    (hdelta : 0 < fixedDeltaTime) (hn : n < 2 ^ 31) (a : ActivesAction) :
    (s.next moveTowards fixedDeltaTime prefabs a).Fielded prefabs fixedDeltaTime n := by
  cases a with
  | wave a => exact h.wave a
  | fixedUpdate sequencerAtEnd first =>
    have holder := s.next_older moveTowards fixedDeltaTime prefabs (.fixedUpdate sequencerAtEnd first)
    have hold : ∀ x ∈ (s.next moveTowards fixedDeltaTime prefabs
        (.fixedUpdate sequencerAtEnd first)).manager.activeList, x ∈ s.manager.activeList := by
      intro x hx
      rw [manager_fixedUpdate] at hx
      exact (s.manager.doTimer_same fixedDeltaTime).1 ▸ List.mem_of_mem_filter hx
    refine ⟨?_, fun x hx => (h.listed x (hold x hx)).trans_le holder.1, fun x hx hlife => ?_⟩
    · obtain ⟨o, -, -, hwave⟩ :=
        s.lists_next moveTowards fixedDeltaTime prefabs (.fixedUpdate sequencerAtEnd first)
      rw [hwave]
      exact h.passes
    · exact (h.fixedUpdate hm hdelta hn sequencerAtEnd first ⟨hx, hlife⟩).1

theorem Fielded.framesLeft_next (h : s.Fielded prefabs fixedDeltaTime n) (hm : MovesTowards moveTowards)
    (hdelta : 0 < fixedDeltaTime) (hn : n < 2 ^ 31) (a : ActivesAction) {x : ℕ} (hx : x < s.manager.instances)
    (hf : (s.next moveTowards fixedDeltaTime prefabs a).Fights x) :
    ((s.next moveTowards fixedDeltaTime prefabs a).enemies x).framesLeft fixedDeltaTime +
      (isFixedUpdate a).toNat ≤ (s.enemies x).framesLeft fixedDeltaTime := by
  cases a with
  | fixedUpdate sequencerAtEnd first => exact (h.fixedUpdate hm hdelta hn sequencerAtEnd first hf).2
  | wave a =>
    have henemy : (s.next moveTowards fixedDeltaTime prefabs (.wave a)).enemies x = s.enemies x := by
      change addSpawned prefabs s.enemies _ x = _
      cases s.manager.lists_act a with
      | kept hl hi ha hr => rw [addSpawned_kept hr]
      | added entry k hentry hk es hr hl hi ha =>
        rw [hr, addSpawned, hk]
        exact Function.update_of_ne hx.ne _ _
    rw [henemy]
    exact le_refl _

theorem start_fielded {wave : List WaveContainter} (h : ∀ entry ∈ wave, entry.Passes prefabs fixedDeltaTime n)
    (mid final : EnemyType) : (start prefabs wave mid final).Fielded prefabs fixedDeltaTime n :=
  ⟨h, fun _ hx => absurd hx List.not_mem_nil, fun _ hx => absurd hx List.not_mem_nil⟩

/-- The object exists, and if it is still in the list it is null. -/
def Gone (x : ℕ) (s : ActivesSession) : Prop :=
  x < s.manager.instances ∧ (x ∈ s.manager.activeList → s.manager.life x = .destroyed)

theorem Gone.next {x : ℕ} (h : s.Gone x) (a : ActivesAction) :
    (s.next moveTowards fixedDeltaTime prefabs a).Gone x := by
  obtain ⟨hinstances, holder⟩ := s.next_older moveTowards fixedDeltaTime prefabs a
  obtain ⟨hlist, hage⟩ := holder x h.1
  exact ⟨h.1.trans_le hinstances, fun hx => Life.eq_destroyed hage (h.2 (hlist hx))⟩

theorem Gone.unlisted {x : ℕ} (h : s.Gone x) (sequencerAtEnd first : ℕ → Bool) :
    x ∉ (s.next moveTowards fixedDeltaTime prefabs
      (.fixedUpdate sequencerAtEnd first)).manager.activeList := by
  intro hx
  have hnext : (s.next moveTowards fixedDeltaTime prefabs (.fixedUpdate sequencerAtEnd first)).Gone x :=
    h.next _
  have hgone := hnext.2 hx
  rw [manager_fixedUpdate] at hx hgone
  have hnull := WaveManager.isNull_checkActives hx
  rw [WaveManager.isNull, hgone] at hnull
  exact absurd hnull (by decide)

theorem Fielded.out (h : s.Fielded prefabs fixedDeltaTime n) (hm : MovesTowards moveTowards)
    (hdelta : 0 < fixedDeltaTime) (hn : n < 2 ^ 31) {bs : List ActivesAction}
    (hl : (system moveTowards fixedDeltaTime prefabs).Legal s bs) (hb : n ≤ bs.countP isFixedUpdate)
    {x : ℕ} (hx : x < s.manager.instances) :
    ¬((system moveTowards fixedDeltaTime prefabs).run s bs).Fights x := by
  intro hf
  obtain ⟨hfs, hle⟩ := System.countP_add_rank_le (M := system moveTowards fixedDeltaTime prefabs)
    (I := fun s => s.Fielded prefabs fixedDeltaTime n ∧ x < s.manager.instances) (P := Fights x)
    (r := fun s => (s.enemies x).framesLeft fixedDeltaTime) isFixedUpdate
    (fun s a hs _ => ⟨hs.1.next hm hdelta hn a, hs.2.trans_le (s.next_older _ _ _ a).1⟩)
    (fun s a hs _ hf => ⟨((s.next_older _ _ _ a).2 x hs.2).1 hf.1,
      Life.eq_alive ((s.next_older _ _ _ a).2 x hs.2).2 hf.2⟩)
    (fun s a hs _ hf => hs.1.framesLeft_next hm hdelta hn a hs.2 hf) ⟨h, hx⟩ hl hf
  have hleaving := h.leaving x hfs.1 hfs.2
  have hindex := hleaving.way.index
  have hframes := hleaving.frames
  have hpos : 0 < (((system moveTowards fixedDeltaTime prefabs).run s bs).enemies x).framesLeft
      fixedDeltaTime := Nat.succ_pos _
  omega

theorem Gone.dropped {x : ℕ} (h : s.Gone x) {cs : List ActivesAction}
    (hl : (system moveTowards fixedDeltaTime prefabs).Legal s cs) (hc : 1 ≤ cs.countP isFixedUpdate) :
    x ∉ ((system moveTowards fixedDeltaTime prefabs).run s cs).manager.activeList := by
  intro hx
  have hstep : ∀ (s : ActivesSession) (a : ActivesAction), s.Gone x →
      x ∈ (s.next moveTowards fixedDeltaTime prefabs a).manager.activeList →
        0 + (isFixedUpdate a).toNat ≤ 0 := by
    intro s a hs hmem
    cases a with
    | wave => exact le_refl 0
    | fixedUpdate sequencerAtEnd first => exact absurd hmem (hs.unlisted sequencerAtEnd first)
  obtain ⟨-, hle⟩ := System.countP_add_rank_le (M := system moveTowards fixedDeltaTime prefabs)
    (I := Gone x) (P := fun s => x ∈ s.manager.activeList) (r := fun _ => 0) isFixedUpdate
    (fun s a hs _ => hs.next a) (fun s a hs _ => ((s.next_older _ _ _ a).2 x hs.1).1)
    (fun s a hs _ => hstep s a hs) h hl hx
  omega

theorem Fielded.leave (h : s.Fielded prefabs fixedDeltaTime n) (hm : MovesTowards moveTowards)
    (hdelta : 0 < fixedDeltaTime) (hn : n < 2 ^ 31) {bs cs : List ActivesAction}
    (hl : (system moveTowards fixedDeltaTime prefabs).Legal s (bs ++ .wave .endOfFrame :: cs))
    (hb : n ≤ bs.countP isFixedUpdate) (hc : 1 ≤ cs.countP isFixedUpdate) {x : ℕ}
    (hx : x < s.manager.instances) : x ∉ ((system moveTowards fixedDeltaTime prefabs).run s
      (bs ++ .wave .endOfFrame :: cs)).manager.activeList := by
  obtain ⟨hbs, hrest⟩ := (System.meets_append _ _ _ bs _).mp hl
  obtain ⟨-, hcs⟩ := (System.meets_cons _ _ _ _ cs).mp hrest
  have hout := h.out hm hdelta hn hbs hb hx
  have hmore : s.manager.instances ≤
      ((system moveTowards fixedDeltaTime prefabs).run s bs).manager.instances :=
    System.run_ascends (R := fun s t => s.manager.instances ≤ t.manager.instances) (fun _ => le_refl _)
      (fun _ _ _ => le_trans) (fun s a => (s.next_older _ _ _ a).1) s bs
  have hgone : ((system moveTowards fixedDeltaTime prefabs).next
      ((system moveTowards fixedDeltaTime prefabs).run s bs) (.wave .endOfFrame)).Gone x := by
    refine ⟨hx.trans_le hmore, fun hmem => ?_⟩
    change (((system moveTowards fixedDeltaTime prefabs).run s bs).manager.life x).endOfFrame = .destroyed
    cases hlife : ((system moveTowards fixedDeltaTime prefabs).run s bs).manager.life x with
    | alive => exact absurd ⟨hmem, hlife⟩ hout
    | dying | destroyed => rfl
  rw [System.run_append, System.run_cons]
  exact hgone.dropped hcs hc

/-- Whatever is hit, killed or spawned meanwhile and however long the attacks of an enemy go on: after `n`
fixed updates, and the one that follows the end of the frame, only enemies that were spawned since are in
the list. If none was, the list is empty and the boss can come. -/
theorem enemies_leave (hm : MovesTowards moveTowards) (hdelta : 0 < fixedDeltaTime)
    {wave : List WaveContainter} (hpasses : ∀ entry ∈ wave, entry.Passes prefabs fixedDeltaTime n)
    (hn : n < 2 ^ 31) {mid final : EnemyType} {as bs cs : List ActivesAction}
    (hl : (system moveTowards fixedDeltaTime prefabs).Legal (start prefabs wave mid final)
      (as ++ (bs ++ .wave .endOfFrame :: cs)))
    (hb : n ≤ bs.countP isFixedUpdate) (hc : 1 ≤ cs.countP isFixedUpdate) :
    let s := (system moveTowards fixedDeltaTime prefabs).run (start prefabs wave mid final) as
    let t := (system moveTowards fixedDeltaTime prefabs).run s (bs ++ .wave .endOfFrame :: cs)
    (∀ x ∈ t.manager.activeList, s.manager.instances ≤ x) ∧
      (t.manager.instances = s.manager.instances → t.manager.ready (.waitTillActivesEmpty true) = true) := by
  obtain ⟨has, hrest⟩ := (System.meets_append _ _ _ as _).mp hl
  have hkeep := fun s a (hs : s.Fielded prefabs fixedDeltaTime n)
    (_ : (system moveTowards fixedDeltaTime prefabs).enabled s a) =>
      hs.next hm hdelta hn a
  have hfielded := System.invariant_legal hkeep (start_fielded hpasses mid final) has
  have hlater := System.invariant_legal hkeep hfielded hrest
  intro s t
  have hnew : ∀ x ∈ t.manager.activeList, s.manager.instances ≤ x :=
    fun x hx => not_lt.mp (fun hlt => hfielded.leave hm hdelta hn hrest hb hc hlt hx)
  refine ⟨hnew, fun hsame => ?_⟩
  have hempty : t.manager.activeList = [] := by
    refine List.eq_nil_iff_forall_not_mem.mpr (fun x hx => ?_)
    exact absurd (hlater.listed x hx) (not_lt.mpr (hsame ▸ hnew x hx))
  rw [WaveManager.ready, WaveManager.checkActivesForEmpty, hempty]
  rfl

def swift : EnemyPrefab := ⟨1, 100, false⟩

/-- With this speed and step `MoveTowards` is at the end at once. -/
theorem step_movesTowards : MovesTowards EnemyDeath.step := by
  refine ⟨fun _ _ _ _ _ => rfl, fun p q d _ hlt => ?_⟩
  rw [EnemyDeath.step, sqrDistance_self]
  exact (sub_pos.mpr hlt).le

theorem enemies_leave_oneEnemy :
    let M := system EnemyDeath.step (1 / 2) (fun _ => swift)
    let s := M.run (start (fun _ => swift) [WaveSession.enemyEntry] .midBoss .finalBoss)
      [.wave (.start none)]
    let t := M.run s (List.replicate 13 (.fixedUpdate (fun _ => false) (fun _ => true)) ++
      .wave .endOfFrame :: [.fixedUpdate (fun _ => false) (fun _ => true)])
    (∀ x ∈ t.manager.activeList, s.manager.instances ≤ x) ∧
      (t.manager.instances = s.manager.instances → t.manager.ready (.waitTillActivesEmpty true) = true) := by
  refine enemies_leave (n := 13) step_movesTowards (by decide +kernel) ?_ (by decide) (by decide +kernel)
    (by decide +kernel) (by decide +kernel)
  intro entry hentry
  rw [List.mem_singleton.mp hentry]
  refine ⟨?_, ?_, fun _ _ => rfl, ?_⟩
  · exact fun _ _ => by decide +kernel
  · exact fun _ _ => by decide +kernel
  · exact fun _ _ => by decide +kernel

end ActivesSession

end SeminarTouhou
