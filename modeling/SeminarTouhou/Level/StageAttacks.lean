import SeminarTouhou.Level.AttackOrder
import SeminarTouhou.Level.StagedEnemy

namespace SeminarTouhou

open Library

namespace Sequencer

variable {s t u : Sequencer}

def acts (s : Sequencer) (as : List SequencerAction) : Sequencer := as.foldl act s

def spawned (s : Sequencer) : List AttackData := s.emitters.map Prod.fst

def upcoming (s : Sequencer) : List AttackData :=
  s.attacks.drop s.currentAttackIndex ++ if s.shouldLoop then s.attacks.take 1 ++ s.attacks else []

structure SameCursor (s t : Sequencer) : Prop where
  attacks : t.attacks = s.attacks
  loop : t.shouldLoop = s.shouldLoop
  index : t.currentAttackIndex = s.currentAttackIndex

theorem SameCursor.next (h : SameCursor s t) :
    t.getNextAttackEmmiter.1 = s.getNextAttackEmmiter.1 ∧ SameCursor s.ask t.ask := by
  simp only [ask, getNextAttackEmmiter, h.attacks, h.loop, h.index]
  split_ifs
  · exact ⟨rfl, rfl, rfl, rfl⟩
  · exact ⟨rfl, h⟩
  · exact ⟨rfl, rfl, rfl, rfl⟩

theorem SameCursor.asks (h : SameCursor s t) (k : ℕ) : SameCursor (ask^[k] s) (ask^[k] t) := by
  induction k with
  | zero => exact h
  | succ k ih =>
    rw [Function.iterate_succ_apply', Function.iterate_succ_apply']
    exact ih.next.2

theorem SameCursor.answer (h : SameCursor s t) (k : ℕ) : t.answer k = s.answer k :=
  (h.asks k).next.1

/-- `GetNextAttackEmmiter` was called `m` times, and what it returned was spawned. -/
structure Plays (s t : Sequencer) (m : ℕ) : Prop where
  cursor : SameCursor (ask^[m] s) t
  spawned : t.spawned = s.spawned ++ (List.range m).filterMap s.answer

theorem Plays.trans {m n : ℕ} (h : Plays s t m) (k : Plays t u n) : Plays s u (m + n) := by
  have hlater (j : ℕ) : t.answer j = s.answer (m + j) := by
    rw [h.cursor.answer, answer, answer, Nat.add_comm, Function.iterate_add_apply]
  have hsame := h.cursor.asks n
  constructor
  · rw [Nat.add_comm, Function.iterate_add_apply]
    exact ⟨k.cursor.attacks.trans hsame.attacks, k.cursor.loop.trans hsame.loop,
      k.cursor.index.trans hsame.index⟩
  · rw [k.spawned, h.spawned, List.append_assoc, List.range_add, List.filterMap_append,
      List.filterMap_map]
    congr 2
    apply List.filterMap_congr
    intro j _
    exact hlater j

theorem plays_silent (hc : SameCursor s t) (he : t.spawned = s.spawned) : Plays s t 0 := by
  refine ⟨hc, ?_⟩
  rw [he]
  exact (List.append_nil _).symm

theorem spawnEmmiter_plays (s : Sequencer) : Plays s s.spawnEmmiter 1 := by
  obtain ⟨i, ⟨hn, hs⟩ | ⟨a, custom, times, hn, hs⟩⟩ := s.spawnEmmiter_cases
  · have hask : ask^[1] s = { s with currentAttackIndex := i } := congrArg Prod.snd hn
    have hnone : s.answer 0 = none := congrArg Prod.fst hn
    rw [hs]
    refine ⟨hask ▸ ⟨rfl, rfl, rfl⟩, ?_⟩
    simp [hnone, spawned]
  · have hask : ask^[1] s = { s with currentAttackIndex := i } := congrArg Prod.snd hn
    have hsome : s.answer 0 = some a := congrArg Prod.fst hn
    rw [hs]
    refine ⟨hask ▸ ⟨rfl, rfl, rfl⟩, ?_⟩
    simp [hsome, spawned, instantiate, cleanList]

theorem cleanSequencer_spawned (s : Sequencer) : s.cleanSequencer.spawned = s.spawned := by
  simp only [spawned, cleanSequencer]
  apply List.ext_getElem?
  intro x
  rw [List.getElem?_map, List.getElem?_mapIdx, List.getElem?_map, Option.map_map]
  congr 1
  funext e
  dsimp only [Function.comp]
  split_ifs <;> rfl

theorem emitterEnds_spawned (x : ℕ) (s : Sequencer) : (s.emitterEnds x).spawned = s.spawned := by
  simp only [spawned, emitterEnds]
  apply List.ext_getElem?
  intro y
  rw [List.getElem?_map, List.getElem?_modify, List.getElem?_map, Option.map_eq_map,
    Option.map_map]
  congr 1
  funext e
  dsimp only [Function.comp]
  split_ifs <;> rfl

theorem act_plays (s : Sequencer) (a : SequencerAction) : ∃ m, Plays s (s.act a) m := by
  cases a with
  | fixedUpdate deltaTime =>
    obtain ⟨times, hs | hs⟩ := s.fixedUpdate_cases deltaTime
    · rw [act, hs]
      exact ⟨0, plays_silent ⟨rfl, rfl, rfl⟩ rfl⟩
    · have hbefore : Plays s { s with timeTillNextAttack := times } 0 :=
        plays_silent ⟨rfl, rfl, rfl⟩ rfl
      have hspawn := hbefore.trans (spawnEmmiter_plays _)
      rw [act, hs]
      exact ⟨0 + 1 + 0, hspawn.trans (plays_silent ⟨rfl, rfl, rfl⟩ rfl)⟩
  | spawnEmmiter => exact ⟨1, s.spawnEmmiter_plays⟩
  | cleanSequencer => exact ⟨0, plays_silent ⟨rfl, rfl, rfl⟩ s.cleanSequencer_spawned⟩
  | emitterEnds x => exact ⟨0, plays_silent ⟨rfl, rfl, rfl⟩ (s.emitterEnds_spawned x)⟩
  | endOfFrame =>
    refine ⟨0, plays_silent ⟨rfl, rfl, rfl⟩ ?_⟩
    rw [spawned, act, endOfFrame, List.map_map]
    rfl

theorem acts_plays (s : Sequencer) (as : List SequencerAction) : ∃ m, Plays s (s.acts as) m := by
  induction as generalizing s with
  | nil => exact ⟨0, plays_silent ⟨rfl, rfl, rfl⟩ rfl⟩
  | cons a as ih =>
    obtain ⟨m, hm⟩ := s.act_plays a
    obtain ⟨n, hn⟩ := ih (s.act a)
    exact ⟨m + n, hm.trans hn⟩

theorem plays_calls (s : Sequencer) (m : ℕ) : Plays s (s.acts (List.replicate m .spawnEmmiter)) m := by
  induction m generalizing s with
  | zero => exact plays_silent ⟨rfl, rfl, rfl⟩ rfl
  | succ m ih =>
    have hstep := s.spawnEmmiter_plays.trans (ih s.spawnEmmiter)
    rw [Nat.add_comm] at hstep
    exact hstep

theorem answer_upcoming (ha : s.attacks ≠ []) {k : ℕ}
    (hk : s.shouldLoop = true → k < s.upcoming.length) : s.answer k = s.upcoming[k]? := by
  cases hl : s.shouldLoop with
  | true =>
    have hup : s.upcoming = s.attacks.drop s.currentAttackIndex ++ (s.attacks.take 1 ++ s.attacks) := by
      rw [upcoming, hl, if_pos rfl]
    have hpos := List.length_pos_iff.mpr ha
    have hlength : s.upcoming.length =
        s.attacks.length - s.currentAttackIndex + 1 + s.attacks.length := by
      rw [hup, List.length_append, List.length_append, List.length_drop, List.length_take]
      omega
    rw [answer_loop hl ha (hlength ▸ hk hl), hup]
  | false =>
    have hup : s.upcoming = s.attacks.drop s.currentAttackIndex := by
      rw [upcoming, hl, if_neg Bool.false_ne_true, List.append_nil]
    rw [hup, List.getElem?_drop]
    rcases lt_or_ge (s.currentAttackIndex + k) s.attacks.length with hi | hi
    · exact answer_within hi
    · rw [answer_end hl hi, List.getElem?_eq_none hi]

theorem length_le_upcoming (hl : s.shouldLoop = true) : s.attacks.length ≤ s.upcoming.length := by
  rw [upcoming, hl, if_pos rfl, List.length_append, List.length_append]
  omega

theorem filterMap_range_of_getElem? {α : Type*} (l : List α) {f : ℕ → Option α} {m : ℕ}
    (hf : ∀ k < m, f k = l[k]?) : (List.range m).filterMap f = l.take m := by
  induction m with
  | zero => rfl
  | succ m ih =>
    have hm := ih (fun k hk => hf k (by omega))
    rw [List.range_succ, List.filterMap_append, hm, List.take_add_one, List.filterMap_cons,
      hf m (by omega)]
    cases l[m]? with
    | none => rfl
    | some a => rfl

theorem take_answers (ha : s.attacks ≠ []) (m : ℕ) :
    ((List.range m).filterMap s.answer).take s.attacks.length =
      s.upcoming.take (min m s.attacks.length) := by
  cases hl : s.shouldLoop with
  | false =>
    have hall := filterMap_range_of_getElem? s.upcoming (f := s.answer) (m := m)
      (fun k _ => answer_upcoming ha (fun h => absurd (hl.symm.trans h) Bool.false_ne_true))
    rw [hall, List.take_take, Nat.min_comm]
  | true =>
    have hlong := length_le_upcoming hl
    have hfirst (n : ℕ) (hn : n ≤ s.upcoming.length) :
        (List.range n).filterMap s.answer = s.upcoming.take n :=
      filterMap_range_of_getElem? s.upcoming (fun k hk => answer_upcoming ha (fun _ => by omega))
    rcases le_total m s.attacks.length with hm | hm
    · rw [hfirst m (by omega), List.take_take, Nat.min_comm]
    · obtain ⟨j, rfl⟩ := Nat.exists_eq_add_of_le hm
      have hn : (s.upcoming.take s.attacks.length).length = s.attacks.length := by
        rw [List.length_take]
        omega
      rw [List.range_add, List.filterMap_append, hfirst _ hlong,
        List.take_append_of_le_length hn.ge, List.take_take, min_self, min_eq_right hm]

/-- From here on the list is played from its start, whatever happens to the sequencer. -/
def PlaysFromStart (s : Sequencer) : Prop :=
  ∀ as, let played := ((s.spawnEmmiter.acts as).spawned).drop s.spawned.length;
    played ≠ [] ∧ played.take s.attacks.length <+: s.attacks

theorem playsFromStart_iff (ha : s.attacks ≠ []) :
    s.PlaysFromStart ↔ s.upcoming ≠ [] ∧ s.upcoming.take s.attacks.length <+: s.attacks := by
  have hpos := List.length_pos_iff.mpr ha
  have hplayed (t : Sequencer) (m : ℕ) (h : Plays s t m) :
      (t.spawned.drop s.spawned.length).take s.attacks.length =
        s.upcoming.take (min m s.attacks.length) := by
    rw [h.spawned, List.drop_left, take_answers ha]
  constructor
  · intro h
    have hone := hplayed _ 1 s.spawnEmmiter_plays
    have hmany := hplayed _ _ (s.spawnEmmiter_plays.trans
      (s.spawnEmmiter.plays_calls s.attacks.length))
    constructor
    · intro hnone
      rw [hnone, List.take_nil, List.take_eq_nil_iff] at hone
      exact (h []).1 (hone.resolve_left hpos.ne')
    · have hprefix := (h (List.replicate s.attacks.length .spawnEmmiter)).2
      rw [hmany, min_eq_right (by omega)] at hprefix
      exact hprefix
  · rintro ⟨hne, hprefix⟩ as
    obtain ⟨m, hm⟩ := s.spawnEmmiter.acts_plays as
    have htake := hplayed _ _ (s.spawnEmmiter_plays.trans hm)
    constructor
    · intro hnone
      rw [hnone, List.take_nil, eq_comm, List.take_eq_nil_iff] at htake
      rcases htake with h | h
      · omega
      · exact hne h
    · rw [htake]
      apply List.IsPrefix.trans _ hprefix
      exact List.take_prefix_take_left (min_le_right _ _)

end Sequencer

/-- `exhaustedIndex` is the index of the sequencer when the last stage was exhausted. -/
structure BossSession where
  enemy : StagedEnemy
  exhaustedIndex : ℕ
deriving DecidableEq

inductive BossAction
  | stage (a : StageAction)
  | sequencer (a : SequencerAction)
deriving DecidableEq

namespace BossSession

def start (e : StagedEnemy) : BossSession := ⟨e.init.state, 0⟩

def next (s : BossSession) : BossAction → BossSession
  | .stage a =>
    ⟨(StageSession.act a s.enemy).state,
      if s.enemy.isDead then s.exhaustedIndex else s.enemy.sequencer.currentAttackIndex⟩
  | .sequencer a => { s with enemy := { s.enemy with sequencer := s.enemy.sequencer.act a } }

def system : System BossSession BossAction := ⟨fun _ _ => True, next⟩

def Installs (s : BossSession) (a : BossAction) (l : List AttackData) : Prop :=
  (s.next a).enemy.conIndex = s.enemy.conIndex + 1 ∧
    s.enemy.containter[s.enemy.conIndex + 1]? = some l ∧ l ≠ []

/-- The attacks spawned since the step, whatever happens to the sequencer then, are those of the new
list from its first one on. -/
def PlaysNewList (s : BossSession) (a : BossAction) : Prop :=
  ∀ l, s.Installs a l → ∀ as,
    let played := ((s.next a).enemy.sequencer.acts as).spawned.drop s.enemy.sequencer.spawned.length;
    played ≠ [] ∧ played.take l.length <+: l

/-- What the index of the old list leaves of the new one begins as the new one does. -/
def LeavesStart (s : BossSession) (a : BossAction) : Prop :=
  ∀ l, s.Installs a l →
    let rest := ((Sequencer.new l s.enemy.sequencer.shouldLoop).atIndex
      (s.next a).exhaustedIndex).upcoming;
    rest ≠ [] ∧ rest.take l.length <+: l

structure Retains (s q : Sequencer) : Prop where
  loop : q.shouldLoop = s.shouldLoop
  index : q.currentAttackIndex = s.currentAttackIndex
  spawned : q.spawned = s.spawned

/-- What a step may do to the sequencer: nothing, end its attacks, or give it the next list. -/
inductive StageStep (e e' : StagedEnemy) : Prop
  | quiet (sequencer : e'.sequencer = e.sequencer) (list : e'.conIndex = e.conIndex)
      (waits : e'.respawning = e.respawning) (dead : e'.isDead = e.isDead)
  | ended (alive : e.isDead = false)
      (sequencer : e'.sequencer = e.sequencer.clearAttackList.cleanSequencer)
      (list : e'.conIndex = e.conIndex) (dead : e'.isDead = true)
  | revived (waited : e.isDead = true → e.respawning = true) (waits : e'.respawning = false)
      (sequencer : ∀ l, e'.conIndex = e.conIndex + 1 → e.containter[e.conIndex + 1]? = some l →
        ∃ q, e'.sequencer = q.spawnEmmiter ∧ q.attacks = l ∧ Retains e.sequencer q)

variable {e : StagedEnemy}

theorem revive_spec (e : StagedEnemy) : e.revive.state.respawning = e.respawning ∧
    ∀ l, e.revive.state.conIndex = e.conIndex + 1 → e.containter[e.conIndex + 1]? = some l →
      e.revive.state.sequencer = (e.sequencer.setSequeceList l).spawnEmmiter := by
  rw [StagedEnemy.revive]
  by_cases hd : e.isDead = true
  · rw [if_pos hd]
    dsimp only
    cases e.stages[e.currentStage + 1]? with
    | none =>
      refine ⟨rfl, fun l hc => ?_⟩
      exact absurd hc (Nat.succ_ne_self e.conIndex).symm
    | some stage =>
      dsimp only
      cases hl : e.containter[e.conIndex + 1]? with
      | none => exact ⟨rfl, fun l _ h => absurd h (by simp)⟩
      | some attacks =>
        refine ⟨rfl, fun l _ h => ?_⟩
        cases h
        rfl
  · rw [if_neg hd]
    refine ⟨rfl, fun l hc => ?_⟩
    exact absurd hc (Nat.succ_ne_self e.conIndex).symm

theorem stopAttacks_nextList (e : StagedEnemy) :
    e.stopAttacks.containter[e.conIndex + 1]? = e.containter[e.conIndex + 1]? := by
  simp only [StagedEnemy.stopAttacks]
  split_ifs
  · exact List.getElem?_set_ne (Nat.succ_ne_self e.conIndex).symm
  · rfl

theorem kill_sequencer (player : Option Vector3) (e : StagedEnemy) :
    (e.kill player).state.sequencer = e.sequencer.clearAttackList.cleanSequencer ∧
      (e.kill player).state.conIndex = e.conIndex ∧ (e.kill player).state.isDead = true := by
  simp only [StagedEnemy.kill]
  repeat' split
  all_goals exact ⟨rfl, rfl, rfl⟩

theorem respawn_step (hr : e.respawning = true) (deltaTime : ℚ) :
    StageStep e (e.respawn deltaTime).state := by
  rw [StagedEnemy.respawn]
  split_ifs
  · exact .quiet rfl rfl hr.symm rfl
  · obtain ⟨hwaits, hlist⟩ := revive_spec { e with isInvincible := false, respawning := false }
    refine .revived (fun _ => hr) hwaits (fun l hc hl => ?_)
    exact ⟨_, hlist l hc hl, rfl, rfl, rfl, rfl⟩

theorem startRespawn_step (hd : e.isDead = false) (d : StagedEnemy)
    (hs : d.sequencer = e.sequencer) (hc : d.conIndex = e.conIndex)
    (hl : d.containter = e.containter) (deltaTime : ℚ) :
    StageStep e (d.stopAttacks.startRespawn deltaTime).state := by
  rw [StagedEnemy.startRespawn, StagedEnemy.respawn]
  split_ifs
  · exact .ended hd (by rw [← hs]; rfl) hc rfl
  · obtain ⟨hwaits, hlist⟩ := revive_spec
      { d.stopAttacks with isInvincible := false, isDead := true, respawning := false }
    refine .revived (fun h => absurd (hd.symm.trans h) Bool.false_ne_true) hwaits
      (fun l hn hm => ?_)
    rw [← hc, ← hl, ← stopAttacks_nextList] at hm
    rw [← hc] at hn
    refine ⟨_, hlist l hn hm, rfl, ?_⟩
    rw [← hs]
    exact ⟨rfl, rfl, Sequencer.cleanSequencer_spawned _⟩

theorem hit_step (damage deltaTime : ℚ) (player : Option Vector3) (e : StagedEnemy) :
    StageStep e (e.onTriggerEnter2D damage deltaTime player).state := by
  have hquiet : StageStep e e := .quiet rfl rfl rfl rfl
  rw [StagedEnemy.onTriggerEnter2D]
  by_cases hg : (e.isDead || e.isInvincible) = true
  · rw [if_pos hg]
    exact hquiet
  · have hd : e.isDead = false := by
      cases hd : e.isDead with
      | false => rfl
      | true => exact absurd (by rw [hd]; rfl) hg
    rw [if_neg hg, StagedEnemy.takeDamage, if_neg hg]
    cases e.stages[e.currentStage]? with
    | none => exact .quiet rfl rfl rfl rfl
    | some stage =>
      dsimp only
      split_ifs
      · exact startRespawn_step hd
          { e with currentHealth := clamp (e.currentHealth - damage) 0 (stage.maxHealth : ℚ) }
          rfl rfl rfl deltaTime
      · obtain ⟨hs, hc, hdead⟩ := kill_sequencer player
          { e with currentHealth := clamp (e.currentHealth - damage) 0 (stage.maxHealth : ℚ) }
        exact .ended hd hs hc hdead
      · exact .quiet rfl rfl rfl rfl

theorem act_step (a : StageAction) (e : StagedEnemy) : StageStep e (StageSession.act a e).state := by
  cases a with
  | hit damage deltaTime player => exact hit_step damage deltaTime player e
  | frame deltaTime =>
    rw [StageSession.act]
    split_ifs with hr
    · exact respawn_step hr deltaTime
    · exact .quiet rfl rfl rfl rfl
  | move | destroy | endOfFrame => exact .quiet rfl rfl rfl rfl

def Delay (s : BossSession) : Prop :=
  s.enemy.respawning = true → s.enemy.isDead = true ∧ s.enemy.sequencer.attacks = [] ∧
    s.enemy.sequencer.currentAttackIndex = s.exhaustedIndex

variable {s : BossSession}

theorem Delay.sequencer (h : s.Delay) (a : SequencerAction) : (s.next (.sequencer a)).Delay := by
  intro hr
  obtain ⟨hd, hempty, hindex⟩ := h hr
  obtain ⟨m, hm⟩ := s.enemy.sequencer.act_plays a
  have hfixed : s.enemy.sequencer.ask = s.enemy.sequencer := by
    rw [Sequencer.ask, Sequencer.getNextAttackEmmiter, hempty]
    simp
  have hsame := hm.cursor
  rw [Function.iterate_fixed hfixed] at hsame
  exact ⟨hd, hsame.attacks.trans hempty, hsame.index.trans hindex⟩

theorem Delay.stage (h : s.Delay) (a : StageAction) : (s.next (.stage a)).Delay := by
  intro hr
  cases act_step a s.enemy with
  | quiet sequencer list waits dead =>
    obtain ⟨hd, hempty, hindex⟩ := h (waits.symm.trans hr)
    refine ⟨dead.trans hd, ?_, ?_⟩
    · rw [next, sequencer]
      exact hempty
    · simp only [next, sequencer, hd, if_true]
      exact hindex
  | ended alive sequencer list dead =>
    refine ⟨dead, ?_, ?_⟩
    · rw [next, sequencer]
      rfl
    · simp only [next, sequencer, alive, Bool.false_eq_true, if_false]
      rfl
  | revived waited waits sequencer => exact absurd (hr.symm.trans waits) (by simp)

theorem Delay.next (h : s.Delay) (a : BossAction) : (s.next a).Delay := by
  cases a with
  | stage a => exact h.stage a
  | sequencer a => exact h.sequencer a

theorem Delay.installed (h : s.Delay) {a : BossAction} {l : List AttackData} (hi : s.Installs a l) :
    ∃ q : Sequencer, (s.next a).enemy.sequencer = q.spawnEmmiter ∧ q.attacks = l ∧
      q.shouldLoop = s.enemy.sequencer.shouldLoop ∧
      q.currentAttackIndex = (s.next a).exhaustedIndex ∧ q.spawned = s.enemy.sequencer.spawned := by
  obtain ⟨hc, hl, -⟩ := hi
  have hmoves {i : ℕ} (hj : i = s.enemy.conIndex) (hk : i = s.enemy.conIndex + 1) : False := by
    omega
  cases a with
  | sequencer a => exact (hmoves rfl hc).elim
  | stage a =>
    cases act_step a s.enemy with
    | quiet sequencer list waits dead => exact (hmoves list hc).elim
    | ended alive sequencer list dead => exact (hmoves list hc).elim
    | revived waited waits sequencer =>
      obtain ⟨q, hq, hlist, hkeeps⟩ := sequencer l hc hl
      refine ⟨q, hq, hlist, hkeeps.loop, ?_, hkeeps.spawned⟩
      rw [hkeeps.index, BossSession.next]
      dsimp only
      split_ifs with hd
      · exact (h (waited hd)).2.2
      · rfl

theorem Delay.playsNewList_iff (h : s.Delay) (a : BossAction) :
    s.PlaysNewList a ↔ s.LeavesStart a := by
  apply forall_congr'
  intro l
  apply imp_congr_right
  intro hi
  obtain ⟨q, hq, hlist, hloop, hindex, hspawned⟩ := h.installed hi
  have hplays := Sequencer.playsFromStart_iff (s := q) (hlist ▸ hi.2.2)
  have hup : ((Sequencer.new l s.enemy.sequencer.shouldLoop).atIndex
      (s.next a).exhaustedIndex).upcoming = q.upcoming := by
    rw [← hloop, ← hindex, ← hlist]
    rfl
  dsimp only
  rw [hup, hq, ← hspawned, ← hlist]
  exact hplays

/-- The index belongs to the old list when the new one is installed: the new list is played from its
start exactly when that does not show. -/
theorem newLists_played_iff (mEnemyType : EnemyType) (stages : List BossStage)
    (drops : List (Option DropTypes)) (containter : List (List AttackData)) (sequencer : Sequencer)
    (position : Vector3) (as : List BossAction) :
    let first := start (.prefab mEnemyType stages drops containter sequencer position);
    system.Meets PlaysNewList first as ↔ system.Meets LeavesStart first as := by
  intro first
  have hstart : first.Delay := by
    intro hr
    cases stages with
    | nil => exact absurd hr Bool.false_ne_true
    | cons stage rest => exact absurd hr Bool.false_ne_true
  apply System.meets_iff (I := Delay) _ _ hstart (fun _ _ => trivial)
  · intro s a h _ _
    exact h.next a
  · intro s a h _
    exact h.playsNewList_iff a

theorem secondStage_skipsFirst : ¬ ∀ mEnemyType stages drops containter sequencer position as,
    system.Meets PlaysNewList
      (start (.prefab mEnemyType stages drops containter sequencer position)) as := by
  intro h
  let a (x : ℕ) : AttackData := ⟨false, 0, x⟩
  let as : List BossAction := [.stage (.hit 15 1 none), .sequencer (.fixedUpdate 1), .stage (.frame 1)]
  have hlast := system.meets_concat (h .midBoss [⟨10, 1⟩, ⟨20, 1⟩] [none, none] [[], [a 1, a 2]]
    (.new [a 0] false) ⟨0, 0, 0⟩ (as ++ [.stage (.frame 1)])) [a 1, a 2]
    ⟨by decide +kernel, by decide +kernel, by decide⟩ []
  exact absurd hlast.2 (by decide +kernel)

end BossSession

end SeminarTouhou
