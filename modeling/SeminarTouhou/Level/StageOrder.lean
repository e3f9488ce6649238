import SeminarTouhou.Level.StagedEnemy
import SeminarTouhou.Level.ResultOnce

namespace SeminarTouhou

open Library

namespace StagedEnemy

variable {e : StagedEnemy}

def hasDrop (e : StagedEnemy) (stage : ℕ) : Bool := (e.drops[stage]?).join.isSome

def dropped (e : StagedEnemy) (k : ℕ) : List ℕ := (List.range k).filter e.hasDrop

def dropOf : EnemyEvent → Option ℕ
  | .triggerDrop stage _ => some stage
  | _ => none

def dropsOf (log : List EnemyEvent) : List ℕ := log.filterMap dropOf

theorem dropsOf_append (log events : List EnemyEvent) :
    dropsOf (log ++ events) = dropsOf log ++ dropsOf events := List.filterMap_append

theorem dropped_succ (e : StagedEnemy) (k : ℕ) :
    e.dropped (k + 1) = e.dropped k ++ [k].filter e.hasDrop := by
  rw [dropped, List.range_succ, List.filter_append]
  rfl

theorem dropsOf_triggerDrop (e : StagedEnemy) :
    dropsOf e.triggerDrop = [e.currentStage].filter e.hasDrop := by
  unfold triggerDrop
  cases h : e.drops[e.currentStage]? with
  | none => simp [dropsOf, hasDrop, h]
  | some d =>
    cases d with
    | none => simp [dropsOf, hasDrop, h]
    | some d => simp [dropsOf, dropOf, hasDrop, h]

theorem deaths_triggerDrop (e : StagedEnemy) : e.triggerDrop.count .enemyDeath = 0 := by
  unfold triggerDrop
  split
  · simp
  · rfl

/-- What the stages of an enemy rest on, besides its flags and its health. -/
structure SameStage (e e' : StagedEnemy) : Prop where
  stages : e'.stages = e.stages
  drops : e'.drops = e.drops
  lists : e'.containter.length = e.containter.length
  stage : e'.currentStage = e.currentStage
  index : e'.conIndex = e.conIndex

theorem SameStage.trans {a b c : StagedEnemy} (h : SameStage a b) (k : SameStage b c) :
    SameStage a c :=
  ⟨k.stages.trans h.stages, k.drops.trans h.drops, k.lists.trans h.lists, k.stage.trans h.stage,
    k.index.trans h.index⟩

theorem SameStage.hasDrop {e e' : StagedEnemy} (h : SameStage e e') : e'.hasDrop = e.hasDrop := by
  funext k
  rw [StagedEnemy.hasDrop, h.drops]
  rfl

theorem SameStage.dropped {e e' : StagedEnemy} (h : SameStage e e') (k : ℕ) :
    e'.dropped k = e.dropped k := by
  rw [StagedEnemy.dropped, h.hasDrop]
  rfl

theorem stopAttacks_same (e : StagedEnemy) : SameStage e e.stopAttacks := by
  refine ⟨rfl, rfl, ?_, rfl, rfl⟩
  simp only [stopAttacks]
  split_ifs
  · exact List.length_set
  · rfl

def enterStage (stage : BossStage) (sequencer : Sequencer) (e : StagedEnemy) : StagedEnemy :=
  { e with
    isDead := false
    currentStage := e.currentStage + 1
    currentHealth := stage.maxHealth
    currentRespawnTime := stage.respawnTime
    conIndex := e.conIndex + 1
    sequencer := sequencer }

theorem revive_enters (hd : e.isDead = true) (hc : e.conIndex = e.currentStage)
    (hs : e.currentStage + 1 < e.stages.length) (hl : e.stages.length ≤ e.containter.length) :
    ∃ stage sequencer, e.stages[e.currentStage + 1]? = some stage ∧
      e.revive = .raises (e.enterStage stage sequencer)
        [.stageComplete, .enemyRespawnUpdate stage.respawnTime] := by
  have hstage := List.getElem?_eq_getElem hs
  have hlist : e.conIndex + 1 < e.containter.length := by omega
  obtain ⟨attacks, hattacks⟩ : ∃ l, e.containter[e.conIndex + 1]? = some l :=
    ⟨_, List.getElem?_eq_getElem hlist⟩
  refine ⟨_, (e.sequencer.setSequeceList attacks).spawnEmmiter, hstage, ?_⟩
  rw [revive, if_pos hd]
  dsimp only
  rw [hstage]
  dsimp only
  rw [hattacks]
  rfl

end StagedEnemy

/-- What an enemy is in: a fight, the delay after a stage, or its end. -/
inductive StagePhase
  | fighting
  | waiting
  | killed
deriving DecidableEq

namespace StagePhase

def exhausted : StagePhase → ℕ
  | fighting => 0
  | _ => 1

def deaths : StagePhase → ℕ
  | killed => 1
  | _ => 0

end StagePhase

namespace StageSession

open StagedEnemy

def InRange (e : StagedEnemy) : Prop := ∃ stage, e.stages[e.currentStage]? = some stage ∧
  e.currentHealth ∈ Set.Icc 0 (stage.maxHealth : ℚ)

structure InPhase (phase : StagePhase) (s : StageSession) : Prop where
  dead : s.enemy.isDead = decide (phase ≠ .fighting)
  invincible : s.enemy.isInvincible = decide (phase = .waiting)
  respawning : s.enemy.respawning = decide (phase = .waiting)
  range : InRange s.enemy
  healths : ∀ stage ∈ s.enemy.stages, 0 ≤ stage.maxHealth
  delay : phase = .fighting → ∀ stage, s.enemy.stages[s.enemy.currentStage]? = some stage →
    s.enemy.currentRespawnTime = stage.respawnTime
  empty : phase ≠ .fighting → s.enemy.currentHealth ≤ 0
  more : phase = .waiting → s.enemy.currentStage + 1 ≠ s.enemy.stages.length
  last : phase = .killed → s.enemy.currentStage + 1 = s.enemy.stages.length
  lists : s.enemy.stages.length ≤ s.enemy.containter.length
  index : s.enemy.conIndex = s.enemy.currentStage
  drops : dropsOf s.log = s.enemy.dropped (s.enemy.currentStage + phase.exhausted)
  deaths : s.log.count .enemyDeath = phase.deaths

variable {e : StagedEnemy} {log : List EnemyEvent}

theorem clamp_mem {m : ℤ} (hm : 0 ≤ m) (v : ℚ) : clamp v 0 (m : ℚ) ∈ Set.Icc 0 (m : ℚ) := by
  have hz : 0 ≤ (m : ℚ) := Int.cast_nonneg hm
  unfold clamp
  split_ifs with hv hm
  · exact ⟨le_refl 0, hz⟩
  · exact ⟨hz, le_refl _⟩
  · exact ⟨not_lt.mp hv, not_lt.mp hm⟩

theorem InPhase.valid {phase : StagePhase} (h : InPhase phase ⟨e, log⟩) :
    e.currentStage < e.stages.length := by
  obtain ⟨stage, hstage, -⟩ := h.range
  exact (List.getElem?_eq_some_iff.mp hstage).1

theorem InPhase.respawn (h : InPhase .waiting ⟨e, log⟩) (deltaTime : ℚ) :
    0 ≤ e.currentRespawnTime ∧
        InPhase .waiting ⟨(e.respawn deltaTime).state, log ++ (e.respawn deltaTime).raised⟩ ∧
        (e.respawn deltaTime).state.currentStage = e.currentStage ∧
        (e.respawn deltaTime).state.currentRespawnTime = e.currentRespawnTime - deltaTime ∨
      e.currentRespawnTime < 0 ∧
        InPhase .fighting ⟨(e.respawn deltaTime).state, log ++ (e.respawn deltaTime).raised⟩ ∧
        (e.respawn deltaTime).state.currentStage = e.currentStage + 1 := by
  rw [StagedEnemy.respawn]
  by_cases ht : 0 ≤ e.currentRespawnTime
  · rw [if_pos ht]
    refine Or.inl ⟨ht, ⟨h.dead, h.invincible, rfl, h.range, h.healths, by simp, h.empty, h.more,
      h.last, h.lists, h.index, ?_, ?_⟩, rfl, rfl⟩
    · rw [Outcome.raises_raised, dropsOf_append, h.drops]
      exact List.append_nil _
    · rw [Outcome.raises_raised, List.count_append, h.deaths]
      rfl
  · rw [if_neg ht]
    have hmore := h.more rfl
    have hvalid := h.valid
    obtain ⟨stage, sequencer, hstage, he⟩ := revive_enters
      (e := { e with isInvincible := false, respawning := false }) h.dead h.index
      (by dsimp only at hmore ⊢; omega) h.lists
    rw [he]
    have hfull : 0 ≤ (stage.maxHealth : ℚ) :=
      Int.cast_nonneg (h.healths stage (List.mem_of_getElem? hstage))
    refine Or.inr ⟨not_le.mp ht, ⟨rfl, rfl, rfl, ⟨stage, hstage, Set.right_mem_Icc.mpr hfull⟩, h.healths, ?_,
      by simp, by simp, by simp, h.lists, congrArg (· + 1) h.index, ?_, ?_⟩, rfl⟩
    · intro _ next hnext
      exact congrArg BossStage.respawnTime (Option.some.inj (hstage.symm.trans hnext))
    · rw [Outcome.raises_raised, dropsOf_append, h.drops]
      exact List.append_nil _
    · rw [Outcome.raises_raised, List.count_append, h.deaths]
      rfl

theorem InPhase.exhaust (h : InPhase .fighting ⟨e, log⟩) (phase : StagePhase) (hp : phase ≠ .fighting)
    (hmore : phase = .waiting → e.currentStage + 1 ≠ e.stages.length)
    (hlast : phase = .killed → e.currentStage + 1 = e.stages.length)
    {e' : StagedEnemy} (hs : SameStage e e') (hd : e'.isDead = true)
    (hi : e'.isInvincible = decide (phase = .waiting))
    (hr : e'.respawning = decide (phase = .waiting)) (hrange : InRange e')
    (hempty : e'.currentHealth ≤ 0) {events : List EnemyEvent}
    (hdrops : dropsOf events = [e.currentStage].filter e.hasDrop)
    (hdeaths : events.count .enemyDeath = phase.deaths) : InPhase phase ⟨e', log ++ events⟩ := by
  have hone : phase.exhausted = 1 := by
    cases phase with
    | fighting => exact absurd rfl hp
    | waiting | killed => rfl
  refine ⟨?_, hi, hr, hrange, ?_, fun hf => absurd hf hp, fun _ => hempty, ?_, ?_, ?_, ?_, ?_, ?_⟩
  · rw [decide_eq_true hp]
    exact hd
  · dsimp only
    rw [hs.stages]
    exact h.healths
  · dsimp only
    rw [hs.stage, hs.stages]
    exact hmore
  · dsimp only
    rw [hs.stage, hs.stages]
    exact hlast
  · dsimp only
    rw [hs.stages, hs.lists]
    exact h.lists
  · dsimp only
    rw [hs.index, hs.stage]
    exact h.index
  · dsimp only
    rw [dropsOf_append, h.drops, hdrops, hs.dropped, hs.stage, hone]
    exact (dropped_succ e e.currentStage).symm
  · rw [List.count_append, h.deaths, hdeaths]
    exact Nat.zero_add _

/-- The enemy after the hit that exhausts its stage, up to what happens then. -/
def drained (stage : BossStage) (damage : ℚ) (e : StagedEnemy) : StagedEnemy :=
  { e with currentHealth := clamp (e.currentHealth - damage) 0 (stage.maxHealth : ℚ) }

def delayed (e : StagedEnemy) : StagedEnemy :=
  { e with isInvincible := true, isDead := true, respawning := true }

theorem kill_spec (player : Option Vector3) (e : StagedEnemy) :
    SameStage e (e.kill player).state ∧ (e.kill player).state.isDead = true ∧
      (e.kill player).state.isInvincible = e.isInvincible ∧
      (e.kill player).state.respawning = e.respawning ∧
      (e.kill player).state.currentHealth = e.currentHealth ∧
      dropsOf (e.kill player).raised = [e.currentStage].filter e.hasDrop ∧
      (e.kill player).raised.count .enemyDeath = 1 := by
  have hdead : SameStage e { e with isDead := true } := ⟨rfl, rfl, rfl, rfl, rfl⟩
  have hsame := hdead.trans (stopAttacks_same _)
  have hdrops := dropsOf_triggerDrop (stopAttacks { e with isDead := true })
  have hdeaths := deaths_triggerDrop (stopAttacks { e with isDead := true })
  rw [hsame.hasDrop, hsame.stage] at hdrops
  simp only [StagedEnemy.kill]
  generalize (stopAttacks { e with isDead := true }).triggerDrop = events at hdrops hdeaths ⊢
  have hends (more : List EnemyEvent) (hm : dropsOf more = []) (hc : more.count .enemyDeath = 0) :
      dropsOf (.enemyDeath :: (events ++ more)) = [e.currentStage].filter e.hasDrop ∧
        (EnemyEvent.enemyDeath :: (events ++ more)).count .enemyDeath = 1 := by
    constructor
    · rw [← hdrops, ← List.append_nil (dropsOf events), ← hm, ← dropsOf_append]
      rfl
    · rw [List.count_cons_self, List.count_append, hdeaths, hc]
  have hnone := hends [] rfl rfl
  rw [List.append_nil] at hnone
  split
  · split
    · exact ⟨hsame, rfl, rfl, rfl, rfl, hnone⟩
    · exact ⟨hsame.trans ⟨rfl, rfl, rfl, rfl, rfl⟩, rfl, rfl, rfl, rfl, hends _ rfl rfl⟩
  · exact ⟨hsame.trans ⟨rfl, rfl, rfl, rfl, rfl⟩, rfl, rfl, rfl, rfl, hnone⟩
  · exact ⟨hsame, rfl, rfl, rfl, rfl, hnone⟩

def healthAfter (s : StageSession) : StageAction → ℚ
  | .hit damage _ _ =>
    if s.enemy.isDead || s.enemy.isInvincible then s.enemy.currentHealth
    else
      match s.enemy.stages[s.enemy.currentStage]? with
      | none => s.enemy.currentHealth - damage
      | some stage => clamp (s.enemy.currentHealth - damage) 0 (stage.maxHealth : ℚ)
  | _ => s.enemy.currentHealth

/-- What a step may do to the stages: the next one follows when the health of this one is down to
zero; a hit that takes it there starts the delay, if there is one, or kills; and a hit during the
delay does nothing at all. -/
structure KeepsOrder (s : StageSession) (a : StageAction) : Prop where
  inOrder : (s.next a).enemy.currentStage = s.enemy.currentStage ∨
    (s.next a).enemy.currentStage = s.enemy.currentStage + 1 ∧ s.healthAfter a ≤ 0
  exhausts : ∀ damage deltaTime player, a = .hit damage deltaTime player →
    s.enemy.isDead = false → s.healthAfter a ≤ 0 →
      (s.next a).enemy.respawning = true ∨
        (s.next a).enemy.currentStage = s.enemy.currentStage + 1 ∨
        .enemyDeath ∈ (s.next a).log
  shielded : ∀ damage deltaTime player, a = .hit damage deltaTime player →
    s.enemy.respawning = true → s.next a = s

theorem InPhase.dead_iff {phase : StagePhase} {s : StageSession} (h : InPhase phase s) :
    s.enemy.isDead = true ↔ phase ≠ .fighting := by
  rw [h.dead, decide_eq_true_iff]

theorem next_hit_dead {s : StageSession} (hd : s.enemy.isDead = true) (damage deltaTime : ℚ)
    (player : Option Vector3) : s.next (.hit damage deltaTime player) = s := by
  have ho : s.enemy.onTriggerEnter2D damage deltaTime player = .returns s.enemy := by
    rw [onTriggerEnter2D, hd]
    rfl
  simp only [next, act, ho, Outcome.returns_state, Outcome.returns_raised, List.append_nil]

theorem drained_same (stage : BossStage) (damage : ℚ) (e : StagedEnemy) :
    SameStage e (drained stage damage e) := ⟨rfl, rfl, rfl, rfl, rfl⟩

theorem healthAfter_hit (log : List EnemyEvent) (hd : e.isDead = false) (hi : e.isInvincible = false)
    {stage : BossStage} (hstage : e.stages[e.currentStage]? = some stage) (damage deltaTime : ℚ)
    (player : Option Vector3) : healthAfter ⟨e, log⟩ (.hit damage deltaTime player) =
      (drained stage damage e).currentHealth := by
  simp only [healthAfter, hd, hi, hstage, Bool.or_self, Bool.false_eq_true, if_false, drained]

/-- What a hit does during a fight: it hurts, kills, or exhausts a stage that is not the last. -/
theorem hit_cases (hd : e.isDead = false) (hi : e.isInvincible = false) {stage : BossStage}
    (hstage : e.stages[e.currentStage]? = some stage) (damage deltaTime : ℚ)
    (player : Option Vector3) :
    (¬ (drained stage damage e).currentHealth ≤ 0 ∧
      e.onTriggerEnter2D damage deltaTime player = .returns (drained stage damage e)) ∨
    (drained stage damage e).currentHealth ≤ 0 ∧
      (e.currentStage + 1 = e.stages.length ∧
        e.onTriggerEnter2D damage deltaTime player = (drained stage damage e).kill player ∨
      e.currentStage + 1 ≠ e.stages.length ∧
        e.onTriggerEnter2D damage deltaTime player = Outcome.andThen
          (.raises (drained stage damage e).stopAttacks (drained stage damage e).triggerDrop)
          (startRespawn deltaTime)) := by
  have htake : e.onTriggerEnter2D damage deltaTime player =
      if (drained stage damage e).currentHealth ≤ 0 then
        if e.currentStage + 1 ≠ e.stages.length then
          Outcome.andThen (.raises (drained stage damage e).stopAttacks
            (drained stage damage e).triggerDrop) (startRespawn deltaTime)
        else (drained stage damage e).kill player
      else .returns (drained stage damage e) := by
    simp only [onTriggerEnter2D, takeDamage, hd, hi, hstage, Bool.or_self, Bool.false_eq_true,
      if_false, drained]
  by_cases hempty : (drained stage damage e).currentHealth ≤ 0
  · rw [if_pos hempty] at htake
    by_cases hlast : e.currentStage + 1 = e.stages.length
    · rw [if_neg (not_not.mpr hlast)] at htake
      exact Or.inr ⟨hempty, Or.inl ⟨hlast, htake⟩⟩
    · rw [if_pos hlast] at htake
      exact Or.inr ⟨hempty, Or.inr ⟨hlast, htake⟩⟩
  · rw [if_neg hempty] at htake
    exact Or.inl ⟨hempty, htake⟩

theorem InPhase.killedBy (h : InPhase .fighting ⟨e, log⟩) {stage : BossStage}
    (hstage : e.stages[e.currentStage]? = some stage) {damage : ℚ}
    (hempty : (drained stage damage e).currentHealth ≤ 0)
    (hlast : e.currentStage + 1 = e.stages.length) (player : Option Vector3) :
    InPhase .killed ⟨((drained stage damage e).kill player).state,
      log ++ ((drained stage damage e).kill player).raised⟩ ∧
    ((drained stage damage e).kill player).state.currentStage = e.currentStage := by
  obtain ⟨hs, hd, hi, hr, hh, hdrops, hdeaths⟩ := kill_spec player (drained stage damage e)
  have hsame := (drained_same stage damage e).trans hs
  have hinv : ((drained stage damage e).kill player).state.isInvincible = false :=
    hi.trans h.invincible
  have hres : ((drained stage damage e).kill player).state.respawning = false :=
    hr.trans h.respawning
  have hin : InRange ((drained stage damage e).kill player).state := by
    refine ⟨stage, ?_, ?_⟩
    · rw [hsame.stages, hsame.stage]
      exact hstage
    · rw [hh]
      exact clamp_mem (h.healths stage (List.mem_of_getElem? hstage)) _
  refine ⟨?_, hsame.stage⟩
  exact h.exhaust .killed (by simp) (by simp) (fun _ => hlast) hsame hd hinv hres hin (hh ▸ hempty)
    hdrops hdeaths

theorem InPhase.delayedBy (h : InPhase .fighting ⟨e, log⟩) {stage : BossStage}
    (hstage : e.stages[e.currentStage]? = some stage) {damage : ℚ}
    (hempty : (drained stage damage e).currentHealth ≤ 0)
    (hmore : e.currentStage + 1 ≠ e.stages.length) :
    InPhase .waiting ⟨delayed (drained stage damage e).stopAttacks,
      log ++ (drained stage damage e).triggerDrop⟩ := by
  have hstop := (drained_same stage damage e).trans (stopAttacks_same _)
  have hsame : SameStage e (delayed (drained stage damage e).stopAttacks) :=
    hstop.trans ⟨rfl, rfl, rfl, rfl, rfl⟩
  have hin : InRange (delayed (drained stage damage e).stopAttacks) :=
    ⟨stage, hstage, clamp_mem (h.healths stage (List.mem_of_getElem? hstage)) _⟩
  exact h.exhaust .waiting (by simp) (fun _ => hmore) (by simp) hsame rfl rfl rfl hin hempty
    (dropsOf_triggerDrop _) (deaths_triggerDrop _)

theorem next_frame_respawning (log : List EnemyEvent) (hr : e.respawning = true) (deltaTime : ℚ) :
    (⟨e, log⟩ : StageSession).next (.frame deltaTime) =
      ⟨(e.respawn deltaTime).state, log ++ (e.respawn deltaTime).raised⟩ := by
  simp only [next, act, hr, if_true]

/-- The hit that starts `Respawn` is its first pass as well. -/
theorem next_hit_delayed (log : List EnemyEvent) {stage : BossStage} {damage deltaTime : ℚ}
    {player : Option Vector3}
    (ho : e.onTriggerEnter2D damage deltaTime player = Outcome.andThen
      (.raises (drained stage damage e).stopAttacks (drained stage damage e).triggerDrop)
      (startRespawn deltaTime)) :
    (⟨e, log⟩ : StageSession).next (.hit damage deltaTime player) =
      ⟨((delayed (drained stage damage e).stopAttacks).respawn deltaTime).state,
        log ++ (drained stage damage e).triggerDrop ++
          ((delayed (drained stage damage e).stopAttacks).respawn deltaTime).raised⟩ := by
  simp only [next, act, ho, List.append_assoc]
  rfl

theorem InPhase.hit (h : InPhase .fighting ⟨e, log⟩) (damage deltaTime : ℚ)
    (player : Option Vector3) :
    (∃ p, InPhase p ((⟨e, log⟩ : StageSession).next (.hit damage deltaTime player))) ∧
      KeepsOrder ⟨e, log⟩ (.hit damage deltaTime player) := by
  have hd : e.isDead = false := h.dead
  have hi : e.isInvincible = false := h.invincible
  have hr : e.respawning = false := h.respawning
  obtain ⟨stage, hstage, -⟩ := h.range
  have hstage : e.stages[e.currentStage]? = some stage := hstage
  have hafter := healthAfter_hit log hd hi hstage damage deltaTime player
  have hshield : ∀ d t p, StageAction.hit damage deltaTime player = .hit d t p →
      e.respawning = true → (⟨e, log⟩ : StageSession).next (.hit damage deltaTime player) = ⟨e, log⟩ := by
    intro d t p _ hres
    rw [hr] at hres
    exact absurd hres Bool.false_ne_true
  obtain ⟨hlive, ho⟩ | ⟨hempty, ⟨hlast, ho⟩ | ⟨hmore, ho⟩⟩ :=
    hit_cases hd hi hstage damage deltaTime player
  · have hnext : (⟨e, log⟩ : StageSession).next (.hit damage deltaTime player) =
        ⟨drained stage damage e, log⟩ := by
      simp only [next, act, ho, Outcome.returns_state, Outcome.returns_raised, List.append_nil]
    refine ⟨⟨.fighting, ?_⟩, ?_, ?_, hshield⟩
    · rw [hnext]
      have hin : InRange (drained stage damage e) :=
        ⟨stage, hstage, clamp_mem (h.healths stage (List.mem_of_getElem? hstage)) _⟩
      exact ⟨hd, hi, hr, hin, h.healths, h.delay, by simp, by simp, by simp, h.lists, h.index,
        h.drops, h.deaths⟩
    · rw [hnext]
      exact Or.inl rfl
    · intro d t p _ _ hz
      rw [hafter] at hz
      exact absurd hz hlive
  · have hnext : (⟨e, log⟩ : StageSession).next (.hit damage deltaTime player) =
        ⟨((drained stage damage e).kill player).state,
          log ++ ((drained stage damage e).kill player).raised⟩ := by
      simp only [next, act, ho]
    obtain ⟨hk, hsame⟩ := h.killedBy hstage hempty hlast player
    refine ⟨⟨.killed, hnext ▸ hk⟩, ?_, ?_, hshield⟩
    · rw [hnext]
      exact Or.inl hsame
    · intro d t p _ _ _
      rw [hnext]
      refine Or.inr (Or.inr (List.count_pos_iff.mp ?_))
      rw [hk.deaths]
      exact Nat.one_pos
  · have hw := h.delayedBy hstage hempty hmore
    have hnext := next_hit_delayed log ho
    have hzero : (healthAfter ⟨e, log⟩ (.hit damage deltaTime player)) ≤ 0 := hafter ▸ hempty
    obtain ⟨-, hp, hsame, -⟩ | ⟨-, hp, hstep⟩ := hw.respawn deltaTime
    · refine ⟨⟨.waiting, hnext ▸ hp⟩, ?_, ?_, hshield⟩
      · rw [hnext]
        exact Or.inl hsame
      · intro d t p _ _ _
        rw [hnext]
        exact Or.inl hp.respawning
    · refine ⟨⟨.fighting, hnext ▸ hp⟩, ?_, ?_, hshield⟩
      · rw [hnext]
        exact Or.inr ⟨hstep, hzero⟩
      · intro d t p _ _ _
        rw [hnext]
        exact Or.inr (Or.inl hstep)

theorem InPhase.quiet {phase : StagePhase} (h : InPhase phase ⟨e, log⟩) {a : StageAction}
    (ha : ∀ damage deltaTime player, a ≠ .hit damage deltaTime player)
    (hraised : (act a e).raised = []) (hs : SameStage e (act a e).state)
    (hd : (act a e).state.isDead = e.isDead) (hi : (act a e).state.isInvincible = e.isInvincible)
    (hr : (act a e).state.respawning = e.respawning)
    (hh : (act a e).state.currentHealth = e.currentHealth)
    (ht : (act a e).state.currentRespawnTime = e.currentRespawnTime) :
    (∃ p, InPhase p ((⟨e, log⟩ : StageSession).next a)) ∧ KeepsOrder ⟨e, log⟩ a := by
  constructor
  · refine ⟨phase, hd.trans h.dead, hi.trans h.invincible, hr.trans h.respawning, ?_, ?_, ?_, ?_, ?_,
      ?_, ?_, ?_, ?_, ?_⟩
    · obtain ⟨stage, hstage, hmem⟩ := h.range
      refine ⟨stage, ?_, ?_⟩
      · rw [next, hs.stages, hs.stage]
        exact hstage
      · rw [next, hh]
        exact hmem
    · rw [next, hs.stages]
      exact h.healths
    · rw [next, hs.stages, hs.stage, ht]
      exact h.delay
    · rw [next, hh]
      exact h.empty
    · rw [next, hs.stages, hs.stage]
      exact h.more
    · rw [next, hs.stages, hs.stage]
      exact h.last
    · rw [next, hs.stages, hs.lists]
      exact h.lists
    · rw [next, hs.index, hs.stage]
      exact h.index
    · rw [next, hraised, List.append_nil, hs.dropped, hs.stage]
      exact h.drops
    · rw [next, hraised, List.append_nil]
      exact h.deaths
  · exact ⟨Or.inl hs.stage, fun d t p hp => absurd hp (ha d t p), fun d t p hp => absurd hp (ha d t p)⟩

theorem InPhase.step {phase : StagePhase} (h : InPhase phase ⟨e, log⟩) (a : StageAction) :
    (∃ p, InPhase p ((⟨e, log⟩ : StageSession).next a)) ∧ KeepsOrder ⟨e, log⟩ a := by
  cases a with
  | hit damage deltaTime player =>
    by_cases hp : phase = .fighting
    · subst hp
      exact h.hit damage deltaTime player
    · have hd : e.isDead = true := h.dead_iff.mpr hp
      have hnext := next_hit_dead (s := ⟨e, log⟩) hd damage deltaTime player
      refine ⟨⟨phase, hnext.symm ▸ h⟩, Or.inl (congrArg (fun s => s.enemy.currentStage) hnext), ?_, ?_⟩
      · intro d t p _ hdead
        exact absurd (hd.symm.trans hdead) (by simp)
      · intro d t p ha _
        exact hnext
  | frame deltaTime =>
    by_cases hp : phase = .waiting
    · subst hp
      have hr : e.respawning = true := h.respawning
      have hnext := next_frame_respawning log hr deltaTime
      have hzero : healthAfter ⟨e, log⟩ (.frame deltaTime) ≤ 0 := h.empty (by simp)
      obtain ⟨-, hp, hsame, -⟩ | ⟨-, hp, hstep⟩ := h.respawn deltaTime
      · refine ⟨⟨.waiting, hnext ▸ hp⟩, ?_, by simp, by simp⟩
        rw [hnext]
        exact Or.inl hsame
      · refine ⟨⟨.fighting, hnext ▸ hp⟩, ?_, by simp, by simp⟩
        rw [hnext]
        exact Or.inr ⟨hstep, hzero⟩
    · have hr : e.respawning = false := by
        have hresp := h.respawning
        rwa [decide_eq_false hp] at hresp
      have ho : act (.frame deltaTime) e = .returns e := by
        simp only [act, hr, Bool.false_eq_true, if_false]
      apply h.quiet (by simp) <;> rw [ho]
      · rfl
      · exact ⟨rfl, rfl, rfl, rfl, rfl⟩
      all_goals rfl
  | move | destroy | endOfFrame =>
    exact h.quiet (by simp) rfl ⟨rfl, rfl, rfl, rfl, rfl⟩ rfl rfl rfl rfl rfl

theorem act_stages (a : StageAction) (e : StagedEnemy) : (act a e).state.stages = e.stages := by
  have hrevive (e : StagedEnemy) : e.revive.state.stages = e.stages := by
    simp only [revive]
    repeat' split
    all_goals rfl
  have hrespawn (deltaTime : ℚ) (e : StagedEnemy) : (e.respawn deltaTime).state.stages = e.stages := by
    simp only [StagedEnemy.respawn]
    split_ifs
    · rfl
    · exact hrevive _
  cases a with
  | hit damage deltaTime player =>
    simp only [act, onTriggerEnter2D, takeDamage]
    repeat' split
    all_goals first
      | rfl
      | exact hrespawn _ _
      | exact (kill_spec player _).1.stages
  | frame deltaTime =>
    simp only [act]
    split_ifs
    · exact hrespawn _ _
    · rfl
  | move | destroy | endOfFrame => rfl

theorem start_inPhase {e : StagedEnemy} (hs : e.stages ≠ []) (hc : e.stages.length ≤ e.containter.length)
    (hm : ∀ stage ∈ e.stages, 0 ≤ stage.maxHealth) (hstage : e.currentStage = 0)
    (hindex : e.conIndex = 0) (hi : e.isInvincible = false) (hr : e.respawning = false) : InPhase .fighting (start e) := by
  obtain ⟨stage, hget⟩ : ∃ stage, e.stages[0]? = some stage :=
    ⟨_, List.getElem?_eq_getElem (List.length_pos_of_ne_nil hs)⟩
  have hinit : start e = ⟨{ e with
      currentHealth := stage.maxHealth
      currentRespawnTime := stage.respawnTime
      isDead := false
      sequencer := e.sequencer.spawnEmmiter }, []⟩ := by
    rw [start, init, hget]
    rfl
  rw [hinit]
  have hfull : 0 ≤ (stage.maxHealth : ℚ) :=
    Int.cast_nonneg (hm stage (List.mem_of_getElem? hget))
  refine ⟨rfl, hi, hr, ⟨stage, ?_, Set.right_mem_Icc.mpr hfull⟩, hm, ?_, by simp, by simp, by simp,
    hc, hindex.trans hstage.symm, ?_, rfl⟩
  · dsimp only
    rw [hstage]
    exact hget
  · intro _ first hfirst
    dsimp only at hfirst
    rw [hstage] at hfirst
    exact congrArg BossStage.respawnTime (Option.some.inj (hget.symm.trans hfirst))
  · dsimp only
    rw [hstage]
    rfl

theorem InPhase.stage_le_run {phase : StagePhase} {s : StageSession} (h : InPhase phase s)
    (as : List StageAction) :
    s.enemy.currentStage ≤ (system.run s as).enemy.currentStage := by
  induction as generalizing phase s with
  | nil => exact le_rfl
  | cons a as ih =>
    obtain ⟨⟨p, hp⟩, hk⟩ := h.step a
    have hle : s.enemy.currentStage ≤ (s.next a).enemy.currentStage := by
      obtain hsame | ⟨hnext, -⟩ := hk.inOrder
      · exact hsame.ge
      · rw [hnext]
        exact Nat.le_succ _
    exact hle.trans (ih hp)

def frameTime : StageAction → Option ℚ
  | .frame deltaTime => some deltaTime
  | _ => none

def frameTimes (as : List StageAction) : List ℚ := as.filterMap frameTime

theorem frameTimes_nonneg {s : StageSession} {as : List StageAction} (hl : system.Legal s as) :
    ∀ t ∈ frameTimes as, 0 ≤ t := by
  induction as generalizing s with
  | nil => simp [frameTimes]
  | cons a as ih =>
    obtain ⟨he, hl⟩ := (system.legal_cons s a as).mp hl
    have ih := ih hl
    cases a with
    | frame deltaTime =>
      have hpos : 0 < deltaTime := he.2
      intro t ht
      rcases List.mem_cons.mp ht with rfl | ht
      · exact hpos.le
      · exact ih t ht
    | hit | move | destroy | endOfFrame => exact ih

theorem dropLast_sum_cons {t : ℚ} {ts : List ℚ} (hts : ts ≠ []) :
    (t :: ts).dropLast.sum = t + ts.dropLast.sum := by
  rw [List.dropLast_cons_of_ne_nil hts, List.sum_cons]

theorem dropLast_sum_nonneg {ts : List ℚ} (h : ∀ t ∈ ts, 0 ≤ t) : 0 ≤ ts.dropLast.sum :=
  List.sum_nonneg (fun t ht => h t (List.dropLast_subset ts ht))

theorem InPhase.idle {s : StageSession} (h : InPhase .waiting s) {a : StageAction}
    (ha : frameTime a = none) : InPhase .waiting (s.next a) ∧
      (s.next a).enemy.currentStage = s.enemy.currentStage ∧
      (s.next a).enemy.currentRespawnTime = s.enemy.currentRespawnTime := by
  cases a with
  | frame deltaTime => exact absurd ha (by simp [frameTime])
  | hit damage deltaTime player =>
    rw [next_hit_dead (h.dead_iff.mpr (by simp))]
    exact ⟨h, rfl, rfl⟩
  | move | destroy | endOfFrame =>
    refine ⟨?_, rfl, rfl⟩
    exact ⟨h.dead, h.invincible, h.respawning, h.range, h.healths, h.delay, h.empty, h.more, h.last,
      h.lists, h.index, by rw [next, act, Outcome.returns_raised, List.append_nil]; exact h.drops,
      by rw [next, act, Outcome.returns_raised, List.append_nil]; exact h.deaths⟩

/-- The delay lasts until the frame times of its passes, the last left out, exceed what is left of
the respawn time. -/
theorem InPhase.waits {s : StageSession} (h : InPhase .waiting s) {as : List StageAction}
    (hl : system.Legal s as) :
    ((frameTimes as).dropLast.sum ≤ s.enemy.currentRespawnTime ∨ frameTimes as = [] →
      InPhase .waiting (system.run s as) ∧
        (system.run s as).enemy.currentStage = s.enemy.currentStage) ∧
    (frameTimes as ≠ [] → s.enemy.currentRespawnTime < (frameTimes as).dropLast.sum →
      s.enemy.currentStage < (system.run s as).enemy.currentStage) := by
  induction as generalizing s with
  | nil => exact ⟨fun _ => ⟨h, rfl⟩, fun hne => absurd rfl hne⟩
  | cons a as ih =>
    obtain ⟨he, hl⟩ := (system.legal_cons s a as).mp hl
    have hsum := dropLast_sum_nonneg (frameTimes_nonneg hl)
    cases ha : frameTime a with
    | none =>
      obtain ⟨hp, hstage, htime⟩ := h.idle ha
      have htimes : frameTimes (a :: as) = frameTimes as := List.filterMap_cons_none ha
      rw [htimes, ← hstage, ← htime]
      exact ih hp hl
    | some t =>
      obtain ⟨deltaTime, rfl⟩ : ∃ deltaTime, a = .frame deltaTime := by
        cases a with
        | frame deltaTime => exact ⟨deltaTime, rfl⟩
        | hit | move | destroy | endOfFrame => exact absurd ha (by simp [frameTime])
      have hdelta : 0 < deltaTime := he.2
      have htimes : frameTimes (.frame deltaTime :: as) = deltaTime :: frameTimes as := rfl
      rw [htimes]
      have hnext := next_frame_respawning s.log h.respawning deltaTime
      rw [system.run_cons, show system.next s (.frame deltaTime) = _ from hnext]
      rw [show system.next s (.frame deltaTime) = _ from hnext] at hl
      obtain ⟨ht, hp, hstage, htime⟩ | ⟨ht, hp, hstage⟩ := h.respawn deltaTime
      · -- the pass finds the delay running
        obtain ⟨hlasts, hends⟩ := ih hp hl
        rw [htime, hstage] at hlasts hends
        constructor
        · rintro (hle | hnil)
          · apply hlasts
            by_cases hne : frameTimes as = []
            · exact Or.inr hne
            · rw [dropLast_sum_cons hne] at hle
              exact Or.inl (by linarith)
          · exact absurd hnil (by simp)
        · intro _ hlt
          have hne : frameTimes as ≠ [] := by
            intro hnil
            rw [hnil, List.dropLast_singleton, List.sum_nil] at hlt
            exact absurd hlt (not_lt.mpr ht)
          rw [dropLast_sum_cons hne] at hlt
          exact hends hne (by linarith)
      · -- the pass revives the enemy
        constructor
        · rintro (hle | hnil)
          · have hall : 0 ≤ (deltaTime :: frameTimes as).dropLast.sum := by
              apply dropLast_sum_nonneg
              simp only [List.mem_cons, forall_eq_or_imp]
              exact ⟨hdelta.le, frameTimes_nonneg hl⟩
            exact absurd (hall.trans hle) (not_le.mpr ht)
          · exact absurd hnil (by simp)
        · intro _ _
          refine lt_of_lt_of_le ?_ (hp.stage_le_run as)
          rw [hstage]
          exact Nat.lt_succ_self _

/-- The frame times that `Respawn` had counted at its last pass: those of the hit that started it
and of the passes since then, the last one left out. -/
def counted (deltaTime : ℚ) (during : List StageAction) : ℚ :=
  (deltaTime :: frameTimes during).dropLast.sum

/-- Once a hit exhausts a stage that is not the last, no hit does anything until the frame times
that `Respawn` has counted exceed the respawn time of that stage; then the next one has begun. -/
def Delays (first : StageSession) (as : List StageAction) : Prop :=
  ∀ before damage deltaTime player during stage, as = before ++ .hit damage deltaTime player :: during →
    let s := system.run first before
    let t := system.run first as
    s.enemy.isDead = false → s.healthAfter (.hit damage deltaTime player) ≤ 0 →
    s.enemy.stages[s.enemy.currentStage]? = some stage →
    s.enemy.currentStage + 1 ≠ s.enemy.stages.length →
      (counted deltaTime during ≤ stage.respawnTime →
        t.enemy.currentStage = s.enemy.currentStage ∧ t.enemy.currentHealth = 0 ∧
          ∀ d e p, t.next (.hit d e p) = t) ∧
      (stage.respawnTime < counted deltaTime during →
        s.enemy.currentStage < t.enemy.currentStage)

theorem InPhase.delays {phase : StagePhase} {s : StageSession} (h : InPhase phase s)
    {damage deltaTime : ℚ} {player : Option Vector3} {during : List StageAction} {stage : BossStage}
    (hl : system.Legal s (.hit damage deltaTime player :: during)) (hd : s.enemy.isDead = false)
    (hempty : s.healthAfter (.hit damage deltaTime player) ≤ 0)
    (hstage : s.enemy.stages[s.enemy.currentStage]? = some stage)
    (hmore : s.enemy.currentStage + 1 ≠ s.enemy.stages.length) :
    let t := system.run s (.hit damage deltaTime player :: during)
    (counted deltaTime during ≤ stage.respawnTime →
      t.enemy.currentStage = s.enemy.currentStage ∧ t.enemy.currentHealth = 0 ∧
        ∀ d e p, t.next (.hit d e p) = t) ∧
    (stage.respawnTime < counted deltaTime during →
      s.enemy.currentStage < t.enemy.currentStage) := by
  obtain ⟨e, log⟩ := s
  have hphase : phase = .fighting := by
    by_contra hne
    exact absurd ((h.dead_iff.mpr hne).symm.trans hd) (by simp)
  subst hphase
  replace hd : e.isDead = false := hd
  replace hstage : e.stages[e.currentStage]? = some stage := hstage
  have hi : e.isInvincible = false := h.invincible
  rw [healthAfter_hit _ hd hi hstage] at hempty
  obtain ⟨hlive, -⟩ | ⟨-, ⟨hlast, -⟩ | ⟨-, ho⟩⟩ := hit_cases hd hi hstage damage deltaTime player
  · exact absurd hempty hlive
  · exact absurd hlast hmore
  · have hw := h.delayedBy hstage hempty hmore
    -- the hit is the first pass of the delay
    have hfirst : (⟨e, log⟩ : StageSession).next (.hit damage deltaTime player) =
        StageSession.next ⟨delayed (drained stage damage e).stopAttacks,
          log ++ (drained stage damage e).triggerDrop⟩ (.frame deltaTime) :=
      (next_hit_delayed log ho).trans (next_frame_respawning _ rfl deltaTime).symm
    obtain ⟨⟨halive, -, hpos⟩, hl⟩ := (system.legal_cons _ _ _).mp hl
    rw [show system.next ⟨e, log⟩ (.hit damage deltaTime player) = _ from hfirst] at hl
    have hlegal : system.Legal ⟨delayed (drained stage damage e).stopAttacks,
        log ++ (drained stage damage e).triggerDrop⟩ (.frame deltaTime :: during) :=
      (system.legal_cons _ _ _).mpr ⟨⟨halive, hpos⟩, hl⟩
    have htime : (delayed (drained stage damage e).stopAttacks).currentRespawnTime =
        stage.respawnTime := h.delay rfl stage hstage
    obtain ⟨hlasts, hends⟩ := hw.waits hlegal
    have hrun : system.run ⟨e, log⟩ (.hit damage deltaTime player :: during) =
        system.run ⟨delayed (drained stage damage e).stopAttacks,
          log ++ (drained stage damage e).triggerDrop⟩ (.frame deltaTime :: during) :=
      congrArg (system.run · during) hfirst
    rw [htime] at hlasts hends
    dsimp only
    rw [hrun]
    refine ⟨fun hle => ?_, fun hlt => hends (by simp [frameTimes, frameTime]) hlt⟩
    obtain ⟨hp, hsame⟩ := hlasts (Or.inl hle)
    obtain ⟨_, _, hmem⟩ := hp.range
    exact ⟨hsame, le_antisymm (hp.empty (by simp)) hmem.1,
      fun d e p => next_hit_dead (hp.dead_iff.mpr (by simp)) d e p⟩

/-- The stages of an enemy, whatever hits it and whenever its frames come: its health stays between
zero and the maximum of its stage, its attack list is that of its stage, the stages follow one
another after their delays and each drop at most once, and it is killed at most once and in its
last stage. -/
theorem stages_sound (mEnemyType : EnemyType) {stages : List BossStage}
    (drops : List (Option DropTypes)) {containter : List (List AttackData)} (sequencer : Sequencer)
    (position : Vector3) (hs : stages ≠ []) (hc : stages.length ≤ containter.length)
    (hm : ∀ stage ∈ stages, 0 ≤ stage.maxHealth) {as : List StageAction}
    (hl : system.Legal (start (.prefab mEnemyType stages drops containter sequencer position)) as) :
    let first := start (.prefab mEnemyType stages drops containter sequencer position)
    let s := system.run first as
    s.enemy.stages = stages ∧ InRange s.enemy ∧ s.enemy.conIndex = s.enemy.currentStage ∧
      (dropsOf s.log).Pairwise (· < ·) ∧
      s.log.count .enemyDeath ≤ 1 ∧
      (.enemyDeath ∈ s.log → s.enemy.currentStage + 1 = s.enemy.stages.length) ∧
      first.enemy.currentStage = 0 ∧ system.Meets KeepsOrder first as ∧ Delays first as := by
  have hstep : ∀ s a, (s.enemy.stages = stages ∧ ∃ p, InPhase p s) → system.enabled s a →
      (system.next s a).enemy.stages = stages ∧ ∃ p, InPhase p (system.next s a) := by
    rintro s a ⟨hstages, p, h⟩ _
    exact ⟨(act_stages a s.enemy).trans hstages, (h.step a).1⟩
  have hlaw : ∀ s a, (s.enemy.stages = stages ∧ ∃ p, InPhase p s) → system.enabled s a →
      KeepsOrder s a := by
    rintro s a ⟨-, p, h⟩ _
    exact (h.step a).2
  have hstart := start_inPhase (e := .prefab mEnemyType stages drops containter sequencer position)
    hs hc hm rfl rfl rfl rfl
  have hfirst : (start (.prefab mEnemyType stages drops containter sequencer position)).enemy.stages =
      stages ∧ (start (.prefab mEnemyType stages drops containter sequencer
        position)).enemy.currentStage = 0 := by
    cases stages with
    | nil => exact absurd rfl hs
    | cons stage rest => exact ⟨rfl, rfl⟩
  obtain ⟨hstages, p, h⟩ := System.invariant_legal hstep ⟨hfirst.1, _, hstart⟩ hl
  refine ⟨hstages, h.range, h.index, ?_, ?_, ?_, hfirst.2, ?_, ?_⟩
  · rw [h.drops]
    exact List.pairwise_lt_range.filter _
  · rw [h.deaths]
    cases p <;> decide
  · intro hm
    have hpos := List.count_pos_iff.mpr hm
    rw [h.deaths] at hpos
    cases p with
    | killed => exact h.last rfl
    | fighting | waiting => exact absurd hpos (lt_irrefl 0)
  · exact System.every_legal_step hstep hlaw ⟨hfirst.1, _, hstart⟩ hl
  · rintro before damage deltaTime player during stage rfl s t hd hempty hstage hmore
    obtain ⟨hbefore, hafter⟩ := (system.meets_append _ _ _ _).mp hl
    obtain ⟨-, q, hq⟩ := System.invariant_legal hstep ⟨hfirst.1, _, hstart⟩ hbefore
    have ht : t = system.run s (.hit damage deltaTime player :: during) := system.run_append _ _ _
    rw [ht]
    exact hq.delays hafter hd hempty hstage hmore

theorem stages_sound_delayed :
    let first := start (.prefab .midBoss [⟨10, 1/2⟩, ⟨20, 2⟩] [none, some ⟨[], ⟨0, 0, 0⟩⟩] [[], []]
      (.new [] false) ⟨0, 0, 0⟩)
    let as := [.hit 15 (1/5) none, .frame (1/5), .hit 30 (1/5) none, .frame (1/5), .frame (1/5),
      .hit 30 (1/5) none]
    let s := system.run first as
    s.enemy.stages = [⟨10, 1/2⟩, ⟨20, 2⟩] ∧ InRange s.enemy ∧
      s.enemy.conIndex = s.enemy.currentStage ∧ (dropsOf s.log).Pairwise (· < ·) ∧
      s.log.count .enemyDeath ≤ 1 ∧
      (.enemyDeath ∈ s.log → s.enemy.currentStage + 1 = s.enemy.stages.length) ∧
      first.enemy.currentStage = 0 ∧ system.Meets KeepsOrder first as ∧ Delays first as :=
  stages_sound .midBoss [none, some ⟨[], ⟨0, 0, 0⟩⟩] (.new [] false) ⟨0, 0, 0⟩ (by decide) (by decide)
    (by decide) (by decide +kernel)

/-- A stage of negative maximal health starts below zero. -/
theorem health_belowZero :
    ¬ InRange (start (.prefab .enemy [⟨-5, 2⟩] [none] [[]] (.new [] false) ⟨0, 0, 0⟩)).enemy := by
  rintro ⟨stage, hstage, hmem⟩
  have hmax : (⟨-5, 2⟩ : BossStage) = stage := Option.some.inj hstage
  subst hmax
  exact absurd hmem.1 (by decide)

end StageSession

end SeminarTouhou
