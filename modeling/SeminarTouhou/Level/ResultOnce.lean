import SeminarTouhou.Level.LevelSession
import SeminarTouhou.Level.WaveOrder

namespace SeminarTouhou

open Library

namespace PlayerHealth

def dies (damage : Int32) (p : PlayerHealth) : Bool :=
  !p.isDead && !p.isInvincible && decide (clamp (p.currentHealth - damage) 0 p.maxHealth ≤ 0)

theorem takeDamage_dies (damage : Int32) (p : PlayerHealth) :
    (p.takeDamage damage).2 = p.dies damage ∧
      (p.takeDamage damage).1.isDead = (p.isDead || p.dies damage) := by
  simp only [takeDamage, dies]
  cases hd : p.isDead <;> cases hi : p.isInvincible
  all_goals
    simp only [Bool.false_or, Bool.or_false, Bool.or_true, Bool.false_eq_true,
      if_true, if_false, Bool.not_false, Bool.not_true, Bool.true_and, Bool.false_and]
  · split_ifs with h
    · exact ⟨by simp [h], by simp [bufferHits, h]⟩
    · exact ⟨by simp [h], by simp [bufferHits, h]⟩
  · exact ⟨trivial, hd⟩
  · exact ⟨trivial, hd⟩
  · exact ⟨trivial, hd⟩

theorem heal_isDead (amount : Int32) (p : PlayerHealth) : (p.heal amount).isDead = p.isDead := by
  simp only [heal]
  split_ifs <;> rfl

end PlayerHealth

namespace TempEnemy

def killed (e : TempEnemy) : Bool := e.isDead && decide (e.currentStage + 1 = e.stages.length)

def dies (damage : ℚ) (e : TempEnemy) : Bool :=
  !e.isDead && !e.isInvincible && decide (e.currentStage + 1 = e.stages.length) &&
    (e.stages[e.currentStage]?).any
      (fun stage => decide (clamp (e.currentHealth - damage) 0 (stage.maxHealth : ℚ) ≤ 0))

def Sound (e : TempEnemy) : Prop := e.respawning = true → e.currentStage + 1 ≠ e.stages.length

theorem revive_frame (e : TempEnemy) :
    e.revive.isDead = false ∧ e.revive.mEnemyType = e.mEnemyType ∧
      e.revive.respawning = e.respawning := by
  simp only [revive]
  split_ifs with h
  · split <;> exact ⟨rfl, rfl, rfl⟩
  · exact ⟨by simpa using h, rfl, rfl⟩

theorem respawn_frame {e : TempEnemy} (deltaTime : ℚ)
    (hn : e.currentStage + 1 ≠ e.stages.length) :
    (e.respawn deltaTime).mEnemyType = e.mEnemyType ∧ (e.respawn deltaTime).killed = false ∧
      (e.respawn deltaTime).Sound := by
  simp only [respawn]
  split_ifs
  · exact ⟨rfl, by simp [killed, hn], fun _ => hn⟩
  · obtain ⟨hd, ht, hr⟩ := revive_frame { e with isInvincible := false, respawning := false }
    exact ⟨ht, by simp [killed, hd], fun h => absurd (hr.symm.trans h) (by simp)⟩

theorem init_frame (mEnemyType : EnemyType) (stages : List BossStage) :
    (init mEnemyType stages).killed = false ∧ (init mEnemyType stages).Sound := by
  simp only [init]
  split <;> exact ⟨rfl, fun h => absurd h (by simp)⟩

theorem takeDamage_dies (damage deltaTime : ℚ) {e : TempEnemy} (hs : e.Sound) :
    (e.takeDamage damage deltaTime).2 = e.dies damage ∧
      (e.takeDamage damage deltaTime).1.mEnemyType = e.mEnemyType ∧
      (e.takeDamage damage deltaTime).1.killed = (e.killed || e.dies damage) ∧
      (e.takeDamage damage deltaTime).1.Sound := by
  simp only [takeDamage, dies]
  by_cases hg : (e.isDead || e.isInvincible) = true
  · have hz : (!e.isDead && !e.isInvincible) = false := by
      cases hd : e.isDead <;> cases hi : e.isInvincible <;> simp_all
    simp only [if_pos hg, hz, Bool.false_and, Bool.or_false]
    exact ⟨trivial, trivial, trivial, hs⟩
  · simp only [if_neg hg]
    simp only [Bool.or_eq_true, not_or, Bool.not_eq_true] at hg
    obtain ⟨hd, hi⟩ := hg
    rcases hst : e.stages[e.currentStage]? with _ | stage
    · exact ⟨by simp, rfl, by simp [killed, hd], hs⟩
    · have hk : e.killed = false := by simp [killed, hd]
      simp only [hk, hd, hi, Option.any_some, Bool.not_false, Bool.true_and, Bool.false_or]
      by_cases hh : clamp (e.currentHealth - damage) 0 (stage.maxHealth : ℚ) ≤ 0
      · by_cases hl : e.currentStage + 1 = e.stages.length
        · simp only [if_pos hh, if_neg (not_not.mpr hl), decide_eq_true hl, decide_eq_true hh]
          refine ⟨rfl, trivial, ?_, hs⟩
          simp [killed, hl]
        · obtain ⟨ht, hk, hs'⟩ := respawn_frame deltaTime
            (e := { e with
              currentHealth := clamp (e.currentHealth - damage) 0 (stage.maxHealth : ℚ)
              isInvincible := true
              isDead := true }) hl
          simp only [if_pos hh, if_pos hl, decide_eq_false hl, Bool.false_and]
          exact ⟨trivial, ht, hk, hs'⟩
      · simp only [if_neg hh, decide_eq_false hh, Bool.and_false]
        exact ⟨trivial, trivial, by simp [killed], hs⟩

end TempEnemy

namespace WaveSession

theorem act_bosses (m : WaveManager) (a : WaveAction) :
    m.instances ≤ (act m a).state.instances ∧
      ∀ x ∈ (act m a).raised.filterMap bossOf,
        x = m.instances ∧ (act m a).state.instances = m.instances + 1 := by
  have hspawn : ∀ (n : WaveManager) t, n.instances = m.instances →
      m.instances ≤ (n.spawnEnemy t).state.instances ∧
        (n.spawnEnemy t).raised.filterMap bossOf = [] := by
    intro n t hn
    have hs := WaveManager.spawnEnemy_spawns t n
    refine ⟨?_, noBoss_of_spawns hs⟩
    generalize n.spawnEnemy t = o at hs
    cases hs with
    | idle | boss => exact hn.ge
    | enemy | interrupted => exact Nat.le_succ_of_le hn.ge
  have hsilent : ∀ n : WaveManager, n.instances = m.instances →
      m.instances ≤ n.instances ∧ ∀ x ∈ ([] : List WaveEvent).filterMap bossOf,
        x = m.instances ∧ n.instances = m.instances + 1 :=
    fun n hn => ⟨hn.ge, fun x hx => absurd hx List.not_mem_nil⟩
  cases a with
  | start transition =>
    obtain ⟨hle, hr⟩ := hspawn m transition rfl
    exact ⟨hle, fun x hx => absurd (hr ▸ hx) List.not_mem_nil⟩
  | fixedUpdate deltaTime shouldDestroy =>
    simp only [act, WaveManager.doTimer]
    split_ifs <;> exact hsilent _ rfl
  | destroy | endOfFrame | playerDeath => exact hsilent _ rfl
  | resume r transition =>
    simp only [act, WaveManager.resume]
    rcases hr : m.routines r with _ | c
    · exact hsilent m rfl
    have hdead : m.instances ≤ (m.stopCoroutine r).bossDead.state.instances ∧
        ∀ x ∈ (m.stopCoroutine r).bossDead.raised.filterMap bossOf, x = m.instances ∧
          (m.stopCoroutine r).bossDead.state.instances = m.instances + 1 := by
      obtain ⟨hr, -, -, -, -, hi, -⟩ := WaveManager.bossDead_frame (m.stopCoroutine r)
      rw [hr]
      exact hsilent _ hi
    cases c with
    | waitForNextSpawn =>
      obtain ⟨hle, hr⟩ := hspawn (m.stopCoroutine r) transition rfl
      exact ⟨hle, fun x hx => absurd (hr ▸ hx) List.not_mem_nil⟩
    | waitTillActivesEmpty ready =>
      cases ready with
      | false => exact hsilent _ rfl
      | true =>
        obtain ⟨hr, -, -, hi, -⟩ := WaveManager.spawnBoss_frame (m.stopCoroutine r)
        dsimp only
        rw [hr, hi]
        exact ⟨Nat.le_succ _, fun x hx => ⟨List.mem_singleton.mp hx, rfl⟩⟩
    | waitForBossToDie => exact hdead
    | timeTillTimeOut => exact hdead

end WaveSession

namespace ServerHandler

def exceptions {α : Type*} (f : α → ServerHandler → Result) : List α → ServerHandler →
    List (Option Exn)
  | [], _ => []
  | x :: xs, s => (f x s).thrown :: exceptions f xs (f x s).state

theorem host_stores_once {s : ServerHandler} {rs : List PlayerStoredResultData}
    (h : serverPlayerID ∉ s.mPlayerResults) (hlen : rs.length ≤ 1) :
    some Exn.argument ∉ exceptions handleSendPlayerResults rs s := by
  match rs with
  | [] => simp [exceptions]
  | [r] =>
    simp only [exceptions, List.mem_singleton, handleSendPlayerResults, if_neg h]
    simp
  | r :: r' :: rs => exact absurd hlen (by simp)

theorem client_stores_once {s : ServerHandler} {ds : List PlayerSendResultData} {c : Connection}
    (h : c ∉ s.mPlayerResults) (hc : ∀ d ∈ ds, d.playerID = c) (hlen : ds.length ≤ 1) :
    some Exn.argument ∉ exceptions handleReceivePlayerResult ds s := by
  match ds with
  | [] => simp [exceptions]
  | [d] =>
    have hd : d.playerID ∉ s.mPlayerResults := hc d List.mem_cons_self ▸ h
    have herror : ∀ o e, finishEvents d.resultContext o = .error e → e ≠ .argument := by
      rintro o e he rfl
      cases hr : d.resultContext <;> rcases o with _ | o
      all_goals
        simp only [finishEvents, hr, deref] at he
        try split_ifs at he
      all_goals exact absurd he (by simp [Except.map])
    simp only [exceptions, List.mem_singleton, handleReceivePlayerResult, if_neg hd]
    split
    · simp
    · split
      · rename_i he
        intro heq
        exact herror _ _ he (Option.some.inj heq).symm
      · simp
  | d :: d' :: ds => exact absurd hlen (by simp)

end ServerHandler

namespace LevelSession

variable {s : LevelSession} {a : LevelAction}

/-- At most one result was reported, so that the server, whether the player is its own or a client
of it, stores them all without meeting an id twice. -/
def ReportsOnce (s : LevelSession) : Prop :=
  s.results.length ≤ 1 ∧
    (∀ (data : ResultContext → PlayerStoredResultData) (h : ServerHandler),
      serverPlayerID ∉ h.mPlayerResults →
        some Exn.argument ∉ ServerHandler.exceptions ServerHandler.handleSendPlayerResults
          (s.results.map data) h) ∧
    ∀ (c : Connection) (data : ResultContext → PlayerSendResultData) (h : ServerHandler),
      (∀ r, (data r).playerID = c) → c ∉ h.mPlayerResults →
        some Exn.argument ∉ ServerHandler.exceptions ServerHandler.handleReceivePlayerResult
          (s.results.map data) h

theorem reportsOnce_iff (s : LevelSession) : s.ReportsOnce ↔ s.results.length ≤ 1 := by
  refine ⟨And.left, fun hlen => ⟨hlen, ?_, ?_⟩⟩
  · intro data h hh
    apply ServerHandler.host_stores_once hh
    rwa [List.length_map]
  · intro c data h hd hc
    apply ServerHandler.client_stores_once hc
    · intro d hm
      obtain ⟨r, -, rfl⟩ := List.mem_map.mp hm
      exact hd r
    · rwa [List.length_map]

def Won (s : LevelSession) : Prop :=
  ∃ x ∈ s.waves.bosses, ∃ e ∈ s.bosses x, e.mEnemyType = .finalBoss ∧ e.killed = true

def Over (s : LevelSession) : Prop := s.player.isDead = true ∨ s.Won

instance (s : LevelSession) : Decidable s.Over :=
  inferInstanceAs (Decidable (_ ∨ ∃ x ∈ s.waves.bosses, _))

/-- The hit kills the player, or a final boss while the player object is still there. -/
def Reports (s : LevelSession) : LevelAction → Prop
  | .hitPlayer damage => s.player.dies damage
  | .hitBoss x damage _ => s.playerLife ≠ .destroyed ∧
      ∃ e ∈ s.bosses x, e.mEnemyType = .finalBoss ∧ e.dies damage = true
  | _ => False

instance (s : LevelSession) (a : LevelAction) : Decidable (s.Reports a) := by
  rcases a with ⟨⟩ <;> dsimp only [Reports] <;> infer_instance

structure Tally (s : LevelSession) : Prop where
  told : s.results.length ≤ 1
  ended : s.results ≠ [] ↔ s.Over
  gone : s.playerLife ≠ .alive → s.player.isDead = true
  sound : ∀ x e, s.bosses x = some e → e.Sound
  listed : ∀ x e, s.bosses x = some e → x ∈ s.waves.bosses
  made : ∀ x ∈ s.waves.bosses, x < s.waves.manager.instances

theorem start_tally (wave : List WaveContainter) (mid final : EnemyType)
    (midStages finalStages : List BossStage) (maxHealth : Int32) :
    (start wave mid final midStages finalStages maxHealth).Tally := by
  constructor
  · exact Nat.zero_le _
  · refine ⟨fun h => absurd rfl h, ?_⟩
    rintro (h | ⟨x, hx, -⟩)
    · exact absurd h (by simp [start, PlayerHealth.start])
    · exact absurd hx List.not_mem_nil
  · exact fun h => absurd rfl h
  · exact fun x e h => absurd h (by simp [start])
  · exact fun x e h => absurd h (by simp [start])
  · exact fun x hx => absurd hx List.not_mem_nil

theorem won_congr {s t : LevelSession} (hw : t.waves.bosses = s.waves.bosses)
    (hb : ∀ x ∈ s.waves.bosses, (∃ e ∈ t.bosses x, e.mEnemyType = .finalBoss ∧ e.killed = true) ↔
      ∃ e ∈ s.bosses x, e.mEnemyType = .finalBoss ∧ e.killed = true) : t.Won ↔ s.Won := by
  simp only [Won, hw]
  constructor
  · rintro ⟨x, hx, he⟩
    exact ⟨x, hx, (hb x hx).mp he⟩
  · rintro ⟨x, hx, he⟩
    exact ⟨x, hx, (hb x hx).mpr he⟩

theorem Tally.quiet (h : s.Tally) {t : LevelSession} (hr : t.results = s.results)
    (hd : t.player.isDead = s.player.isDead) (hw : t.Won ↔ s.Won)
    (hl : t.playerLife ≠ .alive → s.playerLife ≠ .alive)
    (hs : ∀ x e, t.bosses x = some e → e.Sound)
    (hx : ∀ x e, t.bosses x = some e → x ∈ t.waves.bosses)
    (hm : ∀ x ∈ t.waves.bosses, x < t.waves.manager.instances) : t.Tally := by
  constructor
  · rw [hr]
    exact h.told
  · rw [hr, h.ended, Over, Over, hd, hw]
  · rw [hd]
    exact fun ht => h.gone (hl ht)
  · exact hs
  · exact hx
  · exact hm

theorem Tally.waveStep (h : s.Tally) (a : WaveSession.WaveAction) : (s.waveStep a).Tally := by
  obtain ⟨hle, hnew⟩ := WaveSession.act_bosses s.waves.manager a
  have hfresh : ∀ x ∈ s.waves.bosses,
      x ∉ (WaveSession.act s.waves.manager a).raised.filterMap WaveSession.bossOf := by
    intro x hx hn
    exact absurd (h.made x hx) (by rw [(hnew x hn).1]; exact Nat.lt_irrefl _)
  have hold : ∀ {x e}, (s.waveStep a).bosses x = some e →
      (x ∈ (WaveSession.act s.waves.manager a).raised.filterMap WaveSession.bossOf ∧
        e = s.newBoss) ∨ s.bosses x = some e := by
    intro x e he
    simp only [LevelSession.waveStep] at he
    split_ifs at he with hx
    · exact Or.inl ⟨hx, (Option.some.inj he).symm⟩
    · exact Or.inr he
  obtain ⟨hk, hsound⟩ := TempEnemy.init_frame s.waves.manager.toSpawn
    (if s.waves.manager.miniBossSpawned then s.finalStages else s.midStages)
  refine h.quiet rfl rfl ?_ id ?_ ?_ ?_
  · constructor
    · rintro ⟨x, hx, e, he, ht, hd⟩
      obtain ⟨-, rfl⟩ | he := hold he
      · exact absurd (hk.symm.trans hd) (by simp)
      · exact ⟨x, h.listed x e he, e, he, ht, hd⟩
    · rintro ⟨x, hx, e, he, ht, hd⟩
      refine ⟨x, List.mem_append_left _ hx, e, ?_, ht, hd⟩
      simp only [LevelSession.waveStep, if_neg (hfresh x hx)]
      exact he
  · intro x e he
    obtain ⟨-, rfl⟩ | he := hold he
    · exact hsound
    · exact h.sound x e he
  · intro x e he
    obtain ⟨hx, -⟩ | he := hold he
    · exact List.mem_append_right _ hx
    · exact List.mem_append_left _ (h.listed x e he)
  · intro x hx
    obtain hx | hx := List.mem_append.mp hx
    · exact Nat.lt_of_lt_of_le (h.made x hx) hle
    · obtain ⟨he, hi⟩ := hnew x hx
      exact he ▸ hi ▸ Nat.lt_succ_self _

theorem won_setBoss {x : ℕ} {e e' : TempEnemy} (he : s.bosses x = some e)
    (ht : e'.mEnemyType = e.mEnemyType)
    (hk : e.mEnemyType = .finalBoss → e'.killed = e.killed) : (s.setBoss x e').Won ↔ s.Won := by
  refine won_congr (t := s.setBoss x e') rfl ?_
  intro y _
  by_cases hy : y = x
  · subst hy
    constructor
    · rintro ⟨d, hd, hf, hkd⟩
      have hd : some e' = some d := by simpa [setBoss] using hd
      obtain rfl := Option.some.inj hd
      have hf : e.mEnemyType = .finalBoss := ht ▸ hf
      exact ⟨e, he, hf, hk hf ▸ hkd⟩
    · rintro ⟨d, hd, hf, hkd⟩
      obtain rfl : e = d := Option.some.inj (he.symm.trans hd)
      exact ⟨e', by simp [setBoss], ht.trans hf, (hk hf).trans hkd⟩
  · simp [setBoss, hy]

theorem Tally.components (h : s.Tally) {x : ℕ} {e e' : TempEnemy} (he : s.bosses x = some e)
    (hs : e'.Sound) :
    (∀ y d, (s.setBoss x e').bosses y = some d → d.Sound) ∧
      ∀ y d, (s.setBoss x e').bosses y = some d → y ∈ s.waves.bosses := by
  constructor
  · intro y d hd
    by_cases hy : y = x
    · subst hy
      have hd : some e' = some d := by simpa [LevelSession.setBoss] using hd
      exact Option.some.inj hd ▸ hs
    · exact h.sound y d (by simpa [LevelSession.setBoss, hy] using hd)
  · intro y d hd
    by_cases hy : y = x
    · exact hy ▸ h.listed x e he
    · exact h.listed y d (by simpa [LevelSession.setBoss, hy] using hd)

theorem Tally.setBoss (h : s.Tally) {x : ℕ} {e e' : TempEnemy} (he : s.bosses x = some e)
    (ht : e'.mEnemyType = e.mEnemyType) (hs : e'.Sound)
    (hk : e.mEnemyType = .finalBoss → e'.killed = e.killed) : (s.setBoss x e').Tally := by
  obtain ⟨hsound, hlisted⟩ := h.components he hs
  exact h.quiet rfl rfl (won_setBoss he ht hk) id hsound hlisted h.made

theorem Tally.destroyBoss (h : s.Tally) (x : ℕ) : (s.destroyBoss x).Tally :=
  h.quiet rfl rfl Iff.rfl id h.sound h.listed h.made

/-- A final boss dies: before any other end of the level it reports, after the player's death it
finds no player. -/
theorem Tally.finalKill (h : s.Tally) {x : ℕ} {e e' : TempEnemy} (he : s.bosses x = some e)
    (hf : e'.mEnemyType = .finalBoss) (hk : e'.killed = true) (hs : e'.Sound)
    (ho : s.playerLife ≠ .destroyed → ¬ s.Over) : ((s.setBoss x e').kill x .finalBoss).Tally := by
  obtain ⟨hsound, hlisted⟩ := h.components he hs
  have hwon : (s.setBoss x e').Won :=
    ⟨x, h.listed x e he, e', by simp [LevelSession.setBoss], hf, hk⟩
  simp only [kill]
  split_ifs with hp
  · have hp : s.playerLife = .destroyed := hp
    have hover : s.Over := Or.inl (h.gone (by simp [hp]))
    exact ⟨h.told, ⟨fun _ => Or.inr hwon, fun _ => h.ended.mpr hover⟩, h.gone, hsound, hlisted,
      h.made⟩
  · have hnone : s.results = [] := not_not.mp (mt h.ended.mp (ho hp))
    refine ⟨?_, ⟨fun _ => Or.inr hwon, fun _ => by simp⟩, h.gone, hsound, hlisted, h.made⟩
    simp [LevelSession.setBoss, hnone]

theorem tally_hitBoss (h : s.Tally) {x : ℕ} {damage deltaTime : ℚ}
    (ho : ¬ (s.Over ∧ s.Reports (.hitBoss x damage deltaTime))) :
    (s.next (.hitBoss x damage deltaTime)).Tally := by
  simp only [next]
  rcases he : s.bosses x with _ | e
  · exact h
  obtain ⟨hd, ht, hk, hs⟩ := TempEnemy.takeDamage_dies damage deltaTime (h.sound x e he)
  dsimp only
  rcases hr : e.takeDamage damage deltaTime with ⟨e', _ | _⟩
  all_goals simp only [hr] at hd ht hk hs
  · exact h.setBoss he ht hs (fun _ => by rw [hk, ← hd, Bool.or_false])
  · have hset : e'.mEnemyType ≠ .finalBoss → (s.setBoss x e').Tally :=
      fun hn => h.setBoss he ht hs (fun hf => absurd (ht.trans hf) hn)
    dsimp only
    rcases hf : e'.mEnemyType with _ | _ | _
    · exact hset (by simp [hf])
    · exact (hset (by simp [hf])).destroyBoss x
    · apply h.finalKill he hf (by rw [hk, ← hd, Bool.or_true]) hs
      exact fun hp hover => ho ⟨hover, hp, e, he, ht ▸ hf, hd.symm⟩

theorem tally_hitPlayer (h : s.Tally) {damage : Int32}
    (ho : ¬ (s.Over ∧ s.Reports (.hitPlayer damage))) : (s.next (.hitPlayer damage)).Tally := by
  obtain ⟨hd, hdead⟩ := s.player.takeDamage_dies damage
  simp only [next]
  rcases hr : s.player.takeDamage damage with ⟨p, _ | _⟩
  all_goals simp only [hr] at hd hdead
  · exact h.quiet rfl (by rw [hdead, ← hd, Bool.or_false]) Iff.rfl id h.sound h.listed h.made
  · have hnone : s.results = [] :=
      not_not.mp (mt h.ended.mp (fun hover => ho ⟨hover, hd.symm⟩))
    have hp : p.isDead = true := by rw [hdead, ← hd, Bool.or_true]
    have hwaves : ({ s with player := p }.killPlayer).waves.bosses = s.waves.bosses ∧
        ({ s with player := p }.killPlayer).waves.manager.instances =
          s.waves.manager.instances := by
      simp only [killPlayer]
      split_ifs
      · exact ⟨List.append_nil _, rfl⟩
      · exact ⟨rfl, rfl⟩
    refine ⟨?_, ⟨fun _ => Or.inl hp, fun _ => by simp [killPlayer]⟩, fun _ => hp, h.sound, ?_, ?_⟩
    · simp [killPlayer, hnone]
    · rw [hwaves.1]
      exact h.listed
    · rw [hwaves.1, hwaves.2]
      exact h.made

theorem next_tally (h : s.Tally) (he : s.Enabled a) (ho : ¬ (s.Over ∧ s.Reports a)) :
    (s.next a).Tally := by
  cases a with
  | wave a => exact h.waveStep a
  | endOfFrame =>
    have hbosses : (s.next .endOfFrame).waves.bosses = s.waves.bosses := List.append_nil _
    refine h.quiet rfl rfl ?_ ?_ h.sound ?_ ?_
    · exact won_congr hbosses (fun _ _ => Iff.rfl)
    · intro hl hp
      exact hl (by simp [next, hp, Life.endOfFrame])
    · rw [hbosses]
      exact h.listed
    · rw [hbosses]
      exact h.made
  | hitPlayer damage => exact tally_hitPlayer h ho
  | heal amount => exact h.quiet rfl (s.player.heal_isDead amount) Iff.rfl id h.sound h.listed h.made
  | vulnerable => exact h.quiet rfl rfl Iff.rfl id h.sound h.listed h.made
  | hitBoss x damage deltaTime => exact tally_hitBoss h ho
  | respawn x deltaTime =>
    obtain ⟨-, e, hb, hr⟩ := he
    have hb : s.bosses x = some e := hb
    have hn := h.sound x e hb hr
    obtain ⟨ht, hk, hs⟩ := TempEnemy.respawn_frame deltaTime hn
    simp only [next, hb]
    exact h.setBoss hb ht hs (fun _ => by rw [hk]; simp [TempEnemy.killed, hn])

theorem next_reports (h : s.Tally) (ho : s.Over) (hr : s.Reports a) :
    1 < (s.next a).results.length := by
  have hpos : 0 < s.results.length := List.length_pos_iff.mpr (h.ended.mpr ho)
  cases a with
  | hitPlayer damage =>
    obtain ⟨hd, -⟩ := s.player.takeDamage_dies damage
    have hr : s.player.dies damage = true := hr
    simp only [next]
    rcases ht : s.player.takeDamage damage with ⟨p, _ | _⟩
    all_goals simp only [ht, hr] at hd
    · exact absurd hd (by simp)
    · simp only [killPlayer, List.length_append, List.length_singleton]
      omega
  | hitBoss x damage deltaTime =>
    obtain ⟨hp, e, hb, hf, hk⟩ := hr
    have hb : s.bosses x = some e := hb
    obtain ⟨hd, ht, -⟩ := TempEnemy.takeDamage_dies damage deltaTime (h.sound x e hb)
    simp only [next, hb]
    rcases hr : e.takeDamage damage deltaTime with ⟨e', _ | _⟩
    all_goals simp only [hr, hk] at hd ht
    · exact absurd hd (by simp)
    · have hp : (s.setBoss x e').playerLife ≠ .destroyed := hp
      simp only [kill, ht.trans hf, if_neg hp, List.length_append, List.length_singleton]
      have hsame : (s.setBoss x e').results = s.results := rfl
      rw [hsame]
      omega
  | wave | endOfFrame | heal | vulnerable | respawn => exact absurd hr id

theorem results_reported_once (wave : List WaveContainter) (mid final : EnemyType)
    (midStages finalStages : List BossStage) (maxHealth : Int32) (as : List LevelAction)
    (hl : system.Legal (start wave mid final midStages finalStages maxHealth) as) :
    system.Meets (fun s a => (s.next a).ReportsOnce)
        (start wave mid final midStages finalStages maxHealth) as ↔
      system.Meets (fun s a => ¬ (s.Over ∧ s.Reports a))
        (start wave mid final midStages finalStages maxHealth) as := by
  apply System.meets_iff (I := Tally) _ _ (start_tally _ _ _ _ _ _) hl
  · exact fun s a h he ho => next_tally h he ho
  · intro s a h he
    rw [reportsOnce_iff]
    constructor
    · rintro hle ⟨ho, hr⟩
      exact absurd (next_reports h ho hr) (by omega)
    · exact fun ho => (next_tally h he ho).told

def victory : List LevelAction :=
  [.wave (.start none), .wave (.resume 0 none), .wave (.resume 0 none), .hitBoss 0 100 (1 / 50),
    .endOfFrame, .wave (.resume 1 none), .hitPlayer 1, .vulnerable, .wave (.resume 3 none),
    .wave (.resume 4 none), .wave (.resume 4 none), .hitPlayer 1, .vulnerable,
    .hitBoss 1 100 (1 / 50)]

def twoBosses : LevelSession :=
  start [WaveSession.bossEntry, WaveSession.bossEntry] .midBoss .finalBoss [⟨100, 1⟩] [⟨100, 1⟩] 3

/-- The winner is hit once more by a bullet that is still in flight. -/
theorem victory_thenDeath :
    system.Legal twoBosses (victory ++ [.hitPlayer 1]) ∧
    ¬system.Meets (fun s a => (s.next a).ReportsOnce) twoBosses (victory ++ [.hitPlayer 1]) := by
  refine ⟨by decide +kernel, ?_⟩
  intro h
  have hlast := (system.meets_concat h).1
  revert hlast
  decide +kernel

theorem results_reported_once_victory :
    system.Meets (fun s a => (s.next a).ReportsOnce) twoBosses victory :=
  (results_reported_once _ _ _ _ _ _ victory (by decide +kernel)).mpr (by decide +kernel)

end LevelSession

end SeminarTouhou
