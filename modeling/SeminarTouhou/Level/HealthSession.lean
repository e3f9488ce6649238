import SeminarTouhou.Level.LevelSession
import SeminarTouhou.Library.MachineInt
import SeminarTouhou.Level.StagedEnemy

namespace SeminarTouhou

open Library

/-- `PlayerHealth` over time. `buffered` are the times at which the `BufferHits` that wait began,
`kills` counts `KillPlayer`, `hits` are the times at which damage changed the health. -/
structure HealthSession where
  maxHealth : Int32
  currentHealth : Int32
  isDead : Bool
  isInvincible : Bool
  buffered : List ℚ
  life : Life
  time : ℚ
  kills : ℕ
  hits : List ℚ

inductive HealthAction
  | passTime (deltaTime : ℚ)
  | takeDamage (damage : Int32)
  | trigger (enemyBullet : Bool)
  | pickUp (drop : DropType) (ammount : ℚ)
  | vulnerable (since : ℚ)
  | endOfFrame

namespace PlayerHealth

structure Sound (p : PlayerHealth) : Prop where
  nonneg : 0 ≤ p.currentHealth
  le_max : p.currentHealth ≤ p.maxHealth
  dead_iff : p.currentHealth = 0 ↔ p.isDead = true

end PlayerHealth

namespace HealthSession

def start (maxHealth : Int32) : HealthSession := ⟨maxHealth, maxHealth, false, false, [], .alive, 0, 0, []⟩

def bufferHits (s : HealthSession) : HealthSession :=
  { s with isInvincible := true, buffered := s.buffered ++ [s.time] }

def killPlayer (s : HealthSession) : HealthSession :=
  { s with isDead := true, kills := s.kills + 1, life := s.life.destroy }

def hurt (health : Int32) (s : HealthSession) : HealthSession :=
  { s with
    currentHealth := health
    hits := if health = s.currentHealth then s.hits else s.hits ++ [s.time] }

def takeDamage (damage : Int32) (s : HealthSession) : HealthSession :=
  if s.isDead || s.isInvincible then s
  else
    let s := s.hurt (clamp (s.currentHealth - damage) 0 s.maxHealth)
    if s.currentHealth ≤ 0 then s.killPlayer.bufferHits else s.bufferHits

def heal (amount : Int32) (s : HealthSession) : HealthSession :=
  if s.isDead then s
  else { s with currentHealth := clamp (s.currentHealth + amount) 0 s.maxHealth }

def onTriggerEnter2D (enemyBullet : Bool) (s : HealthSession) : HealthSession :=
  if s.isDead || s.isInvincible then s else if enemyBullet then s.takeDamage 1 else s

def vulnerable (since : ℚ) (s : HealthSession) : HealthSession :=
  { s with isInvincible := false, buffered := s.buffered.erase since }

variable (toInt : ℚ → Int32) (invinciblityTime : ℚ)

/-- `toInt` is the conversion from `float`. -/
def translateDropEvent (drop : DropType) (ammount : ℚ) (s : HealthSession) : HealthSession :=
  match drop with
  | .life => s.heal (toInt ammount)
  | _ => s

def next (s : HealthSession) : HealthAction → HealthSession
  | .passTime deltaTime => { s with time := s.time + deltaTime }
  | .takeDamage damage => s.takeDamage damage
  | .trigger enemyBullet => s.onTriggerEnter2D enemyBullet
  | .pickUp drop ammount => s.translateDropEvent toInt drop ammount
  | .vulnerable since => s.vulnerable since
  | .endOfFrame => { s with life := s.life.endOfFrame }

/-- `WaitForSeconds` waits at least as long as it says. -/
def Enabled (s : HealthSession) : HealthAction → Prop
  | .passTime deltaTime => 0 ≤ deltaTime
  | .takeDamage damage => s.life ≠ .destroyed ∧ 0 ≤ damage
  | .trigger _ => s.life ≠ .destroyed
  | .pickUp _ ammount => s.life ≠ .destroyed ∧ 0 ≤ ammount
  | .vulnerable since => s.life ≠ .destroyed ∧ since ∈ s.buffered ∧ since + invinciblityTime ≤ s.time
  | .endOfFrame => True

instance (s : HealthSession) (a : HealthAction) : Decidable (s.Enabled invinciblityTime a) := by
  cases a <;> dsimp only [Enabled] <;> infer_instance

def system : System HealthSession HealthAction := ⟨Enabled invinciblityTime, next toInt⟩

instance (s : HealthSession) (a : HealthAction) :
    Decidable ((system toInt invinciblityTime).enabled s a) :=
  inferInstanceAs (Decidable (s.Enabled invinciblityTime a))

def health (s : HealthSession) : PlayerHealth :=
  ⟨s.maxHealth, s.currentHealth, s.isDead, s.isInvincible, s.buffered.length⟩

structure Sound (s : HealthSession) : Prop where
  health : s.health.Sound
  kills : s.kills ≤ 1
  spaced : s.hits.Pairwise (fun t u => t + invinciblityTime ≤ u)

/-- The step keeps the health sound, and does not touch it after death. -/
def SoundStep (s : HealthSession) (a : HealthAction) : Prop :=
  s.Sound invinciblityTime ∧ (s.next toInt a).Sound invinciblityTime ∧
    (s.isDead = true → (s.next toInt a).currentHealth = s.currentHealth)

/-- What a pickup heals keeps a living player above zero, and the sum is an `int`. -/
def HealsInRange (s : HealthSession) : HealthAction → Prop
  | .pickUp .life ammount => s.isDead = true ∨
      0 < s.currentHealth.toInt + (toInt ammount).toInt ∧
        s.currentHealth.toInt + (toInt ammount).toInt < 2 ^ 31
  | _ => True

instance (s : HealthSession) (a : HealthAction) : Decidable (s.HealsInRange toInt a) := by
  rcases a with _ | _ | _ | ⟨_ | _, _⟩ | _ | _ <;> dsimp only [HealsInRange] <;> infer_instance

end HealthSession

theorem clamp_bounds {max : Int32} (h : 0 ≤ max) (value : Int32) :
    0 ≤ clamp value 0 max ∧ clamp value 0 max ≤ max := by
  unfold clamp
  simp only [Int32.le_iff_toInt_le, Int32.lt_iff_toInt_lt, Int32.toInt_zero] at h ⊢
  split_ifs
  · exact ⟨le_refl 0, h⟩
  · exact ⟨h, le_refl _⟩
  · omega

theorem clamp_pos_iff {max : Int32} (h : 0 < max) (value : Int32) : 0 < clamp value 0 max ↔ 0 < value := by
  unfold clamp
  simp only [Int32.lt_iff_toInt_lt, Int32.toInt_zero] at h ⊢
  split_ifs
  · exact iff_of_false (lt_irrefl 0) (by omega)
  · exact iff_of_true h (by omega)
  · exact Iff.rfl

namespace PlayerHealth

variable {p : PlayerHealth}

theorem Sound.alive (h : p.Sound) (hd : p.isDead = false) : 0 < p.currentHealth := by
  refine Int32.lt_of_le_of_ne h.nonneg fun hzero => ?_
  exact Bool.false_ne_true (hd.symm.trans (h.dead_iff.mp hzero.symm))

theorem Sound.takeDamage (h : p.Sound) (hmax : 0 < p.maxHealth) (damage : Int32) :
    (p.takeDamage damage).1.Sound := by
  obtain ⟨hnonneg, hle⟩ := clamp_bounds (Int32.le_of_lt hmax) (p.currentHealth - damage)
  rw [PlayerHealth.takeDamage]
  dsimp only
  split_ifs with hguard hdead
  · exact h
  · exact ⟨hnonneg, hle, iff_of_true (Int32.le_antisymm hdead hnonneg) rfl⟩
  · rw [Bool.or_eq_true, not_or] at hguard
    exact ⟨hnonneg, hle, iff_of_false (fun hzero => hdead (Int32.le_of_eq hzero)) hguard.1⟩

theorem Sound.heal_iff (h : p.Sound) (hmax : 0 < p.maxHealth) (amount : Int32) :
    (p.heal amount).Sound ↔ p.isDead = true ∨ 0 < p.currentHealth + amount := by
  rw [PlayerHealth.heal]
  split_ifs with hdead
  · exact iff_of_true h (Or.inl hdead)
  · obtain ⟨hnonneg, hle⟩ := clamp_bounds (Int32.le_of_lt hmax) (p.currentHealth + amount)
    rw [or_iff_right hdead, ← clamp_pos_iff hmax]
    constructor
    · intro hs
      exact hs.alive (Bool.eq_false_of_not_eq_true hdead)
    · intro hpos
      exact ⟨hnonneg, hle, iff_of_false (Int32.ne_of_lt hpos).symm hdead⟩

end PlayerHealth

namespace HealthSession

variable {toInt : ℚ → Int32} {invinciblityTime : ℚ} {s : HealthSession} {a : HealthAction}

theorem takeDamage_health (damage : Int32) (s : HealthSession) :
    (s.takeDamage damage).health = (s.health.takeDamage damage).1 := by
  rw [takeDamage, apply_ite health, PlayerHealth.takeDamage, apply_ite Prod.fst]
  refine if_congr Iff.rfl rfl ?_
  dsimp only
  rw [apply_ite health, apply_ite Prod.fst]
  refine if_congr Iff.rfl ?_ ?_
  · simp only [health, hurt, killPlayer, bufferHits, PlayerHealth.bufferHits, List.length_append,
      List.length_singleton]
  · simp only [health, hurt, bufferHits, PlayerHealth.bufferHits, List.length_append,
      List.length_singleton]

theorem heal_health (amount : Int32) (s : HealthSession) :
    (s.heal amount).health = s.health.heal amount := by
  rw [heal, apply_ite health, PlayerHealth.heal]
  rfl

theorem heal_sound_iff (h : s.health.Sound) (hmax : 0 < s.maxHealth) (amount : Int32) :
    (s.heal amount).health.Sound ↔ s.isDead = true ∨
      0 < s.currentHealth.toInt + amount.toInt ∧ s.currentHealth.toInt + amount.toInt < 2 ^ 31 := by
  have hnonneg : 0 ≤ s.currentHealth.toInt := Int32.le_iff_toInt_le.mp h.nonneg
  rw [heal_health, h.heal_iff hmax, ← toInt_add_pos_iff hnonneg]
  exact or_congr_right Int32.lt_iff_toInt_lt

structure Running (invinciblityTime : ℚ) (s : HealthSession) : Prop where
  sound : s.Sound invinciblityTime
  maxHealth : 0 < s.maxHealth
  kills : s.kills = if s.isDead then 1 else 0
  idle : s.isInvincible = false → s.buffered = [] ∧ ∀ t ∈ s.hits, t + invinciblityTime ≤ s.time
  waiting : s.isInvincible = true → ∃ since, s.buffered = [since] ∧ ∀ t ∈ s.hits, t ≤ since

theorem hits_hurt (health : Int32) (s : HealthSession) :
    (s.hurt health).hits = s.hits ∨ (s.hurt health).hits = s.hits ++ [s.time] := by
  rw [hurt]
  exact (ite_eq_or_eq _ _ _).imp id id

theorem Running.hurt (h : s.Running invinciblityTime) (hI : 0 < invinciblityTime)
    (hguard : s.isInvincible = false) (health : Int32) :
    (s.hurt health).hits.Pairwise (fun t u => t + invinciblityTime ≤ u) ∧
      ∀ t ∈ (s.hurt health).hits, t ≤ s.time := by
  obtain ⟨-, hpast⟩ := h.idle hguard
  have hearlier : ∀ t ∈ s.hits, t ≤ s.time := fun t ht =>
    (le_add_of_nonneg_right hI.le).trans (hpast t ht)
  obtain heq | heq := hits_hurt health s
  · rw [heq]
    exact ⟨h.sound.spaced, hearlier⟩
  · rw [heq]
    refine ⟨List.pairwise_append.mpr ⟨h.sound.spaced, List.pairwise_singleton _ _, ?_⟩, ?_⟩
    · intro t ht u hu
      rw [List.mem_singleton.mp hu]
      exact hpast t ht
    · intro t ht
      obtain ht | ht := List.mem_append.mp ht
      · exact hearlier t ht
      · exact (List.mem_singleton.mp ht).le

theorem Running.bufferHits (hhealth : s.bufferHits.health.Sound) (hmax : 0 < s.maxHealth)
    (hkills : s.kills = if s.isDead then 1 else 0) (hbuffered : s.buffered = [])
    (hspaced : s.hits.Pairwise (fun t u => t + invinciblityTime ≤ u)) (hearlier : ∀ t ∈ s.hits, t ≤ s.time) :
    s.bufferHits.Running invinciblityTime := by
  have honce : s.kills ≤ 1 := by
    rw [hkills]
    split_ifs
    · exact le_refl 1
    · exact Nat.zero_le 1
  have hwaiting : s.bufferHits.buffered = [s.time] := by
    rw [HealthSession.bufferHits, hbuffered, List.nil_append]
  exact ⟨⟨hhealth, honce, hspaced⟩, hmax, hkills, nofun, fun _ => ⟨s.time, hwaiting, hearlier⟩⟩

theorem Running.takeDamage (h : s.Running invinciblityTime) (hI : 0 < invinciblityTime) (damage : Int32) :
    (s.takeDamage damage).Running invinciblityTime := by
  have hhealth := h.sound.health.takeDamage h.maxHealth damage
  rw [← takeDamage_health] at hhealth
  by_cases hguard : (s.isDead || s.isInvincible) = true
  · rw [HealthSession.takeDamage, if_pos hguard]
    exact h
  · rw [HealthSession.takeDamage, if_neg hguard] at hhealth ⊢
    rw [Bool.or_eq_true, not_or, Bool.not_eq_true, Bool.not_eq_true] at hguard
    obtain ⟨hdead, hinvincible⟩ := hguard
    obtain ⟨hbuffered, -⟩ := h.idle hinvincible
    have hkills : s.kills + 1 = 1 := by rw [h.kills, hdead]; rfl
    obtain ⟨hspaced, hearlier⟩ := h.hurt hI hinvincible (clamp (s.currentHealth - damage) 0 s.maxHealth)
    dsimp only at hhealth ⊢
    split_ifs at hhealth ⊢
    · exact .bufferHits hhealth h.maxHealth hkills hbuffered hspaced hearlier
    · exact .bufferHits hhealth h.maxHealth h.kills hbuffered hspaced hearlier

theorem Running.onTriggerEnter2D (h : s.Running invinciblityTime) (hI : 0 < invinciblityTime)
    (enemyBullet : Bool) : (s.onTriggerEnter2D enemyBullet).Running invinciblityTime := by
  rw [HealthSession.onTriggerEnter2D]
  split_ifs
  · exact h
  · exact h.takeDamage hI 1
  · exact h

theorem Running.heal (h : s.Running invinciblityTime) {amount : Int32}
    (hs : (s.heal amount).health.Sound) : (s.heal amount).Running invinciblityTime := by
  rw [HealthSession.heal] at hs ⊢
  split_ifs at hs ⊢
  · exact h
  · exact ⟨⟨hs, h.sound.kills, h.sound.spaced⟩, h.maxHealth, h.kills, h.idle, h.waiting⟩

theorem Running.vulnerable (h : s.Running invinciblityTime) {since : ℚ} (hmem : since ∈ s.buffered)
    (hwaited : since + invinciblityTime ≤ s.time) : (s.vulnerable since).Running invinciblityTime := by
  obtain hinvincible | hinvincible := Bool.eq_false_or_eq_true s.isInvincible
  · obtain ⟨t, hbuffered, hearlier⟩ := h.waiting hinvincible
    rw [hbuffered] at hmem
    obtain rfl := List.mem_singleton.mp hmem
    obtain ⟨⟨hnonneg, hle, hdead⟩, hkills, hspaced⟩ := h.sound
    refine ⟨⟨⟨hnonneg, hle, hdead⟩, hkills, hspaced⟩, h.maxHealth, h.kills, fun _ => ⟨?_, ?_⟩, nofun⟩
    · rw [HealthSession.vulnerable, hbuffered, List.erase_cons_head]
    · intro u hu
      exact (add_le_add_left (hearlier u hu) _).trans hwaited
  · rw [(h.idle hinvincible).1] at hmem
    exact absurd hmem List.not_mem_nil

theorem Running.next (h : s.Running invinciblityTime) (hI : 0 < invinciblityTime)
    (he : s.Enabled invinciblityTime a) (ho : s.HealsInRange toInt a) :
    (s.next toInt a).Running invinciblityTime := by
  cases a with
  | passTime deltaTime =>
    refine ⟨⟨h.sound.health, h.sound.kills, h.sound.spaced⟩, h.maxHealth, h.kills, ?_, h.waiting⟩
    intro hinvincible
    obtain ⟨hbuffered, hpast⟩ := h.idle hinvincible
    exact ⟨hbuffered, fun t ht => (hpast t ht).trans (le_add_of_nonneg_right he)⟩
  | takeDamage damage => exact h.takeDamage hI damage
  | trigger enemyBullet => exact h.onTriggerEnter2D hI enemyBullet
  | pickUp drop ammount =>
    cases drop with
    | life => exact h.heal ((heal_sound_iff h.sound.health h.maxHealth _).mpr ho)
    | _ => exact h
  | vulnerable since => exact h.vulnerable he.2.1 he.2.2
  | endOfFrame =>
    exact ⟨⟨h.sound.health, h.sound.kills, h.sound.spaced⟩, h.maxHealth, h.kills, h.idle, h.waiting⟩

theorem next_dead (hd : s.isDead = true) (a : HealthAction) :
    (s.next toInt a).currentHealth = s.currentHealth := by
  have hguard : (s.isDead || s.isInvincible) = true := by rw [hd, Bool.true_or]
  cases a with
  | takeDamage damage => rw [HealthSession.next, takeDamage, if_pos hguard]
  | trigger enemyBullet => rw [HealthSession.next, onTriggerEnter2D, if_pos hguard]
  | pickUp drop ammount =>
    cases drop with
    | life => rw [HealthSession.next, translateDropEvent, heal, if_pos hd]
    | _ => rfl
  | _ => rfl

theorem Running.soundStep_iff (h : s.Running invinciblityTime) (hI : 0 < invinciblityTime)
    (he : s.Enabled invinciblityTime a) :
    s.SoundStep toInt invinciblityTime a ↔ s.HealsInRange toInt a := by
  constructor
  · rintro ⟨-, hs, -⟩
    rcases a with _ | _ | _ | ⟨_ | _, ammount⟩ | _ | _
    case pickUp.life => exact (heal_sound_iff h.sound.health h.maxHealth _).mp hs.health
    all_goals trivial
  · intro ho
    exact ⟨h.sound, (h.next hI he ho).sound, fun hd => next_dead hd a⟩

/-- The clamp comes after the sum, which wraps around. -/
theorem health_sound_iff {maxHealth : Int32} (hmax : 0 < maxHealth) (hI : 0 < invinciblityTime)
    {as : List HealthAction} (hl : (system toInt invinciblityTime).Legal (start maxHealth) as) :
    (system toInt invinciblityTime).Meets (SoundStep toInt invinciblityTime) (start maxHealth) as ↔
      (system toInt invinciblityTime).Meets (HealsInRange toInt) (start maxHealth) as := by
  have hhealth : (start maxHealth).health.Sound :=
    ⟨Int32.le_of_lt hmax, Int32.le_refl _, iff_of_false (Int32.ne_of_lt hmax).symm Bool.false_ne_true⟩
  have hstart : (start maxHealth).Running invinciblityTime :=
    ⟨⟨hhealth, Nat.zero_le 1, List.Pairwise.nil⟩, hmax, rfl,
      fun _ => ⟨rfl, fun _ ht => absurd ht List.not_mem_nil⟩, nofun⟩
  exact System.meets_iff (fun _ _ h he ho => h.next hI he ho) (fun _ _ h he => h.soundStep_iff hI he)
    hstart hl

theorem health_sound_threeHits :
    let as := [.takeDamage 1, .trigger true, .passTime (3 / 2), .vulnerable 0, .pickUp .life 5, .trigger true]
    (system truncate (3 / 2)).Meets (SoundStep truncate (3 / 2)) (start 3) as ↔
      (system truncate (3 / 2)).Meets (HealsInRange truncate) (start 3) as :=
  health_sound_iff (by decide) (by norm_num) (by decide +kernel)

theorem hugeHeal_zeroHealth : ¬ ∀ as, (system truncate (3 / 2)).Legal (start 200) as →
    (system truncate (3 / 2)).Meets (SoundStep truncate (3 / 2)) (start 200) as := by
  intro h
  let pickUp : HealthAction := .pickUp .life 2147483520
  have hmeets := h [pickUp] (by decide +kernel)
  obtain ⟨⟨-, hsound, -⟩, -⟩ := ((system truncate (3 / 2)).meets_cons _ _ pickUp []).mp hmeets
  exact absurd (hsound.health.dead_iff.mp (by decide +kernel)) (by decide +kernel)

end HealthSession

end SeminarTouhou
