import SeminarTouhou.Level.PlayerAttacks
import SeminarTouhou.Library.MachineInt

namespace SeminarTouhou

open Library

/-- A player's attacks over the frames. `defensiveBroken` says that a defensive bomb was fired in a
frame without an active wave manager, `offensiveBroken` that a subscriber threw at an offensive one. -/
structure AttackSession where
  player : PlayerAttacks
  defensiveBroken : Bool
  offensiveBroken : Bool

namespace PlayerAttacks

variable {p : PlayerAttacks}

def Within (p : PlayerAttacks) : Prop :=
  (0 ≤ p.offensiveBombCount ∧ p.offensiveBombCount ≤ p.maxOffensiveBombs) ∧
    0 ≤ p.defensiveBombCount ∧ p.defensiveBombCount ≤ p.maxDefensiveBombs

instance (p : PlayerAttacks) : Decidable p.Within := inferInstanceAs (Decidable (_ ∧ _))

theorem firesDefensive_stock {f : Frame} (h : p.firesDefensive f = true) :
    p.isDefensiveBombDelayed = false ∧ 0 < p.defensiveBombCount := by
  simp only [firesDefensive, Bool.and_eq_true, Bool.not_eq_true', decide_eq_true_eq] at h
  exact ⟨h.1.1, h.2⟩

theorem firesOffensive_stock {f : Frame} (h : p.firesOffensive f = true) :
    p.isOffensiveBombDelayed = false ∧ 0 < p.offensiveBombCount := by
  simp only [firesOffensive, Bool.and_eq_true, Bool.not_eq_true', decide_eq_true_eq] at h
  exact ⟨h.1.1, h.2⟩

theorem taken_within {count max : Int32} (h : 0 ≤ count ∧ count ≤ max) (hpos : 0 < count) :
    0 ≤ count - bombCost ∧ count - bombCost ≤ max := by
  have hcost : bombCost.toInt = 1 := rfl
  simp only [Int32.le_iff_toInt_le, Int32.lt_iff_toInt_lt, Int32.toInt_zero] at h hpos ⊢
  rw [toInt_sub_of_nonneg hpos.le (by omega), hcost]
  omega

theorem added_within_iff {count amount max : Int32} (h : 0 ≤ count) :
    0 ≤ count + amount ∧ count + amount ≤ max ↔
      0 ≤ count.toInt + amount.toInt ∧ count.toInt + amount.toInt ≤ max.toInt := by
  have hmax := max.toInt_lt
  simp only [Int32.le_iff_toInt_le, Int32.toInt_zero] at h ⊢
  obtain hlt | hover := Int.lt_or_le (count.toInt + amount.toInt) (2 ^ 31)
  · rw [toInt_add_of_lt h hlt]
  · have hnegative := toInt_add_overflow hover
    omega

theorem Within.fireDefensive (h : p.Within) {f : Frame} (hf : p.firesDefensive f = true) :
    (p.fireDefensive f).Within := by
  have hstock := (firesDefensive_stock hf).2
  obtain ⟨ho, hd⟩ := h
  exact ⟨ho, taken_within hd hstock⟩

theorem Within.fireOffensive (h : p.Within) {f : Frame} (hf : p.firesOffensive f = true) :
    (p.fireOffensive f).Within := by
  have hstock := (firesOffensive_stock hf).2
  obtain ⟨ho, hd⟩ := h
  exact ⟨taken_within ho hstock, hd⟩

theorem leaves_fires_iff {leaves fires : Bool} :
    leaves = false ∧ fires = true ↔ (!leaves && fires) = true := by
  simp

theorem update_fires (f : Frame) (p : PlayerAttacks) : ∃ target,
    (p.update f).state =
      (let p' := if !p.leavesEarly f && p.firesDefensive f then (p.aimAt target).fireDefensive f
        else p.aimAt target
      if !p.leavesEarly f && p.firesOffensive f then p'.fireOffensive f else p') ∧
    (p.update f).raised =
      (if !p.leavesEarly f && p.firesDefensive f then
        [.defensiveBombAttack (p.defensiveBombCount - bombCost)] else []) ++
      if !p.leavesEarly f && p.firesOffensive f then
        [.offensiveBombAttackUI (p.offensiveBombCount - bombCost),
          .fireOffensiveBomb f.position.toVector2]
      else [] := by
  cases hl : p.leavesEarly f with
  | true =>
    obtain ⟨target, hs, hr⟩ := update_leaves hl
    exact ⟨target, hs, hr⟩
  | false =>
    obtain ⟨target, hs⟩ := update_handles hl
    refine ⟨target, ?_, ?_⟩
    · rw [hs, handleBombs_state]
      rfl
    · rw [hs, handleBombs_raised]
      rfl

theorem Within.update (h : p.Within) (f : Frame) : (p.update f).state.Within := by
  obtain ⟨target, hs, -⟩ := p.update_fires f
  have haim : (p.aimAt target).Within := h
  rw [hs]
  dsimp only
  split_ifs with ho hd hd
  · exact (haim.fireDefensive (leaves_fires_iff.mpr hd).2).fireOffensive (leaves_fires_iff.mpr ho).2
  · exact haim.fireOffensive (leaves_fires_iff.mpr ho).2
  · exact haim.fireDefensive (leaves_fires_iff.mpr hd).2
  · exact haim

/-- A pick-up that is taken leaves no more bombs of its kind than the maximum of that kind, and a sum that
is not negative. -/
def Fits (toInt : ℚ → Int32) (p : PlayerAttacks) : AttacksAction → Prop
  | .pickUp .offBomb ammount => p.offensiveBombCount < p.maxDefensiveBombs →
    0 ≤ p.offensiveBombCount.toInt + (toInt ammount).toInt ∧
      p.offensiveBombCount.toInt + (toInt ammount).toInt ≤ p.maxOffensiveBombs.toInt
  | .pickUp .defBomb ammount => p.defensiveBombCount < p.maxDefensiveBombs →
    0 ≤ p.defensiveBombCount.toInt + (toInt ammount).toInt ∧
      p.defensiveBombCount.toInt + (toInt ammount).toInt ≤ p.maxDefensiveBombs.toInt
  | _ => True

theorem Within.translateEvent_iff (h : p.Within) (toInt : ℚ → Int32) (type : DropType) (ammount : ℚ) :
    (p.translateEvent toInt type ammount).Within ↔ p.Fits toInt (.pickUp type ammount) := by
  obtain ⟨ho, hd⟩ := h
  cases type with
  | power | score | life => exact iff_of_true ⟨ho, hd⟩ trivial
  | offBomb =>
    simp only [PlayerAttacks.translateEvent, Fits]
    split_ifs with hroom
    · simp only [Within, hroom, forall_const, added_within_iff ho.1]
      exact and_iff_left hd
    · exact iff_of_true ⟨ho, hd⟩ (fun h => absurd h hroom)
  | defBomb =>
    simp only [PlayerAttacks.translateEvent, Fits]
    split_ifs with hroom
    · simp only [Within, hroom, forall_const, added_within_iff hd.1]
      exact and_iff_right ho
    · exact iff_of_true ⟨ho, hd⟩ (fun h => absurd h hroom)

/-- A key went down for a bomb of which there is one left and none is delayed. -/
def pressesDefensive (f : Frame) (p : PlayerAttacks) : Bool :=
  f.defensiveBombKey && decide (0 < p.defensiveBombCount) && decide (p.defensiveDelays = 0)

def pressesOffensive (f : Frame) (p : PlayerAttacks) : Bool :=
  f.offensiveBombKey && decide (0 < p.offensiveBombCount) && decide (p.offensiveDelays = 0)

def DefensiveFired (f : Frame) (p : PlayerAttacks) : Prop :=
  (p.update f).state.defensiveBombCount = p.defensiveBombCount - bombCost ∧
    .defensiveBombAttack (p.defensiveBombCount - bombCost) ∈ (p.update f).raised

def OffensiveFired (f : Frame) (p : PlayerAttacks) : Prop :=
  (p.update f).state.offensiveBombCount = p.offensiveBombCount - bombCost ∧
    .fireOffensiveBomb f.position.toVector2 ∈ (p.update f).raised

instance (f : Frame) (p : PlayerAttacks) : Decidable (p.DefensiveFired f) :=
  inferInstanceAs (Decidable (_ ∧ _))

instance (f : Frame) (p : PlayerAttacks) : Decidable (p.OffensiveFired f) :=
  inferInstanceAs (Decidable (_ ∧ _))

theorem defensiveFired_iff (f : Frame) (p : PlayerAttacks) :
    p.DefensiveFired f ↔ p.leavesEarly f = false ∧ p.firesDefensive f = true := by
  obtain ⟨target, hs, hr⟩ := p.update_fires f
  rw [leaves_fires_iff, DefensiveFired, hs, hr]
  cases !p.leavesEarly f && p.firesDefensive f with
  | true =>
    refine iff_of_true ⟨?_, List.mem_append_left _ (List.mem_singleton_self _)⟩ rfl
    cases !p.leavesEarly f && p.firesOffensive f <;> rfl
  | false =>
    refine iff_of_false ?_ Bool.false_ne_true
    rintro ⟨-, hm⟩
    cases ho : !p.leavesEarly f && p.firesOffensive f <;> simp [ho] at hm

theorem offensiveFired_iff (f : Frame) (p : PlayerAttacks) :
    p.OffensiveFired f ↔ p.leavesEarly f = false ∧ p.firesOffensive f = true := by
  obtain ⟨target, hs, hr⟩ := p.update_fires f
  rw [leaves_fires_iff, OffensiveFired, hs, hr]
  cases !p.leavesEarly f && p.firesOffensive f with
  | true =>
    refine iff_of_true ⟨?_, List.mem_append_right _ (by simp)⟩ rfl
    cases !p.leavesEarly f && p.firesDefensive f <;> rfl
  | false =>
    refine iff_of_false ?_ Bool.false_ne_true
    rintro ⟨-, hm⟩
    cases hd : !p.leavesEarly f && p.firesDefensive f <;> simp [hd] at hm

theorem update_defensive (f : Frame) (p : PlayerAttacks) :
    (p.update f).state.isDefensiveBombDelayed =
        (p.isDefensiveBombDelayed || decide (p.DefensiveFired f)) ∧
      (p.update f).state.defensiveDelays =
        p.defensiveDelays + (decide (p.DefensiveFired f) && f.waveManager.isSome).toNat := by
  have hfired : decide (p.DefensiveFired f) = (!p.leavesEarly f && p.firesDefensive f) := by
    rw [Bool.eq_iff_iff, decide_eq_true_iff, defensiveFired_iff, leaves_fires_iff]
  obtain ⟨target, hs, -⟩ := p.update_fires f
  rw [hfired, hs]
  cases !p.leavesEarly f && p.firesDefensive f
  all_goals cases !p.leavesEarly f && p.firesOffensive f
  all_goals cases hw : f.waveManager
  all_goals simp [fireDefensive, PlayerAttacks.fireOffensive, aimAt, hw]

theorem update_offensive (f : Frame) (p : PlayerAttacks) :
    (p.update f).state.isOffensiveBombDelayed =
        (p.isOffensiveBombDelayed || decide (p.OffensiveFired f)) ∧
      (p.update f).state.offensiveDelays =
        p.offensiveDelays + (decide (p.OffensiveFired f) && f.subscriber.isNone).toNat := by
  have hfired : decide (p.OffensiveFired f) = (!p.leavesEarly f && p.firesOffensive f) := by
    rw [Bool.eq_iff_iff, decide_eq_true_iff, offensiveFired_iff, leaves_fires_iff]
  obtain ⟨target, hs, -⟩ := p.update_fires f
  rw [hfired, hs]
  cases !p.leavesEarly f && p.firesOffensive f
  all_goals cases !p.leavesEarly f && p.firesDefensive f
  all_goals cases he : f.subscriber
  all_goals simp [fireOffensive, PlayerAttacks.fireDefensive, aimAt, he]

end PlayerAttacks

namespace AttackSession

variable {s : AttackSession} {a : AttacksAction}

def start (maxDefensiveBombs maxOffensiveBombs : Int32) : AttackSession :=
  ⟨.start maxDefensiveBombs maxOffensiveBombs, false, false⟩

variable (toInt : ℚ → Int32)

def next (s : AttackSession) : AttacksAction → AttackSession
  | .update f =>
    { player := (s.player.update f).state
      defensiveBroken := s.defensiveBroken ||
        decide (s.player.DefensiveFired f) && f.waveManager.isNone
      offensiveBroken := s.offensiveBroken ||
        decide (s.player.OffensiveFired f) && f.subscriber.isSome }
  | .endDefensiveDelay => { s with player := s.player.endDefensiveDelay }
  | .delayOffensiveBomb => { s with player := s.player.delayOffensiveBomb }
  | .pickUp type ammount => { s with player := s.player.translateEvent toInt type ammount }

def Enabled (s : AttackSession) : AttacksAction → Prop
  | .update _ => True
  | .endDefensiveDelay => 0 < s.player.defensiveDelays
  | .delayOffensiveBomb => 0 < s.player.offensiveDelays
  | .pickUp _ ammount => 0 < ammount

instance (s : AttackSession) (a : AttacksAction) : Decidable (s.Enabled a) := by
  cases a <;> dsimp only [Enabled] <;> infer_instance

def system : System AttackSession AttacksAction := ⟨Enabled, next toInt⟩

instance (s : AttackSession) (a : AttacksAction) : Decidable ((system toInt).enabled s a) :=
  inferInstanceAs (Decidable (s.Enabled a))

theorem stocks_within_iff (maxDefensiveBombs maxOffensiveBombs : Int32) {as : List AttacksAction}
    (hl : (system toInt).Legal (start maxDefensiveBombs maxOffensiveBombs) as) :
    (start maxDefensiveBombs maxOffensiveBombs).player.Within ∧
        (system toInt).Meets (fun s a => (s.next toInt a).player.Within)
          (start maxDefensiveBombs maxOffensiveBombs) as ↔
      (0 ≤ maxDefensiveBombs ∧ 0 ≤ maxOffensiveBombs) ∧
        (system toInt).Meets (fun s a => s.player.Fits toInt a)
          (start maxDefensiveBombs maxOffensiveBombs) as := by
  have hstart : (start maxDefensiveBombs maxOffensiveBombs).player.Within ↔
      0 ≤ maxDefensiveBombs ∧ 0 ≤ maxOffensiveBombs := by
    simp [PlayerAttacks.Within, start, PlayerAttacks.start, and_comm]
  rw [← hstart]
  apply and_congr_right
  intro hwithin
  have hlaw : ∀ s a, s.player.Within → (system toInt).enabled s a →
      ((s.next toInt a).player.Within ↔ s.player.Fits toInt a) := by
    intro s a h he
    cases a with
    | update f => exact iff_of_true (h.update f) trivial
    | endDefensiveDelay | delayOffensiveBomb => exact iff_of_true h trivial
    | pickUp type ammount => exact h.translateEvent_iff toInt type ammount
  exact System.meets_iff (I := fun s => s.player.Within)
    (fun s a h he hf => (hlaw s a h he).mpr hf) hlaw hwithin hl

theorem stocks_within_refill :
    (start 3 3).player.Within ∧
        (system truncate).Meets (fun s a => (s.next truncate a).player.Within) (start 3 3)
          [.pickUp .offBomb 2, .pickUp .defBomb 1] ↔
      ((0 : Int32) ≤ 3 ∧ (0 : Int32) ≤ 3) ∧
        (system truncate).Meets (fun s a => s.player.Fits truncate a) (start 3 3)
          [.pickUp .offBomb 2, .pickUp .defBomb 1] :=
  stocks_within_iff truncate 3 3 (by decide +kernel)

/-- The full stock of two offensive bombs is below the maximum of three defensive ones. -/
theorem fullStock_exceeds : ¬ ∀ maxDefensiveBombs maxOffensiveBombs as,
    0 ≤ maxDefensiveBombs → 0 ≤ maxOffensiveBombs →
    (system truncate).Legal (start maxDefensiveBombs maxOffensiveBombs) as →
    (system truncate).Meets (fun s a => (s.next truncate a).player.Within)
      (start maxDefensiveBombs maxOffensiveBombs) as := by
  intro h
  have hwithin := h 3 2 [.pickUp .offBomb 1] (by decide) (by decide) (by decide +kernel)
  exact absurd hwithin (by decide +kernel)

def PressesFire (s : AttackSession) : AttacksAction → Prop
  | .update f => (s.player.pressesDefensive f = true → s.player.DefensiveFired f) ∧
    (s.player.pressesOffensive f = true → s.player.OffensiveFired f)
  | _ => True

instance (s : AttackSession) (a : AttacksAction) : Decidable (s.PressesFire a) := by
  cases a <;> dsimp only [PressesFire] <;> infer_instance

/-- The targeting code does not end the frame's `Update`, and the coroutine of the last bomb of the
kind came to its end. -/
def Heard (s : AttackSession) : AttacksAction → Prop
  | .update f =>
    (s.player.pressesDefensive f = true →
      s.player.leavesEarly f = false ∧ s.defensiveBroken = false) ∧
    (s.player.pressesOffensive f = true →
      s.player.leavesEarly f = false ∧ s.offensiveBroken = false)
  | _ => True

instance (s : AttackSession) (a : AttacksAction) : Decidable (s.Heard a) := by
  cases a <;> dsimp only [Heard] <;> infer_instance

structure FlagsTell (s : AttackSession) : Prop where
  defensive : s.player.defensiveDelays + s.defensiveBroken.toNat =
    s.player.isDefensiveBombDelayed.toNat
  offensive : s.player.offensiveDelays + s.offensiveBroken.toNat =
    s.player.isOffensiveBombDelayed.toNat

theorem flag_next {delays delays' : ℕ} {flag flag' broken fired whole : Bool}
    (h : delays + broken.toNat = flag.toNat) (hfired : fired = true → flag = false)
    (hflag : flag' = (flag || fired)) (hdelays : delays' = delays + (fired && whole).toNat) :
    delays' + (broken || fired && !whole).toNat = flag'.toNat := by
  subst hflag hdelays
  cases fired with
  | false => simpa using h
  | true =>
    obtain rfl := hfired rfl
    cases broken with
    | true => simp at h
    | false => cases whole <;> simpa using h

theorem flag_lifted {delays : ℕ} {flag broken : Bool} (h : delays + broken.toNat = flag.toNat)
    (hd : 0 < delays) : delays - 1 + broken.toNat = false.toNat := by
  have hflag := Bool.toNat_le flag
  rw [Bool.toNat_false]
  omega

theorem flag_eq_broken {delays : ℕ} {flag broken : Bool} (h : delays + broken.toNat = flag.toNat)
    (hd : delays = 0) : flag = broken := by
  rw [hd, Nat.zero_add] at h
  revert h
  cases flag <;> cases broken <;> simp

theorem FlagsTell.next (h : s.FlagsTell) (he : s.Enabled a) : (s.next toInt a).FlagsTell := by
  cases a with
  | update f =>
    constructor
    · obtain ⟨hflag, hdelays⟩ := s.player.update_defensive f
      have hnone : f.waveManager.isNone = !f.waveManager.isSome := by simp
      rw [AttackSession.next, hnone]
      refine flag_next h.defensive ?_ hflag hdelays
      intro hfired
      exact (PlayerAttacks.firesDefensive_stock
        ((PlayerAttacks.defensiveFired_iff f _).mp (of_decide_eq_true hfired)).2).1
    · obtain ⟨hflag, hdelays⟩ := s.player.update_offensive f
      have hsome : f.subscriber.isSome = !f.subscriber.isNone := by simp
      rw [AttackSession.next, hsome]
      refine flag_next h.offensive ?_ hflag hdelays
      intro hfired
      exact (PlayerAttacks.firesOffensive_stock
        ((PlayerAttacks.offensiveFired_iff f _).mp (of_decide_eq_true hfired)).2).1
  | endDefensiveDelay => exact ⟨flag_lifted h.defensive he, h.offensive⟩
  | delayOffensiveBomb => exact ⟨h.defensive, flag_lifted h.offensive he⟩
  | pickUp type ammount =>
    cases type with
    | power | score | life => exact h
    | defBomb | offBomb =>
      simp only [AttackSession.next, PlayerAttacks.translateEvent]
      split_ifs <;> exact ⟨h.defensive, h.offensive⟩

theorem FlagsTell.defensive_iff (h : s.FlagsTell) {f : Frame}
    (hp : s.player.pressesDefensive f = true) :
    s.player.DefensiveFired f ↔ s.player.leavesEarly f = false ∧ s.defensiveBroken = false := by
  simp only [PlayerAttacks.pressesDefensive, Bool.and_eq_true, decide_eq_true_eq] at hp
  obtain ⟨⟨hkey, hstock⟩, hdelays⟩ := hp
  have hflag := flag_eq_broken h.defensive hdelays
  simp [PlayerAttacks.defensiveFired_iff, PlayerAttacks.firesDefensive, hflag, hkey, hstock]

theorem FlagsTell.offensive_iff (h : s.FlagsTell) {f : Frame}
    (hp : s.player.pressesOffensive f = true) :
    s.player.OffensiveFired f ↔ s.player.leavesEarly f = false ∧ s.offensiveBroken = false := by
  simp only [PlayerAttacks.pressesOffensive, Bool.and_eq_true, decide_eq_true_eq] at hp
  obtain ⟨⟨hkey, hstock⟩, hdelays⟩ := hp
  have hflag := flag_eq_broken h.offensive hdelays
  simp [PlayerAttacks.offensiveFired_iff, PlayerAttacks.firesOffensive, hflag, hkey, hstock]

/-- A bomb key press is lost exactly when the targeting code leaves `Update`, or when an exception
has broken the coroutine that would have lifted the flag. -/
theorem presses_fire_iff (maxDefensiveBombs maxOffensiveBombs : Int32) {as : List AttacksAction}
    (hl : (system toInt).Legal (start maxDefensiveBombs maxOffensiveBombs) as) :
    (system toInt).Meets PressesFire (start maxDefensiveBombs maxOffensiveBombs) as ↔
      (system toInt).Meets Heard (start maxDefensiveBombs maxOffensiveBombs) as := by
  refine System.meets_iff (I := FlagsTell) (fun s a h he _ => h.next toInt he) ?_ ⟨rfl, rfl⟩ hl
  intro s a h _
  cases a with
  | update f =>
    exact and_congr (forall_congr' fun hp => h.defensive_iff hp)
      (forall_congr' fun hp => h.offensive_iff hp)
  | endDefensiveDelay | delayOffensiveBomb | pickUp => exact Iff.rfl

theorem presses_fire_noFocus :
    let f : Frame := ⟨false, true, true, ⟨0, -3, 0⟩, fun _ => ⟨⟨0, 0, 0⟩, true, none⟩,
      some ⟨[], none⟩, none⟩
    (system truncate).Meets PressesFire (start 3 3) [.update f, .delayOffensiveBomb, .update f] ↔
      (system truncate).Meets Heard (start 3 3) [.update f, .delayOffensiveBomb, .update f] :=
  presses_fire_iff truncate 3 3 (by decide +kernel)

/-- The last enemy of a wave is gone, and the player, who is focusing, presses a key. -/
def emptyField : Frame where
  isInFocusTime := true
  defensiveBombKey := false
  offensiveBombKey := true
  position := ⟨0, -3, 0⟩
  objects := fun _ => ⟨⟨0, 0, 0⟩, true, none⟩
  waveManager := some ⟨[], none⟩
  subscriber := none

theorem focusedPress_lost : ¬ ∀ maxDefensiveBombs maxOffensiveBombs as,
    (system truncate).Legal (start maxDefensiveBombs maxOffensiveBombs) as →
    (system truncate).Meets PressesFire (start maxDefensiveBombs maxOffensiveBombs) as := by
  intro h
  have hfires := h 3 3 [.update emptyField] (by decide +kernel)
  exact absurd hfires (by decide +kernel)

end AttackSession

end SeminarTouhou
