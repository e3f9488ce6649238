import SeminarTouhou.Library.MachineInt
import SeminarTouhou.Level.PlayerAttacks
import SeminarTouhou.Level.StagedEnemy

namespace SeminarTouhou

open Library

/-- The offensive bombs of `PlayerAttacks`; `delay` is what is left of `DelayOffensiveBomb`. -/
structure BombStock where
  offensiveBombCount : Int32
  maxDefensiveBombs : Int32
  offensiveBombDelay : ℚ
  isOffensiveBombDelayed : Bool
  delay : ℚ
deriving DecidableEq

namespace BombStock

def start (maxOffensiveBombs maxDefensiveBombs : Int32) (offensiveBombDelay : ℚ) : BombStock :=
  ⟨maxOffensiveBombs, maxDefensiveBombs, offensiveBombDelay, false, 0⟩

/-- With the stock it leaves, whether it raises `FireOffensiveBomb`. -/
def handleOffensiveBomb (keyDown : Bool) (cost : Int32) (p : BombStock) : Bool × BombStock :=
  if !p.isOffensiveBombDelayed then
    if keyDown && 0 < p.offensiveBombCount then
      (true, { p with
        isOffensiveBombDelayed := true
        offensiveBombCount := p.offensiveBombCount - cost
        delay := p.offensiveBombDelay })
    else (false, p)
  else (false, p)

def delayOffensiveBomb (deltaTime : ℚ) (p : BombStock) : BombStock :=
  if p.isOffensiveBombDelayed then
    if p.delay - deltaTime ≤ 0 then { p with isOffensiveBombDelayed := false }
    else { p with delay := p.delay - deltaTime }
  else p

/-- `BombUI.TranslateEvent`, which compares with the maximum of the other kind of bomb, as far as it
changes the offensive bombs. -/
def translateEvent (toInt : ℚ → Int32) (dropType : DropType) (ammount : ℚ) (p : BombStock) : BombStock :=
  match dropType with
  | .offBomb =>
    if p.offensiveBombCount < p.maxDefensiveBombs then
      { p with offensiveBombCount := p.offensiveBombCount + toInt ammount }
    else p
  | _ => p

def ofAttacks (q : PlayerAttacks) (offensiveBombDelay delay : ℚ) : BombStock :=
  ⟨q.offensiveBombCount, q.maxDefensiveBombs, offensiveBombDelay, q.isOffensiveBombDelayed, delay⟩

variable (q : PlayerAttacks) (offensiveBombDelay delay : ℚ)

theorem translateEvent_ofAttacks (toInt : ℚ → Int32) (type : DropType) (ammount : ℚ) :
    (ofAttacks q offensiveBombDelay delay).translateEvent toInt type ammount =
      ofAttacks (q.translateEvent toInt type ammount) offensiveBombDelay delay := by
  cases type with
  | offBomb =>
    simp only [translateEvent, PlayerAttacks.translateEvent]
    split_ifs with hroom hroom' hroom'
    · rfl
    · exact absurd hroom hroom'
    · exact absurd hroom' hroom
    · rfl
  | defBomb =>
    simp only [translateEvent, PlayerAttacks.translateEvent]
    split_ifs <;> rfl
  | _ => rfl

/-- The stock does in a frame what `PlayerAttacks` does. -/
theorem handleOffensiveBomb_ofAttacks (f : Frame) :
    (ofAttacks q offensiveBombDelay delay).handleOffensiveBomb f.offensiveBombKey PlayerAttacks.bombCost =
      (q.firesOffensive f, ofAttacks (q.handleOffensiveBomb f PlayerAttacks.bombCost).state
        offensiveBombDelay (if q.firesOffensive f then offensiveBombDelay else delay)) := by
  rw [PlayerAttacks.handleOffensiveBomb_eq, handleOffensiveBomb, PlayerAttacks.firesOffensive]
  cases hd : q.isOffensiveBombDelayed with
  | true => simp [ofAttacks, hd]
  | false =>
    by_cases hk : (f.offensiveBombKey && decide (0 < q.offensiveBombCount)) = true
    · simp [ofAttacks, hd, hk, PlayerAttacks.fireOffensive]
    · simp [ofAttacks, hd, hk]

end BombStock

/-- `enabled` is that of the sequencer; `turnOffs` is the time left of each `TurnOffSequencer`. -/
structure HologramPlayer where
  playerSequencer : Sequencer
  enabled : Bool
  attackIndex : ℕ
  turnOffs : List ℚ
deriving DecidableEq

namespace HologramPlayer

def prefab (attacks : List AttackData) (shouldLoop : Bool) : HologramPlayer :=
  ⟨.new attacks shouldLoop, false, 0, []⟩

def spawnOffensiveBomb (h : HologramPlayer) : Outcome HologramPlayer Empty Empty :=
  let h := { h with enabled := true }
  match h.playerSequencer.attacks[h.attackIndex]? with
  | none => .throws h .argumentOutOfRange
  | some a => .returns { h with turnOffs := h.turnOffs ++ [a.customLifeTime] }

def turnOff (h : HologramPlayer) : HologramPlayer :=
  { h with
    enabled := false
    playerSequencer := h.playerSequencer.cleanSequencer
    attackIndex := h.attackIndex + 1 }

def frame (deltaTime : ℚ) (h : HologramPlayer) : HologramPlayer :=
  let times := h.turnOffs.map (fun t => t - deltaTime)
  turnOff^[times.countP (fun t => t ≤ 0)] { h with turnOffs := times.filter (fun t => 0 < t) }

theorem turnOff_iterate (k : ℕ) (h : HologramPlayer) :
    (turnOff^[k] h).turnOffs = h.turnOffs ∧ (turnOff^[k] h).attackIndex = h.attackIndex + k ∧
      (turnOff^[k] h).enabled = (h.enabled && k = 0) := by
  induction k with
  | zero => exact ⟨rfl, rfl, (Bool.and_true _).symm⟩
  | succ k ih =>
    obtain ⟨hturnOffs, hindex, -⟩ := ih
    rw [Function.iterate_succ_apply']
    refine ⟨hturnOffs, congrArg (· + 1) hindex, ?_⟩
    simp [turnOff]

theorem frame_turnOffs (deltaTime : ℚ) (h : HologramPlayer) : (h.frame deltaTime).turnOffs =
    (h.turnOffs.map (fun t => t - deltaTime)).filter (fun t => 0 < t) :=
  (turnOff_iterate _ _).1

theorem frame_enabled (deltaTime : ℚ) (h : HologramPlayer) : (h.frame deltaTime).enabled =
    (h.enabled && (h.turnOffs.map (fun t => t - deltaTime)).countP (fun t => t ≤ 0) = 0) :=
  (turnOff_iterate _ _).2.2

theorem frame_counts (deltaTime : ℚ) (h : HologramPlayer) :
    (h.frame deltaTime).attackIndex + (h.frame deltaTime).turnOffs.length =
      h.attackIndex + h.turnOffs.length := by
  have hsplit := List.length_eq_countP_add_countP (fun t => decide (t ≤ 0))
    (l := h.turnOffs.map (fun t => t - deltaTime))
  have hindex : (h.frame deltaTime).attackIndex = h.attackIndex +
      (h.turnOffs.map (fun t => t - deltaTime)).countP (fun t => t ≤ 0) :=
    (turnOff_iterate _ _).2.1
  have hlater : (fun t : ℚ => decide ¬ decide (t ≤ 0) = true) = fun t => decide (0 < t) := by
    funext t
    simp
  rw [List.length_map, hlater] at hsplit
  rw [frame_turnOffs, hindex, ← List.countP_eq_length_filter]
  omega

def Lit (h : HologramPlayer) : Prop := h.enabled = true → h.turnOffs ≠ []

theorem Lit.frame {h : HologramPlayer} (hh : h.Lit) (deltaTime : ℚ) : (h.frame deltaTime).Lit := by
  intro he
  rw [frame_enabled] at he
  obtain ⟨henabled, hnone⟩ := Bool.and_eq_true_iff.mp he
  have hnone := List.countP_eq_zero.mp (of_decide_eq_true hnone)
  rw [frame_turnOffs]
  obtain ⟨t, hm⟩ := List.exists_mem_of_ne_nil _ (hh henabled)
  have ht := List.mem_map_of_mem (f := fun t => t - deltaTime) hm
  apply List.ne_nil_of_mem
  apply List.mem_filter.mpr ⟨ht, _⟩
  have hlate := hnone _ ht
  rw [decide_eq_true_iff, not_le] at hlate
  exact decide_eq_true hlate

theorem spawnOffensiveBomb_returns {h : HologramPlayer}
    (hi : h.attackIndex < h.playerSequencer.attacks.length) :
    ∃ t, h.spawnOffensiveBomb =
      .returns { h with enabled := true, turnOffs := h.turnOffs ++ [t] } := by
  refine ⟨(h.playerSequencer.attacks[h.attackIndex]).customLifeTime, ?_⟩
  simp only [spawnOffensiveBomb, List.getElem?_eq_getElem hi]

theorem spawnOffensiveBomb_throws {h : HologramPlayer}
    (hi : h.playerSequencer.attacks.length ≤ h.attackIndex) :
    h.spawnOffensiveBomb.thrown = some .argumentOutOfRange := by
  simp only [spawnOffensiveBomb, List.getElem?_eq_none hi, Outcome.throws_thrown]

def sequencerAct (a : SequencerAction) (h : HologramPlayer) : HologramPlayer :=
  match a with
  | .fixedUpdate deltaTime =>
    if h.enabled then { h with playerSequencer := h.playerSequencer.fixedUpdate deltaTime } else h
  | a => { h with playerSequencer := h.playerSequencer.act a }

end HologramPlayer

/-- A remote player, its bombs on their way, and its hologram; `shown` counts the bombs that have
arrived. -/
structure HologramSession where
  stock : BombStock
  inFlight : ℕ
  hologram : HologramPlayer
  shown : ℕ
deriving DecidableEq

inductive HologramAction
  | update (keyDown : Bool)
  | delay (deltaTime : ℚ)
  | pickUp (dropType : DropType) (ammount : ℚ)
  | arrive
  | frame (deltaTime : ℚ)
  | sequencer (a : SequencerAction)
deriving DecidableEq

namespace HologramSession

def start (stock : BombStock) (attacks : List AttackData) (shouldLoop : Bool) : HologramSession :=
  ⟨stock, 0, .prefab attacks shouldLoop, 0⟩

def Enabled (s : HologramSession) : HologramAction → Prop
  | .arrive => 0 < s.inFlight
  | .frame deltaTime => 0 < deltaTime
  | .delay deltaTime => 0 < deltaTime
  | _ => True

instance (s : HologramSession) (a : HologramAction) : Decidable (s.Enabled a) := by
  cases a <;> dsimp only [Enabled] <;> infer_instance

variable (toInt : ℚ → Int32)

def next (s : HologramSession) : HologramAction → HologramSession
  | .update keyDown =>
    { s with
      stock := (s.stock.handleOffensiveBomb keyDown PlayerAttacks.bombCost).2
      inFlight :=
        if (s.stock.handleOffensiveBomb keyDown PlayerAttacks.bombCost).1 then s.inFlight + 1
        else s.inFlight }
  | .delay deltaTime => { s with stock := s.stock.delayOffensiveBomb deltaTime }
  | .pickUp dropType ammount => { s with stock := s.stock.translateEvent toInt dropType ammount }
  | .arrive =>
    { s with
      inFlight := s.inFlight - 1
      hologram := s.hologram.spawnOffensiveBomb.state
      shown := s.shown + 1 }
  | .frame deltaTime => { s with hologram := s.hologram.frame deltaTime }
  | .sequencer a => { s with hologram := s.hologram.sequencerAct a }

def system : System HologramSession HologramAction := ⟨Enabled, next toInt⟩

instance (s : HologramSession) (a : HologramAction) : Decidable ((system toInt).enabled s a) :=
  inferInstanceAs (Decidable (s.Enabled a))

def frameTime : List HologramAction → ℚ
  | [] => 0
  | .frame deltaTime :: as => deltaTime + frameTime as
  | _ :: as => frameTime as

/-- A bomb that arrives finds its attack, and unless another one arrives, the sequencer is disabled
again once the frames have taken as long as every attack that is still on. -/
def ShowsBomb (s : HologramSession) (a : HologramAction) : Prop :=
  a = .arrive → s.hologram.spawnOffensiveBomb.thrown = none ∧
    ∀ as, .arrive ∉ as → 0 < frameTime as →
      (∀ t ∈ (s.next toInt a).hologram.turnOffs, t ≤ frameTime as) →
      ((system toInt).run (s.next toInt a) as).hologram.enabled = false

def burnt (s : HologramSession) : ℕ := s.shown - s.hologram.turnOffs.length

/-- A bomb arrives when fewer have burnt out than the list has attacks. -/
def HasAttackLeft (s : HologramSession) (a : HologramAction) : Prop :=
  a = .arrive → s.burnt < s.hologram.playerSequencer.attacks.length

variable {s : HologramSession}

structure Burning (s : HologramSession) : Prop where
  lit : s.hologram.Lit
  count : s.hologram.attackIndex + s.hologram.turnOffs.length = s.shown

theorem sequencerAct_frame (a : SequencerAction) (h : HologramPlayer) :
    (h.sequencerAct a).enabled = h.enabled ∧ (h.sequencerAct a).turnOffs = h.turnOffs ∧
      (h.sequencerAct a).attackIndex = h.attackIndex := by
  cases a with
  | fixedUpdate deltaTime =>
    rw [HologramPlayer.sequencerAct]
    split_ifs <;> exact ⟨rfl, rfl, rfl⟩
  | spawnEmmiter | cleanSequencer | emitterEnds | endOfFrame => exact ⟨rfl, rfl, rfl⟩

theorem lit_sequencerAct (a : SequencerAction) {h : HologramPlayer} (hh : h.Lit) :
    (h.sequencerAct a).Lit := by
  obtain ⟨he, ht, -⟩ := sequencerAct_frame a h
  rwa [HologramPlayer.Lit, he, ht]

theorem lit_next (h : s.hologram.Lit) {a : HologramAction} (ha : a ≠ .arrive) :
    (s.next toInt a).hologram.Lit := by
  cases a with
  | arrive => exact absurd rfl ha
  | frame deltaTime => exact h.frame deltaTime
  | sequencer a => exact lit_sequencerAct a h
  | update | delay | pickUp => exact h

theorem Burning.next (h : s.Burning) {a : HologramAction} (ha : s.HasAttackLeft a) :
    (s.next toInt a).Burning := by
  cases a with
  | arrive =>
    have hleft := ha rfl
    have hcount := h.count
    rw [burnt] at hleft
    obtain ⟨t, ht⟩ := HologramPlayer.spawnOffensiveBomb_returns (h := s.hologram) (by omega)
    rw [HologramSession.next, ht]
    constructor
    · intro _
      exact List.append_ne_nil_of_right_ne_nil _ (List.cons_ne_nil _ _)
    · dsimp only [Outcome.returns_state]
      rw [List.length_append, List.length_singleton]
      omega
  | frame deltaTime => exact ⟨h.lit.frame deltaTime, (s.hologram.frame_counts deltaTime).trans h.count⟩
  | sequencer a =>
    obtain ⟨-, ht, hi⟩ := sequencerAct_frame a s.hologram
    refine ⟨lit_sequencerAct a h.lit, ?_⟩
    rw [HologramSession.next, ht, hi]
    exact h.count
  | update | delay | pickUp => exact ⟨h.lit, h.count⟩

theorem disabled_after {as : List HologramAction} (h : s.hologram.Lit) (ha : .arrive ∉ as)
    (ht : s.hologram.turnOffs = [] ∨
      0 < frameTime as ∧ ∀ t ∈ s.hologram.turnOffs, t ≤ frameTime as) :
    ((system toInt).run s as).hologram.enabled = false := by
  induction as generalizing s with
  | nil =>
    have hnone := ht.resolve_right (fun h => lt_irrefl 0 h.1)
    cases he : s.hologram.enabled with
    | false => exact he
    | true => exact absurd hnone (h he)
  | cons a as ih =>
    rw [List.mem_cons, not_or] at ha
    obtain ⟨hne, ha⟩ := ha
    have hlit := lit_next toInt h (Ne.symm hne)
    rw [System.run_cons]
    apply ih hlit ha
    cases a with
    | arrive => exact absurd rfl hne
    | frame deltaTime =>
      have hlate (t : ℚ) (hm : t ∈ (s.hologram.frame deltaTime).turnOffs) :
          0 < t ∧ t ≤ frameTime as := by
        rw [HologramPlayer.frame_turnOffs] at hm
        obtain ⟨hm, hpos⟩ := List.mem_filter.mp hm
        obtain ⟨u, hu, rfl⟩ := List.mem_map.mp hm
        refine ⟨of_decide_eq_true hpos, ?_⟩
        rcases ht with hnone | ⟨-, hall⟩
        · rw [hnone] at hu
          exact absurd hu List.not_mem_nil
        · have hle := hall u hu
          rw [frameTime] at hle
          linarith only [hle]
      rcases (s.hologram.frame deltaTime).turnOffs.eq_nil_or_concat with hnil | ⟨l, t, hl⟩
      · exact Or.inl hnil
      · obtain ⟨hpos, hle⟩ := hlate t (by rw [hl]; simp)
        exact Or.inr ⟨hpos.trans_le hle, fun u hu => (hlate u hu).2⟩
    | sequencer a =>
      have hsame : ((s.next toInt (.sequencer a)).hologram).turnOffs = s.hologram.turnOffs :=
        (sequencerAct_frame a s.hologram).2.1
      rw [hsame]
      exact ht
    | update | delay | pickUp => exact ht

theorem Burning.shows_iff (h : s.Burning) (a : HologramAction) : s.ShowsBomb toInt a ↔ s.HasAttackLeft a := by
  apply imp_congr_right
  rintro rfl
  have hcount := h.count
  constructor
  · rintro ⟨hreturns, -⟩
    by_contra hnone
    rw [burnt] at hnone
    rw [HologramPlayer.spawnOffensiveBomb_throws (by omega)] at hreturns
    exact absurd hreturns (by simp)
  · intro hleft
    refine ⟨?_, fun as has hpos hall => ?_⟩
    · rw [burnt] at hleft
      obtain ⟨t, ht⟩ := HologramPlayer.spawnOffensiveBomb_returns (h := s.hologram) (by omega)
      rw [ht]
      rfl
    · exact disabled_after toInt (h.next toInt (a := .arrive) (fun _ => hleft)).lit has (Or.inr ⟨hpos, hall⟩)

/-- The index is raised once for every bomb that has burnt out, and by nothing else. -/
theorem bombs_inRange_iff (stock : BombStock) (attacks : List AttackData) (shouldLoop : Bool)
    {as : List HologramAction} (hl : (system toInt).Legal (start stock attacks shouldLoop) as) :
    (system toInt).Meets (ShowsBomb toInt) (start stock attacks shouldLoop) as ↔
      (system toInt).Meets HasAttackLeft (start stock attacks shouldLoop) as := by
  have hstart : (start stock attacks shouldLoop).Burning := ⟨fun h => absurd h Bool.false_ne_true, rfl⟩
  apply System.meets_iff (I := Burning) _ _ hstart hl
  · intro s a h _ ha
    exact h.next toInt ha
  · intro s a h _
    exact h.shows_iff toInt a

/-- The stock, the delay and the attack list are those of the prefabs. -/
theorem fourthBomb_throws : ¬ ∀ stock attacks shouldLoop as,
    (system truncate).Legal (start stock attacks shouldLoop) as →
      (system truncate).Meets (ShowsBomb truncate) (start stock attacks shouldLoop) as := by
  intro h
  let round : List HologramAction := [.update true, .arrive, .frame 5, .delay 5]
  let as := round ++ round ++ round ++ [.pickUp .offBomb 1, .update true]
  have hlast := (system truncate).meets_concat (h (.start 3 3 5)
    [⟨false, 3, 0⟩, ⟨false, 3, 0⟩, ⟨false, 3, 0⟩] false (as ++ [.arrive]) (by decide +kernel)) rfl
  exact absurd hlast.1 (by decide +kernel)

theorem bombs_inRange_twoBombs :
    let as : List HologramAction := [.update true, .arrive, .frame 5, .delay 5, .update true, .arrive]
    let first := start (.start 3 3 5) [⟨false, 3, 0⟩, ⟨false, 3, 0⟩] false
    (system truncate).Meets (ShowsBomb truncate) first as ↔ (system truncate).Meets HasAttackLeft first as :=
  bombs_inRange_iff truncate (.start 3 3 5) [⟨false, 3, 0⟩, ⟨false, 3, 0⟩] false (by decide +kernel)

end HologramSession

end SeminarTouhou
