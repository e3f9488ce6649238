import SeminarTouhou.Library.System
import SeminarTouhou.Level.StagedEnemy

namespace SeminarTouhou

open Library

inductive PlayerEvent
  | defensiveBombAttack (amount : Int32)
  | offensiveBombAttackUI (amount : Int32)
  | fireOffensiveBomb (pos : Vector2)
deriving DecidableEq

structure EnemyFlags where
  isAtEnd : Bool
  isDead : Bool
deriving DecidableEq

/-- An object that `Update` can aim at; a boss has no `BaseEnemy`. -/
structure Aim where
  position : Vector3
  isNull : Bool
  baseEnemy : Option EnemyFlags
deriving DecidableEq

structure WaveView where
  activeList : List ℕ
  bossObject : Option ℕ
deriving DecidableEq

/-- What a frame's `Update` finds: the keys that went down, the objects by number and the active
`WaveManager`, if there is one. `subscriber` is what a subscriber of `OnFireOffensiveBomb` throws. -/
structure Frame where
  isInFocusTime : Bool
  defensiveBombKey : Bool
  offensiveBombKey : Bool
  position : Vector3
  objects : ℕ → Aim
  waveManager : Option WaveView
  subscriber : Option Exn

/-- The bombs and the target of `PlayerAttacks`; `defensiveDelays` and `offensiveDelays` count the
coroutines that are suspended in their `WaitForSeconds`. Shooting is left out. -/
structure PlayerAttacks where
  target : Option ℕ
  maxDefensiveBombs : Int32
  defensiveBombCount : Int32
  isDefensiveBombDelayed : Bool
  defensiveDelays : ℕ
  maxOffensiveBombs : Int32
  offensiveBombCount : Int32
  isOffensiveBombDelayed : Bool
  offensiveDelays : ℕ
deriving DecidableEq

namespace Frame

variable (f : Frame)

def seen (target : Option ℕ) : Option ℕ := target.filter (fun x => !(f.objects x).isNull)

def cancel (target : Option ℕ) : Option ℕ :=
  (f.seen target).filter (fun x => !decide ((f.objects x).position.y < f.position.y))

def needsTarget (target : Option ℕ) : Bool :=
  match target with
  | none => true
  | some x => (f.objects x).baseEnemy.any (fun e => e.isAtEnd || e.isDead)

def sqrDistance (x : ℕ) : ℚ :=
  ((f.objects x).position.x - f.position.x) ^ 2 + ((f.objects x).position.y - f.position.y) ^ 2

def closer (obj : Option ℕ) (x : ℕ) : Option ℕ :=
  if (f.objects x).isNull then obj
  else if obj.all (fun y => f.sqrDistance x < f.sqrDistance y) &&
      decide (f.position.y < (f.objects x).position.y) &&
      !(f.objects x).baseEnemy.any EnemyFlags.isDead then some x
  else obj

def closest (list : List ℕ) : Option ℕ := list.foldl f.closer none

end Frame

namespace PlayerAttacks

variable {p : PlayerAttacks} {f : Frame}

abbrev Result := Outcome PlayerAttacks Empty PlayerEvent

def bombCost : Int32 := 1

def start (maxDefensiveBombs maxOffensiveBombs : Int32) : PlayerAttacks where
  target := none
  maxDefensiveBombs := maxDefensiveBombs
  defensiveBombCount := maxDefensiveBombs
  isDefensiveBombDelayed := false
  defensiveDelays := 0
  maxOffensiveBombs := maxOffensiveBombs
  offensiveBombCount := maxOffensiveBombs
  isOffensiveBombDelayed := false
  offensiveDelays := 0

/-- `DelayDefensiveBomb` up to its `yield` or its end. Without a wave manager it throws after the
bomb was fired; that ends the coroutine, not its caller. -/
def delayDefensiveBomb (f : Frame) (cost : Int32) (p : PlayerAttacks) : Result :=
  let p : PlayerAttacks := { p with isDefensiveBombDelayed := true }
  if f.defensiveBombKey && 0 < p.defensiveBombCount then
    let p := { p with defensiveBombCount := p.defensiveBombCount - cost }
    match f.waveManager with
    | none => .raises p [.defensiveBombAttack p.defensiveBombCount]
    | some _ => .raises { p with defensiveDelays := p.defensiveDelays + 1 }
        [.defensiveBombAttack p.defensiveBombCount]
  else .returns { p with isDefensiveBombDelayed := false }

def handleDefensiveBomb (f : Frame) (cost : Int32) (p : PlayerAttacks) : Result :=
  if !p.isDefensiveBombDelayed then p.delayDefensiveBomb f cost else .returns p

def handleOffensiveBomb (f : Frame) (cost : Int32) (p : PlayerAttacks) : Result :=
  if !p.isOffensiveBombDelayed then
    if f.offensiveBombKey && 0 < p.offensiveBombCount then
      let p := { p with
        isOffensiveBombDelayed := true
        offensiveBombCount := p.offensiveBombCount - cost }
      let events := [.offensiveBombAttackUI p.offensiveBombCount,
        .fireOffensiveBomb f.position.toVector2]
      match f.subscriber with
      | some e => ⟨p, [], events, some e⟩
      | none => .raises { p with offensiveDelays := p.offensiveDelays + 1 } events
    else .returns p
  else .returns p

def handleBombs (f : Frame) (p : PlayerAttacks) : Result :=
  (p.handleDefensiveBomb f bombCost).andThen (handleOffensiveBomb f bombCost)

def aimAt (target : Option ℕ) (p : PlayerAttacks) : PlayerAttacks := { p with target := target }

/-- With an empty active list the targeting code returns from `Update`. -/
def update (f : Frame) (p : PlayerAttacks) : Result :=
  if f.isInFocusTime then
    let target := f.cancel p.target
    if f.needsTarget target then
      match f.waveManager with
      | none => .throws (p.aimAt target) .nullReference
      | some w =>
        if w.activeList = [] then .returns (p.aimAt ((f.seen w.bossObject).or target))
        else (p.aimAt (f.closest w.activeList)).handleBombs f
    else (p.aimAt target).handleBombs f
  else p.handleBombs f

def endDefensiveDelay (p : PlayerAttacks) : PlayerAttacks :=
  { p with defensiveDelays := p.defensiveDelays - 1, isDefensiveBombDelayed := false }

def delayOffensiveBomb (p : PlayerAttacks) : PlayerAttacks :=
  { p with offensiveDelays := p.offensiveDelays - 1, isOffensiveBombDelayed := false }

/-- `BombUI.TranslateEvent`, which asks for the maximum of the defensive bombs in both cases. `toInt` is
the conversion from `float`. -/
def translateEvent (toInt : ℚ → Int32) (type : DropType) (ammount : ℚ) (p : PlayerAttacks) : PlayerAttacks :=
  match type with
  | .offBomb =>
    if p.offensiveBombCount < p.maxDefensiveBombs then
      { p with offensiveBombCount := p.offensiveBombCount + toInt ammount }
    else p
  | .defBomb =>
    if p.defensiveBombCount < p.maxDefensiveBombs then
      { p with defensiveBombCount := p.defensiveBombCount + toInt ammount }
    else p
  | _ => p

def leavesEarly (f : Frame) (p : PlayerAttacks) : Bool :=
  f.isInFocusTime && f.needsTarget (f.cancel p.target) &&
    f.waveManager.all (fun w => w.activeList = [])

theorem update_leaves (h : p.leavesEarly f = true) :
    ∃ target, (p.update f).state = p.aimAt target ∧ (p.update f).raised = [] := by
  simp only [leavesEarly, Bool.and_eq_true] at h
  obtain ⟨⟨hfocus, hneeds⟩, hlist⟩ := h
  rw [update, if_pos hfocus]
  dsimp only
  rw [if_pos hneeds]
  cases hw : f.waveManager with
  | none => exact ⟨_, rfl, rfl⟩
  | some w =>
    rw [hw, Option.all_some, decide_eq_true_iff] at hlist
    dsimp only
    rw [if_pos hlist]
    exact ⟨_, rfl, rfl⟩

theorem update_handles (h : p.leavesEarly f = false) :
    ∃ target, p.update f = (p.aimAt target).handleBombs f := by
  rw [update]
  split_ifs with hfocus
  · dsimp only
    split_ifs with hneeds
    · rw [leavesEarly, hfocus, hneeds] at h
      cases hw : f.waveManager with
      | none =>
        rw [hw] at h
        cases h
      | some w =>
        have hlist : w.activeList ≠ [] := by simpa [hw] using h
        dsimp only
        rw [if_neg hlist]
        exact ⟨_, rfl⟩
    · exact ⟨_, rfl⟩
  · exact ⟨p.target, rfl⟩

def firesDefensive (f : Frame) (p : PlayerAttacks) : Bool :=
  !p.isDefensiveBombDelayed && f.defensiveBombKey && 0 < p.defensiveBombCount

def firesOffensive (f : Frame) (p : PlayerAttacks) : Bool :=
  !p.isOffensiveBombDelayed && f.offensiveBombKey && 0 < p.offensiveBombCount

def fireDefensive (f : Frame) (p : PlayerAttacks) : PlayerAttacks :=
  { p with
    isDefensiveBombDelayed := true
    defensiveBombCount := p.defensiveBombCount - bombCost
    defensiveDelays := if f.waveManager.isSome then p.defensiveDelays + 1 else p.defensiveDelays }

def fireOffensive (f : Frame) (p : PlayerAttacks) : PlayerAttacks :=
  { p with
    isOffensiveBombDelayed := true
    offensiveBombCount := p.offensiveBombCount - bombCost
    offensiveDelays := if f.subscriber.isNone then p.offensiveDelays + 1 else p.offensiveDelays }

theorem handleDefensiveBomb_eq (f : Frame) (p : PlayerAttacks) :
    p.handleDefensiveBomb f bombCost =
      if p.firesDefensive f then
        .raises (p.fireDefensive f) [.defensiveBombAttack (p.defensiveBombCount - bombCost)]
      else .returns p := by
  rw [handleDefensiveBomb, firesDefensive, delayDefensiveBomb]
  cases hd : p.isDefensiveBombDelayed with
  | true => rfl
  | false =>
    have hsame : { p with isDefensiveBombDelayed := false } = p := by rw [← hd]
    by_cases hk : (f.defensiveBombKey && decide (0 < p.defensiveBombCount)) = true
    · simp only [Bool.not_false, Bool.true_and, if_true, hk, fireDefensive]
      cases f.waveManager <;> rfl
    · simp only [Bool.not_false, Bool.true_and, if_true, hk]
      exact congrArg Outcome.returns hsame

theorem handleOffensiveBomb_eq (f : Frame) (p : PlayerAttacks) :
    p.handleOffensiveBomb f bombCost =
      if p.firesOffensive f then
        ⟨p.fireOffensive f, [], [.offensiveBombAttackUI (p.offensiveBombCount - bombCost),
          .fireOffensiveBomb f.position.toVector2], f.subscriber⟩
      else .returns p := by
  rw [handleOffensiveBomb, firesOffensive]
  cases p.isOffensiveBombDelayed with
  | true => rfl
  | false =>
    by_cases hk : (f.offensiveBombKey && decide (0 < p.offensiveBombCount)) = true
    · simp only [Bool.not_false, Bool.true_and, if_true, hk, fireOffensive]
      cases f.subscriber <;> rfl
    · simp only [Bool.not_false, Bool.true_and, if_true, hk]
      rfl

theorem handleBombs_state (f : Frame) (p : PlayerAttacks) : (p.handleBombs f).state =
    let p' := if p.firesDefensive f then p.fireDefensive f else p
    if p.firesOffensive f then p'.fireOffensive f else p' := by
  rw [handleBombs, handleDefensiveBomb_eq]
  cases p.firesDefensive f with
  | true =>
    have hsame : (p.fireDefensive f).firesOffensive f = p.firesOffensive f := rfl
    change ((p.fireDefensive f).handleOffensiveBomb f bombCost).state = _
    rw [handleOffensiveBomb_eq, hsame]
    cases p.firesOffensive f <;> rfl
  | false =>
    change (p.handleOffensiveBomb f bombCost).state = _
    rw [handleOffensiveBomb_eq]
    cases p.firesOffensive f <;> rfl

theorem handleBombs_raised (f : Frame) (p : PlayerAttacks) : (p.handleBombs f).raised =
    (if p.firesDefensive f then [.defensiveBombAttack (p.defensiveBombCount - bombCost)] else []) ++
      if p.firesOffensive f then
        [.offensiveBombAttackUI (p.offensiveBombCount - bombCost),
          .fireOffensiveBomb f.position.toVector2]
      else [] := by
  rw [handleBombs, handleDefensiveBomb_eq]
  cases p.firesDefensive f with
  | true =>
    have hsame : (p.fireDefensive f).firesOffensive f = p.firesOffensive f := rfl
    change _ ++ ((p.fireDefensive f).handleOffensiveBomb f bombCost).raised = _
    rw [handleOffensiveBomb_eq, hsame]
    cases p.firesOffensive f <;> rfl
  | false =>
    change [] ++ (p.handleOffensiveBomb f bombCost).raised = _
    rw [handleOffensiveBomb_eq]
    cases p.firesOffensive f <;> rfl

end PlayerAttacks

inductive AttacksAction
  | update (f : Frame)
  | endDefensiveDelay
  | delayOffensiveBomb
  | pickUp (type : DropType) (ammount : ℚ)

end SeminarTouhou
