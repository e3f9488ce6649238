import SeminarTouhou.Library.Spacing
import SeminarTouhou.Library.MachineInt
import SeminarTouhou.Level.LevelSession
import SeminarTouhou.Level.PlayerAttacks
import SeminarTouhou.UI.AttackPower

namespace SeminarTouhou

open Library

/-- `delays` are the times that its delayed `Destroy`s still wait. -/
structure PickUp where
  dropType : DropType
  amount : ℚ
  lifeTime : ℚ
  position : Vector3
  life : Life
  delays : List ℚ

namespace PickUp

abbrev Result := Outcome PickUp Empty (DropType × ℚ)

def start (dropType : DropType) (amount : ℚ) (position : Vector3) : PickUp :=
  ⟨dropType, amount, 10, position, .alive, []⟩

def fixedUpdate (deltaTime : ℚ) (p : PickUp) : PickUp :=
  { p with
    position := { p.position with y := p.position.y - deltaTime }
    life := if p.lifeTime ≤ 0 then p.life.destroy else p.life
    lifeTime := p.lifeTime - deltaTime }

/-- `sound` is what `SoundManager` throws. -/
def onTriggerEnter2D (isPlayer : Bool) (sound : Option Exn) (p : PickUp) : Result :=
  if isPlayer then
    match sound with
    | some e => ⟨p, [], [(p.dropType, p.amount)], some e⟩
    | none => .raises { p with delays := p.delays ++ [1 / 10] } [(p.dropType, p.amount)]
  else .returns p

/-- A frame that lasts `deltaTime`, up to its end, at which the engine destroys. -/
def frame (deltaTime : ℚ) (p : PickUp) : PickUp :=
  let delays := p.delays.map (fun d => d - deltaTime)
  { p with
    delays := delays
    life := if ∃ d ∈ delays, d ≤ 0 then p.life.destroy.endOfFrame else p.life.endOfFrame }

end PickUp

structure Totals where
  playerPoints : Int32
  health : PlayerHealth
  attack : AttackPower
  bombs : PlayerAttacks
deriving DecidableEq

section Subscribers

/-! `toInt` is the conversion from `float`. -/
variable (toInt : ℚ → Int32)

def updateDrop (type : DropType) (ammount : ℚ) (playerPoints : Int32) : Int32 :=
  match type with
  | .score => playerPoints + toInt ammount
  | _ => playerPoints

def PlayerHealth.translateDropEvent (drop : DropType) (ammount : ℚ) (p : PlayerHealth) : PlayerHealth :=
  match drop with
  | .life => p.heal (toInt ammount)
  | _ => p

def Totals.onPickUp (type : DropType) (ammount : ℚ) (t : Totals) : Totals where
  playerPoints := updateDrop toInt type ammount t.playerPoints
  health := t.health.translateDropEvent toInt type ammount
  attack := (t.attack.updateAttackUI type ammount).translateEvent type ammount
  bombs := t.bombs.translateEvent toInt type ammount

end Subscribers

/-- One pickup from its `Start` on, with the totals of that time and of now. `contacts` counts the enter
events with player-tagged colliders. -/
structure PickUpSession where
  pickUp : PickUp
  before : Totals
  totals : Totals
  contacts : ℕ
  raised : List (DropType × ℚ)

inductive PickUpAction
  | enter (isPlayer : Bool) (sound : Option Exn)
  | exit (isPlayer : Bool)
  | fixedUpdate (deltaTime : ℚ)
  | frame (deltaTime : ℚ)
deriving DecidableEq

namespace PickUpSession

def start (dropType : DropType) (amount : ℚ) (position : Vector3) (before : Totals) : PickUpSession :=
  ⟨.start dropType amount position, before, before, 0, []⟩

variable (toInt : ℚ → Int32)

def enter (isPlayer : Bool) (sound : Option Exn) (s : PickUpSession) : PickUpSession :=
  let o := s.pickUp.onTriggerEnter2D isPlayer sound
  { s with
    pickUp := o.state
    totals := o.raised.foldl (fun t e => t.onPickUp toInt e.1 e.2) s.totals
    contacts := if isPlayer then s.contacts + 1 else s.contacts
    raised := s.raised ++ o.raised }

/-- Nothing listens to exits. -/
def next (s : PickUpSession) : PickUpAction → PickUpSession
  | .enter isPlayer sound => s.enter toInt isPlayer sound
  | .exit _ => s
  | .fixedUpdate deltaTime => { s with pickUp := s.pickUp.fixedUpdate deltaTime }
  | .frame deltaTime => { s with pickUp := s.pickUp.frame deltaTime }

def Enabled (s : PickUpSession) : PickUpAction → Prop
  | .enter _ _ => s.pickUp.life ≠ .destroyed
  | .exit _ => s.pickUp.life ≠ .destroyed
  | .fixedUpdate deltaTime => s.pickUp.life ≠ .destroyed ∧ 0 ≤ deltaTime
  | .frame deltaTime => 0 ≤ deltaTime

instance (s : PickUpSession) (a : PickUpAction) : Decidable (s.Enabled a) := by
  cases a <;> dsimp only [Enabled] <;> infer_instance

def system : System PickUpSession PickUpAction := ⟨Enabled, next toInt⟩

instance (s : PickUpSession) (a : PickUpAction) : Decidable ((system toInt).enabled s a) :=
  inferInstanceAs (Decidable (s.Enabled a))

/-- After the step, the event was raised once at most, and so was its amount counted. -/
def CountsOnce (s : PickUpSession) (a : PickUpAction) : Prop :=
  (s.next toInt a).raised.length ≤ 1 ∧ ((s.next toInt a).totals = s.before ∨
    (s.next toInt a).totals = s.before.onPickUp toInt s.pickUp.dropType s.pickUp.amount)

instance (s : PickUpSession) (a : PickUpAction) : Decidable (s.CountsOnce toInt a) :=
  inferInstanceAs (Decidable (_ ∧ _))

def FirstContact (s : PickUpSession) : PickUpAction → Prop
  | .enter true _ => s.contacts = 0
  | _ => True

instance (s : PickUpSession) (a : PickUpAction) : Decidable (s.FirstContact a) := by
  rcases a with ⟨_ | _, _⟩ | _ | _ | _ <;> dsimp only [FirstContact] <;> infer_instance

structure Counted (s : PickUpSession) : Prop where
  none : s.contacts = 0 → s.raised = [] ∧ s.totals = s.before
  once : s.contacts ≠ 0 → s.contacts = 1 ∧ s.raised.length = 1 ∧
    s.totals = s.before.onPickUp toInt s.pickUp.dropType s.pickUp.amount

variable {toInt} {s : PickUpSession} {a : PickUpAction}

theorem enter_player (sound : Option Exn) (s : PickUpSession) :
    (s.enter toInt true sound).contacts = s.contacts + 1 ∧
      (s.enter toInt true sound).raised = s.raised ++ [(s.pickUp.dropType, s.pickUp.amount)] ∧
      (s.enter toInt true sound).totals = s.totals.onPickUp toInt s.pickUp.dropType s.pickUp.amount ∧
      (s.enter toInt true sound).before = s.before ∧
      (s.enter toInt true sound).pickUp.dropType = s.pickUp.dropType ∧
      (s.enter toInt true sound).pickUp.amount = s.pickUp.amount := by
  cases sound <;> exact ⟨rfl, rfl, rfl, rfl, rfl, rfl⟩

theorem enter_other (sound : Option Exn) (s : PickUpSession) : s.enter toInt false sound = s := by
  have hreturns : s.pickUp.onTriggerEnter2D false sound = .returns s.pickUp := if_neg Bool.false_ne_true
  rw [enter, hreturns]
  simp

theorem next_fixed (s : PickUpSession) (a : PickUpAction) : (s.next toInt a).before = s.before ∧
    (s.next toInt a).pickUp.dropType = s.pickUp.dropType ∧
      (s.next toInt a).pickUp.amount = s.pickUp.amount := by
  cases a with
  | enter isPlayer sound =>
    cases isPlayer with
    | false =>
      rw [next, enter_other]
      exact ⟨rfl, rfl, rfl⟩
    | true => exact (enter_player sound s).2.2.2
  | _ => exact ⟨rfl, rfl, rfl⟩

theorem Counted.next (h : s.Counted toInt) (ho : s.FirstContact a) : (s.next toInt a).Counted toInt := by
  cases a with
  | enter isPlayer sound =>
    cases isPlayer with
    | false =>
      rw [PickUpSession.next, enter_other]
      exact h
    | true =>
      obtain ⟨hraised, htotals⟩ := h.none ho
      obtain ⟨hcontacts, hlog, hsum, hbefore, htype, hamount⟩ := enter_player sound s
      rw [PickUpSession.next]
      refine ⟨fun hzero => ?_, fun _ => ⟨?_, ?_, ?_⟩⟩
      · rw [hcontacts] at hzero
        exact absurd hzero (Nat.succ_ne_zero _)
      · rw [hcontacts, ho]
      · rw [hlog, hraised]
        rfl
      · rw [hsum, htotals, hbefore, htype, hamount]
  | exit _ => exact h
  | fixedUpdate _ => exact ⟨h.none, h.once⟩
  | frame _ => exact ⟨h.none, h.once⟩

theorem Counted.countsOnce (h : s.Counted toInt) : s.raised.length ≤ 1 ∧
    (s.totals = s.before ∨ s.totals = s.before.onPickUp toInt s.pickUp.dropType s.pickUp.amount) := by
  obtain hzero | hone := eq_or_ne s.contacts 0
  · obtain ⟨hraised, htotals⟩ := h.none hzero
    rw [hraised]
    exact ⟨Nat.zero_le 1, Or.inl htotals⟩
  · obtain ⟨-, hraised, htotals⟩ := h.once hone
    exact ⟨hraised.le, Or.inr htotals⟩

theorem Counted.countsOnce_iff (h : s.Counted toInt) : s.CountsOnce toInt a ↔ s.FirstContact a := by
  constructor
  · rintro ⟨hlength, -⟩
    rcases a with ⟨_ | _, sound⟩ | _ | _ | _
    case enter.true =>
      by_contra hlater
      obtain ⟨-, hone, -⟩ := h.once hlater
      rw [PickUpSession.next, (enter_player sound s).2.1, List.length_append, hone] at hlength
      exact Nat.not_succ_le_self 1 hlength
    all_goals trivial
  · intro ho
    obtain ⟨hbefore, htype, hamount⟩ := next_fixed s a
    have hnext := (h.next ho).countsOnce
    rw [hbefore, htype, hamount] at hnext
    exact hnext

/-- Until the delayed `Destroy` comes, every contact counts. -/
theorem counts_once_iff (toInt : ℚ → Int32) (dropType : DropType) (amount : ℚ) (position : Vector3)
    (before : Totals) {as : List PickUpAction}
    (hl : (system toInt).Legal (start dropType amount position before) as) :
    (system toInt).Meets (CountsOnce toInt) (start dropType amount position before) as ↔
      (system toInt).Meets FirstContact (start dropType amount position before) as := by
  have hstart : (start dropType amount position before).Counted toInt :=
    ⟨fun _ => ⟨rfl, rfl⟩, fun hne => absurd rfl hne⟩
  exact System.meets_iff (fun _ _ h _ ho => h.next ho) (fun _ _ h _ => h.countsOnce_iff) hstart hl

def emptyTotals : Totals := ⟨0, .start 3, .start, .start 3 3⟩

theorem counts_once_touched :
    let as := [.fixedUpdate (1 / 50), .enter true none, .exit true, .enter false none, .frame (1 / 10)]
    (system truncate).Meets (CountsOnce truncate) (start .score 5 ⟨0, 4, 0⟩ emptyTotals) as ↔
      (system truncate).Meets FirstContact (start .score 5 ⟨0, 4, 0⟩ emptyTotals) as :=
  counts_once_iff truncate .score 5 ⟨0, 4, 0⟩ emptyTotals (by decide +kernel)

theorem secondContact_countsTwice : ¬ ∀ as,
    (system truncate).Legal (start .score 5 ⟨0, 4, 0⟩ emptyTotals) as →
    (system truncate).Meets (CountsOnce truncate) (start .score 5 ⟨0, 4, 0⟩ emptyTotals) as := by
  intro h
  have hmeets := h [.enter true none, .exit true, .fixedUpdate (1 / 50), .enter true none] (by decide +kernel)
  exact absurd hmeets (by decide +kernel)

def time : PickUpAction → ℚ
  | .enter _ _ => 0
  | .exit _ => 0
  | .fixedUpdate _ => 0
  | .frame deltaTime => deltaTime

theorem not_legal_destroyed (h : s.pickUp.life = .destroyed) (as : List PickUpAction) (isPlayer : Bool)
    (sound : Option Exn) : ¬ (system toInt).Legal s (as ++ [.enter isPlayer sound]) := by
  induction as generalizing s with
  | nil =>
    intro hl
    exact (((system toInt).legal_cons s _ []).mp hl).1 h
  | cons a as ih =>
    intro hl
    obtain ⟨he, hl⟩ := ((system toInt).legal_cons s a _).mp hl
    cases a with
    | enter _ _ => exact he h
    | exit _ => exact he h
    | fixedUpdate _ => exact he.1 h
    | frame deltaTime =>
      refine ih ?_ hl
      change (s.pickUp.frame deltaTime).life = _
      rw [PickUp.frame, h]
      exact ite_self _

theorem mem_delays_enter {d : ℚ} (hd : d ∈ s.pickUp.delays) (isPlayer : Bool) (sound : Option Exn) :
    d ∈ (s.enter toInt isPlayer sound).pickUp.delays := by
  cases isPlayer with
  | false =>
    rw [enter_other]
    exact hd
  | true =>
    cases sound with
    | none => exact List.mem_append_left _ hd
    | some e => exact hd

theorem contact_before_delay {as : List PickUpAction} {isPlayer : Bool} {sound : Option Exn} {d : ℚ}
    (hd : d ∈ s.pickUp.delays) (hpos : 0 < d) (hl : (system toInt).Legal s (as ++ [.enter isPlayer sound])) :
    duration time as < d := by
  induction as generalizing s d with
  | nil => exact hpos
  | cons a as ih =>
    obtain ⟨he, hl⟩ := ((system toInt).legal_cons s a _).mp hl
    rw [duration_cons]
    cases a with
    | enter p e =>
      rw [time, zero_add]
      exact ih (mem_delays_enter hd p e) hpos hl
    | exit _ =>
      rw [time, zero_add]
      exact ih hd hpos hl
    | fixedUpdate _ =>
      rw [time, zero_add]
      exact ih (s := s.next toInt (.fixedUpdate _)) hd hpos hl
    | frame deltaTime =>
      have hmem : d - deltaTime ∈ (s.next toInt (.frame deltaTime)).pickUp.delays := List.mem_map_of_mem hd
      obtain hdue | hlater := le_or_gt (d - deltaTime) 0
      · have hlife : (s.next toInt (.frame deltaTime)).pickUp.life = .destroyed := by
          refine (if_pos ⟨_, hmem, hdue⟩).trans ?_
          cases s.pickUp.life <;> rfl
        exact absurd hl (not_legal_destroyed hlife as isPlayer sound)
      · have hrest := ih hmem hlater hl
        rw [time]
        linarith

/-- After a contact with its sound, the others come within a tenth of a second. -/
theorem window_of_contact {as : List PickUpAction} {isPlayer : Bool} {sound : Option Exn}
    (hl : (system toInt).Legal s (.enter true none :: (as ++ [.enter isPlayer sound]))) :
    duration time as < 1 / 10 := by
  obtain ⟨-, hl⟩ := ((system toInt).legal_cons s _ _).mp hl
  have hdelay : 1 / 10 ∈ (s.next toInt (.enter true none)).pickUp.delays :=
    List.mem_append_right _ (List.mem_singleton_self _)
  exact contact_before_delay hdelay (by norm_num) hl

end PickUpSession

end SeminarTouhou
