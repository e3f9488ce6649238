import SeminarTouhou.Level.StagedEnemy

namespace SeminarTouhou

open Library

/-- The static `bulletDamage` of `PlayerAttacks` and the number in the text of the level's
`AttackUI`; `carried` is the damage that its `Awake` found. -/
structure AttackPower where
  bulletDamage : ℚ
  attackText : Option ℚ
  carried : ℚ
deriving DecidableEq

inductive AttackAction
  | loadLevel
  | pickUp (type : DropType) (ammount : ℚ)
deriving DecidableEq

namespace AttackPower

variable {s : AttackPower} {a : AttackAction}

def start : AttackPower := ⟨1, none, 1⟩

def awake (s : AttackPower) : AttackPower :=
  { s with attackText := some s.bulletDamage, carried := s.bulletDamage }

/-- `PlayerAttacks.Start`, which comes after every `Awake` of the scene. -/
def startAttacks (s : AttackPower) : AttackPower := { s with bulletDamage := 1 }

def updateAttackUI (type : DropType) (ammount : ℚ) (s : AttackPower) : AttackPower :=
  match type with
  | .power => { s with attackText := s.attackText.map (fun text => text + ammount) }
  | _ => s

def translateEvent (drop : DropType) (ammount : ℚ) (s : AttackPower) : AttackPower :=
  match drop with
  | .power =>
    if s.bulletDamage < 4 then { s with bulletDamage := s.bulletDamage + ammount } else s
  | _ => s

def next (s : AttackPower) : AttackAction → AttackPower
  | .loadLevel => s.awake.startAttacks
  | .pickUp type ammount => (s.updateAttackUI type ammount).translateEvent type ammount

def Enabled (s : AttackPower) : AttackAction → Prop
  | .loadLevel => True
  | .pickUp _ _ => s.attackText.isSome

instance (s : AttackPower) (a : AttackAction) : Decidable (s.Enabled a) := by
  cases a <;> dsimp only [Enabled] <;> infer_instance

def system : System AttackPower AttackAction := ⟨Enabled, next⟩

instance (s : AttackPower) (a : AttackAction) : Decidable (system.enabled s a) :=
  inferInstanceAs (Decidable (s.Enabled a))

def ShowsDamage (s : AttackPower) (a : AttackAction) : Prop :=
  match a with
  | .pickUp .power _ => (s.next a).attackText = some (s.next a).bulletDamage
  | _ => True

instance (s : AttackPower) (a : AttackAction) : Decidable (s.ShowsDamage a) := by
  rcases a with _ | ⟨_ | _, _⟩ <;> dsimp only [ShowsDamage] <;> infer_instance

/-- The level began with the damage that `Start` gives, and the cap lets the pick-up through. -/
def InStep (s : AttackPower) : AttackAction → Prop
  | .pickUp .power ammount => s.carried = 1 ∧ (s.bulletDamage < 4 ∨ ammount = 0)
  | _ => True

instance (s : AttackPower) (a : AttackAction) : Decidable (s.InStep a) := by
  rcases a with _ | ⟨_ | _, _⟩ <;> dsimp only [InStep] <;> infer_instance

/-- The text is ahead of the damage by what `Awake` found too much. -/
structure Ahead (s : AttackPower) : Prop where
  text : ∀ text, s.attackText = some text → text = s.bulletDamage + (s.carried - 1)
  power : s.bulletDamage = 1 ∨ s.carried = 1

theorem next_power (ammount : ℚ) (s : AttackPower) :
    s.next (.pickUp .power ammount) = { s with
      attackText := s.attackText.map (fun text => text + ammount)
      bulletDamage := if s.bulletDamage < 4 then s.bulletDamage + ammount else s.bulletDamage } := by
  by_cases hlow : s.bulletDamage < 4
  all_goals simp [next, updateAttackUI, translateEvent, hlow]

theorem Ahead.next (h : s.Ahead) (ho : s.InStep a) : (s.next a).Ahead := by
  rcases a with _ | ⟨_ | _ | _ | _ | _, ammount⟩
  · refine ⟨?_, Or.inl rfl⟩
    intro text ht
    obtain rfl : s.bulletDamage = text := Option.some.inj ht
    exact (add_sub_cancel 1 _).symm
  · obtain ⟨hcarried, hpower⟩ := ho
    have hadd : (if s.bulletDamage < 4 then s.bulletDamage + ammount else s.bulletDamage) =
        s.bulletDamage + ammount := by
      obtain hlow | rfl := hpower
      · exact if_pos hlow
      · rw [add_zero, ite_self]
    rw [next_power, hadd]
    refine ⟨?_, Or.inr hcarried⟩
    intro text ht
    obtain ⟨old, hold, rfl⟩ := Option.map_eq_some_iff.mp ht
    rw [h.text old hold]
    ring
  all_goals exact h

/-- `Awake` shows the damage that the last level left behind, and the text does not know the cap. -/
theorem shows_damage_iff {as : List AttackAction} (hl : system.Legal start as) :
    system.Meets ShowsDamage start as ↔ system.Meets InStep start as := by
  have hstart : Ahead start := ⟨nofun, Or.inl rfl⟩
  refine System.meets_iff (fun s a h _ ho => h.next ho) ?_ hstart hl
  intro s a h he
  rcases a with _ | ⟨_ | _ | _ | _ | _, ammount⟩
  case pickUp.power =>
    obtain ⟨text, ht⟩ := Option.isSome_iff_exists.mp he
    have htext := h.text text ht
    rw [ShowsDamage, next_power, InStep, ht, Option.map_some, Option.some.injEq, htext]
    by_cases hlow : s.bulletDamage < 4
    · rw [if_pos hlow, and_iff_left (Or.inl hlow)]
      constructor
      · intro h
        linarith
      · intro h
        rw [h]
        ring
    · have hcarried : s.carried = 1 := by
        obtain hone | hcarried := h.power
        · rw [hone] at hlow
          exact absurd (by norm_num) hlow
        · exact hcarried
      rw [if_neg hlow, hcarried, or_iff_right hlow, and_iff_right rfl, sub_self, add_zero]
      exact add_eq_left
  all_goals exact Iff.rfl

theorem shows_damage_oneLevel :
    let as := [.loadLevel, .pickUp .power 2, .pickUp .score 5, .pickUp .power 1]
    system.Meets ShowsDamage start as ↔ system.Meets InStep start as :=
  shows_damage_iff (by decide +kernel)

theorem secondLevel_showsMore : ¬ ∀ as, system.Legal start as → system.Meets ShowsDamage start as := by
  intro h
  have hshows := h [.loadLevel, .pickUp .power 1, .loadLevel, .pickUp .power 1] (by decide +kernel)
  exact absurd hshows (by decide +kernel)

end AttackPower

end SeminarTouhou
