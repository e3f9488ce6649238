import SeminarTouhou.Level.HealthSession
import SeminarTouhou.Level.PlayerBombs

namespace SeminarTouhou

open Library

structure Icon where
  anchoredPosition : Vector2
  life : Life
deriving DecidableEq

abbrev IconRow := List Icon

namespace IconRow

def icons (xOffset : ℚ) (amount : ℤ) : IconRow :=
  (List.range amount.toNat).map (fun i => ⟨⟨i * xOffset, 0⟩, .alive⟩)

/-- The old icons are still children of the container when the new ones join them. -/
def update (xOffset : ℚ) (amount : ℤ) (row : IconRow) : IconRow :=
  row.map (fun i => { i with life := i.life.destroy }) ++ icons xOffset amount

def endOfFrame (row : IconRow) : IconRow :=
  (row.map (fun i => { i with life := i.life.endOfFrame })).filter (·.life ≠ .destroyed)

/-- What is left of the row when the frame ends. -/
def Shows (xOffset : ℚ) (amount : ℤ) (row : IconRow) : Prop := row.endOfFrame = icons xOffset amount

theorem endOfFrame_append (row row' : IconRow) :
    endOfFrame (row ++ row') = row.endOfFrame ++ row'.endOfFrame := by
  rw [endOfFrame, List.map_append, List.filter_append]
  rfl

theorem endOfFrame_icons (xOffset : ℚ) (amount : ℤ) :
    (icons xOffset amount).endOfFrame = icons xOffset amount := by
  have hsame : (icons xOffset amount).map (fun i => { i with life := i.life.endOfFrame }) =
      icons xOffset amount := by
    rw [icons, List.map_map]
    rfl
  rw [endOfFrame, hsame]
  refine List.filter_eq_self.mpr ?_
  intro i hi
  obtain ⟨n, -, rfl⟩ := List.mem_map.mp hi
  rfl

theorem shows_update (xOffset : ℚ) (amount : ℤ) (row : IconRow) :
    (row.update xOffset amount).Shows xOffset amount := by
  have hold : endOfFrame (row.map (fun i => { i with life := i.life.destroy })) = [] := by
    rw [endOfFrame, List.map_map]
    refine List.filter_eq_nil_iff.mpr ?_
    intro i hi
    obtain ⟨j, -, rfl⟩ := List.mem_map.mp hi
    obtain ⟨anchoredPosition, life⟩ := j
    cases life <;> simp [Life.destroy, Life.endOfFrame]
  rw [Shows, update, endOfFrame_append, hold, endOfFrame_icons, List.nil_append]

theorem Shows.endOfFrame {xOffset : ℚ} {amount : ℤ} {row : IconRow} (h : row.Shows xOffset amount) :
    row.endOfFrame.Shows xOffset amount := by
  rw [Shows, h, endOfFrame_icons]

end IconRow

structure HealthDisplay where
  session : HealthSession
  row : IconRow

namespace HealthSession

/-- The `OnHealthUpdate` that `TakeDamage` raises. -/
def damageUpdate (damage : Int32) (s : HealthSession) : Option Int32 :=
  if s.isDead || s.isInvincible then none else some (clamp (s.currentHealth - damage) 0 s.maxHealth)

def healUpdate (amount : Int32) (s : HealthSession) : Option Int32 :=
  if s.isDead then none else some (clamp (s.currentHealth + amount) 0 s.maxHealth)

variable (toInt : ℚ → Int32)

def healthUpdate (s : HealthSession) : HealthAction → Option Int32
  | .takeDamage damage => s.damageUpdate damage
  | .trigger enemyBullet =>
    if s.isDead || s.isInvincible then none else if enemyBullet then s.damageUpdate 1 else none
  | .pickUp .life ammount => s.healUpdate (toInt ammount)
  | _ => none

theorem currentHealth_takeDamage (damage : Int32) (s : HealthSession) :
    (s.takeDamage damage).currentHealth = (s.damageUpdate damage).getD s.currentHealth := by
  rw [takeDamage, damageUpdate]
  split_ifs
  · rfl
  · dsimp only
    split_ifs <;> rfl

theorem currentHealth_heal (amount : Int32) (s : HealthSession) :
    (s.heal amount).currentHealth = (s.healUpdate amount).getD s.currentHealth := by
  rw [heal, healUpdate]
  split_ifs <;> rfl

/-- The health never changes without an event that tells the new one. -/
theorem currentHealth_next (s : HealthSession) (a : HealthAction) :
    (s.next toInt a).currentHealth = (s.healthUpdate toInt a).getD s.currentHealth := by
  cases a with
  | takeDamage damage => exact s.currentHealth_takeDamage damage
  | trigger enemyBullet =>
    rw [next, onTriggerEnter2D, healthUpdate]
    split_ifs
    · rfl
    · exact s.currentHealth_takeDamage 1
    · rfl
  | pickUp drop ammount =>
    cases drop with
    | life => exact s.currentHealth_heal _
    | _ => rfl
  | passTime | vulnerable | endOfFrame => rfl

end HealthSession

namespace HealthDisplay

variable (toInt : ℚ → Int32) (invinciblityTime xOffset : ℚ)

/-- `HealthUI.Start` shows the maximum, and so does the event of `PlayerHealth.Start`, whichever of
them comes first. -/
def start (maxHealth : Int32) : HealthDisplay where
  session := .start maxHealth
  row := (IconRow.update xOffset maxHealth.toInt []).update xOffset maxHealth.toInt

def rowAfter (s : HealthDisplay) (a : HealthAction) : IconRow :=
  match a with
  | .endOfFrame => s.row.endOfFrame
  | a => (s.session.healthUpdate toInt a).elim s.row (fun n => s.row.update xOffset n.toInt)

def next (s : HealthDisplay) (a : HealthAction) : HealthDisplay :=
  ⟨s.session.next toInt a, s.rowAfter toInt xOffset a⟩

def system : System HealthDisplay HealthAction :=
  ⟨fun s a => s.session.Enabled invinciblityTime a, next toInt xOffset⟩

def Shows (s : HealthDisplay) : Prop := s.row.Shows xOffset s.session.currentHealth.toInt

variable {toInt xOffset}

theorem Shows.next {s : HealthDisplay} (h : s.Shows xOffset) (a : HealthAction) :
    (s.next toInt xOffset a).Shows xOffset := by
  rw [Shows, HealthDisplay.next, HealthSession.currentHealth_next]
  cases a with
  | endOfFrame => exact IconRow.Shows.endOfFrame h
  | _ =>
    dsimp only [rowAfter]
    cases s.session.healthUpdate toInt _ with
    | none => exact h
    | some n => exact IconRow.shows_update xOffset n.toInt s.row

variable (toInt xOffset)

/-- At the end of every frame there is one icon for each point of health, side by side. -/
theorem health_shown (maxHealth : Int32) (as : List HealthAction) :
    ((system toInt invinciblityTime xOffset).run (start xOffset maxHealth) as).Shows xOffset := by
  have hstart : (start xOffset maxHealth).Shows xOffset := IconRow.shows_update xOffset _ _
  exact System.invariant_always (fun _ a h => h.next a) hstart as

end HealthDisplay

structure BombDisplay where
  session : AttackSession
  offensive : IconRow
  defensive : IconRow

inductive BombDisplayAction
  | play (a : AttacksAction)
  | endOfFrame

namespace BombDisplay

variable (toInt : ℚ → Int32) (xOffset : ℚ)

/-- `BombUI.Start` shows the bombs that the player has by then, and `PlayerAttacks.Start` raises the
events that show the maxima. -/
def start (uiFirst : Bool) (maxDefensiveBombs maxOffensiveBombs : Int32) : BombDisplay :=
  let row (max : Int32) : IconRow :=
    if uiFirst then (IconRow.update xOffset 0 []).update xOffset max.toInt
    else (IconRow.update xOffset max.toInt []).update xOffset max.toInt
  ⟨.start maxDefensiveBombs maxOffensiveBombs, row maxOffensiveBombs, row maxDefensiveBombs⟩

def hear (s : BombDisplay) : PlayerEvent → BombDisplay
  | .defensiveBombAttack amount => { s with defensive := s.defensive.update xOffset amount.toInt }
  | .offensiveBombAttackUI amount => { s with offensive := s.offensive.update xOffset amount.toInt }
  | .fireOffensiveBomb _ => s

/-- `BombUI.TranslateEvent` shows the bombs of a kind when it has added some. -/
def translateEvent (type : DropType) (ammount : ℚ) (s : BombDisplay) : BombDisplay :=
  let p := s.session.player
  let p' := p.translateEvent toInt type ammount
  match type with
  | .offBomb =>
    if p.offensiveBombCount < p.maxDefensiveBombs then
      { s with offensive := s.offensive.update xOffset p'.offensiveBombCount.toInt }
    else s
  | .defBomb =>
    if p.defensiveBombCount < p.maxDefensiveBombs then
      { s with defensive := s.defensive.update xOffset p'.defensiveBombCount.toInt }
    else s
  | _ => s

def rowsAfter (s : BombDisplay) : AttacksAction → BombDisplay
  | .update f => (s.session.player.update f).raised.foldl (hear xOffset) s
  | .pickUp type ammount => s.translateEvent toInt xOffset type ammount
  | _ => s

def next (s : BombDisplay) : BombDisplayAction → BombDisplay
  | .play a => { s.rowsAfter toInt xOffset a with session := s.session.next toInt a }
  | .endOfFrame => { s with offensive := s.offensive.endOfFrame, defensive := s.defensive.endOfFrame }

def system : System BombDisplay BombDisplayAction where
  enabled s
    | .play a => s.session.Enabled a
    | .endOfFrame => True
  next := next toInt xOffset

structure Shows (s : BombDisplay) : Prop where
  offensive : s.offensive.Shows xOffset s.session.player.offensiveBombCount.toInt
  defensive : s.defensive.Shows xOffset s.session.player.defensiveBombCount.toInt

variable {toInt xOffset} {s : BombDisplay}

theorem start_shows (uiFirst : Bool) (maxDefensiveBombs maxOffensiveBombs : Int32) :
    (start xOffset uiFirst maxDefensiveBombs maxOffensiveBombs).Shows xOffset := by
  cases uiFirst <;> exact ⟨IconRow.shows_update xOffset _ _, IconRow.shows_update xOffset _ _⟩

theorem Shows.update (h : s.Shows xOffset) (f : Frame) :
    (s.next toInt xOffset (.play (.update f))).Shows xOffset := by
  obtain ⟨target, hs, hr⟩ := s.session.player.update_fires f
  have hplayer : (s.session.next toInt (.update f)).player = (s.session.player.update f).state := rfl
  constructor
  · simp only [next, rowsAfter, hplayer, hs, hr, List.foldl_append]
    cases !s.session.player.leavesEarly f && s.session.player.firesDefensive f
    all_goals cases !s.session.player.leavesEarly f && s.session.player.firesOffensive f
    · exact h.offensive
    · exact IconRow.shows_update xOffset _ _
    · exact h.offensive
    · exact IconRow.shows_update xOffset _ _
  · simp only [next, rowsAfter, hplayer, hs, hr, List.foldl_append]
    cases !s.session.player.leavesEarly f && s.session.player.firesDefensive f
    all_goals cases !s.session.player.leavesEarly f && s.session.player.firesOffensive f
    · exact h.defensive
    · exact h.defensive
    · exact IconRow.shows_update xOffset _ _
    · exact IconRow.shows_update xOffset _ _

theorem Shows.pickUp (h : s.Shows xOffset) (type : DropType) (ammount : ℚ) :
    (s.next toInt xOffset (.play (.pickUp type ammount))).Shows xOffset := by
  cases type with
  | power | score | life => exact ⟨h.offensive, h.defensive⟩
  | offBomb =>
    simp only [next, rowsAfter, translateEvent, AttackSession.next, PlayerAttacks.translateEvent]
    split_ifs
    · exact ⟨IconRow.shows_update xOffset _ _, h.defensive⟩
    · exact ⟨h.offensive, h.defensive⟩
  | defBomb =>
    simp only [next, rowsAfter, translateEvent, AttackSession.next, PlayerAttacks.translateEvent]
    split_ifs
    · exact ⟨h.offensive, IconRow.shows_update xOffset _ _⟩
    · exact ⟨h.offensive, h.defensive⟩

theorem Shows.next (h : s.Shows xOffset) (a : BombDisplayAction) :
    (s.next toInt xOffset a).Shows xOffset := by
  cases a with
  | endOfFrame => exact ⟨h.offensive.endOfFrame, h.defensive.endOfFrame⟩
  | play a =>
    cases a with
    | update f => exact h.update f
    | pickUp type ammount => exact h.pickUp type ammount
    | endDefensiveDelay | delayOffensiveBomb => exact ⟨h.offensive, h.defensive⟩

/-- At the end of every frame each row has one icon for each bomb of its kind, side by side. -/
theorem bombs_shown (toInt : ℚ → Int32) (xOffset : ℚ) (uiFirst : Bool)
    (maxDefensiveBombs maxOffensiveBombs : Int32) (as : List BombDisplayAction) :
    ((system toInt xOffset).run (start xOffset uiFirst maxDefensiveBombs maxOffensiveBombs)
      as).Shows xOffset :=
  System.invariant_always (fun _ a h => h.next a)
    (start_shows uiFirst maxDefensiveBombs maxOffensiveBombs) as

end BombDisplay

end SeminarTouhou
