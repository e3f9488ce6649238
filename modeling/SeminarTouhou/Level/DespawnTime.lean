import SeminarTouhou.Level.AttacksOver
import SeminarTouhou.Level.EnemyPath

namespace SeminarTouhou

open Library

/-- Of an enemy's prefab what its way depends on. -/
structure EnemyPrefab where
  range : ℚ
  speed : ℚ
  isBoss : Bool

/-- An enemy of the active list: its movement and the time it may still stay at the end of its path. -/
structure ActiveEnemy where
  path : PathEnemy
  despawnTimer : ℚ

namespace ActiveEnemy

/-- `Instantiate` and `SetPositionContainer`, and the `Start` that follows before the next fixed update. -/
def spawn (prefab : EnemyPrefab) (pos : PositionContainer) : ActiveEnemy :=
  ⟨(PathEnemy.spawned pos prefab.range prefab.speed prefab.isBoss pos.spawnPosition.toVector3).start.state, 5⟩

def shouldDestroy (sequencerAtEnd : Bool) (deltaTime : ℚ) (e : ActiveEnemy) : Bool × ActiveEnemy :=
  if e.path.isAtEnd && sequencerAtEnd then (true, e)
  else if e.path.isAtEnd && !sequencerAtEnd then
    if e.despawnTimer ≤ 0 then (true, e)
    else (false, { e with despawnTimer := e.despawnTimer - deltaTime })
  else (false, e)

def fixedUpdate (moveTowards : Vector2 → Vector2 → ℚ → Vector2) (deltaTime : ℚ) (e : ActiveEnemy) :
    ActiveEnemy :=
  { e with path := (e.path.doMovement moveTowards deltaTime).state }

/-- The two models of an enemy ask the same, when the one is told what the sequencer of the other says. -/
theorem shouldDestroy_eq (deltaTime : ℚ) {e : ActiveEnemy} {b : BaseEnemy} (hend : b.isAtEnd = e.path.isAtEnd)
    (htimer : b.despawnTimer = e.despawnTimer) :
    (e.shouldDestroy b.sqe.getIfAtEnd deltaTime).1 = (b.shouldDestroy deltaTime).1 ∧
      (e.shouldDestroy b.sqe.getIfAtEnd deltaTime).2.despawnTimer =
        (b.shouldDestroy deltaTime).2.despawnTimer := by
  rw [shouldDestroy, BaseEnemy.shouldDestroy, hend, htimer]
  split_ifs <;> simp [htimer]

end ActiveEnemy

def Vector2.sqrDistance (a b : Vector2) : ℚ := (a.x - b.x) ^ 2 + (a.y - b.y) ^ 2

/-- `MoveTowards` ends at a target within the step. Otherwise it comes nearer by the step, so that the
square of the distance goes down by the square of the step at least. -/
structure MovesTowards (moveTowards : Vector2 → Vector2 → ℚ → Vector2) : Prop where
  arrives : ∀ p q d, 0 ≤ d → p.sqrDistance q ≤ d ^ 2 → moveTowards p q d = q
  nearer : ∀ p q d, 0 ≤ d → d ^ 2 < p.sqrDistance q →
    (moveTowards p q d).sqrDistance q ≤ p.sqrDistance q - d ^ 2

namespace PathEnemy

/-- How many steps of length `d` a distance takes at most, of which the square is given. -/
def steps (d sqr : ℚ) : ℕ := ⌈sqr / d ^ 2⌉₊

/-- From one point of the path to the next, out of the range of the first one. -/
def legs (d range : ℚ) : List Vector2 → ℕ
  | p :: q :: path => steps d (2 * range ^ 2 + 2 * p.sqrDistance q) + 1 + legs d range (q :: path)
  | _ => 0

def toTarget (d : ℚ) (e : PathEnemy) : ℕ :=
  steps d (e.position.toVector2.sqrDistance e.currentSelectedPositon)

def ahead (d : ℚ) (e : PathEnemy) : ℕ := e.toTarget d + legs d e.range (e.path.drop e.place)

def framesToEnd (deltaTime : ℚ) (e : PathEnemy) : ℕ := e.ahead (deltaTime * e.speed) + 1

end PathEnemy

namespace ActiveEnemy

/-- How many fixed updates the enemy can still live through. -/
def framesLeft (deltaTime : ℚ) (e : ActiveEnemy) : ℕ :=
  (if e.path.isAtEnd then 0 else e.path.framesToEnd deltaTime) + ⌈e.despawnTimer / deltaTime⌉₊ + 1

end ActiveEnemy

section Distances

theorem sqrDistance_nonneg (p q : Vector2) : 0 ≤ p.sqrDistance q :=
  add_nonneg (sq_nonneg _) (sq_nonneg _)

theorem sqrDistance_self (p : Vector2) : p.sqrDistance p = 0 := by
  simp [Vector2.sqrDistance]

theorem sqrDistance_triangle (p q r : Vector2) :
    p.sqrDistance r ≤ 2 * p.sqrDistance q + 2 * q.sqrDistance r := by
  have hx := sq_nonneg (p.x - 2 * q.x + r.x)
  have hy := sq_nonneg (p.y - 2 * q.y + r.y)
  simp only [Vector2.sqrDistance]
  linarith

theorem within_iff {range : ℚ} (h : 0 < range) (p q : Vector2) :
    p.within range q = true ↔ p.sqrDistance q < range ^ 2 := by
  rw [Vector2.within, decide_eq_true h, Bool.true_and, decide_eq_true_eq]
  rfl

theorem approx_self (p : Vector2) : p.approx p = true := by
  simp [Vector2.approx]

namespace PathEnemy

theorem steps_mono {d a b : ℚ} (h : a ≤ b) : steps d a ≤ steps d b :=
  Nat.ceil_mono (div_le_div_of_nonneg_right h (sq_nonneg d))

theorem steps_pos {d a : ℚ} (hd : 0 < d) (ha : 0 < a) : 0 < steps d a :=
  Nat.ceil_pos.mpr (div_pos ha (pow_pos hd 2))

theorem steps_sub {d a : ℚ} (hd : 0 < d) (ha : d ^ 2 < a) : steps d (a - d ^ 2) + 1 ≤ steps d a := by
  have hne : d ^ 2 ≠ 0 := (pow_pos hd 2).ne'
  have hone : 1 ≤ a / d ^ 2 := (one_le_div (pow_pos hd 2)).mpr ha.le
  rw [steps, steps, sub_div, div_self hne, Nat.ceil_sub_one]
  have hpos : 0 < ⌈a / d ^ 2⌉₊ := Nat.ceil_pos.mpr (lt_of_lt_of_le one_pos hone)
  omega

theorem steps_moveTowards {moveTowards : Vector2 → Vector2 → ℚ → Vector2} (hm : MovesTowards moveTowards)
    {d : ℚ} (hd : 0 < d) {p q : Vector2} (hne : 0 < p.sqrDistance q) :
    steps d ((moveTowards p q d).sqrDistance q) + 1 ≤ steps d (p.sqrDistance q) := by
  obtain hle | hlt := le_or_gt (p.sqrDistance q) (d ^ 2)
  · have hpos := steps_pos hd hne
    rw [hm.arrives p q d hd.le hle, sqrDistance_self, steps, zero_div, Nat.ceil_zero]
    exact hpos
  · exact (Nat.add_le_add_right (steps_mono (hm.nearer p q d hd.le hlt)) 1).trans (steps_sub hd hlt)

end PathEnemy

end Distances

namespace PathEnemy

variable {moveTowards : Vector2 → Vector2 → ℚ → Vector2} {deltaTime : ℚ} {e : PathEnemy}

structure OnWay (e : PathEnemy) : Prop where
  range : 0 < e.range
  speed : 0 < e.speed
  isBoss : e.isBoss = false
  index : 0 ≤ e.currentIndex.toInt
  target : e.path[e.place]? = some e.currentSelectedPositon

theorem OnWay.drop_place (h : e.OnWay) :
    e.path.drop e.place = e.currentSelectedPositon :: e.path.drop (e.place + 1) := by
  obtain ⟨hlt, hget⟩ := List.getElem?_eq_some_iff.mp h.target
  rw [List.drop_eq_getElem_cons hlt, hget]

theorem legs_cons (d range : ℚ) (p q : Vector2) (path : List Vector2) : legs d range (p :: q :: path) =
    steps d (2 * range ^ 2 + 2 * p.sqrDistance q) + 1 + legs d range (q :: path) := rfl

theorem toTarget_leg {t : PathEnemy} (hrange : 0 < e.range) (hr : e.inRange = true)
    (hp : t.position = e.position) (d : ℚ) : t.toTarget d ≤
      steps d (2 * e.range ^ 2 + 2 * e.currentSelectedPositon.sqrDistance t.currentSelectedPositon) := by
  have hnear : e.position.toVector2.sqrDistance e.currentSelectedPositon < e.range ^ 2 :=
    (within_iff hrange _ _).mp hr
  have htriangle :=
    sqrDistance_triangle e.position.toVector2 e.currentSelectedPositon t.currentSelectedPositon
  rw [toTarget, hp]
  exact steps_mono (by linarith)

theorem OnWay.found (h : e.OnWay) (hfit : e.currentIndex.toInt + 1 < 2 ^ 31) (d : ℚ) :
    ∃ t, e.findClosestPosition = .returns t ∧ t.OnWay ∧ t.speed = e.speed ∧ t.position = e.position ∧
      t.isAtEnd = e.isAtEnd ∧ t.currentIndex.toInt ≤ e.currentIndex.toInt + 1 ∧
      (t.ahead d + 1 ≤ e.ahead d ∨ t.ahead d = e.ahead d ∧
        (t.inRange = true → t.currentSelectedPositon = t.posData.endPosition)) := by
  cases hr : e.inRange with
  | false =>
    exact ⟨e, findClosestPosition_far hr, h, rfl, rfl, rfl, by omega, Or.inr ⟨rfl, by simp [hr]⟩⟩
  | true =>
    obtain ⟨t, ht, hposData, hrange, hspeed, hisBoss, hposition, hisAtEnd, hcurrentIndex, htarget⟩ :
        ∃ t, e.findClosestPosition = .returns t ∧ t.posData = e.posData ∧ t.range = e.range ∧
          t.speed = e.speed ∧ t.isBoss = e.isBoss ∧ t.position = e.position ∧ t.isAtEnd = e.isAtEnd ∧
          t.currentIndex = e.currentIndex + 1 ∧ t.currentSelectedPositon =
            e.posData.intermedatePos[e.currentIndex.toInt.toNat + 1]?.getD e.posData.endPosition :=
      ⟨_, findClosestPosition_near hr h.index hfit, rfl, rfl, rfl, rfl, rfl, rfl, rfl, rfl⟩
    have hindex : t.currentIndex.toInt = e.currentIndex.toInt + 1 :=
      (congrArg Int32.toInt hcurrentIndex).trans (toInt_add_of_lt h.index hfit)
    have h0 := h.index
    have hnat : t.currentIndex.toInt.toNat = e.currentIndex.toInt.toNat + 1 := by omega
    have hpath : t.path = e.path := by rw [path, path, hposData]
    have hway : t.OnWay := by
      refine ⟨hrange ▸ h.range, hspeed ▸ h.speed, hisBoss.trans h.isBoss, by omega, ?_⟩
      rw [path_place hnat, htarget, hposData]
    refine ⟨t, ht, hway, hspeed, hposition, hisAtEnd, hindex.le, ?_⟩
    obtain hlt | hle := lt_or_ge e.currentIndex.toInt.toNat e.posData.intermedatePos.length
    · have hplace : t.place = e.place + 1 := by
        rw [place, place, hnat, hposData]
        omega
      have hleg := toTarget_leg (t := t) h.range hr hposition d
      have hrest := hway.drop_place
      rw [hpath, hplace] at hrest
      left
      rw [ahead, ahead, h.drop_place, hrest, legs_cons, hpath, hplace, hrest, hrange]
      omega
    · have hplace : t.place = e.place := by
        rw [place, place, hnat, hposData]
        omega
      have hend : t.currentSelectedPositon = e.posData.endPosition := by
        rw [htarget, List.getElem?_eq_none (by omega), Option.getD_none]
      have hsame : t.currentSelectedPositon = e.currentSelectedPositon := by
        have hget := hway.target
        rw [hpath, hplace, h.target] at hget
        exact (Option.some.inj hget).symm
      refine Or.inr ⟨?_, fun _ => hend.trans (congrArg _ hposData.symm)⟩
      rw [ahead, ahead, toTarget, toTarget, hposition, hsame, hrange, hpath, hplace]

theorem doMovement_state {t : PathEnemy} (h : e.findClosestPosition = .returns t) :
    (e.doMovement moveTowards deltaTime).state =
      let m := t.moveTo (moveTowards t.position.toVector2 t.currentSelectedPositon (deltaTime * t.speed))
      if m.reachedEnd then { m with isAtEnd := true, isDead := false } else m := by
  rw [PathEnemy.doMovement, h]
  rfl

theorem OnWay.moved {t : PathEnemy} (h : t.OnWay) (hm : MovesTowards moveTowards) {d : ℚ} (hd : 0 < d)
    (hend : (t.moveTo (moveTowards t.position.toVector2 t.currentSelectedPositon d)).reachedEnd = false) :
    let m := t.moveTo (moveTowards t.position.toVector2 t.currentSelectedPositon d)
    m.ahead d + 1 ≤ t.ahead d ∨ m.ahead d = t.ahead d ∧
      ¬(t.inRange = true → t.currentSelectedPositon = t.posData.endPosition) := by
  obtain hzero | hpos := (sqrDistance_nonneg t.position.toVector2 t.currentSelectedPositon).eq_or_lt
  · have harrives := hm.arrives _ _ _ hd.le (hzero.symm.le.trans (sq_nonneg d))
    have hrange : t.inRange = true := (within_iff h.range _ _).mpr (hzero ▸ pow_pos h.range 2)
    rw [harrives] at hend ⊢
    refine Or.inr ⟨?_, fun hsame => ?_⟩
    · change steps d (t.currentSelectedPositon.sqrDistance t.currentSelectedPositon) + _ = _
      rw [sqrDistance_self, hzero]
      rfl
    · have hreached : (t.moveTo t.currentSelectedPositon).reachedEnd = true := by
        rw [reachedEnd, Bool.and_eq_true, hsame hrange]
        exact ⟨approx_self _, by simp [moveTo, h.isBoss]⟩
      rw [hreached] at hend
      exact absurd hend (by decide)
  · exact Or.inl (Nat.add_right_comm _ _ _ ▸ Nat.add_le_add_right (steps_moveTowards hm hd hpos) _)

theorem OnWay.doMovement (h : e.OnWay) (hm : MovesTowards moveTowards) (hdelta : 0 < deltaTime)
    (hfit : e.currentIndex.toInt + 1 < 2 ^ 31) {u : PathEnemy}
    (hu : (e.doMovement moveTowards deltaTime).state = u) :
    u.OnWay ∧ u.currentIndex.toInt ≤ e.currentIndex.toInt + 1 ∧ (e.isAtEnd = true → u.isAtEnd = true) ∧
      (u.isAtEnd = true ∨ u.framesToEnd deltaTime + 1 ≤ e.framesToEnd deltaTime) := by
  obtain ⟨t, ht, hway, hspeed, -, hisAtEnd, hindex, hahead⟩ := h.found hfit (deltaTime * e.speed)
  have hd : 0 < deltaTime * e.speed := mul_pos hdelta h.speed
  rw [doMovement_state ht, hspeed] at hu
  dsimp only at hu
  split_ifs at hu with hend
  · subst hu
    exact ⟨⟨hway.range, hway.speed, hway.isBoss, hway.index, hway.target⟩, hindex, fun _ => rfl, Or.inl rfl⟩
  · have hmoved := hway.moved hm hd (Bool.eq_false_iff.mpr hend)
    dsimp only at hmoved
    rw [hu] at hmoved
    subst hu
    refine ⟨⟨hway.range, hway.speed, hway.isBoss, hway.index, hway.target⟩, hindex,
      fun he => hisAtEnd.trans he, Or.inr ?_⟩
    rw [framesToEnd, framesToEnd]
    change ahead (deltaTime * t.speed) _ + 1 + 1 ≤ _
    rw [hspeed]
    obtain hahead | ⟨hahead, hplace⟩ := hahead
    · obtain hmoved | ⟨hmoved, -⟩ := hmoved <;> omega
    · obtain hmoved | ⟨-, hne⟩ := hmoved
      · omega
      · exact absurd hplace hne

end PathEnemy

namespace ActiveEnemy

variable {moveTowards : Vector2 → Vector2 → ℚ → Vector2} {deltaTime : ℚ} {e : ActiveEnemy} {n : ℕ}

/-- The index still fits when all frames that are left have gone by. -/
structure Leaving (deltaTime : ℚ) (n : ℕ) (e : ActiveEnemy) : Prop where
  way : e.path.OnWay
  frames : e.path.currentIndex.toInt + e.framesLeft deltaTime ≤ n

theorem fixedUpdate_framesLeft (h : e.path.OnWay) (hm : MovesTowards moveTowards) (hdelta : 0 < deltaTime)
    (hfit : e.path.currentIndex.toInt + 1 < 2 ^ 31) :
    let u := e.fixedUpdate moveTowards deltaTime
    u.path.OnWay ∧ u.path.currentIndex.toInt ≤ e.path.currentIndex.toInt + 1 ∧
      (e.path.isAtEnd = true → u.path.isAtEnd = true) ∧
      u.framesLeft deltaTime + (!e.path.isAtEnd).toNat ≤ e.framesLeft deltaTime := by
  obtain ⟨u, hu⟩ : ∃ u, (e.path.doMovement moveTowards deltaTime).state = u := ⟨_, rfl⟩
  obtain ⟨hway, hindex, hstays, hframes⟩ := h.doMovement hm hdelta hfit hu
  rw [fixedUpdate, hu]
  refine ⟨hway, hindex, hstays, ?_⟩
  have hpos : 0 < e.path.framesToEnd deltaTime := Nat.succ_pos _
  simp only [framesLeft]
  cases hend : e.path.isAtEnd with
  | true => simp [hstays hend]
  | false =>
    simp only [Bool.false_eq_true, if_false, Bool.not_false, Bool.toNat_true]
    split_ifs with hat
    · omega
    · have hless := hframes.resolve_left hat
      omega

theorem shouldDestroy_framesLeft (hdelta : 0 < deltaTime) {sequencerAtEnd : Bool}
    (hd : (e.shouldDestroy sequencerAtEnd deltaTime).1 = false) :
    let u := (e.shouldDestroy sequencerAtEnd deltaTime).2
    u.path = e.path ∧ u.framesLeft deltaTime + e.path.isAtEnd.toNat ≤ e.framesLeft deltaTime := by
  cases hend : e.path.isAtEnd with
  | false => simp [shouldDestroy, hend]
  | true =>
    have htimer : 0 < e.despawnTimer ∧ (e.shouldDestroy sequencerAtEnd deltaTime).2 =
        { e with despawnTimer := e.despawnTimer - deltaTime } := by
      cases sequencerAtEnd with
      | true => simp [shouldDestroy, hend] at hd
      | false =>
        simp only [shouldDestroy, hend, Bool.and_false, Bool.false_eq_true, if_false, Bool.not_false,
          Bool.and_true, if_true] at hd ⊢
        split_ifs at hd ⊢ with ht
        exact ⟨not_le.mp ht, rfl⟩
    have hpos : 0 < ⌈e.despawnTimer / deltaTime⌉₊ := Nat.ceil_pos.mpr (div_pos htimer.1 hdelta)
    dsimp only
    rw [htimer.2]
    refine ⟨rfl, ?_⟩
    simp only [framesLeft, hend, if_true, sub_div, div_self hdelta.ne', Nat.ceil_sub_one, Bool.toNat_true]
    omega

theorem Leaving.update (h : e.Leaving deltaTime n) (hm : MovesTowards moveTowards) (hdelta : 0 < deltaTime)
    (hn : n < 2 ^ 31) (first sequencerAtEnd : Bool) {a b u : ActiveEnemy}
    (ha : a = if first then e.fixedUpdate moveTowards deltaTime else e)
    (hb : b = (a.shouldDestroy sequencerAtEnd deltaTime).2)
    (hd : (a.shouldDestroy sequencerAtEnd deltaTime).1 = false)
    (hu : u = if first then b else b.fixedUpdate moveTowards deltaTime) :
    u.Leaving deltaTime n ∧ u.framesLeft deltaTime + 1 ≤ e.framesLeft deltaTime := by
  have hpos : 0 < e.framesLeft deltaTime := Nat.succ_pos _
  have hframes := h.frames
  have hfit : e.path.currentIndex.toInt + 1 < 2 ^ 31 := by omega
  obtain ⟨hpath, hasked⟩ := shouldDestroy_framesLeft hdelta hd
  rw [← hb] at hpath hasked
  cases first with
  | true =>
    obtain ⟨hway, hindex, hstays, hmoved⟩ := fixedUpdate_framesLeft h.way hm hdelta hfit
    simp only [if_true] at ha hu
    rw [← ha] at hway hindex hstays hmoved
    have hless : u.framesLeft deltaTime + 1 ≤ e.framesLeft deltaTime := by
      rw [hu]
      cases hend : e.path.isAtEnd with
      | true =>
        rw [hstays hend, Bool.toNat_true] at hasked
        omega
      | false =>
        rw [hend, Bool.not_false, Bool.toNat_true] at hmoved
        omega
    refine ⟨⟨hu ▸ hpath ▸ hway, ?_⟩, hless⟩
    rw [hu, hpath]
    rw [hu] at hless
    omega
  | false =>
    simp only [Bool.false_eq_true, if_false] at ha hu
    subst ha
    rw [← hpath] at hfit
    obtain ⟨hway, hindex, -, hmoved⟩ :=
      fixedUpdate_framesLeft (e := b) (hpath ▸ h.way) hm hdelta hfit
    rw [← hu] at hway hindex hmoved
    have hless : u.framesLeft deltaTime + 1 ≤ a.framesLeft deltaTime := by
      rw [hpath] at hmoved
      cases hend : a.path.isAtEnd <;> simp only [hend, Bool.not_true, Bool.not_false, Bool.toNat_true,
        Bool.toNat_false] at hmoved hasked <;> omega
    refine ⟨⟨hway, ?_⟩, hless⟩
    rw [hpath] at hindex
    omega

end ActiveEnemy

end SeminarTouhou
