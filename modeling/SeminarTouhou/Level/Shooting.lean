import SeminarTouhou.Library.System
import SeminarTouhou.Engine.GameObject

namespace SeminarTouhou

open Library

structure PlayerBullet where
  y : ℚ
  life : Life
deriving DecidableEq

structure Screen where
  y : ℚ
  height : ℚ
deriving DecidableEq

namespace Screen

def yMin (r : Screen) : ℚ := r.y - r.height / 2

def yMax (r : Screen) : ℚ := r.y + r.height / 2

end Screen

/-- The shooting of `PlayerAttacks`. `routines` are the times at which the `ShootBullets` that wait
began to, `objects` the bullets fired so far and `volleys` the times of the shots. -/
structure Shooting where
  bullets : List ℕ
  isShooting : Bool
  routines : List ℚ
  objects : ℕ → PlayerBullet
  instances : ℕ
  time : ℚ
  volleys : List ℚ

/-- `left` and `right` are where the two bullets of a volley appear. Between the steps the engine
moves the bullets, and enemies destroy them. -/
inductive ShootingAction
  | passTime (deltaTime : ℚ)
  | update (keyDown key : Bool) (left right : ℚ)
  | resume (since : ℚ) (key : Bool) (left right : ℚ)
  | fixedUpdate (deltaTime : ℚ) (screen : Screen)
  | move (x : ℕ) (y : ℚ)
  | hit (x : ℕ)
  | endOfFrame

namespace PlayerBullet

def destroy (o : PlayerBullet) : PlayerBullet := { o with life := o.life.destroy }

def moveUp (dy : ℚ) (o : PlayerBullet) : PlayerBullet := { o with y := o.y + dy }

def outside (r : Screen) (o : PlayerBullet) : Bool := o.y < r.yMin || r.yMax < o.y

end PlayerBullet

namespace Shooting

def start : Shooting := ⟨[], false, [], fun _ => ⟨0, .destroyed⟩, 0, 0, []⟩

def onObject (x : ℕ) (f : PlayerBullet → PlayerBullet) (s : Shooting) : Shooting :=
  { s with objects := Function.update s.objects x (f (s.objects x)) }

def volley (left right : ℚ) (s : Shooting) : Shooting :=
  { s with
    bullets := s.bullets ++ [s.instances, s.instances + 1]
    routines := s.routines ++ [s.time]
    objects := Function.update (Function.update s.objects s.instances ⟨left, .alive⟩)
      (s.instances + 1) ⟨right, .alive⟩
    instances := s.instances + 2
    volleys := s.volleys ++ [s.time] }

/-- The loop of `ShootBullets`, up to its `yield` or its end. -/
def shootBullets (key : Bool) (left right : ℚ) (s : Shooting) : Shooting :=
  if key then s.volley left right else { s with isShooting := false }

def update (keyDown key : Bool) (left right : ℚ) (s : Shooting) : Shooting :=
  if keyDown && !s.isShooting then { s with isShooting := true }.shootBullets key left right else s

def resume (since : ℚ) (key : Bool) (left right : ℚ) (s : Shooting) : Shooting :=
  { s with routines := s.routines.erase since }.shootBullets key left right

def sweepAt (dy : ℚ) (r : Screen) (i : ℕ) (s : Shooting) : Shooting :=
  match s.bullets[i]? with
  | none => s
  | some x =>
    if (s.objects x).life = .destroyed then s
    else
      let s := s.onObject x (PlayerBullet.moveUp dy)
      if (s.objects x).outside r then
        { s.onObject x PlayerBullet.destroy with bullets := s.bullets.eraseIdx i }
      else s

/-- The loop goes from the last bullet to the first, here over the first `n` of them. -/
def sweep (dy : ℚ) (r : Screen) : ℕ → Shooting → Shooting
  | 0, s => s
  | n + 1, s => (s.sweepAt dy r n).sweep dy r n

variable (bulletSpeed bulletDelay : ℚ)

def fixedUpdate (deltaTime : ℚ) (r : Screen) (s : Shooting) : Shooting :=
  s.sweep (bulletSpeed * deltaTime) r s.bullets.length

def next (s : Shooting) : ShootingAction → Shooting
  | .passTime deltaTime => { s with time := s.time + deltaTime }
  | .update keyDown key left right => s.update keyDown key left right
  | .resume since key left right => s.resume since key left right
  | .fixedUpdate deltaTime r => s.fixedUpdate bulletSpeed deltaTime r
  | .move x y => s.onObject x (fun o => { o with y := y })
  | .hit x => s.onObject x PlayerBullet.destroy
  | .endOfFrame => { s with objects := fun x => { s.objects x with life := (s.objects x).life.endOfFrame } }

/-- `WaitForSeconds` waits at least as long as it says. -/
def Enabled (s : Shooting) : ShootingAction → Prop
  | .passTime deltaTime => 0 ≤ deltaTime
  | .resume since _ _ _ => since ∈ s.routines ∧ since + bulletDelay ≤ s.time
  | _ => True

instance (s : Shooting) (a : ShootingAction) : Decidable (s.Enabled bulletDelay a) := by
  cases a <;> dsimp only [Enabled] <;> infer_instance

def system : System Shooting ShootingAction := ⟨Enabled bulletDelay, next bulletSpeed⟩

instance (s : Shooting) (a : ShootingAction) :
    Decidable ((system bulletSpeed bulletDelay).enabled s a) :=
  inferInstanceAs (Decidable (s.Enabled bulletDelay a))

structure Paced (s : Shooting) : Prop where
  single : s.routines.length ≤ 1
  spaced : s.volleys.Pairwise (fun t u => t + bulletDelay ≤ u)

/-- Every bullet that still exists is in the list, and no bullet is in it twice. -/
structure Listed (s : Shooting) : Prop where
  nodup : s.bullets.Nodup
  fired : ∀ x ∈ s.bullets, x < s.instances
  alive : ∀ x < s.instances, (s.objects x).life = .alive → x ∈ s.bullets

/-- Every bullet that still exists is in the list and on the screen. -/
def OnScreen (r : Screen) (s : Shooting) : Prop :=
  s.Listed ∧ ∀ x < s.instances, (s.objects x).life = .alive →
    r.yMin ≤ (s.objects x).y ∧ (s.objects x).y ≤ r.yMax

end Shooting

section Sweep

namespace PlayerBullet

variable (dy : ℚ) (r : Screen)

def turn (o : PlayerBullet) : PlayerBullet :=
  if o.life = .destroyed then o
  else if (o.moveUp dy).outside r then (o.moveUp dy).destroy else o.moveUp dy

def stays (o : PlayerBullet) : Bool := o.life = .destroyed || !(o.moveUp dy).outside r

theorem alive_turn {o : PlayerBullet} (h : (o.turn dy r).life = .alive) :
    o.life = .alive ∧ o.stays dy r = true ∧ r.yMin ≤ (o.turn dy r).y ∧ (o.turn dy r).y ≤ r.yMax := by
  obtain ⟨y, life⟩ := o
  unfold turn at h ⊢
  split_ifs at h ⊢ with hlife hout
  · rw [hlife] at h
    cases h
  · cases life <;> simp [destroy, moveUp, Life.destroy] at h
  · have hin := hout
    simp only [outside, Bool.or_eq_true, decide_eq_true_eq, not_or, not_lt] at hin
    exact ⟨h, by simp [stays, hout], hin⟩

end PlayerBullet

namespace Shooting

variable {dy : ℚ} {r : Screen}

theorem sweepAt_eq {s : Shooting} {n : ℕ} {x : ℕ} (hx : s.bullets[n]? = some x) :
    s.sweepAt dy r n =
      { s with
        bullets := if (s.objects x).stays dy r then s.bullets else s.bullets.eraseIdx n
        objects := Function.update s.objects x ((s.objects x).turn dy r) } := by
  unfold sweepAt
  rw [hx]
  dsimp only
  by_cases hlife : (s.objects x).life = .destroyed
  · have hstays : (s.objects x).stays dy r = true := by simp [PlayerBullet.stays, hlife]
    rw [if_pos hlife, if_pos hstays, PlayerBullet.turn, if_pos hlife, Function.update_eq_self]
  · have hmoved : (s.onObject x (PlayerBullet.moveUp dy)).objects x = (s.objects x).moveUp dy :=
      Function.update_self x _ _
    rw [if_neg hlife, hmoved, PlayerBullet.turn, if_neg hlife]
    by_cases hout : ((s.objects x).moveUp dy).outside r = true
    · have hstays : ¬ (s.objects x).stays dy r = true := by simp [PlayerBullet.stays, hlife, hout]
      rw [if_pos hout, if_pos hout, if_neg hstays]
      simp [onObject]
    · have hstays : (s.objects x).stays dy r = true := by simp [PlayerBullet.stays, hout]
      rw [if_neg hout, if_neg hout, if_pos hstays]
      rfl

/-- The loop treats each bullet once, though it takes bullets out of the list on the way. -/
theorem sweep_eq {s : Shooting} {as bs : List ℕ} (hs : s.bullets = as ++ bs) (hnodup : s.bullets.Nodup) :
    s.sweep dy r as.length =
      { s with
        bullets := as.filter (fun x => (s.objects x).stays dy r) ++ bs
        objects := fun x => if x ∈ as then (s.objects x).turn dy r else s.objects x } := by
  induction as using List.reverseRecOn generalizing s bs with
  | nil =>
    have hbs : bs = s.bullets := hs.symm
    simp [sweep, hbs]
  | append_singleton as x ih =>
    rw [hs, List.append_assoc] at hnodup
    have hlast : s.bullets[as.length]? = some x := by simp [hs]
    have hnot : x ∉ as := by
      intro hx
      exact List.disjoint_of_nodup_append hnodup hx (List.mem_append_left bs List.mem_cons_self)
    have hother {y : ℕ} (hy : y ∈ as) (o : PlayerBullet) : Function.update s.objects x o y = s.objects y :=
      Function.update_of_ne (fun h : y = x => hnot (h ▸ hy)) _ _
    -- The rest of the loop starts from the list with `x` or without it.
    have hrest : (s.sweepAt dy r as.length).bullets =
        as ++ ([x].filter (fun x => (s.objects x).stays dy r) ++ bs) := by
      rw [sweepAt_eq hlast, hs, List.append_assoc]
      split_ifs with hstays
      · simp [hstays]
      · simp [hstays, List.eraseIdx_append_of_length_le]
    have hrestNodup : (s.sweepAt dy r as.length).bullets.Nodup := by
      rw [hrest]
      refine hnodup.sublist (List.Sublist.append_left ?_ as)
      exact List.Sublist.append_right List.filter_sublist bs
    rw [List.length_append, List.length_singleton, sweep, ih hrest hrestNodup, sweepAt_eq hlast,
      List.filter_append, List.append_assoc]
    have hkept : as.filter (fun y => (Function.update s.objects x ((s.objects x).turn dy r) y).stays dy r) =
        as.filter (fun y => (s.objects y).stays dy r) := by
      refine List.filter_congr ?_
      intro y hy
      rw [hother hy]
    have hobjects : (fun y => if y ∈ as then
          (Function.update s.objects x ((s.objects x).turn dy r) y).turn dy r
        else Function.update s.objects x ((s.objects x).turn dy r) y) =
        fun y => if y ∈ as ++ [x] then (s.objects y).turn dy r else s.objects y := by
      funext y
      by_cases hy : y ∈ as
      · rw [if_pos hy, if_pos (List.mem_append_left [x] hy), hother hy]
      · by_cases hyx : y = x
        · subst hyx
          rw [if_neg hy, Function.update_self, if_pos (List.mem_append_right as List.mem_cons_self)]
        · simp [hy, hyx]
    rw [hkept, hobjects]

theorem fixedUpdate_eq (bulletSpeed deltaTime : ℚ) {s : Shooting} (hnodup : s.bullets.Nodup) :
    s.fixedUpdate bulletSpeed deltaTime r =
      { s with
        bullets := s.bullets.filter (fun x => (s.objects x).stays (bulletSpeed * deltaTime) r)
        objects := fun x =>
          if x ∈ s.bullets then (s.objects x).turn (bulletSpeed * deltaTime) r else s.objects x } := by
  rw [fixedUpdate, sweep_eq (List.append_nil _).symm hnodup, List.append_nil]

end Shooting

end Sweep

namespace Shooting

section Steps

variable {s : Shooting} {bulletSpeed bulletDelay : ℚ}

theorem Listed.same (h : s.Listed) {t : Shooting} (hb : t.bullets = s.bullets)
    (hi : t.instances = s.instances)
    (ho : ∀ x, (t.objects x).life = .alive → (s.objects x).life = .alive) : t.Listed := by
  refine ⟨hb ▸ h.nodup, ?_, ?_⟩
  · rw [hb, hi]
    exact h.fired
  · rw [hb, hi]
    exact fun x hx hlife => h.alive x hx (ho x hlife)

theorem Listed.volley (h : s.Listed) (left right : ℚ) : (s.volley left right).Listed := by
  have hnew {x : ℕ} (hx : x ∈ s.bullets) : x ≠ s.instances ∧ x ≠ s.instances + 1 := by
    have hlt := h.fired x hx
    omega
  constructor
  · refine List.nodup_append'.mpr ⟨h.nodup, by simp, ?_⟩
    intro x hx hmem
    have hne := hnew hx
    simp only [List.mem_cons, List.not_mem_nil, or_false] at hmem
    exact hmem.elim hne.1 hne.2
  · intro x hx
    simp only [Shooting.volley, List.mem_append, List.mem_cons, List.not_mem_nil, or_false] at hx ⊢
    rcases hx with hx | rfl | rfl
    · have hlt := h.fired x hx
      omega
    · omega
    · omega
  · intro x hx hlife
    simp only [Shooting.volley, List.mem_append, List.mem_cons, List.not_mem_nil, or_false] at hx hlife ⊢
    by_cases hold : x = s.instances ∨ x = s.instances + 1
    · exact Or.inr hold
    · have hne := not_or.mp hold
      rw [Function.update_of_ne hne.2, Function.update_of_ne hne.1] at hlife
      exact Or.inl (h.alive x (by omega) hlife)

theorem Listed.shootBullets (h : s.Listed) (key : Bool) (left right : ℚ) :
    (s.shootBullets key left right).Listed := by
  rw [Shooting.shootBullets]
  split_ifs
  · exact h.volley left right
  · exact h.same rfl rfl (fun _ => id)

theorem Listed.onObject (h : s.Listed) (x : ℕ) {f : PlayerBullet → PlayerBullet}
    (hf : ∀ o, (f o).life = .alive → o.life = .alive) : (s.onObject x f).Listed := by
  refine h.same rfl rfl ?_
  intro y hy
  by_cases hyx : y = x
  · subst hyx
    simp only [Shooting.onObject, Function.update_self] at hy
    exact hf _ hy
  · simpa only [Shooting.onObject, Function.update_of_ne hyx] using hy

theorem life_destroy {l : Life} : l.destroy ≠ .alive := by
  cases l <;> decide

theorem life_endOfFrame {l : Life} (h : l.endOfFrame = .alive) : l = .alive := by
  cases l <;> first | rfl | cases h

theorem Listed.onScreen (h : s.Listed) (deltaTime : ℚ) (r : Screen) :
    (s.fixedUpdate bulletSpeed deltaTime r).OnScreen r := by
  rw [fixedUpdate_eq bulletSpeed deltaTime h.nodup]
  have hturn {x : ℕ} (hx : x < s.instances) (hlife : (if x ∈ s.bullets then
      (s.objects x).turn (bulletSpeed * deltaTime) r else s.objects x).life = .alive) :
      x ∈ s.bullets ∧ ((s.objects x).turn (bulletSpeed * deltaTime) r).life = .alive := by
    by_cases hmem : x ∈ s.bullets
    · rw [if_pos hmem] at hlife
      exact ⟨hmem, hlife⟩
    · rw [if_neg hmem] at hlife
      exact absurd (h.alive x hx hlife) hmem
  refine ⟨⟨h.nodup.filter _, ?_, ?_⟩, ?_⟩
  · exact fun x hx => h.fired x (List.mem_filter.mp hx).1
  · intro x hx hlife
    obtain ⟨hmem, halive⟩ := hturn hx hlife
    exact List.mem_filter.mpr ⟨hmem, ((s.objects x).alive_turn _ r halive).2.1⟩
  · intro x hx hlife
    obtain ⟨hmem, halive⟩ := hturn hx hlife
    dsimp only
    rw [if_pos hmem]
    exact ((s.objects x).alive_turn _ r halive).2.2

theorem Listed.next (h : s.Listed) (a : ShootingAction) : (s.next bulletSpeed a).Listed := by
  cases a with
  | passTime deltaTime => exact h.same rfl rfl (fun _ => id)
  | update keyDown key left right =>
    rw [Shooting.next, Shooting.update]
    split_ifs
    · exact (h.same (t := { s with isShooting := true }) rfl rfl (fun _ => id)).shootBullets _ _ _
    · exact h
  | resume since key left right =>
    have hrest : { s with routines := s.routines.erase since }.Listed := h.same rfl rfl (fun _ => id)
    exact hrest.shootBullets key left right
  | fixedUpdate deltaTime r => exact (h.onScreen deltaTime r).1
  | move x y => exact h.onObject x (f := fun o => { o with y := y }) (fun _ => id)
  | hit x => exact h.onObject x (fun _ ho => absurd ho life_destroy)
  | endOfFrame => exact h.same rfl rfl (fun _ => life_endOfFrame)

end Steps

theorem start_listed : start.Listed :=
  ⟨List.nodup_nil, fun _ h => absurd h List.not_mem_nil, fun _ h => absurd h (Nat.not_lt_zero _)⟩

/-- After every `FixedUpdate` all bullets that still exist are in the list, each once, and on the
screen: a bullet that leaves it is destroyed, and none is lost. -/
theorem bullets_onScreen (bulletSpeed bulletDelay : ℚ) (as : List ShootingAction) (deltaTime : ℚ)
    (r : Screen) :
    ((system bulletSpeed bulletDelay).run start (as ++ [.fixedUpdate deltaTime r])).OnScreen r := by
  have hlisted : ((system bulletSpeed bulletDelay).run start as).Listed :=
    System.invariant_always (fun _ a h => h.next a) start_listed as
  rw [System.run_append]
  exact hlisted.onScreen deltaTime r

section Pace

variable {s : Shooting} {bulletSpeed bulletDelay : ℚ}

structure Pacing (bulletDelay : ℚ) (s : Shooting) : Prop where
  spaced : s.volleys.Pairwise (fun t u => t + bulletDelay ≤ u)
  past : ∀ t ∈ s.volleys, t ≤ s.time
  idle : s.isShooting = false → s.routines = [] ∧ ∀ t ∈ s.volleys, t + bulletDelay ≤ s.time
  waiting : s.isShooting = true → ∃ since, s.routines = [since] ∧ ∀ t ∈ s.volleys, t ≤ since

theorem Pacing.paced (h : s.Pacing bulletDelay) : s.Paced bulletDelay := by
  refine ⟨?_, h.spaced⟩
  cases hshooting : s.isShooting with
  | false => simp [(h.idle hshooting).1]
  | true =>
    obtain ⟨since, hroutines, -⟩ := h.waiting hshooting
    simp [hroutines]

theorem Pacing.shootBullets {t : Shooting} (hspaced : t.volleys.Pairwise (fun t u => t + bulletDelay ≤ u))
    (hpast : ∀ u ∈ t.volleys, u ≤ t.time) (hroutines : t.routines = []) (hshooting : t.isShooting = true)
    (hready : ∀ u ∈ t.volleys, u + bulletDelay ≤ t.time) (key : Bool) (left right : ℚ) :
    (t.shootBullets key left right).Pacing bulletDelay := by
  cases key with
  | false => exact ⟨hspaced, hpast, fun _ => ⟨hroutines, hready⟩, nofun⟩
  | true =>
    have hpast' : ∀ u ∈ t.volleys ++ [t.time], u ≤ t.time := by
      intro u hu
      rcases List.mem_append.mp hu with hu | hu
      · exact hpast u hu
      · exact (List.mem_singleton.mp hu).le
    refine ⟨?_, hpast', fun h => ?_, fun _ => ⟨t.time, ?_, hpast'⟩⟩
    · refine List.pairwise_append.mpr ⟨hspaced, List.pairwise_singleton _ _, ?_⟩
      intro u hu w hw
      rw [List.mem_singleton.mp hw]
      exact hready u hu
    · exact absurd (h.symm.trans hshooting) Bool.false_ne_true
    · change t.routines ++ [t.time] = [t.time]
      rw [hroutines, List.nil_append]

theorem Pacing.same (h : s.Pacing bulletDelay) {t : Shooting} (hv : t.volleys = s.volleys)
    (ht : t.time = s.time) (hr : t.routines = s.routines) (hi : t.isShooting = s.isShooting) :
    t.Pacing bulletDelay := by
  constructor
  · exact hv ▸ h.spaced
  · rw [hv, ht]
    exact h.past
  · rw [hv, ht, hr, hi]
    exact h.idle
  · rw [hv, hr, hi]
    exact h.waiting

theorem sweep_pace (dy : ℚ) (r : Screen) (n : ℕ) (s : Shooting) :
    (s.sweep dy r n).volleys = s.volleys ∧ (s.sweep dy r n).time = s.time ∧
      (s.sweep dy r n).routines = s.routines ∧ (s.sweep dy r n).isShooting = s.isShooting := by
  induction n generalizing s with
  | zero => exact ⟨rfl, rfl, rfl, rfl⟩
  | succ n ih =>
    rw [sweep]
    cases hx : s.bullets[n]? with
    | none =>
      have hsame : s.sweepAt dy r n = s := by rw [sweepAt, hx]
      rw [hsame]
      exact ih s
    | some x =>
      rw [sweepAt_eq hx]
      exact ih _

theorem Pacing.next (h : s.Pacing bulletDelay) {a : ShootingAction} (he : s.Enabled bulletDelay a) :
    (s.next bulletSpeed a).Pacing bulletDelay := by
  cases a with
  | passTime deltaTime =>
    have hlater : s.time ≤ s.time + deltaTime := le_add_of_nonneg_right he
    refine ⟨h.spaced, fun t ht => (h.past t ht).trans hlater, ?_, h.waiting⟩
    intro hi
    obtain ⟨hroutines, hready⟩ := h.idle hi
    exact ⟨hroutines, fun t ht => (hready t ht).trans hlater⟩
  | update keyDown key left right =>
    rw [Shooting.next, Shooting.update]
    split_ifs with hstarts
    · have hi : s.isShooting = false := by simpa using (Bool.and_eq_true_iff.mp hstarts).2
      obtain ⟨hroutines, hready⟩ := h.idle hi
      exact Pacing.shootBullets (t := { s with isShooting := true }) h.spaced h.past hroutines rfl
        hready key left right
    · exact h
  | resume since key left right =>
    obtain ⟨hmem, hwaited⟩ := he
    cases hi : s.isShooting with
    | false =>
      rw [(h.idle hi).1] at hmem
      exact absurd hmem List.not_mem_nil
    | true =>
      obtain ⟨t, hroutines, hlast⟩ := h.waiting hi
      rw [hroutines] at hmem
      obtain rfl := List.mem_singleton.mp hmem
      have hnone : s.routines.erase since = [] := by rw [hroutines, List.erase_cons_head]
      refine Pacing.shootBullets (t := { s with routines := s.routines.erase since }) h.spaced h.past
        hnone hi ?_ key left right
      exact fun u hu => (add_le_add_left (hlast u hu) _).trans hwaited
  | fixedUpdate deltaTime r =>
    obtain ⟨hv, ht, hr, hi⟩ := sweep_pace (bulletSpeed * deltaTime) r s.bullets.length s
    exact h.same hv ht hr hi
  | move x y => exact h.same rfl rfl rfl rfl
  | hit x => exact h.same rfl rfl rfl rfl
  | endOfFrame => exact h.same rfl rfl rfl rfl

end Pace

/-- However the shoot key is pressed and released, two volleys are at least the delay apart. -/
theorem volleys_paced (bulletSpeed bulletDelay : ℚ) {as : List ShootingAction}
    (hl : (system bulletSpeed bulletDelay).Legal start as) :
    ((system bulletSpeed bulletDelay).run start as).Paced bulletDelay := by
  have hstart : start.Pacing bulletDelay :=
    ⟨List.Pairwise.nil, nofun, fun _ => ⟨rfl, nofun⟩, nofun⟩
  exact (System.invariant_legal (fun _ _ h he => h.next he) hstart hl).paced

theorem volleys_paced_released :
    ((system (9 / 2) (1 / 10)).run start [.update true true (-4) (-4), .passTime (1 / 10),
      .resume 0 false (-4) (-4), .update true true (-4) (-4)]).Paced (1 / 10) :=
  volleys_paced (9 / 2) (1 / 10) (by decide +kernel)

end Shooting

end SeminarTouhou
