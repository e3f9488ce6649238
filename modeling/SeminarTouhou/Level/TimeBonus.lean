import SeminarTouhou.Level.PatrolBoss

namespace SeminarTouhou

open Library

namespace CompletionTimeBonus

variable {list pre post : List CompletionTimeBonus} {time : ℚ} {e : CompletionTimeBonus}

/-- The entry with the smallest limit that the time keeps. -/
structure IsBest (list : List CompletionTimeBonus) (time : ℚ) (e : CompletionTimeBonus) : Prop where
  mem : e ∈ list
  kept : time ≤ e.timeToCompleteIn
  least : ∀ f ∈ list, time ≤ f.timeToCompleteIn → e.timeToCompleteIn ≤ f.timeToCompleteIn

structure RightBonus (list : List CompletionTimeBonus) (time : ℚ) (before after : Int32) : Prop where
  best : ∀ e, IsBest list time e → after = before + e.bonusPoints
  missed : (∀ e ∈ list, e.timeToCompleteIn < time) → after = before

/-- Before the best entry there is none with a larger limit, or the first such brings as much. -/
def InOrder (list : List CompletionTimeBonus) (time : ℚ) : Prop :=
  ∀ pre e post, list = pre ++ e :: post → IsBest list time e →
    ∀ g ∈ pre.find? (fun g => e.timeToCompleteIn ≤ g.timeToCompleteIn), g.bonusPoints = e.bonusPoints

theorem handleBonuses_eq (list : List CompletionTimeBonus) (time : ℚ) (n : Int32) :
    PatrolBoss.handleBonuses time list n =
      n + ((list.find? (fun e => time ≤ e.timeToCompleteIn)).map bonusPoints).getD 0 := by
  induction list with
  | nil => exact (Int32.add_zero n).symm
  | cons e list ih =>
    rw [PatrolBoss.handleBonuses]
    by_cases hkept : time ≤ e.timeToCompleteIn
    · rw [if_pos hkept, List.find?_cons_of_pos (by simpa using hkept)]
      rfl
    · rw [if_neg hkept, List.find?_cons_of_neg (by simpa using hkept), ih]

theorem IsBest.find?_eq (h : IsBest (pre ++ e :: post) time e) :
    (pre ++ e :: post).find? (fun f => time ≤ f.timeToCompleteIn) =
      (pre.find? (fun g => e.timeToCompleteIn ≤ g.timeToCompleteIn)).or (some e) := by
  have hpre : pre.find? (fun f => time ≤ f.timeToCompleteIn) =
      pre.find? (fun g => e.timeToCompleteIn ≤ g.timeToCompleteIn) := by
    apply List.find?_congr
    intro g hg
    rw [decide_eq_decide]
    constructor
    · exact h.least g (List.mem_append_left _ hg)
    · exact h.kept.trans
  rw [List.find?_append, hpre, List.find?_cons_of_pos (by simpa using h.kept)]

theorem IsBest.handleBonuses_iff (h : IsBest (pre ++ e :: post) time e) (n : Int32) :
    PatrolBoss.handleBonuses time (pre ++ e :: post) n = n + e.bonusPoints ↔
      ∀ g ∈ pre.find? (fun g => e.timeToCompleteIn ≤ g.timeToCompleteIn),
        g.bonusPoints = e.bonusPoints := by
  rw [handleBonuses_eq, h.find?_eq, Int32.add_right_inj]
  cases pre.find? (fun g => e.timeToCompleteIn ≤ g.timeToCompleteIn) with
  | none => simp
  | some g => simp

theorem rightBonus_iff (list : List CompletionTimeBonus) (time : ℚ) (n : Int32) :
    RightBonus list time n (PatrolBoss.handleBonuses time list n) ↔ InOrder list time := by
  constructor
  · rintro h pre e post rfl hbest
    exact (hbest.handleBonuses_iff n).mp (h.best e hbest)
  · intro h
    refine ⟨?_, ?_⟩
    · intro e hbest
      obtain ⟨pre, post, rfl⟩ := List.append_of_mem hbest.mem
      exact (hbest.handleBonuses_iff n).mpr (h pre e post rfl hbest)
    · intro hmissed
      have hnone : list.find? (fun e => time ≤ e.timeToCompleteIn) = none := by
        simpa using hmissed
      rw [handleBonuses_eq, hnone]
      exact Int32.add_zero n

end CompletionTimeBonus

namespace PatrolSession

open CompletionTimeBonus

variable (moveTowards : Vector2 → Vector2 → ℚ → Vector2)

/-- `init` is the time of the boss's `Init`, `list` its list as it is configured. -/
def GivesBonus (init : ℚ) (list : List CompletionTimeBonus) (s : PatrolSession) (a : PatrolAction) : Prop :=
  match a with
  | .stage time _ =>
    if s.Kills a then
      RightBonus list (time - init) s.playerTimeBonus (s.next moveTowards a).playerTimeBonus
    else (s.next moveTowards a).playerTimeBonus = s.playerTimeBonus
  | _ => (s.next moveTowards a).playerTimeBonus = s.playerTimeBonus

def KillsInOrder (init : ℚ) (list : List CompletionTimeBonus) (s : PatrolSession) (a : PatrolAction) : Prop :=
  match a with
  | .stage time _ => s.Kills a = true → InOrder list (time - init)
  | _ => True

/-- Without stages `Init` throws before it reads the clock, but then nothing kills the boss. -/
structure Tracked (init : ℚ) (list : List CompletionTimeBonus) (s : PatrolSession) : Prop where
  list : s.boss.completionTimeBonusList = list
  time : s.boss.stages ≠ [] → s.boss.mTimeTracker = init

variable {moveTowards} {init : ℚ} {list : List CompletionTimeBonus} {s : PatrolSession} {a : PatrolAction}

theorem act_tracks (moveTowards : Vector2 → Vector2 → ℚ → Vector2) (b : PatrolBoss) (a : PatrolAction) :
    (act moveTowards b a).completionTimeBonusList = b.completionTimeBonusList ∧
      (act moveTowards b a).mTimeTracker = b.mTimeTracker ∧
      (act moveTowards b a).stages = b.stages := by
  cases a with
  | stage time a =>
    have hstages := StageSession.act_stages a b.toStagedEnemy
    simp only [act, PatrolBoss.after, PatrolBoss.specialMoveHandeler]
    split_ifs
    all_goals exact ⟨rfl, rfl, hstages⟩
  | fixedUpdate deltaTime =>
    simp only [act, PatrolBoss.fixedUpdate, PatrolBoss.doMovement]
    repeat' split
    all_goals exact ⟨rfl, rfl, rfl⟩
  | moveAgain => exact ⟨rfl, rfl, rfl⟩

theorem start_tracked (b : PatrolBoss) (init : ℚ) (n : Int32) :
    (start b init n).Tracked init b.completionTimeBonusList := by
  simp only [start, PatrolBoss.init, StagedEnemy.init]
  cases hstage : b.stages[0]? with
  | none =>
    have hnil : b.stages = [] := by simpa using hstage
    exact ⟨rfl, fun h => absurd hnil h⟩
  | some stage =>
    dsimp only [Outcome.returns]
    split
    all_goals exact ⟨rfl, fun _ => rfl⟩

theorem Tracked.next (h : s.Tracked init list) : (s.next moveTowards a).Tracked init list := by
  obtain ⟨hlist, htime, hstages⟩ := act_tracks moveTowards s.boss a
  refine ⟨hlist.trans h.list, ?_⟩
  intro hs
  exact htime.trans (h.time (hstages ▸ hs))

theorem stages_of_kills (h : s.Kills a = true) : s.boss.stages ≠ [] := by
  rcases a with ⟨time, _ | _ | _ | _ | _⟩ | _ | _
  case stage.hit damage deltaTime player =>
    intro hnil
    simp only [Kills, TempEnemy.takeDamage, hnil, List.getElem?_nil] at h
    split_ifs at h
  all_goals cases h

theorem Tracked.givesBonus_iff (h : s.Tracked init list) :
    s.GivesBonus moveTowards init list a ↔ s.KillsInOrder init list a := by
  cases a with
  | stage time b =>
    rw [GivesBonus, KillsInOrder, PatrolSession.next]
    by_cases hk : s.Kills (.stage time b) = true
    · rw [if_pos hk, forall_prop_of_true hk]
      dsimp only
      rw [if_pos hk, bonusAfter, h.list, h.time (stages_of_kills hk)]
      exact rightBonus_iff list (time - init) s.playerTimeBonus
    · rw [if_neg hk]
      exact iff_of_true (if_neg hk) (fun hkills => absurd hkills hk)
  | fixedUpdate deltaTime => exact iff_of_true rfl trivial
  | moveAgain => exact iff_of_true rfl trivial

/-- The scan takes the first limit that is kept, and nothing has put the list in order. -/
theorem right_bonus_iff (b : PatrolBoss) (init : ℚ) (n : Int32) {as : List PatrolAction}
    (hl : (system moveTowards).Legal (start b init n) as) :
    (system moveTowards).Meets (GivesBonus moveTowards init b.completionTimeBonusList) (start b init n)
        as ↔
      (system moveTowards).Meets (KillsInOrder init b.completionTimeBonusList) (start b init n) as :=
  System.meets_iff (fun _ _ h _ _ => Tracked.next h) (fun _ _ h _ => h.givesBonus_iff)
    (start_tracked b init n) hl

def dummy : StagedEnemy :=
  .prefab .midBoss [⟨1, 0⟩] [none] [[]] (.new [] false) ⟨0, 4, 0⟩

/-- `MoveTowards` where the way to the target is along an axis, so that no root is taken. -/
def alongAxis (current target : Vector2) (maxDistanceDelta : ℚ) : Vector2 :=
  let distance := |target.x - current.x| + |target.y - current.y|
  if distance ≤ maxDistanceDelta then target
  else ⟨current.x + (target.x - current.x) / distance * maxDistanceDelta,
    current.y + (target.y - current.y) / distance * maxDistanceDelta⟩

theorem right_bonus_inOrder :
    let b := MiniBoss.prefab dummy [⟨20, 25⟩, ⟨5, 30⟩] ⟨⟨0, 0⟩, ⟨0, 0⟩, [⟨0, 2⟩, ⟨-6, 2⟩]⟩
    let as := [.fixedUpdate (1 / 50), .stage 38 (.hit 5 (1 / 60) none)]
    (system alongAxis).Meets (GivesBonus alongAxis 10 b.completionTimeBonusList) (start b 10 0) as ↔
      (system alongAxis).Meets (KillsInOrder 10 b.completionTimeBonusList) (start b 10 0) as :=
  right_bonus_iff _ 10 0 (by decide +kernel)

theorem longestFirst_wrongBonus : ¬ ∀ (b : PatrolBoss) init n as,
    (b.completionTimeBonusList.map timeToCompleteIn).Nodup →
    (system alongAxis).Legal (start b init n) as →
    (system alongAxis).Meets (GivesBonus alongAxis init b.completionTimeBonusList) (start b init n) as := by
  intro h
  let b := Boss.prefab dummy [⟨5, 100⟩, ⟨20, 70⟩] ⟨⟨0, 0⟩, ⟨0, 0⟩, [⟨0, 2⟩, ⟨-6, 2⟩]⟩
  let kill : PatrolAction := .stage 60 (.hit 5 (1 / 60) none)
  have hgives := h b 0 0 [kill] (by decide +kernel) (by decide +kernel)
  obtain ⟨hkills, -⟩ := ((system alongAxis).meets_cons _ _ kill []).mp hgives
  have hkill : Kills (start b 0 0) kill = true := by decide +kernel
  have hgiven : (next alongAxis (start b 0 0) kill).playerTimeBonus = 5 := by decide +kernel
  rw [GivesBonus, if_pos hkill, hgiven] at hkills
  have hbest : IsBest b.completionTimeBonusList (60 - 0) ⟨20, 70⟩ :=
    ⟨by decide +kernel, by norm_num, by decide +kernel⟩
  exact absurd (hkills.best _ hbest) (by decide)

end PatrolSession

end SeminarTouhou
