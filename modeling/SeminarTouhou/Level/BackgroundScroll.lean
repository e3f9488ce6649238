import SeminarTouhou.Level.BackgroundSession
import SeminarTouhou.Level.LevelSession

namespace SeminarTouhou

open Library

def mathfRepeat (t length : ℚ) : ℚ := clamp (t - ⌊t / length⌋ * length) 0 length

inductive ParalaxLevel
  | background
  | cloud
  | cloudShadow
deriving DecidableEq

def BackgroundRoutine.level : BackgroundRoutine → ParalaxLevel
  | .startBackgroundTransition _ _ => .background
  | .continueBackgroundTransition _ _ => .background
  | .finishBackgroundTransition _ => .background
  | .startCloudLevelTransition _ _ => .cloud
  | .finishCloudLevelTransition _ => .cloud
  | .startCloudShadowLevelTransition _ => .cloudShadow
  | .finishCloudShadowLevelTransition _ => .cloudShadow

def ofBackground (c : BackgroundRoutine × ℕ) : Bool := c.1.level = .background

structure Panels where
  panel1 : ℚ
  panel2 : ℚ
deriving DecidableEq

structure ScrollSettings where
  bgScrollSpeed : ℚ
  cloudScrollSpeed : ℚ
  cloudShadowsScrollSpeed : ℚ
  panelYSize : ℚ
  fixedDeltaTime : ℚ
deriving DecidableEq

namespace ScrollSettings

def updateLevel (p : ScrollSettings) (scrollSpeed fixedTime : ℚ) : Panels :=
  ⟨-mathfRepeat (fixedTime * scrollSpeed) p.panelYSize,
    -mathfRepeat (fixedTime * scrollSpeed) p.panelYSize + p.panelYSize⟩

def updateBackgroundLevel (p : ScrollSettings) : ℚ → Panels := p.updateLevel p.bgScrollSpeed

def updateCloudLevel (p : ScrollSettings) : ℚ → Panels := p.updateLevel p.cloudScrollSpeed

def updateCloudShadowLevel (p : ScrollSettings) : ℚ → Panels := p.updateLevel p.cloudShadowsScrollSpeed

def levelLooped (p : ScrollSettings) (scrollSpeed : ℚ) (panels : Panels) : Bool :=
  decide (-scrollSpeed * p.fixedDeltaTime ≤ panels.panel1)

def backgroundLooped (p : ScrollSettings) : Panels → Bool := p.levelLooped p.bgScrollSpeed

def cloudLevelLooped (p : ScrollSettings) : Panels → Bool := p.levelLooped p.cloudScrollSpeed

def cloudShadowLevelLooped (p : ScrollSettings) : Panels → Bool :=
  p.levelLooped p.cloudShadowsScrollSpeed

end ScrollSettings

/-- The frame's polls of the coroutines, in their order; each comes with the fixed updates that it
still waits for. Two of them follow every loop. -/
def BackgroundManager.poll (looped : BackgroundRoutine → Bool) :
    BackgroundManager → List (BackgroundRoutine × ℕ) → BackgroundManager × List (BackgroundRoutine × ℕ)
  | b, [] => (b, [])
  | b, c :: routines =>
    if c.2 = 0 ∧ looped c.1 then
      let o := b.resumed c.1
      let q := poll looped o.1 routines
      (q.1, o.2.map (fun d => (d, 2)) ++ q.2)
    else
      let q := poll looped b routines
      (q.1, c :: q.2)

/-- The background over the frames, with at most one transition. `behind` has what panel 2 showed
just before panel 1 wrapped to the top, for each time this happened since a frame was drawn. -/
structure ScrollSession where
  manager : BackgroundManager
  waits : List ℕ
  fixedTime : ℚ
  bgPanels : Panels
  cloudPanels : Panels
  cloudShadowsPanels : Panels
  requested : Bool
  behind : List (Option Sprite)

inductive ScrollAction
  | fixedUpdate
  | handleTransition (newBackgroundIndex newCloudLevelIndex newCloudShadowLevelIndex : ℤ)
  | draw
deriving DecidableEq

namespace ScrollSession

def routines (s : ScrollSession) : List (BackgroundRoutine × ℕ) := s.manager.routines.zip s.waits

def transition (s : ScrollSession) : List (BackgroundRoutine × ℕ) := s.routines.filter ofBackground

/-- After `Start`: the prefab of the panels is at the origin. -/
def start (l : BackgroundManager) (fixedTime : ℚ) : ScrollSession :=
  ⟨l.loaded.start, [], fixedTime, ⟨0, 0⟩, ⟨0, 0⟩, ⟨0, 0⟩, false, []⟩

variable (p : ScrollSettings)

def looped (s : ScrollSession) (c : BackgroundRoutine) : Bool :=
  match c.level with
  | .background => p.backgroundLooped s.bgPanels
  | .cloud => p.cloudLevelLooped s.cloudPanels
  | .cloudShadow => p.cloudShadowLevelLooped s.cloudShadowsPanels

def fixedUpdate (s : ScrollSession) : ScrollSession :=
  let fixedTime := s.fixedTime + p.fixedDeltaTime
  let bgPanels := p.updateBackgroundLevel fixedTime
  { s with
    fixedTime := fixedTime
    bgPanels := bgPanels
    cloudPanels := p.updateCloudLevel fixedTime
    cloudShadowsPanels := p.updateCloudShadowLevel fixedTime
    waits := s.waits.map Nat.pred
    behind :=
      if s.bgPanels.panel1 < bgPanels.panel1 then s.behind ++ [s.manager.bgPanel2] else s.behind }

def handleTransition (bg cloud shadow : ℤ) (s : ScrollSession) : ScrollSession :=
  let manager := s.manager.handle (.transitionBG bg cloud shadow)
  { s with
    manager := manager
    waits := s.waits ++ List.replicate (manager.routines.length - s.manager.routines.length) 0
    requested := true }

def draw (s : ScrollSession) : ScrollSession :=
  let q := s.manager.poll (s.looped p) s.routines
  { s with
    manager := { q.1 with routines := q.2.map Prod.fst }
    waits := q.2.map Prod.snd
    behind := [] }

def next (s : ScrollSession) : ScrollAction → ScrollSession
  | .fixedUpdate => s.fixedUpdate p
  | .handleTransition bg cloud shadow => s.handleTransition bg cloud shadow
  | .draw => s.draw p

def Enabled (s : ScrollSession) : ScrollAction → Prop
  | .handleTransition _ _ _ => s.requested = false
  | _ => True

instance (s : ScrollSession) (a : ScrollAction) : Decidable (s.Enabled a) := by
  rcases a with ⟨⟩ <;> dsimp only [Enabled] <;> infer_instance

def system : System ScrollSession ScrollAction := ⟨Enabled, next p⟩

instance (s : ScrollSession) (a : ScrollAction) : Decidable ((system p).enabled s a) :=
  inferInstanceAs (Decidable (s.Enabled a))

/-- In the drawn frame panel 1 shows what panel 2 showed before the wrap. -/
def Seamless (s : ScrollSession) : ScrollAction → Prop
  | .draw => ∀ sprite ∈ s.behind, (s.next p .draw).manager.bgPanel1 = sprite
  | _ => True

/-- If panel 1 wrapped while the panels show different sprites, it is no further below the top than a
fixed update takes it, and the transition has seen the two fixed updates after its last loop. -/
def CatchesLoop (s : ScrollSession) : ScrollAction → Prop
  | .draw => s.behind ≠ [] → s.manager.bgPanel1 ≠ s.manager.bgPanel2 →
    p.backgroundLooped s.bgPanels = true ∧ ∀ c ∈ s.transition, c.2 = 0
  | _ => True

instance (s : ScrollSession) (a : ScrollAction) : Decidable (s.CatchesLoop p a) := by
  rcases a with ⟨⟩ <;> dsimp only [CatchesLoop] <;> infer_instance

end ScrollSession

namespace BackgroundManager

variable {looped : BackgroundRoutine → Bool} {b : BackgroundManager}

theorem resumed_own {c : BackgroundRoutine} {n : ℕ} (h : ofBackground (c, n) = true) :
    ∀ d ∈ (b.resumed c).2, ofBackground (d, 2) = true := by
  cases c with
  | startBackgroundTransition | continueBackgroundTransition =>
    intro d hd
    obtain rfl := List.mem_singleton.mp hd
    rfl
  | finishBackgroundTransition => exact fun d hd => absurd hd List.not_mem_nil
  | _ => cases h

theorem resumed_other {c : BackgroundRoutine} {n : ℕ} (h : ofBackground (c, n) = false) :
    (b.resumed c).1.bgPanel1 = b.bgPanel1 ∧ (b.resumed c).1.bgPanel2 = b.bgPanel2 ∧
      ∀ d ∈ (b.resumed c).2, ofBackground (d, 2) = false := by
  cases c with
  | startBackgroundTransition | continueBackgroundTransition | finishBackgroundTransition => cases h
  | startCloudLevelTransition newLevelSprite loops =>
    cases loops <;> simp [resumed, ofBackground, BackgroundRoutine.level]
  | finishCloudLevelTransition | startCloudShadowLevelTransition | finishCloudShadowLevelTransition =>
    simp [resumed, ofBackground, BackgroundRoutine.level]

theorem resumed_panels (c : BackgroundRoutine) {d : BackgroundManager} (h1 : b.bgPanel1 = d.bgPanel1)
    (h2 : b.bgPanel2 = d.bgPanel2) :
    (b.resumed c).1.bgPanel1 = (d.resumed c).1.bgPanel1 ∧
      (b.resumed c).1.bgPanel2 = (d.resumed c).1.bgPanel2 ∧ (b.resumed c).2 = (d.resumed c).2 := by
  cases c with
  | startCloudLevelTransition newLevelSprite loops => cases loops <;> exact ⟨h1, h2, rfl⟩
  | startBackgroundTransition => exact ⟨h1, rfl, rfl⟩
  | continueBackgroundTransition => exact ⟨rfl, rfl, rfl⟩
  | finishBackgroundTransition => exact ⟨rfl, h2, rfl⟩
  | finishCloudLevelTransition | startCloudShadowLevelTransition | finishCloudShadowLevelTransition =>
    exact ⟨h1, h2, rfl⟩

theorem resumed_routines (c : BackgroundRoutine) (routines : List BackgroundRoutine) :
    { b with routines := routines }.resumed c =
      ({ (b.resumed c).1 with routines := routines }, (b.resumed c).2) := by
  cases c with
  | startCloudLevelTransition newLevelSprite loops => cases loops <;> rfl
  | _ => rfl

theorem resume_length (done rest : List BackgroundRoutine) (c : BackgroundRoutine) :
    { b with routines := done ++ c :: rest }.resume done.length =
      { (b.resumed c).1 with routines := done ++ (b.resumed c).2 ++ rest } := by
  have hat : (done ++ c :: rest)[done.length]? = some c := by
    rw [List.getElem?_append_right (le_refl _), Nat.sub_self, List.getElem?_cons_zero]
  have hdrop : (done ++ c :: rest).drop (done.length + 1) = rest := by
    rw [List.drop_append, List.drop_eq_nil_of_le (Nat.le_succ _), Nat.add_sub_cancel_left]
    rfl
  rw [resume]
  dsimp only
  rw [hat]
  dsimp only
  rw [resumed_routines, List.take_left, hdrop]

theorem poll_resumes (looped : BackgroundRoutine → Bool) (done : List BackgroundRoutine)
    (routines : List (BackgroundRoutine × ℕ)) (b : BackgroundManager) :
    ∃ rs : List ℕ, { (b.poll looped routines).1 with
        routines := done ++ (b.poll looped routines).2.map Prod.fst } =
      rs.foldl (fun b r => b.resume r) { b with routines := done ++ routines.map Prod.fst } := by
  induction routines generalizing done b with
  | nil => exact ⟨[], rfl⟩
  | cons c routines ih =>
    rw [poll]
    split_ifs with hdue
    · obtain ⟨rs, hrs⟩ := ih (done ++ (b.resumed c.1).2) (b.resumed c.1).1
      refine ⟨done.length :: rs, ?_⟩
      rw [List.foldl_cons, List.map_cons, resume_length]
      simpa only [List.map_append, List.map_map, Function.comp_def, List.map_id', List.append_assoc]
        using hrs
    · obtain ⟨rs, hrs⟩ := ih (done ++ [c.1]) b
      refine ⟨rs, ?_⟩
      simpa only [List.map_cons, List.append_assoc, List.singleton_append] using hrs

theorem Built.resumeAll {l : BackgroundManager} (h : Built l b) (rs : List ℕ) :
    Built l (rs.foldl (fun b r => b.resume r) b) := by
  induction rs generalizing b with
  | nil => exact h
  | cons r rs ih => exact ih (h.resume r)

/-- `o` and `q` show the same background, and `q` has only the coroutines of the background. -/
structure SameBackground (o q : BackgroundManager × List (BackgroundRoutine × ℕ)) : Prop where
  panel1 : o.1.bgPanel1 = q.1.bgPanel1
  panel2 : o.1.bgPanel2 = q.1.bgPanel2
  own : o.2.filter ofBackground = q.2

theorem SameBackground.poll (looped : BackgroundRoutine → Bool)
    {routines own : List (BackgroundRoutine × ℕ)} {d : BackgroundManager}
    (h : SameBackground (b, routines) (d, own)) :
    SameBackground (b.poll looped routines) (d.poll looped own) := by
  obtain ⟨h1, h2, rfl⟩ := h
  dsimp only at h1 h2 ⊢
  induction routines generalizing b d with
  | nil => exact ⟨h1, h2, rfl⟩
  | cons c routines ih =>
    cases hown : ofBackground c with
    | true =>
      rw [List.filter_cons_of_pos hown, BackgroundManager.poll, BackgroundManager.poll]
      split_ifs with hdue
      · obtain ⟨hr1, hr2, hrest⟩ := resumed_panels c.1 h1 h2
        obtain ⟨hp1, hp2, hlist⟩ := ih hr1 hr2
        refine ⟨hp1, hp2, ?_⟩
        dsimp only
        rw [List.filter_append, hlist, ← hrest, List.filter_eq_self.mpr]
        intro e he
        obtain ⟨r, hr, rfl⟩ := List.mem_map.mp he
        exact resumed_own hown r hr
      · obtain ⟨hp1, hp2, hlist⟩ := ih h1 h2
        exact ⟨hp1, hp2, (List.filter_cons_of_pos hown).trans (congrArg _ hlist)⟩
    | false =>
      have hother : ¬ofBackground c = true := Bool.eq_false_iff.mp hown
      rw [List.filter_cons_of_neg hother, BackgroundManager.poll]
      split_ifs with hdue
      · obtain ⟨hr1, hr2, hrest⟩ := resumed_other (b := b) hown
        obtain ⟨hp1, hp2, hlist⟩ := ih (hr1.trans h1) (hr2.trans h2)
        refine ⟨hp1, hp2, ?_⟩
        rw [List.filter_append, hlist, List.filter_eq_nil_iff.mpr, List.nil_append]
        intro e he
        obtain ⟨r, hr, rfl⟩ := List.mem_map.mp he
        exact Bool.eq_false_iff.mp (hrest r hr)
      · obtain ⟨hp1, hp2, hlist⟩ := ih h1 h2
        exact ⟨hp1, hp2, (List.filter_cons_of_neg hother).trans hlist⟩

end BackgroundManager

/-- How far the one transition has come, and what the panels show then. -/
inductive Chain : List (BackgroundRoutine × ℕ) → Option Sprite → Option Sprite → Prop
  | settled (sprite : Option Sprite) : Chain [] sprite sprite
  | starting (transitionBackground newBackground : Sprite) (n : ℕ) (sprite : Option Sprite) :
    Chain [(.startBackgroundTransition transitionBackground newBackground, n)] sprite sprite
  | continuing (transitionBackground newBackground : Sprite) (n : ℕ) (sprite : Option Sprite) :
    Chain [(.continueBackgroundTransition transitionBackground newBackground, n)] sprite
      (some transitionBackground)
  | finishing (newBackground : Sprite) (n : ℕ) (sprite : Option Sprite) :
    Chain [(.finishBackgroundTransition newBackground, n)] sprite (some newBackground)

namespace Chain

variable {looped : BackgroundRoutine → Bool} {b : BackgroundManager}
  {routines : List (BackgroundRoutine × ℕ)}

theorem setWaits {shown1 shown2 : Option Sprite} (h : Chain routines shown1 shown2) (f : ℕ → ℕ) :
    Chain (routines.map (Prod.map id f)) shown1 shown2 := by
  cases h with
  | settled => exact .settled _
  | starting t n => exact .starting t n _ _
  | continuing t n => exact .continuing t n _ _
  | finishing n => exact .finishing n _ _

theorem poll_singleton (c : BackgroundRoutine × ℕ) : b.poll looped [c] =
    if c.2 = 0 ∧ looped c.1 = true then
      ((b.resumed c.1).1, (b.resumed c.1).2.map (fun d => (d, 2)))
    else (b, [c]) := by
  rw [BackgroundManager.poll]
  split_ifs
  · simp only [BackgroundManager.poll, List.append_nil]
  · rfl

theorem poll (h : Chain routines b.bgPanel1 b.bgPanel2) :
    Chain (b.poll looped routines).2 (b.poll looped routines).1.bgPanel1
      (b.poll looped routines).1.bgPanel2 := by
  generalize h1 : b.bgPanel1 = shown1 at h
  generalize h2 : b.bgPanel2 = shown2 at h
  cases h with
  | settled =>
    rw [BackgroundManager.poll, h1, h2]
    exact .settled _
  | starting t n =>
    rw [poll_singleton]
    split_ifs
    · exact .continuing t n 2 _
    · rw [h1, h2]
      exact .starting t n _ _
  | continuing t n =>
    rw [poll_singleton]
    split_ifs
    · exact .finishing n 2 _
    · rw [h1, h2]
      exact .continuing t n _ _
  | finishing n =>
    rw [poll_singleton]
    split_ifs
    · dsimp only [BackgroundManager.resumed]
      rw [h2]
      exact .settled _
    · rw [h1, h2]
      exact .finishing n _ _

theorem poll_singleton_panel1 {c : BackgroundRoutine × ℕ}
    (hc : (b.resumed c.1).1.bgPanel1 = b.bgPanel2) :
    (b.poll looped [c]).1.bgPanel1 = b.bgPanel2 ↔
      (b.bgPanel1 ≠ b.bgPanel2 → c.2 = 0 ∧ looped c.1 = true) := by
  rw [poll_singleton]
  split_ifs with hdue
  · exact iff_of_true hc (fun _ => hdue)
  · constructor
    · intro he hne
      exact absurd he hne
    · intro hd
      by_contra hne
      exact hdue (hd hne)

theorem takesOver_iff (h : Chain routines b.bgPanel1 b.bgPanel2) :
    (b.poll looped routines).1.bgPanel1 = b.bgPanel2 ↔
      (b.bgPanel1 ≠ b.bgPanel2 → ∀ c ∈ routines, c.2 = 0 ∧ looped c.1 = true) := by
  generalize h1 : b.bgPanel1 = shown1 at h
  generalize h2 : b.bgPanel2 = shown2 at h
  cases h with
  | settled => exact iff_of_true h1 (fun hne => absurd rfl hne)
  | starting t n =>
    refine iff_of_true ?_ (fun hne => absurd rfl hne)
    rw [poll_singleton]
    split_ifs
    · exact h1
    · exact h1
  | continuing t n =>
    rw [← h1, ← h2, List.forall_mem_singleton]
    exact poll_singleton_panel1 h2.symm
  | finishing n =>
    rw [← h1, ← h2, List.forall_mem_singleton]
    exact poll_singleton_panel1 h2.symm

theorem settled_eq {shown1 shown2 : Option Sprite} (h : Chain [] shown1 shown2) : shown1 = shown2 := by
  cases h with
  | settled => rfl

theorem ne_nil {shown1 shown2 : Option Sprite} (h : Chain routines shown1 shown2)
    (hne : shown1 ≠ shown2) : routines ≠ [] := by
  cases h with
  | settled => exact absurd rfl hne
  | starting => exact absurd rfl hne
  | continuing => exact List.cons_ne_nil _ _
  | finishing => exact List.cons_ne_nil _ _

end Chain

theorem BackgroundManager.handleTransition_starts {b c : BackgroundManager} {bg cloud shadow : ℤ}
    (h : b.handleTransition bg cloud shadow = .ok c) :
    ∃ image newBackground newCloud newShadow, c = { b with
      routines := b.routines ++ [.startBackgroundTransition image newBackground,
        .startCloudLevelTransition newCloud 1, .startCloudShadowLevelTransition newShadow] } := by
  simp only [handleTransition, bind_eq_ok, notNull_eq_ok, find_eq_ok, pure, Except.pure,
    Except.ok.injEq] at h
  obtain ⟨_, -, newCloud, -, newShadow, -, shown, -, newBackground, -, image, -, rfl⟩ := h
  exact ⟨image, newBackground, newCloud, newShadow, rfl⟩

namespace ScrollSession

variable {p : ScrollSettings} {s : ScrollSession}

structure Tracks (s : ScrollSession) : Prop where
  aligned : s.manager.routines.length = s.waits.length
  fresh : s.requested = false → s.transition = []
  chain : Chain s.transition s.manager.bgPanel1 s.manager.bgPanel2
  behind : ∀ sprite ∈ s.behind, sprite = s.manager.bgPanel2

theorem start_tracks (l : BackgroundManager) (fixedTime : ℚ) : (start l fixedTime).Tracks := by
  have hroutines : l.loaded.start.routines = [] ∧ l.loaded.start.bgPanel1 = l.loaded.start.bgPanel2 := by
    simp only [BackgroundManager.start, BackgroundManager.paralaxSetUp]
    repeat' split
    all_goals exact ⟨rfl, rfl⟩
  have hnone : (start l fixedTime).transition = [] := by
    rw [transition, routines, start, hroutines.1]
    rfl
  refine ⟨congrArg _ hroutines.1, fun _ => hnone, ?_, fun _ h => absurd h List.not_mem_nil⟩
  rw [hnone, start, hroutines.2]
  exact .settled _

theorem fixedUpdate_transition (s : ScrollSession) :
    (s.fixedUpdate p).transition = s.transition.map (Prod.map id Nat.pred) := by
  rw [transition, routines, fixedUpdate, List.zip_map_right, List.filter_map]
  rfl

theorem Tracks.fixedUpdate (h : s.Tracks) : (s.fixedUpdate p).Tracks := by
  constructor
  · exact h.aligned.trans (List.length_map _).symm
  · intro hr
    rw [fixedUpdate_transition, h.fresh hr, List.map_nil]
  · rw [fixedUpdate_transition]
    exact h.chain.setWaits _
  · intro sprite hm
    rw [ScrollSession.fixedUpdate] at hm
    dsimp only at hm
    split_ifs at hm
    · obtain hm | hm := List.mem_append.mp hm
      · exact h.behind sprite hm
      · exact List.mem_singleton.mp hm
    · exact h.behind sprite hm

theorem draw_routines (s : ScrollSession) :
    (s.draw p).routines = (s.manager.poll (s.looped p) s.routines).2 :=
  (List.zip_of_prod rfl rfl).symm

theorem draw_background (s : ScrollSession) : BackgroundManager.SameBackground
    ((s.draw p).manager, (s.draw p).routines) (s.manager.poll (s.looped p) s.transition) := by
  have hsame : BackgroundManager.SameBackground (s.manager, s.routines) (s.manager, s.transition) :=
    ⟨rfl, rfl, rfl⟩
  obtain ⟨h1, h2, hown⟩ := hsame.poll (s.looped p)
  exact ⟨h1, h2, (congrArg _ (draw_routines s)).trans hown⟩

theorem Tracks.draw (h : s.Tracks) : (s.draw p).Tracks := by
  obtain ⟨h1, h2, hown⟩ := draw_background (p := p) s
  constructor
  · exact (List.length_map _).trans (List.length_map _).symm
  · intro hr
    rw [transition, hown, h.fresh hr]
    rfl
  · rw [transition, hown, h1, h2]
    exact h.chain.poll
  · exact fun _ hm => absurd hm List.not_mem_nil

theorem handleTransition_cases (bg cloud shadow : ℤ) (s : ScrollSession) :
    s.handleTransition bg cloud shadow = { s with requested := true } ∨
      ∃ image newBackground newCloud newShadow, s.handleTransition bg cloud shadow = { s with
        manager := { s.manager with
          routines := s.manager.routines ++ [.startBackgroundTransition image newBackground,
            .startCloudLevelTransition newCloud 1, .startCloudShadowLevelTransition newShadow] }
        waits := s.waits ++ [0, 0, 0]
        requested := true } := by
  simp only [handleTransition, BackgroundManager.handle]
  cases ht : s.manager.handleTransition bg cloud shadow with
  | error e =>
    left
    simp only [Nat.sub_self, List.replicate_zero, List.append_nil]
  | ok c =>
    right
    obtain ⟨image, newBackground, newCloud, newShadow, rfl⟩ :=
      BackgroundManager.handleTransition_starts ht
    refine ⟨image, newBackground, newCloud, newShadow, ?_⟩
    simp only [List.length_append, Nat.add_sub_cancel_left]
    rfl

theorem Tracks.transition_requested (h : s.Tracks) (bg cloud shadow : ℤ) :
    (s.handleTransition bg cloud shadow).transition = s.transition ∨
      ∃ image newBackground, (s.handleTransition bg cloud shadow).transition =
        s.transition ++ [(.startBackgroundTransition image newBackground, 0)] := by
  obtain he | ⟨image, newBackground, newCloud, newShadow, he⟩ := handleTransition_cases bg cloud shadow s
  · rw [he]
    exact Or.inl rfl
  · refine Or.inr ⟨image, newBackground, ?_⟩
    rw [transition, routines, he, List.zip_append h.aligned, List.filter_append]
    rfl

theorem handleTransition_frame (bg cloud shadow : ℤ) (s : ScrollSession) :
    (s.handleTransition bg cloud shadow).manager.bgPanel1 = s.manager.bgPanel1 ∧
      (s.handleTransition bg cloud shadow).manager.bgPanel2 = s.manager.bgPanel2 := by
  obtain he | ⟨_, _, _, _, he⟩ := handleTransition_cases bg cloud shadow s
  all_goals
    rw [he]
    exact ⟨rfl, rfl⟩

theorem Tracks.handleTransition (h : s.Tracks) (hr : s.requested = false) (bg cloud shadow : ℤ) :
    (s.handleTransition bg cloud shadow).Tracks := by
  obtain ⟨h1, h2⟩ := handleTransition_frame bg cloud shadow s
  have hchain := h.chain
  constructor
  · obtain he | ⟨_, _, _, _, he⟩ := handleTransition_cases bg cloud shadow s
    · rw [he]
      exact h.aligned
    · rw [he, List.length_append, List.length_append, h.aligned]
      rfl
  · exact nofun
  · rw [h1, h2]
    obtain he | ⟨image, newBackground, he⟩ := h.transition_requested bg cloud shadow
    · rwa [he]
    · rw [h.fresh hr] at he hchain
      rw [he, hchain.settled_eq]
      exact .starting image newBackground 0 _
  · rw [h2]
    exact h.behind

theorem Tracks.next (h : s.Tracks) {a : ScrollAction} (he : s.Enabled a) : (s.next p a).Tracks := by
  cases a with
  | fixedUpdate => exact h.fixedUpdate
  | handleTransition bg cloud shadow => exact h.handleTransition he bg cloud shadow
  | draw => exact h.draw

theorem Tracks.draw_resumes (h : s.Tracks) :
    ∃ rs : List ℕ, (s.draw p).manager = rs.foldl (fun b r => b.resume r) s.manager := by
  obtain ⟨rs, hrs⟩ := BackgroundManager.poll_resumes (s.looped p) [] s.routines s.manager
  refine ⟨rs, ?_⟩
  rwa [routines, List.map_fst_zip h.aligned.le] at hrs

/-- The scrolling only decides when the coroutines of the manager go on. -/
theorem built_run {l : BackgroundManager} (hc : l.Configured) {fixedTime : ℚ} {as : List ScrollAction}
    (hl : (system p).Legal (start l fixedTime) as) :
    l.Built ((system p).run (start l fixedTime) as).manager := by
  refine (System.invariant_legal (I := fun s => s.Tracks ∧ l.Built s.manager) ?_
    ⟨start_tracks l fixedTime, l.loaded_built.start hc rfl⟩ hl).2
  rintro s a ⟨ht, hb⟩ he
  refine ⟨ht.next he, ?_⟩
  cases a with
  | fixedUpdate => exact hb
  | handleTransition bg cloud shadow => exact hb.handle (.transitionBG bg cloud shadow)
  | draw =>
    obtain ⟨rs, hrs⟩ := ht.draw_resumes (p := p)
    change l.Built (s.draw p).manager
    rw [hrs]
    exact hb.resumeAll rs

theorem looped_transition {c : BackgroundRoutine × ℕ} (h : c ∈ s.transition) :
    s.looped p c.1 = p.backgroundLooped s.bgPanels := by
  have hlevel : c.1.level = .background := of_decide_eq_true (List.mem_filter.mp h).2
  rw [looped, hlevel]

theorem Tracks.catchesLoop_iff (h : s.Tracks) (a : ScrollAction) : s.Seamless p a ↔ s.CatchesLoop p a := by
  cases a with
  | draw =>
    have hdraw : (s.next p .draw).manager.bgPanel1 = s.manager.bgPanel2 ↔
        (s.manager.bgPanel1 ≠ s.manager.bgPanel2 →
          p.backgroundLooped s.bgPanels = true ∧ ∀ c ∈ s.transition, c.2 = 0) := by
      rw [ScrollSession.next, (draw_background s).panel1, h.chain.takesOver_iff]
      refine imp_congr_right fun hne => ?_
      obtain ⟨c, hc⟩ := List.exists_mem_of_ne_nil _ (h.chain.ne_nil hne)
      constructor
      · intro hall
        exact ⟨looped_transition hc ▸ (hall c hc).2, fun d hd => (hall d hd).1⟩
      · intro hall d hd
        exact ⟨hall.2 d hd, (looped_transition hd).trans hall.1⟩
    constructor
    · intro hseam hwrap
      obtain ⟨sprite, hm⟩ := List.exists_mem_of_ne_nil _ hwrap
      exact hdraw.mp ((hseam sprite hm).trans (h.behind sprite hm))
    · intro hcatch sprite hm
      rw [h.behind sprite hm]
      exact hdraw.mpr (hcatch (List.ne_nil_of_mem hm))
  | _ => exact Iff.rfl

/-- The loop is polled once a frame, in a window that is one fixed update wide: a frame with more fixed
updates steps over it, and then panel 1 takes its old sprite to the top. -/
theorem seamless_iff {l : BackgroundManager} {fixedTime : ℚ} {as : List ScrollAction}
    (hl : (system p).Legal (start l fixedTime) as) :
    (system p).Meets (Seamless p) (start l fixedTime) as ↔
      (system p).Meets (CatchesLoop p) (start l fixedTime) as :=
  System.meets_iff (fun _ _ h he _ => h.next he) (fun _ a h _ => h.catchesLoop_iff a)
    (start_tracks l fixedTime) hl

/-- Ten units of panel at three a second, one fixed update a second. -/
def slowPanels : ScrollSettings := ⟨3, 5, 2, 10, 1⟩

def frame (fixedUpdates : ℕ) : List ScrollAction := List.replicate fixedUpdates .fixedUpdate ++ [.draw]

/-- A transition is requested after the first frame, and has passed its first loop. -/
def firstLoop : List ScrollAction :=
  frame 1 ++ [.handleTransition 1 0 0] ++ frame 1 ++ frame 1 ++ frame 1 ++ frame 1 ++ frame 1

open BackgroundSession (level)

theorem seamless_oneStep :
    let as := firstLoop ++ frame 1 ++ frame 0 ++ frame 1
    (system slowPanels).Meets (Seamless slowPanels) (start level 0) as ↔
      (system slowPanels).Meets (CatchesLoop slowPanels) (start level 0) as :=
  seamless_iff (by decide +kernel)

/-- The frame with the second loop has two fixed updates. -/
theorem secondStep_showsSeam : ¬ ∀ p l fixedTime as,
    0 < p.bgScrollSpeed * p.fixedDeltaTime → p.bgScrollSpeed * p.fixedDeltaTime < p.panelYSize →
    (system p).Legal (start l fixedTime) as → (system p).Meets (Seamless p) (start l fixedTime) as := by
  intro h
  have hlast := (system slowPanels).meets_concat
    (h slowPanels level 0 (firstLoop ++ [.fixedUpdate, .fixedUpdate] ++ [.draw])
      (by decide +kernel) (by decide +kernel) (by decide +kernel))
  have hbehind := hlast (some ⟨"GrassToLake"⟩) (by decide +kernel)
  revert hbehind
  decide +kernel

end ScrollSession

end SeminarTouhou
