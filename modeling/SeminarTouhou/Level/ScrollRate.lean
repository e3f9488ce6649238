import SeminarTouhou.Level.BackgroundScroll

namespace SeminarTouhou

open Library

theorem clamp_of_mem {value min max : ℚ} (h : value ∈ Set.Ico min max) : clamp value min max = value := by
  rw [clamp, if_neg (not_lt.mpr h.1), if_neg (not_lt.mpr h.2.le)]

theorem mathfRepeat_eq {length : ℚ} (h : 0 < length) (t : ℚ) :
    mathfRepeat t length = toIcoMod h 0 t := by
  have hmod : t - ⌊t / length⌋ * length = toIcoMod h 0 t := by
    rw [← self_sub_toIcoDiv_zsmul h 0 t, toIcoDiv_eq_floor, sub_zero, zsmul_eq_mul]
  rw [mathfRepeat, hmod]
  exact clamp_of_mem (toIcoMod_mem_Ico' h t)

theorem mathfRepeat_mem {length : ℚ} (h : 0 < length) (t : ℚ) :
    mathfRepeat t length ∈ Set.Ico 0 length := by
  rw [mathfRepeat_eq h]
  exact toIcoMod_mem_Ico' h t

/-- A step shorter than the length stays in this round or begins the next one. -/
theorem mathfRepeat_add {length step : ℚ} (h0 : 0 ≤ step) (h : step < length) (t : ℚ) :
    mathfRepeat t length + step < length ∧ mathfRepeat (t + step) length = mathfRepeat t length + step ∨
      length ≤ mathfRepeat t length + step ∧
        mathfRepeat (t + step) length = mathfRepeat t length + step - length := by
  have hlength : 0 < length := h0.trans_lt h
  obtain ⟨hlow, hhigh⟩ := mathfRepeat_mem hlength t
  have hrounds : t = mathfRepeat t length + toIcoDiv hlength 0 t • length := by
    rw [mathfRepeat_eq hlength, toIcoMod_add_toIcoDiv_zsmul]
  rw [mathfRepeat_eq hlength (t + step), toIcoMod_eq_iff, toIcoMod_eq_iff]
  obtain hlt | hle := lt_or_ge (mathfRepeat t length + step) length
  · refine Or.inl ⟨hlt, ⟨by linarith, by linarith⟩, toIcoDiv hlength 0 t, ?_⟩
    linarith
  · refine Or.inr ⟨hle, ⟨by linarith, by linarith⟩, toIcoDiv hlength 0 t + 1, ?_⟩
    rw [add_zsmul, one_zsmul]
    linarith

theorem BackgroundManager.poll_mem {looped : BackgroundRoutine → Bool} {b : BackgroundManager}
    {routines : List (BackgroundRoutine × ℕ)} {c : BackgroundRoutine × ℕ}
    (h : c ∈ (b.poll looped routines).2) :
    c ∈ routines ∨ c.2 = 2 ∧ ∃ d ∈ routines, looped d.1 = true := by
  induction routines generalizing b with
  | nil => exact Or.inl h
  | cons e routines ih =>
    have hrest {d : BackgroundManager} (hc : c ∈ (d.poll looped routines).2) :
        c ∈ e :: routines ∨ c.2 = 2 ∧ ∃ d ∈ e :: routines, looped d.1 = true := by
      refine (ih hc).imp (List.mem_cons_of_mem e) ?_
      rintro ⟨hc, d, hd, hl⟩
      exact ⟨hc, d, List.mem_cons_of_mem e hd, hl⟩
    rw [poll] at h
    split_ifs at h with hdue
    · obtain h | h := List.mem_append.mp h
      · obtain ⟨d, -, rfl⟩ := List.mem_map.mp h
        exact Or.inr ⟨rfl, e, List.mem_cons_self, hdue.2⟩
      · exact hrest h
    · obtain rfl | h := List.mem_cons.mp h
      · exact Or.inl List.mem_cons_self
      · exact hrest h

namespace ScrollSettings

def step (p : ScrollSettings) : ℚ := p.bgScrollSpeed * p.fixedDeltaTime

end ScrollSettings

namespace ScrollSession

variable {p : ScrollSettings} {s : ScrollSession}

/-- A wrap puts panel 1 where panel 2 would have come. -/
theorem fixedUpdate_moves (h0 : 0 < p.step) (h : p.step < p.panelYSize)
    (hp : s.bgPanels = p.updateBackgroundLevel s.fixedTime) :
    (s.fixedUpdate p).bgPanels.panel1 = s.bgPanels.panel1 - p.step ∧
        (s.fixedUpdate p).behind = s.behind ∨
      (s.fixedUpdate p).bgPanels.panel1 = s.bgPanels.panel2 - p.step ∧
        (s.fixedUpdate p).behind = s.behind ++ [s.manager.bgPanel2] ∧
        s.bgPanels.panel1 - p.step ≤ -p.panelYSize ∧ -p.step ≤ (s.fixedUpdate p).bgPanels.panel1 := by
  have htime : (s.fixedTime + p.fixedDeltaTime) * p.bgScrollSpeed =
      s.fixedTime * p.bgScrollSpeed + p.step := by
    rw [ScrollSettings.step]
    ring
  obtain ⟨hlow, hhigh⟩ := mathfRepeat_mem (h0.trans h) (s.fixedTime * p.bgScrollSpeed)
  simp only [fixedUpdate, hp, ScrollSettings.updateBackgroundLevel, ScrollSettings.updateLevel, htime]
  obtain ⟨hlt, he⟩ | ⟨hle, he⟩ := mathfRepeat_add h0.le h (s.fixedTime * p.bgScrollSpeed)
  · left
    rw [he, if_neg (by linarith)]
    exact ⟨by linarith, rfl⟩
  · right
    rw [he, if_pos (by linarith)]
    exact ⟨by linarith, rfl, by linarith, by linarith⟩

/-- A frame is drawn between a wrap and the next fixed update, as always with no more than one fixed
update in a frame. -/
def DrawsLoop (s : ScrollSession) : ScrollAction → Prop
  | .fixedUpdate => s.behind = []
  | _ => True

instance (s : ScrollSession) (a : ScrollAction) : Decidable (s.DrawsLoop a) := by
  rcases a with ⟨⟩ <;> dsimp only [DrawsLoop] <;> infer_instance

structure Paced (p : ScrollSettings) (s : ScrollSession) : Prop where
  placed : s.bgPanels = p.updateBackgroundLevel s.fixedTime
  near : s.behind ≠ [] → -p.step ≤ s.bgPanels.panel1
  waiting : ∀ c ∈ s.transition, c.2 = 0 ∨
    s.behind = [] ∧ c.2 * p.step - s.bgPanels.panel1 ≤ 3 * p.step

theorem backgroundLooped_iff (panels : Panels) :
    p.backgroundLooped panels = true ↔ -p.step ≤ panels.panel1 := by
  rw [ScrollSettings.backgroundLooped, ScrollSettings.levelLooped, decide_eq_true_iff,
    ScrollSettings.step, neg_mul]

theorem Paced.waiting_succ (h : s.Paced p) {c : BackgroundRoutine × ℕ}
    (hc : c ∈ (s.fixedUpdate p).transition) :
    c.2 = 0 ∨ (c.2 + 1) * p.step - s.bgPanels.panel1 ≤ 3 * p.step := by
  rw [fixedUpdate_transition] at hc
  obtain ⟨⟨d, n⟩, hd, rfl⟩ := List.mem_map.mp hc
  cases n with
  | zero => exact Or.inl rfl
  | succ n =>
    obtain hzero | ⟨-, hway⟩ := h.waiting _ hd
    · cases hzero
    · push_cast at hway
      exact Or.inr hway

theorem Paced.fixedUpdate (h : s.Paced p) (h0 : 0 < p.step) (h3 : 3 * p.step < p.panelYSize)
    (hd : s.behind = []) : (s.fixedUpdate p).Paced p := by
  obtain ⟨hp, hb⟩ | ⟨-, -, hend, hnear⟩ := fixedUpdate_moves h0 (by linarith) h.placed
  · refine ⟨rfl, fun hne => absurd (hb.trans hd) hne, ?_⟩
    intro c hc
    refine (h.waiting_succ hc).imp_right (fun hway => ⟨hb.trans hd, ?_⟩)
    rw [hp]
    linarith
  · refine ⟨rfl, fun _ => hnear, ?_⟩
    intro c hc
    -- a coroutine that still waits has the panel too far up to wrap
    refine (h.waiting_succ hc).imp_right (fun hway => ?_)
    have hn : 0 ≤ (c.2 : ℚ) * p.step := mul_nonneg c.2.cast_nonneg h0.le
    linarith

theorem Paced.draw (h : s.Paced p) : (s.draw p).Paced p := by
  refine ⟨h.placed, fun hne => absurd rfl hne, ?_⟩
  intro c hc
  rw [transition, (draw_background s).own] at hc
  obtain hc | ⟨htwo, d, hd, hl⟩ := BackgroundManager.poll_mem hc
  · exact (h.waiting c hc).imp_right (fun hw => ⟨rfl, hw.2⟩)
  · rw [looped_transition hd, backgroundLooped_iff] at hl
    refine Or.inr ⟨rfl, ?_⟩
    rw [htwo]
    change ((2 : ℕ) : ℚ) * p.step - s.bgPanels.panel1 ≤ _
    push_cast
    linarith

theorem Paced.handleTransition (h : s.Paced p) (ht : s.Tracks) (bg cloud shadow : ℤ) :
    (s.handleTransition bg cloud shadow).Paced p := by
  refine ⟨h.placed, h.near, ?_⟩
  intro c hc
  obtain he | ⟨image, newBackground, he⟩ := ht.transition_requested bg cloud shadow
  · rw [he] at hc
    exact h.waiting c hc
  · rw [he] at hc
    obtain hc | hc := List.mem_append.mp hc
    · exact h.waiting c hc
    · rw [List.mem_singleton.mp hc]
      exact Or.inl rfl

theorem Paced.next (h : s.Paced p) (ht : s.Tracks) (h0 : 0 < p.step)
    (h3 : 3 * p.step < p.panelYSize) {a : ScrollAction} (hd : s.DrawsLoop a) : (s.next p a).Paced p := by
  cases a with
  | fixedUpdate => exact h.fixedUpdate h0 h3 hd
  | handleTransition bg cloud shadow => exact h.handleTransition ht bg cloud shadow
  | draw => exact h.draw

theorem Paced.catchesLoop (h : s.Paced p) (a : ScrollAction) : s.CatchesLoop p a := by
  cases a with
  | draw =>
    intro hwrap _
    refine ⟨(backgroundLooped_iff _).mpr (h.near hwrap), ?_⟩
    intro c hc
    exact (h.waiting c hc).resolve_right (fun hw => hwrap hw.1)
  | _ => trivial

theorem start_paced (h0 : 0 < p.step) (h : p.step < p.panelYSize) (l : BackgroundManager)
    (fixedTime : ℚ) : ((start l fixedTime).fixedUpdate p).Paced p := by
  have hnone : ((start l fixedTime).fixedUpdate p).transition = [] := by
    rw [fixedUpdate_transition, (start_tracks l fixedTime).fresh rfl, List.map_nil]
  have hbehind : ((start l fixedTime).fixedUpdate p).behind = [] := by
    refine if_neg (not_lt.mpr ?_)
    exact neg_nonpos.mpr (mathfRepeat_mem (h0.trans h) _).1
  refine ⟨rfl, fun hne => absurd hbehind hne, ?_⟩
  rw [hnone]
  exact fun c hc => absurd hc List.not_mem_nil

/-- With a loop of more than three fixed updates nothing but a frame of several ones shows a seam. -/
theorem seamless_of_drawsLoop (h0 : 0 < p.step) (h3 : 3 * p.step < p.panelYSize)
    {l : BackgroundManager} {fixedTime : ℚ} {as : List ScrollAction}
    (hl : (system p).Legal (start l fixedTime) (.fixedUpdate :: as))
    (hd : (system p).Meets DrawsLoop (start l fixedTime) (.fixedUpdate :: as)) :
    (system p).Meets (Seamless p) (start l fixedTime) (.fixedUpdate :: as) := by
  rw [System.meets_cons]
  refine ⟨trivial, ?_⟩
  refine System.every_step (I := fun s => s.Tracks ∧ s.Paced p) ?_ ?_
    ⟨(start_tracks l fixedTime).fixedUpdate, start_paced h0 (by linarith) l fixedTime⟩
    ((System.legal_cons _ _ _ _).mp hl).2 ((System.meets_cons _ _ _ _ _).mp hd).2
  · rintro s a ⟨ht, hp⟩ he hd
    exact ⟨ht.next he, hp.next ht h0 h3 hd⟩
  · rintro s a ⟨ht, hp⟩ he hd
    exact (ht.catchesLoop_iff a).mpr (hp.catchesLoop a)

end ScrollSession

end SeminarTouhou
