import SeminarTouhou.Level.DropOrder

namespace SeminarTouhou

open Library

namespace DropManager

theorem toInt_bounds {q : ℚ} (h : 1 ≤ q) : 1 ≤ toInt q ∧ (toInt q : ℚ) ≤ q ∧ q < toInt q + 1 := by
  have hnum : 0 ≤ q.num := Rat.num_nonneg.mpr (zero_le_one.trans h)
  have hfloor : toInt q = ⌊q⌋ := by
    rw [toInt, Int.tdiv_eq_ediv_of_nonneg hnum, Rat.floor_def']
  rw [hfloor]
  exact ⟨Int.le_floor.mpr (by exact_mod_cast h), Int.floor_le q, Int.lt_floor_add_one q⟩

end DropManager

theorem Draw.NextIn.bound {r n : ℤ} (h : NextIn r n) : |n| ≤ r := by
  rw [NextIn] at h
  rw [abs_le]
  split_ifs at h with hz
  all_goals omega

theorem Draw.In.bound {r : ℤ} {d : Draw} (h : d.In r) : |d.offset.x| ≤ r ∧ |d.offset.y| ≤ r := by
  have hpart {u : ℚ} {n : ℤ} (hu : 0 ≤ u ∧ u < 1) (hn : NextIn r n) : |u * n| ≤ r := by
    have hnr : |(n : ℚ)| ≤ r := by exact_mod_cast hn.bound
    calc |u * n| = u * |(n : ℚ)| := by rw [abs_mul, abs_of_nonneg hu.1]
      _ ≤ 1 * |(n : ℚ)| := mul_le_mul_of_nonneg_right hu.2.le (abs_nonneg _)
      _ ≤ r := by rw [one_mul]; exact hnr
  exact ⟨hpart h.doubleX h.nextX, hpart h.doubleY h.nextY⟩

namespace DropManager

variable {m : DropManager} {pos : Vector3} {list : List DropCont}

def fresh (rand : ℕ → Draw) (m : DropManager) : DropManager :=
  { m with rand := rand, routines := [], spawned := [] }

structure Within (rad : ℚ) (pos : Vector3) (p : PickUpObject) : Prop where
  x : |p.position.x - pos.x| ≤ rad
  y : |p.position.y - pos.y| ≤ rad

/-- Whatever the generator returns and the order of the coroutines, all pickups are near. -/
def Near (m : DropManager) (drops : DropTypes) : Prop :=
  ∀ rand : ℕ → Draw, (∀ i, (rand i).In (toInt m.spawnRad)) →
    ∀ as, system.Legal ((m.fresh rand).spawnDrops drops) as →
      ∀ p ∈ (system.run ((m.fresh rand).spawnDrops drops) as).spawned,
        Within m.spawnRad drops.locaiton p

/-- The entries that are served and have a prefab ask for one pickup at most. -/
def Single (m : DropManager) (list : List DropCont) : Prop :=
  ∀ drop ∈ m.served list, m.Wanted drop → drop.ammount ≤ 1

structure FirstOnly (pos : Vector3) (m : DropManager) : Prop where
  routines : ∀ r ∈ m.routines, r.left = 0
  spawned : ∀ p ∈ m.spawned, ∃ i, p.position = pos.shift (m.rand i).offset

theorem FirstOnly.start (h : FirstOnly pos m) {prefab : Option ℕ} {n : ℕ}
    (hn : prefab.isSome = true → n ≤ 1) : FirstOnly pos (m.startCoroutine ⟨pos, prefab, n⟩) := by
  rw [startCoroutine_eq]
  rcases m.pass_cases ⟨pos, prefab, n⟩ with ⟨-, hp⟩ | ⟨-, hp⟩ | ⟨left, p, hl, hs, -, hp⟩
  · rw [hp]
    exact ⟨by simpa using h.routines, h.spawned⟩
  · rw [hp]
    exact ⟨by simpa using h.routines, h.spawned⟩
  · obtain rfl : prefab = some p := hs
    have hzero : left = 0 := by
      have hone := hn rfl
      dsimp only at hl
      omega
    rw [hp]
    refine ⟨?_, ?_⟩
    · intro r hr
      rcases List.mem_append.mp hr with hr | hr
      · exact h.routines r hr
      · obtain rfl := List.mem_singleton.mp hr
        exact hzero
    · intro q hq
      rcases List.mem_append.mp hq with hq | hq
      · exact h.spawned q hq
      · obtain rfl := List.mem_singleton.mp hq
        exact ⟨m.drawn, rfl⟩

theorem FirstOnly.resume (h : FirstOnly pos m) {i : ℕ} (hi : i < m.routines.length) :
    FirstOnly pos (m.resume i) := by
  have hleft := h.routines _ (List.getElem_mem hi)
  have hpass : m.pass m.routines[i] = (m, none) := by rw [pass, hleft]
  rw [resume_eq (List.getElem?_eq_getElem hi), hpass]
  refine ⟨?_, h.spawned⟩
  intro r hr
  simp only [Option.toList_none, List.append_nil] at hr
  exact h.routines r (List.mem_of_mem_eraseIdx hr)

theorem FirstOnly.drawn (h : FirstOnly pos m) (n : ℕ) : FirstOnly pos { m with drawn := n } :=
  ⟨h.routines, h.spawned⟩

theorem FirstOnly.spawnLoop (h : FirstOnly pos m) (hs : m.Single list) :
    FirstOnly pos (spawnLoop pos list m) := by
  induction list generalizing m with
  | nil => exact h
  | cons drop list ih =>
    by_cases hgo : m.canDraw = true ∧ drop.dropType ∈ m.relationMap
    · obtain ⟨hd, hk⟩ := hgo
      obtain ⟨prefab, hp⟩ := Dict.exists_lookup hk
      rw [Single, served_cons, if_pos ⟨hd, hk⟩, List.forall_mem_cons] at hs
      have hsame := startCoroutine_sameConfig ⟨pos, prefab, drop.ammount.toNat⟩
        { m with drawn := m.drawn + 1 }
      rw [spawnLoop_cons_known hd hp]
      apply ih
      · apply (h.drawn (m.drawn + 1)).start
        intro hsome
        obtain ⟨p, rfl⟩ := Option.isSome_iff_exists.mp hsome
        by_cases hw : m.Wanted drop
        · have hone := hs.1 hw
          omega
        · rw [Wanted, meant, hp, not_not] at hw
          have hzero := congrArg Multiset.card hw
          simp at hzero
          omega
      · intro e he hw
        rw [hsame.served] at he
        rw [Wanted, hsame.relationMap] at hw
        exact hs.2 e he hw
    · rw [spawnLoop_cons_left hgo]
      exact h.drawn (m.drawn + 1)

theorem near_of_single {drops : DropTypes} (hrad : 1 ≤ m.spawnRad) (hs : m.Single drops.dropList) :
    m.Near drops := by
  intro rand hrand as hl p hp
  have hfirst : FirstOnly drops.locaiton (m.fresh rand) := ⟨by simp [fresh], by simp [fresh]⟩
  have hstart : FirstOnly drops.locaiton ((m.fresh rand).spawnDrops drops) := hfirst.spawnLoop hs
  have hstep : ∀ s i, (FirstOnly drops.locaiton s ∧ SameConfig (m.fresh rand) s) → system.enabled s i →
      FirstOnly drops.locaiton (system.next s i) ∧ SameConfig (m.fresh rand) (system.next s i) := by
    rintro s i ⟨hs, hsame⟩ hi
    exact ⟨hs.resume hi, hsame.trans (resume_sameConfig hi)⟩
  obtain ⟨hend, hsame⟩ := System.invariant_legal hstep ⟨hstart, spawnLoop_sameConfig _ _ _⟩ hl
  obtain ⟨i, hi⟩ := hend.spawned p hp
  obtain ⟨-, hle, -⟩ := DropManager.toInt_bounds hrad
  obtain ⟨hx, hy⟩ := (hrand i).bound
  have hrun : (system.run ((m.fresh rand).spawnDrops drops) as).rand = rand := hsame.rand
  rw [hrun] at hi
  refine ⟨?_, ?_⟩
  · rw [hi, Vector3.shift, add_sub_cancel_left]
    exact hx.trans hle
  · rw [hi, Vector3.shift, add_sub_cancel_left]
    exact hy.trans hle

theorem pass_more (hd : m.canDraw = true) (p n : ℕ) :
    m.pass ⟨pos, some p, n + 1⟩ =
      (instantiate p (pos.shift (m.rand m.drawn).offset) { m with drawn := m.drawn + 1 },
        some ⟨pos.shift (m.rand m.drawn).offset, some p, n⟩) := by
  simp [pass, createSpawnPosition, hd]

theorem mem_routines {d : Draw} (hd : ∀ i, m.rand i = d) {drop : DropCont} {p n : ℕ}
    (hm : drop ∈ m.served list) (hp : m.relationMap.lookup drop.dropType = some (some p))
    (hn : drop.ammount.toNat = n + 1) :
    ⟨pos.shift d.offset, some p, n⟩ ∈ (spawnLoop pos list m).routines := by
  induction list generalizing m with
  | nil => simp [served] at hm
  | cons e list ih =>
    rw [served_cons] at hm
    split_ifs at hm with hgo
    · obtain ⟨prefab, he⟩ := Dict.exists_lookup hgo.2
      have hsame := startCoroutine_sameConfig ⟨pos, prefab, e.ammount.toNat⟩
        { m with drawn := m.drawn + 1 }
      rw [spawnLoop_cons_known hgo.1 he]
      rcases List.mem_cons.mp hm with rfl | hm
      · obtain rfl : some p = prefab := Option.some.inj (hp.symm.trans he)
        apply subset_spawnLoop
        rw [startCoroutine_eq, hn, pass_more (m := { m with drawn := m.drawn + 1 }) hgo.1, hd]
        exact List.mem_append_right _ (List.mem_singleton_self _)
      · apply ih
        · intro i
          rw [hsame.rand]
          exact hd i
        · rw [hsame.served]
          exact hm
        · rw [hsame.relationMap]
          exact hp
    · simp at hm

theorem exists_resume (hd : m.canDraw = true) {p n : ℕ} (h : ⟨pos, some p, n + 1⟩ ∈ m.routines) :
    ∃ i < m.routines.length,
      ⟨p, pos.shift (m.rand m.drawn).offset⟩ ∈ (m.resume i).spawned := by
  obtain ⟨i, hi, hget⟩ := List.mem_iff_getElem.mp h
  refine ⟨i, hi, ?_⟩
  rw [resume_eq (List.getElem?_eq_getElem hi), hget, pass_more hd]
  exact List.mem_append_right _ (List.mem_singleton_self _)

theorem single_of_near {drops : DropTypes} (hrad : 1 ≤ m.spawnRad) (h : m.Near drops) :
    m.Single drops.dropList := by
  intro drop hm hw
  by_contra hmore
  obtain ⟨p, hp⟩ : ∃ p, m.relationMap.lookup drop.dropType = some (some p) := by
    cases hl : m.relationMap.lookup drop.dropType with
    | none => simp [Wanted, meant, hl] at hw
    | some prefab =>
      cases prefab with
      | none => simp [Wanted, meant, hl] at hw
      | some p => exact ⟨p, rfl⟩
  obtain ⟨n, hn⟩ : ∃ n, drop.ammount.toNat = n + 1 + 1 := ⟨drop.ammount.toNat - 2, by omega⟩
  obtain ⟨hone, hle, hlt⟩ := DropManager.toInt_bounds hrad
  -- two steps of nearly the whole radius, in the same direction
  have hr : (1 : ℚ) ≤ toInt m.spawnRad := by exact_mod_cast hone
  obtain ⟨u, hu, hu'⟩ : ∃ u : ℚ, m.spawnRad / (2 * toInt m.spawnRad) < u ∧ u < 1 := by
    apply exists_between
    rw [div_lt_one (by linarith)]
    linarith
  let d : Draw := ⟨u, -toInt m.spawnRad, 0, -toInt m.spawnRad⟩
  have hnext : Draw.NextIn (toInt m.spawnRad) (-toInt m.spawnRad) := by
    rw [Draw.NextIn, if_neg (by omega)]
    omega
  have hpos : 0 ≤ u := (div_nonneg (by linarith) (by linarith)).trans hu.le
  have hd : d.In (toInt m.spawnRad) := ⟨⟨hpos, hu'⟩, hnext, ⟨le_refl 0, zero_lt_one⟩, hnext⟩
  have hmem : ⟨drops.locaiton.shift d.offset, some p, n + 1⟩ ∈
      ((m.fresh fun _ => d).spawnDrops drops).routines :=
    mem_routines (m := m.fresh fun _ => d) (fun _ => rfl) hm hp hn
  have hsame := spawnLoop_sameConfig drops.locaiton drops.dropList (m.fresh fun _ => d)
  have hdraw : ((m.fresh fun _ => d).spawnDrops drops).canDraw = true := by
    rw [spawnDrops, hsame.canDraw]
    exact decide_eq_true (zero_le_one.trans hone)
  obtain ⟨i, hi, hspawned⟩ := exists_resume hdraw hmem
  rw [spawnDrops, hsame.rand] at hspawned
  have hnear := h (fun _ => d) (fun _ => hd) [i] ((system.legal_cons _ i []).mpr ⟨hi, system.meets_nil _ _⟩)
    _ hspawned
  have hx : |drops.locaiton.x + u * ↑(-toInt m.spawnRad) + u * ↑(-toInt m.spawnRad) - drops.locaiton.x| ≤
      m.spawnRad := hnear.x
  rw [div_lt_iff₀ (by linarith)] at hu
  rw [abs_le] at hx
  push_cast at hx
  linarith [hx.1]

/-- Each pass adds its offset to the position of the pass before. -/
theorem near_iff (m : DropManager) (drops : DropTypes) (hrad : 1 ≤ m.spawnRad) :
    m.Near drops ↔ m.Single drops.dropList :=
  ⟨single_of_near hrad, near_of_single hrad⟩

theorem near_power :
    powerOnly.Near ⟨[⟨.power, 1⟩], ⟨0, 4, 0⟩⟩ ↔ powerOnly.Single [⟨.power, 1⟩] :=
  near_iff powerOnly _ (by decide)

theorem secondPickUp_tooFar : ¬ ∀ (m : DropManager) (drops : DropTypes), 1 ≤ m.spawnRad → m.Near drops := by
  intro h
  have hnear := h powerOnly ⟨[⟨.power, 2⟩], ⟨0, 4, 0⟩⟩ (by decide)
    (fun _ => ⟨9 / 10, -5, 0, -5⟩) (fun _ => ⟨by norm_num, by decide +kernel, by norm_num, by decide +kernel⟩)
    [0] (by decide +kernel) ⟨7, ⟨-9, 4, 0⟩⟩ (by decide +kernel)
  exact absurd hnear.x (by decide +kernel)

end DropManager

end SeminarTouhou
