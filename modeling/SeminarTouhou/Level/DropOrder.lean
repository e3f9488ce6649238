import SeminarTouhou.Level.DropManager

namespace SeminarTouhou

open Library

namespace DropManager

variable {m m' : DropManager} {r : SpawnObjects} {drops : DropTypes} {list pre post : List DropCont}

def pickups (m : DropManager) : Multiset ℕ := m.spawned.map PickUpObject.prefab

def owes (m : DropManager) (r : SpawnObjects) : Multiset ℕ :=
  if m.canDraw then (r.prefab.map (Multiset.replicate r.left)).getD 0 else 0

def owed (m : DropManager) : Multiset ℕ := (m.routines.map m.owes).sum

def meant (relationMap : Dict DropType (Option ℕ)) (drop : DropCont) : Multiset ℕ :=
  match relationMap.lookup drop.dropType with
  | some (some prefab) => .replicate drop.ammount.toNat prefab
  | _ => 0

def expected (relationMap : Dict DropType (Option ℕ)) (list : List DropCont) : Multiset ℕ :=
  (list.map (meant relationMap)).sum

/-- The coroutines come to an end in any order, and the pickups are then what the list says. -/
structure Delivers (m : DropManager) (drops : DropTypes) : Prop where
  ends : ∃ n, ∀ as, system.Legal (m.spawnDrops drops) as → as.length ≤ n
  spawns : ∀ as, system.Legal (m.spawnDrops drops) as →
    (system.run (m.spawnDrops drops) as).routines = [] →
    (system.run (m.spawnDrops drops) as).pickups =
      m.pickups + m.owed + expected m.relationMap drops.dropList

def Wanted (m : DropManager) (drop : DropCont) : Prop := meant m.relationMap drop ≠ 0

instance (m : DropManager) (drop : DropCont) : Decidable (m.Wanted drop) :=
  inferInstanceAs (Decidable (_ ≠ _))

/-- Nothing that is wanted stands after a type without an entry in the map, and the random range is
not upside down. -/
def Reachable (m : DropManager) (list : List DropCont) : Prop :=
  ∀ pre drop post, list = pre ++ drop :: post → m.Wanted drop →
    m.canDraw = true ∧ ∀ e ∈ pre, e.dropType ∈ m.relationMap

theorem SameConfig.owes (h : SameConfig m m') (r : SpawnObjects) : m'.owes r = m.owes r := by
  rw [DropManager.owes, h.canDraw]
  rfl

theorem pass_owed (r : SpawnObjects) (m : DropManager) :
    (m.pass r).1.pickups + ((m.pass r).2.toList.map m.owes).sum = m.pickups + m.owes r := by
  rcases m.pass_cases r with ⟨hl, h⟩ | ⟨hnone, h⟩ | ⟨left, prefab, hl, hp, hd, h⟩
  · have hzero : m.owes r = 0 := by
      rw [owes, hl]
      cases r.prefab <;> simp
    rw [h, hzero]
    rfl
  · have hzero : m.owes r = 0 := by
      rw [owes]
      obtain hd | hp := hnone
      · rw [hd]
        rfl
      · rw [hp]
        exact ite_self 0
    rw [h, hzero]
    rfl
  · rw [h]
    simp only [owes, hd, hp, hl, pickups, instantiate, Option.toList_some, List.map_cons, List.map_nil,
      List.sum_singleton, Option.map_some, Option.getD_some, if_true, List.map_append,
      Multiset.replicate_succ, ← Multiset.coe_add, Multiset.coe_singleton, ← Multiset.singleton_add]
    exact add_assoc _ _ _

theorem owed_eq (h : SameConfig m m') (routines : List SpawnObjects) :
    owed { m' with routines := routines } = (routines.map m.owes).sum := by
  have hsame (r : SpawnObjects) : owes { m' with routines := routines } r = m.owes r := h.owes r
  rw [owed, List.map_congr_left (fun r _ => hsame r)]

theorem startCoroutine_owed (r : SpawnObjects) (m : DropManager) :
    (m.startCoroutine r).pickups + (m.startCoroutine r).owed = m.pickups + m.owed + m.owes r := by
  rw [startCoroutine_eq, owed_eq (m.pass_sameConfig r), List.map_append, List.sum_append]
  have hpass := m.pass_owed r
  calc (m.pass r).1.pickups + (m.owed + ((m.pass r).2.toList.map m.owes).sum)
      = (m.pass r).1.pickups + ((m.pass r).2.toList.map m.owes).sum + m.owed := by
        rw [add_comm m.owed, add_assoc]
    _ = m.pickups + m.owed + m.owes r := by rw [hpass, add_right_comm]

theorem resume_owed {i : ℕ} (hi : i < m.routines.length) :
    (m.resume i).pickups + (m.resume i).owed = m.pickups + m.owed := by
  have hr := List.getElem?_eq_getElem hi
  have hpass := m.pass_owed m.routines[i]
  have hperm := (List.getElem_cons_eraseIdx_perm hi).map m.owes
  rw [resume_eq hr, owed_eq (m.pass_sameConfig _), List.map_append, List.sum_append]
  calc (m.pass m.routines[i]).1.pickups + (((m.routines.eraseIdx i).map m.owes).sum +
        ((m.pass m.routines[i]).2.toList.map m.owes).sum)
      = (m.pass m.routines[i]).1.pickups + ((m.pass m.routines[i]).2.toList.map m.owes).sum +
        ((m.routines.eraseIdx i).map m.owes).sum := by rw [add_comm _ (List.sum _), add_assoc]
    _ = m.pickups + (m.owes m.routines[i] + ((m.routines.eraseIdx i).map m.owes).sum) := by
        rw [hpass, add_assoc]
    _ = m.pickups + m.owed := by rw [owed, ← hperm.sum_eq, List.map_cons, List.sum_cons]

theorem run_owed {as : List ℕ} (hl : system.Legal m as) :
    (system.run m as).pickups + (system.run m as).owed = m.pickups + m.owed := by
  have hstep : ∀ s a, s.pickups + s.owed = m.pickups + m.owed → system.enabled s a →
      (system.next s a).pickups + (system.next s a).owed = m.pickups + m.owed := by
    intro s i h hi
    exact (resume_owed hi).trans h
  exact System.invariant_legal hstep rfl hl

def passes (m : DropManager) : ℕ := (m.routines.map (fun r => r.left + 1)).sum

theorem pass_passes (r : SpawnObjects) (m : DropManager) :
    ((m.pass r).2.toList.map (fun r => r.left + 1)).sum < r.left + 1 := by
  rcases m.pass_cases r with ⟨-, h⟩ | ⟨-, h⟩ | ⟨left, prefab, hl, -, -, h⟩
  all_goals
    rw [h]
    simp
  omega

theorem resume_passes {i : ℕ} (hi : i < m.routines.length) : (m.resume i).passes < m.passes := by
  have hr := List.getElem?_eq_getElem hi
  have hpass := m.pass_passes m.routines[i]
  have hperm := (List.getElem_cons_eraseIdx_perm hi).map (fun r => r.left + 1)
  rw [resume_eq hr, passes, passes, ← hperm.sum_eq, List.map_append, List.sum_append, List.map_cons,
    List.sum_cons]
  omega

theorem length_le_passes {as : List ℕ} (hl : system.Legal m as) : as.length ≤ m.passes := by
  induction as generalizing m with
  | nil => exact Nat.zero_le _
  | cons i as ih =>
    obtain ⟨hi, hl⟩ := (system.legal_cons m i as).mp hl
    have hlater := ih hl
    have hless := resume_passes hi
    exact Nat.succ_le_of_lt (lt_of_le_of_lt hlater hless)

theorem exists_complete (m : DropManager) :
    ∃ as, system.Legal m as ∧ (system.run m as).routines = [] := by
  induction hn : m.passes using Nat.strong_induction_on generalizing m with
  | _ n ih =>
    cases hroutines : m.routines with
    | nil => exact ⟨[], system.meets_nil _ m, hroutines⟩
    | cons r rest =>
      have hi : 0 < m.routines.length := by rw [hroutines]; exact Nat.succ_pos _
      have hless := resume_passes hi
      rw [hn] at hless
      obtain ⟨as, hl, hend⟩ := ih _ hless (m.resume 0) rfl
      exact ⟨0 :: as, (system.legal_cons m 0 as).mpr ⟨hi, hl⟩, hend⟩

/-- What `SpawnDrops` starts: the entries before the first unknown type. -/
def served (m : DropManager) (list : List DropCont) : List DropCont :=
  if m.canDraw then list.takeWhile (fun drop => decide (drop.dropType ∈ m.relationMap)) else []

theorem served_cons (m : DropManager) (drop : DropCont) (list : List DropCont) :
    m.served (drop :: list) =
      if m.canDraw ∧ drop.dropType ∈ m.relationMap then drop :: m.served list else [] := by
  by_cases hd : m.canDraw = true
  · by_cases hk : drop.dropType ∈ m.relationMap
    all_goals simp [served, hd, hk]
  · simp [served, hd]

theorem expected_cons (relationMap : Dict DropType (Option ℕ)) (drop : DropCont) (list : List DropCont) :
    expected relationMap (drop :: list) = meant relationMap drop + expected relationMap list := by
  rw [expected, List.map_cons, List.sum_cons]
  rfl

theorem SameConfig.served (h : SameConfig m m') (list : List DropCont) : m'.served list = m.served list := by
  rw [DropManager.served, h.canDraw, h.relationMap]
  rfl

theorem owes_start {drop : DropCont} {prefab : Option ℕ} (hd : m.canDraw = true)
    (hp : m.relationMap.lookup drop.dropType = some prefab) (pos : Vector3) :
    m.owes ⟨pos, prefab, drop.ammount.toNat⟩ = meant m.relationMap drop := by
  rw [owes, if_pos hd, meant, hp]
  cases prefab with
  | none => rfl
  | some prefab => rfl

theorem spawnLoop_owed (pos : Vector3) (list : List DropCont) (m : DropManager) :
    (spawnLoop pos list m).pickups + (spawnLoop pos list m).owed =
      m.pickups + m.owed + expected m.relationMap (m.served list) := by
  induction list generalizing m with
  | nil =>
    rw [served, List.takeWhile_nil, ite_self]
    exact (add_zero _).symm
  | cons drop list ih =>
    rw [served_cons]
    by_cases hgo : m.canDraw = true ∧ drop.dropType ∈ m.relationMap
    · obtain ⟨hd, hk⟩ := hgo
      obtain ⟨prefab, hp⟩ := Dict.exists_lookup hk
      have hsame := startCoroutine_sameConfig ⟨pos, prefab, drop.ammount.toNat⟩
        { m with drawn := m.drawn + 1 }
      have hstarted := startCoroutine_owed ⟨pos, prefab, drop.ammount.toNat⟩
        { m with drawn := m.drawn + 1 }
      have howes : owes { m with drawn := m.drawn + 1 } ⟨pos, prefab, drop.ammount.toNat⟩ =
          meant m.relationMap drop := owes_start hd hp pos
      rw [if_pos ⟨hd, hk⟩, spawnLoop_cons_known hd hp, ih, hstarted, howes, hsame.relationMap,
        hsame.served, expected_cons, ← add_assoc]
      rfl
    · rw [if_neg hgo, spawnLoop_cons_left hgo]
      exact (add_zero _).symm

theorem expected_eq_zero (m : DropManager) (list : List DropCont) :
    expected m.relationMap list = 0 ↔ ∀ drop ∈ list, ¬ m.Wanted drop := by
  rw [expected, List.sum_eq_zero_iff]
  simp [Wanted]

theorem known_of_wanted {drop : DropCont} (h : m.Wanted drop) : drop.dropType ∈ m.relationMap := by
  rw [← AList.lookup_isSome]
  cases hp : m.relationMap.lookup drop.dropType with
  | none =>
    rw [Wanted, meant, hp] at h
    exact absurd rfl h
  | some prefab => rfl

theorem reachable_nil (m : DropManager) : m.Reachable [] := by
  intro pre drop post h
  simp at h

theorem reachable_cons_known {drop : DropCont} (hd : m.canDraw = true)
    (hk : drop.dropType ∈ m.relationMap) : m.Reachable (drop :: list) ↔ m.Reachable list := by
  constructor
  · rintro h pre e post rfl hw
    obtain ⟨-, hpre⟩ := h (drop :: pre) e post rfl hw
    exact ⟨hd, fun f hf => hpre f (List.mem_cons_of_mem drop hf)⟩
  · intro h pre e post heq hw
    refine ⟨hd, ?_⟩
    cases pre with
    | nil => simp
    | cons f pre =>
      obtain ⟨rfl, rfl⟩ := List.cons_eq_cons.mp heq
      obtain ⟨-, hpre⟩ := h pre e post rfl hw
      exact List.forall_mem_cons.mpr ⟨hk, hpre⟩

theorem reachable_cons_left {drop : DropCont} (h : ¬ (m.canDraw = true ∧ drop.dropType ∈ m.relationMap)) :
    m.Reachable (drop :: list) ↔ ∀ e ∈ drop :: list, ¬ m.Wanted e := by
  constructor
  · intro hr e he hw
    obtain ⟨pre, post, heq⟩ := List.append_of_mem he
    obtain ⟨hd, hpre⟩ := hr pre e post heq hw
    cases pre with
    | nil =>
      obtain ⟨rfl, -⟩ := List.cons_eq_cons.mp heq
      exact h ⟨hd, known_of_wanted hw⟩
    | cons f pre =>
      obtain ⟨rfl, -⟩ := List.cons_eq_cons.mp heq
      exact h ⟨hd, hpre drop List.mem_cons_self⟩
  · intro hnone pre e post heq hw
    have he : e ∈ drop :: list := heq ▸ List.mem_append_right pre List.mem_cons_self
    exact absurd hw (hnone e he)

theorem expected_served_iff (m : DropManager) (list : List DropCont) :
    expected m.relationMap (m.served list) = expected m.relationMap list ↔ m.Reachable list := by
  induction list with
  | nil =>
    rw [served, List.takeWhile_nil, ite_self]
    exact iff_of_true rfl m.reachable_nil
  | cons drop list ih =>
    rw [served_cons]
    by_cases hgo : m.canDraw = true ∧ drop.dropType ∈ m.relationMap
    · rw [if_pos hgo, reachable_cons_known hgo.1 hgo.2, expected_cons, expected_cons, add_right_inj]
      exact ih
    · rw [if_neg hgo, reachable_cons_left hgo, ← expected_eq_zero]
      exact eq_comm

theorem delivers_iff (m : DropManager) (drops : DropTypes) :
    m.Delivers drops ↔ m.Reachable drops.dropList := by
  rw [← expected_served_iff]
  have hstart := spawnLoop_owed drops.locaiton drops.dropList m
  constructor
  · intro h
    obtain ⟨as, hl, hend⟩ := exists_complete (m.spawnDrops drops)
    have hspawns := h.spawns as hl hend
    have hrun := run_owed hl
    have hnone : (system.run (m.spawnDrops drops) as).owed = 0 := by rw [owed, hend]; rfl
    rw [hspawns, hnone, add_zero, spawnDrops, hstart] at hrun
    exact (add_left_cancel hrun).symm
  · intro h
    refine ⟨⟨_, fun as hl => length_le_passes hl⟩, ?_⟩
    intro as hl hend
    have hrun := run_owed hl
    have hnone : (system.run (m.spawnDrops drops) as).owed = 0 := by rw [owed, hend]; rfl
    rw [hnone, add_zero, spawnDrops, hstart, h] at hrun
    exact hrun

structure OrderFree (m : DropManager) (drops drops' : DropTypes) : Prop where
  first : m.Delivers drops
  second : m.Delivers drops'
  same : ∀ as bs, system.Legal (m.spawnDrops drops) as → system.Legal (m.spawnDrops drops') bs →
    (system.run (m.spawnDrops drops) as).routines = [] →
    (system.run (m.spawnDrops drops') bs).routines = [] →
    (system.run (m.spawnDrops drops) as).pickups = (system.run (m.spawnDrops drops') bs).pickups

/-- The loop returns at the first unknown type, so that everything behind it is lost. -/
theorem order_free_iff (m : DropManager) {drops drops' : DropTypes}
    (h : drops.dropList.Perm drops'.dropList) :
    m.OrderFree drops drops' ↔ m.Reachable drops.dropList ∧ m.Reachable drops'.dropList := by
  rw [← delivers_iff, ← delivers_iff]
  constructor
  · intro hfree
    exact ⟨hfree.first, hfree.second⟩
  · rintro ⟨hfirst, hsecond⟩
    refine ⟨hfirst, hsecond, ?_⟩
    intro as bs has hbs hend hend'
    have hperm : expected m.relationMap drops.dropList = expected m.relationMap drops'.dropList :=
      (h.map (meant m.relationMap)).sum_eq
    rw [hfirst.spawns as has hend, hsecond.spawns bs hbs hend', hperm]

def powerOnly : DropManager where
  relationMap := (∅ : Dict DropType (Option ℕ)).insert .power (some 7)
  spawnRad := 5
  rand := fun _ => ⟨1 / 2, 3, 1 / 4, -2⟩
  drawn := 0
  routines := []
  spawned := []

theorem order_free_known :
    powerOnly.OrderFree ⟨[⟨.power, 2⟩, ⟨.power, 1⟩], ⟨0, 4, 0⟩⟩ ⟨[⟨.power, 1⟩, ⟨.power, 2⟩], ⟨0, 4, 0⟩⟩ ↔
      powerOnly.Reachable [⟨.power, 2⟩, ⟨.power, 1⟩] ∧
        powerOnly.Reachable [⟨.power, 1⟩, ⟨.power, 2⟩] :=
  order_free_iff powerOnly (by decide)

theorem unknownFirst_dropsRest : ¬ ∀ (m : DropManager) (drops drops' : DropTypes),
    drops.dropList.Perm drops'.dropList → m.OrderFree drops drops' := by
  intro h
  have hfree := h powerOnly ⟨[⟨.score, 1⟩, ⟨.power, 2⟩], ⟨0, 4, 0⟩⟩ ⟨[⟨.power, 2⟩, ⟨.score, 1⟩], ⟨0, 4, 0⟩⟩
    (by decide)
  have hreach := (delivers_iff powerOnly _).mp hfree.first
  obtain ⟨-, hpre⟩ := hreach [⟨.score, 1⟩] ⟨.power, 2⟩ [] rfl (by decide)
  exact absurd (hpre ⟨.score, 1⟩ (by decide)) (by decide)

end DropManager

end SeminarTouhou
