import SeminarTouhou.Level.PlayerAttacks

namespace SeminarTouhou

open Library

/-- What one `CreateSpawnPosition` gets from `rand`: `NextDouble` and `Next`, for `x` and for `y`. -/
structure Draw where
  doubleX : ℚ
  nextX : ℤ
  doubleY : ℚ
  nextY : ℤ
deriving DecidableEq

/-- A `SpawnObjects` coroutine that waits; `left` is `ammount - i`. -/
structure SpawnObjects where
  pos : Vector3
  prefab : Option ℕ
  left : ℕ
deriving DecidableEq

structure PickUpObject where
  prefab : ℕ
  position : Vector3
deriving DecidableEq

/-- Prefabs go by number, and `none` is one that is not assigned. `rand` is everything that the
generator will ever return, `drawn` how much of it was used. -/
structure DropManager where
  relationMap : Dict DropType (Option ℕ)
  spawnRad : ℚ
  rand : ℕ → Draw
  drawn : ℕ
  routines : List SpawnObjects
  spawned : List PickUpObject

def Vector3.shift (offset : Vector2) (v : Vector3) : Vector3 := ⟨v.x + offset.x, v.y + offset.y, v.z⟩

namespace Draw

def offset (d : Draw) : Vector2 := ⟨d.doubleX * d.nextX, d.doubleY * d.nextY⟩

/-- `Next(-r, r)` is below `r`, or 0 when there is no other number. -/
def NextIn (r n : ℤ) : Prop := if r = 0 then n = 0 else -r ≤ n ∧ n < r

instance (r n : ℤ) : Decidable (NextIn r n) :=
  inferInstanceAs (Decidable (if r = 0 then n = 0 else -r ≤ n ∧ n < r))

structure In (r : ℤ) (d : Draw) : Prop where
  doubleX : 0 ≤ d.doubleX ∧ d.doubleX < 1
  nextX : NextIn r d.nextX
  doubleY : 0 ≤ d.doubleY ∧ d.doubleY < 1
  nextY : NextIn r d.nextY

end Draw

namespace DropManager

/-- The cast to an integer drops the fraction. -/
def toInt (x : ℚ) : ℤ := x.num.tdiv x.den

variable {m : DropManager}

/-- `rand.Next(-(int)rad, (int)rad)` throws when its bounds are the wrong way round. -/
def canDraw (m : DropManager) : Bool := decide (0 ≤ toInt m.spawnRad)

def createSpawnPosition (m : DropManager) : Option Vector2 × DropManager :=
  (if m.canDraw then some (m.rand m.drawn).offset else none, { m with drawn := m.drawn + 1 })

def instantiate (prefab : ℕ) (pos : Vector3) (m : DropManager) : DropManager :=
  { m with spawned := m.spawned ++ [⟨prefab, pos⟩] }

/-- One pass of the loop in `SpawnObjects`, and what is left of the coroutine; an exception ends
it. -/
def pass (r : SpawnObjects) (m : DropManager) : DropManager × Option SpawnObjects :=
  match r.left with
  | 0 => (m, none)
  | left + 1 =>
    match m.createSpawnPosition, r.prefab with
    | (some offset, m), some prefab =>
      let pos := r.pos.shift offset
      (m.instantiate prefab pos, some ⟨pos, some prefab, left⟩)
    | (_, m), _ => (m, none)

def startCoroutine (r : SpawnObjects) (m : DropManager) : DropManager :=
  let (m, rest) := m.pass r
  { m with routines := m.routines ++ rest.toList }

/-- The first offset is not used. An unknown type ends the method, not only its turn. -/
def spawnLoop (pos : Vector3) : List DropCont → DropManager → DropManager
  | [], m => m
  | drop :: rest, m =>
    match m.createSpawnPosition with
    | (none, m) => m
    | (some _, m) =>
      match m.relationMap.lookup drop.dropType with
      | none => m
      | some prefab => spawnLoop pos rest (m.startCoroutine ⟨pos, prefab, drop.ammount.toNat⟩)

def spawnDrops (drops : DropTypes) (m : DropManager) : DropManager :=
  spawnLoop drops.locaiton drops.dropList m

def resume (m : DropManager) (i : ℕ) : DropManager :=
  match m.routines[i]? with
  | none => m
  | some r =>
    let (m, rest) := m.pass r
    { m with routines := m.routines.eraseIdx i ++ rest.toList }

def system : System DropManager ℕ := ⟨fun m i => i < m.routines.length, resume⟩

instance (m : DropManager) (i : ℕ) : Decidable (system.enabled m i) :=
  inferInstanceAs (Decidable (i < m.routines.length))

@[simp] theorem createSpawnPosition_snd (m : DropManager) :
    m.createSpawnPosition.2 = { m with drawn := m.drawn + 1 } := rfl

structure SameConfig (m m' : DropManager) : Prop where
  relationMap : m'.relationMap = m.relationMap
  spawnRad : m'.spawnRad = m.spawnRad
  rand : m'.rand = m.rand

theorem SameConfig.refl (m : DropManager) : SameConfig m m := ⟨rfl, rfl, rfl⟩

theorem SameConfig.trans {a b c : DropManager} (h : SameConfig a b) (k : SameConfig b c) :
    SameConfig a c :=
  ⟨k.relationMap.trans h.relationMap, k.spawnRad.trans h.spawnRad, k.rand.trans h.rand⟩

theorem SameConfig.canDraw {m m' : DropManager} (h : SameConfig m m') : m'.canDraw = m.canDraw := by
  rw [DropManager.canDraw, h.spawnRad]
  rfl

theorem pass_cases (r : SpawnObjects) (m : DropManager) :
    (r.left = 0 ∧ m.pass r = (m, none)) ∨
      (m.canDraw = false ∨ r.prefab = none) ∧ m.pass r = ({ m with drawn := m.drawn + 1 }, none) ∨
      ∃ left prefab, r.left = left + 1 ∧ r.prefab = some prefab ∧ m.canDraw = true ∧
        m.pass r =
          (instantiate prefab (r.pos.shift (m.rand m.drawn).offset) { m with drawn := m.drawn + 1 },
            some ⟨r.pos.shift (m.rand m.drawn).offset, some prefab, left⟩) := by
  cases hl : r.left with
  | zero => exact Or.inl ⟨rfl, by rw [pass, hl]⟩
  | succ left =>
    right
    cases hd : m.canDraw with
    | false => exact Or.inl ⟨Or.inl rfl, by simp [pass, hl, createSpawnPosition, hd]⟩
    | true =>
      cases hp : r.prefab with
      | none => exact Or.inl ⟨Or.inr rfl, by simp [pass, hl, createSpawnPosition, hd, hp]⟩
      | some prefab =>
        exact Or.inr ⟨left, prefab, rfl, rfl, rfl, by simp [pass, hl, createSpawnPosition, hd, hp]⟩

theorem pass_sameConfig (r : SpawnObjects) (m : DropManager) : SameConfig m (m.pass r).1 := by
  rcases m.pass_cases r with ⟨-, h⟩ | ⟨-, h⟩ | ⟨left, prefab, -, -, -, h⟩
  all_goals
    rw [h]
    exact ⟨rfl, rfl, rfl⟩

@[simp] theorem pass_routines (r : SpawnObjects) (m : DropManager) :
    (m.pass r).1.routines = m.routines := by
  rcases m.pass_cases r with ⟨-, h⟩ | ⟨-, h⟩ | ⟨left, prefab, -, -, -, h⟩
  all_goals exact congrArg (fun p => p.1.routines) h

theorem startCoroutine_eq (r : SpawnObjects) (m : DropManager) :
    m.startCoroutine r =
      { (m.pass r).1 with routines := m.routines ++ (m.pass r).2.toList } := by
  rw [startCoroutine, ← pass_routines r m]

theorem startCoroutine_sameConfig (r : SpawnObjects) (m : DropManager) :
    SameConfig m (m.startCoroutine r) := by
  have h := m.pass_sameConfig r
  rw [startCoroutine_eq]
  exact ⟨h.relationMap, h.spawnRad, h.rand⟩

theorem resume_eq {i : ℕ} {r : SpawnObjects} (h : m.routines[i]? = some r) :
    m.resume i =
      { (m.pass r).1 with routines := m.routines.eraseIdx i ++ (m.pass r).2.toList } := by
  rw [resume, h, ← pass_routines r m]

theorem spawnLoop_cons_known {pos : Vector3} {drop : DropCont} {rest : List DropCont} {prefab : Option ℕ}
    (hd : m.canDraw = true) (hp : m.relationMap.lookup drop.dropType = some prefab) :
    spawnLoop pos (drop :: rest) m = spawnLoop pos rest
      (startCoroutine ⟨pos, prefab, drop.ammount.toNat⟩ { m with drawn := m.drawn + 1 }) := by
  simp [spawnLoop, createSpawnPosition, hd, hp]

theorem spawnLoop_cons_left {pos : Vector3} {drop : DropCont} {rest : List DropCont}
    (h : ¬ (m.canDraw = true ∧ drop.dropType ∈ m.relationMap)) :
    spawnLoop pos (drop :: rest) m = { m with drawn := m.drawn + 1 } := by
  by_cases hd : m.canDraw = true
  · have hp : m.relationMap.lookup drop.dropType = none :=
      AList.lookup_eq_none.mpr (fun hk => h ⟨hd, hk⟩)
    simp [spawnLoop, createSpawnPosition, hd, hp]
  · simp [spawnLoop, createSpawnPosition, hd]

theorem spawnLoop_sameConfig (pos : Vector3) (list : List DropCont) (m : DropManager) :
    SameConfig m (spawnLoop pos list m) := by
  induction list generalizing m with
  | nil => exact .refl m
  | cons drop list ih =>
    by_cases hgo : m.canDraw = true ∧ drop.dropType ∈ m.relationMap
    · obtain ⟨prefab, hp⟩ := Dict.exists_lookup hgo.2
      have hdrawn : SameConfig m { m with drawn := m.drawn + 1 } := ⟨rfl, rfl, rfl⟩
      rw [spawnLoop_cons_known hgo.1 hp]
      exact (hdrawn.trans (startCoroutine_sameConfig _ _)).trans (ih _)
    · rw [spawnLoop_cons_left hgo]
      exact ⟨rfl, rfl, rfl⟩

theorem resume_sameConfig {i : ℕ} (hi : i < m.routines.length) : SameConfig m (m.resume i) := by
  have h := m.pass_sameConfig m.routines[i]
  rw [resume_eq (List.getElem?_eq_getElem hi)]
  exact ⟨h.relationMap, h.spawnRad, h.rand⟩

theorem subset_startCoroutine (r : SpawnObjects) (m : DropManager) :
    m.routines ⊆ (m.startCoroutine r).routines := by
  rw [startCoroutine_eq]
  exact List.subset_append_left _ _

theorem subset_spawnLoop (pos : Vector3) (list : List DropCont) (m : DropManager) :
    m.routines ⊆ (spawnLoop pos list m).routines := by
  induction list generalizing m with
  | nil => exact List.Subset.refl _
  | cons drop list ih =>
    by_cases hgo : m.canDraw = true ∧ drop.dropType ∈ m.relationMap
    · obtain ⟨prefab, hp⟩ := Dict.exists_lookup hgo.2
      rw [spawnLoop_cons_known hgo.1 hp]
      exact List.Subset.trans (subset_startCoroutine _ { m with drawn := m.drawn + 1 }) (ih _)
    · rw [spawnLoop_cons_left hgo]
      exact List.Subset.refl _

end DropManager

end SeminarTouhou
