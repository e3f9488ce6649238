import SeminarTouhou.Engine.GameObject

namespace SeminarTouhou

open Library

structure Component where
  activeSelf : Bool
  position : Vector3
deriving DecidableEq

/-- The two dictionaries with the objects their queues refer to: a reference is the number of the
`Instantiate` call that made the object. A prefab may be `null`. -/
structure ObjectPool where
  poolLookUp : Dict String (Option Component)
  poolDic : Dict String (List ℕ)
  objects : ℕ → Component
  instances : ℕ

namespace ObjectPool

def empty : ObjectPool := ⟨∅, ∅, fun _ => ⟨false, ⟨0, 0, 0⟩⟩, 0⟩

def onObject (x : ℕ) (f : Component → Component) (p : ObjectPool) : ObjectPool :=
  { p with objects := Function.update p.objects x (f (p.objects x)) }

def setActive (x : ℕ) (active : Bool) : ObjectPool → ObjectPool :=
  onObject x (fun c => { c with activeSelf := active })

def moveTo (x : ℕ) (position : Vector3) : ObjectPool → ObjectPool :=
  onObject x (fun c => { c with position := position })

def instantiate (item : Component) (p : ObjectPool) : ObjectPool :=
  { p with objects := Function.update p.objects p.instances item, instances := p.instances + 1 }

def queue (p : ObjectPool) (name : String) : List ℕ := (p.poolDic.lookup name).getD []

def setQueue (name : String) (q : List ℕ) (p : ObjectPool) : ObjectPool :=
  { p with poolDic := p.poolDic.insert name q }

def enqeueObject (item : ℕ) (name : String) (p : ObjectPool) : ObjectPool × Option Exn :=
  if (p.objects item).activeSelf then (p, none)
  else
    let p := p.moveTo item ⟨0, 0, 0⟩
    match p.poolDic.lookup name with
    | none => (p, some .keyNotFound)
    | some q => ((p.setQueue name (q ++ [item])).setActive item false, none)

def enqeueNewInstance (item : Option Component) (key : String) (p : ObjectPool) :
    ObjectPool × Except Exn ℕ :=
  match item with
  | none => (p, .error .argument)
  | some item =>
    let pooledInstance := p.instances
    let p := (p.instantiate item).setActive pooledInstance false
    let p := p.moveTo pooledInstance ⟨0, 0, 0⟩
    match p.poolDic.lookup key with
    | none => (p, .error .keyNotFound)
    | some q => (p.setQueue key (q ++ [pooledInstance]), .ok pooledInstance)

/-- What comes out of an exhausted pool is also in it: `EnqeueNewInstance` has enqueued it. -/
def dequeueObject (key : String) (p : ObjectPool) : ObjectPool × Except Exn ℕ :=
  match p.poolDic.lookup key with
  | none => (p, .error .keyNotFound)
  | some (item :: q) => (p.setQueue key q, .ok item)
  | some [] =>
    match p.poolLookUp.lookup key with
    | none => (p, .error .keyNotFound)
    | some item => p.enqeueNewInstance item key

def clearPool (p : ObjectPool) : ObjectPool := { p with poolLookUp := ∅, poolDic := ∅ }

/-- The loop of `SetUpPool`; its body repeats that of `EnqeueNewInstance`. -/
def fill (pooledSizePrefab : Option Component) (dicEntry : String) :
    ℕ → ObjectPool → ObjectPool × Option Exn
  | 0, p => (p, none)
  | n + 1, p =>
    match p.enqeueNewInstance pooledSizePrefab dicEntry with
    | (p, .error e) => (p, some e)
    | (p, .ok _) => fill pooledSizePrefab dicEntry n p

def setUpPool (pooledSizePrefab : Option Component) (ammount : ℤ) (dicEntry : String)
    (p : ObjectPool) : ObjectPool × Option Exn :=
  let p := if dicEntry ∈ p.poolDic then p.clearPool else p
  let p := p.setQueue dicEntry []
  if dicEntry ∈ p.poolLookUp then (p, some .argument)
  else
    let p := { p with poolLookUp := p.poolLookUp.insert dicEntry pooledSizePrefab }
    fill pooledSizePrefab dicEntry ammount.toNat p

def Exhausted (p : ObjectPool) (key : String) : Prop :=
  p.poolDic.lookup key = some [] ∧ (p.poolLookUp.lookup key).join.isSome

instance (p : ObjectPool) (key : String) : Decidable (p.Exhausted key) :=
  inferInstanceAs (Decidable (_ ∧ _))

@[simp] theorem queue_empty (name : String) : empty.queue name = [] := rfl

@[simp] theorem queue_setActive (x : ℕ) (active : Bool) (p : ObjectPool) (name : String) :
    (p.setActive x active).queue name = p.queue name := rfl

@[simp] theorem queue_moveTo (x : ℕ) (v : Vector3) (p : ObjectPool) (name : String) :
    (p.moveTo x v).queue name = p.queue name := rfl

@[simp] theorem queue_instantiate (item : Component) (p : ObjectPool) (name : String) :
    (p.instantiate item).queue name = p.queue name := rfl

@[simp] theorem queue_clearPool (p : ObjectPool) (name : String) : p.clearPool.queue name = [] := rfl

@[simp] theorem queue_setQueue (name : String) (q : List ℕ) (p : ObjectPool) (other : String) :
    (p.setQueue name q).queue other = if other = name then q else p.queue other := by
  by_cases h : other = name
  · subst h
    simp [queue, setQueue]
  · simp [queue, setQueue, h]

@[simp] theorem instances_setActive (x : ℕ) (active : Bool) (p : ObjectPool) :
    (p.setActive x active).instances = p.instances := rfl

@[simp] theorem instances_moveTo (x : ℕ) (v : Vector3) (p : ObjectPool) :
    (p.moveTo x v).instances = p.instances := rfl

@[simp] theorem instances_instantiate (item : Component) (p : ObjectPool) :
    (p.instantiate item).instances = p.instances + 1 := rfl

@[simp] theorem instances_setQueue (name : String) (q : List ℕ) (p : ObjectPool) :
    (p.setQueue name q).instances = p.instances := rfl

@[simp] theorem active_setActive (x : ℕ) (active : Bool) (p : ObjectPool) (b : ℕ) :
    ((p.setActive x active).objects b).activeSelf =
      if b = x then active else (p.objects b).activeSelf := by
  by_cases h : b = x
  · subst h
    simp [setActive, onObject]
  · simp [setActive, onObject, h]

@[simp] theorem active_moveTo (x : ℕ) (v : Vector3) (p : ObjectPool) (b : ℕ) :
    ((p.moveTo x v).objects b).activeSelf = (p.objects b).activeSelf := by
  by_cases h : b = x
  · subst h
    simp [moveTo, onObject]
  · simp [moveTo, onObject, h]

@[simp] theorem objects_setQueue (name : String) (q : List ℕ) (p : ObjectPool) :
    (p.setQueue name q).objects = p.objects := rfl

theorem queue_of_lookup {p : ObjectPool} {name : String} {q : List ℕ}
    (h : p.poolDic.lookup name = some q) : p.queue name = q := by
  simp [queue, h]

theorem enqeueObject_queue {p : ObjectPool} {item : ℕ} (name : String)
    (ha : (p.objects item).activeSelf = false) :
    (name ∈ p.poolDic ∧ (p.enqeueObject item name).2 = none ∧
        ∀ k, (p.enqeueObject item name).1.queue k =
          if k = name then p.queue k ++ [item] else p.queue k) ∨
      (name ∉ p.poolDic ∧ (p.enqeueObject item name).2 = some .keyNotFound ∧
        ∀ k, (p.enqeueObject item name).1.queue k = p.queue k) := by
  simp only [enqeueObject, ha, Bool.false_eq_true, if_false]
  rcases h : (p.moveTo item ⟨0, 0, 0⟩).poolDic.lookup name with _ | q
  · exact Or.inr ⟨AList.lookup_eq_none.mp h, rfl, fun k => rfl⟩
  · refine Or.inl ⟨Dict.mem_of_lookup h, rfl, ?_⟩
    intro k
    have hq : p.queue name = q := queue_of_lookup h
    simp only [queue_setActive, queue_setQueue, queue_moveTo]
    by_cases hk : k = name
    · subst hk
      simp [hq]
    · simp [hk]

theorem enqeueObject_active {p : ObjectPool} {item : ℕ} {name : String}
    (ha : (p.objects item).activeSelf = false) (b : ℕ) :
    ((p.enqeueObject item name).1.objects b).activeSelf = (p.objects b).activeSelf := by
  simp only [enqeueObject, ha, Bool.false_eq_true, if_false]
  cases (p.moveTo item ⟨0, 0, 0⟩).poolDic.lookup name with
  | none => simp
  | some q =>
    by_cases hb : b = item
    · subst hb
      simp [ha]
    · simp [hb]

@[simp] theorem mem_enqeueObject (item : ℕ) (name key : String) (p : ObjectPool) :
    key ∈ (p.enqeueObject item name).1.poolDic ↔ key ∈ p.poolDic := by
  simp only [enqeueObject]
  split_ifs
  · rfl
  · rcases h : (p.moveTo item ⟨0, 0, 0⟩).poolDic.lookup name with _ | q
    · rfl
    · refine ⟨fun hk => ?_, fun hk => (AList.mem_insert _).mpr (Or.inr hk)⟩
      obtain rfl | hk := (AList.mem_insert _).mp hk
      · exact Dict.mem_of_lookup h
      · exact hk

@[simp] theorem enqeueObject_instances (item : ℕ) (name : String) (p : ObjectPool) :
    (p.enqeueObject item name).1.instances = p.instances := by
  simp only [enqeueObject]
  split_ifs
  · rfl
  · cases (p.moveTo item ⟨0, 0, 0⟩).poolDic.lookup name <;> rfl

theorem enqeueNewInstance_queue (item : Option Component) (key : String) (p : ObjectPool) :
    (item.isSome ∧ key ∈ p.poolDic ∧
        (p.enqeueNewInstance item key).2 = .ok p.instances ∧
        (p.enqeueNewInstance item key).1.instances = p.instances + 1 ∧
        ∀ k, (p.enqeueNewInstance item key).1.queue k =
          if k = key then p.queue k ++ [p.instances] else p.queue k) ∨
      (¬ (item.isSome ∧ key ∈ p.poolDic) ∧ (∃ e, (p.enqeueNewInstance item key).2 = .error e) ∧
        p.instances ≤ (p.enqeueNewInstance item key).1.instances ∧
        ∀ k, (p.enqeueNewInstance item key).1.queue k = p.queue k) := by
  cases item with
  | none => exact Or.inr ⟨by simp, ⟨_, rfl⟩, le_refl _, fun k => rfl⟩
  | some item =>
    simp only [enqeueNewInstance]
    rcases h : (((p.instantiate item).setActive p.instances false).moveTo
      p.instances ⟨0, 0, 0⟩).poolDic.lookup key with _ | q
    · refine Or.inr ⟨?_, ⟨_, rfl⟩, Nat.le_succ _, fun k => rfl⟩
      intro hk
      exact AList.lookup_eq_none.mp h hk.2
    · refine Or.inl ⟨rfl, Dict.mem_of_lookup h, rfl, rfl, ?_⟩
      intro k
      have hq : p.queue key = q := queue_of_lookup h
      simp only [queue_setQueue, queue_moveTo, queue_setActive, queue_instantiate]
      by_cases hk : k = key
      · subst hk
        simp [hq]
      · simp [hk]

theorem enqeueNewInstance_old (item : Option Component) (key : String) (p : ObjectPool) :
    p.instances ≤ (p.enqeueNewInstance item key).1.instances ∧
      (∀ b < p.instances, ((p.enqeueNewInstance item key).1.objects b).activeSelf =
        (p.objects b).activeSelf) ∧
      ∀ name ∈ p.poolDic, name ∈ (p.enqeueNewInstance item key).1.poolDic := by
  cases item with
  | none => exact ⟨le_refl _, fun _ _ => rfl, fun _ hn => hn⟩
  | some item =>
    have hold : ∀ b < p.instances, ((((p.instantiate item).setActive p.instances false).moveTo
        p.instances ⟨0, 0, 0⟩).objects b).activeSelf = (p.objects b).activeSelf := by
      intro b hb
      simp [hb.ne, instantiate]
    simp only [enqeueNewInstance]
    cases (((p.instantiate item).setActive p.instances false).moveTo
      p.instances ⟨0, 0, 0⟩).poolDic.lookup key with
    | none => exact ⟨Nat.le_succ _, hold, fun _ hn => hn⟩
    | some q => exact ⟨Nat.le_succ _, hold, fun _ hn => (AList.mem_insert _).mpr (Or.inr hn)⟩

theorem fill_old (pooledSizePrefab : Option Component) (dicEntry : String) (n : ℕ) (p : ObjectPool) :
    (∀ b < p.instances, ((p.fill pooledSizePrefab dicEntry n).1.objects b).activeSelf =
        (p.objects b).activeSelf) ∧
      ∀ name ∈ p.poolDic, name ∈ (p.fill pooledSizePrefab dicEntry n).1.poolDic := by
  induction n generalizing p with
  | zero => exact ⟨fun _ _ => rfl, fun _ hn => hn⟩
  | succ n ih =>
    obtain ⟨hle, ha, hk⟩ := enqeueNewInstance_old pooledSizePrefab dicEntry p
    simp only [fill]
    rcases he : p.enqeueNewInstance pooledSizePrefab dicEntry with ⟨p', e | x⟩
    all_goals simp only [he] at hle ha hk
    · exact ⟨ha, hk⟩
    · obtain ⟨ha', hk'⟩ := ih p'
      constructor
      · intro b hb
        rw [ha' b (Nat.lt_of_lt_of_le hb hle), ha b hb]
      · exact fun name hn => hk' name (hk name hn)

theorem setUpPool_old (pooledSizePrefab : Option Component) (ammount : ℤ) (dicEntry : String)
    (p : ObjectPool) :
    (∀ b < p.instances, ((p.setUpPool pooledSizePrefab ammount dicEntry).1.objects b).activeSelf =
        (p.objects b).activeSelf) ∧
      dicEntry ∈ (p.setUpPool pooledSizePrefab ammount dicEntry).1.poolDic := by
  generalize hc : (if dicEntry ∈ p.poolDic then p.clearPool else p) = c
  have hcleared : c.objects = p.objects ∧ c.instances = p.instances := by
    rw [← hc]
    split_ifs <;> exact ⟨rfl, rfl⟩
  have hset : dicEntry ∈ (c.setQueue dicEntry []).poolDic :=
    (AList.mem_insert _).mpr (Or.inl rfl)
  simp only [setUpPool, hc]
  split_ifs
  · exact ⟨fun b _ => by rw [objects_setQueue, hcleared.1], hset⟩
  · obtain ⟨ha, hk⟩ := fill_old pooledSizePrefab dicEntry ammount.toNat
      { c.setQueue dicEntry [] with
        poolLookUp := (c.setQueue dicEntry []).poolLookUp.insert dicEntry pooledSizePrefab }
    refine ⟨?_, hk dicEntry hset⟩
    intro b hb
    rw [ha b (by simpa [hcleared.2] using hb), objects_setQueue, hcleared.1]

theorem dequeueObject_queue {p : ObjectPool} {key : String} (he : ¬ p.Exhausted key) :
    (∃ x q, p.queue key = x :: q ∧ (p.dequeueObject key).2 = .ok x ∧
        (p.dequeueObject key).1.instances = p.instances ∧
        ∀ k, (p.dequeueObject key).1.queue k = if k = key then q else p.queue k) ∨
      ∃ e, (p.dequeueObject key).2 = .error e ∧
        (p.dequeueObject key).1.instances = p.instances ∧
        ∀ k, (p.dequeueObject key).1.queue k = p.queue k := by
  simp only [dequeueObject]
  rcases hd : p.poolDic.lookup key with _ | _ | ⟨x, q⟩
  · exact Or.inr ⟨_, rfl, rfl, fun _ => rfl⟩
  · dsimp only
    rcases hl : p.poolLookUp.lookup key with _ | _ | item
    · exact Or.inr ⟨_, rfl, rfl, fun _ => rfl⟩
    · exact Or.inr ⟨_, rfl, rfl, fun _ => rfl⟩
    · exact absurd ⟨hd, by rw [hl]; rfl⟩ he
  · exact Or.inl ⟨x, q, queue_of_lookup hd, rfl, rfl, fun _ => queue_setQueue _ _ _ _⟩

theorem dequeueObject_frame {p : ObjectPool} {key : String} (he : ¬ p.Exhausted key) :
    (p.dequeueObject key).1.objects = p.objects ∧
      ∀ name, name ∈ (p.dequeueObject key).1.poolDic ↔ name ∈ p.poolDic := by
  simp only [dequeueObject]
  rcases hd : p.poolDic.lookup key with _ | _ | ⟨x, q⟩
  · exact ⟨rfl, fun _ => Iff.rfl⟩
  · dsimp only
    rcases hl : p.poolLookUp.lookup key with _ | _ | item
    · exact ⟨rfl, fun _ => Iff.rfl⟩
    · exact ⟨rfl, fun _ => Iff.rfl⟩
    · exact absurd ⟨hd, by rw [hl]; rfl⟩ he
  · refine ⟨rfl, fun name => ?_⟩
    simp only [setQueue, AList.mem_insert, or_iff_right_iff_imp]
    rintro rfl
    exact Dict.mem_of_lookup hd

theorem dequeueObject_exhausted {p : ObjectPool} {key : String} (he : p.Exhausted key) :
    ∃ item : Option Component, item.isSome ∧
      p.dequeueObject key = p.enqeueNewInstance item key := by
  obtain ⟨hd, hi⟩ := he
  obtain ⟨item, hl⟩ := Option.isSome_iff_exists.mp hi
  refine ⟨some item, rfl, ?_⟩
  simp only [dequeueObject, hd, Option.join_eq_some_iff.mp hl]

end ObjectPool

end SeminarTouhou
