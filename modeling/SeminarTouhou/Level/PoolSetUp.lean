import SeminarTouhou.Level.ObjectPool

namespace SeminarTouhou

open Library

namespace ObjectPool

/-- From `p` to `p'` new inactive instances were made, enqueued under `key`, and nothing else
happened to the dictionaries. -/
structure Fills (key : String) (q : List ℕ) (n : ℕ) (p p' : ObjectPool) : Prop where
  queue : p'.poolDic.lookup key = some (q ++ List.range' p.instances n)
  queues : ∀ j ≠ key, p'.poolDic.lookup j = p.poolDic.lookup j
  prefabs : p'.poolLookUp = p.poolLookUp
  inactive : ∀ x ∈ List.range' p.instances n, (p'.objects x).activeSelf = false
  instances : p'.instances = p.instances + n
  old : ∀ x < p.instances, (p'.objects x).activeSelf = (p.objects x).activeSelf

variable {key : String} {q : List ℕ} {n : ℕ} {p p' p'' : ObjectPool}

theorem fills_none (h : p.poolDic.lookup key = some q) : Fills key q 0 p p := by
  refine ⟨?_, fun _ _ => rfl, rfl, ?_, rfl, fun _ _ => rfl⟩
  · rw [h, List.range'_zero, List.append_nil]
  · rintro x hx
    cases hx

theorem enqeueNewInstance_fills (item : Component) (h : p.poolDic.lookup key = some q) :
    (p.enqeueNewInstance (some item) key).2 = .ok p.instances ∧
      Fills key q 1 p (p.enqeueNewInstance (some item) key).1 := by
  have hnew : (((p.instantiate item).setActive p.instances false).moveTo
      p.instances ⟨0, 0, 0⟩).poolDic.lookup key = some q := h
  simp only [enqeueNewInstance, hnew, true_and]
  refine ⟨AList.lookup_insert _, fun j hj => AList.lookup_insert_ne hj, rfl, ?_, rfl, ?_⟩
  · intro x hx
    obtain rfl : x = p.instances := by simpa using hx
    simp
  · intro x hx
    simp [hx.ne, instantiate]

theorem Fills.next (h : Fills key q 1 p p') (k : Fills key (q ++ [p.instances]) n p' p'') :
    Fills key q (n + 1) p p'' := by
  have hrange : List.range' p.instances (n + 1) = p.instances :: List.range' p'.instances n := by
    rw [h.instances, List.range'_succ]
  constructor
  · rw [k.queue, hrange, List.append_assoc]
    rfl
  · intro j hj
    rw [k.queues j hj, h.queues j hj]
  · rw [k.prefabs, h.prefabs]
  · intro x hx
    rw [hrange] at hx
    rcases List.mem_cons.mp hx with rfl | hx
    · rw [k.old _ (by rw [h.instances]; exact Nat.lt_succ_self _)]
      exact h.inactive _ (by simp)
    · exact k.inactive x hx
  · rw [k.instances, h.instances, Nat.add_assoc, Nat.add_comm 1 n]
  · intro x hx
    rw [k.old x (by rw [h.instances]; omega), h.old x hx]

theorem fill_fills (item : Component) (h : p.poolDic.lookup key = some q) (n : ℕ) :
    Fills key q n p (p.fill (some item) key n).1 := by
  induction n generalizing p q with
  | zero => exact fills_none h
  | succ n ih =>
    obtain ⟨hok, hfirst⟩ := enqeueNewInstance_fills item h
    simp only [fill]
    rcases he : p.enqeueNewInstance (some item) key with ⟨p', e | x⟩
    all_goals rw [he] at hok hfirst
    · cases hok
    · exact hfirst.next (ih hfirst.queue)

theorem fill_null (key : String) (n : ℕ) (p : ObjectPool) : (p.fill none key n).1 = p := by
  cases n <;> rfl

def cleared (dicEntry : String) (p : ObjectPool) : ObjectPool :=
  if dicEntry ∈ p.poolDic then p.clearPool else p

/-- Neither `poolLookUp.Add` nor `Instantiate` throws. -/
def Accepts (pooledSizePrefab : Option Component) (dicEntry : String) (p : ObjectPool) : Prop :=
  (dicEntry ∈ p.poolDic ∨ dicEntry ∉ p.poolLookUp) ∧ pooledSizePrefab.isSome

instance (pooledSizePrefab : Option Component) (dicEntry : String) (p : ObjectPool) :
    Decidable (p.Accepts pooledSizePrefab dicEntry) :=
  inferInstanceAs (Decidable (_ ∧ _))

theorem mem_cleared_lookUp {dicEntry : String} : dicEntry ∈ (p.cleared dicEntry).poolLookUp ↔
    ¬ (dicEntry ∈ p.poolDic ∨ dicEntry ∉ p.poolLookUp) := by
  rw [cleared]
  split_ifs with h
  · simp [clearPool, h]
  · simp [h]

theorem setUpPool_fills (pooledSizePrefab : Option Component) (ammount : ℤ) (dicEntry : String)
    (p : ObjectPool) : ∃ c : ObjectPool,
      (∀ j ≠ dicEntry, c.poolDic.lookup j = (p.cleared dicEntry).poolDic.lookup j ∧
        c.poolLookUp.lookup j = (p.cleared dicEntry).poolLookUp.lookup j) ∧
      Fills dicEntry [] (if p.Accepts pooledSizePrefab dicEntry then ammount.toNat else 0) c
        (p.setUpPool pooledSizePrefab ammount dicEntry).1 := by
  have hset : ((p.cleared dicEntry).setQueue dicEntry []).poolDic.lookup dicEntry = some [] :=
    AList.lookup_insert _
  have hsame (j : String) (hj : j ≠ dicEntry) :
      ((p.cleared dicEntry).setQueue dicEntry []).poolDic.lookup j =
        (p.cleared dicEntry).poolDic.lookup j := AList.lookup_insert_ne hj
  change ∃ c : ObjectPool, _ ∧ Fills _ _ _ c (if dicEntry ∈ (p.cleared dicEntry).poolLookUp then
    ((p.cleared dicEntry).setQueue dicEntry [], some Exn.argument) else _).1
  by_cases hk : dicEntry ∈ (p.cleared dicEntry).poolLookUp
  · have ha : ¬ p.Accepts pooledSizePrefab dicEntry := fun h => mem_cleared_lookUp.mp hk h.1
    refine ⟨_, fun j hj => ⟨hsame j hj, rfl⟩, ?_⟩
    rw [if_pos hk, if_neg ha]
    exact fills_none hset
  · rw [if_neg hk]
    refine ⟨{ (p.cleared dicEntry).setQueue dicEntry [] with
      poolLookUp := (p.cleared dicEntry).poolLookUp.insert dicEntry pooledSizePrefab },
      fun j hj => ⟨hsame j hj, AList.lookup_insert_ne hj⟩, ?_⟩
    cases pooledSizePrefab with
    | none =>
      have ha : ¬ p.Accepts none dicEntry := fun h => Bool.false_ne_true h.2
      rw [if_neg ha]
      exact (fill_null dicEntry _ _).symm ▸ fills_none hset
    | some item =>
      rw [if_pos ⟨not_not.mp (mt mem_cleared_lookUp.mpr hk), rfl⟩]
      apply fill_fills item
      exact hset

theorem cleared_alone_iff (dicEntry : String) (p : ObjectPool) :
    (∀ j ≠ dicEntry, (p.cleared dicEntry).poolDic.lookup j = p.poolDic.lookup j ∧
        (p.cleared dicEntry).poolLookUp.lookup j = p.poolLookUp.lookup j) ↔
      (dicEntry ∈ p.poolDic → ∀ j ≠ dicEntry, j ∉ p.poolDic ∧ j ∉ p.poolLookUp) := by
  by_cases hk : dicEntry ∈ p.poolDic
  · have hnone (j : String) : (p.cleared dicEntry).poolDic.lookup j = none ∧
        (p.cleared dicEntry).poolLookUp.lookup j = none := by
      simp [cleared, hk, clearPool]
    simp only [hnone, hk, forall_const, eq_comm (a := none), AList.lookup_eq_none]
  · simp [cleared, hk]

def SetsUpAlone (pooledSizePrefab : Option Component) (ammount : ℤ) (dicEntry : String)
    (p : ObjectPool) : Prop :=
  let p' := (p.setUpPool pooledSizePrefab ammount dicEntry).1
  (∀ j ≠ dicEntry, p'.poolDic.lookup j = p.poolDic.lookup j ∧
      p'.poolLookUp.lookup j = p.poolLookUp.lookup j) ∧
    ∃ q, p'.poolDic.lookup dicEntry = some q ∧ q.length = ammount.toNat ∧ q.Nodup ∧
      ∀ x ∈ q, (p'.objects x).activeSelf = false

/-- A key that is set up again takes all the other keys out of the dictionaries. -/
theorem setUpPool_alone_iff (pooledSizePrefab : Option Component) (ammount : ℤ) (dicEntry : String)
    (p : ObjectPool) :
    p.SetsUpAlone pooledSizePrefab ammount dicEntry ↔
      (dicEntry ∈ p.poolDic → ∀ j ≠ dicEntry, j ∉ p.poolDic ∧ j ∉ p.poolLookUp) ∧
        (0 < ammount → p.Accepts pooledSizePrefab dicEntry) := by
  obtain ⟨c, hc, hf⟩ := setUpPool_fills pooledSizePrefab ammount dicEntry p
  rw [← cleared_alone_iff, SetsUpAlone]
  apply and_congr
  · apply forall₂_congr
    intro j hj
    rw [hf.queues j hj, hf.prefabs, (hc j hj).1, (hc j hj).2]
  · have hq := hf.queue
    rw [List.nil_append] at hq
    constructor
    · rintro ⟨q, hlookup, hlength, -⟩ hpos
      obtain rfl : q = _ := Option.some.inj (hlookup.symm.trans hq)
      rw [List.length_range'] at hlength
      by_contra ha
      rw [if_neg ha] at hlength
      omega
    · intro ha
      refine ⟨_, hq, ?_, List.nodup_range', hf.inactive⟩
      rw [List.length_range']
      split_ifs with h
      · rfl
      · have := mt ha h
        omega

theorem setUpAgain_dropsOther : ¬ ∀ (pooledSizePrefab : Component) (ammount : ℤ)
    (dicEntry : String) (p : ObjectPool), 0 ≤ ammount →
      p.SetsUpAlone (some pooledSizePrefab) ammount dicEntry := by
  intro h
  let bullet : Component := ⟨true, ⟨0, 0, 0⟩⟩
  let p := ((empty.setUpPool (some bullet) 1 "BaseBullet").1.setUpPool (some bullet) 1 "Laser").1
  have hlaser := ((h bullet 1 "BaseBullet" p (by decide)).1 "Laser" (by decide)).1
  exact absurd hlaser (by decide)

end ObjectPool

end SeminarTouhou
