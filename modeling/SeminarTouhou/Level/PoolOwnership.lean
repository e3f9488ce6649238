import SeminarTouhou.Level.ObjectPool
import SeminarTouhou.Library.Ownership

namespace SeminarTouhou

open Library

namespace ObjectPool

variable {ι : Type*}

def place (held : ι → List ℕ) (p : ObjectPool) : ι ⊕ String → List ℕ
  | .inl i => held i
  | .inr name => p.queue name

structure Tidy (held : ι → List ℕ) (p : ObjectPool) : Prop where
  exclusive : Exclusive (place held p)
  made : ∀ i, ∀ x ∈ place held p i, x < p.instances

namespace Tidy

variable {held held' : ι → List ℕ} {p p' : ObjectPool}

theorem empty : Tidy (fun _ : ι => []) .empty := by
  have hnil : ∀ i, place (fun _ : ι => []) .empty i = [] := by
    intro i
    cases i <;> rfl
  constructor
  · apply Exclusive.empty.drop
    intro i
    rw [hnil i]
  · intro i x hx
    rw [hnil i] at hx
    exact absurd hx List.not_mem_nil

theorem fresh (h : Tidy held p) (i : ι ⊕ String) : p.instances ∉ place held p i :=
  fun hx => Nat.lt_irrefl _ (h.made i _ hx)

theorem drop (h : Tidy held p) (hn : p.instances ≤ p'.instances)
    (hq : ∀ name, (p'.queue name).Subperm (p.queue name)) : Tidy held p' := by
  have hsub : ∀ i, (place held p' i).Subperm (place held p i) := by
    intro i
    cases i with
    | inl i => exact List.Subperm.refl _
    | inr name => exact hq name
  constructor
  · exact h.exclusive.drop hsub
  · intro i x hx
    exact Nat.lt_of_lt_of_le (h.made i x ((hsub i).subset hx)) hn

theorem same (h : Tidy held p) (hn : p.instances ≤ p'.instances)
    (hq : ∀ name, p'.queue name = p.queue name) : Tidy held p' :=
  h.drop hn (fun name => hq name ▸ List.Subperm.refl _)

theorem enqeueNewInstance (h : Tidy held p) (item : Option Component) (key : String) :
    Tidy held (p.enqeueNewInstance item key).1 := by
  obtain ⟨-, -, -, hn, hq⟩ | ⟨-, -, hn, hq⟩ := enqeueNewInstance_queue item key p
  · constructor
    · apply h.exclusive.add (i := .inr key) (l := [p.instances]) (List.nodup_singleton _)
      · intro k x hx
        rw [List.mem_singleton.mp hx]
        exact h.fresh k
      · simp [place, hq]
      · intro k hk
        cases k with
        | inl i => exact List.Perm.refl _
        | inr name =>
          have hname : name ≠ key := fun he => hk (he ▸ rfl)
          simp [place, hq, hname]
    · intro i x hx
      rw [hn]
      cases i with
      | inl i => exact Nat.lt_succ_of_lt (h.made (.inl i) x hx)
      | inr name =>
        simp only [place, hq] at hx
        split_ifs at hx
        · obtain hx | hx := List.mem_append.mp hx
          · exact Nat.lt_succ_of_lt (h.made (.inr name) x hx)
          · rw [List.mem_singleton.mp hx]
            exact Nat.lt_succ_self _
        · exact Nat.lt_succ_of_lt (h.made (.inr name) x hx)
  · exact h.same hn hq

theorem fill (h : Tidy held p) (pooledSizePrefab : Option Component) (dicEntry : String) (n : ℕ) :
    Tidy held (p.fill pooledSizePrefab dicEntry n).1 := by
  induction n generalizing p with
  | zero => exact h
  | succ n ih =>
    have hnew := h.enqeueNewInstance pooledSizePrefab dicEntry
    simp only [ObjectPool.fill]
    rcases he : p.enqeueNewInstance pooledSizePrefab dicEntry with ⟨p', e | x⟩
    · simpa only [he] using hnew
    · rw [he] at hnew
      exact ih hnew

theorem setUpPool (h : Tidy held p) (pooledSizePrefab : Option Component) (ammount : ℤ)
    (dicEntry : String) : Tidy held (p.setUpPool pooledSizePrefab ammount dicEntry).1 := by
  have hcleared : Tidy held (if dicEntry ∈ p.poolDic then p.clearPool else p) := by
    split_ifs
    · exact h.drop (le_refl _) (fun _ => List.nil_subperm)
    · exact h
  generalize hp : (if dicEntry ∈ p.poolDic then p.clearPool else p) = c at hcleared
  have hset : Tidy held (c.setQueue dicEntry []) := by
    apply Tidy.drop hcleared
    · exact le_refl _
    intro name
    rw [queue_setQueue]
    split_ifs
    · exact List.nil_subperm
    · exact List.Subperm.refl _
  simp only [ObjectPool.setUpPool, hp]
  split_ifs
  · exact hset
  · apply Tidy.fill
    apply Tidy.same hset
    · exact le_refl _
    · exact fun _ => rfl

theorem dequeue (h : Tidy held p) {key : String} {x : ℕ} {q : List ℕ} {i : ι}
    (hq : p.queue key = x :: q) (hp : ∀ k, p'.queue k = if k = key then q else p.queue k)
    (hn : p'.instances = p.instances) (hi : (held' i).Perm (held i ++ [x]))
    (ho : ∀ j, j ≠ i → held' j = held j) : Tidy held' p' := by
  have hx : x ∈ place held p (.inr key) := by simp [place, hq]
  constructor
  · apply h.exclusive.transfer (i := .inr key) (j := .inl i) (l := [x]) (by simp)
    · simp [place, hp, hq]
    · exact hi
    · intro k hk hj
      cases k with
      | inl j => simp [place, ho j (fun he => hj (he ▸ rfl))]
      | inr name =>
        have hname : name ≠ key := fun he => hk (he ▸ rfl)
        simp [place, hp, hname]
  · intro k y hy
    rw [hn]
    cases k with
    | inl j =>
      by_cases hj : j = i
      · subst hj
        obtain hy | hy := List.mem_append.mp (hi.mem_iff.mp hy)
        · exact h.made (.inl j) y hy
        · rw [List.mem_singleton.mp hy]
          exact h.made _ _ hx
      · simp only [place, ho j hj] at hy
        exact h.made (.inl j) y hy
    | inr name =>
      simp only [place, hp] at hy
      split_ifs at hy
      · apply h.made (.inr key) y
        simp only [place, hq]
        exact List.mem_cons_of_mem x hy
      · exact h.made (.inr name) y hy

theorem enqueue (h : Tidy held p) {l : List ℕ} {name : String} {i : ι}
    (hi : (held i).Perm (l ++ held' i)) (ho : ∀ j, j ≠ i → held' j = held j)
    (hn : p'.instances = p.instances)
    (hq : ∀ k, p'.queue k = if k = name then p.queue k ++ l else p.queue k) : Tidy held' p' := by
  constructor
  · apply h.exclusive.transfer (i := .inl i) (j := .inr name) (l := l) (by simp)
    · exact hi
    · simp [place, hq]
    · intro k hk hname
      cases k with
      | inl j => simp [place, ho j (fun he => hk (he ▸ rfl))]
      | inr other =>
        have hother : other ≠ name := fun he => hname (he ▸ rfl)
        simp [place, hq, hother]
  · intro k y hy
    rw [hn]
    cases k with
    | inl j =>
      by_cases hj : j = i
      · subst hj
        exact h.made (.inl j) y (hi.mem_iff.mpr (List.mem_append_right l hy))
      · simp only [place, ho j hj] at hy
        exact h.made (.inl j) y hy
    | inr other =>
      simp only [place, hq] at hy
      split_ifs at hy
      · obtain hy | hy := List.mem_append.mp hy
        · exact h.made (.inr other) y hy
        · exact h.made (.inl i) y (hi.mem_iff.mpr (List.mem_append_left _ hy))
      · exact h.made (.inr other) y hy

end Tidy

end ObjectPool

structure PoolSession where
  pool : ObjectPool
  held : ℕ → List ℕ

namespace PoolSession

/-- The first argument is the caller. What `EnqeueNewInstance` returns may be kept or ignored. -/
inductive PoolAction
  | setUpPool (pooledSizePrefab : Option Component) (ammount : ℤ) (dicEntry : String)
  | clearPool
  | dequeueObject (caller : ℕ) (key : String)
  | enqeueNewInstance (caller : ℕ) (item : Option Component) (key : String) (keep : Bool)
  | enqeueObject (caller item : ℕ) (name : String)
  | setActive (caller item : ℕ) (active : Bool)

/-- Callers return and switch only what they hold, and return it deactivated. -/
def Enabled (s : PoolSession) : PoolAction → Prop
  | .enqeueObject caller item _ => item ∈ s.held caller ∧ (s.pool.objects item).activeSelf = false
  | .setActive caller item _ => item ∈ s.held caller
  | _ => True

instance (s : PoolSession) (a : PoolAction) : Decidable (s.Enabled a) := by
  cases a <;> dsimp only [Enabled] <;> infer_instance

def handOut (caller : ℕ) (s : PoolSession) : ObjectPool × Except Exn ℕ → PoolSession
  | (p, .ok x) => ⟨p, Function.update s.held caller (s.held caller ++ [x])⟩
  | (p, .error _) => ⟨p, s.held⟩

def next (s : PoolSession) : PoolAction → PoolSession
  | .setUpPool pooledSizePrefab ammount dicEntry =>
    { s with pool := (s.pool.setUpPool pooledSizePrefab ammount dicEntry).1 }
  | .clearPool => { s with pool := s.pool.clearPool }
  | .dequeueObject caller key => s.handOut caller (s.pool.dequeueObject key)
  | .enqeueNewInstance caller item key keep =>
    if keep then s.handOut caller (s.pool.enqeueNewInstance item key)
    else { s with pool := (s.pool.enqeueNewInstance item key).1 }
  | .enqeueObject caller item name =>
    match s.pool.enqeueObject item name with
    | (p, none) => ⟨p, Function.update s.held caller ((s.held caller).erase item)⟩
    | (p, some _) => ⟨p, s.held⟩
  | .setActive _ item active => { s with pool := s.pool.setActive item active }

def system : System PoolSession PoolAction := ⟨Enabled, next⟩

instance (s : PoolSession) (a : PoolAction) : Decidable (system.enabled s a) :=
  inferInstanceAs (Decidable (s.Enabled a))

def start : PoolSession := ⟨.empty, fun _ => []⟩

def Owned (s : PoolSession) : Prop :=
  (∀ name, (s.pool.queue name).Nodup) ∧ (∀ c, ∀ x ∈ s.held c, ∀ name, x ∉ s.pool.queue name) ∧
    Exclusive s.held

def Shares (s : PoolSession) : PoolAction → Prop
  | .dequeueObject _ key => s.pool.Exhausted key
  | .enqeueNewInstance _ item key keep => keep ∧ item.isSome ∧ key ∈ s.pool.poolDic
  | _ => False

instance (s : PoolSession) (a : PoolAction) : Decidable (s.Shares a) := by
  cases a <;> dsimp only [Shares] <;> infer_instance

def Tidy (s : PoolSession) : Prop := s.pool.Tidy s.held

theorem start_tidy : start.Tidy := ObjectPool.Tidy.empty

theorem Tidy.owned {s : PoolSession} (h : s.Tidy) : s.Owned := by
  refine ⟨fun name => h.exclusive.nodup (.inr name), ?_, ?_, ?_⟩
  · intro c x hx name hq
    exact absurd (h.exclusive.same (i := .inl c) (j := .inr name) hx hq) (by simp)
  · exact fun c => h.exclusive.nodup (.inl c)
  · intro c d x hc hd
    exact Sum.inl.inj (h.exclusive.same (i := .inl c) (j := .inl d) hc hd)

theorem next_tidy {s : PoolSession} {a : PoolAction} (h : s.Tidy) (he : s.Enabled a)
    (hs : ¬ s.Shares a) : (s.next a).Tidy := by
  cases a with
  | setUpPool pooledSizePrefab ammount dicEntry => exact ObjectPool.Tidy.setUpPool h _ _ _
  | clearPool => exact ObjectPool.Tidy.drop h (le_refl _) (fun _ => List.nil_subperm)
  | setActive caller item active => exact ObjectPool.Tidy.same h (le_refl _) (fun _ => rfl)
  | enqeueObject caller item name =>
    have hinst := s.pool.enqeueObject_instances item name
    obtain ⟨-, hr, hq⟩ | ⟨-, hr, hq⟩ := ObjectPool.enqeueObject_queue name he.2
    all_goals
      simp only [next]
      rcases hp : s.pool.enqeueObject item name with ⟨p, _ | e⟩
      all_goals simp only [hp] at hinst hr hq
    · apply ObjectPool.Tidy.enqueue h (i := caller) (l := [item]) _ _ hinst hq
      · dsimp only
        rw [Function.update_self]
        exact List.perm_cons_erase he.1
      · exact fun j hj => Function.update_of_ne hj _ _
    · exact absurd hr (by simp)
    · exact absurd hr (by simp)
    · exact ObjectPool.Tidy.same h hinst.ge hq
  | enqeueNewInstance caller item key keep =>
    have hnew := ObjectPool.Tidy.enqeueNewInstance h item key
    cases keep with
    | false => exact hnew
    | true =>
      obtain ⟨hi, hk, -⟩ | ⟨-, ⟨e, hr⟩, -⟩ := s.pool.enqeueNewInstance_queue item key
      · exact absurd ⟨rfl, hi, hk⟩ hs
      · simp only [next, if_true]
        rcases hp : s.pool.enqeueNewInstance item key with ⟨p, e' | x⟩
        · rw [hp] at hnew
          exact hnew
        · rw [hp] at hr
          exact absurd hr (by simp)
  | dequeueObject caller key =>
    simp only [next]
    obtain ⟨x, q, hq, hr, hn, hp⟩ | ⟨e, hr, hn, hp⟩ := ObjectPool.dequeueObject_queue hs
    all_goals
      rcases hd : s.pool.dequeueObject key with ⟨p, e' | y⟩
      all_goals simp only [hd] at hr hn hp
    · exact absurd hr (by simp)
    · obtain rfl := Except.ok.inj hr
      apply ObjectPool.Tidy.dequeue h (i := caller) hq hp hn
      · simp [handOut]
      · exact fun j hj => Function.update_of_ne hj _ _
    · exact ObjectPool.Tidy.same h hn.ge hp
    · exact absurd hr (by simp)

theorem next_shared {s : PoolSession} {a : PoolAction} (hs : s.Shares a) : ¬ (s.next a).Owned := by
  have hnew : ∀ {caller : ℕ} {item : Option Component} {key : String},
      item.isSome → key ∈ s.pool.poolDic →
      ¬ (s.handOut caller (s.pool.enqeueNewInstance item key)).Owned := by
    intro caller item key hi hk ho
    obtain ⟨-, -, hr, -, hq⟩ | ⟨hn, -⟩ := s.pool.enqeueNewInstance_queue item key
    · rcases hp : s.pool.enqeueNewInstance item key with ⟨p, e | x⟩
      · rw [hp] at hr
        exact absurd hr (by simp)
      · rw [hp] at hr hq ho
        have hx : x = s.pool.instances := Except.ok.inj hr
        apply ho.2.1 caller x (by simp [handOut]) key
        simp [handOut, hq, hx]
    · exact hn ⟨hi, hk⟩
  cases a with
  | dequeueObject caller key =>
    obtain ⟨item, hi, hd⟩ := ObjectPool.dequeueObject_exhausted hs
    simp only [next, hd]
    exact hnew hi (Dict.mem_of_lookup hs.1)
  | enqeueNewInstance caller item key keep =>
    obtain ⟨rfl, hi, hk⟩ := hs
    exact hnew hi hk
  | setUpPool | clearPool | enqeueObject | setActive => exact absurd hs id

theorem pool_ownership (as : List PoolAction) (hl : system.Legal start as) :
    system.Meets (fun s a => (s.next a).Owned) start as ↔
      system.Meets (fun s a => ¬ s.Shares a) start as := by
  apply System.meets_iff (I := Tidy) _ _ start_tidy hl
  · exact fun s a h he hs => next_tidy h he hs
  · intro s a h he
    constructor
    · exact fun ho hs => next_shared hs ho
    · exact fun hs => (next_tidy h he hs).owned

def bullet : Component := ⟨true, ⟨0, 0, 0⟩⟩

def exhaustedPool : List PoolAction :=
  [.setUpPool (some bullet) 1 "BaseBullet", .dequeueObject 0 "BaseBullet",
    .dequeueObject 1 "BaseBullet"]

theorem exhaustedPool_shares :
    system.Legal start (exhaustedPool ++ [.dequeueObject 2 "BaseBullet"]) ∧
    ¬system.Meets (fun s a => (s.next a).Owned) start
      (exhaustedPool ++ [.dequeueObject 2 "BaseBullet"]) := by
  refine ⟨by decide +kernel, ?_⟩
  intro h
  obtain ⟨-, -, hheld⟩ := system.meets_concat h
  exact absurd (hheld.same (i := 1) (j := 2) (x := 1) (by decide +kernel) (by decide +kernel))
    (by decide)

def recycledBullet : List PoolAction :=
  [.setUpPool (some bullet) 1 "BaseBullet", .dequeueObject 0 "BaseBullet", .setActive 0 0 true,
    .setActive 0 0 false, .enqeueObject 0 0 "BaseBullet", .dequeueObject 1 "BaseBullet"]

theorem pool_ownership_recycledBullet :
    system.Meets (fun s a => (s.next a).Owned) start recycledBullet :=
  (pool_ownership recycledBullet (by decide +kernel)).mpr (by decide +kernel)

end PoolSession

end SeminarTouhou
