import SeminarTouhou.Level.Pattern

namespace SeminarTouhou

open Library

/-- From `p` to `p'` the bullets `l` were switched off and enqueued. -/
structure Gives (p p' : ObjectPool) (l : List ℕ) : Prop where
  queue : ∀ name, p'.queue name = if name = "BaseBullet" then p.queue name ++ l else p.queue name
  instances : p'.instances = p.instances
  active : ∀ b, (p'.objects b).activeSelf = if b ∈ l then false else (p.objects b).activeSelf
  keyed : "BaseBullet" ∈ p'.poolDic ↔ "BaseBullet" ∈ p.poolDic

namespace Gives

variable {p p' p'' : ObjectPool} {l m : List ℕ}

theorem nil (p : ObjectPool) : Gives p p [] := by
  constructor
  · intro name
    simp
  · rfl
  · simp
  · rfl

theorem trans (h : Gives p p' l) (h' : Gives p' p'' m) : Gives p p'' (l ++ m) := by
  constructor
  · intro name
    rw [h'.queue, h.queue]
    split_ifs
    · rw [List.append_assoc]
    · rfl
  · rw [h'.instances, h.instances]
  · intro b
    rw [h'.active, h.active]
    by_cases hm : b ∈ m
    · simp [hm]
    · simp [hm]
  · rw [h'.keyed, h.keyed]

end Gives

/-- From `p` to `p'` the front `x` of the queue was handed out and switched on. -/
structure Takes (p p' : ObjectPool) (x : ℕ) : Prop where
  queue : ∃ q, p.queue "BaseBullet" = x :: q ∧
    ∀ name, p'.queue name = if name = "BaseBullet" then q else p.queue name
  instances : p'.instances = p.instances
  active : ∀ b, (p'.objects b).activeSelf = if b = x then true else (p.objects b).activeSelf
  keyed : "BaseBullet" ∈ p'.poolDic

namespace Pattern

variable {p : ObjectPool}

theorem returnBullet_gives (hp : "BaseBullet" ∈ p.poolDic) (b : ℕ) :
    (returnBullet b p).2 = none ∧ Gives p (returnBullet b p).1 [b] := by
  have hoff : ((p.setActive b false).objects b).activeSelf = false := by simp
  obtain ⟨-, hr, hq⟩ | ⟨hn, -⟩ := ObjectPool.enqeueObject_queue "BaseBullet" hoff
  · refine ⟨hr, hq, ?_, ?_, ?_⟩
    · simp [returnBullet]
    · intro x
      rw [returnBullet, ObjectPool.enqeueObject_active hoff]
      simp
    · simp only [returnBullet, ObjectPool.mem_enqeueObject]
      rfl
  · exact absurd hp hn

theorem returnAll_gives (hp : "BaseBullet" ∈ p.poolDic) (l : List ℕ) :
    (returnAll l p).2 = none ∧ Gives p (returnAll l p).1 l := by
  induction l generalizing p with
  | nil => exact ⟨rfl, Gives.nil p⟩
  | cons b bs ih =>
    obtain ⟨hr, hg⟩ := returnBullet_gives hp b
    simp only [returnAll]
    rcases he : returnBullet b p with ⟨p', _ | e⟩
    all_goals simp only [he] at hr hg
    · obtain ⟨hr', hg'⟩ := ih (hg.keyed.mpr hp)
      exact ⟨hr', hg.trans hg'⟩
    · exact absurd hr (by simp)

theorem clearLoop_gives {l : List ℕ} (hp : "BaseBullet" ∈ p.poolDic ∨ l = []) (hn : l.Nodup)
    (ha : ∀ b ∈ l, (p.objects b).activeSelf = true) :
    (clearLoop l p).2 = none ∧ Gives p (clearLoop l p).1 l := by
  induction l generalizing p with
  | nil => exact ⟨rfl, Gives.nil p⟩
  | cons b bs ih =>
    have hp : "BaseBullet" ∈ p.poolDic := hp.resolve_right (by simp)
    obtain ⟨hb, hn⟩ := List.nodup_cons.mp hn
    obtain ⟨hr, hg⟩ := returnBullet_gives hp b
    simp only [clearLoop, ha b List.mem_cons_self, if_true]
    rcases he : returnBullet b p with ⟨p', _ | e⟩
    all_goals simp only [he] at hr hg
    · have ha' : ∀ x ∈ bs, (p'.objects x).activeSelf = true := by
        intro x hx
        have hxb : x ≠ b := fun hxb => hb (hxb ▸ hx)
        rw [hg.active, if_neg (by simpa using hxb)]
        exact ha x (List.mem_cons_of_mem b hx)
      obtain ⟨hr', hg'⟩ := ih (Or.inl (hg.keyed.mpr hp)) hn ha'
      exact ⟨hr', hg.trans hg'⟩
    · exact absurd hr (by simp)

structure Returns (e : Pattern) (p : ObjectPool) (r : Pattern × ObjectPool) (l : List ℕ) :
    Prop where
  gives : Gives p r.2 l
  bullets : e.bullets.Perm (l ++ r.1.bullets)

variable {e : Pattern}

theorem clearBullets_returns (hp : "BaseBullet" ∈ p.poolDic ∨ e.bullets = [])
    (hn : e.bullets.Nodup) (ha : ∀ b ∈ e.bullets, (p.objects b).activeSelf = true) :
    Returns e p (e.clearBullets p) e.bullets ∧ (e.clearBullets p).1 = { e with bullets := [] } := by
  obtain ⟨hr, hg⟩ := clearLoop_gives hp hn ha
  simp only [clearBullets]
  rcases he : clearLoop e.bullets p with ⟨p', _ | x⟩
  all_goals simp only [he] at hr hg
  · refine ⟨⟨hg, ?_⟩, rfl⟩
    simp
  · exact absurd hr (by simp)

theorem cleanList_gives (hp : "BaseBullet" ∈ p.poolDic) (removal l : List ℕ) :
    ∃ p', cleanList removal l p =
        ((l.filter (fun b => (p'.objects b).activeSelf), p'), none) ∧ Gives p p' removal := by
  obtain ⟨hr, hg⟩ := returnAll_gives hp removal
  simp only [cleanList]
  rcases he : returnAll removal p with ⟨p', _ | x⟩
  all_goals simp only [he] at hr hg
  · exact ⟨p', rfl, hg⟩
  · exact absurd hr (by simp)

theorem perm_removal {expired l : List ℕ} {p' : ObjectPool}
    (ha : ∀ b ∈ e.bullets, (p.objects b).activeSelf = true) (hg : Gives p p' l)
    (hl : ∀ b, b ∈ l ↔ b ∈ e.bullets.filter (· ∈ expired)) :
    e.bullets.Perm (e.bullets.filter (· ∈ expired) ++
      e.bullets.filter (fun b => (p'.objects b).activeSelf)) := by
  have hsame : e.bullets.filter (fun b => (p'.objects b).activeSelf) =
      e.bullets.filter (fun b => !decide (b ∈ expired)) := by
    apply List.filter_congr
    intro b hb
    rw [hg.active, ha b hb]
    by_cases hx : b ∈ expired
    · simp [hl, hb, hx]
    · simp [hl, hx]
  rw [hsame]
  exact (List.filter_append_perm _ _).symm

theorem updateProjectile_returns (enqueuesInLoop : Bool) (expired : List ℕ)
    (hp : "BaseBullet" ∈ p.poolDic ∨ e.bullets = [])
    (ha : ∀ b ∈ e.bullets, (p.objects b).activeSelf = true) :
    let removal := e.bullets.filter (· ∈ expired)
    let r := updateProjectile enqueuesInLoop expired e p
    Gives p r.2 ((if enqueuesInLoop then removal else []) ++ removal) ∧
      e.bullets.Perm (removal ++ r.1.bullets) ∧
      (r.1.life = e.life ∨ r.1.life = e.life.destroy) := by
  have hlife : ∀ l : List ℕ, (if l = [] then e.life.destroy else e.life) = e.life ∨
      (if l = [] then e.life.destroy else e.life) = e.life.destroy := by
    intro l
    split_ifs
    · exact Or.inr rfl
    · exact Or.inl rfl
  by_cases hr : e.bullets.filter (· ∈ expired) = []
  · have hz : returnAll [] p = (p, none) := rfl
    simp only [updateProjectile, hr, hz, ite_self, if_true, List.append_nil, List.nil_append]
    exact ⟨Gives.nil p, List.Perm.refl _, hlife e.bullets⟩
  · have hp : "BaseBullet" ∈ p.poolDic := by
      apply hp.resolve_right
      intro he
      simp [he] at hr
    cases enqueuesInLoop with
    | false =>
      obtain ⟨p', hc, hg⟩ := cleanList_gives hp (e.bullets.filter (· ∈ expired)) e.bullets
      simp only [updateProjectile, Bool.false_eq_true, if_false, hr, hc, List.nil_append]
      exact ⟨hg, perm_removal ha hg (fun _ => Iff.rfl), hlife _⟩
    | true =>
      obtain ⟨hr', hg⟩ := returnAll_gives hp (e.bullets.filter (· ∈ expired))
      rcases he : returnAll (e.bullets.filter (· ∈ expired)) p with ⟨p', _ | x⟩
      all_goals simp only [he] at hr' hg
      · obtain ⟨p'', hc, hg'⟩ := cleanList_gives (hg.keyed.mpr hp)
          (e.bullets.filter (· ∈ expired)) e.bullets
        simp only [updateProjectile, if_true, he, if_false, hr, hc]
        refine ⟨hg.trans hg', perm_removal ha (hg.trans hg') ?_, hlife _⟩
        intro b
        rw [List.mem_append, or_self_iff]
      · exact absurd hr' (by simp)

theorem spawn_life (i : ℕ) (spawnPos : Vector3) (e : Pattern) (p : ObjectPool) :
    (e.spawn i spawnPos p).1.life = e.life := by
  simp only [spawn]
  split_ifs
  · rcases p.dequeueObject "BaseBullet" with ⟨p', x | x⟩ <;> rfl
  · rfl

theorem spawn_takes (i : ℕ) (spawnPos : Vector3)
    (hx : i < e.ammount → ¬ p.Exhausted "BaseBullet") :
    (∃ x, Takes p (e.spawn i spawnPos p).2 x ∧ e.takes i p = [x] ∧
        (e.spawn i spawnPos p).1.bullets = e.bullets ++ [x]) ∨
      (Gives p (e.spawn i spawnPos p).2 [] ∧ e.takes i p = [] ∧
        (e.spawn i spawnPos p).1.bullets = e.bullets) := by
  by_cases hi : i < e.ammount
  · simp only [spawn, takes, hi, if_true]
    obtain ⟨ho, hk⟩ := ObjectPool.dequeueObject_frame (hx hi)
    obtain ⟨x, q, hq, hr, hn, hp⟩ | ⟨y, hr, hn, hp⟩ := ObjectPool.dequeueObject_queue (hx hi)
    all_goals
      rcases hd : p.dequeueObject "BaseBullet" with ⟨p', z | z⟩
      all_goals simp only [hd] at ho hk hr hn hp
    · exact absurd hr (by simp)
    · obtain rfl := Except.ok.inj hr
      refine Or.inl ⟨z, ⟨⟨q, hq, ?_⟩, hn, ?_, ?_⟩, rfl, rfl⟩
      · exact hp
      · intro b
        simp [ho]
      · apply (hk "BaseBullet").mpr
        by_contra hm
        simp [ObjectPool.queue, AList.lookup_eq_none.mpr hm] at hq
    · refine Or.inr ⟨⟨?_, hn, ?_, hk _⟩, rfl, rfl⟩
      · intro name
        simp [hp]
      · simp [ho]
    · exact absurd hr (by simp)
  · simp only [spawn, takes, hi, if_false]
    exact Or.inr ⟨Gives.nil p, trivial, trivial⟩

theorem spawn_exhausted {i : ℕ} (spawnPos : Vector3) (hi : i < e.ammount)
    (hx : p.Exhausted "BaseBullet") :
    ∃ x, e.takes i p = [x] ∧ (e.spawn i spawnPos p).1.bullets = e.bullets ++ [x] ∧
      p.queue "BaseBullet" = [] ∧ (e.spawn i spawnPos p).2.queue "BaseBullet" = [x] := by
  obtain ⟨item, hs, hd⟩ := ObjectPool.dequeueObject_exhausted hx
  have hempty : p.queue "BaseBullet" = [] := ObjectPool.queue_of_lookup hx.1
  obtain ⟨-, -, hr, -, hq⟩ | ⟨hn, -⟩ := p.enqeueNewInstance_queue item "BaseBullet"
  · simp only [spawn, takes, hi, if_true, hd]
    rcases he : p.enqeueNewInstance item "BaseBullet" with ⟨p', y | y⟩
    all_goals simp only [he] at hr hq
    · exact absurd hr (by simp)
    · obtain rfl := Except.ok.inj hr
      refine ⟨p.instances, rfl, rfl, hempty, ?_⟩
      simp [hq, hempty]
  · exact absurd ⟨hs, Dict.mem_of_lookup hx.1⟩ hn

def updates (e : Pattern) : Bool :=
  e.kind = .cirlcePattern ∨ e.kind = .singleShotPattern ∨ e.cIsRunning = false

def returnsTwice (e : Pattern) : Bool := e.kind = .singleShotPattern ∨ e.kind = .snakePattern

theorem fixedUpdate_eq (expired : List ℕ) (e : Pattern) (p : ObjectPool) :
    e.fixedUpdate expired p =
      if e.updates then updateProjectile e.returnsTwice expired e p else (e, p) := by
  rcases e with ⟨kind, ammount, bullets, cIsRunning, spawning, life⟩
  cases kind <;> cases cIsRunning <;> rfl

end Pattern

namespace PatternSession

variable {s : PatternSession} {k : ℕ} {took l : List ℕ} {r : Pattern × ObjectPool}

@[simp] theorem pool_turn : (s.turn k took r).pool = r.2 := rfl

@[simp] theorem bullets_turn (j : ℕ) :
    (s.turn k took r).bullets j = if j = k then r.1.bullets else s.bullets j := by
  by_cases hj : j = k
  · subst hj
    simp [bullets, turn]
  · simp [bullets, turn, hj]

@[simp] theorem life_turn (j : ℕ) :
    (s.turn k took r).life j = if j = k then r.1.life else s.life j := by
  by_cases hj : j = k
  · subst hj
    simp [life, turn]
  · simp [life, turn, hj]

@[simp] theorem taken_turn (j : ℕ) :
    (s.turn k took r).taken j = if j = k then s.taken k ++ took else s.taken j := by
  by_cases hj : j = k
  · subst hj
    simp [turn]
  · simp [turn, hj]

@[simp] theorem returned_turn (j : ℕ) :
    (s.turn k took r).returned j = if j = k then
      s.returned k ++ (r.2.queue "BaseBullet").drop (s.pool.queue "BaseBullet").length
    else s.returned j := by
  by_cases hj : j = k
  · subst hj
    simp [turn]
  · simp [turn, hj]

/-- Each bullet an emitter was handed is returned once or still in its list, and the list of an
emitter that is gone is empty. -/
def Accounted (s : PatternSession) : Prop :=
  ∀ k, (s.taken k).Perm (s.returned k ++ s.bullets k) ∧ (s.life k = .destroyed → s.bullets k = [])

structure Kept (s : PatternSession) : Prop where
  tidy : s.pool.Tidy s.bullets
  active : ∀ k, ∀ b ∈ s.bullets k, (s.pool.objects b).activeSelf = true
  keyed : "BaseBullet" ∈ s.pool.poolDic ∨ ∀ k, s.bullets k = []
  accounted : s.Accounted

theorem start_kept : start.Kept :=
  ⟨ObjectPool.Tidy.empty, fun _ _ hb => absurd hb List.not_mem_nil, Or.inr (fun _ => rfl),
    fun _ => ⟨List.Perm.refl _, fun _ => rfl⟩⟩

theorem Kept.exclusive (h : s.Kept) {j b : ℕ} (hk : b ∈ s.bullets k) (hj : b ∈ s.bullets j) :
    k = j :=
  Sum.inl.inj (h.tidy.exclusive.same (i := .inl k) (j := .inl j) hk hj)

theorem Kept.returns (h : s.Kept) (hr : Gives s.pool r.2 l)
    (hb : (s.bullets k).Perm (l ++ r.1.bullets)) (hg : r.1.life = .destroyed → r.1.bullets = []) :
    (s.turn k [] r).Kept := by
  constructor
  · apply ObjectPool.Tidy.enqueue h.tidy (l := l) (i := k) _ _ hr.instances hr.queue
    · simpa using hb
    · intro j hj
      simp [hj]
  · intro j b hj
    rw [pool_turn, hr.active]
    have hn : (l ++ r.1.bullets).Nodup := hb.nodup_iff.mp (h.tidy.exclusive.nodup (.inl k))
    rw [bullets_turn] at hj
    split_ifs at hj with hjk
    · rw [if_neg (fun hl => List.disjoint_of_nodup_append hn hl hj)]
      exact h.active k b (hb.mem_iff.mpr (List.mem_append_right l hj))
    · rw [if_neg (fun hl => hjk (h.exclusive hj (hb.mem_iff.mpr (List.mem_append_left _ hl))))]
      exact h.active j b hj
  · refine h.keyed.imp hr.keyed.mpr ?_
    intro hnil j
    rw [bullets_turn]
    split_ifs
    · have hk := hnil k
      rw [hk] at hb
      exact (List.append_eq_nil_iff.mp hb.symm.eq_nil).2
    · exact hnil j
  · intro j
    have hq : r.2.queue "BaseBullet" = s.pool.queue "BaseBullet" ++ l := by simp [hr.queue]
    simp only [taken_turn, returned_turn, bullets_turn, life_turn, hq, List.drop_left,
      List.append_nil]
    split_ifs with hjk
    · refine ⟨?_, hg⟩
      rw [List.append_assoc]
      exact (h.accounted k).1.trans (hb.append_left _)
    · exact h.accounted j

theorem Kept.takes (h : s.Kept) {x : ℕ} (hr : Takes s.pool r.2 x)
    (hb : r.1.bullets = s.bullets k ++ [x]) (hg : r.1.life ≠ .destroyed) :
    (s.turn k [x] r).Kept := by
  obtain ⟨q, hq, hp⟩ := hr.queue
  constructor
  · apply ObjectPool.Tidy.dequeue h.tidy (i := k) hq hp hr.instances
    · simp [hb]
    · intro j hj
      simp [hj]
  · intro j b hj
    rw [pool_turn, hr.active]
    rw [bullets_turn] at hj
    split_ifs with hbx
    · rfl
    · split_ifs at hj
      · rw [hb] at hj
        obtain hj | hj := List.mem_append.mp hj
        · exact h.active k b hj
        · exact absurd (List.mem_singleton.mp hj) hbx
      · exact h.active j b hj
  · exact Or.inl hr.keyed
  · intro j
    have hq' : r.2.queue "BaseBullet" = q := by simp [hp]
    simp only [taken_turn, returned_turn, bullets_turn, life_turn, hq', hq, List.length_cons]
    split_ifs with hjk
    · refine ⟨?_, fun hd => absurd hd hg⟩
      rw [List.drop_of_length_le (Nat.le_succ _), List.append_nil, hb, ← List.append_assoc]
      exact (h.accounted k).1.append_right _
    · exact h.accounted j

/-- The step enqueues a bullet that it enqueues or hands out once more. -/
def Doubles (s : PatternSession) : PatternAction → Prop
  | .start _ _ ammount _ => 0 < ammount ∧ s.pool.Exhausted "BaseBullet"
  | .resume k _ => ∃ e ∈ s.emitters k, ∃ i ∈ e.spawning, i < e.ammount ∧
      s.pool.Exhausted "BaseBullet"
  | .fixedUpdate k expired => ∃ e ∈ s.emitters k, e.updates ∧ e.returnsTwice ∧
      ∃ b ∈ e.bullets, b ∈ expired
  | _ => False

instance (s : PatternSession) (a : PatternAction) : Decidable (s.Doubles a) := by
  rcases a with ⟨⟩ <;> dsimp only [Doubles] <;> infer_instance

theorem bullets_of_emitter {e : Pattern} (he : s.emitters k = some e) : s.bullets k = e.bullets := by
  simp [bullets, he]

theorem life_of_emitter {e : Pattern} (he : s.emitters k = some e) : s.life k = e.life := by
  simp [life, he]

theorem exists_emitter (hk : s.life k ≠ .destroyed) :
    ∃ e, s.emitters k = some e ∧ e.life ≠ .destroyed := by
  rcases he : s.emitters k with _ | e
  · simp [life, he] at hk
  · exact ⟨e, rfl, life_of_emitter he ▸ hk⟩

theorem destroy_ne {l : Life} (h : l ≠ .destroyed) : l.destroy ≠ .destroyed := by
  cases l <;> simp_all [Life.destroy]

theorem Kept.spawn (h : s.Kept) {e : Pattern} (hb : s.bullets k = e.bullets)
    (hg : e.life ≠ .destroyed) (i : ℕ) (spawnPos : Vector3)
    (hx : i < e.ammount → ¬ s.pool.Exhausted "BaseBullet") :
    (s.turn k (e.takes i s.pool) (e.spawn i spawnPos s.pool)).Kept := by
  have hlife : (e.spawn i spawnPos s.pool).1.life ≠ .destroyed := by rwa [Pattern.spawn_life]
  obtain ⟨x, hr, ht, hbul⟩ | ⟨hr, ht, hbul⟩ := Pattern.spawn_takes (e := e) i spawnPos hx
  · rw [ht]
    exact h.takes hr (by rw [hbul, hb]) hlife
  · rw [ht]
    exact h.returns hr (by rw [hbul, hb]; rfl) (fun hd => absurd hd hlife)

theorem not_accounted_of_length (h : s.Accounted)
    (hlt : took.length + (s.bullets k).length < r.1.bullets.length +
      ((r.2.queue "BaseBullet").drop (s.pool.queue "BaseBullet").length).length) :
    ¬ (s.turn k took r).Accounted := by
  intro ha
  have hold := (h k).1.length_eq
  have hnew := (ha k).1.length_eq
  simp only [taken_turn, returned_turn, bullets_turn, if_true, List.length_append] at hold hnew
  omega

theorem spawn_not_accounted (h : s.Kept) {e : Pattern} (hb : s.bullets k = e.bullets) {i : ℕ}
    (spawnPos : Vector3) (hi : i < e.ammount) (hx : s.pool.Exhausted "BaseBullet") :
    ¬ (s.turn k (e.takes i s.pool) (e.spawn i spawnPos s.pool)).Accounted := by
  obtain ⟨x, ht, hbul, hq, hq'⟩ := Pattern.spawn_exhausted (e := e) spawnPos hi hx
  apply not_accounted_of_length h.accounted
  rw [ht, hbul, hq, hq', hb]
  simp only [List.length_append, List.length_cons, List.length_nil, List.drop_zero]
  omega

theorem fixedUpdate_kept (h : s.Kept) {e : Pattern} (he : s.emitters k = some e)
    (hg : e.life ≠ .destroyed) {expired : List ℕ} (hx : ¬ s.Doubles (.fixedUpdate k expired)) :
    (s.turn k [] (e.fixedUpdate expired s.pool)).Kept := by
  have hb := bullets_of_emitter he
  rw [Pattern.fixedUpdate_eq]
  by_cases hu : e.updates
  · rw [if_pos hu]
    obtain ⟨hr, hperm, hlife⟩ := Pattern.updateProjectile_returns e.returnsTwice expired
      (h.keyed.imp_right (fun hnil => hb ▸ hnil k)) (hb ▸ h.active k)
    have honce : (if e.returnsTwice then e.bullets.filter (· ∈ expired) else []) = [] := by
      split_ifs with ht
      · rw [List.filter_eq_nil_iff]
        intro b hbe hex
        exact hx ⟨e, he, hu, ht, b, hbe, by simpa using hex⟩
      · rfl
    rw [honce, List.nil_append] at hr
    apply h.returns hr (by rw [hb]; exact hperm)
    intro hd
    obtain hl | hl := hlife
    · exact absurd (hl ▸ hd) hg
    · exact absurd (hl ▸ hd) (destroy_ne hg)
  · rw [if_neg hu]
    exact h.returns (Gives.nil _) (by rw [hb]; rfl) (fun hd => absurd hd hg)

theorem fixedUpdate_not_accounted (h : s.Kept) {e : Pattern} (he : s.emitters k = some e)
    {expired : List ℕ} (hu : e.updates) (ht : e.returnsTwice)
    (hx : ∃ b ∈ e.bullets, b ∈ expired) :
    ¬ (s.turn k [] (e.fixedUpdate expired s.pool)).Accounted := by
  have hb := bullets_of_emitter he
  rw [Pattern.fixedUpdate_eq, if_pos hu]
  obtain ⟨hr, hperm, -⟩ := Pattern.updateProjectile_returns e.returnsTwice expired
    (h.keyed.imp_right (fun hnil => hb ▸ hnil k)) (hb ▸ h.active k)
  have hpos : 0 < (e.bullets.filter (· ∈ expired)).length := by
    obtain ⟨b, hbe, hex⟩ := hx
    exact List.length_pos_of_mem (List.mem_filter.mpr ⟨hbe, by simpa using hex⟩)
  have hlen := hperm.length_eq
  apply not_accounted_of_length h.accounted
  rw [if_pos ht] at hr
  have hq := hr.queue "BaseBullet"
  rw [if_pos rfl] at hq
  rw [hq, List.drop_left, hb]
  simp only [List.length_append, List.length_nil] at hlen ⊢
  omega

theorem next_kept {a : PatternAction} (h : s.Kept) (he : s.Enabled a) (hx : ¬ s.Doubles a) :
    (s.next a).Kept := by
  cases a with
  | setUpPool pooledSizePrefab ammount =>
    obtain ⟨hold, hkey⟩ := s.pool.setUpPool_old pooledSizePrefab ammount "BaseBullet"
    refine ⟨h.tidy.setUpPool _ _ _, ?_, Or.inl hkey, h.accounted⟩
    intro k b hb
    simp only [next]
    rw [hold b (h.tidy.made (.inl k) b hb)]
    exact h.active k b hb
  | start k kind ammount spawnPos =>
    have hb : s.bullets k = (Pattern.started kind ammount).bullets := by
      simp only [Enabled] at he
      simp [bullets, he, Pattern.started]
    apply h.spawn hb (by simp [Pattern.started])
    exact fun hi hex => hx ⟨by simpa [Pattern.started] using hi, hex⟩
  | resume k spawnPos =>
    obtain ⟨e, hk, hg⟩ := exists_emitter he.1
    simp only [next, hk]
    rcases hi : e.spawning with _ | i
    · exact h
    · apply h.spawn (bullets_of_emitter hk) hg
      exact fun hlt hex => hx ⟨e, hk, i, hi, hlt, hex⟩
  | fixedUpdate k expired =>
    obtain ⟨e, hk, hg⟩ := exists_emitter he
    simp only [next, act, hk]
    exact fixedUpdate_kept h hk hg hx
  | clearBullets k =>
    obtain ⟨e, hk, hg⟩ := exists_emitter he
    have hb := bullets_of_emitter hk
    obtain ⟨hr, hc⟩ := Pattern.clearBullets_returns (h.keyed.imp_right (fun hnil => hb ▸ hnil k))
      (hb ▸ h.tidy.exclusive.nodup (.inl k)) (hb ▸ h.active k)
    simp only [next, act, hk]
    apply h.returns hr.gives (by rw [hb]; exact hr.bullets)
    rw [hc]
    exact fun _ => rfl
  | destroy k =>
    obtain ⟨e, hk, hg⟩ := exists_emitter he
    simp only [next, act, hk]
    apply h.returns (Gives.nil _) (by rw [bullets_of_emitter hk]; rfl)
    exact fun hd => absurd hd (destroy_ne hg)
  | onDestroy k =>
    obtain ⟨e, hk, hg⟩ := exists_emitter he
    have hb := bullets_of_emitter hk
    obtain ⟨hr, hc⟩ := Pattern.clearBullets_returns
      (e := { e with life := .destroyed, spawning := none })
      (h.keyed.imp_right (fun hnil => hb ▸ hnil k))
      (hb ▸ h.tidy.exclusive.nodup (.inl k)) (hb ▸ h.active k)
    simp only [next, act, hk, Pattern.onDestroy]
    apply h.returns hr.gives (by rw [hb]; exact hr.bullets)
    rw [hc]
    exact fun _ => rfl

theorem next_not_accounted {a : PatternAction} (h : s.Kept) (he : s.Enabled a)
    (hx : s.Doubles a) : ¬ (s.next a).Accounted := by
  cases a with
  | start k kind ammount spawnPos =>
    have hb : s.bullets k = (Pattern.started kind ammount).bullets := by
      simp only [Enabled] at he
      simp [bullets, he, Pattern.started]
    exact spawn_not_accounted h hb spawnPos (by simpa [Pattern.started] using hx.1) hx.2
  | resume k spawnPos =>
    obtain ⟨e, hk, i, hi, hlt, hex⟩ := hx
    simp only [next, Option.mem_def.mp hk, Option.mem_def.mp hi]
    exact spawn_not_accounted h (bullets_of_emitter hk) spawnPos hlt hex
  | fixedUpdate k expired =>
    obtain ⟨e, hk, hu, ht, hb⟩ := hx
    simp only [next, act, Option.mem_def.mp hk]
    exact fixedUpdate_not_accounted h hk hu ht hb
  | setUpPool | clearBullets | destroy | onDestroy => exact absurd hx id

theorem bullets_returned_once (as : List PatternAction) (hl : system.Legal start as) :
    system.Meets (fun s a => (s.next a).Accounted) start as ↔
      system.Meets (fun s a => ¬ s.Doubles a) start as := by
  apply System.meets_iff (I := Kept) _ _ start_kept hl
  · exact fun s a h he hx => next_kept h he hx
  · intro s a h he
    constructor
    · exact fun ha hx => next_not_accounted h he hx ha
    · exact fun hx => (next_kept h he hx).accounted

def expiredShot : List PatternAction :=
  [.setUpPool (some PoolSession.bullet) 3, .start 0 .singleShotPattern 5 ⟨0, 3, 0⟩]

theorem expiredShot_doubled :
    system.Legal start (expiredShot ++ [.fixedUpdate 0 [0]]) ∧
    ¬system.Meets (fun s a => (s.next a).Accounted) start (expiredShot ++ [.fixedUpdate 0 [0]]) := by
  refine ⟨by decide +kernel, ?_⟩
  intro h
  have hlast := (system.meets_concat h 0).1
  revert hlast
  decide +kernel

def circleOfTwo : List PatternAction :=
  [.setUpPool (some PoolSession.bullet) 3, .start 0 .cirlcePattern 2 ⟨0, 3, 0⟩,
    .fixedUpdate 0 [], .resume 0 ⟨1, 2, 0⟩, .fixedUpdate 0 [0], .destroy 0, .onDestroy 0]

theorem bullets_returned_once_circleOfTwo :
    system.Meets (fun s a => (s.next a).Accounted) start circleOfTwo :=
  (bullets_returned_once circleOfTwo (by decide +kernel)).mpr (by decide +kernel)

end PatternSession

end SeminarTouhou
