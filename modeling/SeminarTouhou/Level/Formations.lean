import SeminarTouhou.Level.BulletReturn

namespace SeminarTouhou

open Library

namespace Pattern

variable {p : ObjectPool} {e e' : Pattern} {expired : List ℕ}

def Moves (e : Pattern) : Prop := e.updates = true ∧ e.bullets ≠ []

/-- The list of the emitter is not empty, and when the expired bullets are removed (without the pool
that throws) an active one stays. -/
def LeavesBullet (expired : List ℕ) (e : Pattern) (p : ObjectPool) : Prop :=
  e.bullets ≠ [] ∧ ((∃ b ∈ e.bullets, b ∈ expired) → "BaseBullet" ∈ p.poolDic →
    ∃ b ∈ e.bullets, b ∉ expired ∧ (p.objects b).activeSelf = true)

instance (expired : List ℕ) (e : Pattern) (p : ObjectPool) : Decidable (e.LeavesBullet expired p) :=
  inferInstanceAs (Decidable (_ ∧ (_ → _ → _)))

theorem returnAll_throws (hp : "BaseBullet" ∉ p.poolDic) {l : List ℕ} (hl : l ≠ []) :
    ∃ p' x, returnAll l p = (p', some x) := by
  obtain ⟨b, bs, rfl⟩ := List.exists_cons_of_ne_nil hl
  have hoff : ((p.setActive b false).objects b).activeSelf = false := by simp
  obtain ⟨hin, -⟩ | ⟨-, hr, -⟩ := ObjectPool.enqeueObject_queue "BaseBullet" hoff
  · exact absurd hin hp
  · refine ⟨(returnBullet b p).1, .keyNotFound, ?_⟩
    have hb : returnBullet b p = ((returnBullet b p).1, some .keyNotFound) := Prod.ext rfl hr
    rw [returnAll, hb]

theorem updateProjectile_keeps (enqueuesInLoop : Bool) (hr : e.bullets.filter (· ∈ expired) = []) :
    updateProjectile enqueuesInLoop expired e p =
      ({ e with life := if e.bullets = [] then e.life.destroy else e.life }, p) := by
  have hz : returnAll [] p = (p, none) := rfl
  simp only [updateProjectile, hr, hz, ite_self, if_true]

theorem updateProjectile_throws (enqueuesInLoop : Bool) (hp : "BaseBullet" ∉ p.poolDic)
    (hr : e.bullets.filter (· ∈ expired) ≠ []) :
    ∃ p', updateProjectile enqueuesInLoop expired e p = (e, p') := by
  obtain ⟨p', x, ht⟩ := returnAll_throws hp hr
  refine ⟨p', ?_⟩
  cases enqueuesInLoop with
  | false => simp only [updateProjectile, Bool.false_eq_true, if_false, hr, cleanList, ht]
  | true => simp only [updateProjectile, if_true, ht]

theorem updateProjectile_cleans (enqueuesInLoop : Bool) (hp : "BaseBullet" ∈ p.poolDic)
    (hr : e.bullets.filter (· ∈ expired) ≠ []) :
    ∃ p', (∀ b, (p'.objects b).activeSelf =
        if b ∈ e.bullets.filter (· ∈ expired) then false else (p.objects b).activeSelf) ∧
      updateProjectile enqueuesInLoop expired e p =
        ({ e with
            bullets := e.bullets.filter (fun b => (p'.objects b).activeSelf)
            life := if e.bullets.filter (fun b => (p'.objects b).activeSelf) = [] then e.life.destroy
              else e.life }, p') := by
  cases enqueuesInLoop with
  | false =>
    obtain ⟨p', hc, hg⟩ := cleanList_gives hp (e.bullets.filter (· ∈ expired)) e.bullets
    refine ⟨p', hg.active, ?_⟩
    simp only [updateProjectile, Bool.false_eq_true, if_false, hr, hc]
  | true =>
    obtain ⟨hn, hg⟩ := returnAll_gives hp (e.bullets.filter (· ∈ expired))
    rcases he : returnAll (e.bullets.filter (· ∈ expired)) p with ⟨p', _ | x⟩
    all_goals simp only [he] at hn hg
    · obtain ⟨p'', hc, hg'⟩ := cleanList_gives (hg.keyed.mpr hp)
        (e.bullets.filter (· ∈ expired)) e.bullets
      refine ⟨p'', ?_, ?_⟩
      · intro b
        rw [hg'.active, hg.active]
        split_ifs <;> rfl
      · simp only [updateProjectile, if_true, he, if_false, hr, hc]
    · exact absurd hn (by simp)

theorem updateProjectile_life (enqueuesInLoop : Bool) (expired : List ℕ) (e : Pattern)
    (p : ObjectPool) :
    (updateProjectile enqueuesInLoop expired e p).1.life =
      if e.LeavesBullet expired p then e.life else e.life.destroy := by
  by_cases hr : e.bullets.filter (· ∈ expired) = []
  · have hnone : ¬ ∃ b ∈ e.bullets, b ∈ expired := by
      rintro ⟨b, hb, hx⟩
      simpa [hx] using List.filter_eq_nil_iff.mp hr b hb
    rw [updateProjectile_keeps enqueuesInLoop hr]
    by_cases hb : e.bullets = []
    · simp [LeavesBullet, hb]
    · simp [LeavesBullet, hb, hnone]
  · have hne : e.bullets ≠ [] := by
      intro hb
      simp [hb] at hr
    have hsome : ∃ b ∈ e.bullets, b ∈ expired := by
      obtain ⟨b, hb⟩ := List.exists_mem_of_ne_nil _ hr
      obtain ⟨hb, hx⟩ := List.mem_filter.mp hb
      exact ⟨b, hb, by simpa using hx⟩
    by_cases hp : "BaseBullet" ∈ p.poolDic
    · obtain ⟨p', ha, hu⟩ := updateProjectile_cleans enqueuesInLoop hp hr
      have hleft : e.bullets.filter (fun b => (p'.objects b).activeSelf) = [] ↔
          ¬ ∃ b ∈ e.bullets, b ∉ expired ∧ (p.objects b).activeSelf = true := by
        rw [List.filter_eq_nil_iff, not_exists]
        apply forall_congr'
        intro b
        rw [not_and]
        apply imp_congr_right
        intro hb
        by_cases hx : b ∈ expired
        · simp [ha, hb, hx]
        · simp [ha, hx]
      rw [hu]
      simp only [LeavesBullet, hne, hsome, hp, hleft, ne_eq, not_false_eq_true, true_and,
        forall_const, ite_not]
    · obtain ⟨p', hu⟩ := updateProjectile_throws enqueuesInLoop hp hr
      rw [hu, if_pos ⟨hne, fun _ hin => absurd hin hp⟩]

structure Follows (e e' : Pattern) : Prop where
  kind : e'.kind = e.kind
  ammount : e'.ammount = e.ammount
  cIsRunning : e'.cIsRunning = e.cIsRunning
  spawning : e'.spawning = e.spawning ∨ e'.spawning = none

theorem updateProjectile_follows (enqueuesInLoop : Bool) (expired : List ℕ) (e : Pattern)
    (p : ObjectPool) : Follows e (updateProjectile enqueuesInLoop expired e p).1 := by
  by_cases hr : e.bullets.filter (· ∈ expired) = []
  · rw [updateProjectile_keeps enqueuesInLoop hr]
    exact ⟨rfl, rfl, rfl, Or.inl rfl⟩
  · by_cases hp : "BaseBullet" ∈ p.poolDic
    · obtain ⟨p', -, hu⟩ := updateProjectile_cleans enqueuesInLoop hp hr
      rw [hu]
      exact ⟨rfl, rfl, rfl, Or.inl rfl⟩
    · obtain ⟨p', hu⟩ := updateProjectile_throws enqueuesInLoop hp hr
      rw [hu]
      exact ⟨rfl, rfl, rfl, Or.inl rfl⟩

theorem fixedUpdate_follows (expired : List ℕ) (e : Pattern) (p : ObjectPool) :
    Follows e (e.fixedUpdate expired p).1 := by
  rw [fixedUpdate_eq]
  split_ifs
  · exact updateProjectile_follows e.returnsTwice expired e p
  · exact ⟨rfl, rfl, rfl, Or.inl rfl⟩

theorem clearBullets_follows (e : Pattern) (p : ObjectPool) : Follows e (e.clearBullets p).1 := by
  rw [clearBullets]
  rcases clearLoop e.bullets p with ⟨p', _ | x⟩
  · exact ⟨rfl, rfl, rfl, Or.inl rfl⟩
  · exact ⟨rfl, rfl, rfl, Or.inl rfl⟩

theorem onDestroy_follows (e : Pattern) (p : ObjectPool) : Follows e (e.onDestroy p).1 := by
  obtain ⟨hk, ha, hc, hs⟩ := clearBullets_follows { e with life := .destroyed, spawning := none } p
  exact ⟨hk, ha, hc, Or.inr (hs.elim id id)⟩

/-- The emitter after `n` spawns. Of the two classes that have the flag only one sets it. -/
structure Counts (e : Pattern) (n : ℕ) : Prop where
  spawned : ∀ i, e.spawning = some i → n = i
  bounded : n ≤ ⌈e.ammount⌉₊
  running : e.kind = .starPattern → e.spawning.isSome → e.cIsRunning = true
  star : e.cIsRunning = true → e.kind = .starPattern

theorem Counts.follows {n : ℕ} (h : e.Counts n) (hf : Follows e e') : e'.Counts n := by
  constructor
  · intro i hi
    obtain hs | hs := hf.spawning
    · exact h.spawned i (hs ▸ hi)
    · rw [hs] at hi
      cases hi
  · rw [hf.ammount]
    exact h.bounded
  · intro hk hi
    rw [hf.cIsRunning]
    obtain hs | hs := hf.spawning
    · exact h.running (hf.kind ▸ hk) (hs ▸ hi)
    · rw [hs] at hi
      cases hi
  · intro hc
    rw [hf.kind]
    exact h.star (hf.cIsRunning ▸ hc)

theorem spawn_counts {i : ℕ} (spawnPos : Vector3) (hi : i ≤ ⌈e.ammount⌉₊)
    (hrun : e.kind = .starPattern → e.cIsRunning = true)
    (hstar : e.cIsRunning = true → e.kind = .starPattern) :
    (e.spawn i spawnPos p).1.Counts (i + (e.takes i p).length) := by
  by_cases hlt : i < e.ammount
  · simp only [spawn, takes, hlt, if_true]
    rcases p.dequeueObject "BaseBullet" with ⟨p', x | b⟩
    · exact ⟨fun _ hs => absurd hs (by simp), hi, fun _ hs => absurd hs (by simp), hstar⟩
    · exact ⟨fun _ hs => Option.some.inj hs, Nat.lt_ceil.mpr hlt, fun hk _ => hrun hk, hstar⟩
  · simp only [spawn, takes, hlt, if_false]
    exact ⟨fun _ hs => absurd hs (by simp), hi, fun _ hs => absurd hs (by simp),
      fun hk => absurd hk (by simp)⟩

end Pattern

namespace PatternSession

variable {s : PatternSession} {k : ℕ} {took : List ℕ} {r : Pattern × ObjectPool} {e : Pattern}

structure Counted (s : PatternSession) : Prop where
  fresh : ∀ k, s.emitters k = none → s.taken k = []
  counts : ∀ k e, s.emitters k = some e → e.Counts (s.taken k).length

theorem Counted.turn (h : s.Counted) (hc : r.1.Counts ((s.taken k).length + took.length)) :
    (s.turn k took r).Counted := by
  constructor
  · intro j hj
    by_cases hjk : j = k
    · subst hjk
      simp [PatternSession.turn] at hj
    · rw [taken_turn, if_neg hjk]
      exact h.fresh j (by simpa [PatternSession.turn, hjk] using hj)
  · intro j e hj
    by_cases hjk : j = k
    · subst hjk
      obtain rfl : r.1 = e := by simpa [PatternSession.turn] using hj
      rw [taken_turn, if_pos rfl, List.length_append]
      exact hc
    · rw [taken_turn, if_neg hjk]
      exact h.counts j e (by simpa [PatternSession.turn, hjk] using hj)

theorem Counted.act (h : s.Counted) {f : Pattern → ObjectPool → Pattern × ObjectPool}
    (hf : ∀ e p, Pattern.Follows e (f e p).1) : (s.act k f).Counted := by
  rw [PatternSession.act]
  cases he : s.emitters k with
  | none => exact h
  | some e => exact h.turn ((h.counts k e he).follows (hf e s.pool))

theorem Counted.next {a : PatternAction} (h : s.Counted) (ha : s.Enabled a) : (s.next a).Counted := by
  cases a with
  | setUpPool pooledSizePrefab ammount => exact ⟨h.fresh, h.counts⟩
  | start k kind ammount spawnPos =>
    apply h.turn
    rw [h.fresh k ha]
    exact Pattern.spawn_counts spawnPos (Nat.zero_le _) decide_eq_true of_decide_eq_true
  | resume k spawnPos =>
    rw [PatternSession.next]
    cases he : s.emitters k with
    | none => exact h
    | some e =>
      have hc := h.counts k e he
      dsimp only
      cases hs : e.spawning with
      | none => exact h
      | some i =>
        have hi := hc.spawned i hs
        apply h.turn
        rw [hi]
        exact Pattern.spawn_counts spawnPos (hi ▸ hc.bounded)
          (fun hk => hc.running hk (hs ▸ rfl)) hc.star
  | fixedUpdate k expired => exact h.act (Pattern.fixedUpdate_follows expired)
  | clearBullets k => exact h.act Pattern.clearBullets_follows
  | destroy k => exact h.act (fun e p => ⟨rfl, rfl, rfl, Or.inl rfl⟩)
  | onDestroy k => exact h.act Pattern.onDestroy_follows

def DestroysSelf (s : PatternSession) (k : ℕ) (expired : List ℕ) : Prop :=
  s.life k = .alive ∧ (s.next (.fixedUpdate k expired)).life k ≠ .alive

instance (s : PatternSession) (k : ℕ) (expired : List ℕ) : Decidable (s.DestroysSelf k expired) :=
  inferInstanceAs (Decidable (_ ∧ _))

/-- The emitter ends with all its bullets spawned, and the two classes that guard their updates wait
for the loop. -/
def Completes (s : PatternSession) : PatternAction → Prop
  | .fixedUpdate k expired => ∀ e ∈ s.emitters k,
    (s.DestroysSelf k expired → (s.taken k).length = ⌈e.ammount⌉₊) ∧
      (e.kind = .snakePattern ∨ e.kind = .starPattern → e.spawning.isSome →
        ¬ e.Moves ∧ ¬ s.DestroysSelf k expired)
  | _ => True

/-- `SnakePattern` is updated only after its loop (unless it is being destroyed and has no bullets),
and an emitter that is updated before it has spawned its bullets keeps one. -/
def KeepsFormation (s : PatternSession) : PatternAction → Prop
  | .fixedUpdate k expired => ∀ e ∈ s.emitters k,
    (e.kind = .snakePattern → e.spawning.isSome → e.life ≠ .alive ∧ e.bullets = []) ∧
      (e.life = .alive → e.updates = true → (s.taken k).length < e.ammount →
        e.LeavesBullet expired s.pool)
  | _ => True

theorem destroysSelf_iff (he : s.emitters k = some e) (expired : List ℕ) :
    s.DestroysSelf k expired ↔
      e.life = .alive ∧ e.updates = true ∧ ¬ e.LeavesBullet expired s.pool := by
  have hnext : (s.next (.fixedUpdate k expired)).life k = (e.fixedUpdate expired s.pool).1.life := by
    simp only [next, act, he, life_turn, if_true]
  rw [DestroysSelf, hnext, life_of_emitter he, Pattern.fixedUpdate_eq]
  apply and_congr_right
  intro ha
  by_cases hu : e.updates = true
  · rw [if_pos hu, Pattern.updateProjectile_life, ha]
    by_cases hl : e.LeavesBullet expired s.pool
    · simp [hl]
    · simp [hl, hu, Life.destroy]
  · simp [hu, ha]

theorem completes_iff (h : s.Counted) (a : PatternAction) : s.Completes a ↔ s.KeepsFormation a := by
  cases a with
  | fixedUpdate k expired =>
    apply forall₂_congr
    intro e he
    have hc := h.counts k e he
    rw [destroysSelf_iff he]
    constructor
    · rintro ⟨hall, hwait⟩
      constructor
      · intro hk hs
        have hu : e.updates = true := by
          have hoff : e.cIsRunning = false := by
            by_contra hon
            have hstar := hc.star (Bool.not_eq_false _ ▸ hon)
            rw [hk] at hstar
            cases hstar
          simp [Pattern.updates, hoff]
        obtain ⟨hm, hd⟩ := hwait (Or.inl hk) hs
        have hb : e.bullets = [] := by
          by_contra hb
          exact hm ⟨hu, hb⟩
        exact ⟨fun ha => hd ⟨ha, hu, fun hl => hl.1 hb⟩, hb⟩
      · intro ha hu hlt
        by_contra hl
        rw [hall ⟨ha, hu, hl⟩] at hlt
        exact absurd hlt (not_lt.mpr (Nat.le_ceil _))
    · rintro ⟨hsnake, hstays⟩
      constructor
      · rintro ⟨ha, hu, hl⟩
        have hall : e.ammount ≤ (s.taken k).length := by
          by_contra hlt
          exact hl (hstays ha hu (not_le.mp hlt))
        exact le_antisymm hc.bounded (Nat.ceil_le.mpr hall)
      · rintro (hk | hk) hs
        · obtain ⟨ha, hb⟩ := hsnake hk hs
          exact ⟨fun hm => hm.2 hb, fun hd => ha hd.1⟩
        · have hu : e.updates = false := by simp [Pattern.updates, hk, hc.running hk hs]
          exact ⟨fun hm => absurd hm.1 (by simp [hu]), fun hd => by simp [hu] at hd⟩
  | _ => exact Iff.rfl

/-- `SpawnSnake` never sets the flag that it clears, and `SpawnCircle` and `spawnBulellets` have
none. -/
theorem formations_completed_iff {as : List PatternAction} (hl : system.Legal start as) :
    system.Meets Completes start as ↔ system.Meets KeepsFormation start as := by
  have hstart : Counted start := ⟨fun _ _ => rfl, nofun⟩
  exact System.meets_iff (fun s a h he _ => Counted.next h he) (fun s a h _ => completes_iff h a)
    hstart hl

def ofTwo (kind : PatternClass) : List PatternAction :=
  [.setUpPool (some PoolSession.bullet) 3, .start 0 kind 2 ⟨0, 3, 0⟩]

theorem formations_completed_star :
    let as := ofTwo .starPattern ++ [.fixedUpdate 0 [], .resume 0 ⟨1, 2, 0⟩, .resume 0 ⟨2, 2, 0⟩,
      .fixedUpdate 0 [0, 1]]
    system.Meets Completes start as ↔ system.Meets KeepsFormation start as :=
  formations_completed_iff (by decide +kernel)

/-- A snake of two bullets whose first one moves off before the second comes. -/
theorem snake_movesEarly : ¬ ∀ as, system.Legal start as → system.Meets Completes start as := by
  intro h
  have hlast := system.meets_concat (h (ofTwo .snakePattern ++ [.fixedUpdate 0 []]) (by decide +kernel))
  obtain ⟨e, he, hk, hs, hm⟩ : ∃ e ∈ (system.run start (ofTwo .snakePattern)).emitters 0,
      e.kind = .snakePattern ∧ e.spawning.isSome ∧ e.Moves :=
    ⟨_, rfl, rfl, rfl, rfl, by decide +kernel⟩
  exact ((hlast e he).2 (Or.inl hk) hs).1 hm

end PatternSession

end SeminarTouhou
