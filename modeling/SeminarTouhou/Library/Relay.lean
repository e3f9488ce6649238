import SeminarTouhou.Library.System

namespace Library

variable {ν β : Type*} [DecidableEq ν] [DecidableEq β]

/-- Items that nodes send to a hub and the hub passes on. `up` are those that the hub has yet to
handle and `down` those that a node has yet to handle, oldest first; `handled` says who handled what. -/
structure Relay (ν β : Type*) where
  issued : List β
  up : ν → List β
  down : ν → List β
  handled : List (β × ν)

namespace Relay

def empty : Relay ν β := ⟨[], fun _ => [], fun _ => [], []⟩

def issue (b : β) (r : Relay ν β) : Relay ν β := { r with issued := b :: r.issued }

def submit (b : β) (n : ν) (k : ℕ) (r : Relay ν β) : Relay ν β :=
  { r with up := Function.update r.up n (r.up n ++ List.replicate k b) }

def spread (b : β) (ns : List ν) (r : Relay ν β) : Relay ν β :=
  { r with down := fun n => r.down n ++ List.replicate (ns.count n) b }

def collect (hub n : ν) (r : Relay ν β) : Relay ν β :=
  match r.up n with
  | [] => r
  | b :: q => { r with up := Function.update r.up n q, handled := (b, hub) :: r.handled }

def deliver (n : ν) (r : Relay ν β) : Relay ν β :=
  match r.down n with
  | [] => r
  | b :: q => { r with down := Function.update r.down n q, handled := (b, n) :: r.handled }

omit [DecidableEq β] in
theorem collect_cons {hub n : ν} {r : Relay ν β} {b : β} {q : List β} (h : r.up n = b :: q) :
    r.collect hub n =
      { r with up := Function.update r.up n q, handled := (b, hub) :: r.handled } := by
  rw [collect, h]

omit [DecidableEq β] in
theorem deliver_cons {n : ν} {r : Relay ν β} {b : β} {q : List β} (h : r.down n = b :: q) :
    r.deliver n =
      { r with down := Function.update r.down n q, handled := (b, n) :: r.handled } := by
  rw [deliver, h]

variable (source : β → ν)

def waiting (r : Relay ν β) (b : β) : ℕ := (r.up (source b)).count b

def reached (r : Relay ν β) (b : β) (n : ν) : ℕ := (r.down n).count b + r.handled.count (b, n)

/-- No item comes back to its source or reaches a node twice, and one that is due at a node has
reached it or waits at the hub. -/
structure Balanced (due : β → ν → Prop) (r : Relay ν β) : Prop where
  uplink : ∀ n, ∀ b ∈ r.up n, source b = n
  unissued : ∀ b, b ∉ r.issued → ∀ n, r.waiting source b + r.reached b n = 0
  own : ∀ b, r.reached b (source b) = 0
  atMost : ∀ b n, n ≠ source b → r.waiting source b + r.reached b n ≤ 1
  exactly : ∀ b ∈ r.issued, ∀ n, n ≠ source b → due b n → r.waiting source b + r.reached b n = 1

variable {source} {due due' : β → ν → Prop} {r : Relay ν β}

theorem empty_balanced : (empty : Relay ν β).Balanced source due where
  uplink := fun _ _ h => absurd h List.not_mem_nil
  unissued := fun _ _ _ => rfl
  own := fun _ => rfl
  atMost := fun _ _ _ => Nat.zero_le 1
  exactly := fun _ h => absurd h List.not_mem_nil

theorem Balanced.mono (h : r.Balanced source due) (hdue : ∀ b ∈ r.issued, ∀ n, due' b n → due b n) :
    r.Balanced source due' :=
  ⟨h.uplink, h.unissued, h.own, h.atMost, fun b hb n hn hd => h.exactly b hb n hn (hdue b hb n hd)⟩

theorem reached_spread (r : Relay ν β) (b : β) (ns : List ν) (b' : β) (n : ν) :
    (r.spread b ns).reached b' n = r.reached b' n + if b' = b then ns.count n else 0 := by
  unfold reached spread
  simp only [List.count_append, List.count_replicate, beq_iff_eq, eq_comm (a := b)]
  omega

theorem waiting_submit (r : Relay ν β) (b : β) (k : ℕ) (b' : β) :
    (r.submit b (source b) k).waiting source b' =
      r.waiting source b' + if b' = b then k else 0 := by
  unfold waiting submit
  by_cases hs : source b' = source b
  · simp only [hs, Function.update_self, List.count_append, List.count_replicate, beq_iff_eq,
      eq_comm (a := b)]
  · have hne : b' ≠ b := fun hb => hs (congrArg source hb)
    simp only [Function.update_of_ne hs, if_neg hne, Nat.add_zero]

theorem Balanced.uplink_submit (h : r.Balanced source due) (b : β) (k : ℕ) :
    ∀ n, ∀ b' ∈ (r.submit b (source b) k).up n, source b' = n := by
  intro n b' hb'
  unfold submit at hb'
  by_cases hn : n = source b
  · subst hn
    simp only [Function.update_self, List.mem_append, List.mem_replicate] at hb'
    obtain hb' | ⟨-, rfl⟩ := hb'
    · exact h.uplink _ b' hb'
    · rfl
  · simp only [Function.update_of_ne hn] at hb'
    exact h.uplink n b' hb'

theorem Balanced.publish (h : r.Balanced source due) {b : β} {ns : List ν} (hb : b ∉ r.issued)
    (hns : ns.Nodup) (hown : source b ∉ ns) (hall : ∀ n, n ≠ source b → due b n → n ∈ ns) :
    ((r.issue b).spread b ns).Balanced source due := by
  have hreached (b' : β) (n : ν) : ((r.issue b).spread b ns).reached b' n =
      r.reached b' n + if b' = b then ns.count n else 0 := reached_spread _ b ns b' n
  have hwaiting (b' : β) : ((r.issue b).spread b ns).waiting source b' = r.waiting source b' := rfl
  constructor
  · exact h.uplink
  · intro b' hb' n
    obtain ⟨hne, hold⟩ := not_or.mp (fun h => hb' (List.mem_cons.mpr h))
    have hzero := h.unissued b' hold n
    rwa [hreached, hwaiting, if_neg hne]
  · intro b'
    rw [hreached, h.own]
    split_ifs with hbb
    · subst hbb
      rw [List.count_eq_zero_of_not_mem hown]
    · rfl
  · intro b' n hn
    rw [hreached, hwaiting]
    split_ifs with hbb
    · subst hbb
      have hzero := h.unissued b' hb n
      have hcount := List.nodup_iff_count_le_one.mp hns n
      omega
    · exact h.atMost b' n hn
  · intro b' hb' n hn hd
    rw [hreached, hwaiting]
    split_ifs with hbb
    · subst hbb
      have hzero := h.unissued b' hb n
      have hcount := List.count_eq_one_of_mem hns (hall n hn hd)
      omega
    · exact h.exactly b' ((List.mem_cons.mp hb').resolve_left hbb) n hn hd

theorem Balanced.enter (h : r.Balanced source due) {b : β} (hb : b ∉ r.issued) :
    ((r.issue b).submit b (source b) 1).Balanced source due := by
  have hreached (b' : β) (n : ν) :
      ((r.issue b).submit b (source b) 1).reached b' n = r.reached b' n := rfl
  have hwaiting (b' : β) : ((r.issue b).submit b (source b) 1).waiting source b' =
      r.waiting source b' + if b' = b then 1 else 0 := waiting_submit _ b 1 b'
  constructor
  · exact h.uplink_submit b 1
  · intro b' hb' n
    obtain ⟨hne, hold⟩ := not_or.mp (fun h => hb' (List.mem_cons.mpr h))
    have hzero := h.unissued b' hold n
    rwa [hreached, hwaiting, if_neg hne]
  · exact h.own
  · intro b' n hn
    rw [hreached, hwaiting]
    split_ifs with hbb
    · subst hbb
      have hzero := h.unissued b' hb n
      omega
    · exact h.atMost b' n hn
  · intro b' hb' n hn hd
    rw [hreached, hwaiting]
    split_ifs with hbb
    · subst hbb
      have hzero := h.unissued b' hb n
      omega
    · exact h.exactly b' ((List.mem_cons.mp hb').resolve_left hbb) n hn hd

section Collect

variable {hub c : ν} {b : β} {q : List β}

theorem waiting_collect (hup : r.up c = b :: q) (hb : source b = c) (b' : β) :
    (r.collect hub c).waiting source b' + (if b' = b then 1 else 0) = r.waiting source b' := by
  rw [collect_cons hup]
  unfold waiting
  by_cases hs : source b' = c
  · simp only [hs, hup, Function.update_self, List.count_cons, beq_iff_eq, eq_comm (a := b)]
  · have hne : b' ≠ b := by
      rintro rfl
      exact hs hb
    simp only [Function.update_of_ne hs, if_neg hne, Nat.add_zero]

theorem reached_collect (hup : r.up c = b :: q) (b' : β) (n : ν) :
    (r.collect hub c).reached b' n = r.reached b' n + if b' = b ∧ n = hub then 1 else 0 := by
  rw [collect_cons hup]
  unfold reached
  simp only [List.count_cons, beq_iff_eq, Prod.mk.injEq, eq_comm (a := b), eq_comm (a := hub)]
  omega

theorem Balanced.uplink_collect (h : r.Balanced source due) (hup : r.up c = b :: q) :
    ∀ n, ∀ b' ∈ (r.collect hub c).up n, source b' = n := by
  intro n b' hb'
  rw [collect_cons hup] at hb'
  by_cases hn : n = c
  · subst hn
    simp only [Function.update_self] at hb'
    exact h.uplink n b' (hup ▸ List.mem_cons_of_mem b hb')
  · simp only [Function.update_of_ne hn] at hb'
    exact h.uplink n b' hb'

theorem Balanced.forward (h : r.Balanced source due) {ns : List ν} (hup : r.up c = b :: q)
    (hhub : hub ≠ c) (hns : ns.Nodup) (hown : c ∉ ns) (hhub' : hub ∉ ns)
    (hall : ∀ n, n ≠ c → n ≠ hub → due b n → n ∈ ns) :
    ((r.collect hub c).spread b ns).Balanced source due := by
  have hb : source b = c := h.uplink c b (hup ▸ List.mem_cons_self)
  subst hb
  have hreached (b' : β) (n : ν) : ((r.collect hub (source b)).spread b ns).reached b' n =
      r.reached b' n + (if b' = b ∧ n = hub then 1 else 0) + if b' = b then ns.count n else 0 := by
    rw [reached_spread, reached_collect hup]
  have hwaiting (b' : β) : ((r.collect hub (source b)).spread b ns).waiting source b' +
      (if b' = b then 1 else 0) = r.waiting source b' := waiting_collect hup rfl b'
  have hone : 0 < r.waiting source b := by
    apply List.count_pos_iff.mpr
    rw [hup]
    exact List.mem_cons_self
  -- what the hub passes on and its own copy make one at each node but the source
  have hcopy (n : ν) : (if n = hub then 1 else 0) + ns.count n ≤ 1 := by
    have hcount := List.nodup_iff_count_le_one.mp hns n
    split_ifs with hn
    · subst hn
      rw [List.count_eq_zero_of_not_mem hhub']
    · omega
  constructor
  · exact h.uplink_collect hup
  · intro b' hb' n
    have hold : b' ∉ r.issued := by
      simpa only [spread, collect_cons hup] using hb'
    have hzero := h.unissued b' hold n
    have hne : b' ≠ b := by
      rintro rfl
      omega
    have hw := hwaiting b'
    rw [hreached, if_neg hne, if_neg (fun hc => hne hc.1)]
    rw [if_neg hne] at hw
    omega
  · intro b'
    rw [hreached, h.own]
    by_cases hne : b' = b
    · subst hne
      rw [if_neg (fun hc => hhub hc.2.symm), if_pos rfl, List.count_eq_zero_of_not_mem hown]
    · rw [if_neg hne, if_neg (fun hc => hne hc.1)]
  · intro b' n hn
    have hw := hwaiting b'
    have hold := h.atMost b' n hn
    rw [hreached]
    by_cases hne : b' = b
    · subst hne
      have hc := hcopy n
      simp only [true_and, if_true] at hw ⊢
      omega
    · rw [if_neg hne] at hw ⊢
      rw [if_neg (fun hc => hne hc.1)]
      omega
  · intro b' hb' n hn hd
    have hold : b' ∈ r.issued := by
      simpa only [spread, collect_cons hup] using hb'
    have hw := hwaiting b'
    have hold := h.exactly b' hold n hn hd
    rw [hreached]
    by_cases hne : b' = b
    · subst hne
      have hc : (if n = hub then 1 else 0) + ns.count n = 1 := by
        split_ifs with hnh
        · subst hnh
          rw [List.count_eq_zero_of_not_mem hhub']
        · rw [List.count_eq_one_of_mem hns (hall n hn hnh hd)]
      simp only [true_and, if_true] at hw ⊢
      omega
    · rw [if_neg hne] at hw ⊢
      rw [if_neg (fun hc => hne hc.1)]
      omega

end Collect

theorem Balanced.deliver (h : r.Balanced source due) {n : ν} {b : β} {q : List β}
    (hdown : r.down n = b :: q) : (r.deliver n).Balanced source due := by
  have hreached (b' : β) (m : ν) : (r.deliver n).reached b' m = r.reached b' m := by
    rw [deliver_cons hdown]
    unfold reached
    by_cases hm : m = n
    · subst hm
      simp only [Function.update_self, hdown, List.count_cons, beq_iff_eq, Prod.mk.injEq, and_true]
      omega
    · have hne (x : β) : (x, n) ≠ (b', m) := fun hx => hm (Prod.mk.inj hx).2.symm
      simp only [Function.update_of_ne hm, List.count_cons_of_ne (hne b)]
  have hwaiting (b' : β) : (r.deliver n).waiting source b' = r.waiting source b' := by
    rw [deliver_cons hdown]
    rfl
  have hissued : (r.deliver n).issued = r.issued := by
    rw [deliver_cons hdown]
  have hup : (r.deliver n).up = r.up := by
    rw [deliver_cons hdown]
  constructor
  · rw [hup]
    exact h.uplink
  · simpa only [hissued, hreached, hwaiting] using h.unissued
  · simpa only [hreached] using h.own
  · simpa only [hreached, hwaiting] using h.atMost
  · simpa only [hissued, hreached, hwaiting] using h.exactly

theorem Balanced.arrives (h : r.Balanced source due) {b : β} {n : ν} (hb : b ∈ r.issued)
    (hn : n ≠ source b) (hd : due b n) :
    b ∈ r.up (source b) ∨ b ∈ r.down n ∨ (b, n) ∈ r.handled := by
  have hone := h.exactly b hb n hn hd
  unfold waiting reached at hone
  by_contra hnone
  obtain ⟨hup, hdown, hhandled⟩ := not_or.mp hnone |>.imp_right not_or.mp
  rw [List.count_eq_zero_of_not_mem hup, List.count_eq_zero_of_not_mem hdown,
    List.count_eq_zero_of_not_mem hhandled] at hone
  omega

theorem Balanced.handled_once (h : r.Balanced source due) {b : β} {n : ν}
    (hb : (b, n) ∈ r.handled) : b ∈ r.issued ∧ n ≠ source b ∧ r.handled.count (b, n) = 1 := by
  have hpos := List.count_pos_iff.mpr hb
  have hn : n ≠ source b := by
    rintro rfl
    have hzero := h.own b
    unfold reached at hzero
    omega
  refine ⟨?_, hn, ?_⟩
  · by_contra hnew
    have hzero := h.unissued b hnew n
    unfold reached at hzero
    omega
  · have hle := h.atMost b n hn
    unfold reached at hle
    omega

end Relay

end Library
