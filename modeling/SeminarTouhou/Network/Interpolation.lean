import SeminarTouhou.Network.World
import SeminarTouhou.Network.EntryInvariants
import SeminarTouhou.Network.InOrder

namespace SeminarTouhou

open Library

theorem Vector3.lerp_eq_right {a b : Vector3} {t : ℚ} (h0 : 0 ≤ t) (h1 : t < 1) :
    a.lerp b t = b ↔ a = b := by
  have hcoordinate (x y : ℚ) : x + (y - x) * t = y ↔ x = y := by
    constructor
    · intro h
      have hz : (x - y) * (1 - t) = 0 := by linarith
      rcases mul_eq_zero.mp hz with h | h <;> linarith
    · rintro rfl
      ring
  have hclamp : max 0 (min t 1) = t := by rw [min_eq_left h1.le, max_eq_right h0]
  obtain ⟨ax, ay, az⟩ := a
  obtain ⟨bx, b_y, bz⟩ := b
  simp only [Vector3.lerp, hclamp, Vector3.mk.injEq, hcoordinate]

namespace PlayerGameData

def WellPosed (p : PlayerGameData) : Prop :=
  p.playerPoses = some [] ∨ ∃ a b, p.playerPoses = some [a, b]

structure Approaches (a b : Vector3) (p : PlayerGameData) : Prop where
  poses : p.playerPoses = some [a, b]
  started : 0 ≤ p.playerInterpolationTracker
  onTheWay : p.playerInterpolationTracker < packetTargetSendTime
  object : ∃ o, p.playerOBJ = some o ∧ o.usable = true

variable {p q : PlayerGameData} {a b : Vector3} {deltaTime : ℚ}

theorem interpolate_done (h : p.playerPoses = some []) : p.interpolate deltaTime = .ok p := by
  simp [interpolate, h]

theorem Approaches.interpolate (h : Approaches a b p) (ht : 0 < deltaTime) :
    ∃ q o, p.interpolate deltaTime = .ok q ∧ q.playerOBJ = some o ∧
      o.position = a.lerp b (p.playerInterpolationTracker / packetTargetSendTime) ∧
      (packetTargetSendTime ≤ p.playerInterpolationTracker + deltaTime ∧ q.playerPoses = some [] ∨
        p.playerInterpolationTracker + deltaTime < packetTargetSendTime ∧ Approaches a b q) := by
  obtain ⟨o, ho, hu⟩ := h.object
  refine ⟨_, _, by simp only [PlayerGameData.interpolate, h.poses, ho, hu, if_true]; rfl, rfl, rfl, ?_⟩
  by_cases hend : packetTargetSendTime ≤ p.playerInterpolationTracker + deltaTime
  · exact Or.inl ⟨hend, if_pos hend⟩
  · refine Or.inr ⟨not_le.mp hend, if_neg hend, ?_, not_le.mp hend, ⟨_, rfl, hu⟩⟩
    have := h.started
    dsimp only
    linarith

theorem WellPosed.interpolate (h : WellPosed p) (deltaTime : ℚ) :
    ∃ q, p.interpolate deltaTime = .ok q ∧ q.WellPosed := by
  rcases h with h | ⟨a, b, h⟩
  · exact ⟨p, interpolate_done h, Or.inl h⟩
  · cases ho : p.playerOBJ with
    | none => exact ⟨p, by simp [PlayerGameData.interpolate, h, ho], Or.inr ⟨a, b, h⟩⟩
    | some o =>
      by_cases hu : o.usable = true
      · refine ⟨_, by simp only [PlayerGameData.interpolate, h, ho, hu, if_true]; rfl, ?_⟩
        by_cases hend : packetTargetSendTime ≤ p.playerInterpolationTracker + deltaTime
        · exact Or.inl (if_pos hend)
        · exact Or.inr ⟨a, b, if_neg hend⟩
      · exact ⟨p, by simp [PlayerGameData.interpolate, h, ho, hu], Or.inr ⟨a, b, h⟩⟩

theorem WellPosed.length (h : WellPosed p) :
    ∃ poses, p.playerPoses = some poses ∧ (poses.length = 0 ∨ poses.length = 2) := by
  rcases h with h | ⟨a, b, h⟩
  · exact ⟨[], h, Or.inl rfl⟩
  · exact ⟨[a, b], h, Or.inr rfl⟩

theorem WellPosed.isSome (h : WellPosed p) : p.playerPoses.isSome := by
  rcases h with h | ⟨a, b, h⟩ <;> simp [h]

theorem recordPose_wellPosed {pos : Vector3} {o : GameObject} (h : p.recordPose pos o = .ok q) :
    q = { p with playerPoses := some [o.position, pos], playerInterpolationTracker := 0 } := by
  unfold recordPose at h
  cases hp : p.playerPoses with
  | none => simp [hp] at h
  | some l => simpa [hp] using h.symm

end PlayerGameData

namespace PlayerTable

open PlayerGameData

theorem wellPosed_entries : EntryInvariant Set.univ WellPosed := by
  refine ⟨fun _ => Or.inl rfl, fun _ _ => Set.mem_univ _, fun h => h, fun _ h => h, ?_, ?_⟩
  · intro p q pos o _ _ _ hr
    rw [recordPose_wellPosed hr]
    exact Or.inr ⟨o.position, pos, rfl⟩
  · intro p q deltaTime hp hi
    obtain ⟨r, hr, hw⟩ := hp.interpolate deltaTime
    rw [hr] at hi
    exact Except.ok.inj hi ▸ hw

variable {t : PlayerTable} {k : UInt32} {p : PlayerGameData}

theorem interpolateKeys_other {deltaTime : ℚ} {ks : List UInt32} (hk : k ∉ ks) :
    (interpolateKeys deltaTime ks t).1.lookup k = t.lookup k := by
  induction ks generalizing t with
  | nil => rfl
  | cons j ks ih =>
    obtain ⟨hne, hks⟩ := not_or.mp (List.mem_cons.not.mp hk)
    unfold interpolateKeys
    cases hj : t.lookup j with
    | none => rfl
    | some r =>
      cases hr : r.interpolate deltaTime with
      | error e => simp only [hr]
      | ok q =>
        simp only [hr]
        rw [ih hks, AList.lookup_insert_ne hne]

theorem interpolateKeys_lookup (h : t.Every WellPosed) {deltaTime : ℚ} {ks : List UInt32}
    (hks : ∀ j ∈ ks, j ∈ t) (hn : ks.Nodup) (hk : k ∈ ks) (hp : t.lookup k = some p) :
    ∃ q, p.interpolate deltaTime = .ok q ∧
      (interpolateKeys deltaTime ks t).1.lookup k = some q := by
  induction ks generalizing t with
  | nil => exact absurd hk List.not_mem_nil
  | cons j ks ih =>
    obtain ⟨hj, hn⟩ := List.nodup_cons.mp hn
    obtain ⟨r, hr⟩ := Dict.exists_lookup (hks j List.mem_cons_self)
    obtain ⟨q, hq, hw⟩ := (h j r hr).interpolate deltaTime
    unfold interpolateKeys
    simp only [hr, hq]
    by_cases hkj : k = j
    · subst hkj
      obtain rfl := Option.some.inj (hr.symm.trans hp)
      refine ⟨q, hq, ?_⟩
      rw [interpolateKeys_other hj, AList.lookup_insert]
    · refine ih (h.insert hw) ?_ hn ((List.mem_cons.mp hk).resolve_left hkj) ?_
      · intro i hi
        exact (AList.mem_insert _).mpr (Or.inr (hks i (List.mem_cons_of_mem _ hi)))
      · rw [AList.lookup_insert_ne hkj, hp]

theorem handleInterpolatePlayerPoses_lookup (h : t.Every WellPosed) (deltaTime : ℚ)
    (hp : t.lookup k = some p) : ∃ q, p.interpolate deltaTime = .ok q ∧
      (t.handleInterpolatePlayerPoses deltaTime).1.lookup k = some q :=
  interpolateKeys_lookup h (fun _ hj => AList.mem_keys.mpr hj) t.keys_nodup
    (AList.mem_keys.mp (Dict.mem_of_lookup hp)) hp

theorem interpolateKeys_returns (h : t.Every WellPosed) {deltaTime : ℚ} {ks : List UInt32}
    (hks : ∀ j ∈ ks, j ∈ t) : (interpolateKeys deltaTime ks t).2 = none := by
  induction ks generalizing t with
  | nil => rfl
  | cons j ks ih =>
    obtain ⟨r, hr⟩ := Dict.exists_lookup (hks j List.mem_cons_self)
    obtain ⟨q, hq, hw⟩ := (h j r hr).interpolate deltaTime
    unfold interpolateKeys
    simp only [hr, hq]
    refine ih (h.insert hw) ?_
    intro i hi
    exact (AList.mem_insert _).mpr (Or.inr (hks i (List.mem_cons_of_mem _ hi)))

theorem handleInterpolatePlayerPoses_returns (h : t.Every WellPosed) (deltaTime : ℚ) :
    (t.handleInterpolatePlayerPoses deltaTime).2 = none :=
  interpolateKeys_returns h (fun _ hj => AList.mem_keys.mpr hj)

def object (t : PlayerTable) (k : UInt32) : Option GameObject :=
  (t.lookup k).bind PlayerGameData.playerOBJ

def poses (t : PlayerTable) (k : UInt32) : Option (List Vector3) :=
  (t.lookup k).bind PlayerGameData.playerPoses

theorem handlePlayerData_approaches (h : t.Every WellPosed) {d : PlayerData} {o : GameObject}
    (ho : (t.handlePlayerData d).1.object d.playerID = some o) (hu : o.usable = true) :
    ∃ p, (t.handlePlayerData d).1.lookup d.playerID = some p ∧ Approaches o.position d.pos p ∧
      p.playerInterpolationTracker = 0 := by
  have hstart : (0 : ℚ) < packetTargetSendTime := by
    rw [packetTargetSendTime]
    norm_num
  unfold handlePlayerData at ho ⊢
  cases hp : t.lookup d.playerID with
  | none =>
    have hr : PlayerGameData.hologram.recordPose d.pos .hologram = .ok _ := rfl
    simp only [hp, hr, object, AList.lookup_insert, Option.bind_some] at ho ⊢
    obtain rfl := Option.some.inj ho
    exact ⟨_, rfl, ⟨rfl, le_refl 0, hstart, ⟨_, rfl, hu⟩⟩, rfl⟩
  | some p =>
    cases hobj : p.playerOBJ with
    | none => simp [hp, hobj, object] at ho
    | some o' =>
      by_cases hu' : o'.usable = true
      · obtain ⟨q, hq⟩ := recordPose_init d.pos o' (h _ p hp).isSome
        have hrecorded := recordPose_wellPosed hq
        simp only [hp, hobj, hu', if_true, hq, object, AList.lookup_insert, Option.bind_some] at ho ⊢
        rw [hrecorded] at ho
        obtain rfl := Option.some.inj (hobj.symm.trans ho)
        refine ⟨q, rfl, ?_, ?_⟩ <;> rw [hrecorded]
        exact ⟨rfl, le_refl 0, hstart, ⟨_, hobj, hu⟩⟩
      · simp only [hp, hobj, hu', Bool.false_eq_true, if_false, object, Option.bind_some] at ho
        obtain rfl := Option.some.inj ho
        exact absurd hu hu'

end PlayerTable

inductive PoseStep
  | frame (deltaTime : ℚ)
  | packet (d : PlayerData)
deriving DecidableEq

def PoseStep.Without (k : UInt32) : PoseStep → Prop
  | frame deltaTime => 0 < deltaTime
  | packet d => d.playerID ≠ k

instance (k : UInt32) (p : PoseStep) : Decidable (p.Without k) := by
  cases p <;> dsimp only [PoseStep.Without] <;> infer_instance

def ServerHandler.poseStep (s : ServerHandler) : PoseStep → ServerHandler
  | .frame deltaTime => (s.handleInterpolatePlayerPoses deltaTime).state
  | .packet d => (s.handlePlayerData d).state

def ClientHandler.poseStep (s : ClientHandler) : PoseStep → ClientHandler
  | .frame deltaTime => (s.handleInterpolatePlayerPoses deltaTime).state
  | .packet d => (s.handlePlayerData d).state

section Arrival

open PlayerGameData

variable {σ : Type} (step : σ → PoseStep → σ) (table : σ → PlayerTable)

/-- However time is cut into frames, the frame that clears the pose list of player `k` leaves its
object at `target`. -/
def Arrives (s : σ) (k : UInt32) (target : Vector3) : Prop :=
  ∀ (steps : List PoseStep) (deltaTime : ℚ), (∀ p ∈ steps, p.Without k) → 0 < deltaTime →
    (table (steps.foldl step s)).poses k ≠ some [] →
    (table (step (steps.foldl step s) (.frame deltaTime))).poses k = some [] →
    ((table (step (steps.foldl step s) (.frame deltaTime))).object k).map GameObject.position =
      some target

/-- A node that interpolates its table in a frame, and that a packet changes in its sender only. -/
structure Interpolates : Prop where
  frame : ∀ s deltaTime, table (step s (.frame deltaTime)) =
    ((table s).handleInterpolatePlayerPoses deltaTime).1
  posed : ∀ s d, (table s).Every WellPosed → (table (step s (.packet d))).Every WellPosed
  others : ∀ s d k, k ≠ d.playerID → (table (step s (.packet d))).lookup k = (table s).lookup k

variable {step table} (hi : Interpolates step table) {a b : Vector3} {k : UInt32}

include hi

theorem approaches_step {s : σ} (hw : (table s).Every WellPosed) {p : PlayerGameData}
    (hp : (table s).lookup k = some p) (ha : Approaches a b p ∨ p.playerPoses = some [])
    {x : PoseStep} (hx : x.Without k) : (table (step s x)).Every WellPosed ∧
      ∃ q, (table (step s x)).lookup k = some q ∧ (Approaches a b q ∨ q.playerPoses = some []) := by
  cases x with
  | packet d => exact ⟨hi.posed s d hw, p, (hi.others s d k (Ne.symm hx)).trans hp, ha⟩
  | frame deltaTime =>
    rw [hi.frame]
    refine ⟨PlayerTable.every_interpolateKeys PlayerTable.wellPosed_entries _ _ hw, ?_⟩
    obtain ⟨q, hq, hlookup⟩ := PlayerTable.handleInterpolatePlayerPoses_lookup hw deltaTime hp
    refine ⟨q, hlookup, ?_⟩
    rcases ha with ha | hdone
    · obtain ⟨r, o, hr, -, -, hend⟩ := ha.interpolate hx
      obtain rfl := Except.ok.inj (hr.symm.trans hq)
      rcases hend with ⟨-, hend⟩ | ⟨-, hway⟩
      · exact Or.inr hend
      · exact Or.inl hway
    · rw [interpolate_done hdone] at hq
      exact Or.inr (Except.ok.inj hq ▸ hdone)

theorem approaches_run {s : σ} (hw : (table s).Every WellPosed) {p : PlayerGameData}
    (hp : (table s).lookup k = some p) (ha : Approaches a b p ∨ p.playerPoses = some [])
    (steps : List PoseStep) (hs : ∀ x ∈ steps, x.Without k) :
    (table (steps.foldl step s)).Every WellPosed ∧
      ∃ q, (table (steps.foldl step s)).lookup k = some q ∧
        (Approaches a b q ∨ q.playerPoses = some []) := by
  induction steps generalizing s p with
  | nil => exact ⟨hw, p, hp, ha⟩
  | cons x steps ih =>
    obtain ⟨hw', q, hq, ha'⟩ := approaches_step hi hw hp ha (hs x List.mem_cons_self)
    exact ih hw' hq ha' (fun y hy => hs y (List.mem_cons_of_mem _ hy))

theorem arrives_iff {s : σ} (hw : (table s).Every WellPosed) {p : PlayerGameData}
    (hp : (table s).lookup k = some p) (ha : Approaches a b p) :
    Arrives step table s k b ↔ a = b := by
  have hlast {u : σ} (hw : (table u).Every WellPosed) {p : PlayerGameData}
      (hp : (table u).lookup k = some p) (ha : Approaches a b p) {deltaTime : ℚ}
      (ht : 0 < deltaTime) :
      ((table (step u (.frame deltaTime))).object k).map GameObject.position = some b ↔ a = b := by
    obtain ⟨q, o, hq, ho, hpos, -⟩ := ha.interpolate ht
    obtain ⟨r, hr, hlookup⟩ := PlayerTable.handleInterpolatePlayerPoses_lookup hw deltaTime hp
    obtain rfl := Except.ok.inj (hq.symm.trans hr)
    have hpositive : (0 : ℚ) < packetTargetSendTime := lt_of_le_of_lt ha.started ha.onTheWay
    have hway : p.playerInterpolationTracker / packetTargetSendTime < 1 :=
      (div_lt_one hpositive).mpr ha.onTheWay
    rw [hi.frame, PlayerTable.object, hlookup, Option.bind_some, ho, Option.map_some,
      Option.some.injEq, hpos]
    exact Vector3.lerp_eq_right (div_nonneg ha.started hpositive.le) hway
  constructor
  · intro h
    have ht : (0 : ℚ) < packetTargetSendTime := lt_of_le_of_lt ha.started ha.onTheWay
    refine (hlast hw hp ha ht).mp (h [] _ (by simp) ht ?_ ?_)
    · simp [PlayerTable.poses, hp, ha.poses]
    · obtain ⟨q, o, hq, -, -, hend⟩ := ha.interpolate ht
      obtain ⟨r, hr, hlookup⟩ := PlayerTable.handleInterpolatePlayerPoses_lookup hw _ hp
      obtain rfl := Except.ok.inj (hq.symm.trans hr)
      rw [List.foldl_nil, hi.frame, PlayerTable.poses, hlookup, Option.bind_some]
      rcases hend with ⟨-, hend⟩ | ⟨hlate, -⟩
      · exact hend
      · have := ha.started
        linarith
  · intro hab steps deltaTime hs ht hbefore _
    obtain ⟨hw', q, hq, hway | hdone⟩ := approaches_run hi hw hp (Or.inl ha) steps hs
    · exact (hlast hw' hq hway ht).mpr hab
    · rw [PlayerTable.poses, hq] at hbefore
      exact absurd hdone hbefore

end Arrival

theorem ServerHandler.interpolates : Interpolates ServerHandler.poseStep ServerHandler.mPlayers := by
  refine ⟨fun _ _ => rfl, ?_, ?_⟩
  · intro s d hw
    exact PlayerTable.every_handlePlayerData PlayerTable.wellPosed_entries (Set.mem_univ _)
      (Set.mem_univ _) hw
  · intro s d k hk
    exact PlayerTable.handlePlayerData_other hk

theorem ClientHandler.interpolates : Interpolates ClientHandler.poseStep ClientHandler.mPlayers := by
  refine ⟨fun _ _ => rfl, ?_, ?_⟩
  · intro s d hw
    exact ClientSession.every_receive PlayerTable.wellPosed_entries (Set.mem_univ _)
      (ClientSession.places_univ (.receive (.playerData d))) hw
  · intro s d k hk
    simp only [poseStep, ClientHandler.handlePlayerData]
    split_ifs
    · rfl
    · exact PlayerTable.handlePlayerData_other hk

namespace World

structure WellPosed (w : World) : Prop where
  host : w.host.handler.mPlayers.Every PlayerGameData.WellPosed
  clients : ∀ c, (w.clients c).handler.mPlayers.Every PlayerGameData.WellPosed

theorem start_wellPosed : WellPosed start := by
  constructor
  · intro k p h
    simp [start, HostSession.start, ServerHandler.hosted] at h
  · intro c k p h
    simp [start, ClientSession.start, ClientHandler.joining] at h

theorem WellPosed.next {w : World} (h : WellPosed w) (a : WorldAction) : WellPosed (w.next a) := by
  cases a with
  | host a =>
    exact ⟨HostSession.every_act PlayerTable.wellPosed_entries (Set.mem_univ _)
      (HostSession.places_univ a) h.host, h.clients⟩
  | client c a =>
    refine ⟨h.host, ?_⟩
    intro d
    by_cases hd : d = c
    · subst hd
      simp only [World.next, clientStep, Function.update_self]
      exact ClientSession.every_act PlayerTable.wellPosed_entries (Set.mem_univ _)
        (ClientSession.places_univ a) (h.clients d)
    · simp only [World.next, clientStep, Function.update_of_ne hd]
      exact h.clients d
  | loseToServer | loseToClient => exact ⟨h.host, h.clients⟩

theorem run_wellPosed (as : List WorldAction) : WellPosed (system.run start as) :=
  System.invariant_always (fun _ a h => h.next a) start_wellPosed as

/-- Whatever happens in whatever order: a list of poses is empty or has both ends, so the test for an
empty one is enough. -/
theorem poseLists_wellFormed (as : List WorldAction) :
    let w := system.run start as
    let wellFormed (p : PlayerGameData) :=
      ∃ poses, p.playerPoses = some poses ∧ (poses.length = 0 ∨ poses.length = 2)
    (w.host.handler.mPlayers.Every wellFormed ∧
      ∀ deltaTime, (w.host.handler.handleInterpolatePlayerPoses deltaTime).thrown = none) ∧
    ∀ c, (w.clients c).handler.mPlayers.Every wellFormed ∧
      ∀ deltaTime, ((w.clients c).handler.handleInterpolatePlayerPoses deltaTime).thrown = none := by
  obtain ⟨hhost, hclients⟩ := run_wellPosed as
  constructor
  · exact ⟨fun k p hp => (hhost k p hp).length,
      PlayerTable.handleInterpolatePlayerPoses_returns hhost⟩
  · intro c
    exact ⟨fun k p hp => (hclients c k p hp).length,
      PlayerTable.handleInterpolatePlayerPoses_returns (hclients c)⟩

/-- In every state of a session: a hologram that gets a position stands there when its pose list is
cleared exactly if it stood there before. -/
theorem interpolation_arrives {as : List WorldAction} (hl : system.Legal start as) (d : PlayerData)
    {o : GameObject} (hu : o.usable = true) :
    let w := system.run start as
    (let s := (w.host.handler.handlePlayerData d).state;
      s.mPlayers.object d.playerID = some o →
        (Arrives ServerHandler.poseStep ServerHandler.mPlayers s d.playerID d.pos ↔
          o.position = d.pos)) ∧
    ∀ c,
      let s := ((w.clients c).handler.handlePlayerData d).state;
      d.playerID ≠ s.connectionIDOnServer → s.mPlayers.object d.playerID = some o →
        (Arrives ClientHandler.poseStep ClientHandler.mPlayers s d.playerID d.pos ↔
          o.position = d.pos) := by
  have hposed : WellPosed (system.run start as) :=
    System.invariant_legal (fun _ a h _ => h.next a) start_wellPosed hl
  constructor
  · intro s ho
    obtain ⟨p, hp, ha, -⟩ := PlayerTable.handlePlayerData_approaches hposed.host ho hu
    exact arrives_iff ServerHandler.interpolates
      (ServerHandler.interpolates.posed _ d hposed.host) hp ha
  · intro c s hown ho
    have hid : s.connectionIDOnServer = ((system.run start as).clients c).handler.connectionIDOnServer := by
      simp only [s, ClientHandler.handlePlayerData]
      split_ifs <;> rfl
    have htable : s.mPlayers =
        (((system.run start as).clients c).handler.mPlayers.handlePlayerData d).1 := by
      simp only [s, ClientHandler.handlePlayerData, if_neg (hid ▸ hown)]
    rw [htable] at ho
    obtain ⟨p, hp, ha, -⟩ := PlayerTable.handlePlayerData_approaches (hposed.clients c) ho hu
    exact arrives_iff ClientHandler.interpolates
      (ClientHandler.interpolates.posed _ d (hposed.clients c)) (htable ▸ hp) ha

/-- Two frames of 20 ms: the second one clears the list and draws the hologram at 20/33 of its way. -/
theorem twoFrames_fallShort :
    let d : PlayerData := ⟨1, 7, ⟨0, 0, 0⟩, 12⟩
    ¬ Arrives ServerHandler.poseStep ServerHandler.mPlayers
      (start.host.handler.handlePlayerData d).state d.playerID d.pos := by
  intro d h
  have hfalse := h [.frame (1 / 50)] (1 / 50) (by decide +kernel) (by norm_num)
    (by decide +kernel) (by decide +kernel)
  revert hfalse
  decide +kernel

theorem interpolation_arrives_twoJoin :
    let d : PlayerData := ⟨1, 1, GameObject.hologram.position, 12⟩
    let w := system.run start twoJoin
    Arrives ServerHandler.poseStep ServerHandler.mPlayers (w.host.handler.handlePlayerData d).state
        d.playerID d.pos ∧
      Arrives ClientHandler.poseStep ClientHandler.mPlayers
        ((w.clients 2).handler.handlePlayerData d).state d.playerID d.pos := by
  intro d w
  have hl : system.Legal start twoJoin := by decide +kernel
  obtain ⟨hhost, hclient⟩ := interpolation_arrives hl d (o := .hologram) (by decide)
  constructor
  · exact (hhost (by decide +kernel)).mpr rfl
  · exact (hclient 2 (by decide +kernel) (by decide +kernel)).mpr rfl

end World

end SeminarTouhou
