import SeminarTouhou.Network.Packet

namespace SeminarTouhou

open Library

/-- `ServerHandler.PlayerGameData`; `new` leaves the pose list `null` until `init` is called. -/
structure PlayerGameData where
  playerOBJ : Option GameObject
  playerPoses : Option (List Vector3)
  playerInterpolationTracker : ℚ
deriving DecidableEq

namespace PlayerGameData

def new : PlayerGameData := ⟨none, none, 0⟩

def init (p : PlayerGameData) : PlayerGameData :=
  { p with playerPoses := some [], playerInterpolationTracker := 0 }

def onObject (f : GameObject → GameObject) (p : PlayerGameData) : PlayerGameData :=
  { p with playerOBJ := p.playerOBJ.map f }

def hologram : PlayerGameData := { init new with playerOBJ := some .hologram }

def recordPose (pos : Vector3) (o : GameObject) (p : PlayerGameData) : Except Exn PlayerGameData :=
  match p.playerPoses with
  | none => .error .nullReference
  | some _ => .ok { p with playerPoses := some [o.position, pos], playerInterpolationTracker := 0 }

def interpolate (deltaTime : ℚ) (p : PlayerGameData) : Except Exn PlayerGameData :=
  match p.playerPoses with
  | none => .error .nullReference
  | some [] => .ok p
  | some (a :: rest) =>
    match p.playerOBJ with
    | none => .ok p
    | some o =>
      if o.usable then
        match rest with
        | [] => .error .argumentOutOfRange
        | b :: _ =>
          let t := p.playerInterpolationTracker + deltaTime
          .ok ⟨some (o.moveTo (a.lerp b (p.playerInterpolationTracker / packetTargetSendTime))),
            if packetTargetSendTime ≤ t then some [] else some (a :: rest), t⟩
      else .ok p

end PlayerGameData

abbrev PlayerTable := Dict UInt32 PlayerGameData

namespace PlayerTable

/-- The body that both nodes' `handlePlayerData` share, on the table it updates. -/
def handlePlayerData (d : PlayerData) (t : PlayerTable) : PlayerTable × Option Exn :=
  match t.lookup d.playerID with
  | none =>
    match PlayerGameData.hologram.recordPose d.pos .hologram with
    | .error e => (t.insert d.playerID .hologram, some e)
    | .ok p => (t.insert d.playerID p, none)
  | some p =>
    match p.playerOBJ with
    | none => (t, none)
    | some o =>
      if o.usable then
        match p.recordPose d.pos o with
        | .error e => (t, some e)
        | .ok p' => (t.insert d.playerID p', none)
      else (t, none)

def interpolateKeys (deltaTime : ℚ) : List UInt32 → PlayerTable → PlayerTable × Option Exn
  | [], t => (t, none)
  | k :: ks, t =>
    match t.lookup k with
    | none => (t, some .keyNotFound)
    | some p =>
      match p.interpolate deltaTime with
      | .error e => (t, some e)
      | .ok p' => interpolateKeys deltaTime ks (t.insert k p')

def handleInterpolatePlayerPoses (deltaTime : ℚ) (t : PlayerTable) : PlayerTable × Option Exn :=
  interpolateKeys deltaTime t.keys t

def onObjects (f : GameObject → GameObject) (t : PlayerTable) : PlayerTable :=
  Dict.mapValues (fun _ => PlayerGameData.onObject f) t

end PlayerTable

def finishEvents (context : ResultContext) (playerOBJ : Option GameObject) :
    Except Exn (List Event) :=
  match context with
  | .playerWon => (deref playerOBJ).map (fun o => [.playerWin false o.position])
  | .playerDied => (deref playerOBJ).map (fun o => [.playerDie false o.position])
  | .playerDisconnected => .ok []

namespace PlayerGameData

def status (p : PlayerGameData) : Option (Prefab × Life) :=
  p.playerOBJ.map (fun o => (o.kind, o.life))

@[simp] theorem hologram_status : hologram.status = some (.hologram, .alive) := rfl

theorem recordPose_status {pos : Vector3} {o : GameObject} {p q : PlayerGameData}
    (h : p.recordPose pos o = .ok q) : q.status = p.status ∧ q.playerPoses.isSome := by
  unfold recordPose at h
  cases hp : p.playerPoses with
  | none => simp [hp] at h
  | some l =>
    simp only [hp, Except.ok.injEq] at h
    subst h
    exact ⟨rfl, rfl⟩

theorem recordPose_init (pos : Vector3) (o : GameObject) {p : PlayerGameData}
    (h : p.playerPoses.isSome) : ∃ q, p.recordPose pos o = .ok q := by
  obtain ⟨l, hl⟩ := Option.isSome_iff_exists.mp h
  exact ⟨_, by simp [recordPose, hl]; rfl⟩

theorem interpolate_status {deltaTime : ℚ} {p q : PlayerGameData}
    (h : p.interpolate deltaTime = .ok q) : q.status = p.status ∧ q.playerPoses.isSome := by
  unfold interpolate at h
  cases hp : p.playerPoses with
  | none => simp [hp] at h
  | some l =>
    have hsame (h : p = q) : q.status = p.status ∧ q.playerPoses.isSome := by
      subst h
      exact ⟨rfl, by simp [hp]⟩
    cases l with
    | nil => exact hsame (by simpa [hp] using h)
    | cons a rest =>
      cases ho : p.playerOBJ with
      | none => exact hsame (by simpa [hp, ho] using h)
      | some o =>
        by_cases hu : o.usable = true
        · cases rest with
          | nil => simp [hp, ho, hu] at h
          | cons b rest =>
            simp only [hp, ho, hu, if_true, Except.ok.injEq] at h
            subst h
            refine ⟨by simp [status, ho], ?_⟩
            split_ifs <;> rfl
        · exact hsame (by simpa [hp, ho, hu] using h)

@[simp] theorem onObject_poses (f : GameObject → GameObject) (p : PlayerGameData) :
    (p.onObject f).playerPoses = p.playerPoses := rfl

end PlayerGameData

namespace PlayerTable

def status (t : PlayerTable) (k : UInt32) : Option (Option (Prefab × Life)) :=
  (t.lookup k).map PlayerGameData.status

theorem status_isSome {t : PlayerTable} {k : UInt32} : (t.status k).isSome ↔ k ∈ t := by
  rw [← AList.lookup_isSome, status, Option.isSome_map]

theorem mem_of_status {t : PlayerTable} {k : UInt32} {x : Option (Prefab × Life)}
    (h : t.status k = some x) : k ∈ t := status_isSome.mp (by simp [h])

theorem mem_congr {t u : PlayerTable} {k : UInt32} (h : t.status k = u.status k) :
    k ∈ t ↔ k ∈ u := by
  rw [← status_isSome, ← status_isSome, h]

@[simp] theorem status_insert (t : PlayerTable) (k : UInt32) (p : PlayerGameData) :
    status (t.insert k p) k = some p.status := by
  simp [status]

theorem status_insert_ne {t : PlayerTable} {j k : UInt32} (h : j ≠ k) (p : PlayerGameData) :
    status (t.insert k p) j = t.status j := by
  simp [status, h]

theorem status_insert_same {t : PlayerTable} {k : UInt32} {p q : PlayerGameData}
    (hp : t.lookup k = some p) (hq : q.status = p.status) (j : UInt32) :
    status (t.insert k q) j = t.status j := by
  by_cases hj : j = k
  · subst hj
    rw [status_insert, status, hp, hq]
    rfl
  · exact status_insert_ne hj q

theorem status_erase_ne {t : PlayerTable} {j k : UInt32} (h : j ≠ k) :
    status (t.erase k) j = t.status j := by
  simp [status, h]

def Init (t : PlayerTable) : Prop := ∀ k p, t.lookup k = some p → p.playerPoses.isSome

/-- A property of entries that nothing the handlers do to an entry breaks, as long as players are put
in the region. -/
structure EntryInvariant (region : Set Vector3) (P : PlayerGameData → Prop) : Prop where
  fresh {obj : Option GameObject} : (∀ o, obj = some o → o.position ∈ region) →
    P { PlayerGameData.init .new with playerOBJ := obj }
  object {p : PlayerGameData} {o : GameObject} : P p → p.playerOBJ = some o → o.position ∈ region
  noObject {p : PlayerGameData} : P p → P { p with playerOBJ := none }
  onObject {p : PlayerGameData} {f : GameObject → GameObject} :
    (∀ o, o.position ∈ region → (f o).position ∈ region) → P p → P (p.onObject f)
  recordPose {p q : PlayerGameData} {pos : Vector3} {o : GameObject} :
    P p → o.position ∈ region → pos ∈ region → p.recordPose pos o = .ok q → P q
  interpolate {p q : PlayerGameData} {deltaTime : ℚ} : P p → p.interpolate deltaTime = .ok q → P q

section Entries

variable {region : Set Vector3} {P : PlayerGameData → Prop} (hP : EntryInvariant region P)
  {t : PlayerTable}

include hP

theorem every_onObjects (h : t.Every P) {f : GameObject → GameObject}
    (hf : ∀ o, o.position ∈ region → (f o).position ∈ region) : (t.onObjects f).Every P :=
  Dict.Every.mapValues (fun k p hp => hP.onObject hf (h k p hp))

theorem every_interpolateKeys (deltaTime : ℚ) (ks : List UInt32) (h : t.Every P) :
    (interpolateKeys deltaTime ks t).1.Every P := by
  induction ks generalizing t with
  | nil => exact h
  | cons j ks ih =>
    unfold interpolateKeys
    cases hj : t.lookup j with
    | none => exact h
    | some p =>
      cases hp : p.interpolate deltaTime with
      | error e => simpa only [hp] using h
      | ok q =>
        simp only [hp]
        exact ih (h.insert (hP.interpolate (h j p hj) hp))

theorem entry_hologram (hprefab : GameObject.hologram.position ∈ region) :
    P PlayerGameData.hologram := by
  apply hP.fresh
  intro o ho
  obtain rfl := Option.some.inj ho
  exact hprefab

theorem every_handlePlayerData (hprefab : GameObject.hologram.position ∈ region) {d : PlayerData}
    (hd : d.pos ∈ region) (h : t.Every P) : (t.handlePlayerData d).1.Every P := by
  unfold handlePlayerData
  cases hp : t.lookup d.playerID with
  | none =>
    have hr : PlayerGameData.hologram.recordPose d.pos .hologram = .ok _ := rfl
    exact h.insert (hP.recordPose (entry_hologram hP hprefab) hprefab hd hr)
  | some p =>
    cases ho : p.playerOBJ with
    | none => simpa only [ho] using h
    | some o =>
      by_cases hu : o.usable = true
      · cases hr : p.recordPose d.pos o with
        | error e => simpa only [ho, hu, if_true, hr] using h
        | ok q =>
          simp only [ho, hu, if_true, hr]
          exact h.insert (hP.recordPose (h _ p hp) (hP.object (h _ p hp) ho) hd hr)
      · simpa only [ho, hu, Bool.false_eq_true, if_false] using h

end Entries

theorem init_entries : EntryInvariant Set.univ (fun p => p.playerPoses.isSome) where
  fresh _ := rfl
  object _ _ := Set.mem_univ _
  noObject h := h
  onObject _ h := h
  recordPose _ _ _ hr := (PlayerGameData.recordPose_status hr).2
  interpolate _ hi := (PlayerGameData.interpolate_status hi).2

theorem Init.insert {t : PlayerTable} (h : t.Init) {k : UInt32} {p : PlayerGameData}
    (hp : p.playerPoses.isSome) : Init (t.insert k p) := Dict.Every.insert h hp

theorem Init.onObjects {t : PlayerTable} (h : t.Init) (f : GameObject → GameObject) :
    (t.onObjects f).Init := every_onObjects init_entries h (fun _ _ => Set.mem_univ _)

theorem mem_onObjects {t : PlayerTable} {f : GameObject → GameObject} {k : UInt32} :
    k ∈ t.onObjects f ↔ k ∈ t := Dict.mem_mapValues _ _ _

theorem interpolateKeys_status (deltaTime : ℚ) (ks : List UInt32) (t : PlayerTable) (k : UInt32) :
    (interpolateKeys deltaTime ks t).1.status k = t.status k := by
  induction ks generalizing t with
  | nil => rfl
  | cons j ks ih =>
    unfold interpolateKeys
    cases hj : t.lookup j with
    | none => rfl
    | some p =>
      cases hp : p.interpolate deltaTime with
      | error e => simp only [hp]
      | ok q =>
        simp only [hp]
        have hq := (PlayerGameData.interpolate_status hp).1
        exact (ih (t.insert j q)).trans (status_insert_same hj hq k)

theorem interpolateKeys_init (deltaTime : ℚ) (ks : List UInt32) {t : PlayerTable} (h : t.Init) :
    (interpolateKeys deltaTime ks t).1.Init := every_interpolateKeys init_entries deltaTime ks h

theorem handlePlayerData_known {d : PlayerData} {t : PlayerTable} (h : d.playerID ∈ t)
    (k : UInt32) : (t.handlePlayerData d).1.status k = t.status k := by
  obtain ⟨p, hp⟩ := Dict.exists_lookup h
  unfold handlePlayerData
  simp only [hp]
  cases ho : p.playerOBJ with
  | none => rfl
  | some o =>
    by_cases hu : o.usable = true
    · cases hr : p.recordPose d.pos o with
      | error e => simp only [hu, if_true, hr]
      | ok q =>
        simp only [hu, if_true, hr]
        exact status_insert_same hp (PlayerGameData.recordPose_status hr).1 k
    · simp [hu]

theorem handlePlayerData_other {d : PlayerData} {t : PlayerTable} {k : UInt32}
    (h : k ≠ d.playerID) : (t.handlePlayerData d).1.lookup k = t.lookup k := by
  unfold handlePlayerData
  repeat' split
  all_goals first | rfl | exact AList.lookup_insert_ne h

theorem mem_handlePlayerData (d : PlayerData) {t : PlayerTable} {k : UInt32} (hk : k ∈ t) :
    k ∈ (t.handlePlayerData d).1 := by
  by_cases hd : d.playerID ∈ t
  · exact (mem_congr (handlePlayerData_known hd k)).mpr hk
  · have hne : k ≠ d.playerID := fun he => hd (he ▸ hk)
    exact (Dict.mem_congr (handlePlayerData_other hne)).mpr hk

theorem handlePlayerData_new {d : PlayerData} {t : PlayerTable} (h : d.playerID ∉ t) :
    (t.handlePlayerData d).1.status d.playerID = some (some (.hologram, .alive)) := by
  unfold handlePlayerData
  rw [AList.lookup_eq_none.mpr h]
  exact status_insert _ _ _

theorem handlePlayerData_init {d : PlayerData} {t : PlayerTable} (h : t.Init) :
    (t.handlePlayerData d).1.Init ∧ (t.handlePlayerData d).2 = none := by
  refine ⟨every_handlePlayerData init_entries (Set.mem_univ _) (Set.mem_univ _) h, ?_⟩
  unfold handlePlayerData
  cases hp : t.lookup d.playerID with
  | none => rfl
  | some p =>
    cases ho : p.playerOBJ with
    | none => simp only [ho]
    | some o =>
      by_cases hu : o.usable = true
      · obtain ⟨q, hq⟩ := PlayerGameData.recordPose_init d.pos o (h _ _ hp)
        simp only [ho, hu, if_true, hq]
      · simp only [ho, hu, Bool.false_eq_true, if_false]

end PlayerTable

end SeminarTouhou
