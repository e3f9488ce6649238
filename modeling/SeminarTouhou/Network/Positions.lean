import SeminarTouhou.Network.Interpolation
import SeminarTouhou.Network.Raised
import SeminarTouhou.Network.Announcements

namespace SeminarTouhou

open Library

def Vector3.coordinates (v : Vector3) : ℚ × ℚ × ℚ := (v.x, v.y, v.z)

def Vector3.region (C : Set (ℚ × ℚ × ℚ)) : Set Vector3 := {v | v.coordinates ∈ C}

variable {C : Set (ℚ × ℚ × ℚ)}

theorem Vector3.lerp_mem (hC : Convex ℚ C) {a b : Vector3} (ha : a.coordinates ∈ C)
    (hb : b.coordinates ∈ C) (t : ℚ) : (a.lerp b t).coordinates ∈ C := by
  have h0 : 0 ≤ max 0 (min t 1) := le_max_left _ _
  have h1 : max 0 (min t 1) ≤ 1 := max_le zero_le_one (min_le_right t 1)
  have hmem := hC ha hb (sub_nonneg.mpr h1) h0 (sub_add_cancel 1 _)
  have heq : (a.lerp b t).coordinates =
      (1 - max 0 (min t 1)) • a.coordinates + max 0 (min t 1) • b.coordinates := by
    simp only [lerp, coordinates, Prod.smul_mk, Prod.mk_add_mk, smul_eq_mul, Prod.mk.injEq]
    refine ⟨?_, ?_, ?_⟩ <;> ring
  rwa [heq]

namespace PlayerGameData

/-- Where the object is, and where it is drawn next, is in the region. -/
structure Inside (C : Set (ℚ × ℚ × ℚ)) (p : PlayerGameData) : Prop where
  object : ∀ o, p.playerOBJ = some o → o.position.coordinates ∈ C
  poses : ∀ l, p.playerPoses = some l → ∀ v ∈ l, v.coordinates ∈ C

variable {p q : PlayerGameData}

theorem inside_init {obj : Option GameObject} (h : ∀ o, obj = some o → o.position.coordinates ∈ C) :
    Inside C { init new with playerOBJ := obj } := by
  refine ⟨h, ?_⟩
  rintro l hl v hv
  obtain rfl := Option.some.inj hl
  exact absurd hv List.not_mem_nil

theorem Inside.onObject (h : p.Inside C) {f : GameObject → GameObject}
    (hf : ∀ o, o.position.coordinates ∈ C → (f o).position.coordinates ∈ C) :
    (p.onObject f).Inside C := by
  refine ⟨?_, h.poses⟩
  intro o ho
  obtain ⟨o', ho', rfl⟩ := Option.map_eq_some_iff.mp ho
  exact hf o' (h.object o' ho')

theorem Inside.recordPose (h : p.Inside C) {pos : Vector3} {o : GameObject}
    (ho : o.position.coordinates ∈ C) (hpos : pos.coordinates ∈ C) (hq : p.recordPose pos o = .ok q) :
    q.Inside C := by
  rw [recordPose_wellPosed hq]
  refine ⟨h.object, ?_⟩
  intro l hl v hv
  obtain rfl := Option.some.inj hl
  obtain rfl | hv := List.mem_cons.mp hv
  · exact ho
  · obtain rfl := List.mem_singleton.mp hv
    exact hpos

theorem Inside.interpolate (hC : Convex ℚ C) (h : p.Inside C) {deltaTime : ℚ}
    (hq : p.interpolate deltaTime = .ok q) : q.Inside C := by
  unfold PlayerGameData.interpolate at hq
  split at hq
  · cases hq
  · exact Except.ok.inj hq ▸ h
  · next a rest hposes =>
    split at hq
    · exact Except.ok.inj hq ▸ h
    · next o ho =>
      split_ifs at hq
      · split at hq
        · cases hq
        · next b rest =>
          obtain rfl := Except.ok.inj hq
          have hin := h.poses _ hposes
          have ha := hin a List.mem_cons_self
          have hb := hin b (List.mem_cons_of_mem a List.mem_cons_self)
          constructor
          · intro o' ho'
            obtain rfl := Option.some.inj ho'
            exact Vector3.lerp_mem hC ha hb _
          · intro l hl v hv
            dsimp only at hl
            split_ifs at hl
            · obtain rfl := Option.some.inj hl
              exact absurd hv List.not_mem_nil
            · obtain rfl := Option.some.inj hl
              exact hin v hv
      · exact Except.ok.inj hq ▸ h

end PlayerGameData

namespace PlayerTable

open PlayerGameData

theorem inside_entries (hC : Convex ℚ C) : EntryInvariant (Vector3.region C) (Inside C) where
  fresh := inside_init
  object h ho := h.object _ ho
  noObject h := ⟨nofun, h.poses⟩
  onObject hf h := h.onObject hf
  recordPose h ho hpos hq := h.recordPose ho hpos hq
  interpolate h hq := h.interpolate hC hq

end PlayerTable

namespace HostSession

open ServerHandler PlayerGameData PlayerTable

theorem position_sent {a : HostAction} {s : ServerHandler} {c : Connection} {d : PlayerData}
    (h : (c, .playerData d) ∈ (act a s).sent) :
    ∃ p o, s.mPlayers.lookup d.playerID = some p ∧ p.playerOBJ = some o ∧ d.pos = o.position := by
  have ht : Tells a s c (.playerData d) := tells_act h
  cases ht with
  | other _ hp => cases hp
  | position _ ha =>
    subst ha
    simp only [act, ServerHandler.sendPlayerData, Outcome.sends_sent] at h
    split_ifs at h
    · obtain ⟨e, he, hd⟩ := List.mem_flatMap.mp h
      split at hd
      · exact absurd hd List.not_mem_nil
      · next o ho =>
        split_ifs at hd
        · obtain rfl := Packet.playerData.inj (mem_broadcastExcept.mp hd).2.2
          exact ⟨e.2, o, AList.mem_lookup_iff.mpr he, ho, rfl⟩
        · exact absurd hd List.not_mem_nil
    · exact absurd h List.not_mem_nil

end HostSession

namespace ClientSession

open ClientHandler PlayerGameData PlayerTable

theorem position_sent {a : ClientAction} {s : ClientHandler} {d : PlayerData}
    (h : .playerData d ∈ (act a s).sent) :
    ∃ k p o, s.mPlayers.lookup k = some p ∧ p.playerOBJ = some o ∧ d.pos = o.position := by
  have hreports := (sent_claimedID h).1
  cases a with
  | sendPlayerData =>
    obtain ⟨o, ho, hd⟩ := List.mem_map.mp h
    obtain rfl := Packet.playerData.inj hd
    simp only [ownPlayer, Option.mem_toList] at ho
    split_ifs at ho
    obtain ⟨hbind, -⟩ := Option.filter_eq_some_iff.mp ho
    obtain ⟨p, hp, hobj⟩ := Option.bind_eq_some_iff.mp hbind
    exact ⟨_, p, o, hp, hobj, rfl⟩
  | sendPlayerResults r =>
    simp only [act, ClientHandler.handleSendPlayerResults] at h
    split_ifs at h
    · cases List.mem_singleton.mp h
    · exact absurd h List.not_mem_nil
  | fireOffensiveBomb pos =>
    obtain ⟨o, -, ho⟩ := List.mem_map.mp h
    cases ho
  | statusUpdate | receive | loadScene | interpolate | movePlayer | destroyPlayer | endOfFrame =>
    exact hreports.elim

end ClientSession

namespace World

/-- A player is only ever put in the region: when its level is loaded, and when it moves. -/
def MovesInside (C : Set (ℚ × ℚ × ℚ)) : WorldAction → Prop
  | .host (.levelLoaded position) => position.coordinates ∈ C
  | .host (.movePlayer position) => position.coordinates ∈ C
  | .client _ (.loadScene _ position) => position.coordinates ∈ C
  | .client _ (.movePlayer position) => position.coordinates ∈ C
  | _ => True

structure Inside (C : Set (ℚ × ℚ × ℚ)) (w : World) : Prop where
  host : w.host.handler.mPlayers.Every (PlayerGameData.Inside C)
  clients : ∀ c, (w.clients c).handler.mPlayers.Every (PlayerGameData.Inside C)
  toServer : ∀ c d, (c, .playerData d) ∈ w.toServer → d.pos.coordinates ∈ C
  toClient : ∀ c d, (c, .playerData d) ∈ w.toClient → d.pos.coordinates ∈ C

def raised (w : World) : WorldAction → List Event
  | .host a => (HostSession.act a w.host.handler).raised
  | .client c a => (ClientSession.act a (w.clients c).handler).raised
  | _ => []

def EndsInside (C : Set (ℚ × ℚ × ℚ)) (w : World) (a : WorldAction) : Prop :=
  ∀ own pos, (.playerWin own pos ∈ w.raised a ∨ .playerDie own pos ∈ w.raised a) → pos.coordinates ∈ C

theorem start_inside : Inside C start := by
  constructor
  · intro k p h
    simp [start, HostSession.start, ServerHandler.hosted] at h
  · intro c k p h
    simp [start, ClientSession.start, ClientHandler.joining] at h
  · exact fun _ _ h => absurd h List.not_mem_nil
  · exact fun _ _ h => absurd h List.not_mem_nil

section Steps

variable {w : World}

theorem Inside.ofHost (h : w.Inside C) {a : HostAction} (he : w.Enabled (.host a))
    (ha : MovesInside C (.host a)) : HostSession.Places (Vector3.region C) a := by
  cases a with
  | receive c p =>
    cases p with
    | playerData d => exact h.toServer c d he.2
    | _ => trivial
  | levelLoaded | movePlayer => exact ha
  | _ => trivial

theorem Inside.ofClient (h : w.Inside C) {c : Connection} {a : ClientAction}
    (he : w.Enabled (.client c a)) (ha : MovesInside C (.client c a)) : ClientSession.Places (Vector3.region C) a := by
  cases a with
  | receive p =>
    cases p with
    | playerData d => exact h.toClient c d he.2.2
    | _ => trivial
  | loadScene | movePlayer => exact ha
  | _ => trivial

theorem Inside.next (hC : Convex ℚ C) (hprefab : GameObject.hologram.position.coordinates ∈ C)
    (h : w.Inside C) {a : WorldAction} (he : w.Enabled a) (ha : MovesInside C a) :
    (w.next a).Inside C := by
  cases a with
  | host a =>
    refine ⟨HostSession.every_act (PlayerTable.inside_entries hC) hprefab (h.ofHost he ha) h.host, h.clients, ?_, ?_⟩
    · exact fun c d hd => h.toServer c d (toServerAfter_subset w a hd)
    · intro c d hd
      obtain hd | hd := List.mem_append.mp hd
      · exact h.toClient c d hd
      · obtain ⟨p, o, hp, ho, hpos⟩ := HostSession.position_sent hd
        rw [hpos]
        exact (h.host _ p hp).object o ho
  | client b a =>
    refine ⟨h.host, ?_, ?_, ?_⟩
    · intro c
      by_cases hc : c = b
      · subst hc
        simp only [World.next, clientStep, Function.update_self]
        exact ClientSession.every_act (PlayerTable.inside_entries hC) hprefab (h.ofClient he ha)
          (h.clients c)
      · simp only [World.next, clientStep, Function.update_of_ne hc]
        exact h.clients c
    · intro c d hd
      obtain hd | ⟨rfl, hsent⟩ := mem_toServer_clientStep hd
      · exact h.toServer c d hd
      · obtain ⟨k, p, o, hp, ho, hpos⟩ := ClientSession.position_sent hsent
        rw [hpos]
        exact (h.clients c k p hp).object o ho
    · exact fun c d hd => h.toClient c d (toClientAfter_subset w b a hd)
  | loseToServer e =>
    exact ⟨h.host, h.clients, fun c d hd => h.toServer c d (List.mem_of_mem_erase hd), h.toClient⟩
  | loseToClient e =>
    exact ⟨h.host, h.clients, h.toServer, fun c d hd => h.toClient c d (List.mem_of_mem_erase hd)⟩

theorem Inside.ends (h : w.Inside C) (a : WorldAction) : w.EndsInside C a := by
  have hat {t : PlayerTable} (ht : t.Every (PlayerGameData.Inside C)) {k : UInt32} {p : PlayerGameData}
      (hp : t.lookup k = some p) {context : ResultContext} {events : List Event}
      (hf : finishEvents context p.playerOBJ = .ok events) {own : Bool} {pos : Vector3} {e : Event}
      (he : e ∈ events) (hpos : e = .playerWin own pos ∨ e = .playerDie own pos) :
      pos.coordinates ∈ C := by
    obtain ⟨o, ho, ⟨-, rfl⟩ | ⟨-, rfl⟩⟩ := finishEvents_position hf he
    · obtain ⟨-, rfl⟩ := Event.playerWin.inj (hpos.resolve_right nofun)
      exact (ht k p hp).object o ho
    · obtain ⟨-, rfl⟩ := Event.playerDie.inj (hpos.resolve_left nofun)
      exact (ht k p hp).object o ho
  intro own pos hends
  obtain ⟨e, he, hpos⟩ : ∃ e ∈ w.raised a, e = .playerWin own pos ∨ e = .playerDie own pos := by
    obtain h | h := hends
    · exact ⟨_, h, Or.inl rfl⟩
    · exact ⟨_, h, Or.inr rfl⟩
  cases a with
  | host a =>
    have hr : HostSession.Raises a w.host.handler e := HostSession.raises_act he
    cases hr with
    | finish _ c d p events _ hp hf hmem => exact hat h.host hp hf hmem hpos
    | count | closed | result | bomb | results => rcases hpos with hpos | hpos <;> nomatch hpos
  | client c a =>
    have hr : ClientSession.Raises a (w.clients c).handler e := ClientSession.raises_act he
    cases hr with
    | finish _ d p events _ hp hf hmem => exact hat (h.clients c) hp hf hmem hpos
    | scene _ n hn =>
      rcases hn with rfl | rfl <;> rcases hpos with hpos | hpos <;> nomatch hpos
    | closed | count | result | bomb => rcases hpos with hpos | hpos <;> nomatch hpos
  | loseToServer | loseToClient => exact absurd he List.not_mem_nil

end Steps

end World

end SeminarTouhou
