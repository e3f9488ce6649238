import SeminarTouhou.Network.Attribution
import SeminarTouhou.Network.Holograms

namespace SeminarTouhou

open Library

/-- The table of the client of `c` shows what the view says: other players are the known ones, they
are drawn by holograms, and those that should be shown have a live one. -/
structure Displays (c : Connection) (t : PlayerTable) (v : View) : Prop where
  init : t.Init
  entries : ∀ k ∈ t, k = c ∨ k ∈ v.known
  known : ∀ k ∈ v.known, k ≠ c ∧ k ∈ t
  shown : ∀ k ∈ v.shown, k ∈ v.known ∧ t.Shown k
  holograms : ∀ k kind life, k ≠ c → t.status k = some (some (kind, life)) → kind = .hologram

namespace Displays

open PlayerTable

variable {c : Connection} {t : PlayerTable} {v : View}

theorem start : Displays c ∅ ⟨[], []⟩ := by
  refine ⟨fun k p h => by simp at h, fun k h => absurd h (AList.notMem_empty k), ?_, ?_, ?_⟩
  · simp
  · simp
  · intro k kind life _ h
    simp [PlayerTable.status] at h

theorem same (hd : Displays c t v) {u : PlayerTable} (hi : u.Init)
    (hs : ∀ k, u.status k = t.status k) : Displays c u v := by
  constructor
  · exact hi
  · exact fun k hk => hd.entries k ((mem_congr (hs k)).mp hk)
  · exact fun k hk => ⟨(hd.known k hk).1, (mem_congr (hs k)).mpr (hd.known k hk).2⟩
  · exact fun k hk => ⟨(hd.shown k hk).1, (hs k).trans (hd.shown k hk).2⟩
  · exact fun k kind life hk h => hd.holograms k kind life hk ((hs k).symm.trans h)

theorem status_onObjects {f : GameObject → GameObject} (hf : ∀ o, (f o).kind = o.kind)
    {k : UInt32} {kind : Prefab} {life : Life}
    (h : (t.onObjects f).status k = some (some (kind, life))) :
    ∃ l, t.status k = some (some (kind, l)) := by
  simp only [PlayerTable.status, PlayerTable.onObjects, Dict.lookup_mapValues, Option.map_map,
    Option.map_eq_some_iff, Function.comp_apply, PlayerGameData.status, PlayerGameData.onObject] at h
  obtain ⟨p, hp, o, ho, he⟩ := h
  obtain ⟨hkind, -⟩ := Prod.mk.inj he
  refine ⟨o.life, ?_⟩
  simp [PlayerTable.status, PlayerGameData.status, hp, ho, ← hkind, hf]

theorem onObjects (hd : Displays c t v) {f : GameObject → GameObject}
    (hf : ∀ o, (f o).kind = o.kind) {v' : View} (hk : v'.known = v.known)
    (hs : ∀ k ∈ v'.shown, k ∈ v.shown)
    (hlife : v'.shown = [] ∨ ∀ o, o.kind = .hologram → o.life = .alive → (f o).life = .alive) :
    Displays c (t.onObjects f) v' := by
  constructor
  · exact hd.init.onObjects f
  · exact fun k hm => hk ▸ hd.entries k (mem_onObjects.mp hm)
  · intro k hm
    obtain ⟨hne, hmem⟩ := hd.known k (hk ▸ hm)
    exact ⟨hne, mem_onObjects.mpr hmem⟩
  · intro k hm
    obtain ⟨hknown, hshown⟩ := hd.shown k (hs k hm)
    refine ⟨hk ▸ hknown, ?_⟩
    rcases hlife with hempty | hlife
    · rw [hempty] at hm
      nomatch hm
    · apply hshown.onObjects
      intro o hkind halive
      exact ⟨(hf o).trans hkind, hlife o hkind halive⟩
  · intro k kind life hne h
    obtain ⟨l, hl⟩ := status_onObjects hf h
    exact hd.holograms k kind l hne hl

theorem register (hd : Displays c t v) {p : PlayerGameData} (hp : p.playerPoses.isSome) :
    Displays c (t.insert c p) v := by
  constructor
  · exact hd.init.insert hp
  · intro k hk
    rcases (AList.mem_insert _).mp hk with hk | hk
    · exact Or.inl hk
    · exact hd.entries k hk
  · intro k hk
    obtain ⟨hne, hmem⟩ := hd.known k hk
    exact ⟨hne, (AList.mem_insert _).mpr (Or.inr hmem)⟩
  · intro k hk
    obtain ⟨hknown, hshown⟩ := hd.shown k hk
    exact ⟨hknown, hshown.insert_ne (hd.known k hknown).1 p⟩
  · intro k kind life hne h
    rw [status_insert_ne hne] at h
    exact hd.holograms k kind life hne h

theorem meets (hd : Displays c t v) {d : PlayerData} (hc : d.playerID ≠ c)
    (hnew : d.playerID ∉ v.known) :
    Displays c (t.handlePlayerData d).1 ⟨d.playerID :: v.known, d.playerID :: v.shown⟩ := by
  have hmem : d.playerID ∉ t := fun hm => (hd.entries _ hm).elim hc hnew
  have hshown := handlePlayerData_new hmem
  have hother : ∀ k, k ≠ d.playerID → (t.handlePlayerData d).1.status k = t.status k := by
    intro k hk
    rw [PlayerTable.status, handlePlayerData_other hk, PlayerTable.status]
  constructor
  · exact (handlePlayerData_init hd.init).1
  · intro k hk
    by_cases hkd : k = d.playerID
    · exact Or.inr (hkd ▸ List.mem_cons_self)
    · rcases hd.entries k ((mem_congr (hother k hkd)).mp hk) with h | h
      · exact Or.inl h
      · exact Or.inr (List.mem_cons_of_mem _ h)
  · intro k hk
    rcases List.mem_cons.mp hk with rfl | hk
    · exact ⟨hc, mem_of_status hshown⟩
    · obtain ⟨hne, hkt⟩ := hd.known k hk
      exact ⟨hne, mem_handlePlayerData d hkt⟩
  · intro k hk
    rcases List.mem_cons.mp hk with rfl | hk
    · exact ⟨List.mem_cons_self, hshown⟩
    · obtain ⟨hknown, hks⟩ := hd.shown k hk
      exact ⟨List.mem_cons_of_mem _ hknown, hks.handlePlayerData d⟩
  · intro k kind life hne h
    by_cases hkd : k = d.playerID
    · subst hkd
      rw [hshown] at h
      simp only [Option.some.injEq, Prod.mk.injEq] at h
      exact h.1.symm
    · rw [hother k hkd] at h
      exact hd.holograms k kind life hne h

theorem finish (hd : Displays c t v) {k : UInt32} {p : PlayerGameData} (hp : t.lookup k = some p) :
    Displays c (t.insert k { p with playerOBJ := none })
      ⟨v.known, v.shown.filter (fun j => j ≠ k)⟩ := by
  have hkt := Dict.mem_of_lookup hp
  have hmem : ∀ j, j ∈ t.insert k { p with playerOBJ := none } ↔ j ∈ t := by
    intro j
    rw [AList.mem_insert]
    exact or_iff_right_of_imp (fun hj => hj ▸ hkt)
  constructor
  · exact hd.init.insert (hd.init k p hp)
  · exact fun j hj => hd.entries j ((hmem j).mp hj)
  · exact fun j hj => ⟨(hd.known j hj).1, (hmem j).mpr (hd.known j hj).2⟩
  · intro j hj
    obtain ⟨hj, hjk⟩ := List.mem_filter.mp hj
    obtain ⟨hknown, hshown⟩ := hd.shown j hj
    exact ⟨hknown, hshown.insert_ne (of_decide_eq_true hjk) _⟩
  · intro j kind life hne h
    by_cases hjk : j = k
    · subst hjk
      simp [PlayerGameData.status] at h
    · rw [status_insert_ne hjk] at h
      exact hd.holograms j kind life hne h

theorem level (hd : Displays c t v) {p : PlayerGameData} (hp : p.playerPoses.isSome) :
    Displays c ((Dict.mapValues
      (fun k p => if k = c then p else PlayerGameData.hologram) t).insert c p)
      ⟨v.known, v.known⟩ := by
  have hstatus : ∀ k ∈ t, k ≠ c → PlayerTable.Shown ((Dict.mapValues
      (fun k p => if k = c then p else PlayerGameData.hologram) t).insert c p) k := by
    intro k hk hne
    obtain ⟨q, hq⟩ := Dict.exists_lookup hk
    rw [Shown, status_insert_ne hne, PlayerTable.status, Dict.lookup_mapValues, hq]
    simp [hne]
  constructor
  · apply Init.insert _ hp
    apply Dict.Every.mapValues
    intro k q hq
    split_ifs
    · exact hd.init k q hq
    · rfl
  · intro k hk
    rcases (AList.mem_insert _).mp hk with hk | hk
    · exact Or.inl hk
    · exact hd.entries k ((Dict.mem_mapValues _ _ _).mp hk)
  · intro k hk
    obtain ⟨hne, hkt⟩ := hd.known k hk
    exact ⟨hne, mem_of_status (hstatus k hkt hne)⟩
  · intro k hk
    obtain ⟨hne, hkt⟩ := hd.known k hk
    exact ⟨hk, hstatus k hkt hne⟩
  · intro k kind life hne h
    have hkt : k ∈ t := by
      rcases (AList.mem_insert _).mp (mem_of_status h) with hk | hk
      · exact absurd hk hne
      · exact (Dict.mem_mapValues _ _ _).mp hk
    have hs : PlayerTable.status _ k = _ := hstatus k hkt hne
    rw [hs] at h
    simp only [Option.some.injEq, Prod.mk.injEq] at h
    exact h.1.symm

end Displays

namespace ClientSession

def Addressed (c : Connection) : ClientAction → Prop
  | .receive p => p.about ≠ some c ∧ ∀ d, p = .registerPlayer d → d = ⟨roomID, c⟩
  | _ => True

/-- Bombs are handled for players whose position came in before, finishes for players that are
shown, and the level is loaded once the id is known. -/
def InView (s : ClientSession) : ClientAction → Prop
  | .receive (.offensiveBombData d) => d.playerID ∈ s.view.known
  | .receive (.otherPlayerFinish d) => d.playerID ∈ s.view.known ∧
    (d.finishState ≠ .playerDisconnected → d.playerID ∈ s.view.shown)
  | .loadScene scene _ => scene = 4 → s.handler.connectionIDOnServer ≠ 0
  | _ => True

instance (s : ClientSession) (a : ClientAction) : Decidable (s.InView a) := by
  rcases a with _ | ⟨_ | _⟩ | _ <;> dsimp only [InView] <;> infer_instance

section Steps

variable {c : Connection} {s : ClientSession}

theorem displays_receive (hd : Displays c s.handler.mPlayers s.view) {p : Packet}
    (ha : Addressed c (.receive p)) :
    Displays c (s.next (.receive p)).handler.mPlayers (s.next (.receive p)).view := by
  cases p with
  | playerData d =>
    have hc : d.playerID ≠ c := fun h => ha.1 (congrArg some h)
    simp only [next_handler, next_view, act, viewAfter, ClientHandler.receive,
      ClientHandler.handlePlayerData]
    by_cases hown : d.playerID = s.handler.connectionIDOnServer
    · simpa only [hown, true_or, if_true, Outcome.returns_state] using hd
    · by_cases hknown : d.playerID ∈ s.view.known
      · simp only [hown, hknown, or_true, if_true, if_false]
        exact hd.same (PlayerTable.handlePlayerData_init hd.init).1
          (PlayerTable.handlePlayerData_known (hd.known _ hknown).2)
      · simp only [hown, hknown, or_false, if_false]
        exact hd.meets hc hknown
  | registerPlayer d =>
    obtain rfl := ha.2 d rfl
    simp only [next_handler, next_view, act, viewAfter, ClientHandler.receive,
      ClientHandler.handleRegisterPlayerPacket]
    split_ifs
    · exact hd
    · exact hd.register rfl
  | otherPlayerFinish d =>
    have hfewer : Displays c s.handler.mPlayers
        ⟨s.view.known, s.view.shown.filter (fun k => k ≠ d.playerID)⟩ :=
      ⟨hd.init, hd.entries, hd.known, fun k hk => hd.shown k (List.mem_filter.mp hk).1, hd.holograms⟩
    simp only [next_handler, next_view, act, viewAfter, ClientHandler.receive,
      ClientHandler.handleOtherPlayerFinish]
    split
    · exact hfewer
    · next q hq =>
      split
      · exact hfewer
      · exact hd.finish hq
  | offensiveBombData d =>
    simp only [next_handler, next_view, act, viewAfter, ClientHandler.receive,
      ClientHandler.handleOffensiveBombData]
    repeat' split
    all_goals exact hd
  | gameState d =>
    obtain ⟨room, e⟩ := d
    cases e <;> exact hd
  | playerCount | storePlayerResults | sendResult => exact hd

theorem displays_next (hd : Displays c s.handler.mPlayers s.view)
    (hid : s.handler.connectionIDOnServer ∈ [0, c]) {a : ClientAction} (ha : Addressed c a)
    (hv : s.InView a) : Displays c (s.next a).handler.mPlayers (s.next a).view := by
  have own {f : GameObject → GameObject} (hf : ∀ o, (f o).kind = o.kind) :
      Displays c (s.handler.onOwnPlayer f).mPlayers s.view := by
    apply hd.onObjects _ rfl (fun _ hk => hk) (Or.inr _)
    · intro o
      split_ifs
      · exact hf o
      · rfl
    · intro o hkind hlife
      simpa [hkind] using hlife
  cases a with
  | receive p => exact displays_receive hd ha
  | loadScene scene position =>
    have hunloaded : Displays c (s.handler.onObjects .unload).mPlayers ⟨s.view.known, []⟩ :=
      hd.onObjects GameObject.unload_kind rfl (by simp) (Or.inl rfl)
    by_cases hscene : scene = 4
    · have hne := hv hscene
      have hown : s.handler.connectionIDOnServer = c := by simpa [hne] using hid
      simp only [next_handler, next_view, act, viewAfter, hscene, if_true,
        ClientHandler.handleRegisterPlayer, ClientHandler.onObjects, Outcome.returns_state, hown]
      exact hunloaded.level rfl
    · simpa only [next_handler, next_view, act, viewAfter, hscene, if_false,
        Outcome.returns_state] using hunloaded
  | interpolate deltaTime =>
    exact hd.same (PlayerTable.interpolateKeys_init _ _ hd.init)
      (PlayerTable.interpolateKeys_status _ _ _)
  | movePlayer position => exact own (GameObject.moveTo_kind position)
  | destroyPlayer => exact own GameObject.destroy_kind
  | endOfFrame =>
    exact hd.onObjects GameObject.endOfFrame_kind rfl (fun _ hk => hk)
      (Or.inr (fun _ _ => GameObject.endOfFrame_alive))
  | statusUpdate state connection => cases state <;> exact hd
  | sendPlayerResults r =>
    simp only [next_handler, next_view, act, viewAfter, ClientHandler.handleSendPlayerResults]
    split_ifs <;> exact hd
  | fireOffensiveBomb | sendPlayerData => exact hd

theorem registered_next (hr : c ∈ s.handler.mPlayers → s.handler.connectionIDOnServer = c)
    {a : ClientAction} (ha : Addressed c a) :
    c ∈ (s.next a).handler.mPlayers → (s.next a).handler.connectionIDOnServer = c := by
  have insert_ne {t : PlayerTable} {k : UInt32} {p : PlayerGameData} (hk : k ≠ c)
      (h : c ∈ t.insert k p) : c ∈ t :=
    ((AList.mem_insert _).mp h).resolve_left (fun he => hk he.symm)
  cases a with
  | receive p =>
    cases p with
    | playerData d =>
      have hc : d.playerID ≠ c := fun h => ha.1 (congrArg some h)
      simp only [next_handler, act, ClientHandler.receive, ClientHandler.handlePlayerData]
      split_ifs
      · exact hr
      · intro h
        exact hr ((Dict.mem_congr (PlayerTable.handlePlayerData_other hc.symm)).mp h)
    | registerPlayer d =>
      obtain rfl := ha.2 d rfl
      simp only [next_handler, act, ClientHandler.receive, ClientHandler.handleRegisterPlayerPacket]
      split_ifs <;> exact fun _ => rfl
    | otherPlayerFinish d =>
      have hc : d.playerID ≠ c := fun h => ha.1 (congrArg some h)
      simp only [next_handler, act, ClientHandler.receive, ClientHandler.handleOtherPlayerFinish]
      repeat' split
      · exact hr
      · exact hr
      · exact fun h => hr (insert_ne hc h)
    | offensiveBombData d =>
      simp only [next_handler, act, ClientHandler.receive, ClientHandler.handleOffensiveBombData]
      repeat' split
      all_goals exact hr
    | gameState d =>
      obtain ⟨room, e⟩ := d
      cases e <;> exact hr
    | playerCount | storePlayerResults | sendResult => exact hr
  | loadScene scene position =>
    simp only [next_handler, act, ClientHandler.handleRegisterPlayer]
    split_ifs
    · intro h
      rcases (AList.mem_insert _).mp h with h | h
      · exact h.symm
      · exact hr (PlayerTable.mem_onObjects.mp ((Dict.mem_mapValues _ _ _).mp h))
    · exact fun h => hr (PlayerTable.mem_onObjects.mp h)
  | interpolate deltaTime =>
    exact fun h => hr ((PlayerTable.mem_congr (PlayerTable.interpolateKeys_status _ _ _ c)).mp h)
  | movePlayer | destroyPlayer | endOfFrame => exact fun h => hr (PlayerTable.mem_onObjects.mp h)
  | statusUpdate state connection => cases state <;> exact hr
  | sendPlayerResults r =>
    simp only [next_handler, act, ClientHandler.handleSendPlayerResults]
    split_ifs <;> exact hr
  | fireOffensiveBomb | sendPlayerData => exact hr

theorem survives_inView (hd : Displays c s.handler.mPlayers s.view) {p : Packet}
    (ha : Addressed c (.receive p)) (hv : s.InView (.receive p))
    (hnew : ∀ d, p = .registerPlayer d → c ∉ s.handler.mPlayers) :
    (s.handler.receive p).thrown = none := by
  cases p with
  | playerData d =>
    simp only [ClientHandler.receive, ClientHandler.handlePlayerData]
    split_ifs
    · rfl
    · exact (PlayerTable.handlePlayerData_init hd.init).2
  | registerPlayer d =>
    obtain rfl := ha.2 d rfl
    simp [ClientHandler.receive, ClientHandler.handleRegisterPlayerPacket, hnew _ rfl]
  | offensiveBombData d =>
    obtain ⟨hne, hk⟩ := hd.known _ hv
    obtain ⟨q, hq⟩ := Dict.exists_lookup hk
    simp only [ClientHandler.receive, ClientHandler.handleOffensiveBombData, hq]
    cases ho : q.playerOBJ with
    | none => rfl
    | some o =>
      have hkind := hd.holograms d.playerID o.kind o.life hne
        (by simp [PlayerTable.status, PlayerGameData.status, hq, ho])
      by_cases hu : o.usable = true
      · simp [hu, hkind]
      · simp [hu]
  | otherPlayerFinish d =>
    obtain ⟨hne, hk⟩ := hd.known _ hv.1
    obtain ⟨q, hq⟩ := Dict.exists_lookup hk
    have hevents : ∃ events, finishEvents d.finishState q.playerOBJ = .ok events := by
      by_cases hleft : d.finishState = .playerDisconnected
      · exact ⟨[], by rw [hleft]; rfl⟩
      · exact (hd.shown _ (hv.2 hleft)).2.events hq d.finishState
    obtain ⟨events, he⟩ := hevents
    simp [ClientHandler.receive, ClientHandler.handleOtherPlayerFinish, hq, he]
  | gameState d =>
    obtain ⟨room, e⟩ := d
    cases e <;> rfl
  | playerCount | storePlayerResults | sendResult => rfl

end Steps

end ClientSession

namespace World

def News (w : World) : Prop := ∀ c p, (c, p) ∈ w.toClient → p.about ≠ some c

def Once (w : World) : Prop := ∀ c, c ≠ 0 →
  w.toClient.count (c, .registerPlayer ⟨roomID, c⟩) +
    (if (w.clients c).handler.connectionIDOnServer = c then 1 else 0) ≤
      if c ∈ w.accepted then 1 else 0

structure Display (w : World) : Prop where
  displays : ∀ c, c ≠ 0 → Displays c (w.clients c).handler.mPlayers (w.clients c).view
  registered : ∀ c, c ≠ 0 → c ∈ (w.clients c).handler.mPlayers →
    (w.clients c).handler.connectionIDOnServer = c

theorem start_display : Display start where
  displays := fun _ _ => Displays.start
  registered := fun c _ h => absurd h (AList.notMem_empty c)

theorem News.next {w : World} (hn : News w) (a : WorldAction) : News (w.next a) := by
  intro c p h
  cases a with
  | host a =>
    rcases List.mem_append.mp h with h | h
    · exact hn c p h
    · have hs : HostSession.Sends a w.host.handler c p := HostSession.sends_act h
      cases hs with
      | news q id hq hne =>
        rw [hq]
        exact fun he => hne (Option.some.inj he)
      | register | started | finished | count | result => simp [Packet.about]
  | client d a => exact hn c p (toClientAfter_subset w d a h)
  | loseToServer e => exact hn c p h
  | loseToClient e => exact hn c p (List.mem_of_mem_erase h)

theorem addressed {w : World} (hl : Labels w) (hn : News w) {c : Connection} {a : ClientAction}
    (he : w.Enabled (.client c a)) : ClientSession.Addressed c a := by
  cases a with
  | receive p =>
    refine ⟨hn c p he.2.2, ?_⟩
    rintro d rfl
    exact hl.registers c d he.2.2
  | _ => trivial

def InView (w : World) : WorldAction → Prop
  | .client c a => (w.clients c).InView a
  | _ => True

instance (w : World) (a : WorldAction) : Decidable (w.InView a) := by
  rcases a with ⟨⟩ <;> dsimp only [InView] <;> infer_instance

theorem Display.next {w : World} (hi : Display w) (hl : Labels w) (hn : News w) {a : WorldAction}
    (he : w.Enabled a) (hv : w.InView a) : Display (w.next a) := by
  cases a with
  | client d a =>
    have ha := addressed hl hn he
    constructor
    · intro c hc
      by_cases hcd : c = d
      · subst hcd
        simp only [World.next, World.clientStep, Function.update_self]
        exact ClientSession.displays_next (hi.displays c hc) (hl.ids c) ha hv
      · simp only [World.next, World.clientStep, Function.update_of_ne hcd]
        exact hi.displays c hc
    · intro c hc
      by_cases hcd : c = d
      · subst hcd
        simp only [World.next, World.clientStep, Function.update_self]
        exact ClientSession.registered_next (hi.registered c hc) ha
      · simp only [World.next, World.clientStep, Function.update_of_ne hcd]
        exact hi.registered c hc
  | host | loseToServer | loseToClient => exact ⟨hi.displays, hi.registered⟩

theorem count_registrations (a : HostAction) (s : ServerHandler) (c : Connection) :
    (HostSession.act a s).sent.count (c, .registerPlayer ⟨roomID, c⟩) ≤
      if a = .statusCallback .connected c then 1 else 0 := by
  split_ifs with ha
  · subst ha
    simp only [HostSession.act, ServerHandler.serverStatusCallback,
      ServerHandler.handlePlayerJoining]
    split_ifs
    · exact Nat.zero_le 1
    · exact List.count_le_length
  · rw [Nat.le_zero, List.count_eq_zero]
    intro h
    have hs : HostSession.Sends a s c (.registerPlayer ⟨roomID, c⟩) := HostSession.sends_act h
    generalize hp : Packet.registerPlayer ⟨roomID, c⟩ = p at hs
    cases hs with
    | register hc => exact ha hc
    | news q id hq _ =>
      subst hp
      simp [Packet.about] at hq
    | started | finished | count | result => cases hp

theorem once_host {w : World} (ho : Once w) {a : HostAction} (he : w.Enabled (.host a)) :
    Once (w.hostStep a) := by
  intro c hc
  have hold := ho c hc
  have hsent := count_registrations a w.host.handler c
  change (w.toClient ++ (HostSession.act a w.host.handler).sent).count _ +
    (if (w.clients c).handler.connectionIDOnServer = c then 1 else 0) ≤
      if c ∈ w.acceptedAfter a then 1 else 0
  rw [List.count_append]
  by_cases ha : a = .statusCallback .connected c
  · subst ha
    have hnew : c ∉ w.accepted := he.2
    have hacc : c ∈ w.acceptedAfter (.statusCallback .connected c) := List.mem_cons_self
    rw [if_neg hnew] at hold
    rw [if_pos rfl] at hsent
    rw [if_pos hacc]
    omega
  · rw [if_neg ha] at hsent
    have hmono : (if c ∈ w.accepted then 1 else 0) ≤ if c ∈ w.acceptedAfter a then 1 else 0 := by
      by_cases hm : c ∈ w.accepted
      · rw [if_pos hm, if_pos (subset_acceptedAfter w a hm)]
      · rw [if_neg hm]
        exact Nat.zero_le _
    omega

theorem once_client {w : World} (ho : Once w) (hl : Labels w) {d : Connection} {a : ClientAction}
    (he : w.Enabled (.client d a)) : Once (w.clientStep d a) := by
  intro c hc
  have hold := ho c hc
  have hfewer : (w.toClientAfter d a).count (c, .registerPlayer ⟨roomID, c⟩) ≤
      w.toClient.count (c, .registerPlayer ⟨roomID, c⟩) := by
    cases a with
    | receive p => exact List.Sublist.count_le _ List.erase_sublist
    | _ => exact le_refl _
  change (w.toClientAfter d a).count _ +
    (if (Function.update w.clients d ((w.clients d).next a) c).handler.connectionIDOnServer = c
      then 1 else 0) ≤ if c ∈ w.accepted then 1 else 0
  by_cases hcd : c = d
  · subst hcd
    rw [Function.update_self, ClientSession.next_handler]
    rcases ClientSession.id_act a (w.clients c).handler with hs | ⟨r, rfl, hs⟩
    · rw [hs]
      omega
    · -- the packet that registers the client is used up
      obtain rfl := hl.registers c r he.2.2
      have hpos := List.count_pos_iff.mpr he.2.2
      rw [hs, if_pos rfl]
      simp only [World.toClientAfter, List.count_erase_self]
      omega
  · rw [Function.update_of_ne hcd]
    omega

theorem Once.next {w : World} (ho : Once w) (hl : Labels w) {a : WorldAction} (he : w.Enabled a) :
    Once (w.next a) := by
  cases a with
  | host a => exact once_host ho he
  | client d a => exact once_client ho hl he
  | loseToServer e => exact ho
  | loseToClient e =>
    intro c hc
    have hfewer := List.Sublist.count_le (c, .registerPlayer ⟨roomID, c⟩)
      (List.erase_sublist (a := e) (l := w.toClient))
    exact (Nat.add_le_add_right hfewer _).trans (ho c hc)

def ClientSurvives (w : World) : WorldAction → Prop
  | .client c (.receive p) => ((w.clients c).handler.receive p).thrown = none
  | _ => True

theorem clientSurvives_of_inView {w : World} (hi : Display w) (hl : Labels w) (hn : News w)
    (ho : Once w) {a : WorldAction} (he : w.Enabled a) (hv : w.InView a) : w.ClientSurvives a := by
  cases a with
  | client c a =>
    cases a with
    | receive p =>
      have hc : c ≠ 0 := he.1
      apply ClientSession.survives_inView (hi.displays c hc) (addressed hl hn he) hv
      rintro d rfl hm
      obtain rfl := hl.registers c d he.2.2
      have hold := ho c hc
      have hpos := List.count_pos_iff.mpr he.2.2
      rw [if_pos (hi.registered c hc hm)] at hold
      split_ifs at hold <;> omega
    | _ => trivial
  | host | loseToServer | loseToClient => trivial

/-- No message throws on a client when bombs and finishes are about players in its view. -/
theorem client_survives {as : List WorldAction} (hl : system.Legal start as)
    (hv : system.Meets InView start as) : system.Meets ClientSurvives start as := by
  let Inv (w : World) : Prop := Display w ∧ Labels w ∧ News w ∧ Once w
  have hstep : ∀ w a, Inv w → system.enabled w a → w.InView a → Inv (system.next w a) := by
    rintro w a ⟨hi, hl, hn, ho⟩ he hv
    exact ⟨hi.next hl hn he hv, hl.next he, hn.next a, ho.next hl he⟩
  have hsurvives : ∀ w a, Inv w → system.enabled w a → w.InView a → w.ClientSurvives a := by
    rintro w a ⟨hi, hl, hn, ho⟩ he hv
    exact clientSurvives_of_inView hi hl hn ho he hv
  have hstart : Inv start := by
    refine ⟨start_display, start_labels, ?_, ?_⟩
    · simp [News, start]
    · intro c hc
      simp [start, ClientSession.start, ClientHandler.joining, hc.symm]
  exact System.every_step hstep hsurvives hstart hl hv

/-- Two players in the level; the packet with the first position of the second is lost. -/
def unknownBomber : List WorldAction :=
  [.client 5 (.statusUpdate .connected 9), .host (.statusCallback .connected 5),
    .client 5 (.receive (.registerPlayer ⟨1, 5⟩)), .host .startGame,
    .client 5 (.receive (.gameState ⟨1, .startGame⟩)), .host (.levelLoaded ⟨0, 0, 0⟩),
    .client 5 (.loadScene 4 ⟨1, 0, 0⟩), .host .sendPlayerData,
    .loseToClient (5, .playerData ⟨1, 0, ⟨0, 0, 0⟩, 12⟩), .host (.fireOffensiveBomb ⟨1, 1⟩)]

theorem unknownBomber_throws :
    system.Legal start (unknownBomber ++
      [.client 5 (.receive (.offensiveBombData ⟨1, 0, ⟨1, 1, 0⟩⟩))]) ∧
    ¬system.Meets ClientSurvives start (unknownBomber ++
      [.client 5 (.receive (.offensiveBombData ⟨1, 0, ⟨1, 1, 0⟩⟩))]) := by
  refine ⟨by decide +kernel, ?_⟩
  intro h
  have hlast := system.meets_concat h
  unfold ClientSurvives at hlast
  revert hlast
  decide +kernel

def knownBomber : List WorldAction :=
  [.client 5 (.statusUpdate .connected 9), .host (.statusCallback .connected 5),
    .client 5 (.receive (.registerPlayer ⟨1, 5⟩)), .host .startGame,
    .client 5 (.receive (.gameState ⟨1, .startGame⟩)), .host (.levelLoaded ⟨0, 0, 0⟩),
    .client 5 (.loadScene 4 ⟨1, 0, 0⟩), .host .sendPlayerData,
    .client 5 (.receive (.playerData ⟨1, 0, ⟨0, 0, 0⟩, 12⟩)), .host (.fireOffensiveBomb ⟨1, 1⟩),
    .client 5 (.receive (.offensiveBombData ⟨1, 0, ⟨1, 1, 0⟩⟩))]

theorem client_survives_knownBomber : system.Meets ClientSurvives start knownBomber :=
  client_survives (by decide +kernel) (by decide +kernel)

end World

end SeminarTouhou
