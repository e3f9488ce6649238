import SeminarTouhou.Network.ClientEntries
import SeminarTouhou.Network.ServerSurvival

namespace SeminarTouhou

open Library

namespace PlayerTable

def live (t : PlayerTable) (k : UInt32) : Bool :=
  ((t.lookup k).bind (fun p => p.playerOBJ)).any (fun o => o.usable)

variable {t u : PlayerTable} {j k : UInt32}

theorem live_status (t : PlayerTable) (k : UInt32) :
    t.live k = (t.status k).join.any (fun x => x.2 ≠ .destroyed) := by
  unfold live status
  cases t.lookup k with
  | none => rfl
  | some p => cases hp : p.playerOBJ <;> simp [PlayerGameData.status, hp, GameObject.usable]

theorem live_congr (h : t.status k = u.status k) : t.live k = u.live k := by
  rw [live_status, live_status, h]

theorem live_of_notMem (h : k ∉ t) : t.live k = false := by
  simp [live, AList.lookup_eq_none.mpr h]

theorem mem_of_live (h : t.live k = true) : k ∈ t := by
  by_contra hk
  simp [live_of_notMem hk] at h

theorem Shown.live (h : t.Shown k) : t.live k = true := by
  have hs : t.status k = some (some (.hologram, .alive)) := h
  simp [live_status, hs]

theorem live_insert (t : PlayerTable) (k : UInt32) (p : PlayerGameData) :
    live (t.insert k p) k = p.playerOBJ.any (fun o => o.usable) := by
  simp [live]

theorem live_insert_ne (h : j ≠ k) (p : PlayerGameData) : live (t.insert k p) j = t.live j :=
  live_congr (status_insert_ne h p)

theorem live_erase (h : live (t.erase k) j = true) : t.live j = true := by
  by_cases hj : j = k
  · subst hj
    simp [live] at h
  · rwa [live_congr (status_erase_ne hj)] at h

theorem live_onObjects {f : GameObject → GameObject}
    (hf : ∀ o, (f o).usable = true → o.usable = true) (h : (t.onObjects f).live k = true) :
    t.live k = true := by
  unfold live PlayerTable.onObjects at h
  rw [Dict.lookup_mapValues] at h
  unfold live
  cases hp : t.lookup k with
  | none => simp [hp] at h
  | some p =>
    cases ho : p.playerOBJ with
    | none => simp [hp, ho, PlayerGameData.onObject] at h
    | some o =>
      simp only [hp, ho, Option.map_some, Option.bind_some, PlayerGameData.onObject,
        Option.any_some] at h ⊢
      exact hf o h

theorem live_handlePlayerData {d : PlayerData} (h : (t.handlePlayerData d).1.live k = true) :
    t.live k = true ∨ k = d.playerID ∧ k ∉ t := by
  by_cases hd : d.playerID ∈ t
  · rw [live_congr (handlePlayerData_known hd k)] at h
    exact Or.inl h
  · by_cases hk : k = d.playerID
    · exact Or.inr ⟨hk, hk ▸ hd⟩
    · unfold live at h
      rw [handlePlayerData_other hk] at h
      exact Or.inl h

def showsHologram (t : PlayerTable) (k : UInt32) : Bool :=
  ((t.lookup k).bind (fun p => p.playerOBJ)).any (fun o => decide (o.kind = .hologram) && o.usable)

theorem showsHologram_iff : t.showsHologram k = true ↔
    ∃ life, t.status k = some (some (.hologram, life)) ∧ life ≠ .destroyed := by
  unfold showsHologram status
  cases t.lookup k with
  | none => simp
  | some p => cases hp : p.playerOBJ <;> simp [PlayerGameData.status, hp, GameObject.usable]

theorem Shown.showsHologram (h : t.Shown k) : t.showsHologram k = true :=
  showsHologram_iff.mpr ⟨.alive, h, nofun⟩

theorem live_of_showsHologram (h : t.showsHologram k = true) : t.live k = true := by
  obtain ⟨life, hs, hlife⟩ := showsHologram_iff.mp h
  simp [live_status, hs, hlife]

theorem not_live_of_error {p : PlayerGameData} (hp : t.lookup k = some p) {context : ResultContext}
    {e : Exn} (he : finishEvents context p.playerOBJ = .error e) : t.live k = false := by
  cases ho : p.playerOBJ with
  | none => simp [live, hp, ho]
  | some o =>
    by_cases hu : o.usable = true
    · rw [ho] at he
      cases context <;> simp [finishEvents, deref, hu, Except.map] at he
    · simp [live, hp, ho, hu]

end PlayerTable

theorem GameObject.usable_destroy (o : GameObject) : o.destroy.usable = o.usable := by
  obtain ⟨kind, position, life⟩ := o
  cases life <;> rfl

theorem GameObject.usable_of_endOfFrame {o : GameObject} (h : o.endOfFrame.usable = true) :
    o.usable = true := by
  obtain ⟨kind, position, life⟩ := o
  cases life <;> simp_all [endOfFrame, usable, Life.endOfFrame]

namespace HostSession

open ServerHandler PlayerTable

theorem live_act {a : HostAction} {s : ServerHandler} {k : UInt32}
    (h : (act a s).state.mPlayers.live k = true) :
    s.mPlayers.live k = true ∨ (∃ position, a = .levelLoaded position) ∨
      ∃ c d, a = .receive c (.playerData d) ∧ k = d.playerID ∧ k ∉ s.mPlayers := by
  cases a with
  | levelLoaded position => exact Or.inr (Or.inl ⟨position, rfl⟩)
  | statusCallback state c =>
    left
    cases state with
    | connected =>
      simp only [act, serverStatusCallback, handlePlayerJoining] at h
      split_ifs at h
      · exact h
      · by_cases hk : k = c
        · subst hk
          simp [live_insert, PlayerGameData.init, PlayerGameData.new] at h
        · rwa [Outcome.state, live_insert_ne hk] at h
    | closedByPeer | problemDetectedLocally =>
      change (closing c s).mPlayers.live k = true at h
      obtain ⟨-, he⟩ | ⟨p, hp, he⟩ := closing_cases c s
      · rwa [he] at h
      · rw [he] at h
        dsimp only at h
        split_ifs at h
        · by_cases hk : k = c
          · subst hk
            rw [live_insert] at h
            unfold live
            cases ho : p.playerOBJ with
            | none => simp [PlayerGameData.onObject, ho] at h
            | some o =>
              simp only [PlayerGameData.onObject, ho, Option.map_some, Option.any_some,
                GameObject.usable_destroy] at h
              simp [hp, ho, h]
          · rwa [live_insert_ne hk] at h
        · exact live_erase h
  | receive c p =>
    simp only [act] at h
    obtain he | ⟨d, rfl, he⟩ | ⟨d, rfl, -, he | ⟨q, hd, he, -⟩⟩ := receive_state p s
    · rw [he] at h
      exact Or.inl h
    · rw [he] at h
      exact (live_handlePlayerData h).imp_right (fun hk => Or.inr ⟨c, d, rfl, hk⟩)
    · rw [he] at h
      exact Or.inl h
    · rw [he, handleGameEndCheck_players] at h
      by_cases hk : k = d.playerID
      · subst hk
        simp [live_insert] at h
      · rw [live_insert_ne hk] at h
        exact Or.inl h
  | sendPlayerResults r =>
    simp only [act, handleSendPlayerResults] at h
    split_ifs at h
    · exact Or.inl h
    · simp only [Outcome.sends_state, handleGameEndCheck_players] at h
      exact Or.inl h
  | endCheck b => cases b <;> exact Or.inl h
  | interpolate deltaTime =>
    exact Or.inl ((live_congr (interpolateKeys_status deltaTime _ s.mPlayers k)).symm.trans h)
  | movePlayer position =>
    refine Or.inl (live_onObjects ?_ h)
    intro o
    split_ifs <;> exact id
  | destroyPlayer =>
    refine Or.inl (live_onObjects ?_ h)
    intro o
    split_ifs
    · rw [GameObject.usable_destroy]
      exact id
    · exact id
  | unloadScene =>
    exact Or.inl (live_onObjects (fun o ho => by simp [GameObject.unload, GameObject.usable] at ho) h)
  | endOfFrame => exact Or.inl (live_onObjects (fun o => GameObject.usable_of_endOfFrame) h)
  | broadcastResults =>
    simp only [act, ServerHandler.broadcastResults] at h
    split_ifs at h <;> exact Or.inl h
  | startGame | fireOffensiveBomb | sendPlayerData | broadcastPlayerCount => exact Or.inl h

theorem live_level {s : ServerHandler} (hs : s.server = true) (position : Vector3) (k : UInt32) :
    (act (.levelLoaded position) s).state.mPlayers.live k = true ↔ k ∈ s.mPlayers ∨ k = serverPlayerID := by
  constructor
  · intro h
    obtain ⟨t, he, -, hmem, -⟩ := handleRegisterPlayer_state s hs ⟨.player, position, .alive⟩
    simp only [act, he] at h
    exact ((hmem k).mp (mem_of_live h)).symm
  · intro h
    simp only [act, handleRegisterPlayer, hs, if_true]
    split_ifs with h0
    · have hk : k ∈ s.mPlayers := by
        obtain h | rfl := h
        · exact h
        · exact (Dict.mem_mapValues _ _ _).mp h0
      obtain ⟨p, hp⟩ := Dict.exists_lookup hk
      simp [live, hp, PlayerGameData.hologram, GameObject.hologram, GameObject.usable]
    · by_cases hk : k = serverPlayerID
      · subst hk
        simp [live, PlayerGameData.init, GameObject.usable]
      · obtain ⟨p, hp⟩ := Dict.exists_lookup (h.resolve_right hk)
        simp [live, AList.lookup_insert_ne hk, hp, PlayerGameData.hologram, GameObject.hologram,
          GameObject.usable]

theorem finish_not_live (c : Connection) {d : PlayerSendResultData} {s : ServerHandler}
    (h : d.playerID ∉ s.mPlayerResults) :
    (act (.receive c (.storePlayerResults d)) s).state.mPlayers.live d.playerID = false := by
  obtain ⟨hr, -⟩ | ⟨-, ⟨e, hs, hk | ⟨p, hp, he⟩⟩ | ⟨q, events, -, -, hs⟩⟩ :=
    handleReceivePlayerResult_cases d s
  · exact absurd hr h
  · rw [act, receive, hs]
    exact live_of_notMem hk
  · rw [act, receive, hs]
    exact not_live_of_error hp he
  · rw [act, receive, hs, handleGameEndCheck_players]
    simp [live_insert]

end HostSession

namespace ClientSession

open PlayerTable

theorem live_act {a : ClientAction} {s : ClientHandler} {k : UInt32}
    (h : (act a s).state.mPlayers.live k = true) :
    s.mPlayers.live k = true ∨ (∃ position, a = .loadScene 4 position) ∨
      ∃ d, a = .receive (.playerData d) ∧ k = d.playerID ∧ k ∉ s.mPlayers ∧
        k ≠ s.connectionIDOnServer := by
  have hentry := entry_act a s k
  rw [live_status] at h
  generalize (act a s).state.mPlayers.status k = x at hentry h
  cases hentry with
  | same => exact Or.inl ((live_status s.mPlayers k).trans h)
  | met d hk hown hnew => exact Or.inr (Or.inr ⟨d, rfl, hk, hnew, hown⟩)
  | registered | finished | absent => nomatch h
  | own position | rebuilt position => exact Or.inr (Or.inl ⟨position, rfl⟩)
  | unloaded scene position hscene x => cases x <;> simp at h
  | aged _ kind life life' hold hlife ha hdead =>
    left
    have hlive : life ≠ .destroyed := by
      rintro rfl
      rw [hdead rfl] at h
      nomatch h
    simp [live_status, hold, hlive]

theorem live_level (s : ClientHandler) (position : Vector3) (k : UInt32) :
    (act (.loadScene 4 position) s).state.mPlayers.live k = true ↔
      k ∈ s.mPlayers ∨ k = s.connectionIDOnServer := by
  simp only [act, if_true, ClientHandler.handleRegisterPlayer, ClientHandler.onObjects,
    Outcome.returns_state]
  constructor
  · intro h
    obtain hk | hk := (AList.mem_insert _).mp (mem_of_live h)
    · exact Or.inr hk
    · exact Or.inl (mem_onObjects.mp ((Dict.mem_mapValues _ _ _).mp hk))
  · intro h
    by_cases hk : k = s.connectionIDOnServer
    · subst hk
      simp [live_insert, GameObject.usable]
    · obtain ⟨p, hp⟩ := Dict.exists_lookup (h.resolve_right hk)
      rw [live_insert_ne hk]
      simp [live, PlayerTable.onObjects, hp, hk, PlayerGameData.hologram, GameObject.hologram,
        GameObject.usable]

theorem finish_not_live (s : ClientHandler) (d : OtherClientFinishState) :
    (act (.receive (.otherPlayerFinish d)) s).state.mPlayers.live d.playerID = false := by
  simp only [act, ClientHandler.receive, ClientHandler.handleOtherPlayerFinish]
  cases hp : s.mPlayers.lookup d.playerID with
  | none => exact live_of_notMem (AList.lookup_eq_none.mp hp)
  | some p =>
    cases he : finishEvents d.finishState p.playerOBJ with
    | error e =>
      simp only [he]
      exact not_live_of_error hp he
    | ok events =>
      simp only [he]
      simp [live_insert]

end ClientSession

/-- The world with the finishes that were processed: `hostFinished` the players whose result the
host took, `finished` the players whose `OTHER_PLAYER_FINISH` a client handled. -/
structure FinishSession where
  world : World
  hostFinished : List UInt32
  finished : List (Connection × UInt32)

namespace FinishSession

open World

def start : FinishSession := ⟨.start, [], []⟩

def hostFinishedAfter (s : FinishSession) : WorldAction → List UInt32
  | .host (.receive _ (.storePlayerResults d)) =>
    if d.playerID ∈ s.world.host.handler.mPlayerResults then s.hostFinished
    else d.playerID :: s.hostFinished
  | _ => s.hostFinished

def finishedAfter (s : FinishSession) : WorldAction → List (Connection × UInt32)
  | .client c (.receive (.otherPlayerFinish d)) => (c, d.playerID) :: s.finished
  | _ => s.finished

def next (s : FinishSession) (a : WorldAction) : FinishSession :=
  ⟨s.world.next a, s.hostFinishedAfter a, s.finishedAfter a⟩

def system : System FinishSession WorldAction := ⟨fun s a => s.world.Enabled a, next⟩

instance (s : FinishSession) (a : WorldAction) : Decidable (system.enabled s a) :=
  inferInstanceAs (Decidable (s.world.Enabled a))

def ClientsAtRest (s : FinishSession) : Prop :=
  ∀ e ∈ s.finished, (s.world.clients e.1).handler.mPlayers.live e.2 = false

/-- No node has a live object for a player whose finish it processed. -/
structure AtRest (s : FinishSession) : Prop where
  host : ∀ k ∈ s.hostFinished, s.world.host.handler.mPlayers.live k = false
  clients : s.ClientsAtRest

def StaysFinished (s : FinishSession) (a : WorldAction) : Prop := (s.next a).AtRest

/-- A node has the finished players in its table when their position comes in late, and none of
them when its level registers its own player. -/
def Buried (s : FinishSession) : WorldAction → Prop
  | .host (.receive _ (.playerData d)) =>
    d.playerID ∈ s.hostFinished → d.playerID ∈ s.world.host.handler.mPlayers
  | .host (.levelLoaded _) => ∀ k ∈ s.hostFinished,
    k ≠ serverPlayerID ∧ k ∉ s.world.host.handler.mPlayers
  | .client c (.receive (.playerData d)) => (c, d.playerID) ∈ s.finished →
    d.playerID = (s.world.clients c).handler.connectionIDOnServer ∨
      d.playerID ∈ (s.world.clients c).handler.mPlayers
  | .client c (.loadScene scene _) => scene = 4 → ∀ e ∈ s.finished, e.1 = c →
    e.2 ≠ (s.world.clients c).handler.connectionIDOnServer ∧
      e.2 ∉ (s.world.clients c).handler.mPlayers
  | _ => True

instance (s : FinishSession) (a : WorldAction) : Decidable (s.Buried a) := by
  rcases a with (_ | _ | _ | _ | _ | ⟨_, _ | _⟩ | _) | ⟨_, _ | ⟨_ | _⟩ | _ | _⟩ | _
  case host.levelLoaded => exact List.decidableBAll _ _
  case client.loadScene => exact @instDecidableForall _ _ _ (List.decidableBAll _ _)
  all_goals dsimp only [Buried]; infer_instance

section Steps

variable {s : FinishSession}

def HostAtRest (s : FinishSession) (a : HostAction) : Prop :=
  ∀ k ∈ s.hostFinishedAfter (.host a), (HostSession.act a s.world.host.handler).state.mPlayers.live k = false

def ClientAtRest (s : FinishSession) (c : Connection) (a : ClientAction) : Prop :=
  ∀ k, (c, k) ∈ s.finishedAfter (.client c a) →
    (ClientSession.act a (s.world.clients c).handler).state.mPlayers.live k = false

theorem staysFinished_host (h : s.AtRest) (a : HostAction) :
    s.StaysFinished (.host a) ↔ s.HostAtRest a :=
  ⟨fun hs => hs.host, fun hs => ⟨hs, h.clients⟩⟩

theorem finished_subset (s : FinishSession) (a : WorldAction) : s.finished ⊆ s.finishedAfter a := by
  cases a with
  | client c a =>
    cases a with
    | receive p =>
      cases p with
      | otherPlayerFinish d => exact List.subset_cons_self _ _
      | _ => exact List.Subset.refl _
    | _ => exact List.Subset.refl _
  | host | loseToServer | loseToClient => exact List.Subset.refl _

theorem finished_client {c : Connection} {a : ClientAction} {e : Connection × UInt32}
    (he : e ∈ s.finishedAfter (.client c a)) : e ∈ s.finished ∨ e.1 = c := by
  cases a with
  | receive p =>
    cases p with
    | otherPlayerFinish d =>
      obtain rfl | he := List.mem_cons.mp he
      · exact Or.inr rfl
      · exact Or.inl he
    | _ => exact Or.inl he
  | _ => exact Or.inl he

theorem clientsAtRest_client (h : s.ClientsAtRest) (c : Connection) (a : ClientAction) :
    (s.next (.client c a)).ClientsAtRest ↔ s.ClientAtRest c a := by
  constructor
  · intro hs k hk
    have hrest := hs (c, k) hk
    simpa only [FinishSession.next, World.next, clientStep, Function.update_self,
      ClientSession.next_handler] using hrest
  · rintro hs ⟨d, k⟩ hk
    by_cases hd : d = c
    · subst hd
      simp only [FinishSession.next, World.next, clientStep, Function.update_self,
        ClientSession.next_handler]
      exact hs k hk
    · simp only [FinishSession.next, World.next, clientStep, Function.update_of_ne hd]
      exact h (d, k) ((finished_client hk).resolve_right hd)

theorem staysFinished_client (h : s.AtRest) (c : Connection) (a : ClientAction) :
    s.StaysFinished (.client c a) ↔ s.ClientAtRest c a :=
  ⟨fun hs => (clientsAtRest_client h.clients c a).mp hs.clients,
    fun hs => ⟨h.host, (clientsAtRest_client h.clients c a).mpr hs⟩⟩

theorem hostAtRest_kept (h : s.AtRest) {a : HostAction}
    (hf : s.hostFinishedAfter (.host a) = s.hostFinished)
    (hl : ∀ position, a ≠ .levelLoaded position)
    (hd : ∀ c d, a = .receive c (.playerData d) → d.playerID ∈ s.hostFinished →
      d.playerID ∈ s.world.host.handler.mPlayers) : s.HostAtRest a := by
  intro k hk
  rw [hf] at hk
  apply Bool.eq_false_iff.mpr
  intro hlive
  obtain hold | ⟨position, ha⟩ | ⟨c, d, ha, rfl, hnew⟩ := HostSession.live_act hlive
  · simp [h.host k hk] at hold
  · exact hl position ha
  · exact hnew (hd c d ha hk)

theorem hostAtRest_iff (hs : s.world.host.handler.server = true) (h : s.AtRest) (a : HostAction) :
    s.HostAtRest a ↔ s.Buried (.host a) := by
  cases a with
  | levelLoaded position =>
    constructor
    · intro hr k hk
      have hdead := hr k hk
      rw [Bool.eq_false_iff, ne_eq, HostSession.live_level hs, not_or] at hdead
      exact hdead.symm
    · intro hb k hk
      rw [Bool.eq_false_iff, ne_eq, HostSession.live_level hs, not_or]
      exact (hb k hk).symm
  | receive c p =>
    cases p with
    | playerData d =>
      constructor
      · intro hr hk
        by_contra hnew
        have hdead := hr d.playerID hk
        have hlive : (HostSession.act (.receive c (.playerData d)) s.world.host.handler).state.mPlayers.live
            d.playerID = true := PlayerTable.Shown.live (PlayerTable.handlePlayerData_new hnew)
        simp [hdead] at hlive
      · intro hb
        refine hostAtRest_kept h rfl (fun position ha => nomatch ha) ?_
        intro c' d' heq
        cases heq
        exact hb
    | storePlayerResults d =>
      refine iff_of_true ?_ trivial
      by_cases hr : d.playerID ∈ s.world.host.handler.mPlayerResults
      · exact hostAtRest_kept h (if_pos hr) (fun _ => nofun) (fun _ _ => nofun)
      · intro k hk
        rw [hostFinishedAfter, if_neg hr] at hk
        obtain rfl | hk := List.mem_cons.mp hk
        · exact HostSession.finish_not_live c hr
        · apply Bool.eq_false_iff.mpr
          intro hlive
          obtain hold | ⟨position, ha⟩ | ⟨c', d', ha, -⟩ := HostSession.live_act hlive
          · simp [h.host k hk] at hold
          · nomatch ha
          · nomatch ha
    | registerPlayer | playerCount | gameState | sendResult | offensiveBombData | otherPlayerFinish =>
      exact iff_of_true (hostAtRest_kept h rfl (fun _ => nofun) (fun _ _ => nofun)) trivial
  | statusCallback | startGame | sendPlayerResults | fireOffensiveBomb | endCheck | sendPlayerData
  | broadcastPlayerCount | broadcastResults | interpolate | movePlayer | destroyPlayer | unloadScene
  | endOfFrame => exact iff_of_true (hostAtRest_kept h rfl (fun _ => nofun) (fun _ _ => nofun)) trivial

theorem clientAtRest_kept (h : s.ClientsAtRest) {c : Connection} {a : ClientAction}
    (hf : s.finishedAfter (.client c a) = s.finished)
    (hl : ∀ position, a ≠ .loadScene 4 position)
    (hd : ∀ d, a = .receive (.playerData d) → (c, d.playerID) ∈ s.finished →
      d.playerID = (s.world.clients c).handler.connectionIDOnServer ∨
        d.playerID ∈ (s.world.clients c).handler.mPlayers) : s.ClientAtRest c a := by
  intro k hk
  rw [hf] at hk
  apply Bool.eq_false_iff.mpr
  intro hlive
  obtain hold | ⟨position, ha⟩ | ⟨d, ha, rfl, hnew, hown⟩ := ClientSession.live_act hlive
  · simp [h (c, k) hk] at hold
  · exact hl position ha
  · obtain he | hm := hd d ha hk
    · exact hown he
    · exact hnew hm

theorem clientAtRest_iff (h : s.ClientsAtRest) (c : Connection) (a : ClientAction) :
    s.ClientAtRest c a ↔ s.Buried (.client c a) := by
  cases a with
  | loadScene scene position =>
    by_cases hscene : scene = 4
    · subst hscene
      constructor
      · rintro hr - ⟨d, k⟩ hk rfl
        have hdead := hr k hk
        rw [Bool.eq_false_iff, ne_eq, ClientSession.live_level, not_or] at hdead
        exact hdead.symm
      · intro hb k hk
        rw [Bool.eq_false_iff, ne_eq, ClientSession.live_level, not_or]
        exact (hb rfl (c, k) hk rfl).symm
    · refine iff_of_true ?_ (fun he => absurd he hscene)
      apply clientAtRest_kept h rfl
      · intro position' ha
        exact hscene (ClientAction.loadScene.inj ha).1
      · rintro _ ⟨⟩
  | receive p =>
    cases p with
    | playerData d =>
      constructor
      · intro hr hk
        by_contra hnew
        rw [not_or] at hnew
        have hdead := hr d.playerID hk
        have hlive : (ClientSession.act (.receive (.playerData d))
            (s.world.clients c).handler).state.mPlayers.live d.playerID = true := by
          simp only [ClientSession.act, ClientHandler.receive, ClientHandler.handlePlayerData,
            if_neg hnew.1]
          exact PlayerTable.Shown.live (PlayerTable.handlePlayerData_new hnew.2)
        simp [hdead] at hlive
      · intro hb
        refine clientAtRest_kept h rfl (by rintro _ ⟨⟩) ?_
        intro d' heq
        cases heq
        exact hb
    | otherPlayerFinish d =>
      refine iff_of_true ?_ trivial
      intro k hk
      obtain he | hk := List.mem_cons.mp hk
      · obtain ⟨-, rfl⟩ := Prod.mk.inj he
        exact ClientSession.finish_not_live _ d
      · apply Bool.eq_false_iff.mpr
        intro hlive
        obtain hold | ⟨position, ha⟩ | ⟨d', ha, -⟩ := ClientSession.live_act hlive
        · simp [h (c, k) hk] at hold
        · cases ha
        · cases ha
    | registerPlayer | playerCount | gameState | sendResult | offensiveBombData | storePlayerResults =>
      exact iff_of_true (clientAtRest_kept h rfl (by rintro _ ⟨⟩) (by rintro _ ⟨⟩)) trivial
  | statusUpdate | sendPlayerResults | fireOffensiveBomb | sendPlayerData | interpolate | movePlayer
  | destroyPlayer | endOfFrame =>
    exact iff_of_true (clientAtRest_kept h rfl (by rintro _ ⟨⟩) (by rintro _ ⟨⟩)) trivial

theorem staysFinished_iff (hs : s.world.host.handler.server = true) (h : s.AtRest) (a : WorldAction) :
    s.StaysFinished a ↔ s.Buried a := by
  cases a with
  | host a => exact (staysFinished_host h a).trans (hostAtRest_iff hs h a)
  | client c a => exact (staysFinished_client h c a).trans (clientAtRest_iff h.clients c a)
  | loseToServer | loseToClient => exact iff_of_true ⟨h.host, h.clients⟩ trivial

end Steps

theorem start_atRest : start.AtRest :=
  ⟨fun _ h => absurd h List.not_mem_nil, fun _ h => absurd h List.not_mem_nil⟩

theorem finished_stay_finished {as : List WorldAction} (hl : system.Legal start as) :
    system.Meets StaysFinished start as ↔ system.Meets Buried start as := by
  have hstep (s : FinishSession) (a : WorldAction) (hi : HostSession.Roster s.world.host ∧ s.AtRest)
      (he : system.enabled s a) (ha : s.Buried a) :
      HostSession.Roster (system.next s a).world.host ∧ (system.next s a).AtRest :=
    ⟨roster_next hi.1 he, (staysFinished_iff hi.1.server hi.2 a).mpr ha⟩
  have hlaw (s : FinishSession) (a : WorldAction) (hi : HostSession.Roster s.world.host ∧ s.AtRest)
      (_ : system.enabled s a) : s.StaysFinished a ↔ s.Buried a :=
    staysFinished_iff hi.1.server hi.2 a
  exact System.meets_iff hstep hlaw ⟨HostSession.start_roster, start_atRest⟩ hl

/-- The host finishes while a client that knows it is still loading the level. -/
def finishedWhileLoading : List WorldAction :=
  [.host (.statusCallback .connected 1), .client 1 (.statusUpdate .connected 1),
    .client 1 (.receive (.registerPlayer ⟨1, 1⟩)), .client 1 (.loadScene 3 ⟨0, 0, 0⟩),
    .host .startGame, .client 1 (.receive (.gameState ⟨1, .startGame⟩)),
    .host (.levelLoaded ⟨0, 0, 0⟩), .host .sendPlayerData,
    .client 1 (.receive (.playerData ⟨1, 0, ⟨0, 0, 0⟩, 12⟩)),
    .host (.sendPlayerResults ⟨"host", 1, 1, 1, .playerDied⟩),
    .client 1 (.receive (.otherPlayerFinish ⟨1, 0, .playerDied⟩))]

theorem finishedWhileLoading_comesBack :
    system.Legal start (finishedWhileLoading ++ [.client 1 (.loadScene 4 ⟨0, 0, 0⟩)]) ∧
      ¬system.Meets StaysFinished start (finishedWhileLoading ++ [.client 1 (.loadScene 4 ⟨0, 0, 0⟩)]) := by
  refine ⟨by decide +kernel, ?_⟩
  intro h
  have hlast := (system.meets_concat h).clients (1, 0) (by decide +kernel)
  revert hlast
  decide +kernel

def finishedAfterLoading : List WorldAction :=
  [.host (.statusCallback .connected 1), .client 1 (.statusUpdate .connected 1),
    .client 1 (.receive (.registerPlayer ⟨1, 1⟩)), .client 1 (.loadScene 3 ⟨0, 0, 0⟩),
    .host .startGame, .client 1 (.receive (.gameState ⟨1, .startGame⟩)),
    .client 1 (.loadScene 4 ⟨0, 0, 0⟩), .host (.levelLoaded ⟨0, 0, 0⟩), .host .sendPlayerData,
    .client 1 (.receive (.playerData ⟨1, 0, ⟨0, 0, 0⟩, 12⟩)),
    .host (.sendPlayerResults ⟨"host", 1, 1, 1, .playerDied⟩), .host .sendPlayerData,
    .client 1 (.receive (.otherPlayerFinish ⟨1, 0, .playerDied⟩)),
    .client 1 (.receive (.playerData ⟨1, 0, ⟨0, 0, 0⟩, 12⟩))]

theorem finished_stay_finished_afterLoading : system.Meets StaysFinished start finishedAfterLoading :=
  (finished_stay_finished (by decide +kernel)).mpr (by decide +kernel)

end FinishSession

end SeminarTouhou
