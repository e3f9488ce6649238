import SeminarTouhou.Network.EndOfGame

namespace SeminarTouhou

open Library

namespace PlayerTable

def Shown (t : PlayerTable) (k : UInt32) : Prop := t.status k = some (some (.hologram, .alive))

theorem shown_iff {t : PlayerTable} {k : UInt32} : t.Shown k ↔
    ∃ p o, t.lookup k = some p ∧ p.playerOBJ = some o ∧ o.kind = .hologram ∧ o.life = .alive := by
  simp [Shown, status, PlayerGameData.status]

theorem Shown.onObjects {t : PlayerTable} {k : UInt32} (h : t.Shown k) {f : GameObject → GameObject}
    (hf : ∀ o, o.kind = .hologram → o.life = .alive →
      (f o).kind = .hologram ∧ (f o).life = .alive) : (t.onObjects f).Shown k := by
  obtain ⟨p, o, hp, ho, hkind, hlife⟩ := shown_iff.mp h
  obtain ⟨hkind', hlife'⟩ := hf o hkind hlife
  refine shown_iff.mpr ⟨p.onObject f, f o, ?_, ?_, hkind', hlife'⟩
  · simp [PlayerTable.onObjects, hp]
  · simp [PlayerGameData.onObject, ho]

theorem Shown.insert_ne {t : PlayerTable} {j k : UInt32} (h : t.Shown j) (hjk : j ≠ k)
    (p : PlayerGameData) : Shown (t.insert k p) j := (status_insert_ne hjk p).trans h

theorem Shown.handlePlayerData {t : PlayerTable} {k : UInt32} (h : t.Shown k) (d : PlayerData) :
    (t.handlePlayerData d).1.Shown k := by
  by_cases hd : d.playerID ∈ t
  · exact (handlePlayerData_known hd k).trans h
  · have hk : k ≠ d.playerID := by
      rintro rfl
      exact hd (mem_of_status h)
    rw [Shown, status, handlePlayerData_other hk]
    exact h

theorem Shown.events {t : PlayerTable} {k : UInt32} (h : t.Shown k) {p : PlayerGameData}
    (hp : t.lookup k = some p) (context : ResultContext) :
    ∃ events, finishEvents context p.playerOBJ = .ok events := by
  obtain ⟨q, o, hq, ho, -, hlife⟩ := shown_iff.mp h
  obtain rfl : p = q := Option.some.inj (hp.symm.trans hq)
  exact finishEvents_alive context ho hlife

end PlayerTable

namespace HostSession

open ServerHandler PlayerTable

/-- In the level every participant without a result has its hologram. -/
def Shows (h : HostSession) : Prop := h.handler.mGameState = .gameStarted →
  ∀ c ∈ h.participants, c ∉ h.handler.mPlayerResults → h.handler.mPlayers.Shown c

theorem start_shows : Shows start := fun hg => nomatch hg

section Steps

variable {h : HostSession}

theorem Shows.inert {a : HostAction} (hs : Shows h) (ha : Inert a) (he : h.Enabled a) :
    Shows (h.next a) := by
  obtain ⟨hsame, hp, -⟩ := same_inert (h := h) ha
  intro hg c hc hr
  rw [hsame.state] at hg
  rw [hp] at hc
  rw [hsame.results] at hr
  have hcs := hs hg c hc hr
  cases a with
  | statusCallback | startGame | levelLoaded | sendPlayerResults | receive | endCheck => exact ha.elim
  | fireOffensiveBomb | sendPlayerData | broadcastPlayerCount => exact hcs
  | broadcastResults =>
    rw [Enabled, hg] at he
    nomatch he
  | interpolate deltaTime => exact (interpolateKeys_status _ _ _ c).trans hcs
  | movePlayer position =>
    apply hcs.onObjects
    intro o hkind hlife
    simp [hkind, hlife]
  | destroyPlayer =>
    apply hcs.onObjects
    intro o hkind hlife
    simp [hkind, hlife]
  | unloadScene =>
    rw [Enabled, hg] at he
    nomatch he
  | endOfFrame =>
    apply hcs.onObjects
    intro o hkind hlife
    exact ⟨hkind, GameObject.endOfFrame_alive hlife⟩

theorem shows_joining (hr : Roster h) (hs : Shows h) (c : Connection) :
    Shows (h.next (.statusCallback .connected c)) := by
  by_cases hk : c ∈ h.handler.mPlayers
  · intro hg
    simp only [next_handler, joining_again hk] at hg ⊢
    exact hs hg
  · intro hg d hd hnr
    simp only [next_handler, joining_new hk] at hg hnr ⊢
    have hdc : d ≠ c := by
      rintro rfl
      exact hk (hr.known d (hr.live d hd))
    exact (hs hg d hd hnr).insert_ne hdc _

theorem shows_closing (hs : Shows h) {c : Connection} {h' : HostSession}
    (hc : h'.handler = closing c h.handler)
    (hp : h'.participants = h.participants.filter (fun d => d ≠ c)) : Shows h' := by
  intro hg d hd hnr
  rw [hp, List.mem_filter, decide_eq_true_eq] at hd
  rcases closing_cases c h.handler with ⟨-, he⟩ | ⟨p, -, he⟩
  · rw [hc, he] at hg hnr ⊢
    exact hs hg d hd.1 hnr
  · rw [hc, he] at hg hnr ⊢
    have hds := hs hg d hd.1 hnr
    dsimp only at hg ⊢
    rw [if_pos hg]
    exact hds.insert_ne hd.2 _

theorem shows_levelLoaded (hr : Roster h) (position : Vector3) :
    Shows (h.next (.levelLoaded position)) := by
  obtain ⟨t, hs, -, -, hshown⟩ :=
    handleRegisterPlayer_state h.handler hr.server ⟨.player, position, .alive⟩
  intro _ c hc _
  have hcl := hr.live c hc
  simp only [next_handler, act, hs]
  refine hshown c (hr.known c hcl) ?_
  rintro rfl
  exact hr.nonzero hcl

theorem results_receive {p : Packet} {s : ServerHandler} {k : UInt32}
    (hk : k ∉ (s.receive p).state.mPlayerResults) : k ∉ s.mPlayerResults := by
  rcases receive_state p s with hs | ⟨d, -, hs⟩ | ⟨d, -, -, hs | ⟨q, -, hs, -⟩⟩
  · rwa [hs] at hk
  · rwa [hs] at hk
  · rw [hs] at hk
    exact fun hr => hk ((AList.mem_insert _).mpr (Or.inr hr))
  · rw [hs, handleGameEndCheck_results] at hk
    exact fun hr => hk ((AList.mem_insert _).mpr (Or.inr hr))

theorem shown_receive {p : Packet} {s : ServerHandler} {k : UInt32} (hk : s.mPlayers.Shown k)
    (hr : k ∉ (s.receive p).state.mPlayerResults) : (s.receive p).state.mPlayers.Shown k := by
  rcases receive_state p s with hs | ⟨d, -, hs⟩ | ⟨d, -, -, hs | ⟨q, -, hs, -⟩⟩
  · rwa [hs]
  · rw [hs]
    exact hk.handlePlayerData d
  · rwa [hs]
  · rw [hs, handleGameEndCheck_results] at hr
    have hkd : k ≠ d.playerID := fun he => hr ((AList.mem_insert _).mpr (Or.inl he))
    rw [hs, handleGameEndCheck_players]
    exact hk.insert_ne hkd _

theorem shows_receive (hs : Shows h) (hg : h.handler.mGameState = .gameStarted) (c : Connection)
    (p : Packet) : Shows (h.next (.receive c p)) := by
  intro _ d hd hr
  exact shown_receive (hs hg d hd (results_receive hr)) hr

theorem shows_sendPlayerResults (hs : Shows h) (r : PlayerStoredResultData) :
    Shows (h.next (.sendPlayerResults r)) := by
  intro hg c hc hr
  simp only [next_handler, act, handleSendPlayerResults] at hg hr ⊢
  split_ifs at hg hr ⊢
  · exact hs hg c hc hr
  · simp only [Outcome.sends_state, handleGameEndCheck_state, handleGameEndCheck_results,
      handleGameEndCheck_players, AList.mem_insert, not_or] at hg hr ⊢
    exact hs hg c hc hr.2

end Steps

theorem keeps_shows {h : HostSession} {a : HostAction} (hr : Roster h) (hs : Shows h)
    (he : h.Enabled a) : Shows (h.next a) := by
  cases a with
  | statusCallback state c =>
    cases state with
    | connected => exact shows_joining hr hs c
    | closedByPeer | problemDetectedLocally => exact shows_closing hs rfl rfl
  | startGame =>
    have hl : h.handler.mGameState = .searchingForPlayers := he
    intro hg
    have hcontra := hl.symm.trans hg
    simp at hcontra
  | levelLoaded position => exact shows_levelLoaded hr position
  | sendPlayerResults r => exact shows_sendPlayerResults hs r
  | receive c p => exact shows_receive hs he c p
  | endCheck b =>
    cases b with
    | true => exact fun hg => nomatch hg
    | false => exact hs
  | fireOffensiveBomb | sendPlayerData | broadcastPlayerCount | broadcastResults | interpolate
  | movePlayer | destroyPlayer | unloadScene | endOfFrame => exact hs.inert trivial he

end HostSession

end SeminarTouhou
