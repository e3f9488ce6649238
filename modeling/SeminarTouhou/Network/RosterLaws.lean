import SeminarTouhou.Library.Channel
import SeminarTouhou.Network.Connections
import SeminarTouhou.Network.Tombstones

namespace SeminarTouhou

open Library

namespace HostSession

open ServerHandler PlayerTable

/-- What the host tells a client about the players: positions of entries of its table, finishes that
the same call stored, bombs; everything else is about no player. -/
inductive Tells (a : HostAction) (s : ServerHandler) (c : Connection) : Packet → Prop
  | position (d : PlayerData) (ha : a = .sendPlayerData) (hk : d.playerID ∈ s.mPlayers)
    (hc : c ∈ s.connectedClients) (hne : d.playerID ≠ c) : Tells a s c (.playerData d)
  | finish (d : OtherClientFinishState) (hk : d.playerID ∉ s.mPlayerResults)
    (hk' : d.playerID ∈ (act a s).state.mPlayerResults) (hc : c ∈ s.connectedClients)
    (hne : d.playerID ≠ c) : Tells a s c (.otherPlayerFinish d)
  | bomb (d : OffensiveBombData) (ha : (∃ pos, a = .fireOffensiveBomb pos) ∨
      ∃ b d, a = .receive b (.offensiveBombData d)) (hc : c ∈ s.connectedClients)
    (hne : d.playerID ≠ c) : Tells a s c (.offensiveBombData d)
  | other (p : Packet) (hp : p.about = none)
    (hc : a = .statusCallback .connected c ∨ c ∈ s.connectedClients) : Tells a s c p

theorem tells_broadcast {a : HostAction} {s : ServerHandler} {p : Packet} {e : Connection × Packet}
    (hp : p.about = none) (h : e ∈ s.broadcast p) : Tells a s e.1 e.2 := by
  obtain ⟨hc, he⟩ := mem_broadcast.mp h
  rw [he]
  exact .other p hp (Or.inr hc)

theorem tells_finish {a : HostAction} {s t : ServerHandler} {k : UInt32} {r : ResultContext}
    {e : Connection × Packet} (ht : t.connectedClients = s.connectedClients)
    (hk : k ∉ s.mPlayerResults) (hk' : k ∈ (act a s).state.mPlayerResults)
    (h : e ∈ t.sendPlayerFinishToAllOtherClients k r) : Tells a s e.1 e.2 := by
  unfold sendPlayerFinishToAllOtherClients at h
  split_ifs at h
  · obtain ⟨hc, hne, he⟩ := mem_broadcastExcept.mp h
    rw [he]
    exact .finish _ hk hk' (ht ▸ hc) hne.symm
  · exact absurd h List.not_mem_nil

theorem tells_bomb {a : HostAction} (ha : (∃ pos, a = .fireOffensiveBomb pos) ∨
      ∃ b d, a = .receive b (.offensiveBombData d)) {s : ServerHandler} {k : UInt32} {pos : Vector2}
    {e : Connection × Packet} (h : e ∈ s.sendBombDataToAllOtherClients pos k) :
    Tells a s e.1 e.2 := by
  unfold sendBombDataToAllOtherClients at h
  split_ifs at h
  · obtain ⟨hc, hne, he⟩ := mem_broadcastExcept.mp h
    rw [he]
    exact .bomb _ ha hc hne.symm
  · exact absurd h List.not_mem_nil

theorem tells_receive {c : Connection} {p : Packet} {s : ServerHandler} {e : Connection × Packet}
    (h : e ∈ (act (.receive c p) s).sent) : Tells (.receive c p) s e.1 e.2 := by
  cases p with
  | storePlayerResults d =>
    obtain ⟨-, hs⟩ | ⟨hr, ⟨x, hs, -⟩ | ⟨q, events, -, -, hs⟩⟩ := handleReceivePlayerResult_cases d s
    · rw [act, receive, hs] at h
      exact absurd h List.not_mem_nil
    · rw [act, receive, hs] at h
      exact absurd h List.not_mem_nil
    · rw [act, receive, hs] at h
      exact tells_finish rfl hr (results_read c d s) h
  | offensiveBombData d =>
    simp only [act, receive, handleOffensiveBombData] at h
    split at h
    · exact absurd h List.not_mem_nil
    · split at h
      · exact absurd h List.not_mem_nil
      · split at h
        · exact absurd h List.not_mem_nil
        · exact tells_bomb (Or.inr ⟨c, d, rfl⟩) h
  | playerData | registerPlayer | playerCount | gameState | sendResult | otherPlayerFinish =>
    exact absurd h List.not_mem_nil

theorem tells_sendPlayerData {s : ServerHandler} {e : Connection × Packet}
    (h : e ∈ (act .sendPlayerData s).sent) : Tells .sendPlayerData s e.1 e.2 := by
  simp only [act, ServerHandler.sendPlayerData, Outcome.sends_sent] at h
  split_ifs at h
  · obtain ⟨⟨k, q⟩, hk, hq⟩ := List.mem_flatMap.mp h
    split at hq
    · exact absurd hq List.not_mem_nil
    · split_ifs at hq
      · obtain ⟨hc, hne, he⟩ := mem_broadcastExcept.mp hq
        rw [he]
        refine .position _ rfl ?_ hc hne.symm
        exact AList.mem_keys.mpr (List.mem_map_of_mem hk)
      · exact absurd hq List.not_mem_nil
  · exact absurd h List.not_mem_nil

theorem tells_act {a : HostAction} {s : ServerHandler} {e : Connection × Packet}
    (h : e ∈ (act a s).sent) : Tells a s e.1 e.2 := by
  cases a with
  | statusCallback state c =>
    cases state with
    | connected =>
      simp only [act, serverStatusCallback, handlePlayerJoining] at h
      split_ifs at h
      · exact absurd h List.not_mem_nil
      · obtain rfl := List.mem_singleton.mp h
        exact .other _ rfl (Or.inl rfl)
    | closedByPeer | problemDetectedLocally =>
      simp only [act, serverStatusCallback, handlePlayerLeaving] at h
      split at h <;> exact absurd h List.not_mem_nil
  | startGame => exact tells_broadcast rfl h
  | levelLoaded position =>
    simp only [act, handleRegisterPlayer] at h
    split_ifs at h <;> exact absurd h List.not_mem_nil
  | sendPlayerResults r =>
    by_cases hr : serverPlayerID ∈ s.mPlayerResults
    · simp only [act, handleSendPlayerResults, if_pos hr] at h
      exact absurd h List.not_mem_nil
    · simp only [act, handleSendPlayerResults, if_neg hr] at h
      refine tells_finish rfl hr ?_ h
      simp [act, handleSendPlayerResults, hr]
  | fireOffensiveBomb pos => exact tells_bomb (Or.inl ⟨pos, rfl⟩) h
  | receive c p => exact tells_receive h
  | endCheck b =>
    cases b with
    | false => exact absurd h List.not_mem_nil
    | true =>
      simp only [act, coDelayEndGameCheck, handleGameFinish, if_true] at h
      split_ifs at h
      · exact tells_broadcast rfl h
      · exact absurd h List.not_mem_nil
  | sendPlayerData => exact tells_sendPlayerData h
  | broadcastPlayerCount =>
    simp only [act, ServerHandler.broadcastPlayerCount, Outcome.sends_sent] at h
    split_ifs at h
    · exact tells_broadcast rfl h
    · exact absurd h List.not_mem_nil
  | broadcastResults =>
    simp only [act, ServerHandler.broadcastResults] at h
    split_ifs at h
    · obtain ⟨d, -, hd⟩ := List.mem_flatMap.mp h
      exact tells_broadcast rfl hd
    · exact absurd h List.not_mem_nil
  | interpolate | movePlayer | destroyPlayer | unloadScene | endOfFrame =>
    exact absurd h List.not_mem_nil

theorem finish_told {a : HostAction} {s : ServerHandler} (hs : s.server = true) {k : UInt32}
    (hk : k ∉ s.mPlayerResults) (hk' : k ∈ (act a s).state.mPlayerResults)
    (hshown : ∀ b d, a = .receive b (.storePlayerResults d) → d.playerID ∉ s.mPlayerResults →
      s.mPlayers.Shown d.playerID)
    {c : Connection} (hc : c ∈ s.connectedClients) (hne : c ≠ k) :
    ∃ d, d.playerID = k ∧ (c, .otherPlayerFinish d) ∈ (act a s).sent := by
  obtain hr | ⟨r, rfl, hr, hins⟩ | ⟨b, d, rfl, hr, hins⟩ := results_act a s
  · rw [hr] at hk'
    exact absurd hk' hk
  · rw [hins] at hk'
    obtain rfl : k = serverPlayerID := ((AList.mem_insert _).mp hk').resolve_right hk
    refine ⟨⟨roomID, serverPlayerID, r.resultContext⟩, rfl, ?_⟩
    simp only [act, handleSendPlayerResults, if_neg hr, Outcome.sends_sent,
      sendPlayerFinishToAllOtherClients, hs, if_true]
    exact mem_broadcastExcept.mpr ⟨hc, hne, rfl⟩
  · rw [hins] at hk'
    obtain rfl : k = d.playerID := ((AList.mem_insert _).mp hk').resolve_right hk
    have hlive := hshown b d rfl hr
    obtain ⟨h, -⟩ | ⟨-, ⟨e, -, hfail⟩ | ⟨q, events, -, -, hok⟩⟩ := handleReceivePlayerResult_cases d s
    · exact absurd h hr
    · obtain hnone | ⟨q, hq, he⟩ := hfail
      · exact absurd (mem_of_status hlive) hnone
      · obtain ⟨events, hev⟩ := hlive.events hq d.resultContext
        rw [he] at hev
        cases hev
    · refine ⟨⟨roomID, d.playerID, d.resultContext⟩, rfl, ?_⟩
      rw [act, receive, hok]
      simp only [sendPlayerFinishToAllOtherClients, hs, if_true]
      exact mem_broadcastExcept.mpr ⟨hc, hne, rfl⟩

theorem phase_act (a : HostAction) (s : ServerHandler) :
    (act a s).state.mGameState = s.mGameState ∨
    (∃ position, a = .levelLoaded position) ∧ (act a s).state.mGameState = .gameStarted ∨
    a = .endCheck true ∧ (act a s).state.mGameState = .resultsScreen := by
  by_cases ha : Inert a
  · exact Or.inl (act_inert ha s).1.state
  cases a with
  | levelLoaded position =>
    refine Or.inr (Or.inl ⟨⟨position, rfl⟩, ?_⟩)
    simp only [act, handleRegisterPlayer]
    split_ifs <;> rfl
  | endCheck b =>
    cases b with
    | false => exact Or.inl rfl
    | true => exact Or.inr (Or.inr ⟨rfl, rfl⟩)
  | statusCallback state c =>
    left
    cases state with
    | connected =>
      simp only [act, serverStatusCallback, handlePlayerJoining]
      split_ifs <;> rfl
    | closedByPeer | problemDetectedLocally =>
      simp only [act, serverStatusCallback, handlePlayerLeaving]
      split <;> rfl
  | startGame => exact Or.inl rfl
  | sendPlayerResults r =>
    left
    simp only [act, handleSendPlayerResults]
    split_ifs
    · rfl
    · exact handleGameEndCheck_state _
  | receive c p =>
    left
    simp only [act]
    obtain he | ⟨d, -, he⟩ | ⟨d, -, -, he | ⟨q, -, he, -⟩⟩ := receive_state p s
    all_goals simp [he, withResult]
  | fireOffensiveBomb | sendPlayerData | broadcastPlayerCount | broadcastResults | interpolate
  | movePlayer | destroyPlayer | unloadScene | endOfFrame => exact absurd trivial ha

theorem clients_kept {a : HostAction} {s : ServerHandler} {c : Connection}
    (hc : c ∈ s.connectedClients) : c ∈ (act a s).state.connectedClients ∨
      a = .statusCallback .closedByPeer c ∨ a = .statusCallback .problemDetectedLocally c := by
  have closing_kept {d : Connection} (hd : c ≠ d) : c ∈ (closing d s).connectedClients := by
    obtain ⟨-, he⟩ | ⟨p, -, he⟩ := closing_cases d s
    · rwa [he]
    · rw [he]
      exact (List.mem_erase_of_ne hd).mpr hc
  by_cases ha : ∀ state d, a ≠ .statusCallback state d
  · rw [clients_act ha]
    exact Or.inl hc
  · push Not at ha
    obtain ⟨state, d, rfl⟩ := ha
    by_cases hd : c = d
    · subst hd
      cases state with
      | closedByPeer => exact Or.inr (Or.inl rfl)
      | problemDetectedLocally => exact Or.inr (Or.inr rfl)
      | connected =>
        left
        simp only [act, serverStatusCallback, handlePlayerJoining]
        split_ifs
        · exact hc
        · exact List.mem_append_left _ hc
    · left
      cases state with
      | closedByPeer | problemDetectedLocally => exact closing_kept hd
      | connected =>
        simp only [act, serverStatusCallback, handlePlayerJoining]
        split_ifs
        · exact hc
        · exact List.mem_append_left _ hc

def broadcastKeys (s : ServerHandler) : List UInt32 := s.mPlayers.keys.filter (fun k => s.mPlayers.live k)

theorem position_told {s : ServerHandler} (hs : s.server = true) {k : UInt32}
    (hk : k ∈ broadcastKeys s) {c : Connection} (hc : c ∈ s.connectedClients) (hne : c ≠ k) :
    ∃ d, d.playerID = k ∧ (c, .playerData d) ∈ (act .sendPlayerData s).sent := by
  have hlive := (List.mem_filter.mp hk).2
  unfold PlayerTable.live at hlive
  cases hp : s.mPlayers.lookup k with
  | none => simp [hp] at hlive
  | some p =>
    cases ho : p.playerOBJ with
    | none => simp [hp, ho] at hlive
    | some o =>
      have hu : o.usable = true := by simpa [hp, ho] using hlive
      refine ⟨⟨roomID, k, o.position, 12⟩, rfl, ?_⟩
      simp only [act, ServerHandler.sendPlayerData, hs, if_true, Outcome.sends_sent]
      refine List.mem_flatMap.mpr ⟨⟨k, p⟩, AList.mem_lookup_iff.mp hp, ?_⟩
      simp only [ho, hu, if_true]
      exact mem_broadcastExcept.mpr ⟨hc, hne, rfl⟩

end HostSession

end SeminarTouhou
