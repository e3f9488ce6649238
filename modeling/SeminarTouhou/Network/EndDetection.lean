import SeminarTouhou.Network.Holograms

namespace SeminarTouhou

open Library

namespace HostSession

open ServerHandler PlayerTable

/-- Every participant, the host among them, has its result in the table or has left. -/
def AllIn (h : HostSession) : Prop :=
  serverPlayerID ∈ h.handler.mPlayerResults ∧ ∀ c ∈ h.participants, c ∈ h.handler.mPlayerResults

instance (h : HostSession) : Decidable h.AllIn :=
  have := List.decidableBAll (fun c => c ∈ h.handler.mPlayerResults) h.participants
  inferInstanceAs (Decidable (_ ∧ ∀ c ∈ h.participants, c ∈ h.handler.mPlayerResults))

/-- Until all results are in, nobody joins after `START` was broadcast, and a client that leaves the
level has handed in its result. -/
def Tracked (h : HostSession) : HostAction → Prop
  | .statusCallback .connected c =>
    h.handler.mGameState = .gameStarted → c ∉ h.handler.mPlayers → h.AllIn
  | .statusCallback .closedByPeer c => h.handler.mGameState = .gameStarted →
    c ∈ h.handler.mPlayers → c ∈ h.handler.mPlayerResults ∨ h.AllIn
  | .statusCallback .problemDetectedLocally c => h.handler.mGameState = .gameStarted →
    c ∈ h.handler.mPlayers → c ∈ h.handler.mPlayerResults ∨ h.AllIn
  | .levelLoaded _ => h.handler.mGameState = .searchingForPlayers →
    ∀ c ∈ h.handler.connectedClients, c ∈ h.participants
  | _ => True

instance (h : HostSession) (a : HostAction) : Decidable (h.Tracked a) := by
  have := List.decidableBAll (fun c => c ∈ h.participants) h.handler.connectedClients
  rcases a with ⟨_ | _, _⟩ | _ <;> dsimp only [Tracked] <;> infer_instance

structure Detection (h : HostSession) : Prop where
  tracked : h.decided = 0 → ∀ k ∈ h.handler.mPlayers,
    k = serverPlayerID ∨ k ∈ h.participants ∨ k ∈ h.handler.mPlayerResults
  complete : (∀ k ∈ h.handler.mPlayers, k ∈ h.handler.mPlayerResults) → h.decided ≠ 0

def Detects (h : HostSession) : Prop := h.handler.mGameState = .gameStarted → Detection h

theorem Detection.decided_of_allIn {h : HostSession} (hd : Detection h) (ha : h.AllIn) :
    h.decided ≠ 0 := by
  intro ho
  apply hd.complete _ ho
  intro k hk
  rcases hd.tracked ho k hk with rfl | hp | hr
  · exact ha.1
  · exact ha.2 k hp
  · exact hr

theorem Detection.same {h h' : HostSession} (hd : Detection h)
    (hs : SameRoster h.handler h'.handler) (hp : h'.participants = h.participants)
    (hdec : h'.decided = h.decided) : Detection h' := by
  constructor
  · rw [hdec, hp, hs.results]
    intro ho k hk
    exact hd.tracked ho k ((hs.players k).mp hk)
  · rw [hdec, hs.results]
    intro hall
    exact hd.complete (fun k hk => hall k ((hs.players k).mpr hk))

theorem Detects.same {h h' : HostSession} (hd : Detects h) (hs : SameRoster h.handler h'.handler)
    (hp : h'.participants = h.participants) (hdec : h'.decided = h.decided) : Detects h' := by
  intro hg
  rw [hs.state] at hg
  exact (hd hg).same hs hp hdec

theorem Detects.inert {h : HostSession} {a : HostAction} (hd : Detects h) (ha : Inert a) :
    Detects (h.next a) := by
  obtain ⟨hs, hp, hdec⟩ := same_inert (h := h) ha
  exact hd.same hs hp hdec

section Steps

variable {h : HostSession}

theorem detects_joining (hd : Detects h) {c : Connection}
    (ht : Tracked h (.statusCallback .connected c)) :
    Detects (h.next (.statusCallback .connected c)) := by
  have hdec : (h.next (.statusCallback .connected c)).decided = h.decided :=
    decided_next (handlePlayerJoining_checks c _) (handlePlayerJoining_raised c _)
  by_cases hk : c ∈ h.handler.mPlayers
  · exact hd.same (joining_known hk) rfl hdec
  · have hs := joining_new hk
    intro hg
    rw [next_handler, hs] at hg
    -- all results are in, so the game is over already
    have hover := (hd hg).decided_of_allIn (ht hg hk)
    constructor <;> simp only [next_handler, next_participants, participantsAfter, hs, hdec]
    · exact fun ho => absurd ho hover
    · exact fun _ => hover

theorem detects_closing (hd : Detects h) {c : Connection} {h' : HostSession}
    (ht : h.handler.mGameState = .gameStarted → c ∈ h.handler.mPlayers →
      c ∈ h.handler.mPlayerResults ∨ h.AllIn) (hs : h'.handler = closing c h.handler)
    (hp : h'.participants = h.participants.filter (fun d => d ≠ c))
    (hdec : h'.decided = h.decided) : Detects h' := by
  have hpart : ∀ d, d ∈ h'.participants ↔ d ∈ h.participants ∧ d ≠ c := by
    intro d
    rw [hp, List.mem_filter, decide_eq_true_eq]
  intro hg
  rcases closing_cases c h.handler with ⟨hk, he⟩ | ⟨p, hk, he⟩
  · rw [he] at hs
    rw [hs] at hg
    have hdet := hd hg
    constructor <;> simp only [hs, hdec, hpart]
    · intro ho k hkm
      have hkc : k ≠ c := by
        rintro rfl
        exact hk hkm
      rcases hdet.tracked ho k hkm with h0 | hkp | hkr
      exacts [Or.inl h0, Or.inr (Or.inl ⟨hkp, hkc⟩), Or.inr (Or.inr hkr)]
    · exact hdet.complete
  · rw [he] at hs
    have hg' : h.handler.mGameState = .gameStarted := by rwa [hs] at hg
    have hdet := hd hg'
    have hkm := Dict.mem_of_lookup hk
    have hmem : ∀ k, k ∈ h.handler.mPlayers.insert c (p.onObject .destroy) ↔
        k ∈ h.handler.mPlayers := by
      intro k
      rw [AList.mem_insert]
      exact or_iff_right_of_imp (fun hkc => hkc ▸ hkm)
    constructor <;> simp only [hs, hdec, hpart, if_pos hg', hmem]
    · intro ho k hkp
      rcases hdet.tracked ho k hkp with h0 | hkp | hkr
      · exact Or.inl h0
      · by_cases hkc : k = c
        · subst hkc
          rcases ht hg' hkm with hkr | hall
          · exact Or.inr (Or.inr hkr)
          · exact absurd ho (hdet.decided_of_allIn hall)
        · exact Or.inr (Or.inl ⟨hkp, hkc⟩)
      · exact Or.inr (Or.inr hkr)
    · exact hdet.complete

theorem detects_levelLoaded (hr : Roster h) (hi : Decision h) (hd : Detects h) {position : Vector3}
    (ht : Tracked h (.levelLoaded position))
    (hphase : h.handler.mGameState ∈
      [GameState.searchingForPlayers, .gameStarted, .resultsScreen]) :
    Detects (h.next (.levelLoaded position)) := by
  obtain ⟨t, hs, hra, hmem, -⟩ :=
    handleRegisterPlayer_state h.handler hr.server ⟨.player, position, .alive⟩
  have hdec : (h.next (.levelLoaded position)).decided = h.decided :=
    decided_next (by simp only [act, hs]) (by simp [act, hra])
  intro _
  constructor <;> simp only [next_handler, next_participants, participantsAfter, act, hs, hdec, hmem]
  · intro ho k hk
    simp only [List.mem_cons, List.not_mem_nil, or_false] at hphase
    rcases hk with h0 | hk
    · exact Or.inl h0
    · rcases hphase with hl | hg | hres
      · exact Or.inr (Or.inl (ht hl k ((hr.lobby hl).2.1 k hk)))
      · exact (hd hg).tracked ho k hk
      · exact absurd ho (hi.finished hres)
  · intro hall
    have h0 := hall serverPlayerID (Or.inl rfl)
    simp only [List.mem_cons, List.not_mem_nil, or_false] at hphase
    rcases hphase with hl | hg | hres
    · exact absurd h0 ((hr.lobby hl).1 _)
    · exact (hd hg).complete (fun k hk => hall k (Or.inr hk))
    · exact hi.finished hres

theorem Detection.checked {t : ServerHandler} {k : UInt32} (hst : Stored h.handler t k)
    (hr : Roster h) (hi : Decision h) (hd : Detection h)
    (hlive : k = serverPlayerID ∨ k ∈ h.participants) {h' : HostSession}
    (hs : h'.handler = t.handleGameEndCheck) (hp : h'.participants = h.participants)
    (hl : h'.log.count (.sceneTransition 5) = h.log.count (.sceneTransition 5)) : Detection h' := by
  have ho := hst.undecided hi hlive
  have hdec := decided_checked (h := h) (hst.done.trans hr.done) hs hst.checks hl
  rw [ho, Nat.zero_add] at hdec
  constructor <;> simp only [hs, hp, hdec, handleGameEndCheck_players, handleGameEndCheck_results]
  · intro _ j hj
    rcases hd.tracked ho j ((hst.players j).mp hj) with h0 | hjp | hjr
    exacts [Or.inl h0, Or.inr (Or.inl hjp), Or.inr (Or.inr ((hst.results j).mpr (Or.inr hjr)))]
  · intro hall
    rw [if_pos ((checkIfGameFinished_iff (hst.subset hi ho)).mpr hall)]
    exact Nat.one_ne_zero

theorem detects_sendPlayerResults (hr : Roster h) (hi : Decision h) (hd : Detects h)
    (r : PlayerStoredResultData) (hne : h.handler.mGameState ≠ .searchingForPlayers) :
    Detects (h.next (.sendPlayerResults r)) := by
  have hl := log_handsIn (h := h) (sendPlayerResults_noTransition r h.handler)
  cases handsIn_sendPlayerResults hr r hne with
  | same hs => exact hd.same hs rfl (by rw [decided, decided, hs.checks, hl])
  | failed hst =>
    -- the host's own result is stored by a call that goes on to the check
    have hs : (h.next (.sendPlayerResults r)).handler =
        (h.handler.withResult serverPlayerID r).handleGameEndCheck := by
      simp [act, handleSendPlayerResults, hst.fresh, withResult]
    intro hg
    rw [hs, handleGameEndCheck_state] at hg
    exact (hd hg).checked (stored_withResult r hst.key hst.fresh) hr hi (Or.inl rfl) hs rfl hl
  | checked t hst hs =>
    intro hg
    rw [hs, handleGameEndCheck_state, hst.state] at hg
    exact (hd hg).checked hst hr hi (Or.inl rfl) hs rfl hl

theorem handsIn_shown (hr : Roster h) (hs : Shows h) (hg : h.handler.mGameState = .gameStarted)
    {c : Connection} {p : Packet} (ho : Honest h (.receive c p)) :
    SameRoster h.handler (h.next (.receive c p)).handler ∨
      ∃ t, Stored h.handler t c ∧ (h.next (.receive c p)).handler = t.handleGameEndCheck := by
  cases handsIn_receive hr ho with
  | same hsame => exact Or.inl hsame
  | checked t hst hsame => exact Or.inr ⟨t, hst, hsame⟩
  | failed hst =>
    exfalso
    have hmem := (hst.results c).mpr (Or.inl rfl)
    rcases receive_state p h.handler with he | ⟨d, -, he⟩ | ⟨d, rfl, hf, he⟩
    · exact hst.fresh (he ▸ hmem)
    · simp only [next_handler, act, he] at hmem
      exact hst.fresh hmem
    · obtain rfl : d.playerID = c := by simpa [Packet.claimedID] using ho.2
      have hshown := hs hg _ ho.1 hf
      rcases handleReceivePlayerResult_cases d h.handler with
        ⟨hstored, -⟩ | ⟨-, ⟨e, -, hfail⟩ | ⟨q, events, hq, -, hok⟩⟩
      · exact hf hstored
      · rcases hfail with hmissing | ⟨q, hq, hev⟩
        · exact hmissing hst.key
        · obtain ⟨events, hok⟩ := hshown.events hq d.resultContext
          rw [hok] at hev
          cases hev
      · have hchecks := hst.checks
        have hdone : h.handler.mGameDone = false := hr.done
        simp [act, receive, hok, handleGameEndCheck, withResult, hdone] at hchecks

theorem detects_receive (hr : Roster h) (hi : Decision h) (hs : Shows h) (hd : Detects h)
    (hg : h.handler.mGameState = .gameStarted) {c : Connection} {p : Packet}
    (ho : Honest h (.receive c p)) : Detects (h.next (.receive c p)) := by
  have hl := log_handsIn (h := h) (receive_noTransition c p h.handler)
  rcases handsIn_shown hr hs hg ho with hsame | ⟨t, hst, hsame⟩
  · exact hd.same hsame rfl (by rw [decided, decided, hsame.checks, hl])
  · exact fun _ => (hd hg).checked hst hr hi (Or.inr ho.1) hsame rfl hl

end Steps

def phases : List GameState := [.searchingForPlayers, .gameStarted, .resultsScreen]

attribute [local simp] withResult in
theorem act_phase (a : HostAction) {s : ServerHandler} (hs : s.mGameState ∈ phases) :
    (act a s).state.mGameState ∈ phases := by
  by_cases ha : Inert a
  · rw [(act_inert ha s).1.state]
    exact hs
  cases a with
  | statusCallback state c =>
    cases state with
    | connected =>
      simp only [act, serverStatusCallback, handlePlayerJoining]
      split_ifs <;> exact hs
    | closedByPeer | problemDetectedLocally =>
      change (closing c s).mGameState ∈ phases
      rcases closing_cases c s with ⟨-, he⟩ | ⟨p, -, he⟩
      · rwa [he]
      · rwa [he]
  | startGame => exact hs
  | levelLoaded position =>
    simp only [act, handleRegisterPlayer]
    split_ifs <;> simp [phases]
  | sendPlayerResults r =>
    simp only [act, handleSendPlayerResults]
    split_ifs
    · exact hs
    · simpa using hs
  | receive c p =>
    rcases receive_state p s with he | ⟨d, -, he⟩ | ⟨d, -, -, he | ⟨q, -, he, -⟩⟩
    all_goals simpa [act, he] using hs
  | endCheck b =>
    simp only [act, coDelayEndGameCheck]
    split_ifs
    · simp [handleGameFinish, phases]
    · exact hs
  | fireOffensiveBomb | sendPlayerData | broadcastPlayerCount | broadcastResults | interpolate
  | movePlayer | destroyPlayer | unloadScene | endOfFrame => exact absurd trivial ha

theorem keeps_detects {h : HostSession} {a : HostAction} (hr : Roster h) (hi : Decision h)
    (hs : Shows h) (hd : Detects h) (hphase : h.handler.mGameState ∈ phases) (he : h.Enabled a)
    (ho : Honest h a) (ht : Tracked h a) : Detects (h.next a) := by
  cases a with
  | statusCallback state c =>
    cases state with
    | connected => exact detects_joining hd ht
    | closedByPeer | problemDetectedLocally =>
      exact detects_closing hd ht rfl rfl (decided_next (handlePlayerLeaving_checks _ _ _)
        (handlePlayerLeaving_raised _ _ _))
  | startGame =>
    have hl : h.handler.mGameState = .searchingForPlayers := he
    intro hg
    have hcontra := hl.symm.trans hg
    simp at hcontra
  | levelLoaded position => exact detects_levelLoaded hr hi hd ht hphase
  | sendPlayerResults r => exact detects_sendPlayerResults hr hi hd r (phase_of_mem he)
  | receive c p => exact detects_receive hr hi hs hd he ho
  | endCheck b =>
    have hdec := decided_endCheck he
    intro hg
    cases b with
    | true => nomatch hg
    | false =>
      have hdet := hd hg
      constructor
      · rw [hdec]
        exact hdet.tracked
      · rw [hdec]
        exact hdet.complete
  | fireOffensiveBomb | sendPlayerData | broadcastPlayerCount | broadcastResults | interpolate
  | movePlayer | destroyPlayer | unloadScene | endOfFrame => exact hd.inert trivial

theorem decided_ne_zero {h : HostSession} :
    h.decided ≠ 0 ↔ true ∈ h.handler.endChecks ∨ .sceneTransition 5 ∈ h.log := by
  unfold decided
  rw [← List.count_pos_iff, ← List.count_pos_iff]
  omega

theorem end_detected {as : List HostAction} (hl : system.Legal start as)
    (ho : system.Meets Honest start as) (ht : system.Meets Tracked start as)
    (hg : (system.run start as).handler.mGameState = .gameStarted)
    (ha : (system.run start as).AllIn) :
    true ∈ (system.run start as).handler.endChecks ∨
      .sceneTransition 5 ∈ (system.run start as).log := by
  let Inv (h : HostSession) : Prop :=
    Roster h ∧ Decision h ∧ Shows h ∧ Detects h ∧ h.handler.mGameState ∈ phases
  have hstep : ∀ h a, Inv h → system.enabled h a → Honest h a ∧ Tracked h a →
      Inv (system.next h a) := by
    rintro h a ⟨hr, hi, hs, hd, hphase⟩ he ⟨ho, ht⟩
    exact ⟨keeps_roster hr he, keeps_decision hr hi he ho, keeps_shows hr hs he,
      keeps_detects hr hi hs hd hphase he ho ht, act_phase a hphase⟩
  have hstart : Inv start :=
    ⟨start_roster, start_decision, start_shows, (fun hg => nomatch hg),
      by simp [start, hosted, phases]⟩
  have hmeets : system.Meets (fun h a => Honest h a ∧ Tracked h a) start as :=
    fun p hp => ⟨ho p hp, ht p hp⟩
  obtain ⟨-, -, -, hd, -⟩ := System.invariant_run hstep hstart hl hmeets
  exact decided_ne_zero.mp ((hd hg).decided_of_allIn ha)

theorem end_detected_twoPlayers :
    true ∈ (system.run start (twoPlayers.take 7)).handler.endChecks ∨
      .sceneTransition 5 ∈ (system.run start (twoPlayers.take 7)).log :=
  end_detected (by decide +kernel) (by decide +kernel) (by decide +kernel) (by decide +kernel)
    (by decide +kernel)

/-- The client leaves in the middle of the level and the host plays on to its own result. -/
def leavesMidGame : List HostAction :=
  [.statusCallback .connected 5, .startGame, .levelLoaded ⟨0, 0, 0⟩,
    .receive 5 (.playerData ⟨1, 5, ⟨1, 2, 0⟩, 12⟩), .statusCallback .closedByPeer 5,
    .sendPlayerResults ⟨"host", 3, 40, 900, .playerWon⟩, .endCheck false]

theorem end_undetected : system.Legal start leavesMidGame ∧ system.Meets Honest start leavesMidGame ∧
    (system.run start leavesMidGame).handler.mGameState = .gameStarted ∧
    (system.run start leavesMidGame).AllIn ∧
    ¬(true ∈ (system.run start leavesMidGame).handler.endChecks ∨
      .sceneTransition 5 ∈ (system.run start leavesMidGame).log) := by
  decide +kernel

end HostSession

end SeminarTouhou
