import SeminarTouhou.Network.ServerLaws

namespace SeminarTouhou

open Library

namespace HostSession

open ServerHandler

/-- Packets come from open connections that `START` was broadcast to, under the id of their
connection. -/
def Honest (h : HostSession) : HostAction → Prop
  | .receive c p => c ∈ h.participants ∧ p.claimedID ∈ [none, some c]
  | _ => True

instance (h : HostSession) (a : HostAction) : Decidable (Honest h a) := by
  rcases a with ⟨⟩ <;> dsimp only [Honest] <;> infer_instance

def DecidesOver (h : HostSession) (a : HostAction) : Prop :=
  h.handler.endChecks.count true < (h.next a).handler.endChecks.count true

/-- How often the game was decided to be over: once for each coroutine that waits with this
decision and for each `HandleGameFinish` that ran. -/
def decided (h : HostSession) : ℕ := h.handler.endChecks.count true + h.log.count (.sceneTransition 5)

structure Roster (h : HostSession) : Prop where
  nodup : h.handler.connectedClients.Nodup
  known : ∀ c ∈ h.handler.connectedClients, c ∈ h.handler.mPlayers
  nonzero : serverPlayerID ∉ h.handler.connectedClients
  live : ∀ c ∈ h.participants, c ∈ h.handler.connectedClients
  server : h.handler.server = true
  done : h.handler.mGameDone = false
  lobby : h.handler.mGameState = .searchingForPlayers →
    (∀ k, k ∉ h.handler.mPlayerResults) ∧
      (∀ k ∈ h.handler.mPlayers, k ∈ h.handler.connectedClients) ∧ h.decided = 0
  host : h.handler.mGameState ≠ .searchingForPlayers → serverPlayerID ∈ h.handler.mPlayers

structure Decision (h : HostSession) : Prop where
  early : h.decided = 0 → ∀ k ∈ h.handler.mPlayerResults, k ∈ h.handler.mPlayers
  once : h.decided ≤ 1
  all : h.decided ≠ 0 → serverPlayerID ∈ h.handler.mPlayerResults ∧
    ∀ c ∈ h.participants, c ∈ h.handler.mPlayerResults
  finished : h.handler.mGameState = .resultsScreen → h.decided ≠ 0

theorem start_roster : Roster start := by
  constructor <;> simp [start, hosted, decided]

theorem start_decision : Decision start := by
  constructor <;> simp [start, hosted, decided]

theorem count_append_of_not_mem {events more : List Event} {e : Event} (h : e ∉ more) :
    (events ++ more).count e = events.count e := by
  rw [List.count_append, List.count_eq_zero_of_not_mem h, Nat.add_zero]

theorem decided_next {h : HostSession} {a : HostAction}
    (hc : (act a h.handler).state.endChecks = h.handler.endChecks)
    (hr : .sceneTransition 5 ∉ (act a h.handler).raised) : (h.next a).decided = h.decided := by
  simp only [decided, next_handler, next_log, hc, count_append_of_not_mem hr]

theorem Roster.same {h h' : HostSession} (hi : Roster h) (hs : SameRoster h.handler h'.handler)
    (hp : h'.participants = h.participants) (hdec : h'.decided = h.decided) : Roster h' := by
  constructor
  · rw [hs.clients]; exact hi.nodup
  · rw [hs.clients]
    intro c hc
    exact (hs.players c).mpr (hi.known c hc)
  · rw [hs.clients]; exact hi.nonzero
  · rw [hs.clients, hp]; exact hi.live
  · rw [hs.server]; exact hi.server
  · rw [hs.done]; exact hi.done
  · rw [hs.state, hs.results, hs.clients, hdec]
    intro hl
    obtain ⟨h1, h2, h3⟩ := hi.lobby hl
    exact ⟨h1, fun k hk => h2 k ((hs.players k).mp hk), h3⟩
  · rw [hs.state, hs.players]; exact hi.host

theorem Decision.same {h h' : HostSession} (hi : Decision h)
    (hs : SameRoster h.handler h'.handler) (hp : h'.participants = h.participants)
    (hdec : h'.decided = h.decided) : Decision h' := by
  constructor
  · rw [hdec, hs.results]
    intro ho k hk
    exact (hs.players k).mpr (hi.early ho k hk)
  · rw [hdec]; exact hi.once
  · rw [hdec, hs.results, hp]; exact hi.all
  · rw [hdec, hs.state]; exact hi.finished

theorem participants_inert {h : HostSession} {a : HostAction} (ha : Inert a) :
    h.participantsAfter a = h.participants := by
  cases a <;> first | exact ha.elim | rfl

theorem same_inert {h : HostSession} {a : HostAction} (ha : Inert a) :
    SameRoster h.handler (h.next a).handler ∧ (h.next a).participants = h.participants ∧
      (h.next a).decided = h.decided := by
  obtain ⟨hs, hr⟩ := act_inert ha h.handler
  exact ⟨hs, participants_inert ha, decided_next hs.checks hr⟩

theorem Roster.inert {h : HostSession} {a : HostAction} (hi : Roster h) (ha : Inert a) :
    Roster (h.next a) := by
  obtain ⟨hs, hp, hdec⟩ := same_inert (h := h) ha
  exact hi.same hs hp hdec

theorem Decision.inert {h : HostSession} {a : HostAction} (hi : Decision h) (ha : Inert a) :
    Decision (h.next a) := by
  obtain ⟨hs, hp, hdec⟩ := same_inert (h := h) ha
  exact hi.same hs hp hdec

section Steps

variable {h : HostSession}

theorem handlePlayerJoining_raised (c : Connection) (s : ServerHandler) :
    .sceneTransition 5 ∉ (s.handlePlayerJoining c).raised := by
  unfold handlePlayerJoining
  split_ifs <;> simp

theorem handlePlayerLeaving_raised (c : Connection) (inGame : Bool) (s : ServerHandler) :
    .sceneTransition 5 ∉ (s.handlePlayerLeaving c inGame).raised := by
  unfold handlePlayerLeaving
  cases s.mPlayers.lookup c with
  | none => simp
  | some p => simp only [Outcome.raises_raised]; split_ifs <;> simp

theorem handlePlayerJoining_checks (c : Connection) (s : ServerHandler) :
    (s.handlePlayerJoining c).state.endChecks = s.endChecks := by
  unfold handlePlayerJoining
  split_ifs <;> rfl

theorem handlePlayerLeaving_checks (c : Connection) (inGame : Bool) (s : ServerHandler) :
    (s.handlePlayerLeaving c inGame).state.endChecks = s.endChecks := by
  unfold handlePlayerLeaving
  cases s.mPlayers.lookup c <;> rfl

theorem joining_again {c : Connection} (hk : c ∈ h.handler.mPlayers) :
    (act (.statusCallback .connected c) h.handler).state = h.handler := by
  simp [act, serverStatusCallback, handlePlayerJoining, hk]

theorem joining_new {c : Connection} (hk : c ∉ h.handler.mPlayers) :
    (act (.statusCallback .connected c) h.handler).state = { h.handler with
      connectedClients := h.handler.connectedClients ++ [c]
      mPlayers := h.handler.mPlayers.insert c (.init .new) } := by
  simp [act, serverStatusCallback, handlePlayerJoining, hk]

theorem joining_known {c : Connection} (hk : c ∈ h.handler.mPlayers) :
    SameRoster h.handler (h.next (.statusCallback .connected c)).handler := by
  rw [next_handler, joining_again hk]
  exact SameRoster.refl h.handler

theorem roster_joining (hi : Roster h) {c : Connection} (hc : c ≠ 0) :
    Roster (h.next (.statusCallback .connected c)) := by
  have hdec : (h.next (.statusCallback .connected c)).decided = h.decided :=
    decided_next (handlePlayerJoining_checks c _) (handlePlayerJoining_raised c _)
  by_cases hk : c ∈ h.handler.mPlayers
  · exact hi.same (joining_known hk) rfl hdec
  · have hs := joining_new hk
    have hnew : c ∉ h.handler.connectedClients := fun hm => hk (hi.known c hm)
    constructor <;> simp only [next_handler, next_participants, participantsAfter, hs, hdec]
    · exact List.nodup_append.mpr ⟨hi.nodup, List.nodup_singleton c, by
        rintro a ha b hb rfl
        exact hnew (List.mem_singleton.mp hb ▸ ha)⟩
    · intro d hd
      rcases List.mem_append.mp hd with hd | hd
      · exact (AList.mem_insert _).mpr (Or.inr (hi.known d hd))
      · exact (AList.mem_insert _).mpr (Or.inl (List.mem_singleton.mp hd))
    · intro hm
      rcases List.mem_append.mp hm with hm | hm
      · exact hi.nonzero hm
      · exact hc (List.mem_singleton.mp hm).symm
    · intro d hd
      exact List.mem_append_left _ (hi.live d hd)
    · exact hi.server
    · exact hi.done
    · intro hl
      obtain ⟨h1, h2, h3⟩ := hi.lobby hl
      refine ⟨h1, ?_, h3⟩
      intro k hk
      rcases (AList.mem_insert _).mp hk with rfl | hk
      · exact List.mem_append_right _ (List.mem_singleton_self k)
      · exact List.mem_append_left _ (h2 k hk)
    · intro hl
      exact (AList.mem_insert _).mpr (Or.inr (hi.host hl))

theorem decision_joining (hi : Decision h) (c : Connection) :
    Decision (h.next (.statusCallback .connected c)) := by
  have hdec : (h.next (.statusCallback .connected c)).decided = h.decided :=
    decided_next (handlePlayerJoining_checks c _) (handlePlayerJoining_raised c _)
  by_cases hk : c ∈ h.handler.mPlayers
  · exact hi.same (joining_known hk) rfl hdec
  · have hs := joining_new hk
    constructor <;> simp only [next_handler, next_participants, participantsAfter, hs, hdec]
    · intro ho k hr
      exact (AList.mem_insert _).mpr (Or.inr (hi.early ho k hr))
    exacts [hi.once, hi.all, hi.finished]

def closing (c : Connection) (s : ServerHandler) : ServerHandler :=
  (s.handlePlayerLeaving c (s.mGameState = .gameStarted)).state

theorem closing_cases (c : Connection) (s : ServerHandler) :
    (c ∉ s.mPlayers ∧ closing c s = s) ∨
    ∃ p, s.mPlayers.lookup c = some p ∧ closing c s = { s with
      connectedClients := s.connectedClients.erase c
      mPlayers := if s.mGameState = .gameStarted then s.mPlayers.insert c (p.onObject .destroy)
        else s.mPlayers.erase c } := by
  unfold closing handlePlayerLeaving
  cases hp : s.mPlayers.lookup c with
  | none => exact Or.inl ⟨AList.lookup_eq_none.mp hp, rfl⟩
  | some p =>
    refine Or.inr ⟨p, rfl, ?_⟩
    by_cases hg : s.mGameState = .gameStarted <;> simp [hg]

theorem roster_closing (hi : Roster h) {c : Connection} (hc : c ≠ 0) {h' : HostSession}
    (hs : h'.handler = closing c h.handler)
    (hp : h'.participants = h.participants.filter (fun d => d ≠ c))
    (hdec : h'.decided = h.decided) : Roster h' := by
  rcases closing_cases c h.handler with ⟨hk, he⟩ | ⟨p, hk, he⟩
  · have hpart : h'.participants = h.participants := by
      rw [hp, List.filter_eq_self]
      intro d hd
      have hdk := hi.known d (hi.live d hd)
      exact decide_eq_true (fun hdc => hk (hdc ▸ hdk))
    have hsame : SameRoster h.handler h'.handler := by
      rw [hs, he]
      exact SameRoster.refl h.handler
    exact hi.same hsame hpart hdec
  · rw [he] at hs
    have hmem : ∀ k, k ≠ c → (k ∈ h'.handler.mPlayers ↔ k ∈ h.handler.mPlayers) := by
      intro k hkc
      rw [hs]
      dsimp only
      split_ifs <;> simp [hkc]
    constructor <;> simp only [hs, hp, hdec]
    · exact hi.nodup.erase c
    · intro d hd
      obtain ⟨hdc, hd⟩ := hi.nodup.mem_erase_iff.mp hd
      simpa only [hs] using (hmem d hdc).mpr (hi.known d hd)
    · exact fun hm => hi.nonzero (List.mem_of_mem_erase hm)
    · intro d hd
      obtain ⟨hd, hdc⟩ := List.mem_filter.mp hd
      exact hi.nodup.mem_erase_iff.mpr ⟨of_decide_eq_true hdc, hi.live d hd⟩
    · exact hi.server
    · exact hi.done
    · intro hl
      obtain ⟨h1, h2, h3⟩ := hi.lobby hl
      refine ⟨h1, ?_, h3⟩
      intro k hkm
      rw [if_neg (by rw [hl]; decide), AList.mem_erase] at hkm
      exact hi.nodup.mem_erase_iff.mpr ⟨hkm.1, h2 k hkm.2⟩
    · intro hl
      simpa only [hs] using (hmem serverPlayerID (fun h0 => hc h0.symm)).mpr (hi.host hl)

theorem decision_closing (hr : Roster h) (hi : Decision h)
    (hphase : h.handler.mGameState ∈ [GameState.searchingForPlayers, .gameStarted, .resultsScreen])
    {c : Connection} {h' : HostSession} (hs : h'.handler = closing c h.handler)
    (hp : h'.participants = h.participants.filter (fun d => d ≠ c))
    (hdec : h'.decided = h.decided) : Decision h' := by
  have hall : ∀ d ∈ h'.participants, d ∈ h.participants := by
    rw [hp]
    exact fun d hd => (List.mem_filter.mp hd).1
  rcases closing_cases c h.handler with ⟨hk, he⟩ | ⟨p, hk, he⟩
  · rw [he] at hs
    constructor <;> simp only [hs, hdec]
    exacts [hi.early, hi.once, fun ho => ⟨(hi.all ho).1, fun d hd => (hi.all ho).2 d (hall d hd)⟩,
      hi.finished]
  · rw [he] at hs
    constructor <;> simp only [hs, hdec]
    · intro ho k hk'
      by_cases hg : h.handler.mGameState = .gameStarted
      · rw [if_pos hg]
        exact (AList.mem_insert _).mpr (Or.inr (hi.early ho k hk'))
      · simp only [List.mem_cons, List.not_mem_nil, or_false, hg, false_or] at hphase
        rcases hphase with hl | hres
        · exact absurd hk' ((hr.lobby hl).1 k)
        · exact absurd ho (hi.finished hres)
    exacts [hi.once, fun ho => ⟨(hi.all ho).1, fun d hd => (hi.all ho).2 d (hall d hd)⟩, hi.finished]

theorem roster_startGame (hi : Roster h) : Roster (h.next .startGame) := by
  have hdec : (h.next .startGame).decided = h.decided := decided_next rfl (by simp [act,
    handleBroadcastGameStart])
  constructor <;> simp only [next_handler, next_participants, participantsAfter, hdec]
  exacts [hi.nodup, hi.known, hi.nonzero, fun c hc => hc, hi.server, hi.done, hi.lobby, hi.host]

theorem decision_startGame (hr : Roster h) (hi : Decision h)
    (hl : h.handler.mGameState = .searchingForPlayers) : Decision (h.next .startGame) := by
  have hdec : (h.next .startGame).decided = h.decided := decided_next rfl (by simp [act,
    handleBroadcastGameStart])
  constructor <;> simp only [next_handler, next_participants, participantsAfter, hdec]
  exacts [hi.early, hi.once, fun ho => absurd (hr.lobby hl).2.2 ho, hi.finished]

theorem handleRegisterPlayer_state (s : ServerHandler) (hs : s.server = true) (player : GameObject) :
    ∃ t : PlayerTable, (s.handleRegisterPlayer player).state =
        { s with mGameState := .gameStarted, mPlayers := t } ∧
      (s.handleRegisterPlayer player).raised = [] ∧
      (∀ k, k ∈ t ↔ k = serverPlayerID ∨ k ∈ s.mPlayers) ∧
      (∀ k ∈ s.mPlayers, k ≠ serverPlayerID → t.status k = some (some (.hologram, .alive))) := by
  let holograms := Dict.mapValues (fun _ _ => PlayerGameData.hologram) s.mPlayers
  have hstatus : ∀ k ∈ s.mPlayers,
      PlayerTable.status holograms k = some (some (.hologram, .alive)) := by
    intro k hk
    obtain ⟨p, hp⟩ := Dict.exists_lookup hk
    simp [holograms, PlayerTable.status, hp]
  by_cases h0 : serverPlayerID ∈ s.mPlayers
  · refine ⟨holograms, by simp [handleRegisterPlayer, hs, h0, holograms],
      by simp [handleRegisterPlayer, hs, h0], ?_, fun k hk _ => hstatus k hk⟩
    intro k
    simp only [holograms, Dict.mem_mapValues]
    constructor
    · exact Or.inr
    · rintro (rfl | hk)
      exacts [h0, hk]
  · refine ⟨holograms.insert serverPlayerID (.init { PlayerGameData.new with playerOBJ := some player }),
      by simp [handleRegisterPlayer, hs, h0, holograms],
      by simp [handleRegisterPlayer, hs, h0], ?_, ?_⟩
    · intro k
      simp [holograms]
    · intro k hk hk0
      rw [PlayerTable.status_insert_ne hk0]
      exact hstatus k hk

theorem roster_levelLoaded (hi : Roster h) (position : Vector3) :
    Roster (h.next (.levelLoaded position)) := by
  obtain ⟨t, hs, hr, hmem, -⟩ :=
    handleRegisterPlayer_state h.handler hi.server ⟨.player, position, .alive⟩
  constructor <;> simp only [next_handler, next_participants, participantsAfter, act, hs]
  · exact hi.nodup
  · intro c hc
    exact (hmem c).mpr (Or.inr (hi.known c hc))
  · exact hi.nonzero
  · exact hi.live
  · exact hi.server
  · exact hi.done
  · intro hl
    cases hl
  · exact fun _ => (hmem serverPlayerID).mpr (Or.inl rfl)

theorem decision_levelLoaded (hr : Roster h) (hi : Decision h) (position : Vector3) :
    Decision (h.next (.levelLoaded position)) := by
  obtain ⟨t, hs, hra, hmem, -⟩ :=
    handleRegisterPlayer_state h.handler hr.server ⟨.player, position, .alive⟩
  have hdec : (h.next (.levelLoaded position)).decided = h.decided :=
    decided_next (by simp only [act, hs]) (by simp [act, hra])
  constructor <;> simp only [next_handler, next_participants, participantsAfter, act, hs, hdec]
  · intro ho k hk
    exact (hmem k).mpr (Or.inr (hi.early ho k hk))
  · exact hi.once
  · exact hi.all
  · intro hl
    cases hl

theorem count_true_erase {l : List Bool} {b : Bool} (hb : b ∈ l) :
    (l.erase b).count true + (if b then 1 else 0) = l.count true := by
  cases b with
  | false => simp [List.count_erase_of_ne]
  | true =>
    have := List.count_pos_iff.mpr hb
    simp only [List.count_erase_self, if_true]
    omega

theorem decided_endCheck {b : Bool} (hb : b ∈ h.handler.endChecks) :
    (h.next (.endCheck b)).decided = h.decided := by
  have hc := count_true_erase hb
  cases b with
  | false => simp [decided, act, coDelayEndGameCheck]
  | true =>
    simp only [decided, next_handler, next_log, act, coDelayEndGameCheck, if_true, handleGameFinish,
      List.count_append, List.count_singleton_self] at hc ⊢
    omega

theorem roster_endCheck (hi : Roster h) {b : Bool} (hb : b ∈ h.handler.endChecks) :
    Roster (h.next (.endCheck b)) := by
  have hdec := decided_endCheck hb
  cases b with
  | false =>
    constructor <;> simp only [next_handler, next_participants, participantsAfter, hdec, act,
      coDelayEndGameCheck, Bool.false_eq_true, if_false, Outcome.returns_state]
    exacts [hi.nodup, hi.known, hi.nonzero, hi.live, hi.server, hi.done, hi.lobby, hi.host]
  | true =>
    have hne : h.handler.mGameState ≠ .searchingForPlayers := by
      intro hl
      have hpos := List.count_pos_iff.mpr hb
      have hzero := (hi.lobby hl).2.2
      unfold decided at hzero
      omega
    constructor <;> simp only [next_handler, next_participants, participantsAfter, act,
      coDelayEndGameCheck, if_true, handleGameFinish]
    · exact hi.nodup
    · exact hi.known
    · exact hi.nonzero
    · exact hi.live
    · exact hi.server
    · exact hi.done
    · intro hl
      cases hl
    · exact fun _ => hi.host hne

theorem decision_endCheck (hi : Decision h) {b : Bool} (hb : b ∈ h.handler.endChecks) :
    Decision (h.next (.endCheck b)) := by
  have hdec := decided_endCheck hb
  cases b with
  | false =>
    constructor <;> simp only [next_handler, next_participants, participantsAfter, hdec, act,
      coDelayEndGameCheck, Bool.false_eq_true, if_false, Outcome.returns_state]
    exacts [hi.early, hi.once, hi.all, hi.finished]
  | true =>
    have hpos : h.decided ≠ 0 := by
      have := List.count_pos_iff.mpr hb
      unfold decided
      omega
    constructor <;> simp only [next_handler, next_participants, participantsAfter, hdec, act,
      coDelayEndGameCheck, if_true, handleGameFinish]
    · intro ho
      exact absurd ho hpos
    · exact hi.once
    · exact hi.all
    · exact fun _ => hpos

/-- `t` is the state after a result of the live player `k` was stored, before the check. -/
structure Stored (s t : ServerHandler) (k : UInt32) : Prop where
  key : k ∈ s.mPlayers
  fresh : k ∉ s.mPlayerResults
  results : ∀ j, j ∈ t.mPlayerResults ↔ j = k ∨ j ∈ s.mPlayerResults
  players : ∀ j, j ∈ t.mPlayers ↔ j ∈ s.mPlayers
  clients : t.connectedClients = s.connectedClients
  state : t.mGameState = s.mGameState
  done : t.mGameDone = s.mGameDone
  server : t.server = s.server
  checks : t.endChecks = s.endChecks

theorem stored_withResult {s : ServerHandler} {k : UInt32} (r : PlayerStoredResultData)
    (hk : k ∈ s.mPlayers) (hf : k ∉ s.mPlayerResults) : Stored s (s.withResult k r) k where
  key := hk
  fresh := hf
  results := fun _ => AList.mem_insert _
  players := fun _ => Iff.rfl
  clients := rfl
  state := rfl
  done := rfl
  server := rfl
  checks := rfl

theorem stored_players {s : ServerHandler} {k : UInt32} {r : PlayerStoredResultData}
    {p : PlayerGameData} (hk : k ∈ s.mPlayers) (hf : k ∉ s.mPlayerResults) :
    Stored s { s.withResult k r with mPlayers := s.mPlayers.insert k p } k where
  key := hk
  fresh := hf
  results := fun _ => AList.mem_insert _
  players := fun _ => (AList.mem_insert _).trans
    ⟨fun hj => hj.elim (fun e => e ▸ hk) id, Or.inr⟩
  clients := rfl
  state := rfl
  done := rfl
  server := rfl
  checks := rfl

theorem Stored.undecided {t : ServerHandler} {k : UInt32} (hst : Stored h.handler t k)
    (hi : Decision h) (hlive : k = serverPlayerID ∨ k ∈ h.participants) : h.decided = 0 := by
  by_contra ho
  obtain ⟨h0, hall⟩ := hi.all ho
  rcases hlive with rfl | hk
  · exact hst.fresh h0
  · exact hst.fresh (hall k hk)

theorem Stored.subset {t : ServerHandler} {k : UInt32} (hst : Stored h.handler t k)
    (hi : Decision h) (ho : h.decided = 0) : ∀ j ∈ t.mPlayerResults, j ∈ t.mPlayers := by
  intro j hj
  rw [hst.players]
  rcases (hst.results j).mp hj with rfl | hj
  · exact hst.key
  · exact hi.early ho j hj

theorem Roster.stored {t : ServerHandler} {k : UInt32} (hst : Stored h.handler t k)
    (hi : Roster h) (hne : h.handler.mGameState ≠ .searchingForPlayers) {h' : HostSession}
    (hs : h'.handler = t ∨ h'.handler = t.handleGameEndCheck)
    (hp : h'.participants = h.participants) : Roster h' := by
  have hfields : h'.handler.mPlayers = t.mPlayers ∧
      h'.handler.connectedClients = t.connectedClients ∧
      h'.handler.mGameState = t.mGameState ∧ h'.handler.mGameDone = t.mGameDone ∧
      h'.handler.server = t.server := by
    rcases hs with hs | hs <;> simp [hs]
  obtain ⟨hpl, hcl, hst', hdo, hse⟩ := hfields
  constructor <;> simp only [hpl, hcl, hst', hdo, hse, hp, hst.clients, hst.state, hst.done,
    hst.server]
  · exact hi.nodup
  · intro c hc
    exact (hst.players c).mpr (hi.known c hc)
  · exact hi.nonzero
  · exact hi.live
  · exact hi.server
  · exact hi.done
  · exact fun hl => absurd hl hne
  · exact fun hl => (hst.players _).mpr (hi.host hl)

theorem Decision.failed {t : ServerHandler} {k : UInt32} (hst : Stored h.handler t k)
    (hi : Decision h) (hlive : k = serverPlayerID ∨ k ∈ h.participants) {h' : HostSession}
    (hs : h'.handler = t) (hdec : h'.decided = h.decided) : Decision h' := by
  have ho := hst.undecided hi hlive
  constructor <;> simp only [hs, hdec, ho]
  · exact fun _ => hst.subset hi ho
  · omega
  · exact fun hc => absurd rfl hc
  · intro hf
    exact absurd ho (hi.finished (hst.state ▸ hf))

theorem decided_checked {t : ServerHandler} (hdone : t.mGameDone = false) {h' : HostSession}
    (hs : h'.handler = t.handleGameEndCheck) (hc : t.endChecks = h.handler.endChecks)
    (hl : h'.log.count (.sceneTransition 5) = h.log.count (.sceneTransition 5)) :
    h'.decided = h.decided + if t.checkIfGameFinished then 1 else 0 := by
  unfold decided
  rw [hs, handleGameEndCheck_checks hdone, hl, hc, List.count_append]
  cases t.checkIfGameFinished with
  | false => simp
  | true =>
    simp only [List.count_singleton_self, if_true]
    omega

theorem Decision.checked {t : ServerHandler} {k : UInt32} (hst : Stored h.handler t k)
    (hr : Roster h) (hi : Decision h) (hne : h.handler.mGameState ≠ .searchingForPlayers)
    (hlive : k = serverPlayerID ∨ k ∈ h.participants) {h' : HostSession}
    (hs : h'.handler = t.handleGameEndCheck) (hp : h'.participants = h.participants)
    (hl : h'.log.count (.sceneTransition 5) = h.log.count (.sceneTransition 5)) : Decision h' := by
  have ho := hst.undecided hi hlive
  have hsub := hst.subset hi ho
  have hdec := decided_checked (h := h) (hst.done.trans hr.done) hs hst.checks hl
  rw [ho] at hdec
  constructor <;> simp only [hs, hdec, hp, handleGameEndCheck_players, handleGameEndCheck_results,
    handleGameEndCheck_state]
  · exact fun _ => hsub
  · split_ifs <;> omega
  · intro hover
    have hcheck : t.checkIfGameFinished = true := by
      by_contra hc
      simp [hc] at hover
    have hall := (checkIfGameFinished_iff hsub).mp hcheck
    refine ⟨hall _ ((hst.players _).mpr (hr.host hne)), ?_⟩
    intro c hc
    exact hall c ((hst.players c).mpr (hr.known c (hr.live c hc)))
  · intro hf
    exact absurd ho (hi.finished (hst.state ▸ hf))

/-- What a step does that hands in the result of the live player `k`: nothing to the tables, or it
stores the result and fails, or it stores the result and checks for the end. -/
inductive HandsIn (h h' : HostSession) (k : UInt32) : Prop
  | same (hs : SameRoster h.handler h'.handler)
  | failed (hst : Stored h.handler h'.handler k)
  | checked (t : ServerHandler) (hst : Stored h.handler t k)
    (hs : h'.handler = t.handleGameEndCheck)

theorem handsIn_sendPlayerResults (hr : Roster h) (r : PlayerStoredResultData)
    (hne : h.handler.mGameState ≠ .searchingForPlayers) :
    HandsIn h (h.next (.sendPlayerResults r)) serverPlayerID := by
  by_cases h0 : serverPlayerID ∈ h.handler.mPlayerResults
  · apply HandsIn.same
    simpa [act, handleSendPlayerResults, h0] using SameRoster.refl h.handler
  · apply HandsIn.checked (h.handler.withResult serverPlayerID r)
    · exact stored_withResult r (hr.host hne) h0
    · simp [act, handleSendPlayerResults, h0, withResult]

theorem handsIn_receive (hr : Roster h) {c : Connection} {p : Packet}
    (ho : Honest h (.receive c p)) : HandsIn h (h.next (.receive c p)) c := by
  obtain ⟨hc, hid⟩ := ho
  have hk : c ∈ h.handler.mPlayers := hr.known c (hr.live c hc)
  cases p with
  | playerData d =>
    have hdc : d.playerID = c := by simpa [Packet.claimedID] using hid
    have hmem : d.playerID ∈ h.handler.mPlayers := hdc ▸ hk
    apply HandsIn.same
    apply sameRoster_players
    intro k
    exact PlayerTable.mem_congr (PlayerTable.handlePlayerData_known hmem k)
  | storePlayerResults d =>
    obtain rfl : d.playerID = c := by simpa [Packet.claimedID] using hid
    rcases handleReceivePlayerResult_cases d h.handler with
      ⟨-, hs⟩ | ⟨hf, ⟨e, hs, -⟩ | ⟨q, events, -, -, hs⟩⟩
    · apply HandsIn.same
      simpa [act, receive, hs] using SameRoster.refl h.handler
    · apply HandsIn.failed
      simpa [act, receive, hs] using stored_withResult (storedResult d) hk hf
    · apply HandsIn.checked _ (stored_players hk hf)
      simp only [next_handler, act, receive, hs]
      rfl
  | offensiveBombData d =>
    apply HandsIn.same
    have hs : (h.handler.handleOffensiveBombData d).state = h.handler := by
      unfold handleOffensiveBombData
      repeat' split
      all_goals rfl
    simpa [act, receive, hs] using SameRoster.refl h.handler
  | registerPlayer | playerCount | gameState | sendResult | otherPlayerFinish =>
    exact HandsIn.same (SameRoster.refl h.handler)

theorem receive_noTransition (c : Connection) (p : Packet) (s : ServerHandler) :
    .sceneTransition 5 ∉ (act (.receive c p) s).raised := by
  cases p with
  | storePlayerResults d =>
    rcases handleReceivePlayerResult_cases d s with
      ⟨-, hs⟩ | ⟨-, ⟨e, hs, -⟩ | ⟨q, events, -, he, hs⟩⟩
    · simp [act, receive, hs]
    · simp [act, receive, hs]
    · simpa only [act, receive, hs] using finishEvents_noTransition he 5
  | offensiveBombData d =>
    simp only [act, receive]
    unfold handleOffensiveBombData
    repeat' split
    all_goals simp
  | playerData | registerPlayer | playerCount | gameState | sendResult | otherPlayerFinish =>
    simp [act, receive, handlePlayerData]

theorem sendPlayerResults_noTransition (r : PlayerStoredResultData) (s : ServerHandler) :
    .sceneTransition 5 ∉ (act (.sendPlayerResults r) s).raised := by
  simp only [act, handleSendPlayerResults]
  split_ifs <;> simp

theorem log_handsIn {a : HostAction} (hn : .sceneTransition 5 ∉ (act a h.handler).raised) :
    (h.next a).log.count (.sceneTransition 5) = h.log.count (.sceneTransition 5) :=
  count_append_of_not_mem hn

theorem Roster.handsIn {h' : HostSession} {k : UInt32} (hi : Roster h) (hh : HandsIn h h' k)
    (hne : h.handler.mGameState ≠ .searchingForPlayers)
    (hp : h'.participants = h.participants)
    (hl : h'.log.count (.sceneTransition 5) = h.log.count (.sceneTransition 5)) : Roster h' := by
  cases hh with
  | same hs => exact hi.same hs hp (by rw [decided, decided, hs.checks, hl])
  | failed hst => exact hi.stored hst hne (Or.inl rfl) hp
  | checked t hst hs => exact hi.stored hst hne (Or.inr hs) hp

theorem Decision.handsIn {h' : HostSession} {k : UInt32} (hr : Roster h) (hi : Decision h)
    (hh : HandsIn h h' k) (hlive : k = serverPlayerID ∨ k ∈ h.participants)
    (hne : h.handler.mGameState ≠ .searchingForPlayers)
    (hp : h'.participants = h.participants)
    (hl : h'.log.count (.sceneTransition 5) = h.log.count (.sceneTransition 5)) : Decision h' := by
  cases hh with
  | same hs => exact hi.same hs hp (by rw [decided, decided, hs.checks, hl])
  | failed hst => exact hi.failed hst hlive rfl (by rw [decided, decided, hst.checks, hl])
  | checked t hst hs => exact hi.checked hst hr hne hlive hs hp hl

end Steps

theorem phase_of_mem {g : GameState} (h : g ∈ [GameState.gameStarted, .resultsScreen]) :
    g ≠ .searchingForPlayers := by
  rintro rfl
  simp at h

theorem roster_receive {h : HostSession} (hi : Roster h) (hg : h.handler.mGameState = .gameStarted)
    (c : Connection) (p : Packet) : Roster (h.next (.receive c p)) := by
  have hframe : (∀ k ∈ h.handler.mPlayers, k ∈ (h.handler.receive p).state.mPlayers) ∧
      (h.handler.receive p).state.connectedClients = h.handler.connectedClients ∧
      (h.handler.receive p).state.mGameState = h.handler.mGameState ∧
      (h.handler.receive p).state.mGameDone = h.handler.mGameDone ∧
      (h.handler.receive p).state.server = h.handler.server := by
    rcases receive_state p h.handler with hs | ⟨d, -, hs⟩ | ⟨d, -, -, hs | ⟨q, -, hs, -⟩⟩
    · simp [hs]
    · rw [hs]
      exact ⟨fun k hk => PlayerTable.mem_handlePlayerData d hk, rfl, rfl, rfl, rfl⟩
    · simp [hs, withResult]
    · simp only [hs, handleGameEndCheck_players, handleGameEndCheck_clients,
        handleGameEndCheck_state, handleGameEndCheck_done, handleGameEndCheck_server]
      exact ⟨fun k hk => (AList.mem_insert _).mpr (Or.inr hk), rfl, rfl, rfl, rfl⟩
  obtain ⟨hplayers, hclients, hstate, hdone, hserver⟩ := hframe
  constructor <;> simp only [next_handler, next_participants, participantsAfter, act, hclients,
    hstate, hdone, hserver]
  · exact hi.nodup
  · exact fun d hd => hplayers d (hi.known d hd)
  · exact hi.nonzero
  · exact hi.live
  · exact hi.server
  · exact hi.done
  · intro hl
    have hcontra := hg.symm.trans hl
    simp at hcontra
  · exact fun hl => hplayers _ (hi.host hl)

theorem keeps_roster {h : HostSession} {a : HostAction} (hr : Roster h) (he : h.Enabled a) :
    Roster (h.next a) := by
  cases a with
  | statusCallback state c =>
    cases state with
    | connected => exact roster_joining hr he.1
    | closedByPeer | problemDetectedLocally =>
      exact roster_closing hr he.1 rfl rfl (decided_next (handlePlayerLeaving_checks _ _ _)
        (handlePlayerLeaving_raised _ _ _))
  | startGame => exact roster_startGame hr
  | levelLoaded position => exact roster_levelLoaded hr position
  | sendPlayerResults r =>
    have hne := phase_of_mem he
    exact hr.handsIn (handsIn_sendPlayerResults hr r hne) hne rfl
      (log_handsIn (sendPlayerResults_noTransition r _))
  | receive c p => exact roster_receive hr he c p
  | endCheck b => exact roster_endCheck hr he
  | fireOffensiveBomb | sendPlayerData | broadcastPlayerCount | broadcastResults | interpolate
  | movePlayer | destroyPlayer | unloadScene | endOfFrame =>
    exact hr.inert trivial

theorem keeps_decision {h : HostSession} {a : HostAction} (hr : Roster h) (hi : Decision h)
    (he : h.Enabled a) (ho : Honest h a) : Decision (h.next a) := by
  cases a with
  | statusCallback state c =>
    cases state with
    | connected => exact decision_joining hi c
    | closedByPeer | problemDetectedLocally =>
      exact decision_closing hr hi he.2 rfl rfl (decided_next (handlePlayerLeaving_checks _ _ _)
        (handlePlayerLeaving_raised _ _ _))
  | startGame => exact decision_startGame hr hi he
  | levelLoaded position => exact decision_levelLoaded hr hi position
  | sendPlayerResults r =>
    have hne := phase_of_mem he
    exact hi.handsIn hr (handsIn_sendPlayerResults hr r hne) (Or.inl rfl) hne rfl
      (log_handsIn (sendPlayerResults_noTransition r _))
  | receive c p =>
    have hne : h.handler.mGameState ≠ .searchingForPlayers := by rw [he]; decide
    exact hi.handsIn hr (handsIn_receive hr ho) (Or.inr ho.1) hne rfl
      (log_handsIn (receive_noTransition c p _))
  | endCheck b => exact decision_endCheck hi he
  | fireOffensiveBomb | sendPlayerData | broadcastPlayerCount | broadcastResults | interpolate
  | movePlayer | destroyPlayer | unloadScene | endOfFrame =>
    exact hi.inert trivial

theorem HandsIn.allStored {h h' : HostSession} {k : UInt32} (hh : HandsIn h h' k) (hr : Roster h)
    (hi : Decision h) (hlive : k = serverPlayerID ∨ k ∈ h.participants)
    (hmore : h.handler.endChecks.count true < h'.handler.endChecks.count true) :
    ∀ j ∈ h'.handler.mPlayers, j ∈ h'.handler.mPlayerResults := by
  cases hh with
  | same hs =>
    rw [hs.checks] at hmore
    omega
  | failed hst =>
    rw [hst.checks] at hmore
    omega
  | checked t hst hs =>
    rw [hs, handleGameEndCheck_checks (hst.done.trans hr.done), hst.checks, List.count_append] at hmore
    have hcheck : t.checkIfGameFinished = true := by
      by_contra hc
      simp [hc] at hmore
    have hall := (checkIfGameFinished_iff (hst.subset hi (hst.undecided hi hlive))).mp hcheck
    simpa only [hs, handleGameEndCheck_players, handleGameEndCheck_results] using hall

theorem checks_le {h : HostSession} {a : HostAction} (hr : h.handler.server = true)
    (hp : ∀ r, a ≠ .sendPlayerResults r) (hc : ∀ c p, a ≠ .receive c p) :
    (h.next a).handler.endChecks.count true ≤ h.handler.endChecks.count true := by
  by_cases ha : Inert a
  · rw [(same_inert (h := h) ha).1.checks]
  cases a with
  | statusCallback state c =>
    cases state with
    | connected => exact (handlePlayerJoining_checks c h.handler ▸ le_refl _)
    | closedByPeer | problemDetectedLocally =>
      exact (handlePlayerLeaving_checks c _ h.handler ▸ le_refl _)
  | startGame => exact le_refl _
  | levelLoaded position =>
    obtain ⟨t, hs, -⟩ := handleRegisterPlayer_state h.handler hr ⟨.player, position, .alive⟩
    simp only [next_handler, act, hs, le_refl]
  | sendPlayerResults r => exact absurd rfl (hp r)
  | receive c p => exact absurd rfl (hc c p)
  | endCheck b =>
    have hle := List.Sublist.count_le true (List.erase_sublist (a := b) (l := h.handler.endChecks))
    cases b <;> exact hle
  | fireOffensiveBomb | sendPlayerData | broadcastPlayerCount | broadcastResults | interpolate
  | movePlayer | destroyPlayer | unloadScene | endOfFrame =>
    exact absurd trivial ha

theorem allStored_of_decidesOver {h : HostSession} {a : HostAction} (hr : Roster h)
    (hi : Decision h) (he : h.Enabled a) (ho : Honest h a) (hd : DecidesOver h a) :
    ∀ k ∈ (h.next a).handler.mPlayers, k ∈ (h.next a).handler.mPlayerResults := by
  cases a with
  | sendPlayerResults r =>
    exact (handsIn_sendPlayerResults hr r (phase_of_mem he)).allStored hr hi (Or.inl rfl) hd
  | receive c p => exact (handsIn_receive hr ho).allStored hr hi (Or.inr ho.1) hd
  | statusCallback | startGame | levelLoaded | fireOffensiveBomb | endCheck | sendPlayerData
  | broadcastPlayerCount | broadcastResults | interpolate | movePlayer | destroyPlayer
  | unloadScene | endOfFrame =>
    refine absurd hd (Nat.not_lt.mpr (checks_le hr.server ?_ ?_)) <;> simp

/-- The game is finished at most once, and only decided to be over when every player has a
result. -/
theorem game_finishes_once {as : List HostAction} (hl : system.Legal start as)
    (ho : system.Meets Honest start as) :
    (system.run start as).log.count (.sceneTransition 5) ≤ 1 ∧
      system.Meets (fun h a => DecidesOver h a →
        ∀ k ∈ (h.next a).handler.mPlayers, k ∈ (h.next a).handler.mPlayerResults) start as := by
  have hstep : ∀ h a, Roster h ∧ Decision h → system.enabled h a → Honest h a →
      Roster (system.next h a) ∧ Decision (system.next h a) := by
    intro h a hi he ho
    exact ⟨keeps_roster hi.1 he, keeps_decision hi.1 hi.2 he ho⟩
  have hstart : Roster start ∧ Decision start := ⟨start_roster, start_decision⟩
  constructor
  · have hrun := (System.invariant_run hstep hstart hl ho).2.once
    unfold decided at hrun
    omega
  · have hdecides : ∀ h a, Roster h ∧ Decision h → system.enabled h a → Honest h a →
        DecidesOver h a → ∀ k ∈ (h.next a).handler.mPlayers, k ∈ (h.next a).handler.mPlayerResults :=
      fun _ _ hi he ho hd => allStored_of_decidesOver hi.1 hi.2 he ho hd
    exact System.every_step hstep hdecides hstart hl ho

def twoPlayers : List HostAction :=
  [.statusCallback .connected 5, .startGame, .levelLoaded ⟨0, 0, 0⟩,
    .receive 5 (.playerData ⟨1, 5, ⟨1, 2, 0⟩, 12⟩),
    .receive 5 (.storePlayerResults ⟨1, 5, 30, 0, 100, .playerDied, "client"⟩),
    .sendPlayerResults ⟨"host", 3, 40, 900, .playerWon⟩, .endCheck false, .endCheck true]

theorem game_finishes_once_twoPlayers :
    (system.run start twoPlayers).log.count (.sceneTransition 5) ≤ 1 ∧
      system.Meets (fun h a => DecidesOver h a →
        ∀ k ∈ (h.next a).handler.mPlayers, k ∈ (h.next a).handler.mPlayerResults) start twoPlayers :=
  game_finishes_once (by decide +kernel) (by decide +kernel)

end HostSession

end SeminarTouhou
