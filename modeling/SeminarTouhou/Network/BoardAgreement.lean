import SeminarTouhou.Network.Boards
import SeminarTouhou.Network.Raised

namespace SeminarTouhou

open Library

/-- The result as the board of a node shows it: the clients have it from a packet. -/
def PlayerSendResultData.shownAt (n : Option Connection) (d : PlayerSendResultData) :
    PlayerSendResultData :=
  if n.isSome then d.marshalled else d

namespace PlayerSendResultData

variable (n : Option Connection) (d : PlayerSendResultData)

@[simp] theorem shownAt_none : d.shownAt none = d := rfl

@[simp] theorem shownAt_some (c : Connection) : d.shownAt (some c) = d.marshalled := rfl

@[simp] theorem shownAt_playerID : (d.shownAt n).playerID = d.playerID := by
  unfold shownAt
  split_ifs <;> rfl

@[simp] theorem shownAt_marshalled : (d.shownAt n).marshalled = d.marshalled := by
  unfold shownAt
  split_ifs
  · exact d.marshalled_marshalled
  · rfl

end PlayerSendResultData

namespace ServerHandler

theorem Publishes.extended {s t : ServerHandler} {d : PlayerSendResultData} (h : s.Publishes d)
    (ht : s.mPlayerResults.ExtendedBy t.mPlayerResults) : t.Publishes d := by
  obtain ⟨r, hr, hd⟩ := h
  exact ⟨r, ht _ _ hr, hd⟩

theorem Publishes.unique {s : ServerHandler} {d e : PlayerSendResultData} (hd : s.Publishes d)
    (he : s.Publishes e) (hid : d.playerID = e.playerID) : d = e := by
  obtain ⟨r, hr, hd⟩ := hd
  obtain ⟨q, hq, he⟩ := he
  rw [hid, hq, Option.some.injEq] at hr
  rw [hd, he, hid, hr]

def PublishesTo (s : ServerHandler) (n : Option Connection) (r : PlayerSendResultData) : Prop :=
  ∃ d, s.Publishes d ∧ r = d.shownAt n

theorem mem_resultsAt {s : ServerHandler} {n : Option Connection} {r : PlayerSendResultData} :
    r ∈ s.mPlayerResults.entries.map (fun e => (resultPacket e.1 e.2).shownAt n) ↔
      s.PublishesTo n r := by
  rw [show (fun e : (_ : UInt32) × PlayerStoredResultData => (resultPacket e.1 e.2).shownAt n) =
    PlayerSendResultData.shownAt n ∘ fun e => resultPacket e.1 e.2 from rfl, ← List.map_map,
    List.mem_map]
  constructor
  · rintro ⟨d, hd, rfl⟩
    exact ⟨d, mem_results.mp hd, rfl⟩
  · rintro ⟨d, hd, hr⟩
    exact ⟨d, mem_results.mpr hd, hr.symm⟩

theorem PublishesTo.extended {s t : ServerHandler} {n : Option Connection} {r : PlayerSendResultData}
    (h : s.PublishesTo n r) (ht : s.mPlayerResults.ExtendedBy t.mPlayerResults) :
    t.PublishesTo n r := by
  obtain ⟨d, hd, hr⟩ := h
  exact ⟨d, hd.extended ht, hr⟩

theorem PublishesTo.unique {s : ServerHandler} {n m : Option Connection} {q r : PlayerSendResultData}
    (hq : s.PublishesTo n q) (hr : s.PublishesTo m r) (hid : q.playerID = r.playerID) :
    q.marshalled = r.marshalled ∧ (n.isSome = m.isSome → q = r) := by
  obtain ⟨d, hd, rfl⟩ := hq
  obtain ⟨e, he, rfl⟩ := hr
  rw [PlayerSendResultData.shownAt_playerID, PlayerSendResultData.shownAt_playerID] at hid
  obtain rfl := hd.unique he hid
  refine ⟨by simp, fun hn => ?_⟩
  rw [PlayerSendResultData.shownAt, PlayerSendResultData.shownAt, hn]

end ServerHandler

namespace HostSession

open ServerHandler

theorem not_result_of_finish {s : ServerHandler} {k : UInt32} {r : ResultContext} {c : Connection}
    {d : PlayerSendResultData} : (c, .sendResult d) ∉ s.sendPlayerFinishToAllOtherClients k r := by
  intro h
  unfold sendPlayerFinishToAllOtherClients at h
  split_ifs at h
  · nomatch (mem_broadcastExcept.mp h).2.2
  · exact absurd h List.not_mem_nil

theorem not_result_of_bomb {s : ServerHandler} {k : UInt32} {pos : Vector2} {c : Connection}
    {d : PlayerSendResultData} : (c, .sendResult d) ∉ s.sendBombDataToAllOtherClients pos k := by
  intro h
  unfold sendBombDataToAllOtherClients at h
  split_ifs at h
  · nomatch (mem_broadcastExcept.mp h).2.2
  · exact absurd h List.not_mem_nil

theorem not_result_of_receive {s : ServerHandler} (p : Packet) {c : Connection}
    {d : PlayerSendResultData} : (c, .sendResult d) ∉ (s.receive p).sent := by
  intro h
  cases p with
  | storePlayerResults r =>
    obtain ⟨-, hs⟩ | ⟨-, ⟨e, hs, -⟩ | ⟨q, events, -, -, hs⟩⟩ := handleReceivePlayerResult_cases r s
    · rw [receive, hs] at h
      exact absurd h List.not_mem_nil
    · rw [receive, hs] at h
      exact absurd h List.not_mem_nil
    · rw [receive, hs] at h
      exact not_result_of_finish h
  | offensiveBombData b =>
    simp only [receive, handleOffensiveBombData] at h
    repeat' split at h
    all_goals first
      | exact not_result_of_bomb h
      | exact absurd h List.not_mem_nil
  | playerData | registerPlayer | playerCount | gameState | sendResult | otherPlayerFinish =>
    exact absurd h List.not_mem_nil

theorem result_sent {a : HostAction} {s : ServerHandler} {c : Connection} {d : PlayerSendResultData}
    (h : (c, .sendResult d) ∈ (act a s).sent) : s.PublishesTo (some c) d := by
  cases a with
  | broadcastResults =>
    simp only [act, ServerHandler.broadcastResults] at h
    split_ifs at h
    · obtain ⟨e, he, hd⟩ := List.mem_flatMap.mp h
      obtain ⟨-, hp⟩ := mem_broadcast.mp hd
      obtain rfl := Packet.sendResult.inj hp
      exact ⟨e, mem_results.mp he, rfl⟩
    · exact absurd h List.not_mem_nil
  | statusCallback state b =>
    cases state with
    | connected =>
      simp only [act, serverStatusCallback, handlePlayerJoining] at h
      split_ifs at h
      · exact absurd h List.not_mem_nil
      · cases (Prod.mk.inj (List.mem_singleton.mp h)).2
    | closedByPeer | problemDetectedLocally =>
      simp only [act, serverStatusCallback, handlePlayerLeaving] at h
      split at h <;> exact absurd h List.not_mem_nil
  | startGame => cases (mem_broadcast.mp h).2
  | levelLoaded position =>
    simp only [act, handleRegisterPlayer] at h
    split_ifs at h <;> exact absurd h List.not_mem_nil
  | sendPlayerResults r =>
    simp only [act, handleSendPlayerResults] at h
    split_ifs at h
    · exact absurd h List.not_mem_nil
    · exact absurd h not_result_of_finish
  | fireOffensiveBomb pos => exact absurd h not_result_of_bomb
  | receive b p => exact absurd h (not_result_of_receive p)
  | endCheck b =>
    cases b with
    | false => exact absurd h List.not_mem_nil
    | true =>
      simp only [act, coDelayEndGameCheck, handleGameFinish, if_true] at h
      split_ifs at h
      · cases (mem_broadcast.mp h).2
      · exact absurd h List.not_mem_nil
  | sendPlayerData =>
    simp only [act, ServerHandler.sendPlayerData, Outcome.sends_sent] at h
    split_ifs at h
    · obtain ⟨e, -, he⟩ := List.mem_flatMap.mp h
      split at he
      · exact absurd he List.not_mem_nil
      · split_ifs at he
        · cases (mem_broadcastExcept.mp he).2.2
        · exact absurd he List.not_mem_nil
    · exact absurd h List.not_mem_nil
  | broadcastPlayerCount =>
    simp only [act, ServerHandler.broadcastPlayerCount, Outcome.sends_sent] at h
    split_ifs at h
    · cases (mem_broadcast.mp h).2
    · exact absurd h List.not_mem_nil
  | interpolate | movePlayer | destroyPlayer | unloadScene | endOfFrame =>
    exact absurd h List.not_mem_nil

theorem result_raised {a : HostAction} {s : ServerHandler} {d : PlayerSendResultData}
    (h : .registerOtherPlayerResult d ∈ (act a s).raised) : s.Publishes d := by
  have hr := raises_act h
  generalize he : Event.registerOtherPlayerResult d = e at hr
  cases hr with
  | result d' _ hd =>
    obtain rfl := Event.registerOtherPlayerResult.inj he
    exact hd
  | finish _ c d' p events _ _ hf hmem =>
    subst he
    obtain ⟨pos, hp | hp⟩ := mem_finishEvents hf hmem <;> nomatch hp
  | count | closed | bomb | results => nomatch he

end HostSession

theorem ClientSession.result_raised {a : ClientAction} {s : ClientHandler} {d : PlayerSendResultData}
    (h : .registerOtherPlayerResult d ∈ (ClientSession.act a s).raised) :
    a = .receive (.sendResult d) := by
  have hr := raises_act h
  generalize he : Event.registerOtherPlayerResult d = e at hr
  cases hr with
  | result d' ha =>
    obtain rfl := Event.registerOtherPlayerResult.inj he
    exact ha
  | finish _ d' p events _ _ hf hmem =>
    subst he
    obtain ⟨pos, hp | hp⟩ := mem_finishEvents hf hmem <;> nomatch hp
  | scene _ n hn =>
    subst he
    rcases hn with hn | hn <;> nomatch hn
  | closed | count | bomb => nomatch he

namespace BoardSession

variable (texts : String × String × String)

/-- Every result that is shown, or on its way to a board, is the one in the table of the host. -/
structure Authentic (s : BoardSession) : Prop where
  shown : ∀ n, ∀ r ∈ s.shown n, s.world.host.handler.PublishesTo n r
  flight : ∀ c r, (c, .sendResult r) ∈ s.world.toClient →
    s.world.host.handler.PublishesTo (some c) r

theorem start_authentic : Authentic start := by
  constructor
  · intro n r h
    obtain ⟨d, hd, -⟩ := mem_shown.mp h
    cases n <;> nomatch hd
  · exact fun _ _ h => absurd h List.not_mem_nil

theorem table_next (s : BoardSession) (a : WorldAction) :
    s.table.ExtendedBy (s.next texts a).table := by
  cases a with
  | host a => exact HostSession.results_extend a s.world.host.handler
  | client | loseToServer | loseToClient => exact Dict.ExtendedBy.refl _

theorem table_run (as bs : List WorldAction) : ((system texts).run start as).table.ExtendedBy
    ((system texts).run start (as ++ bs)).table := by
  rw [System.run_append]
  exact System.run_ascends (R := fun s t : BoardSession => s.table.ExtendedBy t.table)
    (fun s => Dict.ExtendedBy.refl s.table) (fun _ _ _ => Dict.ExtendedBy.trans)
    (table_next texts) _ bs

variable {texts} {s : BoardSession}

theorem shown_host {a : HostAction} {r : PlayerSendResultData}
    (h : r ∈ (s.next texts (.host a)).shown none) :
    r ∈ s.shown none ∨
      .registerOtherPlayerResult r ∈ (HostSession.act a s.world.host.handler).raised := by
  obtain ⟨d, hd, hr⟩ := mem_shown.mp h
  cases a with
  | unloadScene =>
    obtain rfl := Option.some.inj hd
    exact absurd hr List.not_mem_nil
  | _ =>
    obtain ⟨e, he, rfl⟩ := Option.map_eq_some_iff.mp hd
    obtain hraised | hold := ResultsDisplay.of_mem_hears hr
    · exact Or.inr hraised
    · exact Or.inl (mem_shown.mpr ⟨e, he, hold⟩)

theorem shown_client {c : Connection} {a : ClientAction} {r : PlayerSendResultData}
    (h : r ∈ (s.next texts (.client c a)).shown (some c)) :
    r ∈ s.shown (some c) ∨ a = .receive (.sendResult r) := by
  obtain ⟨d, hd, hr⟩ := mem_shown.mp h
  simp only [board, next, boardsAfter, Function.update_self] at hd
  cases a with
  | loadScene scene position =>
    simp only [boardAfter] at hd
    split_ifs at hd
    obtain rfl := Option.some.inj hd
    exact absurd hr List.not_mem_nil
  | _ =>
    obtain ⟨e, he, rfl⟩ := Option.map_eq_some_iff.mp hd
    obtain hraised | hold := ResultsDisplay.of_mem_hears hr
    · exact Or.inr (ClientSession.result_raised hraised)
    · exact Or.inl (mem_shown.mpr ⟨e, he, hold⟩)

theorem shown_other {c d : Connection} (hd : c ≠ d) (a : ClientAction) :
    (s.next texts (.client d a)).shown (some c) = s.shown (some c) := by
  simp only [shown, board, BoardSession.next, boardsAfter, Function.update_of_ne hd]

theorem Authentic.next (h : s.Authentic) {a : WorldAction} (he : s.world.Enabled a) :
    (s.next texts a).Authentic := by
  have hkeep {n : Option Connection} {r : PlayerSendResultData}
      (hr : s.world.host.handler.PublishesTo n r) :
      (s.next texts a).world.host.handler.PublishesTo n r := hr.extended (table_next texts s a)
  constructor
  · intro n r hr
    by_cases hold : r ∈ s.shown n
    · exact hkeep (h.shown n r hold)
    · cases n with
      | none =>
        cases a with
        | host a =>
          have hpub := HostSession.result_raised ((shown_host hr).resolve_left hold)
          exact hkeep ⟨r, hpub, rfl⟩
        | _ => exact absurd hr hold
      | some c =>
        cases a with
        | client d a =>
          by_cases hd : c = d
          · subst hd
            obtain rfl := (shown_client hr).resolve_left hold
            exact hkeep (h.flight c r he.2.2)
          · rw [shown_other hd] at hr
            exact absurd hr hold
        | _ => exact absurd hr hold
  · intro c r hr
    cases a with
    | host a =>
      obtain hr | hr := List.mem_append.mp hr
      · exact hkeep (h.flight c r hr)
      · exact hkeep (HostSession.result_sent hr)
    | client d a => exact hkeep (h.flight c r (World.toClientAfter_subset s.world d a hr))
    | loseToServer => exact hkeep (h.flight c r hr)
    | loseToClient => exact hkeep (h.flight c r (List.mem_of_mem_erase hr))

theorem run_authentic {as : List WorldAction} (hl : (system texts).Legal start as) :
    ((system texts).run start as).Authentic :=
  System.invariant_legal (fun _ _ h he => h.next he) start_authentic hl

/-- Whatever is lost or overtaken on the way: two results of one player that are shown anywhere in a
session, at one node or at two, at one time or later, are the same result, of which the host alone
may show more of the name than fits into a packet. -/
theorem boards_agree {as bs : List WorldAction} (hl : (system texts).Legal start (as ++ bs))
    {n m : Option Connection} {q r : PlayerSendResultData}
    (hq : q ∈ ((system texts).run start as).shown n)
    (hr : r ∈ ((system texts).run start (as ++ bs)).shown m) (hid : q.playerID = r.playerID) :
    q.marshalled = r.marshalled ∧ (n.isSome = m.isSome → q = r) := by
  have hearlier := (System.meets_append _ _ _ as bs).mp hl |>.1
  have hpub := (run_authentic hearlier).shown n q hq
  exact (hpub.extended (table_run texts as bs)).unique ((run_authentic hl).shown m r hr) hid

/-- The host died and client 1 won; both boards show both results. -/
def bothShown : List WorldAction :=
  PhaseSession.countLost ++
    [.host .unloadScene, .host .broadcastResults,
      .client 1 (.receive (.sendResult ⟨1, 1, 2, 2, 2, .playerWon, "guest"⟩)),
      .client 1 (.receive (.sendResult ⟨1, 0, 1, 1, 1, .playerWon, "host"⟩))]

theorem boards_agree_bothShown :
    let s := (system ("1st", "2nd", "3rd")).run start bothShown
    ∃ n m, n ≠ m ∧ ∃ q ∈ s.shown n, ∃ r ∈ s.shown m, q.playerID = r.playerID ∧
      q.marshalled = r.marshalled ∧ (n.isSome = m.isSome → q = r) := by
  intro s
  have hl : (system ("1st", "2nd", "3rd")).Legal start (bothShown ++ []) := by decide +kernel
  have hhost : ⟨1, 0, 1, 1, 1, .playerWon, "host"⟩ ∈ s.shown none := by decide +kernel
  have hclient : ⟨1, 0, 1, 1, 1, .playerWon, "host"⟩ ∈ s.shown (some 1) := by decide +kernel
  exact ⟨none, some 1, by simp, _, hhost, _, hclient, rfl, boards_agree hl hhost hclient rfl⟩

section Genuine

/-- The player's own game handed over this result, up to what the packets cut off its name. -/
def HandedOver (reported : List (UInt32 × PlayerStoredResultData)) (k : UInt32)
    (v : PlayerStoredResultData) : Prop :=
  ∃ w, (k, w) ∈ reported ∧ v.marshalled = w.marshalled

theorem HandedOver.kept {reported later : List (UInt32 × PlayerStoredResultData)} {k : UInt32}
    {v : PlayerStoredResultData} (h : HandedOver reported k v) (hl : reported ⊆ later) :
    HandedOver later k v := by
  obtain ⟨w, hw, hv⟩ := h
  exact ⟨w, hl hw, hv⟩

/-- A stored result, and one on its way to the host, is what the player's own game handed over. -/
structure Genuine (s : BoardSession) : Prop where
  stored : ∀ k v, s.table.lookup k = some v → HandedOver s.reported k v
  flight : ∀ c d, (c, .storePlayerResults d) ∈ s.world.toServer →
    d.playerID = c ∧ HandedOver s.reported c (ServerHandler.storedResult d)

theorem start_genuine : Genuine start := by
  constructor
  · intro k v h
    simp [table, start, World.start, HostSession.start, ServerHandler.hosted] at h
  · exact fun _ _ h => absurd h List.not_mem_nil

theorem reported_kept (s : BoardSession) (a : WorldAction) : s.reported ⊆ s.reportedAfter a := by
  cases a with
  | host a => cases a <;> first | exact List.Subset.refl _ | exact List.subset_cons_self _ _
  | client c a => cases a <;> first | exact List.Subset.refl _ | exact List.subset_cons_self _ _
  | loseToServer | loseToClient => exact List.Subset.refl _

theorem stored_genuine (h : s.Genuine) {a : WorldAction} (he : s.world.Enabled a) {k : UInt32}
    {v : PlayerStoredResultData} (hk : (s.next texts a).table.lookup k = some v) :
    HandedOver (s.reportedAfter a) k v := by
  have hold (hk : s.table.lookup k = some v) : HandedOver (s.reportedAfter a) k v :=
    (h.stored k v hk).kept (reported_kept s a)
  cases a with
  | client | loseToServer | loseToClient => exact hold hk
  | host a =>
    simp only [table, BoardSession.next, World.next, World.hostStep, HostSession.next_handler] at hk
    obtain hs | ⟨r, rfl, -, hs⟩ | ⟨c, d, rfl, -, hs⟩ := HostSession.results_act a s.world.host.handler
    · rw [hs] at hk
      exact hold hk
    · rw [hs] at hk
      by_cases hown : k = serverPlayerID
      · subst hown
        rw [AList.lookup_insert, Option.some.injEq] at hk
        exact ⟨r, List.mem_cons_self, congrArg _ hk.symm⟩
      · rw [AList.lookup_insert_ne hown] at hk
        exact hold hk
    · rw [hs] at hk
      by_cases hid : k = d.playerID
      · subst hid
        rw [AList.lookup_insert, Option.some.injEq] at hk
        obtain ⟨hid, hrep⟩ := h.flight c d he.2
        rw [← hk, hid]
        exact hrep.kept (reported_kept s _)
      · rw [AList.lookup_insert_ne hid] at hk
        exact hold hk

theorem flight_genuine (hi : s.world.Labels) (h : s.Genuine) {a : WorldAction}
    (hr : s.world.ReportsRegistered a) {c : Connection} {d : PlayerSendResultData}
    (hd : (c, .storePlayerResults d) ∈ (s.next texts a).world.toServer) :
    d.playerID = c ∧ HandedOver (s.reportedAfter a) c (ServerHandler.storedResult d) := by
  have hold (hd : (c, .storePlayerResults d) ∈ s.world.toServer) :
      d.playerID = c ∧ HandedOver (s.reportedAfter a) c (ServerHandler.storedResult d) :=
    (h.flight c d hd).imp_right (fun hrep => hrep.kept (reported_kept s a))
  cases a with
  | host a => exact hold (World.toServerAfter_subset s.world a hd)
  | loseToServer => exact hold (List.mem_of_mem_erase hd)
  | loseToClient => exact hold hd
  | client b a =>
    obtain hd | ⟨rfl, hsent⟩ := World.mem_toServer_clientStep hd
    · exact hold hd
    · obtain ⟨r, rfl, hstored, hid⟩ := PhaseSession.result_sent hsent
      have hlabel := hi.ids c
      have hne := hr trivial
      have hown : (s.world.clients c).handler.connectionIDOnServer = c := by
        simpa only [List.mem_cons, hne, List.not_mem_nil, or_false, false_or] using hlabel
      refine ⟨hid.trans hown, r, List.mem_cons_self, ?_⟩
      rw [hstored, PlayerStoredResultData.marshalled_marshalled]

end Genuine

end BoardSession

end SeminarTouhou
