import SeminarTouhou.Network.InOrder
import SeminarTouhou.Network.Traffic

namespace SeminarTouhou

open Library

def Event.isEnd : Event → Bool
  | .playerWin _ _ => true
  | .playerDie _ _ => true
  | _ => false

def Packet.ends (k : UInt32) : Packet → Bool
  | .otherPlayerFinish d => d.playerID = k
  | _ => false

theorem Packet.ends_iff {k : UInt32} {p : Packet} :
    p.ends k = true ↔ ∃ d, p = .otherPlayerFinish d ∧ d.playerID = k := by
  cases p <;> simp [Packet.ends]

theorem finishEvents_ends {context : ResultContext} {obj : Option GameObject} {events : List Event}
    (h : finishEvents context obj = .ok events) : events.countP Event.isEnd ≤ 1 := by
  cases context with
  | playerDisconnected =>
    obtain rfl := Except.ok.inj h
    exact Nat.zero_le 1
  | playerWon | playerDied =>
    cases ho : deref obj with
    | error x => simp [finishEvents, ho, Except.map] at h
    | ok o =>
      simp only [finishEvents, ho, Except.map, Except.ok.injEq] at h
      subst h
      exact le_refl 1

namespace HostSession

open ServerHandler

/-- The end of a player is announced by the step that stores its result, and in the words of that
result. -/
theorem finish_sent {a : HostAction} {s : ServerHandler} {c : Connection} {d : OtherClientFinishState}
    (h : (c, .otherPlayerFinish d) ∈ (act a s).sent) :
    (act a s).sent = s.broadcastExcept d.playerID (.otherPlayerFinish d) ∧
      d.playerID ∉ s.mPlayerResults ∧
      ∃ v, (act a s).state.mPlayerResults.lookup d.playerID = some v ∧
        v.resultContext = d.finishState := by
  have hfinish {t : ServerHandler} (ht : t.connectedClients = s.connectedClients) {k : UInt32}
      {r : ResultContext} (h : (c, .otherPlayerFinish d) ∈ t.sendPlayerFinishToAllOtherClients k r) :
      t.sendPlayerFinishToAllOtherClients k r = s.broadcastExcept d.playerID (.otherPlayerFinish d) ∧
        d.playerID = k ∧ d.finishState = r := by
    unfold sendPlayerFinishToAllOtherClients at h ⊢
    split_ifs at h ⊢
    · obtain ⟨-, -, hp⟩ := mem_broadcastExcept.mp h
      obtain rfl := Packet.otherPlayerFinish.inj hp
      exact ⟨by simp only [broadcastExcept, ht], rfl, rfl⟩
    · exact absurd h List.not_mem_nil
  have htells : Tells a s c (.otherPlayerFinish d) := tells_act h
  cases htells with
  | other p hp => cases hp
  | finish _ hk hk' hc hne =>
    obtain hs | ⟨r, rfl, hown, hs⟩ | ⟨b, e, rfl, hnew, hs⟩ := results_act a s
    · rw [hs] at hk'
      exact absurd hk' hk
    · simp only [act, handleSendPlayerResults, if_neg hown] at h ⊢
      obtain ⟨hsent, hid, hctx⟩ := hfinish rfl h
      refine ⟨hsent, hid ▸ hown, r, ?_, hctx.symm⟩
      rw [hid]
      simp only [Outcome.sends_state, handleGameEndCheck_results, AList.lookup_insert]
    · obtain ⟨hold, -⟩ | ⟨-, ⟨x, hx, -⟩ | ⟨q, events, -, -, hx⟩⟩ := handleReceivePlayerResult_cases e s
      · exact absurd hold hnew
      · rw [act, receive, hx] at h
        exact absurd h List.not_mem_nil
      · rw [act, receive, hx] at h
        obtain ⟨hsent, hid, hctx⟩ := hfinish rfl h
        rw [act, receive, hx]
        refine ⟨hsent, hid ▸ hnew, storedResult e, ?_, hctx.symm⟩
        rw [hid, handleGameEndCheck_results]
        exact AList.lookup_insert _

theorem ends_sent {a : HostAction} {s : ServerHandler} (hn : s.connectedClients.Nodup) (c : Connection)
    (k : UInt32) : (act a s).sent.countP (fun e => e.1 = c ∧ e.2.ends k) ≤ 1 ∧
      (0 < (act a s).sent.countP (fun e => e.1 = c ∧ e.2.ends k) →
        c ≠ k ∧ k ∉ s.mPlayerResults ∧ k ∈ (act a s).state.mPlayerResults) := by
  by_cases hpos : 0 < (act a s).sent.countP (fun e => e.1 = c ∧ e.2.ends k)
  · obtain ⟨⟨b, p⟩, hmem, he⟩ := List.countP_pos_iff.mp hpos
    obtain ⟨rfl, hp⟩ := of_decide_eq_true he
    obtain ⟨d, rfl, rfl⟩ := Packet.ends_iff.mp hp
    obtain ⟨hsent, hnew, v, hv, -⟩ := finish_sent hmem
    refine ⟨?_, fun _ => ⟨?_, hnew, Dict.mem_of_lookup hv⟩⟩
    · rw [hsent, broadcastExcept, List.countP_map]
      calc _ ≤ (s.connectedClients.filter (fun c => c ≠ d.playerID)).count b := by
            rw [List.count]
            apply List.countP_mono_left
            intro x _ hx
            simpa using (of_decide_eq_true hx).1
        _ ≤ 1 := List.nodup_iff_count_le_one.mp (hn.filter _) b
    · rw [hsent] at hmem
      exact (mem_broadcastExcept.mp hmem).2.1
  · exact ⟨by omega, fun h => absurd h hpos⟩

end HostSession

namespace World

/-- How often a step puts up the end of player `k` at node `n`: at the host, or on a connection. -/
def showsEnd (n : Option Connection) (k : UInt32) (w : World) : WorldAction → ℕ
  | .host (.receive b (.storePlayerResults d)) =>
    if n = none ∧ d.playerID = k then
      (HostSession.act (.receive b (.storePlayerResults d)) w.host.handler).raised.countP Event.isEnd
    else 0
  | .client c (.receive (.otherPlayerFinish d)) =>
    if n = some c ∧ d.playerID = k then
      (ClientSession.act (.receive (.otherPlayerFinish d)) (w.clients c).handler).raised.countP
        Event.isEnd
    else 0
  | _ => 0

/-- The end of another player that a client reads of is the one that the host has stored. -/
def TellsTruly (w : World) : WorldAction → Prop
  | .client c (.receive (.otherPlayerFinish d)) => d.playerID ≠ c ∧
    ∃ v, w.host.handler.mPlayerResults.lookup d.playerID = some v ∧ v.resultContext = d.finishState
  | _ => True

section Steps

variable {w : World} {k : UInt32}

theorem showsEnd_host (k : UInt32) (w : World) (a : WorldAction) : w.showsEnd none k a ≤ 1 ∧
    (0 < w.showsEnd none k a →
      k ∉ w.host.handler.mPlayerResults ∧ k ∈ (w.next a).host.handler.mPlayerResults) := by
  by_cases ha : ∃ b d, a = .host (.receive b (.storePlayerResults d)) ∧ d.playerID = k
  · obtain ⟨b, d, rfl, rfl⟩ := ha
    have hread :
        d.playerID ∈ (w.next (.host (.receive b (.storePlayerResults d)))).host.handler.mPlayerResults :=
      HostSession.results_read b d w.host.handler
    simp only [showsEnd, true_and, if_true, HostSession.act, ServerHandler.receive]
    obtain ⟨hold, hs⟩ | ⟨hnew, ⟨e, hs, -⟩ | ⟨q, events, -, hevents, hs⟩⟩ :=
      ServerHandler.handleReceivePlayerResult_cases d w.host.handler
    · rw [hs]
      exact ⟨Nat.zero_le 1, fun h => absurd h (lt_irrefl 0)⟩
    · rw [hs]
      exact ⟨Nat.zero_le 1, fun h => absurd h (lt_irrefl 0)⟩
    · rw [hs]
      exact ⟨finishEvents_ends hevents, fun _ => ⟨hnew, hread⟩⟩
  · have hzero : w.showsEnd none k a = 0 := by
      unfold showsEnd
      split
      · next b d => exact if_neg (fun h => ha ⟨b, d, rfl, h.2⟩)
      · exact if_neg (fun h => absurd h.1 (Option.some_ne_none _).symm)
      · rfl
    rw [hzero]
    exact ⟨Nat.zero_le 1, fun h => absurd h (lt_irrefl 0)⟩

theorem showsEnd_client (c : Connection) (k : UInt32) (w : World) (a : WorldAction) :
    w.showsEnd (some c) k a ≤ w.readAt c (Packet.ends k) a := by
  by_cases ha : ∃ d, a = .client c (.receive (.otherPlayerFinish d)) ∧ d.playerID = k
  · obtain ⟨d, rfl, rfl⟩ := ha
    simp only [showsEnd, readAt, Packet.ends, decide_true, and_self, if_true, ClientSession.act,
      ClientHandler.receive, ClientHandler.handleOtherPlayerFinish]
    split
    · exact Nat.zero_le 1
    · split
      · exact Nat.zero_le 1
      · next he => exact finishEvents_ends he
  · have hzero : w.showsEnd (some c) k a = 0 := by
      unfold showsEnd
      split
      · exact if_neg (fun h => absurd h.1 (Option.some_ne_none _))
      · next b d =>
        apply if_neg
        rintro ⟨hb, hd⟩
        obtain rfl := Option.some.inj hb
        exact ha ⟨d, rfl, hd⟩
      · rfl
    rw [hzero]
    exact Nat.zero_le _

end Steps

/-- The ends under way to clients are those that the host has stored, and none goes to its own player. -/
def EndsTrue (w : World) : Prop := ∀ c d, (c, .otherPlayerFinish d) ∈ w.toClient →
  d.playerID ≠ c ∧
    ∃ v, w.host.handler.mPlayerResults.lookup d.playerID = some v ∧ v.resultContext = d.finishState

theorem EndsTrue.next {w : World} (h : EndsTrue w) (a : WorldAction) : EndsTrue (w.next a) := by
  intro c d hd
  cases a with
  | host a =>
    obtain hd | hd := List.mem_append.mp hd
    · obtain ⟨hne, v, hv, hctx⟩ := h c d hd
      exact ⟨hne, v, HostSession.results_extend a w.host.handler _ v hv, hctx⟩
    · obtain ⟨hsent, -, v, hv, hctx⟩ := HostSession.finish_sent hd
      rw [hsent] at hd
      exact ⟨Ne.symm (ServerHandler.mem_broadcastExcept.mp hd).2.1, v, hv, hctx⟩
  | client b a => exact h c d (toClientAfter_subset w b a hd)
  | loseToServer => exact h c d hd
  | loseToClient => exact h c d (List.mem_of_mem_erase hd)

theorem sentTo_ends {w : World} (h : HostSession.Roster w.host) (c : Connection) (k : UInt32)
    (a : WorldAction) : w.sentTo c (Packet.ends k) a ≤ 1 ∧ (0 < w.sentTo c (Packet.ends k) a →
      c ≠ k ∧ k ∉ w.host.handler.mPlayerResults ∧ k ∈ (w.next a).host.handler.mPlayerResults) := by
  cases a with
  | host a => exact HostSession.ends_sent h.nodup c k
  | client | loseToServer | loseToClient =>
    exact ⟨Nat.zero_le 1, fun hpos => absurd hpos (lt_irrefl 0)⟩

theorem results_next {w : World} {k : UInt32} (a : WorldAction) (hk : k ∈ w.host.handler.mPlayerResults) :
    k ∈ (w.next a).host.handler.mPlayerResults := by
  cases a with
  | host a => exact HostSession.results_kept hk
  | client | loseToServer | loseToClient => exact hk

/-- In a session with losses and in any order: each node puts up the end of each player at most once,
a client that of its own player never, and what a client reads of an end is what the host stored. -/
theorem ends_shown_once {as : List WorldAction} (hl : system.Legal start as) :
    (∀ n k, system.total (showsEnd n k) start as ≤ 1) ∧
      (∀ k, system.total (showsEnd (some k) k) start as = 0) ∧ system.Meets TellsTruly start as := by
  have hkeep : ∀ w a, HostSession.Roster w.host → system.enabled w a →
      HostSession.Roster (system.next w a).host := fun _ _ h he => roster_next h he
  have hroster := HostSession.start_roster
  have hstored : ∀ k (w : World) a, k ∉ (system.next w a).host.handler.mPlayerResults →
      k ∉ w.host.handler.mPlayerResults := fun _ _ a hk hold => hk (results_next a hold)
  have hread (c : Connection) (k : UInt32) : system.total (showsEnd (some c) k) start as ≤
      system.total (sentTo c (Packet.ends k)) start as :=
    (System.total_mono hkeep (fun w a _ _ => showsEnd_client c k w a) hroster hl).trans
      (total_readAt c (Packet.ends k) hl)
  refine ⟨?_, ?_, ?_⟩
  · intro n k
    cases n with
    | none =>
      refine System.total_le_one (fun w : World => k ∉ w.host.handler.mPlayerResults) hkeep
        (fun w a _ _ => hstored k w a) ?_ ?_ hroster hl
      · intro w a _ _ hpos
        obtain ⟨hnew, hold⟩ := (showsEnd_host k w a).2 hpos
        exact ⟨hnew, not_not.mpr hold⟩
      · exact fun w a _ _ => (showsEnd_host k w a).1
    | some c =>
      refine (hread c k).trans ?_
      refine System.total_le_one (fun w : World => k ∉ w.host.handler.mPlayerResults) hkeep
        (fun w a _ _ => hstored k w a) ?_ ?_ hroster hl
      · intro w a h _ hpos
        obtain ⟨-, hnew, hold⟩ := (sentTo_ends h c k a).2 hpos
        exact ⟨hnew, not_not.mpr hold⟩
      · exact fun w a h _ => (sentTo_ends h c k a).1
  · intro k
    have hzero : system.total (sentTo k (Packet.ends k)) start as = 0 := by
      refine System.total_eq_zero hkeep ?_ hroster hl
      intro w a h _
      by_contra hne
      exact ((sentTo_ends h k k a).2 (Nat.pos_of_ne_zero hne)).1 rfl
    have hle := hread k k
    omega
  · refine System.every_legal_step (I := EndsTrue) (fun _ a h _ => h.next a) ?_ ?_ hl
    · intro w a h he
      cases a with
      | client c a =>
        cases a with
        | receive p =>
          cases p with
          | otherPlayerFinish d => exact h c d he.2.2
          | _ => trivial
        | _ => trivial
      | _ => trivial
    · exact fun _ _ h => absurd h List.not_mem_nil

/-- The host dies; one client puts up its grave, the other has yet to hear of it. -/
def hostDies : List WorldAction :=
  twoJoin ++ [.host (.sendPlayerResults ⟨"host", 1, 1, 1, .playerDied⟩),
    .client 1 (.receive (.otherPlayerFinish ⟨1, 0, .playerDied⟩))]

theorem ends_shown_once_hostDies : system.total (showsEnd (some 1) 0) start hostDies = 1 ∧
    (∀ n k, system.total (showsEnd n k) start hostDies ≤ 1) ∧
      (∀ k, system.total (showsEnd (some k) k) start hostDies = 0) ∧
        system.Meets TellsTruly start hostDies :=
  ⟨by decide +kernel, ends_shown_once (by decide +kernel)⟩

end World

end SeminarTouhou
