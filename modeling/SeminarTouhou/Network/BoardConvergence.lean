import SeminarTouhou.Network.BoardAgreement

namespace SeminarTouhou

open Library

def Packet.isSendResult : Packet → Bool
  | .sendResult _ => true
  | _ => false

namespace BoardSession

variable (texts : String × String × String)

/-- The node shows its board and, if it is a client, is connected. -/
def Watches (s : BoardSession) : Option Connection → Prop
  | none => s.hostBoard.isSome
  | some c => (s.boards c).isSome ∧ c ∈ s.world.host.handler.connectedClients

instance (s : BoardSession) (n : Option Connection) : Decidable (s.Watches n) := by
  cases n <;> dsimp only [Watches] <;> infer_instance

/-- The node stays on its results screen, and no result is lost on the way to it. -/
def Stays (n : Option Connection) : WorldAction → Prop
  | .host .unloadScene => n ≠ none
  | .client c (.loadScene _ _) => n ≠ some c
  | .loseToClient (c, .sendResult _) => n ≠ some c
  | _ => True

instance (n : Option Connection) (a : WorldAction) : Decidable (Stays n a) := by
  rcases a with ⟨_ | _⟩ | ⟨_, _ | _⟩ | _ | ⟨_, _ | _⟩ <;> dsimp only [Stays] <;> infer_instance

def Drained (s : BoardSession) (n : Option Connection) : Prop :=
  ∀ e ∈ s.world.toClient, some e.1 = n → e.2.isSendResult = false

instance (s : BoardSession) (n : Option Connection) : Decidable (s.Drained n) :=
  inferInstanceAs (Decidable (∀ e ∈ s.world.toClient, _))

def heard (s : BoardSession) (n : Option Connection) : WorldAction → List Event
  | .host a => if n = none then (HostSession.act a s.world.host.handler).raised else []
  | .client c a =>
    if n = some c then (ClientSession.act a (s.world.clients c).handler).raised else []
  | _ => []

structure Boards (s : BoardSession) : Prop where
  roster : HostSession.Roster s.world.host
  authentic : s.Authentic
  consistent : ∀ n d, s.board n = some d → d.Consistent

section Steps

variable {texts} {s : BoardSession}

theorem board_next {n : Option Connection} {a : WorldAction} (h : Stays n a) :
    (s.next texts a).board n = (s.board n).map (.hears (s.heard n a)) := by
  have hsame : (s.board n).map (.hears []) = s.board n := by
    cases s.board n <;> rfl
  cases a with
  | host a =>
    cases n with
    | none =>
      cases a with
      | unloadScene => exact absurd rfl h
      | _ => rfl
    | some c => exact hsame.symm
  | client c a =>
    by_cases hn : n = some c
    · subst hn
      simp only [board, heard, if_true, BoardSession.next, boardsAfter, Function.update_self]
      cases a with
      | loadScene scene position => exact absurd rfl h
      | _ => rfl
    · rw [heard, if_neg hn, hsame]
      cases n with
      | none => rfl
      | some d =>
        have hd : d ≠ c := fun hd => hn (congrArg some hd)
        simp only [board, BoardSession.next, boardsAfter, Function.update_of_ne hd]
  | loseToServer | loseToClient => exact hsame.symm

theorem isOpen_run {n : Option Connection} {bs : List WorldAction} (hs : ∀ b ∈ bs, Stays n b) :
    (((system texts).run s bs).board n).isSome = (s.board n).isSome := by
  induction bs generalizing s with
  | nil => rfl
  | cons b bs ih =>
    have hstep : (s.next texts b).board n = (s.board n).map (.hears (s.heard n b)) :=
      board_next (hs b List.mem_cons_self)
    rw [System.run_cons, ih (fun c hc => hs c (List.mem_cons_of_mem b hc))]
    exact (congrArg Option.isSome hstep).trans Option.isSome_map

theorem board_fresh {n : Option Connection} {a : WorldAction} {d : ResultsDisplay}
    (h : (s.next texts a).board n = some d) :
    d = emptyBoard texts ∨ ∃ e events, s.board n = some e ∧ d = e.hears events := by
  have hold (hs : Stays n a) : ∃ e events, s.board n = some e ∧ d = e.hears events := by
    rw [board_next hs] at h
    obtain ⟨e, he, hd⟩ := Option.map_eq_some_iff.mp h
    exact ⟨e, _, he, hd.symm⟩
  by_cases hs : Stays n a
  · exact Or.inr (hold hs)
  cases a with
  | host a =>
    cases a with
    | unloadScene =>
      obtain rfl := not_not.mp hs
      exact Or.inl (Option.some.inj h).symm
    | _ => exact absurd trivial hs
  | client c a =>
    cases a with
    | loadScene scene position =>
      obtain rfl := not_not.mp hs
      simp only [board, BoardSession.next, boardsAfter, Function.update_self, boardAfter] at h
      split_ifs at h
      exact Or.inl (Option.some.inj h).symm
    | _ => exact absurd trivial hs
  | loseToServer => exact absurd trivial hs
  | loseToClient e => exact Or.inr ⟨d, [], h, rfl⟩

theorem start_boards : Boards start := by
  refine ⟨HostSession.start_roster, start_authentic, ?_⟩
  intro n d h
  cases n <;> nomatch h

theorem Boards.next (h : s.Boards) {a : WorldAction} (he : s.world.Enabled a) :
    (s.next texts a).Boards := by
  refine ⟨World.roster_next h.roster he, h.authentic.next he, ?_⟩
  intro n d hd
  obtain rfl | ⟨e, events, hold, rfl⟩ := board_fresh hd
  · exact ResultsDisplay.start_consistent _ _ _
  · exact (h.consistent n e hold).hears events

theorem run_boards {as : List WorldAction} (hl : (system texts).Legal start as) :
    ((system texts).run start as).Boards :=
  System.invariant_legal (fun _ _ h he => h.next he) start_boards hl

theorem shown_of_heard (h : s.Boards) {n : Option Connection} {a : WorldAction}
    (he : s.world.Enabled a) (hs : Stays n a) (hopen : (s.board n).isSome)
    {r : PlayerSendResultData} (hr : .registerOtherPlayerResult r ∈ s.heard n a)
    (hpub : s.world.host.handler.PublishesTo n r) : r ∈ (s.next texts a).shown n := by
  obtain ⟨d, hd⟩ := Option.isSome_iff_exists.mp hopen
  obtain ⟨q, hq, hid⟩ := ResultsDisplay.hears_shows hr (h.consistent n d hd)
  have hshown : q ∈ (s.next texts a).shown n := by
    apply mem_shown.mpr
    exact ⟨_, by rw [board_next hs, hd, Option.map_some], hq⟩
  have hqpub := (h.authentic.next he).shown n q hshown
  rwa [← (hqpub.unique (hpub.extended (table_next texts s a)) hid).2 rfl]

structure Due (s : BoardSession) (n : Option Connection) (r : PlayerSendResultData) : Prop where
  isOpen : (s.board n).isSome
  published : s.world.host.handler.Publishes r
  coming : r.shownAt n ∈ s.shown n ∨
    ∃ c, n = some c ∧ (c, .sendResult r.marshalled) ∈ s.world.toClient

theorem Due.next {n : Option Connection} {r : PlayerSendResultData} (hd : s.Due n r) (h : s.Boards)
    {a : WorldAction} (he : s.world.Enabled a) (hs : Stays n a) : (s.next texts a).Due n r := by
  refine ⟨?_, hd.published.extended (table_next texts s a), ?_⟩
  · rw [board_next hs, Option.isSome_map]
    exact hd.isOpen
  obtain hshown | ⟨c, rfl, hflight⟩ := hd.coming
  · left
    obtain ⟨d, hboard, hr⟩ := mem_shown.mp hshown
    apply mem_shown.mpr
    exact ⟨_, by rw [board_next hs, hboard, Option.map_some], ResultsDisplay.hears_keeps _ hr⟩
  · cases a with
    | host a => exact Or.inr ⟨c, rfl, List.mem_append_left _ hflight⟩
    | loseToServer e => exact Or.inr ⟨c, rfl, hflight⟩
    | loseToClient e =>
      have hne : (c, .sendResult r.marshalled) ≠ e := by
        rintro rfl
        exact hs rfl
      exact Or.inr ⟨c, rfl, (List.mem_erase_of_ne hne).mpr hflight⟩
    | client b a =>
      by_cases hread : b = c ∧ a = .receive (.sendResult r.marshalled)
      · obtain ⟨rfl, rfl⟩ := hread
        left
        refine shown_of_heard h he hs hd.isOpen ?_ ⟨r, hd.published, rfl⟩
        rw [heard, if_pos rfl]
        exact List.mem_singleton_self _
      · exact Or.inr ⟨c, rfl, World.mem_toClientAfter hflight hread⟩

theorem Watches.isOpen {n : Option Connection} (h : s.Watches n) : (s.board n).isSome := by
  cases n with
  | none => exact h
  | some c => exact h.1

theorem Due.broadcast {n : Option Connection} {r : PlayerSendResultData} (h : s.Boards)
    (he : s.world.Enabled (.host .broadcastResults)) (hn : s.Watches n)
    (hr : s.world.host.handler.Publishes r) :
    (s.next texts (.host .broadcastResults)).Due n r := by
  have hs : Stays n (.host .broadcastResults) := trivial
  have hopen := hn.isOpen
  have hserver := h.roster.server
  refine ⟨?_, hr.extended (table_next texts s _), ?_⟩
  · rwa [board_next hs, Option.isSome_map]
  cases n with
  | none =>
    left
    refine shown_of_heard h he hs hopen ?_ ⟨r, hr, rfl⟩
    simp only [heard, if_true, HostSession.act, ServerHandler.broadcastResults, hserver]
    exact List.mem_map_of_mem (ServerHandler.mem_results.mpr hr)
  | some c =>
    refine Or.inr ⟨c, rfl, List.mem_append_right _ ?_⟩
    simp only [HostSession.act, ServerHandler.broadcastResults, hserver, if_true]
    apply List.mem_flatMap.mpr
    exact ⟨r, ServerHandler.mem_results.mpr hr, ServerHandler.mem_broadcast.mpr ⟨hn.2, rfl⟩⟩

theorem Due.run {n : Option Connection} {r : PlayerSendResultData} (hd : s.Due n r) (h : s.Boards)
    {bs : List WorldAction} (hl : (system texts).Legal s bs) (hs : ∀ b ∈ bs, Stays n b) :
    ((system texts).run s bs).Due n r := by
  induction bs generalizing s with
  | nil => exact hd
  | cons b bs ih =>
    obtain ⟨he, hl⟩ := (System.legal_cons _ s b bs).mp hl
    have hnext : (s.next texts b).Due n r := hd.next h he (hs b List.mem_cons_self)
    exact ih hnext (h.next he) hl (fun c hc => hs c (List.mem_cons_of_mem b hc))

end Steps

variable {texts}

/-- A node that had its board open and was connected when the results were broadcast, that stays
there and has read what was sent to it, shows exactly the table of the host, by falling score. -/
theorem boards_complete {as bs : List WorldAction} {n : Option Connection}
    (hl : (system texts).Legal start (as ++ .host .broadcastResults :: bs))
    (hn : ((system texts).run start as).Watches n) (hs : ∀ b ∈ bs, Stays n b)
    (hkept : ((system texts).run start (as ++ .host .broadcastResults :: bs)).table.keys ⊆
      ((system texts).run start as).table.keys)
    (hread : ((system texts).run start (as ++ .host .broadcastResults :: bs)).Drained n) :
    let s := (system texts).run start (as ++ .host .broadcastResults :: bs)
    (s.shown n).Perm
        (s.table.entries.map (fun e => (ServerHandler.resultPacket e.1 e.2).shownAt n)) ∧
      (s.shown n).Pairwise (fun q r => r.score ≤ q.score) := by
  intro s
  obtain ⟨hbefore, hafter⟩ := (System.meets_append _ _ _ _ _).mp hl
  obtain ⟨he, hlater⟩ := (System.legal_cons _ _ _ bs).mp hafter
  have hboards : ((system texts).run start as).Boards := run_boards hbefore
  have hall : s.Boards := run_boards hl
  have hext : ((system texts).run start as).table.ExtendedBy s.table := table_run texts as _
  have hmem : ∀ r, s.world.host.handler.Publishes r → r.shownAt n ∈ s.shown n := by
    intro r hr
    have hold : ((system texts).run start as).world.host.handler.Publishes r := by
      have hkey := hkept (AList.mem_keys.mp (Dict.mem_of_lookup hr.choose_spec.1))
      obtain ⟨v, hv⟩ := Dict.exists_lookup (AList.mem_keys.mpr hkey)
      have hold : ((system texts).run start as).world.host.handler.Publishes
          (ServerHandler.resultPacket r.playerID v) := ⟨v, hv, rfl⟩
      rwa [← (hold.extended hext).unique hr rfl]
    have hdue : s.Due n r := by
      change ((system texts).run start _).Due n r
      rw [System.run_append]
      exact (Due.broadcast hboards he hn hold).run (hboards.next he) hlater hs
    obtain hshown | ⟨c, rfl, hflight⟩ := hdue.coming
    · exact hshown
    · nomatch hread _ hflight rfl
  have hopen : (s.board n).isSome := by
    have hstay : ∀ b ∈ .host .broadcastResults :: bs, Stays n b :=
      List.forall_mem_cons.mpr ⟨trivial, hs⟩
    change (((system texts).run start _).board n).isSome
    rw [System.run_append, isOpen_run hstay]
    exact hn.isOpen
  obtain ⟨d, hd⟩ := Option.isSome_iff_exists.mp hopen
  have hcons := hall.consistent n d hd
  have hshown : s.shown n = d.results := by
    rw [shown, hd]
    rfl
  refine ⟨?_, hshown ▸ hcons.ranked⟩
  apply (List.perm_ext_iff_of_nodup ?_ ?_).mpr
  · intro r
    refine Iff.trans ⟨hall.authentic.shown n r, ?_⟩ ServerHandler.mem_resultsAt.symm
    rintro ⟨d, hd, rfl⟩
    exact hmem d hd
  · rw [hshown]
    exact hcons.nodup.of_map
  · apply List.Nodup.of_map (fun r : PlayerSendResultData => r.playerID)
    have hids : (s.table.entries.map
        (fun e => (ServerHandler.resultPacket e.1 e.2).shownAt n)).map (fun r => r.playerID) =
          s.table.keys := by
      rw [List.map_map]
      exact List.map_congr_left (fun e _ => PlayerSendResultData.shownAt_playerID n _)
    rw [hids]
    exact s.table.keys_nodup

/-- Client 1 reads both results of a broadcast, the one of the host last. -/
theorem boards_complete_bothShown :
    let s := (system ("1st", "2nd", "3rd")).run start bothShown
    (s.shown (some 1)).Perm
        (s.table.entries.map (fun e => (ServerHandler.resultPacket e.1 e.2).marshalled)) ∧
      (s.shown (some 1)).Pairwise (fun q r => r.score ≤ q.score) := by
  have hl : (system ("1st", "2nd", "3rd")).Legal start
      ((PhaseSession.countLost ++ [.host .unloadScene]) ++ .host .broadcastResults ::
        [.client 1 (.receive (.sendResult ⟨1, 1, 2, 2, 2, .playerWon, "guest"⟩)),
          .client 1 (.receive (.sendResult ⟨1, 0, 1, 1, 1, .playerWon, "host"⟩))]) := by
    decide +kernel
  exact boards_complete (n := some 1) hl (by decide +kernel) (by decide +kernel) (by decide +kernel)
    (by decide +kernel)

end BoardSession

end SeminarTouhou
