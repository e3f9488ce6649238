import SeminarTouhou.Network.Announcements

namespace SeminarTouhou

open Library

namespace World

def Player (w : World) (k : UInt32) : Prop := k = serverPlayerID ∨ k ∈ w.accepted

structure Own (w : World) (c : Connection) (s : ClientHandler) : Prop where
  tables : ∀ k ∈ s.mPlayers, w.Player k
  self : c ≠ 0 → c ∈ s.mPlayers → s.connectionIDOnServer = c
  noMirror : c ≠ 0 → ∀ life, s.mPlayers.status c ≠ some (some (.hologram, life))

/-- What a world with losses and in any order keeps about who is who. -/
structure Real (w : World) : Prop where
  roster : HostSession.Roster w.host
  labels : Labels w
  news : News w
  connected : ∀ c ∈ w.host.handler.connectedClients, c ∈ w.accepted
  toClient : ∀ c p, (c, p) ∈ w.toClient → c ∈ w.accepted
  toServer : ∀ c p, (c, p) ∈ w.toServer → ∀ k, p.claimedID = some k → w.Player k
  positions : ∀ c d, (c, .playerData d) ∈ w.toClient → w.Player d.playerID
  ids : ∀ c, w.Player (w.clients c).handler.connectionIDOnServer
  players : ∀ k ∈ w.host.handler.mPlayers, w.Player k
  results : ∀ k ∈ w.host.handler.mPlayerResults, w.Player k
  own : ∀ c, w.Own c (w.clients c).handler

theorem start_real : Real start where
  roster := HostSession.start_roster
  labels := start_labels
  news := fun _ _ h => absurd h List.not_mem_nil
  connected := fun _ h => absurd h List.not_mem_nil
  toClient := fun _ _ h => absurd h List.not_mem_nil
  toServer := fun _ _ h => absurd h List.not_mem_nil
  positions := fun _ _ h => absurd h List.not_mem_nil
  ids := fun _ => Or.inl rfl
  players := fun k h => absurd h (AList.notMem_empty k)
  results := fun k h => absurd h (AList.notMem_empty k)
  own := fun _ => ⟨fun k h => absurd h (AList.notMem_empty k),
    fun _ h => absurd h (AList.notMem_empty _), fun _ _ => nofun⟩

section Steps

variable {w : World} {k : UInt32}

theorem Player.host (h : w.Player k) (a : HostAction) : (w.hostStep a).Player k :=
  h.imp_right (fun hk => subset_acceptedAfter w a hk)

theorem Real.host (h : w.Real) {a : HostAction} (he : w.Enabled (.host a)) : (w.hostStep a).Real := by
  have hkeys : ∀ k ∈ (w.hostStep a).host.handler.mPlayers, (w.hostStep a).Player k := by
    intro k hk
    obtain hk | rfl | rfl | ⟨c, p, rfl, hp⟩ := HostSession.keys_act h.roster.server hk
    · exact (h.players k hk).host a
    · exact Or.inl rfl
    · exact Or.inr List.mem_cons_self
    · exact (h.toServer c p he.2 k hp).host _
  have hopen : ∀ c, (a = .statusCallback .connected c ∨ c ∈ w.host.handler.connectedClients) →
      c ∈ (w.hostStep a).accepted := by
    rintro c (rfl | hc)
    · exact List.mem_cons_self
    · exact subset_acceptedAfter w a (h.connected c hc)
  constructor
  · exact roster_next h.roster he
  · exact h.labels.hostStep a
  · exact h.news.next (.host a)
  · intro c hc
    exact hopen c ((HostSession.clients_next h.roster hc).imp_right And.left)
  · intro c p hp
    obtain hp | hp := List.mem_append.mp hp
    · exact subset_acceptedAfter w a (h.toClient c p hp)
    · have ht : HostSession.Tells a w.host.handler c p := HostSession.tells_act hp
      cases ht with
      | position _ _ _ hc | finish _ _ _ hc | bomb _ _ hc => exact hopen c (Or.inr hc)
      | other _ _ hc => exact hopen c hc
  · intro c p hp k hk
    exact (h.toServer c p (toServerAfter_subset w a hp) k hk).host a
  · intro c d hd
    obtain hd | hd := List.mem_append.mp hd
    · exact (h.positions c d hd).host a
    · have ht : HostSession.Tells a w.host.handler c (.playerData d) := HostSession.tells_act hd
      cases ht with
      | position _ _ hk => exact (h.players _ hk).host a
      | other _ hp => nomatch hp
  · exact fun c => (h.ids c).host a
  · exact hkeys
  · intro k hk
    obtain hs | ⟨r, rfl, -, hs⟩ | ⟨c, d, rfl, -, hs⟩ := HostSession.results_act a w.host.handler
    · have hold : k ∈ w.host.handler.mPlayerResults := by
        rwa [hostStep, HostSession.next_handler, hs] at hk
      exact (h.results k hold).host a
    · rw [hostStep, HostSession.next_handler, hs] at hk
      obtain rfl | hk := (AList.mem_insert _).mp hk
      · exact Or.inl rfl
      · exact (h.results k hk).host _
    · rw [hostStep, HostSession.next_handler, hs] at hk
      obtain rfl | hk := (AList.mem_insert _).mp hk
      · exact (h.toServer c _ he.2 _ rfl).host _
      · exact (h.results k hk).host _
  · exact fun c => ⟨fun k hk => ((h.own c).tables k hk).host a, (h.own c).self, (h.own c).noMirror⟩

theorem Real.ownStep (h : w.Real) {c : Connection} {a : ClientAction} (he : w.Enabled (.client c a)) :
    w.Own c (ClientSession.act a (w.clients c).handler).state := by
  have hc := (enabled_client he).1
  have hid (hk : c ∈ (w.clients c).handler.mPlayers) :
      (ClientSession.act a (w.clients c).handler).state.connectionIDOnServer = c := by
    have hnext := id_next h.labels he ((h.own c).self hc hk)
    simpa only [World.next, clientStep, Function.update_self, ClientSession.next_handler] using hnext
  constructor
  · intro k hk
    have hentry := ClientSession.entry_act a (w.clients c).handler k
    rw [← PlayerTable.status_isSome] at hk
    generalize (ClientSession.act a (w.clients c).handler).state.mPlayers.status k = x at hentry hk
    cases hentry with
    | same => exact (h.own c).tables k (PlayerTable.status_isSome.mp hk)
    | met d hd => exact hd ▸ h.positions c d he.2.2
    | registered d hd =>
      rw [hd, h.labels.registers c d he.2.2]
      exact Or.inr (h.toClient c _ he.2.2)
    | finished d hd hold => exact (h.own c).tables k hold
    | own position hown => exact hown ▸ h.ids c
    | rebuilt position hne hold => exact (h.own c).tables k hold
    | absent => cases hk
    | unloaded scene position hscene y hold => exact (h.own c).tables k (PlayerTable.mem_of_status hold)
    | aged _ kind life life' hold => exact (h.own c).tables k (PlayerTable.mem_of_status hold)
  · intro _ hk
    by_cases hold : c ∈ (w.clients c).handler.mPlayers
    · exact hid hold
    · have hentry := ClientSession.entry_act a (w.clients c).handler c
      rw [← PlayerTable.status_isSome] at hk
      generalize hx : (ClientSession.act a (w.clients c).handler).state.mPlayers.status c = x at hentry hk
      cases hentry with
      | same => exact absurd (PlayerTable.status_isSome.mp hk) hold
      | met d hd => exact absurd (congrArg some hd.symm) (h.news c _ he.2.2)
      | registered d hd =>
        simp only [ClientSession.act, ClientHandler.receive, ClientHandler.handleRegisterPlayerPacket]
        split_ifs <;> exact hd.symm
      | finished d hd hold' => exact absurd hold' hold
      | own position hown =>
        simp only [ClientSession.act, if_true]
        exact hown.symm
      | rebuilt position hne hold' => exact absurd hold' hold
      | absent => cases hk
      | unloaded scene position hscene y hy => exact absurd (PlayerTable.mem_of_status hy) hold
      | aged _ kind life life' hy => exact absurd (PlayerTable.mem_of_status hy) hold
  · intro _ life hlife
    have hentry := ClientSession.entry_act a (w.clients c).handler c
    rw [hlife] at hentry
    generalize hx : some (some (Prefab.hologram, life)) = x at hentry
    cases hentry with
    | same => exact (h.own c).noMirror hc life hx.symm
    | met d hd => exact h.news c _ he.2.2 (congrArg some hd.symm)
    | registered | finished | absent | own => cases hx
    | rebuilt position hne hold => exact hne ((h.own c).self hc hold).symm
    | unloaded scene position hscene y hold =>
      cases y with
      | none => cases hx
      | some y =>
        obtain ⟨kind, life'⟩ := y
        obtain ⟨rfl, -⟩ := Prod.mk.inj (Option.some.inj (Option.some.inj hx))
        exact (h.own c).noMirror hc life' hold
    | aged _ kind life' life'' hold =>
      obtain ⟨rfl, -⟩ := Prod.mk.inj (Option.some.inj (Option.some.inj hx))
      exact (h.own c).noMirror hc life' hold

theorem Real.client (h : w.Real) {c : Connection} {a : ClientAction} (he : w.Enabled (.client c a)) :
    (w.clientStep c a).Real := by
  have hown := h.ownStep he
  constructor
  · exact h.roster
  · exact h.labels.clientStep he
  · exact h.news.next (.client c a)
  · exact h.connected
  · exact fun d p hp => h.toClient d p (toClientAfter_subset w c a hp)
  · intro d p hp k hk
    obtain hp | ⟨rfl, hsent⟩ := mem_toServer_clientStep hp
    · exact h.toServer d p hp k hk
    · have hclaim := (ClientSession.sent_claimedID hsent).2
      rw [hclaim, Option.some.injEq] at hk
      exact hk ▸ h.ids d
  · exact fun d p hp => h.positions d p (toClientAfter_subset w c a hp)
  · intro d
    by_cases hd : d = c
    · subst hd
      simp only [clientStep, Function.update_self, ClientSession.next_handler]
      obtain hid | ⟨r, rfl, hid⟩ := ClientSession.id_act a (w.clients d).handler
      · rw [hid]
        exact h.ids d
      · rw [hid, h.labels.registers d r he.2.2]
        exact Or.inr (h.toClient d _ he.2.2)
    · simp only [clientStep, Function.update_of_ne hd]
      exact h.ids d
  · exact h.players
  · exact h.results
  · intro d
    by_cases hd : d = c
    · subst hd
      simp only [clientStep, Function.update_self, ClientSession.next_handler]
      exact ⟨hown.tables, hown.self, hown.noMirror⟩
    · simp only [clientStep, Function.update_of_ne hd]
      exact ⟨(h.own d).tables, (h.own d).self, (h.own d).noMirror⟩

theorem Real.next (h : w.Real) {a : WorldAction} (he : w.Enabled a) : (w.next a).Real := by
  have hlabels := h.labels.next he
  have hnews := h.news.next a
  have hown (v : World) (hv : v.accepted = w.accepted) (c : Connection) : v.Own c (w.clients c).handler :=
    ⟨fun k hk => ((h.own c).tables k hk).imp_right (hv ▸ ·), (h.own c).self, (h.own c).noMirror⟩
  cases a with
  | host a => exact h.host he
  | client c a => exact h.client he
  | loseToServer e =>
    exact ⟨h.roster, hlabels, hnews, h.connected, h.toClient,
      fun c p hp => h.toServer c p (List.mem_of_mem_erase hp), h.positions, h.ids, h.players, h.results,
      hown _ rfl⟩
  | loseToClient e =>
    exact ⟨h.roster, hlabels, hnews, h.connected,
      fun c p hp => h.toClient c p (List.mem_of_mem_erase hp), h.toServer,
      fun c d hd => h.positions c d (List.mem_of_mem_erase hd), h.ids, h.players, h.results, hown _ rfl⟩

end Steps

/-- Whatever is lost or overtaken: every player that any node knows, or that has a result, is the host
or a connection that the host accepted, and no client ever has a hologram of itself. -/
theorem players_real {as : List WorldAction} (hl : system.Legal start as) :
    let w := system.run start as
    (∀ k ∈ w.host.handler.mPlayers, k = serverPlayerID ∨ k ∈ w.accepted) ∧
      (∀ k ∈ w.host.handler.mPlayerResults, k = serverPlayerID ∨ k ∈ w.accepted) ∧
      (∀ c, ∀ k ∈ (w.clients c).handler.mPlayers, k = serverPlayerID ∨ k ∈ w.accepted) ∧
      ∀ c, c ≠ 0 → ∀ life, (w.clients c).handler.mPlayers.status c ≠ some (some (.hologram, life)) := by
  have h : Real (system.run start as) :=
    System.invariant_legal (fun _ _ h he => h.next he) start_real hl
  exact ⟨h.players, h.results, fun c => (h.own c).tables, fun c => (h.own c).noMirror⟩

/-- The registration of client 5 is lost: it plays as the host, but no third player appears. -/
theorem players_real_lostRegistration :
    let w := system.run start lostRegistration
    (∀ k ∈ w.host.handler.mPlayers, k = serverPlayerID ∨ k ∈ w.accepted) ∧
      (∀ k ∈ w.host.handler.mPlayerResults, k = serverPlayerID ∨ k ∈ w.accepted) ∧
      (∀ c, ∀ k ∈ (w.clients c).handler.mPlayers, k = serverPlayerID ∨ k ∈ w.accepted) ∧
      ∀ c, c ≠ 0 → ∀ life, (w.clients c).handler.mPlayers.status c ≠ some (some (.hologram, life)) :=
  players_real (by decide +kernel)

end World

end SeminarTouhou
