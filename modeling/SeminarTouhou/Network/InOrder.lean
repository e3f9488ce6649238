import SeminarTouhou.Network.ClientSurvival
import SeminarTouhou.Network.RosterLaws

namespace SeminarTouhou

open Library

structure ClientSession.Fresh (s : ClientSession) : Prop where
  table : ∀ k, k ∉ s.handler.mPlayers
  scene : s.scene ≠ 4
  pending : 4 ∉ s.pending
  phase : s.handler.mGameState ≠ .gameStarted

theorem ClientSession.start_fresh : Fresh ClientSession.start := by
  constructor <;> simp [ClientSession.start, ClientHandler.joining, AList.notMem_empty]

theorem ClientSession.Fresh.next {s : ClientSession} (h : Fresh s) {a : ClientAction} (he : s.Enabled a)
    (ha : ∀ p, a ≠ .receive p) : Fresh (s.next a) := by
  have hlevel : ∀ position, a ≠ .loadScene 4 position := by
    rintro position rfl
    exact h.pending he
  constructor
  · intro k hk
    have hold : s.handler.mPlayers.status k = none := by
      simp [PlayerTable.status, AList.lookup_eq_none.mpr (h.table k)]
    have hentry := ClientSession.entry_act a s.handler k
    rw [ClientSession.next_handler, ← PlayerTable.status_isSome] at hk
    generalize (ClientSession.act a s.handler).state.mPlayers.status k = x at hentry hk
    cases hentry with
    | same => simp [hold] at hk
    | met | registered | finished => exact ha _ rfl
    | own position | rebuilt position => exact hlevel position rfl
    | absent => simp at hk
    | unloaded scene position hscene x hx => cases hold.symm.trans hx
    | aged _ kind life life' hx => cases hold.symm.trans hx
  · cases a with
    | loadScene scene position =>
      intro hs
      exact h.pending (show 4 ∈ s.pending from (show scene = 4 from hs) ▸ he)
    | _ => exact h.scene
  · intro hp
    obtain hp | hp := List.mem_append.mp hp
    · cases a with
      | loadScene scene position => exact h.pending (List.mem_of_mem_erase hp)
      | _ => exact h.pending hp
    · obtain ⟨room, rfl⟩ := ClientSession.level_requested hp
      exact ha _ rfl
  · intro hg
    obtain hg | ⟨position, rfl⟩ := ClientSession.started_act hg
    · exact h.phase hg
    · exact hlevel position rfl

namespace World

/-- Over a reliable transport every packet arrives, and an open connection delivers them in the
order in which they were sent. -/
def EnabledInOrder (w : World) : WorldAction → Prop
  | .host (.receive c p) => w.Enabled (.host (.receive c p)) ∧
    c ∈ w.host.handler.connectedClients ∧ (channel c w.toServer).head? = some p
  | .client c (.receive p) => w.Enabled (.client c (.receive p)) ∧
    (channel c w.toClient).head? = some p
  | .loseToServer _ => False
  | .loseToClient _ => False
  | a => w.Enabled a

instance (w : World) (a : WorldAction) : Decidable (w.EnabledInOrder a) := by
  rcases a with ⟨_ | _⟩ | ⟨_, _ | _⟩ | _ <;> dsimp only [EnabledInOrder] <;> infer_instance

theorem enabled_of_inOrder {w : World} {a : WorldAction} (he : w.EnabledInOrder a) : w.Enabled a := by
  cases a with
  | host a =>
    cases a with
    | receive c p => exact he.1
    | _ => exact he
  | client c a =>
    cases a with
    | receive p => exact he.1
    | _ => exact he
  | loseToServer | loseToClient => exact he.elim

def Registers (w : World) (c : Connection) : Prop :=
  (w.clients c).handler.connectionIDOnServer = c ∨ (w.clients c).Fresh ∧
    (c ∉ w.accepted ∨ ∃ q, channel c w.toClient = .registerPlayer ⟨roomID, c⟩ :: q)

structure Sequenced (w : World) : Prop where
  roster : HostSession.Roster w.host
  labels : Labels w
  news : News w
  signed : Signed w
  accepted : ∀ c ∈ w.host.handler.connectedClients, c ∈ w.accepted
  keys : ∀ k ∈ w.host.handler.mPlayers, k = serverPlayerID ∨ k ∈ w.accepted
  silent : ∀ c, c ∉ w.accepted → channel c w.toClient = []
  registers : ∀ c, c ≠ 0 → w.Registers c
  figures : ∀ c, c ≠ 0 → ∀ k kind life,
    (w.clients c).handler.mPlayers.status k = some (some (kind, life)) → (kind = .player ↔ k = c)

theorem start_sequenced : start.Sequenced where
  roster := HostSession.start_roster
  labels := start_labels
  news := fun _ _ h => absurd h List.not_mem_nil
  signed := fun _ _ h => absurd h List.not_mem_nil
  accepted := fun _ h => absurd h List.not_mem_nil
  keys := fun k h => absurd h (AList.notMem_empty k)
  silent := fun _ _ => rfl
  registers := fun _ _ => Or.inr ⟨ClientSession.start_fresh, Or.inl List.not_mem_nil⟩
  figures := fun _ _ _ _ _ h => nomatch h

section Steps

variable {w : World}

theorem Sequenced.reports (h : w.Sequenced) {c : Connection} {a : ClientAction}
    (he : w.Enabled (.client c a)) (hr : ClientSession.Reports a) :
    (w.clients c).handler.connectionIDOnServer = c := by
  obtain hid | ⟨hfresh, -⟩ := h.registers c (enabled_client he).1
  · exact hid
  · cases a with
    | sendPlayerData => exact absurd he.2.1 hfresh.phase
    | sendPlayerResults r => exact absurd he.2 hfresh.scene
    | fireOffensiveBomb pos => exact absurd he.2 hfresh.scene
    | _ => exact hr.elim

theorem Sequenced.level (h : w.Sequenced) {c : Connection} {position : Vector3}
    (he : w.Enabled (.client c (.loadScene 4 position))) :
    (w.clients c).handler.connectionIDOnServer = c := by
  obtain hid | ⟨hfresh, -⟩ := h.registers c he.1
  · exact hid
  · exact absurd he.2 hfresh.pending

theorem Sequenced.reportsRegistered (h : w.Sequenced) {a : WorldAction} (he : w.Enabled a) :
    w.ReportsRegistered a := by
  cases a with
  | client c a =>
    intro hr
    rw [h.reports he hr]
    exact (enabled_client he).1
  | _ => trivial

theorem Sequenced.id_of_read (h : w.Sequenced) {c : Connection} {p : Packet}
    (he : w.EnabledInOrder (.client c (.receive p))) :
    (w.clients c).handler.connectionIDOnServer = c ∨ p = .registerPlayer ⟨roomID, c⟩ := by
  obtain hid | ⟨-, hnew | ⟨q, hq⟩⟩ := h.registers c he.1.1
  · exact Or.inl hid
  · have hhead : (channel c w.toClient).head? = some p := he.2
    rw [h.silent c hnew] at hhead
    nomatch hhead
  · have hhead : (channel c w.toClient).head? = some p := he.2
    rw [hq, List.head?_cons, Option.some.injEq] at hhead
    exact Or.inr hhead.symm

theorem channel_sent_nil {a : HostAction} {t : ServerHandler} {c : Connection}
    (ha : a ≠ .statusCallback .connected c) (hc : c ∉ t.connectedClients) :
    channel c (HostSession.act a t).sent = [] := by
  rw [channel_eq_nil]
  rintro ⟨d, p⟩ he rfl
  have ht : HostSession.Tells a t d p := HostSession.tells_act he
  cases ht with
  | position _ _ _ hd | finish _ _ _ hd | bomb _ _ hd => exact hc hd
  | other _ _ hd =>
    obtain hd | hd := hd
    · exact ha hd
    · exact hc hd

theorem registers_host (h : w.Sequenced) {a : HostAction} {c : Connection} (hc : c ≠ 0) :
    (w.hostStep a).Registers c := by
  obtain hid | ⟨hfresh, hq⟩ := h.registers c hc
  · exact Or.inl hid
  · refine Or.inr ⟨hfresh, ?_⟩
    obtain hnew | ⟨q, hq⟩ := hq
    · by_cases ha : a = .statusCallback .connected c
      · subst ha
        right
        have hkey : c ∉ w.host.handler.mPlayers := by
          intro hk
          obtain h0 | hacc := h.keys c hk
          · exact hc h0
          · exact hnew hacc
        refine ⟨[], ?_⟩
        simp only [hostStep, channel_append, h.silent c hnew, HostSession.act,
          ServerHandler.serverStatusCallback, ServerHandler.handlePlayerJoining, if_neg hkey]
        rw [channel_cons_self]
        rfl
      · left
        intro hacc
        cases a with
        | statusCallback state d =>
          cases state with
          | connected =>
            obtain rfl | hacc := List.mem_cons.mp hacc
            · exact ha rfl
            · exact hnew hacc
          | closedByPeer | problemDetectedLocally => exact hnew hacc
        | _ => exact hnew hacc
    · refine Or.inr ⟨q ++ channel c (HostSession.act a w.host.handler).sent, ?_⟩
      simp only [hostStep, channel_append, hq, List.cons_append]

theorem registers_client (h : w.Sequenced) {d : Connection} {a : ClientAction}
    (he : w.EnabledInOrder (.client d a)) {c : Connection} (hc : c ≠ 0) :
    (w.clientStep d a).Registers c := by
  have hw := enabled_of_inOrder he
  obtain hid | ⟨hfresh, hq⟩ := h.registers c hc
  · exact Or.inl (id_next h.labels hw hid)
  · by_cases hcd : c = d
    · subst hcd
      by_cases ha : ∃ p, a = .receive p
      · obtain ⟨p, rfl⟩ := ha
        obtain hid | rfl := h.id_of_read he
        · exact Or.inl (id_next h.labels hw hid)
        · left
          simp only [clientStep, Function.update_self, ClientSession.next_handler, ClientSession.act,
            ClientHandler.receive, ClientHandler.handleRegisterPlayerPacket]
          split_ifs <;> rfl
      · rw [not_exists] at ha
        right
        have hnext : ((w.clients c).next a).Fresh := hfresh.next (enabled_client hw).2 ha
        refine ⟨by simpa only [clientStep, Function.update_self] using hnext, ?_⟩
        cases a with
        | receive p => exact absurd rfl (ha p)
        | _ => exact hq
    · right
      refine ⟨by simpa only [clientStep, Function.update_of_ne hcd] using hfresh, ?_⟩
      cases a with
      | receive p =>
        simp only [clientStep, toClientAfter, channel_erase_ne (Ne.symm hcd)]
        exact hq
      | _ => exact hq

theorem keys_host (h : w.Sequenced) {a : HostAction} (he : w.EnabledInOrder (.host a)) {k : UInt32}
    (hk : k ∈ (w.hostStep a).host.handler.mPlayers) :
    k = serverPlayerID ∨ k ∈ (w.hostStep a).accepted := by
  obtain hk | h0 | rfl | ⟨c, p, rfl, hp⟩ := HostSession.keys_act h.roster.server hk
  · exact (h.keys k hk).imp_right (fun hacc => subset_acceptedAfter w a hacc)
  · exact Or.inl h0
  · exact Or.inr List.mem_cons_self
  · obtain ⟨⟨-, hmem⟩, hopen, -⟩ := he
    have hid := h.signed c p hmem
    rw [hp] at hid
    obtain rfl : k = c := by simpa using hid
    exact Or.inr (h.accepted k hopen)

theorem figures_client (h : w.Sequenced) {c : Connection} {a : ClientAction}
    (he : w.EnabledInOrder (.client c a)) {k : UInt32} {kind : Prefab} {life : Life}
    (hs : (ClientSession.act a (w.clients c).handler).state.mPlayers.status k =
      some (some (kind, life))) : kind = .player ↔ k = c := by
  have hw := enabled_of_inOrder he
  have hc := (enabled_client hw).1
  have hentry := ClientSession.entry_act a (w.clients c).handler k
  rw [hs] at hentry
  generalize hx : some (some (kind, life)) = x at hentry
  cases hentry with
  | same => exact h.figures c hc k kind life hx.symm
  | met d hd =>
    obtain ⟨rfl, -⟩ := Prod.mk.inj (Option.some.inj (Option.some.inj hx))
    refine iff_of_false nofun ?_
    rintro rfl
    exact h.news k _ hw.2.2 (congrArg some hd.symm)
  | registered | finished | absent => nomatch hx
  | own position hown =>
    obtain ⟨rfl, -⟩ := Prod.mk.inj (Option.some.inj (Option.some.inj hx))
    exact iff_of_true rfl (hown.trans (h.level hw))
  | rebuilt position hne =>
    obtain ⟨rfl, -⟩ := Prod.mk.inj (Option.some.inj (Option.some.inj hx))
    exact iff_of_false nofun (fun hk => hne (hk.trans (h.level hw).symm))
  | unloaded scene position hscene y hold =>
    cases y with
    | none => nomatch hx
    | some y =>
      obtain ⟨rfl, -⟩ := Prod.mk.inj (Option.some.inj (Option.some.inj hx))
      exact h.figures c hc k y.1 y.2 hold
  | aged _ kind' life' life'' hold =>
    obtain ⟨rfl, -⟩ := Prod.mk.inj (Option.some.inj (Option.some.inj hx))
    exact h.figures c hc k kind life' hold

theorem Sequenced.host (h : w.Sequenced) {a : HostAction} (he : w.EnabledInOrder (.host a)) :
    (w.next (.host a)).Sequenced := by
  have hw := enabled_of_inOrder he
  constructor
  · exact roster_next h.roster hw
  · exact h.labels.next hw
  · exact h.news.next _
  · exact Signed.next h.labels h.signed (h.reportsRegistered hw)
  · intro c hc
    obtain rfl | ⟨hcl, -⟩ := HostSession.clients_next h.roster hc
    · exact List.mem_cons_self
    · exact subset_acceptedAfter w a (h.accepted c hcl)
  · intro k hk
    exact keys_host h he hk
  · intro c hc
    have hold : c ∉ w.accepted := fun hacc => hc (subset_acceptedAfter w a hacc)
    have hnew : a ≠ .statusCallback .connected c := by
      rintro rfl
      exact hc List.mem_cons_self
    change channel c (w.toClient ++ _) = []
    rw [channel_append, h.silent c hold,
      channel_sent_nil hnew (fun hcl => hold (h.accepted c hcl))]
    rfl
  · intro c hc
    exact registers_host h hc
  · exact h.figures

theorem Sequenced.client (h : w.Sequenced) {c : Connection} {a : ClientAction}
    (he : w.EnabledInOrder (.client c a)) : (w.next (.client c a)).Sequenced := by
  have hw := enabled_of_inOrder he
  constructor
  · exact h.roster
  · exact h.labels.next hw
  · exact h.news.next _
  · exact Signed.next h.labels h.signed (h.reportsRegistered hw)
  · exact h.accepted
  · exact h.keys
  · intro d hd
    have hsub := toClientAfter_subset w c a
    rw [channel_eq_nil]
    intro e hmem
    exact channel_eq_nil.mp (h.silent d hd) e (hsub hmem)
  · intro d hd
    exact registers_client h he hd
  · intro d hd k kind life hs
    by_cases hcd : d = c
    · subst hcd
      simp only [World.next, clientStep, Function.update_self, ClientSession.next_handler] at hs
      exact figures_client h he hs
    · simp only [World.next, clientStep, Function.update_of_ne hcd] at hs
      exact h.figures d hd k kind life hs

theorem Sequenced.next (h : w.Sequenced) {a : WorldAction} (he : w.EnabledInOrder a) :
    (w.next a).Sequenced := by
  cases a with
  | host a => exact h.host he
  | client c a => exact h.client he
  | loseToServer | loseToClient => exact he.elim

end Steps

/-- Two clients and the host are in the level and have met each other. -/
def twoJoin : List WorldAction :=
  [.host (.statusCallback .connected 1), .client 1 (.statusUpdate .connected 1),
    .host (.statusCallback .connected 2), .client 2 (.statusUpdate .connected 2),
    .client 1 (.receive (.registerPlayer ⟨1, 1⟩)), .client 1 (.loadScene 3 ⟨0, 0, 0⟩),
    .client 2 (.receive (.registerPlayer ⟨1, 2⟩)), .client 2 (.loadScene 3 ⟨0, 0, 0⟩),
    .host .startGame, .client 1 (.receive (.gameState ⟨1, .startGame⟩)),
    .client 1 (.loadScene 4 ⟨0, 0, 0⟩), .client 2 (.receive (.gameState ⟨1, .startGame⟩)),
    .client 2 (.loadScene 4 ⟨0, 0, 0⟩), .host (.levelLoaded ⟨0, 0, 0⟩), .host .sendPlayerData,
    .client 1 (.receive (.playerData ⟨1, 0, ⟨0, 0, 0⟩, 12⟩)),
    .client 1 (.receive (.playerData ⟨1, 2, ⟨-272 / 100, -531 / 100, 0⟩, 12⟩)),
    .client 2 (.receive (.playerData ⟨1, 0, ⟨0, 0, 0⟩, 12⟩)),
    .client 2 (.receive (.playerData ⟨1, 1, ⟨-272 / 100, -531 / 100, 0⟩, 12⟩))]

end World

end SeminarTouhou
