import SeminarTouhou.Network.ClientHandler
import SeminarTouhou.Network.Connections

namespace SeminarTouhou

open Library

namespace ClientHandler

/-- `InitClientJoin` in LAN mode, where `Connect` returns the handle `connect`. -/
def initClientJoin (connect : Connection) (s : ClientHandler) : Result :=
  let s := { s with serverConnection := 0 }
  if s.client then .returns { s with serverConnection := connect } else .throws s .nullReference

def handleCloseConnection (s : ClientHandler) : Result :=
  .raises { s with client := false } (if s.client then [.closeConnection s.serverConnection] else [])

end ClientHandler

/-- A connection that `Connect` opened to a host: the handle at the client and the one that the host
knows it by. -/
structure Link (α : Type*) where
  host : α
  connect : Connection
  remote : Connection
deriving DecidableEq

/-- One client process among the listed hosts: the connections it opened, newest first, those that it
closed, and those of which the host has processed the `Connected` and the close callback. -/
structure Process (α : Type*) where
  client : ClientHandler
  hosts : α → HostSession
  links : List (Link α)
  closed : List (Link α)
  joined : List (Link α)
  left : List (Link α)

inductive ProcessAction (α : Type*)
  | joinHost (host : α) (connect remote : Connection)
  | statusUpdate (state : ServerHandler.ConnectionState) (connection : Connection)
  | endSession
  | runClientSetUp
  | host (h : α) (a : HostAction)
deriving DecidableEq

namespace Process

variable {α : Type*} [DecidableEq α]

def start : Process α := ⟨.joining, fun _ => .start, [], [], [], []⟩

def linksOf (s : Process α) (h : α) (c : Connection) : List (Link α) :=
  s.links.filter (fun k => k.host = h ∧ k.remote = c)

/-- A connection opens under fresh handles; its host sees it connect at most once and close only
after the process closed it. Hosts read packets of open connections, under the id of these or, from
a client that has none yet, under 0. -/
def Enabled (s : Process α) : ProcessAction α → Prop
  | .joinHost h connect remote => connect ≠ 0 ∧ remote ≠ 0 ∧ (∀ k ∈ s.links, k.connect ≠ connect) ∧
    s.linksOf h remote = [] ∧ remote ∉ (s.hosts h).handler.connectedClients ∧
    remote ∉ (s.hosts h).handler.mPlayers
  | .statusUpdate _ connection => s.client.client = true ∧ ∃ k ∈ s.links, k.connect = connection
  | .endSession => True
  | .runClientSetUp => s.client.client = false
  | .host h a => (s.hosts h).Enabled a ∧
    match a with
    | .statusCallback .connected c => ∀ k ∈ s.linksOf h c, k ∉ s.joined ∧ k ∉ s.left
    | .statusCallback _ c => ∀ k ∈ s.linksOf h c, k ∈ s.closed
    | .receive c p => c ∈ (s.hosts h).handler.connectedClients ∧ p.claimedID ∈ [none, some 0, some c]
    | _ => True

instance (s : Process α) (a : ProcessAction α) : Decidable (s.Enabled a) := by
  rcases a with _ | _ | _ | _ | ⟨_, ⟨_ | _, _⟩ | _⟩ <;> dsimp only [Enabled] <;> infer_instance

/-- The client's part of a step. After `EndSession` the next scene brings a new handler. -/
def clientAct (s : Process α) : ProcessAction α → ClientHandler.Result
  | .joinHost _ connect _ => s.client.initClientJoin connect
  | .statusUpdate state connection => s.client.onClientStatusUpdate state connection
  | .endSession => s.client.handleCloseConnection
  | .runClientSetUp => .returns .joining
  | .host _ _ => .returns s.client

def linksAfter (s : Process α) : ProcessAction α → List (Link α)
  | .joinHost h connect remote =>
    if s.client.client then ⟨h, connect, remote⟩ :: s.links else s.links
  | _ => s.links

def hostsAfter (s : Process α) : ProcessAction α → α → HostSession
  | .host h a => Function.update s.hosts h ((s.hosts h).next a)
  | _ => s.hosts

def joinedAfter (s : Process α) : ProcessAction α → List (Link α)
  | .host h (.statusCallback .connected c) => s.linksOf h c ++ s.joined
  | _ => s.joined

def leftAfter (s : Process α) : ProcessAction α → List (Link α)
  | .host h (.statusCallback .closedByPeer c) => s.linksOf h c ++ s.left
  | .host h (.statusCallback .problemDetectedLocally c) => s.linksOf h c ++ s.left
  | _ => s.left

def next (s : Process α) (a : ProcessAction α) : Process α where
  client := (s.clientAct a).state
  hosts := s.hostsAfter a
  links := s.linksAfter a
  closed := s.links.filter (fun k => .closeConnection k.connect ∈ (s.clientAct a).raised) ++ s.closed
  joined := s.joinedAfter a
  left := s.leftAfter a

def system : System (Process α) (ProcessAction α) := ⟨Enabled, next⟩

instance (s : Process α) (a : ProcessAction α) : Decidable (system.enabled s a) :=
  inferInstanceAs (Decidable (s.Enabled a))

/-- Over all hosts the process has at most one place in `connectedClients` and at most one entry in
`mPlayers`. -/
structure OnePlayer (s : Process α) : Prop where
  clients : (s.links.map (fun k => (s.hosts k.host).handler.connectedClients.count k.remote)).sum ≤ 1
  players : s.links.countP (fun k => k.remote ∈ (s.hosts k.host).handler.mPlayers) ≤ 1

def Gone (s : Process α) (k : Link α) : Prop :=
  k ∈ s.left ∧ k.remote ∉ (s.hosts k.host).handler.connectedClients ∧
    k.remote ∉ (s.hosts k.host).handler.mPlayers

instance (s : Process α) (k : Link α) : Decidable (s.Gone k) := inferInstanceAs (Decidable (_ ∧ _))

/-- A host is joined only when nothing is left of an earlier connection. -/
def Alone (s : Process α) : ProcessAction α → Prop
  | .joinHost _ _ _ => s.client.client = true → ∀ k ∈ s.links, s.Gone k
  | _ => True

instance (s : Process α) (a : ProcessAction α) : Decidable (s.Alone a) := by
  rcases a with ⟨⟩ <;> dsimp only [Alone] <;> infer_instance

structure Single (s : Process α) : Prop where
  rosters : ∀ h, HostSession.Roster (s.hosts h)
  nonzero : ∀ k ∈ s.links, k.remote ≠ 0
  gone : ∀ k ∈ s.links.tail, s.Gone k

omit [DecidableEq α] in
theorem start_single : (start : Process α).Single :=
  ⟨fun _ => HostSession.start_roster, fun _ h => absurd h List.not_mem_nil,
    fun _ h => absurd h List.not_mem_nil⟩

section Steps

variable {s : Process α}

theorem mem_linksOf {h : α} {c : Connection} {k : Link α} :
    k ∈ s.linksOf h c ↔ k ∈ s.links ∧ k.host = h ∧ k.remote = c := by
  simp only [linksOf, List.mem_filter, decide_eq_true_eq]

theorem left_next (s : Process α) (a : ProcessAction α) : s.left ⊆ (s.next a).left := by
  cases a with
  | host h a =>
    cases a with
    | statusCallback state c =>
      cases state with
      | connected => exact List.Subset.refl _
      | closedByPeer | problemDetectedLocally => exact List.subset_append_right _ _
    | _ => exact List.Subset.refl _
  | _ => exact List.Subset.refl _

theorem Gone.host (hr : HostSession.Roster (s.hosts h)) {k : Link α} (hk : k ∈ s.links)
    (h0 : k.remote ≠ 0) (hg : s.Gone k) {a : HostAction} (hh : k.host = h)
    (he : s.Enabled (.host h a)) :
    k.remote ∉ ((s.hosts h).next a).handler.connectedClients ∧
      k.remote ∉ ((s.hosts h).next a).handler.mPlayers := by
  subst hh
  obtain ⟨hleft, hclients, hplayers⟩ := hg
  have hconnected : a ≠ .statusCallback .connected k.remote := by
    rintro rfl
    exact (he.2 k (mem_linksOf.mpr ⟨hk, rfl, rfl⟩)).2 hleft
  constructor
  · intro hc
    obtain ha | ⟨hc, -⟩ := HostSession.clients_next hr hc
    · exact hconnected ha
    · exact hclients hc
  · intro hp
    obtain hp | hz | ha | ⟨c, p, rfl, hid⟩ := HostSession.keys_act hr.server hp
    · exact hplayers hp
    · exact h0 hz
    · exact hconnected ha
    · obtain ⟨-, hopen, hclaim⟩ := he
      rw [hid] at hclaim
      obtain hz | heq : k.remote = 0 ∨ k.remote = c := by simpa using hclaim
      · exact h0 hz
      · exact hclients (heq ▸ hopen)

theorem Gone.next (h : s.Single) {k : Link α} (hk : k ∈ s.links) (hg : s.Gone k)
    {a : ProcessAction α} (he : s.Enabled a) : (s.next a).Gone k := by
  refine ⟨left_next s a hg.1, ?_⟩
  cases a with
  | host b a =>
    by_cases hb : k.host = b
    · have hhost := hg.host (h.rosters b) hk (h.nonzero k hk) hb he
      subst hb
      simpa only [Process.next, hostsAfter, Function.update_self] using hhost
    · simpa only [Process.next, hostsAfter, Function.update_of_ne hb] using hg.2
  | _ => exact hg.2

theorem Single.next (h : s.Single) {a : ProcessAction α} (he : s.Enabled a) (hok : s.Alone a) :
    (s.next a).Single := by
  constructor
  · intro b
    cases a with
    | host d a =>
      by_cases hb : b = d
      · subst hb
        simpa only [Process.next, hostsAfter, Function.update_self] using
          HostSession.keeps_roster (h.rosters b) he.1
      · simpa only [Process.next, hostsAfter, Function.update_of_ne hb] using h.rosters b
    | _ => exact h.rosters b
  · intro k hk
    cases a with
    | joinHost b connect remote =>
      simp only [Process.next, linksAfter] at hk
      split_ifs at hk
      · obtain rfl | hk := List.mem_cons.mp hk
        · exact he.2.1
        · exact h.nonzero k hk
      · exact h.nonzero k hk
    | _ => exact h.nonzero k hk
  · intro k hk
    have kept (hk : k ∈ s.links.tail) : (s.next a).Gone k :=
      (h.gone k hk).next h (List.mem_of_mem_tail hk) he
    cases a with
    | joinHost b connect remote =>
      simp only [Process.next, linksAfter] at hk
      split_ifs at hk with hclient
      · exact (hok hclient k hk).next h hk he
      · exact kept hk
    | _ => exact kept hk

omit [DecidableEq α] in
theorem Single.onePlayer (h : s.Single) : s.OnePlayer := by
  cases hl : s.links with
  | nil => constructor <;> simp [hl]
  | cons k ks =>
    have hgone : ∀ j ∈ ks, s.Gone j := by
      intro j hj
      apply h.gone j
      rw [hl]
      exact hj
    constructor
    · have hrest : (ks.map (fun j => (s.hosts j.host).handler.connectedClients.count j.remote)).sum = 0 := by
        apply List.sum_eq_zero
        intro n hn
        obtain ⟨j, hj, rfl⟩ := List.mem_map.mp hn
        exact List.count_eq_zero_of_not_mem (hgone j hj).2.1
      rw [hl, List.map_cons, List.sum_cons, hrest, Nat.add_zero]
      exact List.nodup_iff_count_le_one.mp (h.rosters k.host).nodup k.remote
    · have hrest : ks.countP (fun j => j.remote ∈ (s.hosts j.host).handler.mPlayers) = 0 := by
        apply List.countP_eq_zero.mpr
        intro j hj
        simpa using (hgone j hj).2.2
      rw [hl, List.countP_cons, hrest]
      split_ifs <;> omega

end Steps

theorem process_is_one_player {as : List (ProcessAction α)} (hl : system.Legal (start : Process α) as)
    (hok : system.Meets Alone (start : Process α) as) :
    (system.run (start : Process α) as).OnePlayer := by
  have hstep (s : Process α) (a : ProcessAction α) (hi : s.Single) (he : system.enabled s a)
      (ha : s.Alone a) : (system.next s a).Single := hi.next he ha
  exact (System.invariant_run hstep start_single hl hok).onePlayer

def twoClicks : List (ProcessAction ℕ) :=
  [.joinHost 0 1 7, .joinHost 1 2 9, .host 0 (.statusCallback .connected 7),
    .host 1 (.statusCallback .connected 9), .statusUpdate .connected 1, .statusUpdate .connected 2]

theorem twoClicks_twoPlayers : system.Legal (start : Process ℕ) twoClicks ∧
    ¬(system.run (start : Process ℕ) twoClicks).OnePlayer := by
  refine ⟨by decide +kernel, ?_⟩
  intro h
  have hplayers := h.players
  revert hplayers
  decide +kernel

/-- A second host is joined after the first one has seen the process go. -/
def joinsAgain : List (ProcessAction ℕ) :=
  [.joinHost 0 1 7, .host 0 (.statusCallback .connected 7), .statusUpdate .connected 1, .endSession,
    .host 0 (.statusCallback .closedByPeer 7), .runClientSetUp, .joinHost 1 2 9,
    .host 1 (.statusCallback .connected 9), .statusUpdate .connected 2]

theorem process_is_one_player_joinsAgain : (system.run (start : Process ℕ) joinsAgain).OnePlayer :=
  process_is_one_player (by decide +kernel) (by decide +kernel)

end Process

end SeminarTouhou
