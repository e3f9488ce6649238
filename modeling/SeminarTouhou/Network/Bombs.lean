import SeminarTouhou.Library.Relay
import SeminarTouhou.Network.BombLaws

namespace SeminarTouhou

open Library

/-- The process has a player object in its scene; that is what fires bombs. -/
def PlayerTable.playing (t : PlayerTable) : Bool :=
  t.entries.any (fun e => e.2.playerOBJ.any (fun o => decide (o.kind = .player) && o.usable))

/-- What `EndSession` leaves of a handler. It stays subscribed to `OnFireOffensiveBomb`. -/
def ServerHandler.endSession (s : ServerHandler) : ServerHandler := { s with server := false }

/-- A bomb: the host session it was fired in and its number there, who fired it, and who was in the
session then. -/
structure Bomb where
  session : ℕ
  number : ℕ
  firer : UInt32
  audience : List UInt32
deriving DecidableEq

/-- A host session and its bombs. `relay` follows each bomb through the packets that carry it,
`sawFirer` are the bombs that a node handled while it had a live hologram of the firer, and `spawned`
has an entry for every `SpawnOffensiveBomb`: the bomb that caused it and the node. -/
structure BombSession where
  world : World
  relay : Relay UInt32 Bomb
  sawFirer : List (Bomb × UInt32)
  spawned : List (Option Bomb × UInt32)

namespace BombSession

open World

def start : BombSession := ⟨.start, .empty, [], []⟩

def bomb (k : ℕ) (s : BombSession) (firer : UInt32) : Bomb :=
  ⟨k, s.relay.issued.length, firer, serverPlayerID :: s.world.host.handler.connectedClients⟩

def cause (k : ℕ) (s : BombSession) : WorldAction → Option Bomb
  | .host (.fireOffensiveBomb _) => some (s.bomb k serverPlayerID)
  | .host (.receive c (.offensiveBombData _)) => (s.relay.up c).head?
  | .client c (.fireOffensiveBomb _) => some (s.bomb k c)
  | .client c (.receive (.offensiveBombData _)) => (s.relay.down c).head?
  | _ => none

def node : WorldAction → UInt32
  | .client c _ => c
  | _ => serverPlayerID

def raised (s : BombSession) : WorldAction → List Event
  | .host a => (HostSession.act a s.world.host.handler).raised
  | .client c a => (ClientSession.act a (s.world.clients c).handler).raised
  | _ => []

def table (s : BombSession) : WorldAction → PlayerTable
  | .client c _ => (s.world.clients c).handler.mPlayers
  | _ => s.world.host.handler.mPlayers

def relayAfter (k : ℕ) (s : BombSession) (a : WorldAction) : Relay UInt32 Bomb :=
  match s.cause k a with
  | none => s.relay
  | some b =>
    match a with
    | .host (.receive c p) =>
      (s.relay.collect serverPlayerID c).spread b
        ((HostSession.act (.receive c p) s.world.host.handler).sent.map Prod.fst)
    | .host a => (s.relay.issue b).spread b ((HostSession.act a s.world.host.handler).sent.map Prod.fst)
    | .client c (.receive _) => s.relay.deliver c
    | .client c a =>
      (s.relay.issue b).submit b c (ClientSession.act a (s.world.clients c).handler).sent.length
    | _ => s.relay

def sawFirerAfter (k : ℕ) (s : BombSession) (a : WorldAction) : List (Bomb × UInt32) :=
  match s.cause k a with
  | none => s.sawFirer
  | some b =>
    match a with
    | .host (.receive _ _) | .client _ (.receive _) =>
      if (s.table a).showsHologram b.firer then (b, node a) :: s.sawFirer else s.sawFirer
    | _ => s.sawFirer

def next (k : ℕ) (s : BombSession) (a : WorldAction) : BombSession where
  world := s.world.next a
  relay := s.relayAfter k a
  sawFirer := s.sawFirerAfter k a
  spawned := ((s.raised a).filter Event.isSpawn).map (fun _ => (s.cause k a, node a)) ++ s.spawned

/-- A handler of an earlier session sends packets about `b`. -/
def stray (b : Bomb) (sent : List (Connection × Packet)) (s : BombSession) : BombSession :=
  { s with
    world := { s.world with toClient := s.world.toClient ++ sent }
    relay := s.relay.spread b (sent.map Prod.fst) }

def Connected (s : BombSession) (n : UInt32) : Prop :=
  n = serverPlayerID ∨ n ∈ s.world.host.handler.connectedClients

/-- Only handling a bomb shows it, never at its firer. It is shown once at each node that had a live
hologram of the firer when it handled it, and each node that is connected since it was fired has
handled it, or it is on its way there. -/
structure ShownOnce (s : BombSession) : Prop where
  caused : ∀ e ∈ s.spawned, ∃ b, e.1 = some b ∧ (b, e.2) ∈ s.relay.handled ∧ e.2 ≠ b.firer
  once : ∀ b n, (b, n) ∈ s.relay.handled →
    s.spawned.count (some b, n) = if (b, n) ∈ s.sawFirer then 1 else 0
  reaches : ∀ b ∈ s.relay.issued, ∀ n ∈ b.audience, n ≠ b.firer → s.Connected n →
    b ∈ s.relay.up b.firer ∨ b ∈ s.relay.down n ∨ (b, n) ∈ s.relay.handled

/-- The packets with a bomb in them are those of the listed bombs, in their order. -/
def Aligned (ps : List Packet) (bs : List Bomb) : Prop :=
  ps.filterMap Packet.bombFirer = bs.map Bomb.firer

def Due (s : BombSession) (b : Bomb) (n : UInt32) : Prop := n ∈ b.audience ∧ s.Connected n

structure Kept (s : BombSession) : Prop where
  sequenced : s.world.Sequenced
  opened : ∀ c, (s.world.clients c).handler.client = true
  numbered : ∀ b ∈ s.relay.issued, b.number < s.relay.issued.length
  audience : ∀ b ∈ s.relay.issued, ∀ n ∈ b.audience, n = serverPlayerID ∨ n ∈ s.world.accepted
  balanced : s.relay.Balanced Bomb.firer s.Due
  up : ∀ c, Aligned (channel c s.world.toServer) (s.relay.up c)
  down : ∀ c, Aligned (channel c s.world.toClient) (s.relay.down c)
  saw : List.Sublist s.sawFirer s.relay.handled
  spawns : ∀ b n, s.spawned.count (some b, n) = s.sawFirer.count (b, n)
  causes : ∀ n, (none, n) ∉ s.spawned

theorem start_kept : start.Kept where
  sequenced := start_sequenced
  opened := fun _ => rfl
  numbered := fun _ h => absurd h List.not_mem_nil
  audience := fun _ h => absurd h List.not_mem_nil
  balanced := Relay.empty_balanced
  up := fun _ => rfl
  down := fun _ => rfl
  saw := List.Sublist.refl []
  spawns := fun _ _ => rfl
  causes := fun _ => List.not_mem_nil

theorem Kept.shownOnce {s : BombSession} (h : s.Kept) : s.ShownOnce := by
  constructor
  · rintro ⟨cause, n⟩ he
    cases cause with
    | none => exact absurd he (h.causes n)
    | some b =>
      have hcount := List.count_pos_iff.mpr he
      rw [h.spawns] at hcount
      have hhandled := h.saw.subset (List.count_pos_iff.mp hcount)
      exact ⟨b, rfl, hhandled, (h.balanced.handled_once hhandled).2.1⟩
  · intro b n hb
    have hone := (h.balanced.handled_once hb).2.2
    have hle := h.saw.count_le (b, n)
    rw [h.spawns]
    split_ifs with hsaw
    · have hpos := List.count_pos_iff.mpr hsaw
      omega
    · exact List.count_eq_zero_of_not_mem hsaw
  · intro b hb n hn hne hc
    exact h.balanced.arrives hb hne ⟨hn, hc⟩

section Aligned

variable {ps qs : List Packet} {bs cs : List Bomb}

theorem Aligned.append (h : Aligned ps bs) (h' : Aligned qs cs) : Aligned (ps ++ qs) (bs ++ cs) := by
  unfold Aligned at h h' ⊢
  rw [List.filterMap_append, List.map_append, h, h']

theorem aligned_replicate (k : ℕ) {d : OffensiveBombData} {b : Bomb} (hb : b.firer = d.playerID) :
    Aligned (List.replicate k (.offensiveBombData d)) (List.replicate k b) := by
  have hd : Packet.bombFirer (.offensiveBombData d) = some d.playerID := rfl
  unfold Aligned
  rw [List.filterMap_replicate_of_some hd, List.map_replicate, hb]

theorem Aligned.read {d : OffensiveBombData} (h : Aligned (.offensiveBombData d :: ps) bs) :
    ∃ b cs, bs = b :: cs ∧ b.firer = d.playerID ∧ Aligned ps cs := by
  cases bs with
  | nil => nomatch h
  | cons b cs =>
    obtain ⟨hfirer, hrest⟩ := List.cons.inj h
    exact ⟨b, cs, rfl, hfirer.symm, hrest⟩

theorem Aligned.skip {p : Packet} (hp : p.bombFirer = none) (h : Aligned (p :: ps) bs) :
    Aligned ps bs := by
  unfold Aligned at h ⊢
  rwa [List.filterMap_cons_none hp] at h

end Aligned

section Steps

variable {s : BombSession}

theorem Kept.fresh (h : s.Kept) (k : ℕ) (firer : UInt32) : s.bomb k firer ∉ s.relay.issued :=
  fun hb => absurd (h.numbered _ hb) (lt_irrefl _)

theorem next_of_cause_none {k : ℕ} {a : WorldAction} (hc : s.cause k a = none)
    (hr : (s.raised a).filter Event.isSpawn = []) :
    s.next k a = { s with world := s.world.next a } := by
  unfold BombSession.next relayAfter sawFirerAfter
  rw [hc, hr]
  cases a <;> rfl

theorem cause_host {k : ℕ} {a : HostAction} (hfire : ∀ pos, a ≠ .fireOffensiveBomb pos)
    (hread : ∀ c d, a ≠ .receive c (.offensiveBombData d)) : s.cause k (.host a) = none := by
  cases a with
  | fireOffensiveBomb pos => exact absurd rfl (hfire pos)
  | receive c p =>
    cases p with
    | offensiveBombData d => exact absurd rfl (hread c d)
    | _ => rfl
  | _ => rfl

theorem cause_client {k : ℕ} {c : Connection} {a : ClientAction}
    (hfire : ∀ pos, a ≠ .fireOffensiveBomb pos) (hread : ∀ d, a ≠ .receive (.offensiveBombData d)) :
    s.cause k (.client c a) = none := by
  cases a with
  | fireOffensiveBomb pos => exact absurd rfl (hfire pos)
  | receive p =>
    cases p with
    | offensiveBombData d => exact absurd rfl (hread d)
    | _ => rfl
  | _ => rfl

theorem aligned_pop {l : List (Connection × Packet)} {f : Connection → List Bomb} {c : Connection}
    {p : Packet} {q : List Packet} {bs : List Bomb} (hq : channel c l = p :: q) (hbs : Aligned q bs)
    (h : ∀ d, Aligned (channel d l) (f d)) (d : Connection) :
    Aligned (channel d (l.erase (c, p))) (Function.update f c bs d) := by
  by_cases hd : d = c
  · subst hd
    rwa [channel_erase_head hq, Function.update_self]
  · rw [channel_erase_ne (Ne.symm hd), Function.update_of_ne hd]
    exact h d

theorem aligned_erase {l : List (Connection × Packet)} {bs : Connection → List Bomb} {c : Connection}
    {p : Packet} (hp : p.bombFirer = none) (hhead : (channel c l).head? = some p)
    (h : ∀ d, Aligned (channel d l) (bs d)) (d : Connection) :
    Aligned (channel d (l.erase (c, p))) (bs d) := by
  obtain ⟨q, hq⟩ := List.head?_eq_some_iff.mp hhead
  have hold := h c
  rw [hq] at hold
  have hpop := aligned_pop hq (hold.skip hp) h d
  rwa [Function.update_eq_self] at hpop

theorem Kept.opened_client (h : s.Kept) (d : Connection) (a : ClientAction) :
    ∀ c, ((s.world.next (.client d a)).clients c).handler.client = true := by
  intro c
  by_cases hcd : c = d
  · subst hcd
    simp only [World.next, clientStep, Function.update_self, ClientSession.next_handler,
      ClientSession.client_act, h.opened c]
  · simp only [World.next, clientStep, Function.update_of_ne hcd, h.opened c]

theorem Kept.up_client (h : s.Kept) (c : Connection) {a : ClientAction}
    (hfire : ∀ pos, a ≠ .fireOffensiveBomb pos) (d : Connection) :
    Aligned (channel d (s.world.next (.client c a)).toServer) (s.relay.up d) := by
  have hsent : Aligned (channel d ((ClientSession.act a (s.world.clients c).handler).sent.map
      (fun p => (c, p)))) [] := by
    have hnone := ClientSession.bombs_act (s := (s.world.clients c).handler) hfire
    rw [List.filterMap_eq_nil_iff] at hnone
    apply List.filterMap_eq_nil_iff.mpr
    intro p hp
    obtain ⟨q, hq, heq⟩ := List.mem_map.mp (mem_channel.mp hp)
    obtain ⟨-, rfl⟩ := Prod.mk.inj heq
    exact hnone q hq
  have hall := (h.up d).append hsent
  rw [← channel_append, List.append_nil] at hall
  exact hall

theorem receivers_map (cs : List Connection) (p : Packet) :
    (cs.map (fun c => (c, p))).map Prod.fst = cs := by
  simp [Function.comp_def]

theorem aligned_spread {l : List (Connection × Packet)} {r : Relay UInt32 Bomb}
    {d : OffensiveBombData} {b : Bomb} (hb : b.firer = d.playerID) (cs : List Connection)
    (h : ∀ c, Aligned (channel c l) (r.down c)) (c : Connection) :
    Aligned (channel c (l ++ cs.map (fun n => (n, .offensiveBombData d)))) ((r.spread b cs).down c) := by
  rw [channel_append, channel_map_const]
  exact (h c).append (aligned_replicate _ hb)

theorem Kept.hostIdle (h : s.Kept) {k : ℕ} {a : HostAction} (he : s.world.EnabledInOrder (.host a))
    (hfire : ∀ pos, a ≠ .fireOffensiveBomb pos)
    (hread : ∀ c d, a ≠ .receive c (.offensiveBombData d)) : (s.next k (.host a)).Kept := by
  rw [next_of_cause_none (cause_host hfire hread) (HostSession.spawns_act hread)]
  constructor
  · exact h.sequenced.next he
  · exact h.opened
  · exact h.numbered
  · intro b hb n hn
    exact (h.audience b hb n hn).imp_right (fun hacc => subset_acceptedAfter s.world a hacc)
  · apply h.balanced.mono
    rintro b hb n ⟨hn, hc⟩
    refine ⟨hn, ?_⟩
    obtain h0 | hc := hc
    · exact Or.inl h0
    · obtain rfl | ⟨hc, -⟩ := HostSession.clients_next h.sequenced.roster hc
      · -- who connects now was in no audience
        obtain ⟨-, hnew⟩ := he
        obtain h0 | hacc := h.audience b hb n hn
        · exact Or.inl h0
        · exact absurd hacc hnew
      · exact Or.inr hc
  · intro c
    cases a with
    | receive d p =>
      refine aligned_erase ?_ he.2.2 h.up c
      cases p with
      | offensiveBombData e => exact absurd rfl (hread d e)
      | _ => rfl
    | _ => exact h.up c
  · intro c
    have hsent : Aligned (channel c (HostSession.act a s.world.host.handler).sent) [] :=
      HostSession.bombs_act hfire hread c
    have hall := (h.down c).append hsent
    rw [← channel_append, List.append_nil] at hall
    exact hall
  · exact h.saw
  · exact h.spawns
  · exact h.causes

theorem Kept.clientIdle (h : s.Kept) {k : ℕ} {c : Connection} {a : ClientAction}
    (he : s.world.EnabledInOrder (.client c a)) (hfire : ∀ pos, a ≠ .fireOffensiveBomb pos)
    (hread : ∀ d, a ≠ .receive (.offensiveBombData d)) : (s.next k (.client c a)).Kept := by
  rw [next_of_cause_none (cause_client hfire hread) (ClientSession.spawns_act hread)]
  constructor
  · exact h.sequenced.next he
  · exact h.opened_client c a
  · exact h.numbered
  · exact h.audience
  · exact h.balanced
  · exact h.up_client c hfire
  · intro d
    cases a with
    | receive p =>
      refine aligned_erase ?_ he.2 h.down d
      cases p with
      | offensiveBombData e => exact absurd rfl (hread e)
      | _ => rfl
    | _ => exact h.down d
  · exact h.saw
  · exact h.spawns
  · exact h.causes

theorem Kept.numbered_issue (h : s.Kept) (k : ℕ) (firer : UInt32) :
    ∀ b ∈ s.bomb k firer :: s.relay.issued, b.number < s.relay.issued.length + 1 := by
  intro b hb
  obtain rfl | hb := List.mem_cons.mp hb
  · exact Nat.lt_succ_self _
  · exact Nat.lt_succ_of_lt (h.numbered b hb)

theorem Kept.audience_issue (h : s.Kept) (k : ℕ) (firer : UInt32) :
    ∀ b ∈ s.bomb k firer :: s.relay.issued, ∀ n ∈ b.audience,
      n = serverPlayerID ∨ n ∈ s.world.accepted := by
  intro b hb n hn
  obtain rfl | hb := List.mem_cons.mp hb
  · exact (List.mem_cons.mp hn).imp_right (fun hc => h.sequenced.accepted n hc)
  · exact h.audience b hb n hn

theorem Kept.hostFire (h : s.Kept) {k : ℕ} {pos : Vector2}
    (he : s.world.EnabledInOrder (.host (.fireOffensiveBomb pos))) :
    (s.next k (.host (.fireOffensiveBomb pos))).Kept := by
  have hroster := h.sequenced.roster
  have hsent : (HostSession.act (.fireOffensiveBomb pos) s.world.host.handler).sent =
      (s.world.host.handler.others serverPlayerID).map
        (fun c => (c, .offensiveBombData ⟨roomID, serverPlayerID, pos.toVector3⟩)) :=
    ServerHandler.sendBomb_others hroster.server pos serverPlayerID
  have hrelay : (s.next k (.host (.fireOffensiveBomb pos))).relay =
      (s.relay.issue (s.bomb k serverPlayerID)).spread (s.bomb k serverPlayerID)
        (s.world.host.handler.others serverPlayerID) := by
    change (s.relay.issue _).spread _ ((HostSession.act _ s.world.host.handler).sent.map Prod.fst) = _
    rw [hsent, receivers_map]
  have hbalanced : (s.next k (.host (.fireOffensiveBomb pos))).relay.Balanced Bomb.firer s.Due := by
    rw [hrelay]
    refine h.balanced.publish (h.fresh k serverPlayerID) (hroster.nodup.filter _) ?_ ?_
    · intro hmem
      exact (ServerHandler.mem_others.mp hmem).2 rfl
    · rintro n hn ⟨-, hc⟩
      exact ServerHandler.mem_others.mpr ⟨hc.resolve_left hn, hn⟩
  constructor
  · exact h.sequenced.next he
  · exact h.opened
  · rw [hrelay]
    exact h.numbered_issue k serverPlayerID
  · rw [hrelay]
    exact h.audience_issue k serverPlayerID
  · exact hbalanced
  · rw [hrelay]
    exact h.up
  · intro c
    rw [hrelay]
    have hworld : (s.next k (.host (.fireOffensiveBomb pos))).world.toClient = s.world.toClient ++
      (HostSession.act (.fireOffensiveBomb pos) s.world.host.handler).sent := rfl
    rw [hworld, hsent]
    exact aligned_spread (r := s.relay.issue (s.bomb k serverPlayerID)) rfl _ h.down c
  · rw [hrelay]
    exact h.saw
  · exact h.spawns
  · exact h.causes

theorem Kept.next_hostRead (h : s.Kept) (k : ℕ) {c : Connection} {d : OffensiveBombData}
    (he : s.world.EnabledInOrder (.host (.receive c (.offensiveBombData d))))
    (hq : (HostSession.act (.receive c (.offensiveBombData d)) s.world.host.handler).thrown = none) :
    ∃ b bs q, channel c s.world.toServer = .offensiveBombData d :: q ∧ s.relay.up c = b :: bs ∧
      b.firer = c ∧ Aligned q bs ∧
      HostSession.act (.receive c (.offensiveBombData d)) s.world.host.handler =
        ⟨s.world.host.handler, (s.world.host.handler.others c).map
          (fun n => (n, .offensiveBombData ⟨roomID, c, d.pos.toVector2.toVector3⟩)),
          [.spawnOffensiveBomb c d.pos.toVector2], none⟩ ∧
      s.next k (.host (.receive c (.offensiveBombData d))) =
        ⟨s.world.next (.host (.receive c (.offensiveBombData d))),
          (s.relay.collect serverPlayerID c).spread b (s.world.host.handler.others c),
          (b, serverPlayerID) :: s.sawFirer, (some b, serverPlayerID) :: s.spawned⟩ := by
  obtain ⟨-, -, hhead⟩ := he
  obtain ⟨q, hchannel⟩ := List.head?_eq_some_iff.mp hhead
  have halign := h.up c
  rw [hchannel] at halign
  obtain ⟨b, bs, hup, hfirer, hrest⟩ := halign.read
  have hb : b.firer = c := h.balanced.uplink c b (hup ▸ List.mem_cons_self)
  obtain ⟨hshows, houtcome⟩ := ServerHandler.handleOffensiveBombData_quiet hq
  rw [← hfirer, hb] at houtcome hshows
  rw [ServerHandler.sendBomb_others h.sequenced.roster.server] at houtcome
  have hact : HostSession.act (.receive c (.offensiveBombData d)) s.world.host.handler = _ := houtcome
  refine ⟨b, bs, q, hchannel, hup, hb, hrest, hact, ?_⟩
  have hcause : s.cause k (.host (.receive c (.offensiveBombData d))) = some b := by
    simp only [cause, hup, List.head?_cons]
  simp only [BombSession.next, relayAfter, sawFirerAfter, raised, table, node, hcause, hact,
    receivers_map, hb, hshows, if_true]
  rfl

theorem Kept.hostRead (h : s.Kept) {k : ℕ} {c : Connection} {d : OffensiveBombData}
    (he : s.world.EnabledInOrder (.host (.receive c (.offensiveBombData d))))
    (hq : (HostSession.act (.receive c (.offensiveBombData d)) s.world.host.handler).thrown = none) :
    (s.next k (.host (.receive c (.offensiveBombData d)))).Kept := by
  have hroster := h.sequenced.roster
  have hopen : c ∈ s.world.host.handler.connectedClients := he.2.1
  obtain ⟨b, bs, q, hchannel, hup, hb, hrest, hact, hnext⟩ := h.next_hostRead k he hq
  have hcollect : s.relay.collect serverPlayerID c = _ := Relay.collect_cons hup
  have hzero : serverPlayerID ≠ c := by
    rintro rfl
    exact hroster.nonzero hopen
  rw [hnext]
  constructor
  · exact h.sequenced.next he
  · exact h.opened
  · rw [hcollect]
    exact h.numbered
  · rw [hcollect]
    exact h.audience
  · have hdue : Due ⟨s.world.next (.host (.receive c (.offensiveBombData d))),
        (s.relay.collect serverPlayerID c).spread b (s.world.host.handler.others c),
        (b, serverPlayerID) :: s.sawFirer, (some b, serverPlayerID) :: s.spawned⟩ = s.Due := by
      funext b n
      simp only [Due, Connected, World.next, hostStep, HostSession.next_handler, hact]
    rw [hdue]
    refine h.balanced.forward hup hzero (hroster.nodup.filter _) ?_ ?_ ?_
    · intro hmem
      exact (ServerHandler.mem_others.mp hmem).2 rfl
    · intro hmem
      exact hroster.nonzero (ServerHandler.mem_others.mp hmem).1
    · rintro n hn hn0 ⟨-, hc⟩
      exact ServerHandler.mem_others.mpr ⟨hc.resolve_left hn0, hn⟩
  · intro n
    rw [hcollect]
    exact aligned_pop hchannel hrest h.up n
  · intro n
    change Aligned (channel n (s.world.toClient ++ (HostSession.act _ s.world.host.handler).sent)) _
    rw [hact, hcollect]
    exact aligned_spread (r := { s.relay with up := _, handled := _ }) hb _ h.down n
  · rw [hcollect]
    exact h.saw.cons_cons _
  · intro b' n
    have hcount := h.spawns b' n
    simp only [List.count_cons, beq_iff_eq, Prod.mk.injEq, Option.some.injEq, hcount]
  · intro n hmem
    obtain heq | hmem := List.mem_cons.mp hmem
    · cases heq
    · exact h.causes n hmem

theorem Kept.ownPlayer (h : s.Kept) {c : Connection} (hc : c ≠ 0)
    (hp : (s.world.clients c).handler.mPlayers.playing = true) :
    (s.world.clients c).handler.connectionIDOnServer = c ∧
      ∃ o, (s.world.clients c).handler.ownPlayer = some o := by
  obtain ⟨⟨j, p⟩, he, hj⟩ := List.any_eq_true.mp hp
  obtain ⟨o, ho, hkind⟩ := (Option.any_eq_true _ _).mp hj
  obtain ⟨hkind, hu⟩ := Bool.and_eq_true_iff.mp hkind
  have ho : p.playerOBJ = some o := ho
  have hkind : o.kind = .player := of_decide_eq_true hkind
  have hlookup : (s.world.clients c).handler.mPlayers.lookup j = some p := AList.mem_lookup_iff.mpr he
  have hstatus : (s.world.clients c).handler.mPlayers.status j = some (some (.player, o.life)) := by
    simp [PlayerTable.status, hlookup, PlayerGameData.status, ho, hkind]
  obtain rfl := (h.sequenced.figures c hc j _ _ hstatus).mp rfl
  have hid : (s.world.clients j).handler.connectionIDOnServer = j := by
    obtain hid | ⟨hfresh, -⟩ := h.sequenced.registers j hc
    · exact hid
    · exact absurd (Dict.mem_of_lookup hlookup) (hfresh.table j)
  refine ⟨hid, o, ?_⟩
  rw [ClientHandler.ownPlayer, if_pos (h.opened j), hid, hlookup, Option.bind_some, ho,
    Option.filter_some_pos hu]

theorem Kept.clientFire (h : s.Kept) {k : ℕ} {c : Connection} {pos : Vector2}
    (he : s.world.EnabledInOrder (.client c (.fireOffensiveBomb pos)))
    (hp : (s.world.clients c).handler.mPlayers.playing = true) :
    (s.next k (.client c (.fireOffensiveBomb pos))).Kept := by
  obtain ⟨hid, o, ho⟩ := h.ownPlayer (enabled_client (enabled_of_inOrder he)).1 hp
  have hsent : (ClientSession.act (.fireOffensiveBomb pos) (s.world.clients c).handler).sent =
      [.offensiveBombData ⟨roomID, c, pos.toVector3⟩] := by
    simp [ClientSession.act, ClientHandler.sendBombData, ho, hid]
  have hrelay : (s.next k (.client c (.fireOffensiveBomb pos))).relay =
      (s.relay.issue (s.bomb k c)).submit (s.bomb k c) c 1 := by
    change (s.relay.issue _).submit _ c (ClientSession.act _ _).sent.length = _
    rw [hsent]
    rfl
  constructor
  · exact h.sequenced.next he
  · exact h.opened_client c _
  · rw [hrelay]
    exact h.numbered_issue k c
  · rw [hrelay]
    exact h.audience_issue k c
  · rw [hrelay]
    exact h.balanced.enter (h.fresh k c)
  · intro n
    rw [hrelay]
    have hworld : (s.next k (.client c (.fireOffensiveBomb pos))).world.toServer =
        s.world.toServer ++ [c].map (fun m => (m, .offensiveBombData ⟨roomID, c, pos.toVector3⟩)) := by
      change s.world.toServer ++ (ClientSession.act _ _).sent.map _ = _
      rw [hsent]
      rfl
    rw [hworld, channel_append, channel_map_const]
    change Aligned _ (Function.update s.relay.up c (s.relay.up c ++ [s.bomb k c]) n)
    by_cases hn : n = c
    · subst hn
      rw [Function.update_self, List.count_singleton_self]
      exact (h.up n).append (aligned_replicate 1 rfl)
    · rw [Function.update_of_ne hn, List.count_singleton, if_neg (by simpa using Ne.symm hn),
        List.replicate_zero, List.append_nil]
      exact h.up n
  · rw [hrelay]
    exact h.down
  · rw [hrelay]
    exact h.saw
  · exact h.spawns
  · exact h.causes

theorem Kept.next_clientRead (h : s.Kept) (k : ℕ) {c : Connection} {d : OffensiveBombData}
    (he : s.world.EnabledInOrder (.client c (.receive (.offensiveBombData d))))
    (hq : (ClientSession.act (.receive (.offensiveBombData d)) (s.world.clients c).handler).thrown =
      none) :
    ∃ b bs q, channel c s.world.toClient = .offensiveBombData d :: q ∧ s.relay.down c = b :: bs ∧
      Aligned q bs ∧ s.next k (.client c (.receive (.offensiveBombData d))) =
        ⟨s.world.next (.client c (.receive (.offensiveBombData d))), s.relay.deliver c,
          (if (s.world.clients c).handler.mPlayers.showsHologram b.firer then [(b, c)] else []) ++
            s.sawFirer,
          (if (s.world.clients c).handler.mPlayers.showsHologram b.firer then [(some b, c)] else []) ++
            s.spawned⟩ := by
  obtain ⟨-, hhead⟩ := he
  obtain ⟨q, hchannel⟩ := List.head?_eq_some_iff.mp hhead
  have halign := h.down c
  rw [hchannel] at halign
  obtain ⟨b, bs, hdown, hfirer, hrest⟩ := halign.read
  refine ⟨b, bs, q, hchannel, hdown, hrest, ?_⟩
  have hcause : s.cause k (.client c (.receive (.offensiveBombData d))) = some b := by
    simp only [cause, hdown, List.head?_cons]
  have hraised : (s.raised (.client c (.receive (.offensiveBombData d)))).filter Event.isSpawn = _ :=
    ClientHandler.handleOffensiveBombData_quiet hq
  rw [← hfirer] at hraised
  have hsaw : s.sawFirerAfter k (.client c (.receive (.offensiveBombData d))) =
      if (s.world.clients c).handler.mPlayers.showsHologram b.firer then (b, c) :: s.sawFirer
      else s.sawFirer := by
    simp only [sawFirerAfter, hcause]
    rfl
  simp only [BombSession.next, relayAfter, node, hcause, hraised, hsaw]
  split_ifs <;> rfl

theorem Kept.clientRead (h : s.Kept) {k : ℕ} {c : Connection} {d : OffensiveBombData}
    (he : s.world.EnabledInOrder (.client c (.receive (.offensiveBombData d))))
    (hq : (ClientSession.act (.receive (.offensiveBombData d)) (s.world.clients c).handler).thrown =
      none) :
    (s.next k (.client c (.receive (.offensiveBombData d)))).Kept := by
  obtain ⟨b, bs, q, hchannel, hdown, hrest, hnext⟩ := h.next_clientRead k he hq
  have hdeliver := Relay.deliver_cons hdown
  rw [hnext]
  constructor
  · exact h.sequenced.next he
  · exact h.opened_client c _
  · rw [hdeliver]
    exact h.numbered
  · rw [hdeliver]
    exact h.audience
  · exact h.balanced.deliver hdown
  · rw [hdeliver]
    exact h.up_client c (fun _ => nofun)
  · intro n
    rw [hdeliver]
    exact aligned_pop hchannel hrest h.down n
  · rw [hdeliver]
    split_ifs
    · exact h.saw.cons_cons _
    · exact h.saw.cons _
  · intro b' n
    have hcount := h.spawns b' n
    split_ifs
    · simp only [List.singleton_append, List.count_cons, beq_iff_eq, Prod.mk.injEq,
        Option.some.injEq, hcount]
    · exact hcount
  · intro n hmem
    obtain hmem | hmem := List.mem_append.mp hmem
    · split_ifs at hmem
      · nomatch List.mem_singleton.mp hmem
      · exact absurd hmem List.not_mem_nil
    · exact h.causes n hmem

def thrown (s : BombSession) : WorldAction → Option Exn
  | .host a => (HostSession.act a s.world.host.handler).thrown
  | .client c a => (ClientSession.act a (s.world.clients c).handler).thrown
  | _ => none

/-- Packets are delivered in order, and a client fires bombs while its player is in the scene. -/
def Enabled (s : BombSession) (a : WorldAction) : Prop :=
  s.world.EnabledInOrder a ∧
    match a with
    | .client c (.fireOffensiveBomb _) => (s.world.clients c).handler.mPlayers.playing = true
    | _ => True

theorem Kept.next (h : s.Kept) (k : ℕ) {a : WorldAction} (he : s.Enabled a) (hq : s.thrown a = none) :
    (s.next k a).Kept := by
  cases a with
  | host a =>
    by_cases hfire : ∃ pos, a = .fireOffensiveBomb pos
    · obtain ⟨pos, rfl⟩ := hfire
      exact h.hostFire he.1
    · by_cases hread : ∃ c d, a = .receive c (.offensiveBombData d)
      · obtain ⟨c, d, rfl⟩ := hread
        exact h.hostRead he.1 hq
      · exact h.hostIdle he.1 (fun pos ha => hfire ⟨pos, ha⟩) (fun c d ha => hread ⟨c, d, ha⟩)
  | client c a =>
    by_cases hfire : ∃ pos, a = .fireOffensiveBomb pos
    · obtain ⟨pos, rfl⟩ := hfire
      exact h.clientFire he.1 he.2
    · by_cases hread : ∃ d, a = .receive (.offensiveBombData d)
      · obtain ⟨d, rfl⟩ := hread
        exact h.clientRead he.1 hq
      · exact h.clientIdle he.1 (fun pos ha => hfire ⟨pos, ha⟩) (fun d ha => hread ⟨d, ha⟩)
  | loseToServer | loseToClient => exact he.1.elim

theorem stray_nil (b : Bomb) : s.stray b [] = s := by
  have hdown (n : UInt32) : s.relay.down n ++ List.replicate (List.count n []) b = s.relay.down n := by
    rw [List.count_nil, List.replicate_zero, List.append_nil]
  simp only [stray, Relay.spread, List.map_nil, List.append_nil, hdown]

end Steps

instance (s : BombSession) (a : WorldAction) : Decidable (s.Enabled a) := by
  rcases a with _ | ⟨_, _ | _⟩ | _ <;> dsimp only [Enabled] <;> infer_instance

end BombSession

/-- The sessions that one process hosts one after the other. `disabled` are the handlers of the ended
ones with the number of their session, newest first. -/
structure BombProcess where
  sessions : ℕ → BombSession
  current : ℕ
  disabled : List (ℕ × ServerHandler)

inductive BombAction
  | play (session : ℕ) (a : WorldAction)
  | endSession
deriving DecidableEq

namespace BombProcess

def start : BombProcess := ⟨fun _ => .start, 0, []⟩

/-- The host only plays the current session; the clients of an ended one may be left with packets. -/
def Enabled (s : BombProcess) : BombAction → Prop
  | .play k (.host a) => k = s.current ∧ (s.sessions k).Enabled (.host a)
  | .play k a => k ≤ s.current ∧ (s.sessions k).Enabled a
  | .endSession => True

instance (s : BombProcess) (a : BombAction) : Decidable (s.Enabled a) := by
  rcases a with ⟨_, _ | _⟩ | _ <;> dsimp only [Enabled] <;> infer_instance

/-- What the disabled handlers send to the clients of session `k` when the host fires a bomb. -/
def strays (s : BombProcess) (pos : Vector2) (k : ℕ) : List (Connection × Packet) :=
  (channel k s.disabled).flatMap (fun t => (t.sendBombDataFromServer pos).sent)

def sessionsAfter (s : BombProcess) : BombAction → ℕ → BombSession
  | .play k (.host (.fireOffensiveBomb pos)) => fun j =>
    (Function.update s.sessions k ((s.sessions k).next k (.host (.fireOffensiveBomb pos))) j).stray
      ((s.sessions k).bomb k serverPlayerID) (s.strays pos j)
  | .play k a => Function.update s.sessions k ((s.sessions k).next k a)
  | .endSession => s.sessions

def next (s : BombProcess) (a : BombAction) : BombProcess where
  sessions := s.sessionsAfter a
  current := match a with
    | .play _ _ => s.current
    | .endSession => s.current + 1
  disabled := match a with
    | .play _ _ => s.disabled
    | .endSession => (s.current, (s.sessions s.current).world.host.handler.endSession) :: s.disabled

def system : System BombProcess BombAction := ⟨Enabled, next⟩

instance (s : BombProcess) (a : BombAction) : Decidable (system.enabled s a) :=
  inferInstanceAs (Decidable (s.Enabled a))

def Quiet (s : BombProcess) : BombAction → Prop
  | .play k a => (s.sessions k).thrown a = none
  | .endSession => True

instance (s : BombProcess) (a : BombAction) : Decidable (s.Quiet a) := by
  cases a <;> dsimp only [Quiet] <;> infer_instance

structure Kept (s : BombProcess) : Prop where
  sessions : ∀ k, (s.sessions k).Kept
  disabled : ∀ e ∈ s.disabled, e.2.server = false

theorem start_kept : start.Kept := ⟨fun _ => BombSession.start_kept, fun _ h => absurd h List.not_mem_nil⟩

theorem Kept.strays_nil {s : BombProcess} (h : s.Kept) (pos : Vector2) (k : ℕ) : s.strays pos k = [] := by
  apply List.flatMap_eq_nil_iff.mpr
  intro t ht
  exact ServerHandler.sendBomb_closed (h.disabled (k, t) (mem_channel.mp ht)) pos serverPlayerID

theorem Kept.sessions_play {s : BombProcess} (h : s.Kept) (k : ℕ) (a : WorldAction) :
    s.sessionsAfter (.play k a) = Function.update s.sessions k ((s.sessions k).next k a) := by
  by_cases ha : ∃ pos, a = .host (.fireOffensiveBomb pos)
  · obtain ⟨pos, rfl⟩ := ha
    funext j
    simp only [sessionsAfter, h.strays_nil, BombSession.stray_nil]
  · cases a with
    | host a =>
      cases a with
      | fireOffensiveBomb pos => exact absurd ⟨pos, rfl⟩ ha
      | _ => rfl
    | _ => rfl

theorem Kept.next {s : BombProcess} (h : s.Kept) {a : BombAction} (he : s.Enabled a) (hq : s.Quiet a) :
    (s.next a).Kept := by
  cases a with
  | play k a =>
    refine ⟨?_, h.disabled⟩
    have henabled : (s.sessions k).Enabled a := by
      cases a <;> exact he.2
    have hkept : ((s.sessions k).next k a).Kept := (h.sessions k).next k henabled hq
    intro j
    simp only [BombProcess.next, h.sessions_play]
    by_cases hj : j = k
    · subst hj
      rwa [Function.update_self]
    · rw [Function.update_of_ne hj]
      exact h.sessions j
  | endSession =>
    refine ⟨h.sessions, ?_⟩
    intro e hmem
    obtain rfl | hmem := List.mem_cons.mp hmem
    · rfl
    · exact h.disabled e hmem

theorem bombs_shown_once {as : List BombAction} (hl : system.Legal start as)
    (hq : system.Meets Quiet start as) (k : ℕ) : ((system.run start as).sessions k).ShownOnce := by
  have hstep (s : BombProcess) (a : BombAction) (hi : s.Kept) (he : system.enabled s a)
      (ha : s.Quiet a) : (system.next s a).Kept := hi.next he ha
  exact ((System.invariant_run hstep start_kept hl hq).sessions k).shownOnce

def twoSessions : List BombAction :=
  let bombs : List WorldAction :=
    [.client 1 (.fireOffensiveBomb ⟨1, 2⟩), .host (.receive 1 (.offensiveBombData ⟨1, 1, ⟨1, 2, 0⟩⟩)),
      .client 2 (.receive (.offensiveBombData ⟨1, 1, ⟨1, 2, 0⟩⟩)), .host (.fireOffensiveBomb ⟨0, 1⟩),
      .client 1 (.receive (.offensiveBombData ⟨1, 0, ⟨0, 1, 0⟩⟩)),
      .client 2 (.receive (.offensiveBombData ⟨1, 0, ⟨0, 1, 0⟩⟩))]
  (World.twoJoin ++ bombs).map (.play 0) ++ [.endSession] ++ (World.twoJoin ++ bombs).map (.play 1)

theorem bombs_shown_once_twoSessions : ((system.run start twoSessions).sessions 1).ShownOnce :=
  bombs_shown_once (by decide +kernel) (by decide +kernel) 1

end BombProcess

end SeminarTouhou
