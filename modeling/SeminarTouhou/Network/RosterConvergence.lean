import SeminarTouhou.Network.RosterSession

namespace SeminarTouhou

open Library

namespace RosterSession

open World

abbrev table (s : RosterSession) (c : Connection) : PlayerTable := (s.world.clients c).handler.mPlayers

def InLevel (s : RosterSession) (c : Connection) : Prop :=
  (s.world.clients c).scene = 4 ∧ (s.world.clients c).handler.mGameState = .gameStarted

/-- Once all is delivered and every live player was positioned, each client in the level shows the
live players but itself. -/
def Converged (s : RosterSession) : Prop :=
  s.world.host.handler.mGameState = .gameStarted →
  (∀ k ∈ s.world.live, k ∈ s.positioned) →
  (∀ c ∈ s.world.host.handler.connectedClients, s.InLevel c → channel c s.world.toClient = []) →
  ∀ c ∈ s.world.host.handler.connectedClients, s.InLevel c →
    ∀ k, (s.table c).showsHologram k = true ↔ k ∈ s.world.live ∧ k ≠ c

/-- The connection is open in the game and its player has not finished. -/
def MidGame (w : World) (c : Connection) : Prop :=
  w.host.handler.mGameState ≠ .searchingForPlayers ∧ c ∈ w.live

instance (w : World) (c : Connection) : Decidable (MidGame w c) :=
  inferInstanceAs (Decidable (_ ∧ _))

/-- No player leaves the game before its finish, and the clients keep the finished players dead. -/
def Announced (s : RosterSession) : WorldAction → Prop
  | .host (.statusCallback .closedByPeer c) => ¬MidGame s.world c
  | .host (.statusCallback .problemDetectedLocally c) => ¬MidGame s.world c
  | .client c a => s.session.Buried (.client c a)
  | _ => True

instance (s : RosterSession) (a : WorldAction) : Decidable (s.Announced a) := by
  rcases a with (⟨_ | _, _⟩ | _) | _ <;> dsimp only [Announced] <;> infer_instance

theorem mem_live {w : World} {k : UInt32} : k ∈ w.live ↔
    (k = serverPlayerID ∨ k ∈ w.host.handler.connectedClients) ∧ k ∉ w.host.handler.mPlayerResults := by
  simp only [World.live, List.mem_filter, List.mem_cons, decide_eq_true_eq]

def Heard (s : RosterSession) (c k : UInt32) : Prop :=
  k ∈ s.table c ∨ ∃ d : PlayerData, d.playerID = k ∧ (c, .playerData d) ∈ s.world.toClient

def ToldFinish (s : RosterSession) (c k : UInt32) : Prop :=
  (c, k) ∈ s.session.finished ∨
    ∃ d : OtherClientFinishState, d.playerID = k ∧ (c, .otherPlayerFinish d) ∈ s.world.toClient

structure Converging (s : RosterSession) : Prop where
  lobby : s.world.host.handler.mGameState = .searchingForPlayers →
    ∀ c, c ≠ 0 → ∀ k, k ≠ c → ¬s.Heard c k
  accounted : s.world.host.handler.mGameState ≠ .searchingForPlayers →
    ∀ c ∈ s.world.host.handler.connectedClients, ∀ k, k ≠ c →
      k ∈ s.world.host.handler.mPlayers ∨ s.Heard c k → k ∈ s.world.live ∨ s.ToldFinish c k
  told : ∀ c k, s.ToldFinish c k → k ∈ s.world.host.handler.mPlayerResults
  positioned : ∀ k ∈ s.positioned, ∀ c ∈ s.world.host.handler.connectedClients, k ≠ c → s.Heard c k
  drawn : ∀ c, c ≠ 0 → (s.world.clients c).scene = 4 → ∀ k ∈ s.table c, k ≠ c →
    (s.table c).Shown k ∨ (c, k) ∈ s.session.finished
  atRest : s.session.ClientsAtRest

theorem start_converging : start.Converging where
  lobby := by
    rintro - c - k - (hk | ⟨d, -, hd⟩)
    · exact AList.notMem_empty k hk
    · exact List.not_mem_nil hd
  accounted := fun h => absurd rfl h
  told := by
    rintro c k (hk | ⟨d, -, hd⟩)
    · exact absurd hk List.not_mem_nil
    · exact absurd hd List.not_mem_nil
  positioned := fun k hk => absurd hk List.not_mem_nil
  drawn := fun c _ _ k hk => absurd hk (AList.notMem_empty k)
  atRest := fun e he => absurd he List.not_mem_nil

theorem Converging.converged {s : RosterSession} (ho : s.Ordered) (h : s.Converging) : s.Converged := by
  intro hg hpos hread c hc hin k
  have hc0 : c ≠ 0 := by
    rintro rfl
    exact ho.sequenced.roster.nonzero hc
  have hplaying : s.world.host.handler.mGameState ≠ .searchingForPlayers := by
    rw [hg]
    nofun
  have hnone : ∀ p, (c, p) ∉ s.world.toClient := by
    intro p hp
    have hq := mem_channel.mpr hp
    rw [hread c hc hin] at hq
    exact absurd hq List.not_mem_nil
  constructor
  · intro hshow
    have hne : k ≠ c := by
      rintro rfl
      obtain ⟨life, hs, -⟩ := PlayerTable.showsHologram_iff.mp hshow
      exact absurd ((ho.sequenced.figures k hc0 k _ _ hs).mpr rfl) nofun
    refine ⟨?_, hne⟩
    have hlive := PlayerTable.live_of_showsHologram hshow
    obtain hk | hfin | ⟨d, -, hd⟩ :=
      h.accounted hplaying c hc k hne (Or.inr (Or.inl (PlayerTable.mem_of_live hlive)))
    · exact hk
    · have hdead := h.atRest (c, k) hfin
      rw [hlive] at hdead
      nomatch hdead
    · exact absurd hd (hnone _)
  · rintro ⟨hk, hne⟩
    obtain hmem | ⟨d, -, hd⟩ := h.positioned k (hpos k hk) c hc hne
    · obtain hshown | hfin := h.drawn c hc0 hin.1 k hmem hne
      · exact hshown.showsHologram
      · exact absurd (h.told c k (Or.inl hfin)) (mem_live.mp hk).2
    · exact absurd hd (hnone _)

section Steps

variable {s : RosterSession}

theorem table_client {c d : Connection} {a : ClientAction} : (s.next (.client d a)).table c =
    if c = d then (ClientSession.act a (s.world.clients d).handler).state.mPlayers else s.table c := by
  by_cases hcd : c = d
  · subst hcd
    simp [table, RosterSession.next, FinishSession.next, World.next, clientStep]
  · simp [table, RosterSession.next, FinishSession.next, World.next, clientStep, hcd]

theorem heard_client (ho : s.Ordered) {d : Connection} {a : ClientAction}
    (he : s.Enabled (.client d a)) {c k : UInt32} (hne : k ≠ c)
    (h : (s.next (.client d a)).Heard c k) : s.Heard c k := by
  have hw := enabled_of_inOrder he.1
  obtain hk | ⟨p, hp, hmem⟩ := h
  · rw [table_client] at hk
    by_cases hcd : c = d
    · subst hcd
      rw [if_pos rfl, ← PlayerTable.status_isSome] at hk
      have hentry := ClientSession.entry_act a (s.world.clients c).handler k
      generalize (ClientSession.act a (s.world.clients c).handler).state.mPlayers.status k = x
        at hentry hk
      cases hentry with
      | same => exact Or.inl (PlayerTable.status_isSome.mp hk)
      | met p hp => exact Or.inr ⟨p, hp.symm, hw.2.2⟩
      | registered p hp =>
        have hid := ho.sequenced.labels.registers c p hw.2.2
        exact absurd (hp.trans (by rw [hid])) hne
      | finished p hp hold => exact Or.inl hold
      | own position hown => exact absurd (hown.trans (ho.sequenced.level hw)) hne
      | rebuilt position hown hold => exact Or.inl hold
      | absent => nomatch hk
      | unloaded scene position hscene y hold => exact Or.inl (PlayerTable.mem_of_status hold)
      | aged _ kind life life' hold => exact Or.inl (PlayerTable.mem_of_status hold)
    · rw [if_neg hcd] at hk
      exact Or.inl hk
  · exact Or.inr ⟨p, hp, toClientAfter_subset s.world d a hmem⟩

theorem heard_host {a : HostAction} {c k : UInt32} (h : (s.next (.host a)).Heard c k) :
    s.Heard c k ∨ a = .sendPlayerData ∧ k ∈ s.world.host.handler.mPlayers := by
  obtain hk | ⟨p, hp, hmem⟩ := h
  · exact Or.inl (Or.inl hk)
  · obtain hmem | hmem := List.mem_append.mp hmem
    · exact Or.inl (Or.inr ⟨p, hp, hmem⟩)
    · have ht : HostSession.Tells a s.world.host.handler c (.playerData p) :=
        HostSession.tells_act hmem
      generalize hq : Packet.playerData p = q at ht
      cases ht with
      | position p' ha hk =>
        obtain rfl := Packet.playerData.inj hq
        exact Or.inr ⟨ha, hp ▸ hk⟩
      | finish | bomb => nomatch hq
      | other q hnone =>
        subst hq
        nomatch hnone

theorem known_client {t : ClientHandler} {a : ClientAction} {k : UInt32} (hk : k ∈ t.mPlayers) :
    k ∈ (ClientSession.act a t).state.mPlayers := by
  rw [← PlayerTable.status_isSome]
  have hentry := ClientSession.entry_act a t k
  generalize (ClientSession.act a t).state.mPlayers.status k = x at hentry ⊢
  cases hentry with
  | same => exact PlayerTable.status_isSome.mpr hk
  | absent scene position hnew => exact absurd hk hnew
  | met | registered | finished | own | rebuilt | unloaded | aged => rfl

theorem Heard.next (ho : s.Ordered) {a : WorldAction} (he : s.Enabled a) {c k : UInt32} (hc : c ≠ 0)
    (hne : k ≠ c) (h : s.Heard c k) : (s.next a).Heard c k := by
  cases a with
  | loseToServer | loseToClient => exact he.1.elim
  | host a =>
    obtain hk | ⟨p, hp, hmem⟩ := h
    · exact Or.inl hk
    · exact Or.inr ⟨p, hp, List.mem_append_left _ hmem⟩
  | client d a =>
    obtain hk | ⟨p, hp, hmem⟩ := h
    · left
      rw [table_client]
      by_cases hcd : c = d
      · subst hcd
        rw [if_pos rfl]
        exact known_client hk
      · rwa [if_neg hcd]
    · by_cases hread : d = c ∧ a = .receive (.playerData p)
      · obtain ⟨rfl, rfl⟩ := hread
        left
        have hid : (s.world.clients d).handler.connectionIDOnServer = d := by
          obtain hid | hq := ho.sequenced.id_of_read he.1
          · exact hid
          · nomatch hq
        rw [table_client, if_pos rfl]
        by_cases hold : k ∈ s.table d
        · exact known_client hold
        · have hown : p.playerID ≠ (s.world.clients d).handler.connectionIDOnServer := by
            rw [hid, hp]
            exact hne
          simp only [ClientSession.act, ClientHandler.receive, ClientHandler.handlePlayerData,
            if_neg hown]
          rw [← hp] at hold ⊢
          exact PlayerTable.mem_of_status (PlayerTable.handlePlayerData_new hold)
      · exact Or.inr ⟨p, hp, World.mem_toClientAfter hmem hread⟩

theorem ToldFinish.next {a : WorldAction} (he : s.Enabled a) {c k : UInt32} (h : s.ToldFinish c k) :
    (s.next a).ToldFinish c k := by
  cases a with
  | loseToServer | loseToClient => exact he.1.elim
  | host a =>
    obtain hk | ⟨p, hp, hmem⟩ := h
    · exact Or.inl hk
    · exact Or.inr ⟨p, hp, List.mem_append_left _ hmem⟩
  | client d a =>
    obtain hk | ⟨p, hp, hmem⟩ := h
    · exact Or.inl (FinishSession.finished_subset s.session _ hk)
    · by_cases hread : d = c ∧ a = .receive (.otherPlayerFinish p)
      · obtain ⟨rfl, rfl⟩ := hread
        exact Or.inl (hp ▸ List.mem_cons_self)
      · exact Or.inr ⟨p, hp, World.mem_toClientAfter hmem hread⟩

theorem toldFinish_inv {a : WorldAction} (he : s.Enabled a) {c k : UInt32}
    (h : (s.next a).ToldFinish c k) :
    s.ToldFinish c k ∨ k ∈ (s.next a).world.host.handler.mPlayerResults := by
  cases a with
  | loseToServer | loseToClient => exact he.1.elim
  | host a =>
    obtain hk | ⟨p, hp, hmem⟩ := h
    · exact Or.inl (Or.inl hk)
    · obtain hmem | hmem := List.mem_append.mp hmem
      · exact Or.inl (Or.inr ⟨p, hp, hmem⟩)
      · have ht : HostSession.Tells a s.world.host.handler c (.otherPlayerFinish p) :=
          HostSession.tells_act hmem
        generalize hq : Packet.otherPlayerFinish p = q at ht
        cases ht with
        | finish p' hk hk' =>
          obtain rfl := Packet.otherPlayerFinish.inj hq
          exact Or.inr (hp ▸ hk')
        | position | bomb => nomatch hq
        | other q hnone =>
          subst hq
          nomatch hnone
  | client d a =>
    left
    obtain hk | ⟨p, hp, hmem⟩ := h
    · cases a with
      | receive p =>
        cases p with
        | otherPlayerFinish q =>
          obtain heq | hk := List.mem_cons.mp hk
          · obtain ⟨rfl, rfl⟩ := Prod.mk.inj heq
            exact Or.inr ⟨q, rfl, (enabled_of_inOrder he.1).2.2⟩
          · exact Or.inl hk
        | _ => exact Or.inl hk
      | _ => exact Or.inl hk
    · exact Or.inr ⟨p, hp, toClientAfter_subset s.world d a hmem⟩

theorem started_of_playing (ho : s.Ordered)
    (hg : s.world.host.handler.mGameState ≠ .searchingForPlayers) : s.started = true := by
  cases hs : s.started with
  | true => rfl
  | false => exact absurd (ho.unstarted hs).2 hg

theorem lobby_before {a : HostAction}
    (h : (s.next (.host a)).world.host.handler.mGameState = .searchingForPlayers) :
    s.world.host.handler.mGameState = .searchingForPlayers := by
  obtain hp | ⟨-, hp⟩ | ⟨-, hp⟩ := HostSession.phase_act a s.world.host.handler
  · exact hp.symm.trans h
  · exact absurd (hp.symm.trans h) nofun
  · exact absurd (hp.symm.trans h) nofun

theorem sender_shown (ho : s.Ordered) {b : Connection} {d : PlayerSendResultData}
    (he : s.Enabled (.host (.receive b (.storePlayerResults d))))
    (hr : d.playerID ∉ s.world.host.handler.mPlayerResults) :
    s.world.host.handler.mPlayers.Shown d.playerID := by
  obtain ⟨⟨⟨hg, hmem⟩, hopen, -⟩, -⟩ := he
  have hid : d.playerID = b := by simpa [Packet.claimedID] using ho.sequenced.signed b _ hmem
  have hstate : s.world.host.handler.mGameState = .gameStarted := hg
  have hplaying := started_of_playing ho (by rw [hstate]; simp)
  rw [hid] at hr ⊢
  exact ho.shows hstate b (ho.playing hplaying b hopen) hr

theorem live_next (ho : s.Ordered) {a : HostAction} (he : s.Enabled (.host a))
    (hok : s.Announced (.host a)) (hg : s.world.host.handler.mGameState ≠ .searchingForPlayers)
    {c k : UInt32} (hc : c ∈ s.world.host.handler.connectedClients) (hne : k ≠ c)
    (hk : k ∈ s.world.live) :
    k ∈ (s.next (.host a)).world.live ∨ (s.next (.host a)).ToldFinish c k := by
  obtain ⟨hwho, hr⟩ := mem_live.mp hk
  by_cases hr' : k ∈ (HostSession.act a s.world.host.handler).state.mPlayerResults
  · right
    right
    have hshown : ∀ b d, a = .receive b (.storePlayerResults d) →
        d.playerID ∉ s.world.host.handler.mPlayerResults →
        s.world.host.handler.mPlayers.Shown d.playerID := by
      rintro b d rfl hd
      exact sender_shown ho he hd
    obtain ⟨d, hd, hmem⟩ := HostSession.finish_told ho.sequenced.roster.server hr hr' hshown hc hne.symm
    exact ⟨d, hd, List.mem_append_right _ hmem⟩
  · left
    refine mem_live.mpr ⟨?_, hr'⟩
    obtain h0 | hkc := hwho
    · exact Or.inl h0
    · right
      obtain hkept | rfl | rfl := HostSession.clients_kept (a := a) hkc
      · exact hkept
      · exact absurd ⟨hg, hk⟩ hok
      · exact absurd ⟨hg, hk⟩ hok

theorem accounted_start (ho : s.Ordered) (h : s.Converging) {a : HostAction}
    (he : s.Enabled (.host a)) (hl : s.world.host.handler.mGameState = .searchingForPlayers)
    (hg : (s.next (.host a)).world.host.handler.mGameState ≠ .searchingForPlayers) {c k : UInt32}
    (hc : c ≠ 0) (hne : k ≠ c)
    (hk : k ∈ (s.next (.host a)).world.host.handler.mPlayers ∨ (s.next (.host a)).Heard c k) :
    k ∈ (s.next (.host a)).world.live := by
  have hlevel : (∃ position, a = .levelLoaded position) ∨ a = .endCheck true := by
    obtain hp | ⟨hp, -⟩ | ⟨hp, -⟩ := HostSession.phase_act a s.world.host.handler
    · exact absurd (hp.trans hl) hg
    · exact Or.inl hp
    · exact Or.inr hp
  have hclients : (HostSession.act a s.world.host.handler).state.connectedClients =
      s.world.host.handler.connectedClients := by
    obtain ⟨position, rfl⟩ | rfl := hlevel <;> exact HostSession.clients_act (fun _ _ => nofun)
  have hresults : (HostSession.act a s.world.host.handler).state.mPlayerResults =
      s.world.host.handler.mPlayerResults := by
    obtain hr | ⟨r, rfl, -⟩ | ⟨b, d, rfl, -⟩ := HostSession.results_act a s.world.host.handler
    · exact hr
    · obtain ⟨position, h⟩ | h := hlevel <;> nomatch h
    · obtain ⟨position, h⟩ | h := hlevel <;> nomatch h
  obtain ⟨hempty, hkeys, -⟩ := ho.sequenced.roster.lobby hl
  have hwho : k = serverPlayerID ∨ k ∈ s.world.host.handler.connectedClients := by
    obtain hk | hk := hk
    · obtain hk | h0 | rfl | ⟨b, p, rfl, -⟩ := HostSession.keys_act ho.sequenced.roster.server hk
      · exact Or.inr (hkeys k hk)
      · exact Or.inl h0
      · obtain ⟨position, h⟩ | h := hlevel <;> nomatch h
      · obtain ⟨position, h⟩ | h := hlevel <;> nomatch h
    · obtain hk | ⟨-, hk⟩ := heard_host hk
      · exact absurd hk (h.lobby hl c hc k hne)
      · exact Or.inr (hkeys k hk)
  refine mem_live.mpr ⟨?_, ?_⟩
  · change k = serverPlayerID ∨ k ∈ (HostSession.act a s.world.host.handler).state.connectedClients
    rwa [hclients]
  · change k ∉ (HostSession.act a s.world.host.handler).state.mPlayerResults
    rw [hresults]
    exact hempty k

theorem accounted_host (ho : s.Ordered) (h : s.Converging) {a : HostAction}
    (he : s.Enabled (.host a)) (hok : s.Announced (.host a))
    (hg : (s.next (.host a)).world.host.handler.mGameState ≠ .searchingForPlayers) {c k : UInt32}
    (hc : c ∈ (s.next (.host a)).world.host.handler.connectedClients) (hne : k ≠ c)
    (hk : k ∈ (s.next (.host a)).world.host.handler.mPlayers ∨ (s.next (.host a)).Heard c k) :
    k ∈ (s.next (.host a)).world.live ∨ (s.next (.host a)).ToldFinish c k := by
  have hroster := (ho.next he).sequenced.roster
  have hc0 : c ≠ 0 := by
    rintro rfl
    exact hroster.nonzero hc
  by_cases hl : s.world.host.handler.mGameState = .searchingForPlayers
  · exact Or.inl (accounted_start ho h he hl hg hc0 hne hk)
  · have hstarted := started_of_playing ho hl
    obtain rfl | ⟨hcl, -⟩ := HostSession.clients_next ho.sequenced.roster hc
    · exact absurd (hstarted.symm.trans he.2) nofun
    · have hbefore : k ∈ s.world.host.handler.mPlayers ∨ s.Heard c k := by
        obtain hk | hk := hk
        · obtain hk | rfl | rfl | ⟨b, p, rfl, hp⟩ := HostSession.keys_act ho.sequenced.roster.server hk
          · exact Or.inl hk
          · exact Or.inl (ho.sequenced.roster.host hl)
          · exact absurd (hstarted.symm.trans he.2) nofun
          · have hid := ho.sequenced.signed b p he.1.1.2
            rw [hp] at hid
            obtain rfl : k = b := by simpa using hid
            exact Or.inl (ho.sequenced.roster.known k he.1.2.1)
        · obtain hk | ⟨-, hk⟩ := heard_host hk
          · exact Or.inr hk
          · exact Or.inl hk
      obtain hlive | htold := h.accounted hl c hcl k hne hbefore
      · exact live_next ho he hok hl hcl hne hlive
      · exact Or.inr (htold.next he)

theorem positioned_next (ho : s.Ordered) (h : s.Converging) {a : WorldAction} (he : s.Enabled a)
    {k c : UInt32} (hk : k ∈ s.positionedAfter a)
    (hc : c ∈ (s.next a).world.host.handler.connectedClients) (hne : k ≠ c) :
    (s.next a).Heard c k := by
  have hc0 : c ≠ 0 := by
    rintro rfl
    exact (ho.next he).sequenced.roster.nonzero hc
  have kept (hold : k ∈ s.positioned) : (s.next a).Heard c k := by
    have hcl : c ∈ s.world.host.handler.connectedClients := by
      cases a with
      | host a =>
        obtain rfl | ⟨hcl, -⟩ := HostSession.clients_next ho.sequenced.roster hc
        · rw [ho.unsent (ho.unstarted he.2).2] at hold
          exact absurd hold List.not_mem_nil
        · exact hcl
      | client d a => exact hc
      | loseToServer | loseToClient => exact hc
    exact (h.positioned k hold c hcl hne).next ho he hc0 hne
  by_cases ha : a = .host .sendPlayerData
  · subst ha
    obtain hk | hk := List.mem_append.mp hk
    · exact kept hk
    · obtain ⟨d, hd, hmem⟩ := HostSession.position_told ho.sequenced.roster.server hk hc hne.symm
      exact Or.inr ⟨d, hd, List.mem_append_right _ hmem⟩
  · apply kept
    cases a with
    | host a =>
      cases a with
      | sendPlayerData => exact absurd rfl ha
      | _ =>
        simp only [positionedAfter] at hk
        split_ifs at hk
        · exact hk
        · exact absurd hk List.not_mem_nil
    | _ =>
      simp only [positionedAfter] at hk
      split_ifs at hk
      · exact hk
      · exact absurd hk List.not_mem_nil

theorem Converging.host (ho : s.Ordered) (h : s.Converging) {a : HostAction}
    (he : s.Enabled (.host a)) (hok : s.Announced (.host a)) : (s.next (.host a)).Converging := by
  constructor
  · intro hl c hc k hne hk
    have hlobby := lobby_before hl
    obtain hk | ⟨rfl, -⟩ := heard_host hk
    · exact h.lobby hlobby c hc k hne hk
    · have hg : s.world.host.handler.mGameState = .gameStarted := he.1
      rw [hg] at hlobby
      nomatch hlobby
  · intro hg c hc k hne hk
    exact accounted_host ho h he hok hg hc hne hk
  · intro c k hk
    obtain hk | hk := toldFinish_inv he hk
    · exact HostSession.results_kept (h.told c k hk)
    · exact hk
  · intro k hk c hc hne
    exact positioned_next ho h he hk hc hne
  · exact h.drawn
  · exact h.atRest

theorem drawn_client (ho : s.Ordered) (h : s.Converging) {c : Connection} {a : ClientAction}
    (he : s.Enabled (.client c a)) (hscene : ((s.world.clients c).next a).scene = 4) {k : UInt32}
    (hk : k ∈ (ClientSession.act a (s.world.clients c).handler).state.mPlayers) (hne : k ≠ c) :
    (ClientSession.act a (s.world.clients c).handler).state.mPlayers.Shown k ∨
      (c, k) ∈ s.session.finishedAfter (.client c a) := by
  have hw := enabled_of_inOrder he.1
  have hc := (enabled_client hw).1
  rw [← PlayerTable.status_isSome] at hk
  unfold PlayerTable.Shown
  have hentry := ClientSession.entry_act a (s.world.clients c).handler k
  generalize (ClientSession.act a (s.world.clients c).handler).state.mPlayers.status k = x
    at hentry hk ⊢
  -- the level draws everybody anew; until then the scene was the level before the step
  have before (ha : ∀ scene position, a ≠ .loadScene scene position)
      (hold : k ∈ s.table c) : (s.table c).Shown k ∨ (c, k) ∈ s.session.finished := by
    refine h.drawn c hc ?_ k hold hne
    cases a with
    | loadScene scene position => exact absurd rfl (ha scene position)
    | _ => exact hscene
  have finished_mono := FinishSession.finished_subset s.session (.client c a)
  cases hentry with
  | same _ ha =>
    have hbefore := before ha (PlayerTable.status_isSome.mp hk)
    exact hbefore.imp_right (fun hfin => finished_mono hfin)
  | met => exact Or.inl rfl
  | registered d hd =>
    have hid := ho.sequenced.labels.registers c d hw.2.2
    exact absurd (hd.trans (by rw [hid])) hne
  | finished d hd hold =>
    subst hd
    exact Or.inr List.mem_cons_self
  | own position hown => exact absurd (hown.trans (ho.sequenced.level hw)) hne
  | rebuilt => exact Or.inl rfl
  | absent => nomatch hk
  | unloaded scene position hs => exact absurd hscene hs
  | aged _ kind life life' hold hlife ha =>
    obtain hshown | hfin := before ha (PlayerTable.mem_of_status hold)
    · left
      have heq := Option.some.inj (Option.some.inj (hold.symm.trans hshown))
      obtain ⟨rfl, rfl⟩ := Prod.mk.inj heq
      rw [hlife rfl rfl]
    · exact Or.inr (finished_mono hfin)

theorem Converging.client (ho : s.Ordered) (h : s.Converging) {d : Connection} {a : ClientAction}
    (he : s.Enabled (.client d a)) (hok : s.Announced (.client d a)) :
    (s.next (.client d a)).Converging := by
  constructor
  · intro hl c hc k hne hk
    exact h.lobby hl c hc k hne (heard_client ho he hne hk)
  · intro hg c hc k hne hk
    have hbefore := hk.imp_right (heard_client ho he hne)
    exact (h.accounted hg c hc k hne hbefore).imp_right (ToldFinish.next he)
  · intro c k hk
    obtain hk | hk := toldFinish_inv he hk
    · exact h.told c k hk
    · exact hk
  · intro k hk c hc hne
    exact positioned_next ho h he hk hc hne
  · intro c hc hscene k hk hne
    rw [table_client] at hk ⊢
    by_cases hcd : c = d
    · subst hcd
      rw [if_pos rfl] at hk ⊢
      refine drawn_client ho h he ?_ hk hne
      simpa only [RosterSession.next, FinishSession.next, World.next, clientStep,
        Function.update_self] using hscene
    · rw [if_neg hcd] at hk ⊢
      have hscene' : (s.world.clients c).scene = 4 := by
        simpa only [RosterSession.next, FinishSession.next, World.next, clientStep,
          Function.update_of_ne hcd] using hscene
      exact (h.drawn c hc hscene' k hk hne).imp_right
        (fun hfin => FinishSession.finished_subset s.session _ hfin)
  · exact (FinishSession.clientsAtRest_client h.atRest d a).mpr
      ((FinishSession.clientAtRest_iff h.atRest d a).mpr hok)

theorem Converging.next (ho : s.Ordered) (h : s.Converging) {a : WorldAction} (he : s.Enabled a)
    (hok : s.Announced a) : (s.next a).Converging := by
  cases a with
  | host a => exact h.host ho he hok
  | client d a => exact h.client ho he hok
  | loseToServer | loseToClient => exact he.1.elim

end Steps

theorem roster_converges {as : List WorldAction} (hl : system.Legal start as)
    (hok : system.Meets Announced start as) : (system.run start as).Converged := by
  have hstep (s : RosterSession) (a : WorldAction) (hi : s.Ordered ∧ s.Converging)
      (he : system.enabled s a) (ha : s.Announced a) :
      (system.next s a).Ordered ∧ (system.next s a).Converging :=
    ⟨hi.1.next he, hi.2.next hi.1 he ha⟩
  obtain ⟨ho, hi⟩ := System.invariant_run hstep ⟨start_ordered, start_converging⟩ hl hok
  exact hi.converged ho

/-- One of them closes its connection, and the host goes on. -/
def leavesUnannounced : List WorldAction :=
  twoJoin ++ [.host (.statusCallback .closedByPeer 2), .host .endOfFrame, .host .sendPlayerData,
    .client 1 (.receive (.playerData ⟨1, 0, ⟨0, 0, 0⟩, 12⟩))]

theorem leavesUnannounced_diverges : system.Legal start leavesUnannounced ∧
    ¬(system.run start leavesUnannounced).Converged := by
  refine ⟨by decide +kernel, ?_⟩
  intro h
  have hpositioned : ∀ k ∈ (system.run start leavesUnannounced).world.live,
      k ∈ (system.run start leavesUnannounced).positioned := by
    have hall : ((system.run start leavesUnannounced).world.live.all
      (fun k => k ∈ (system.run start leavesUnannounced).positioned)) = true := by decide +kernel
    simpa using hall
  have hread : ∀ c ∈ (system.run start leavesUnannounced).world.host.handler.connectedClients,
      (system.run start leavesUnannounced).InLevel c →
        channel c (system.run start leavesUnannounced).world.toClient = [] := by
    have hall : ((system.run start leavesUnannounced).world.host.handler.connectedClients.all
      (fun c => channel c (system.run start leavesUnannounced).world.toClient = [])) = true := by
      decide +kernel
    intro c hc _
    simpa using List.all_eq_true.mp hall c hc
  have hshow := (h (by decide +kernel) hpositioned hread 1 (by decide +kernel)
    ⟨by decide +kernel, by decide +kernel⟩ 2).mp (by decide +kernel)
  revert hshow
  decide +kernel

def leavesFinished : List WorldAction :=
  twoJoin ++ [.client 2 (.sendPlayerResults ⟨"guest", 1, 1, 1, .playerDied⟩),
    .host (.receive 2 (.storePlayerResults ⟨1, 2, 1, 1, 1, .playerDied, "guest"⟩)),
    .host (.statusCallback .closedByPeer 2), .host .endOfFrame, .host .sendPlayerData,
    .client 1 (.receive (.otherPlayerFinish ⟨1, 2, .playerDied⟩)),
    .client 1 (.receive (.playerData ⟨1, 0, ⟨0, 0, 0⟩, 12⟩))]

theorem roster_converges_leavesFinished : (system.run start leavesFinished).Converged :=
  roster_converges (by decide +kernel) (by decide +kernel)

end RosterSession

end SeminarTouhou
