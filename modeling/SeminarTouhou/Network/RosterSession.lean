import SeminarTouhou.Network.InOrder

namespace SeminarTouhou

open Library

/-- A session over a reliable transport. `started` says whether `START` was pressed and `positioned`
are the players whose position was broadcast since the live players last changed. -/
structure RosterSession where
  session : FinishSession
  started : Bool
  positioned : List UInt32

def World.live (w : World) : List UInt32 :=
  (serverPlayerID :: w.host.handler.connectedClients).filter (fun k => k ∉ w.host.handler.mPlayerResults)

namespace RosterSession

open World

abbrev world (s : RosterSession) : World := s.session.world

def start : RosterSession := ⟨.start, false, []⟩

/-- Packets are delivered in order, and nobody joins after `START`. -/
def Enabled (s : RosterSession) (a : WorldAction) : Prop :=
  s.world.EnabledInOrder a ∧
    match a with
    | .host (.statusCallback .connected _) => s.started = false
    | _ => True

instance (s : RosterSession) (a : WorldAction) : Decidable (s.Enabled a) := by
  rcases a with (⟨_ | _, _⟩ | _) | _ <;> dsimp only [Enabled] <;> infer_instance

def startedAfter (s : RosterSession) : WorldAction → Bool
  | .host .startGame => true
  | _ => s.started

def positionedAfter (s : RosterSession) (a : WorldAction) : List UInt32 :=
  match a with
  | .host .sendPlayerData => s.positioned ++ HostSession.broadcastKeys s.world.host.handler
  | a => if (s.world.next a).live = s.world.live then s.positioned else []

def next (s : RosterSession) (a : WorldAction) : RosterSession :=
  ⟨s.session.next a, s.startedAfter a, s.positionedAfter a⟩

def system : System RosterSession WorldAction := ⟨Enabled, next⟩

instance (s : RosterSession) (a : WorldAction) : Decidable (system.enabled s a) :=
  inferInstanceAs (Decidable (s.Enabled a))

structure Ordered (s : RosterSession) : Prop where
  sequenced : s.world.Sequenced
  shows : HostSession.Shows s.world.host
  playing : s.started = true →
    ∀ c ∈ s.world.host.handler.connectedClients, c ∈ s.world.host.participants
  unstarted : s.started = false → s.world.host.levelLoads = 0 ∧
    s.world.host.handler.mGameState = .searchingForPlayers
  unsent : s.world.host.handler.mGameState = .searchingForPlayers → s.positioned = []

theorem start_ordered : start.Ordered where
  sequenced := start_sequenced
  shows := HostSession.start_shows
  playing := fun h => nomatch h
  unstarted := fun _ => ⟨rfl, rfl⟩
  unsent := fun _ => rfl

section Steps

variable {s : RosterSession}

theorem lobby_loads (h : s.Ordered) {a : HostAction} (he : s.Enabled (.host a))
    (hs : s.startedAfter (.host a) = false) : (s.world.host.next a).levelLoads = 0 ∧
      (s.world.host.next a).handler.mGameState = .searchingForPlayers := by
  have hold : s.started = false := by
    cases a with
    | startGame => nomatch hs
    | _ => exact hs
  obtain ⟨hloads, hphase⟩ := h.unstarted hold
  constructor
  · cases a with
    | startGame => nomatch hs
    | levelLoaded position => exact absurd hloads (Nat.pos_iff_ne_zero.mp he.1)
    | _ => exact hloads
  · obtain hp | ⟨⟨position, rfl⟩, -⟩ | ⟨rfl, -⟩ := HostSession.phase_act a s.world.host.handler
    · exact hp.trans hphase
    · exact absurd hloads (Nat.pos_iff_ne_zero.mp he.1)
    · have hdec := (h.sequenced.roster.lobby hphase).2.2
      have hmem : true ∈ s.world.host.handler.endChecks := he.1
      have hcount := List.count_pos_iff.mpr hmem
      unfold HostSession.decided at hdec
      omega

theorem positioned_lobby (h : s.Ordered) {a : WorldAction} (he : s.Enabled a)
    (hs : (s.world.next a).host.handler.mGameState = .searchingForPlayers) :
    s.positionedAfter a = [] := by
  have hold : s.world.host.handler.mGameState = .searchingForPlayers := by
    cases a with
    | host a =>
      obtain hp | ⟨-, hp⟩ | ⟨-, hp⟩ := HostSession.phase_act a s.world.host.handler
      · exact hp.symm.trans hs
      · exact absurd (hp.symm.trans hs) nofun
      · exact absurd (hp.symm.trans hs) nofun
    | _ => exact hs
  have hnil := h.unsent hold
  cases a with
  | host a =>
    cases a with
    | sendPlayerData =>
      have hg : s.world.host.handler.mGameState = .gameStarted := he.1
      rw [hg] at hold
      nomatch hold
    | _ => simp only [positionedAfter, hnil, ite_self]
  | _ => simp only [positionedAfter, hnil, ite_self]

theorem Ordered.next (h : s.Ordered) {a : WorldAction} (he : s.Enabled a) : (s.next a).Ordered := by
  have hw := enabled_of_inOrder he.1
  refine ⟨h.sequenced.next he.1, shows_next h.sequenced.roster h.shows hw, ?_, ?_,
    positioned_lobby h he⟩
  · intro hs c hc
    cases a with
    | host a =>
      obtain rfl | ⟨hcl, hkeep⟩ := HostSession.clients_next h.sequenced.roster hc
      · have hunstarted : s.started = false := he.2
        exact absurd (hs.symm.trans hunstarted) nofun
      · by_cases ha : a = .startGame
        · subst ha
          exact hcl
        · have hold : s.started = true := by
            cases a with
            | startGame => exact absurd rfl ha
            | _ => exact hs
          exact hkeep (h.playing hold c hcl)
    | _ => exact h.playing hs c hc
  · intro hs
    cases a with
    | host a => exact lobby_loads h he hs
    | _ => exact h.unstarted hs

end Steps

end RosterSession

end SeminarTouhou
