import SeminarTouhou.Library.Simulation
import SeminarTouhou.Network.ClientLaws
import SeminarTouhou.Network.Frames
import SeminarTouhou.Network.Identities
import SeminarTouhou.Network.RosterLaws

namespace SeminarTouhou

open Library

open ServerHandler (ConnectionState)

section Following

variable {σ μ ε τ β α : Type*}

/-- Whatever `f` does where `A` holds, also before it throws, `N` can do in legal steps, together with
what `f` sends: `B` holds where it returns and `E` where it throws. -/
def Follows (N : System τ β) (A : σ → List μ → τ → Prop) (f : σ → Outcome σ μ ε)
    (B E : σ → List μ → τ → Prop) : Prop :=
  ∀ p out w, A p out w → ∃ v, N.Leads w v ∧
    ((f p).thrown = none → B (f p).state (out ++ (f p).sent) v) ∧
    ((f p).thrown ≠ none → E (f p).state (out ++ (f p).sent) v)

variable {N : System τ β} {A A' B B' C E E' : σ → List μ → τ → Prop} {f g : σ → Outcome σ μ ε}

theorem Follows.returns {g : σ → σ} (h : ∀ p out w, A p out w → B (g p) out w) :
    Follows N A (fun p => (.returns (g p) : Outcome σ μ ε)) B E := by
  intro p out w hA
  refine ⟨w, System.leads_refl w, fun _ => ?_, fun ht => absurd rfl ht⟩
  simpa using h p out w hA

theorem Follows.mono (h : Follows N A f B E) (hA : ∀ p out w, A' p out w → A p out w)
    (hB : ∀ p out w, B p out w → B' p out w) (hE : ∀ p out w, E p out w → E' p out w) :
    Follows N A' f B' E' := by
  intro p out w hp
  obtain ⟨v, hv, hreturn, hthrow⟩ := h p out w (hA p out w hp)
  exact ⟨v, hv, fun ht => hB _ _ _ (hreturn ht), fun ht => hE _ _ _ (hthrow ht)⟩

theorem Follows.andThen (hf : Follows N A f B E) (hg : Follows N B g C E) :
    Follows N A (fun p => (f p).andThen g) C E := by
  intro p out w hA
  obtain ⟨v, hv, hreturn, hthrow⟩ := hf p out w hA
  cases ht : (f p).thrown with
  | some e =>
    refine ⟨v, hv, ?_, ?_⟩
    · simp [Outcome.andThen, ht]
    · simpa [Outcome.andThen, ht] using hthrow (by simp [ht])
  | none =>
    obtain ⟨u, hu, hrest⟩ := hg _ _ v (hreturn ht)
    refine ⟨u, hv.trans hu, ?_⟩
    simpa [Outcome.andThen, ht, List.append_assoc] using hrest

theorem Follows.ite {P : σ → Prop} [DecidablePred P]
    (hf : Follows N (fun p out w => A p out w ∧ P p) f B E)
    (hg : Follows N (fun p out w => A p out w ∧ ¬P p) g B E) :
    Follows N A (fun p => if P p then f p else g p) B E := by
  intro p out w hA
  by_cases hP : P p
  · simpa only [if_pos hP] using hf p out w ⟨hA, hP⟩
  · simpa only [if_neg hP] using hg p out w ⟨hA, hP⟩

/-- `A` says what is still to come, and what the loop does not get to, `E` has to account for. -/
theorem Follows.forEach {A : List α → σ → List μ → τ → Prop} {f : α → σ → Outcome σ μ ε}
    (h : ∀ a as, Follows N (A (a :: as)) (f a) (A as) E) (as : List α) :
    Follows N (A as) (Outcome.forEach f as) (A []) E := by
  induction as with
  | nil => exact .returns (g := id) (fun _ _ _ hA => hA)
  | cons a as ih => exact (h a as).andThen ih

end Following

/-- What a step of the host discards with the connection that it closes. -/
def HostProcess.discarded (a : HostAction) (p : HostProcess) : List (Connection × Packet) :=
  p.socket.filter (fun e => (HostSession.act a p.session.handler).raised.any (Event.closes e.1))

theorem HostProcess.count_discarded (a : HostAction) (p : HostProcess) (e : Connection × Packet) :
    (p.discarded a ++ (p.perform a).state.socket).count e = p.socket.count e :=
  (List.filter_append_perm _ _).count_eq e

def ClientProcess.discarded (a : ClientAction) (p : ClientProcess) : List Packet :=
  p.socket.filter (fun _ => (ClientSession.act a p.session.handler).raised.any Event.isClose)

theorem ClientProcess.count_discarded (a : ClientAction) (p : ClientProcess) (m : Packet) :
    (p.discarded a ++ (p.perform a).state.socket).count m = p.socket.count m :=
  (List.filter_append_perm _ _).count_eq m

namespace FrameWorld

/-- `w` is the game in the terms of the handlers' actions: what has arrived and is not read is, as
far as they know, still on its way. -/
structure Matches (f : FrameWorld) (w : World) : Prop where
  host : w.host = f.host.session
  clients : ∀ c, w.clients c = (f.clients c).session
  accepted : w.accepted = f.host.accepted
  toServer : ∀ e, w.toServer.count e = f.host.socket.count e + f.toServer.count e
  toClient : ∀ c m, w.toClient.count (c, m) = (f.clients c).socket.count m + f.toClient.count (c, m)

/-- The states in which `Update` does more than dispatch callbacks. -/
def Reading (phase : GameState) : Prop :=
  phase ∈ [GameState.searchingForPlayers, .gameStarted, .resultsScreen]

instance (phase : GameState) : Decidable (Reading phase) :=
  inferInstanceAs (Decidable (phase ∈ [GameState.searchingForPlayers, .gameStarted, .resultsScreen]))

theorem start_matches : start.Matches .start := by
  constructor <;> intros <;> rfl

/-- In the middle of an `Update` of the host, which has taken `pending` from its socket. -/
structure HostIn (f : FrameWorld) (phase : GameState) (pending : List (Connection × Packet))
    (p : HostProcess) (out : List (Connection × Packet)) (w : World) : Prop where
  matched : { f with
    host := { p with socket := pending ++ p.socket }
    toClient := f.toClient ++ out }.Matches w
  phase : p.session.handler.mGameState = phase

theorem leads_world {w : World} {a : WorldAction} (h : w.Enabled a) : World.system.Leads w (w.next a) :=
  System.leads_next h

section Host

variable {f : FrameWorld} {phase : GameState} {pending : List (Connection × Packet)} {p : HostProcess}
  {out : List (Connection × Packet)} {w : World}

theorem HostIn.perform (h : HostIn f phase pending p out w) {a : HostAction}
    (hcallback : ∀ c, a ≠ .statusCallback .connected c) (hread : ∀ c m, a ≠ .receive c m) {phase' : GameState}
    (hphase : (HostSession.act a p.session.handler).state.mGameState = phase') :
    HostIn f phase' (p.discarded a ++ pending) (p.perform a).state (out ++ (p.perform a).sent)
      (w.next (.host a)) := by
  obtain ⟨⟨hhost, hclients, haccepted, hserver, hclient⟩, -⟩ := h
  constructor
  · constructor
    · exact congrArg (fun s => HostSession.next s a) hhost
    · exact hclients
    · refine Eq.trans ?_ haccepted
      cases a with
      | statusCallback state c =>
        cases state with
        | connected => exact absurd rfl (hcallback c)
        | closedByPeer | problemDetectedLocally => rfl
      | _ => rfl
    · intro e
      have hold : (w.next (.host a)).toServer.count e =
          (pending ++ p.socket).count e + f.toServer.count e := by
        refine Eq.trans ?_ (hserver e)
        cases a with
        | receive c m => exact absurd rfl (hread c m)
        | _ => rfl
      have hkept := p.count_discarded a e
      simp only [List.count_append] at hold hkept ⊢
      omega
    · intro c m
      have hold := hclient c m
      have hsame : w.host.handler = p.session.handler := congrArg HostSession.handler hhost
      simp only [World.next, World.hostStep, HostProcess.perform, List.count_append, hsame] at hold ⊢
      omega
  · exact hphase

theorem HostIn.receive {c : Connection} {m : Packet} (h : HostIn f phase ((c, m) :: pending) p out w)
    (hphase : (p.session.handler.receive m).state.mGameState = phase) :
    HostIn f phase (p.discarded (.receive c m) ++ pending) (p.perform (.receive c m)).state
      (out ++ (p.perform (.receive c m)).sent) (w.next (.host (.receive c m))) := by
  obtain ⟨⟨hhost, hclients, haccepted, hserver, hclient⟩, -⟩ := h
  constructor
  · constructor
    · exact congrArg (fun s => HostSession.next s (.receive c m)) hhost
    · exact hclients
    · exact haccepted
    · intro e
      have hold := hserver e
      have hkept := p.count_discarded (.receive c m) e
      simp only [World.next, World.hostStep, World.toServerAfter, List.count_append, List.count_cons,
        List.count_erase] at hold hkept ⊢
      omega
    · intro c' m'
      have hold := hclient c' m'
      have hsame : w.host.handler = p.session.handler := congrArg HostSession.handler hhost
      simp only [World.next, World.hostStep, HostProcess.perform, List.count_append, hsame] at hold ⊢
      omega
  · exact hphase

theorem HostIn.connected {c : Connection} (h : HostIn f phase pending p out w)
    (hphase : (p.session.handler.handlePlayerJoining c).state.mGameState = phase) :
    HostIn f phase (p.discarded (.statusCallback .connected c) ++ pending)
      (p.statusCallback (.connected, c)).state (out ++ (p.statusCallback (.connected, c)).sent)
      (w.next (.host (.statusCallback .connected c))) := by
  obtain ⟨⟨hhost, hclients, haccepted, hserver, hclient⟩, -⟩ := h
  constructor
  · constructor
    · exact congrArg (fun s => HostSession.next s (.statusCallback .connected c)) hhost
    · exact hclients
    · exact congrArg (List.cons c) haccepted
    · intro e
      have hold := hserver e
      have hkept := p.count_discarded (.statusCallback .connected c) e
      simp only [World.next, World.hostStep, World.toServerAfter, HostProcess.statusCallback,
        HostProcess.perform, List.count_append] at hold hkept ⊢
      omega
    · intro c' m'
      have hold := hclient c' m'
      have hsame : w.host.handler = p.session.handler := congrArg HostSession.handler hhost
      simp only [World.next, World.hostStep, HostProcess.statusCallback, HostProcess.perform,
        List.count_append, hsame] at hold ⊢
      omega
  · exact hphase

theorem HostIn.hostPhase (h : HostIn f phase pending p out w) : w.host.handler.mGameState = phase := by
  rw [h.matched.host]
  exact h.phase

theorem HostIn.lose {gone : List (Connection × Packet)} (h : HostIn f phase (gone ++ pending) p out w) :
    ∃ v, World.system.Leads w v ∧ HostIn f phase pending p out v := by
  induction gone generalizing w with
  | nil => exact ⟨w, System.leads_refl w, h⟩
  | cons e gone ih =>
    have hcount := h.matched.toServer e
    have hmem : e ∈ w.toServer := by
      rw [← List.count_pos_iff, hcount]
      simp only [List.cons_append, List.count_cons_self]
      omega
    have hnext : HostIn f phase (gone ++ pending) p out (w.next (.loseToServer e)) := by
      obtain ⟨⟨hhost, hclients, haccepted, hserver, hclient⟩, hphase⟩ := h
      refine ⟨⟨hhost, hclients, haccepted, fun d => ?_, hclient⟩, hphase⟩
      have hold := hserver d
      simp only [World.next, List.cons_append, List.count_cons, List.count_erase] at hold ⊢
      omega
    obtain ⟨v, hv, hlost⟩ := ih hnext
    exact ⟨v, (leads_world (a := .loseToServer e) hmem).trans hv, hlost⟩

theorem phase_kept {a : HostAction} (ha : a.isOutside = false) (s : ServerHandler) :
    (HostSession.act a s).state.mGameState = s.mGameState := by
  obtain hp | ⟨⟨position, rfl⟩, -⟩ | ⟨rfl, -⟩ := HostSession.phase_act a s
  · exact hp
  · cases ha
  · cases ha

theorem follows_perform {a : HostAction} (ha : a.isOutside = false)
    (hcallback : ∀ state c, a ≠ .statusCallback state c) (hread : ∀ c m, a ≠ .receive c m)
    (he : ∀ w : World, w.host.handler.mGameState = phase → w.Enabled (.host a)) :
    Follows World.system (HostIn f phase pending) (HostProcess.perform a) (HostIn f phase pending)
      (HostIn f phase pending) := by
  intro p out w h
  obtain ⟨v, hv, hnext⟩ :=
    (h.perform (fun c => hcallback _ c) hread ((phase_kept ha _).trans h.phase)).lose
  exact ⟨v, (leads_world (he w h.hostPhase)).trans hv, fun _ => hnext, fun _ => hnext⟩

theorem follows_paced {a : HostAction} (ha : a.isOutside = false)
    (hcallback : ∀ state c, a ≠ .statusCallback state c) (hread : ∀ c m, a ≠ .receive c m)
    (he : ∀ w : World, w.host.handler.mGameState = phase → w.Enabled (.host a)) (deltaTime : ℚ) :
    Follows World.system (HostIn f phase pending) (HostProcess.paced a deltaTime) (HostIn f phase pending)
      (HostIn f phase pending) := by
  have hclock (clock : HostProcess → ℚ) : Follows World.system (HostIn f phase pending)
      (fun p => (.returns { p with mPacketSendTime := clock p } : HostProcess.Result))
      (HostIn f phase pending) (HostIn f phase pending) := by
    apply Follows.returns
    intro p out w h
    exact ⟨⟨h.matched.host, h.matched.clients, h.matched.accepted, h.matched.toServer, h.matched.toClient⟩,
      h.phase⟩
  refine Follows.andThen (Follows.ite ?_ ?_) (hclock (fun p => p.mPacketSendTime + deltaTime))
  · exact ((follows_perform ha hcallback hread he).andThen (hclock (fun _ => 0))).mono
      (fun _ _ _ h => h.1) (fun _ _ _ h => h) (fun _ _ _ h => h)
  · exact Follows.returns (g := id) (fun _ _ _ h => h.1)

theorem follows_receive (e : Connection × Packet) :
    Follows World.system (HostIn f .gameStarted (e :: pending)) (HostProcess.perform (.receive e.1 e.2))
      (HostIn f .gameStarted pending) (HostIn f .gameStarted []) := by
  intro p out w h
  have hmem : e ∈ w.toServer := by
    rw [← List.count_pos_iff, h.matched.toServer e]
    simp only [List.cons_append, List.count_cons_self]
    omega
  have hread := h.receive (c := e.1) (m := e.2)
    ((phase_kept (a := .receive e.1 e.2) rfl p.session.handler).trans h.phase)
  obtain ⟨u, hu, hread⟩ := hread.lose
  have hrest := hread
  rw [← List.append_nil pending] at hrest
  obtain ⟨v, hv, hlost⟩ := hrest.lose
  have hstep : World.system.Leads w u :=
    (leads_world (a := .host (.receive e.1 e.2)) ⟨h.hostPhase, hmem⟩).trans hu
  by_cases ht : (p.perform (.receive e.1 e.2)).thrown = none
  · exact ⟨u, hstep, fun _ => hread, fun hne => absurd ht hne⟩
  · exact ⟨v, hstep.trans hv, fun hnone => absurd hnone ht, fun _ => hlost⟩

theorem follows_receiveMessages : Follows World.system (HostIn f .gameStarted [])
    HostProcess.receiveMessages (HostIn f .gameStarted []) (HostIn f .gameStarted []) := by
  intro p out w h
  refine Follows.forEach (A := HostIn f .gameStarted) (fun e as => follows_receive e)
    (p.socket.take maxMessages) { p with socket := p.socket.drop maxMessages } out w ⟨?_, h.phase⟩
  simpa only [List.take_append_drop, List.nil_append] using h.matched

def FreshIn (f : FrameWorld) (phase : GameState) (callbacks : List (ConnectionState × Connection))
    (p : HostProcess) (out : List (Connection × Packet)) (w : World) : Prop :=
  HostIn f phase [] p out w ∧ (∀ e ∈ callbacks, e.2 ≠ 0) ∧
    (callbacks.filterMap HostProcess.connected ++ p.accepted).Nodup

theorem follows_statusCallback (hphase : Reading phase) (e : ConnectionState × Connection)
    (callbacks : List (ConnectionState × Connection)) :
    Follows World.system (FreshIn f phase (e :: callbacks)) (HostProcess.statusCallback e)
      (FreshIn f phase callbacks) (HostIn f phase []) := by
  obtain ⟨state, c⟩ := e
  rintro p out w ⟨h, hzero, hnodup⟩
  have hc : c ≠ 0 := hzero _ List.mem_cons_self
  have hrest : ∀ e ∈ callbacks, e.2 ≠ 0 := fun e he => hzero e (List.mem_cons_of_mem _ he)
  have hin : w.host.Enabled (.statusCallback state c) := ⟨hc, h.hostPhase ▸ hphase⟩
  have hkept := (phase_kept (a := .statusCallback state c) rfl p.session.handler).trans h.phase
  have hold (hstate : state ≠ .connected) (hnone : HostProcess.connected (state, c) = none)
      (he : w.Enabled (.host (.statusCallback state c))) :
      ∃ v, World.system.Leads w v ∧
        ((p.statusCallback (state, c)).thrown = none →
          FreshIn f phase callbacks (p.statusCallback (state, c)).state
            (out ++ (p.statusCallback (state, c)).sent) v) ∧
        ((p.statusCallback (state, c)).thrown ≠ none →
          HostIn f phase [] (p.statusCallback (state, c)).state
            (out ++ (p.statusCallback (state, c)).sent) v) := by
    rw [List.filterMap_cons_none hnone] at hnodup
    have hsame : p.statusCallback (state, c) = p.perform (.statusCallback state c) := by
      rw [HostProcess.statusCallback, hnone]
      rfl
    rw [hsame]
    obtain ⟨v, hv, hnext⟩ := (h.perform (a := .statusCallback state c)
      (fun d hd => hstate (HostAction.statusCallback.inj hd).1) (fun _ _ h => by cases h) hkept).lose
    exact ⟨v, (leads_world he).trans hv, fun _ => ⟨hnext, hrest, hnodup⟩, fun _ => hnext⟩
  cases state with
  | connected =>
    rw [List.filterMap_cons_some (show HostProcess.connected (.connected, c) = some c from rfl)] at hnodup
    obtain ⟨v, hv, hnext⟩ := (h.connected (c := c) hkept).lose
    have hopen : w.Enabled (.host (.statusCallback .connected c)) := by
      refine ⟨hin, fun hacc => ?_⟩
      rw [h.matched.accepted] at hacc
      exact (List.nodup_cons.mp hnodup).1 (List.mem_append_right _ hacc)
    refine ⟨v, (leads_world hopen).trans hv, fun _ => ⟨hnext, hrest, ?_⟩, fun _ => hnext⟩
    exact List.nodup_middle.mpr hnodup
  | closedByPeer => exact hold (fun h => by cases h) rfl hin
  | problemDetectedLocally => exact hold (fun h => by cases h) rfl hin

theorem Matches.updateHost (h : f.Matches w) {deltaTime : ℚ}
    {callbacks : List (ConnectionState × Connection)} (he : f.Enabled (.updateHost deltaTime callbacks)) :
    ∃ v, World.system.Leads w v ∧ (f.next (.updateHost deltaTime callbacks)).Matches v := by
  obtain ⟨-, hzero, hnodup⟩ := he
  have hstay : ∃ v, World.system.Leads w v ∧ (f.hostDoes (.returns f.host)).Matches v := by
    refine ⟨w, System.leads_refl w, ?_⟩
    simpa only [hostDoes, Outcome.returns_state, Outcome.returns_sent, List.append_nil] using h
  have hrun {phase : GameState} (hphase : f.host.session.handler.mGameState = phase)
      (hup : Reading phase)
      {g : HostProcess → HostProcess.Result}
      (hg : Follows World.system (HostIn f phase []) g (HostIn f phase []) (HostIn f phase [])) :
      ∃ v, World.system.Leads w v ∧
        (f.hostDoes ((Outcome.forEach HostProcess.statusCallback callbacks f.host).andThen g)).Matches v := by
    have hall := (Follows.forEach (A := FreshIn f phase) (follows_statusCallback hup) callbacks).andThen
      (hg.mono (fun _ _ _ h => h.1) (fun _ _ _ h => h) (fun _ _ _ h => h))
    have hstart : FreshIn f phase callbacks f.host [] w := by
      refine ⟨⟨?_, hphase⟩, hzero, hnodup⟩
      simpa only [List.nil_append, List.append_nil] using h
    obtain ⟨v, hv, hreturn, hthrow⟩ := hall f.host [] w hstart
    refine ⟨v, hv, ?_⟩
    by_cases ht : ((Outcome.forEach HostProcess.statusCallback callbacks f.host).andThen g).thrown = none
    · exact (hreturn ht).matched
    · exact (hthrow ht).matched
  simp only [next, HostProcess.update]
  split_ifs
  · cases hphase : f.host.session.handler.mGameState with
    | gameStarted =>
      have hinterpolate : Follows World.system (HostIn f .gameStarted [])
          (HostProcess.perform (.interpolate deltaTime)) (HostIn f .gameStarted [])
          (HostIn f .gameStarted []) :=
        follows_perform rfl (fun _ _ h => by cases h) (fun _ _ h => by cases h) (fun _ h => h)
      have hpaced : Follows World.system (HostIn f .gameStarted [])
          (HostProcess.paced .sendPlayerData deltaTime) (HostIn f .gameStarted [])
          (HostIn f .gameStarted []) :=
        follows_paced (a := .sendPlayerData) rfl (fun _ _ h => by cases h) (fun _ _ h => by cases h)
          (fun _ h => h) deltaTime
      exact hrun hphase (by decide) ((hinterpolate.andThen hpaced).andThen follows_receiveMessages)
    | searchingForPlayers =>
      refine hrun hphase (by decide) ?_
      exact follows_paced (a := .broadcastPlayerCount) rfl (fun _ _ h => by cases h)
        (fun _ _ h => by cases h) (fun _ h => h) deltaTime
    | resultsScreen =>
      refine hrun hphase (by decide) ?_
      exact follows_perform (a := .broadcastResults) rfl (fun _ _ h => by cases h)
        (fun _ _ h => by cases h) (fun _ h => h)
    | none => exact hstay
    | lookingForHost => exact hstay
  · exact hstay

end Host

/-- In the middle of an `Update` of client `c`, which has taken `pending` from its socket. -/
structure ClientIn (f : FrameWorld) (c : Connection) (phases : GameState → Prop)
    (pending : List Packet) (p : ClientProcess) (out : List Packet) (w : World) : Prop where
  matched : { f with
    clients := Function.update f.clients c { p with socket := pending ++ p.socket }
    toServer := f.toServer ++ out.map (fun m => (c, m)) }.Matches w
  phase : phases p.session.handler.mGameState

section Client

variable {f : FrameWorld} {c : Connection} {phases : GameState → Prop} {pending : List Packet}
  {p : ClientProcess} {out : List Packet} {w : World}

theorem ClientIn.session (h : ClientIn f c phases pending p out w) : w.clients c = p.session := by
  rw [h.matched.clients c]
  simp only [Function.update_self]

theorem ClientIn.step (h : ClientIn f c phases pending p out w) (a : ClientAction) (socket : List Packet)
    (d : Connection) : (w.clientStep c a).clients d =
      (Function.update f.clients c { (p.perform a).state with socket := socket } d).session := by
  by_cases hd : d = c
  · subst hd
    simp only [World.clientStep, Function.update_self, h.session, ClientProcess.perform]
  · simp only [World.clientStep, Function.update_of_ne hd]
    have hold := h.matched.clients d
    simpa only [Function.update_of_ne hd] using hold

theorem ClientIn.sent (h : ClientIn f c phases pending p out w) (a : ClientAction)
    (e : Connection × Packet) : (w.clientStep c a).toServer.count e =
      f.host.socket.count e +
        (f.toServer ++ (out ++ (p.perform a).sent).map (fun m => (c, m))).count e := by
  have hold := h.matched.toServer e
  simp only [World.clientStep, h.session, ClientProcess.perform, List.map_append, List.count_append]
    at hold ⊢
  omega

theorem ClientIn.perform (h : ClientIn f c phases pending p out w) {a : ClientAction}
    (hread : ∀ m, a ≠ .receive m)
    (hphase : phases (ClientSession.act a p.session.handler).state.mGameState) :
    ClientIn f c phases (p.discarded a ++ pending) (p.perform a).state (out ++ (p.perform a).sent)
      (w.next (.client c a)) := by
  refine ⟨⟨h.matched.host, h.step a _, h.matched.accepted, h.sent a, fun d m => ?_⟩, hphase⟩
  refine Eq.trans (?_ : _ = w.toClient.count (d, m)) ((h.matched.toClient d m).trans ?_)
  · cases a with
    | receive m => exact absurd rfl (hread m)
    | _ => rfl
  · by_cases hd : d = c
    · subst hd
      have hkept := p.count_discarded a m
      simp only [Function.update_self, List.count_append] at hkept ⊢
      omega
    · simp only [Function.update_of_ne hd]

theorem ClientIn.receive {m : Packet} (h : ClientIn f c phases (m :: pending) p out w)
    (hphase : phases (p.session.handler.receive m).state.mGameState) :
    ClientIn f c phases (p.discarded (.receive m) ++ pending) (p.perform (.receive m)).state
      (out ++ (p.perform (.receive m)).sent) (w.next (.client c (.receive m))) := by
  refine ⟨⟨h.matched.host, h.step (.receive m) _, h.matched.accepted, h.sent (.receive m),
    fun d m' => ?_⟩, hphase⟩
  have hold := h.matched.toClient d m'
  by_cases hd : d = c
  · subst hd
    have hkept := p.count_discarded (.receive m) m'
    simp only [Function.update_self, World.next, World.clientStep, World.toClientAfter, List.count_append,
      List.count_cons, List.count_erase, Prod.mk.injEq, beq_iff_eq, true_and] at hold hkept ⊢
    omega
  · have hne : (c, m) ≠ (d, m') := fun heq => hd (Prod.mk.inj heq).1.symm
    simp only [Function.update_of_ne hd] at hold ⊢
    simpa only [World.next, World.clientStep, World.toClientAfter, List.count_erase_of_ne hne.symm] using hold

theorem update_clients {τ : Type*} {p q : ClientProcess} (part : ClientProcess → τ) (h : part p = part q)
    (clients : Connection → ClientProcess) (d : Connection) :
    part (Function.update clients c p d) = part (Function.update clients c q d) := by
  by_cases hd : d = c
  · subst hd
    simpa only [Function.update_self] using h
  · simp only [Function.update_of_ne hd]

theorem ClientIn.lose {gone : List Packet} (h : ClientIn f c phases (gone ++ pending) p out w) :
    ∃ v, World.system.Leads w v ∧ ClientIn f c phases pending p out v := by
  induction gone generalizing w with
  | nil => exact ⟨w, System.leads_refl w, h⟩
  | cons m gone ih =>
    have hcount := h.matched.toClient c m
    have hmem : (c, m) ∈ w.toClient := by
      rw [← List.count_pos_iff, hcount]
      simp only [Function.update_self, List.cons_append, List.count_cons_self]
      omega
    have hnext : ClientIn f c phases (gone ++ pending) p out (w.next (.loseToClient (c, m))) := by
      refine ⟨⟨h.matched.host, fun d => ?_, h.matched.accepted, h.matched.toServer, fun d m' => ?_⟩,
        h.phase⟩
      · exact (h.matched.clients d).trans (update_clients ClientProcess.session (by rfl) _ d)
      · have hold := h.matched.toClient d m'
        by_cases hd : d = c
        · subst hd
          simp only [Function.update_self, World.next, List.cons_append, List.count_cons, List.count_erase,
            Prod.mk.injEq, beq_iff_eq, true_and] at hold ⊢
          omega
        · have hne : (d, m') ≠ (c, m) := fun heq => hd (Prod.mk.inj heq).1
          simp only [Function.update_of_ne hd] at hold ⊢
          simpa only [World.next, List.count_erase_of_ne hne] using hold
    obtain ⟨v, hv, hlost⟩ := ih hnext
    exact ⟨v, (leads_world (a := .loseToClient (c, m)) hmem).trans hv, hlost⟩

theorem follows_clientPerform (hc : c ≠ 0) {a : ClientAction} (hread : ∀ m, a ≠ .receive m)
    (hkept : ∀ s : ClientHandler, phases s.mGameState → phases (ClientSession.act a s).state.mGameState) :
    Follows World.system (fun p out w => ClientIn f c phases pending p out w ∧ p.session.Enabled a)
      (ClientProcess.perform a) (ClientIn f c phases pending) (ClientIn f c phases pending) := by
  rintro p out w ⟨h, he⟩
  have hopen : w.Enabled (.client c a) := by
    rw [← h.session] at he
    cases a with
    | receive m => exact absurd rfl (hread m)
    | _ => exact ⟨hc, he⟩
  obtain ⟨v, hv, hnext⟩ := (h.perform hread (hkept _ h.phase)).lose
  exact ⟨v, (leads_world hopen).trans hv, fun _ => hnext, fun _ => hnext⟩

theorem follows_clientPaced (hc : c ≠ 0) (deltaTime : ℚ) :
    Follows World.system (ClientIn f c (· = .gameStarted) pending) (ClientProcess.paced deltaTime)
      (ClientIn f c (· = .gameStarted) pending) (ClientIn f c (· = .gameStarted) pending) := by
  have hclock (clock : ClientProcess → ℚ) : Follows World.system (ClientIn f c (· = .gameStarted) pending)
      (fun p => (.returns { p with mPacketSendTime := clock p } : ClientProcess.Result))
      (ClientIn f c (· = .gameStarted) pending) (ClientIn f c (· = .gameStarted) pending) := by
    apply Follows.returns
    intro p out w h
    refine ⟨⟨h.matched.host, fun d => ?_, h.matched.accepted, h.matched.toServer, fun d m => ?_⟩, h.phase⟩
    · exact (h.matched.clients d).trans (update_clients ClientProcess.session (by rfl) _ d)
    · exact (h.matched.toClient d m).trans
        (congrArg (· + _) (update_clients (fun p => p.socket.count m) (by rfl) _ d))
  refine Follows.andThen (Follows.ite ?_ ?_) (hclock (fun p => p.mPacketSendTime + deltaTime))
  · exact ((follows_clientPerform hc (a := .sendPlayerData) (fun _ h => by cases h) (fun _ h => h)).andThen
      (hclock (fun _ => 0))).mono (fun _ _ _ h => ⟨h.1, h.1.phase, h.2.2⟩) (fun _ _ _ h => h)
      (fun _ _ _ h => h)
  · exact Follows.returns (g := id) (fun _ _ _ h => h.1)

theorem reading_receive {m : Packet} {s : ClientHandler} (h : Reading s.mGameState) :
    Reading (s.receive m).state.mGameState := by
  have hr := ClientSession.received m s
  generalize s.receive m = o at hr ⊢
  cases hr with
  | finished => exact List.mem_cons_of_mem _ (List.mem_cons_of_mem _ List.mem_cons_self)
  | registered | started | players => exact h

theorem follows_clientReceive (hc : c ≠ 0) (m : Packet) :
    Follows World.system (ClientIn f c Reading (m :: pending)) (ClientProcess.perform (.receive m))
      (ClientIn f c Reading pending) (ClientIn f c Reading []) := by
  intro p out w h
  have hmem : (c, m) ∈ w.toClient := by
    rw [← List.count_pos_iff, h.matched.toClient c m]
    simp only [Function.update_self, List.cons_append, List.count_cons_self]
    omega
  have hopen : w.Enabled (.client c (.receive m)) := by
    refine ⟨hc, ?_, hmem⟩
    rw [h.session]
    exact h.phase
  obtain ⟨u, hu, hread⟩ := (h.receive (reading_receive h.phase)).lose
  have hrest := hread
  rw [← List.append_nil pending] at hrest
  obtain ⟨v, hv, hlost⟩ := hrest.lose
  have hstep : World.system.Leads w u := (leads_world hopen).trans hu
  by_cases ht : (p.perform (.receive m)).thrown = none
  · exact ⟨u, hstep, fun _ => hread, fun hne => absurd ht hne⟩
  · exact ⟨v, hstep.trans hv, fun hnone => absurd hnone ht, fun _ => hlost⟩

theorem follows_handleNetMessages (hc : c ≠ 0) : Follows World.system (ClientIn f c Reading [])
    ClientProcess.handleNetMessages (ClientIn f c Reading []) (ClientIn f c Reading []) := by
  intro p out w h
  refine Follows.forEach (A := ClientIn f c Reading) (fun m as => follows_clientReceive hc m)
    (p.socket.take maxMessages) { p with socket := p.socket.drop maxMessages } out w ⟨?_, h.phase⟩
  simpa only [List.take_append_drop, List.nil_append] using h.matched

theorem follows_handleState (hc : c ≠ 0) (deltaTime : ℚ) :
    Follows World.system (ClientIn f c (fun _ => True) []) (ClientProcess.handleState deltaTime)
      (ClientIn f c (fun _ => True) []) (ClientIn f c (fun _ => True) []) := by
  have hany {phases : GameState → Prop} (p out w) (h : ClientIn f c phases [] p out w) :
      ClientIn f c (fun _ => True) [] p out w := ⟨h.matched, trivial⟩
  have hin {phases : GameState → Prop} {g : ClientProcess → ClientProcess.Result}
      (hg : Follows World.system (ClientIn f c phases []) g (ClientIn f c Reading [])
        (ClientIn f c Reading [])) :
      Follows World.system (ClientIn f c phases []) g (ClientIn f c (fun _ => True) [])
        (ClientIn f c (fun _ => True) []) :=
    hg.mono (fun _ _ _ h => h) hany hany
  intro p out w h
  have hat {phases : GameState → Prop} (hp : phases p.session.handler.mGameState) :
      ClientIn f c phases [] p out w := ⟨h.matched, hp⟩
  have hstay : ∃ v, World.system.Leads w v ∧
      ((Outcome.returns p : ClientProcess.Result).thrown = none →
        ClientIn f c (fun _ => True) [] p (out ++ []) v) ∧
      ((Outcome.returns p : ClientProcess.Result).thrown ≠ none →
        ClientIn f c (fun _ => True) [] p (out ++ []) v) := by
    rw [List.append_nil]
    exact ⟨w, System.leads_refl w, fun _ => h, fun _ => h⟩
  unfold ClientProcess.handleState
  cases hphase : p.session.handler.mGameState with
  | gameStarted =>
    have hreading (p out w) (h : ClientIn f c (· = .gameStarted) [] p out w) :
        ClientIn f c Reading [] p out w := ⟨h.matched, by rw [h.phase]; decide⟩
    have hinterpolate : Follows World.system (ClientIn f c (· = .gameStarted) [])
        (ClientProcess.perform (.interpolate deltaTime)) (ClientIn f c (· = .gameStarted) [])
        (ClientIn f c (· = .gameStarted) []) :=
      (follows_clientPerform hc (fun _ h => by cases h) (fun _ h => h)).mono (fun _ _ _ h => ⟨h, h.phase⟩)
        (fun _ _ _ h => h) (fun _ _ _ h => h)
    have hpaced := hinterpolate.andThen (follows_clientPaced hc deltaTime)
    have hsend := hpaced.mono (fun _ _ _ h => h) hreading hreading
    exact hin (hsend.andThen (follows_handleNetMessages hc)) p out w (hat hphase)
  | searchingForPlayers =>
    exact hin (follows_handleNetMessages hc) p out w (hat (by rw [hphase]; decide))
  | resultsScreen =>
    exact hin (follows_handleNetMessages hc) p out w (hat (by rw [hphase]; decide))
  | none => exact hstay
  | lookingForHost => exact hstay

/-- At most one callback still to come tells the client that it is connected, and only before it is. -/
def JoinsOnce (f : FrameWorld) (c : Connection) (callbacks : List (ConnectionState × Connection))
    (p : ClientProcess) (out : List Packet) (w : World) : Prop :=
  ClientIn f c (fun _ => True) [] p out w ∧ (callbacks.filterMap HostProcess.connected).length ≤ 1 ∧
    (callbacks.filterMap HostProcess.connected ≠ [] → p.session.handler.mGameState = .lookingForHost)

theorem follows_statusUpdate (hc : c ≠ 0) (e : ConnectionState × Connection)
    (callbacks : List (ConnectionState × Connection)) :
    Follows World.system (JoinsOnce f c (e :: callbacks))
      (ClientProcess.perform (.statusUpdate e.1 e.2)) (JoinsOnce f c callbacks)
      (ClientIn f c (fun _ => True) []) := by
  obtain ⟨state, connection⟩ := e
  rintro p out w ⟨h, hlength, hjoin⟩
  have hperform : Follows World.system (fun p out w => ClientIn f c (fun _ => True) [] p out w ∧
      p.session.Enabled (.statusUpdate state connection))
      (ClientProcess.perform (.statusUpdate state connection)) (ClientIn f c (fun _ => True) [])
      (ClientIn f c (fun _ => True) []) :=
    follows_clientPerform hc (fun _ h => by cases h) (fun _ _ => trivial)
  have hgone (hsame : (p.session.handler.onClientStatusUpdate state connection).state.mGameState =
      p.session.handler.mGameState) (hnone : HostProcess.connected (state, connection) = none)
      (he : p.session.Enabled (.statusUpdate state connection)) :
      ∃ v, World.system.Leads w v ∧
        ((p.perform (.statusUpdate state connection)).thrown = none →
          JoinsOnce f c callbacks (p.perform (.statusUpdate state connection)).state
            (out ++ (p.perform (.statusUpdate state connection)).sent) v) ∧
        ((p.perform (.statusUpdate state connection)).thrown ≠ none →
          ClientIn f c (fun _ => True) [] (p.perform (.statusUpdate state connection)).state
            (out ++ (p.perform (.statusUpdate state connection)).sent) v) := by
    rw [List.filterMap_cons_none hnone] at hlength hjoin
    obtain ⟨v, hv, hreturn, hthrow⟩ := hperform p out w ⟨h, he⟩
    exact ⟨v, hv, fun ht => ⟨hreturn ht, hlength, fun hne => hsame.trans (hjoin hne)⟩, hthrow⟩
  cases state with
  | connected =>
    have hsome : HostProcess.connected (.connected, connection) = some connection := rfl
    rw [List.filterMap_cons_some hsome] at hlength hjoin
    have hnil : callbacks.filterMap HostProcess.connected = [] := by
      rw [List.length_cons] at hlength
      exact List.length_eq_zero_iff.mp (by omega)
    obtain ⟨v, hv, hreturn, hthrow⟩ := hperform p out w ⟨h, hjoin (List.cons_ne_nil _ _)⟩
    refine ⟨v, hv, fun ht => ⟨hreturn ht, ?_, fun hne => absurd hnil hne⟩, hthrow⟩
    rw [hnil]
    exact Nat.zero_le 1
  | closedByPeer => exact hgone rfl rfl trivial
  | problemDetectedLocally => exact hgone rfl rfl trivial

theorem Matches.updateClient (h : f.Matches w) {deltaTime : ℚ}
    {callbacks : List (ConnectionState × Connection)} (he : f.Enabled (.updateClient c deltaTime callbacks)) :
    ∃ v, World.system.Leads w v ∧ (f.next (.updateClient c deltaTime callbacks)).Matches v := by
  obtain ⟨hc, -, hlength, hjoin⟩ := he
  have hsame : { f with
      clients := Function.update f.clients c (f.clients c)
      toServer := f.toServer ++ [] } = f := by
    rw [Function.update_eq_self, List.append_nil]
  simp only [next, ClientProcess.update]
  split_ifs
  · have hstart : JoinsOnce f c callbacks (f.clients c) [] w := by
      refine ⟨⟨?_, trivial⟩, hlength, hjoin⟩
      simpa only [List.nil_append, List.map_nil, hsame] using h
    have hall := (Follows.forEach (A := JoinsOnce f c) (follows_statusUpdate hc) callbacks).andThen
      ((follows_handleState hc deltaTime).mono (fun _ _ _ h => h.1) (fun _ _ _ h => h)
        (fun _ _ _ h => h))
    obtain ⟨v, hv, hreturn, hthrow⟩ := hall (f.clients c) [] w hstart
    refine ⟨v, hv, ?_⟩
    by_cases ht : ((Outcome.forEach (fun e => ClientProcess.perform (.statusUpdate e.1 e.2)) callbacks
        (f.clients c)).andThen (ClientProcess.handleState deltaTime)).thrown = none
    · exact (hreturn ht).matched
    · exact (hthrow ht).matched
  · refine ⟨w, System.leads_refl w, ?_⟩
    simpa only [clientDoes, Outcome.returns_state, Outcome.returns_sent, List.map_nil, hsame] using h

end Client

section Steps

variable {f : FrameWorld} {w : World}

theorem Matches.hostActs (h : f.Matches w) {a : HostAction} (he : f.Enabled (.host a)) :
    ∃ v, World.system.Leads w v ∧ (f.next (.host a)).Matches v := by
  obtain ⟨hout, he⟩ := he
  have hcallback : ∀ state c, a ≠ .statusCallback state c := by
    rintro state c rfl
    cases hout
  have hread : ∀ c m, a ≠ .receive c m := by
    rintro c m rfl
    cases hout
  have hopen : w.Enabled (.host a) := by
    rw [← h.host] at he
    cases a with
    | receive c m => exact absurd rfl (hread c m)
    | statusCallback state c => exact absurd rfl (hcallback state c)
    | _ => exact he
  have hin : HostIn f f.host.session.handler.mGameState [] f.host [] w := by
    refine ⟨?_, rfl⟩
    simpa only [List.nil_append, List.append_nil] using h
  obtain ⟨v, hv, hnext⟩ := (hin.perform (fun c => hcallback _ c) hread rfl).lose
  exact ⟨v, (leads_world hopen).trans hv, hnext.matched⟩

theorem Matches.clientActs (h : f.Matches w) {c : Connection} {a : ClientAction}
    (he : f.Enabled (.client c a)) : ∃ v, World.system.Leads w v ∧ (f.next (.client c a)).Matches v := by
  obtain ⟨hc, hout, he⟩ := he
  have hread : ∀ m, a ≠ .receive m := by
    rintro m rfl
    cases hout
  have hopen : w.Enabled (.client c a) := by
    rw [← h.clients c] at he
    cases a with
    | receive m => exact absurd rfl (hread m)
    | _ => exact ⟨hc, he⟩
  have hin : ClientIn f c (fun _ => True) [] (f.clients c) [] w := by
    refine ⟨?_, trivial⟩
    simpa only [List.nil_append, List.map_nil, List.append_nil, Function.update_eq_self] using h
  obtain ⟨v, hv, hnext⟩ := (hin.perform hread trivial).lose
  exact ⟨v, (leads_world hopen).trans hv, hnext.matched⟩

theorem Matches.arriveAtServer (h : f.Matches w) {e : Connection × Packet} (he : e ∈ f.toServer) :
    (f.next (.arriveAtServer e)).Matches w := by
  refine ⟨h.host, h.clients, h.accepted, fun d => ?_, h.toClient⟩
  have hold := h.toServer d
  by_cases hd : d = e
  · subst hd
    have hpos : 0 < f.toServer.count d := List.count_pos_iff.mpr he
    simp only [FrameWorld.next, List.count_append, List.count_erase_self, List.count_singleton_self]
    omega
  · simp only [FrameWorld.next, List.count_append, List.count_erase_of_ne hd,
      List.count_singleton, beq_iff_eq, if_neg (Ne.symm hd)]
    exact hold

theorem Matches.arriveAtClient (h : f.Matches w) {e : Connection × Packet} (he : e ∈ f.toClient) :
    (f.next (.arriveAtClient e)).Matches w := by
  obtain ⟨c, m⟩ := e
  refine ⟨h.host, fun d => ?_, h.accepted, h.toServer, fun d m' => ?_⟩
  · refine (h.clients d).trans ?_
    by_cases hd : d = c
    · subst hd
      simp only [FrameWorld.next, Function.update_self]
    · simp only [FrameWorld.next, Function.update_of_ne hd]
  · have hold := h.toClient d m'
    by_cases hd : d = c
    · subst hd
      by_cases hm : m' = m
      · subst hm
        have hpos : 0 < f.toClient.count (d, m') := List.count_pos_iff.mpr he
        simp only [FrameWorld.next, Function.update_self, List.count_append, List.count_erase_self,
          List.count_singleton_self]
        omega
      · have hne : (d, m') ≠ (d, m) := fun heq => hm (Prod.mk.inj heq).2
        simp only [FrameWorld.next, Function.update_self, List.count_append, List.count_erase_of_ne hne,
          List.count_singleton, beq_iff_eq, if_neg (Ne.symm hm)]
        exact hold
    · have hne : (d, m') ≠ (c, m) := fun heq => hd (Prod.mk.inj heq).1
      simp only [FrameWorld.next, Function.update_of_ne hd, List.count_erase_of_ne hne]
      exact hold

theorem Matches.lost {e d : Connection × Packet} {l l' : List (Connection × Packet)} {n : ℕ}
    (h : l.count d = n + l'.count d) (he : e ∈ l') : (l.erase e).count d = n + (l'.erase e).count d := by
  by_cases hd : d = e
  · subst hd
    have hpos : 0 < l'.count d := List.count_pos_iff.mpr he
    rw [List.count_erase_self, List.count_erase_self]
    omega
  · rw [List.count_erase_of_ne hd, List.count_erase_of_ne hd, h]

theorem Matches.step (h : f.Matches w) {a : FrameAction} (he : f.Enabled a) :
    ∃ v, World.system.Leads w v ∧ (f.next a).Matches v := by
  cases a with
  | updateHost deltaTime callbacks => exact h.updateHost he
  | updateClient c deltaTime callbacks => exact h.updateClient he
  | host a => exact h.hostActs he
  | client c a => exact h.clientActs he
  | arriveAtServer e => exact ⟨w, System.leads_refl w, h.arriveAtServer he⟩
  | arriveAtClient e => exact ⟨w, System.leads_refl w, h.arriveAtClient he⟩
  | loseToServer e =>
    have hmem : e ∈ w.toServer := by
      rw [← List.count_pos_iff, h.toServer e]
      have hpos : 0 < f.toServer.count e := List.count_pos_iff.mpr he
      omega
    exact ⟨_, leads_world (a := .loseToServer e) hmem,
      h.host, h.clients, h.accepted, fun d => Matches.lost (h.toServer d) he, h.toClient⟩
  | loseToClient e =>
    have hmem : e ∈ w.toClient := by
      obtain ⟨c, m⟩ := e
      rw [← List.count_pos_iff, h.toClient c m]
      have hpos : 0 < f.toClient.count (c, m) := List.count_pos_iff.mpr he
      omega
    exact ⟨_, leads_world (a := .loseToClient e) hmem,
      h.host, h.clients, h.accepted, h.toServer, fun d m => Matches.lost (h.toClient d m) he⟩

/-- Whatever the game does frame by frame, reading at most `maxMessages` at a time and leaving an
`Update` where something throws, is a run of the handlers' actions. -/
theorem frames_refine {as : List FrameAction} (hl : FrameWorld.system.Legal start as) :
    ∃ w, World.system.Leads .start w ∧ (FrameWorld.system.run start as).Matches w :=
  System.simulation (R := Matches) (fun _ _ _ h he => h.step he) start_matches hl

theorem frames_refine_joined :
    let f := FrameWorld.system.run start [.updateHost (1 / 60) [(.connected, 1)],
      .updateClient 1 (1 / 60) [(.connected, 1)], .arriveAtClient (1, .registerPlayer ⟨1, 1⟩),
      .updateClient 1 (1 / 60) []]
    (f.clients 1).session.handler.connectionIDOnServer = 1 ∧ ∃ w, World.system.Leads .start w ∧ f.Matches w :=
  ⟨by decide +kernel, frames_refine (by decide +kernel)⟩

/-- What every single action keeps is kept by every frame. -/
theorem frames_keep {I : World → Prop} (hstep : ∀ w a, I w → w.Enabled a → I (w.next a)) (hstart : I .start)
    {as : List FrameAction} (hl : FrameWorld.system.Legal start as) :
    ∃ w, I w ∧ (FrameWorld.system.run start as).Matches w := by
  have hrefines : ∃ w, World.system.Leads .start w ∧ (FrameWorld.system.run start as).Matches w :=
    System.simulation (R := Matches) (fun _ _ _ h he => h.step he) start_matches hl
  obtain ⟨w, ⟨bs, hb, rfl⟩, hmatches⟩ := hrefines
  exact ⟨_, System.invariant_legal hstep hstart hb, hmatches⟩

/-- No `Update` brings up a player that is neither the host nor on a connection that it accepted, and
none gives a client a hologram of itself. -/
theorem frames_real {as : List FrameAction} (hl : FrameWorld.system.Legal start as) :
    let f := FrameWorld.system.run start as
    (∀ k ∈ f.host.session.handler.mPlayers, k = serverPlayerID ∨ k ∈ f.host.accepted) ∧
      (∀ k ∈ f.host.session.handler.mPlayerResults, k = serverPlayerID ∨ k ∈ f.host.accepted) ∧
      (∀ c, ∀ k ∈ (f.clients c).session.handler.mPlayers, k = serverPlayerID ∨ k ∈ f.host.accepted) ∧
      ∀ c, c ≠ 0 → ∀ life,
        (f.clients c).session.handler.mPlayers.status c ≠ some (some (.hologram, life)) := by
  obtain ⟨w, h, hmatches⟩ := frames_keep (fun _ _ h he => h.next he) World.start_real hl
  intro f
  have hf : f.Matches w := hmatches
  rw [← hf.host, ← hf.accepted]
  refine ⟨h.players, h.results, fun c => ?_, fun c => ?_⟩
  · rw [← hf.clients c]
    exact (h.own c).tables
  · rw [← hf.clients c]
    exact (h.own c).noMirror

end Steps

end FrameWorld

end SeminarTouhou
