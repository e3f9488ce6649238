import SeminarTouhou.Library.Channel
import SeminarTouhou.Network.FrameScripts

namespace SeminarTouhou

open Library

open ServerHandler (ConnectionState)

namespace NodeScripts

variable {σ α β μ γ : Type} (S : NodeScripts σ α β μ)

/-- Messages leave the socket in its order, and none is lost but what an event discards, unless
something throws. -/
def Reads (s : σ) (o : Outcome σ μ Event) : Prop :=
  ∃ read, S.handled o.state = S.handled s ++ read ∧ (read ++ S.socket o.state).Sublist (S.socket s) ∧
    (o.thrown = none → ∀ keep, S.Spares keep o.raised →
      (read ++ S.socket o.state).filter keep = (S.socket s).filter keep)

variable {S} {f g : σ → Outcome σ μ Event} {s t : σ} {o : Outcome σ μ Event} {a : α}

theorem reads_returns (hsocket : S.socket t = S.socket s) (hhandled : S.handled t = S.handled s) :
    S.Reads s (.returns t) := by
  refine ⟨[], by simpa using hhandled, ?_, fun _ keep _ => ?_⟩
  · rw [Outcome.returns_state, hsocket]
    exact List.Sublist.refl _
  · rw [Outcome.returns_state, hsocket, List.nil_append]

theorem socket_spares {keep : β → Bool} (h : S.Spares keep (S.perform a s).raised) :
    (S.socket (S.perform a s).state).filter keep = (S.socket s).filter keep := by
  rw [S.socket_perform, List.filter_filter]
  apply List.filter_congr
  intro b _
  cases hb : keep b with
  | false => rfl
  | true => rw [h b hb, Bool.not_false, Bool.and_true]

theorem handled_quiet (ha : S.message a = none) (s : σ) :
    S.handled (S.perform a s).state = S.handled s ++ [] := by
  rw [S.handled_perform, ha, Option.toList_none]

theorem socket_shrinks (a : α) (s : σ) : (S.socket (S.perform a s).state).Sublist (S.socket s) := by
  rw [S.socket_perform]
  exact List.filter_sublist

theorem reads_perform (ha : S.message a = none) (s : σ) : S.Reads s (S.perform a s) :=
  ⟨[], handled_quiet ha s, socket_shrinks a s, fun _ _ hkeep => socket_spares hkeep⟩

theorem Reads.andThen (ho : S.Reads s o) (hg : ∀ s, S.Reads s (g s)) : S.Reads s (o.andThen g) := by
  cases ht : o.thrown with
  | some e => rwa [Outcome.andThen_throws ht]
  | none =>
    rw [Outcome.andThen_returns ht]
    obtain ⟨read, hhandled, hsub, hkept⟩ := ho
    obtain ⟨read', hhandled', hsub', hkept'⟩ := hg o.state
    refine ⟨read ++ read', ?_, ?_, fun ht' keep hkeep => ?_⟩
    · rw [hhandled', hhandled, List.append_assoc]
    · rw [List.append_assoc]
      exact (hsub'.append_left read).trans hsub
    · obtain ⟨hfirst, hrest⟩ := spares_append.mp hkeep
      rw [← hkept ht keep hfirst, List.append_assoc, List.filter_append, hkept' ht' keep hrest,
        ← List.filter_append]

theorem reads_forEach {f : γ → σ → Outcome σ μ Event} (hf : ∀ c s, S.Reads s (f c s)) (cs : List γ)
    (s : σ) : S.Reads s (Outcome.forEach f cs s) := by
  induction cs generalizing s with
  | nil => exact reads_returns rfl rfl
  | cons c cs ih => exact (hf c s).andThen ih

theorem reads_paced {due : σ → Prop} [DecidablePred due] {deltaTime : ℚ} (ha : S.message a = none)
    (s : σ) : S.Reads s (S.paced due a deltaTime s) := by
  have hclock (t : ℚ) (s : σ) : S.Reads s (.returns (S.setClock t s)) :=
    reads_returns (S.socket_setClock t s) (S.handled_setClock t s)
  refine Reads.andThen ?_ (fun s => hclock _ s)
  split_ifs
  · exact (reads_perform ha s).andThen (hclock 0)
  · exact reads_returns rfl rfl

theorem reads_readBatch (s : σ) : S.Reads s (S.readBatch s) := by
  obtain ⟨read, lost, hbatch, hhandled, hsocket, hlost⟩ := forEach_receive (S := S)
    ((S.socket s).take maxMessages) (S.setSocket ((S.socket s).drop maxMessages) s)
  rw [S.handled_setSocket] at hhandled
  rw [S.socket_setSocket] at hsocket
  have hsplit : S.socket s = read ++ lost ++ (S.socket s).drop maxMessages := by
    rw [← hbatch, List.take_append_drop]
  refine ⟨read, hhandled, ?_, fun ht keep hkeep => ?_⟩
  · have hwhole : (read ++ (lost ++ (S.socket s).drop maxMessages)).Sublist (S.socket s) := by
      rw [← List.append_assoc, ← hsplit]
    rw [readBatch, hsocket]
    exact ((List.filter_sublist.trans (List.sublist_append_right lost _)).append_left read).trans hwhole
  · rw [hlost ht, List.append_nil] at hsplit
    rw [readBatch] at hkeep
    conv_rhs => rw [hsplit]
    rw [List.filter_append, List.filter_append, readBatch, hsocket, List.filter_filter]
    congr 1
    apply List.filter_congr
    intro b _
    cases hb : keep b with
    | false => rfl
    | true => rw [hkeep b hb, Bool.not_false, Bool.and_true]

end NodeScripts

namespace HostProcess

variable {deltaTime : ℚ}

theorem reads_statusCallback (e : ConnectionState × Connection) (p : HostProcess) :
    scripts.Reads p (p.statusCallback e) :=
  NodeScripts.reads_perform (S := scripts) (a := .statusCallback e.1 e.2) rfl
    { p with accepted := (connected e).toList ++ p.accepted }

theorem reads_paced {a : HostAction} (ha : a.message = none) (p : HostProcess) :
    scripts.Reads p (p.paced a deltaTime) := by
  rw [paced_eq]
  exact NodeScripts.reads_paced ha p

theorem reads_update (deltaTime : ℚ) (callbacks : List (ConnectionState × Connection)) (p : HostProcess) :
    scripts.Reads p (p.update deltaTime callbacks) := by
  have hcallbacks := NodeScripts.reads_forEach reads_statusCallback callbacks p
  have hperform {a : HostAction} (ha : a.message = none) (p : HostProcess) :
      scripts.Reads p (p.perform a) := NodeScripts.reads_perform (S := scripts) ha p
  rw [update]
  split_ifs
  · cases p.session.handler.mGameState with
    | gameStarted =>
      refine hcallbacks.andThen (fun p => ?_)
      exact ((hperform rfl p).andThen (reads_paced rfl)).andThen NodeScripts.reads_readBatch
    | searchingForPlayers => exact hcallbacks.andThen (reads_paced rfl)
    | resultsScreen => exact hcallbacks.andThen (hperform rfl)
    | none => exact NodeScripts.reads_returns rfl rfl
    | lookingForHost => exact NodeScripts.reads_returns rfl rfl
  · exact NodeScripts.reads_returns rfl rfl

end HostProcess

namespace ClientProcess

variable {deltaTime : ℚ}

theorem reads_handleState (p : ClientProcess) : scripts.Reads p (p.handleState deltaTime) := by
  have hinterpolate : scripts.Reads p (p.perform (.interpolate deltaTime)) :=
    NodeScripts.reads_perform (S := scripts) rfl p
  have hpaced (p : ClientProcess) : scripts.Reads p (p.paced deltaTime) := by
    rw [paced_eq]
    exact NodeScripts.reads_paced rfl p
  rw [handleState]
  cases p.session.handler.mGameState with
  | gameStarted => exact (hinterpolate.andThen hpaced).andThen NodeScripts.reads_readBatch
  | searchingForPlayers => exact NodeScripts.reads_readBatch p
  | resultsScreen => exact NodeScripts.reads_readBatch p
  | none => exact NodeScripts.reads_returns rfl rfl
  | lookingForHost => exact NodeScripts.reads_returns rfl rfl

theorem reads_update (deltaTime : ℚ) (callbacks : List (ConnectionState × Connection)) (p : ClientProcess) :
    scripts.Reads p (p.update deltaTime callbacks) := by
  have hcallback (e : ConnectionState × Connection) (p : ClientProcess) :
      scripts.Reads p (p.perform (.statusUpdate e.1 e.2)) := NodeScripts.reads_perform (S := scripts) rfl p
  rw [update]
  split_ifs
  · exact (NodeScripts.reads_forEach hcallback callbacks p).andThen reads_handleState
  · exact NodeScripts.reads_returns rfl rfl

end ClientProcess

namespace FrameWorld

/-- What has arrived at a client, or at the host, and is not read yet. -/
def socket (f : FrameWorld) : Option Connection → List (Connection × Packet)
  | none => f.host.socket
  | some c => (f.clients c).socket.map (fun m => (c, m))

def handled (f : FrameWorld) : Option Connection → List (Connection × Packet)
  | none => f.host.handled
  | some c => (f.clients c).handled.map (fun m => (c, m))

def arrival (n : Option Connection) : FrameAction → Option (Connection × Packet)
  | .arriveAtServer e => if n = none then some e else none
  | .arriveAtClient e => if n = some e.1 then some e else none
  | _ => none

def Throws (n : Option Connection) (f : FrameWorld) : FrameAction → Prop
  | .updateHost deltaTime callbacks => n = none ∧ (f.host.update deltaTime callbacks).thrown ≠ none
  | .updateClient c deltaTime callbacks =>
    n = some c ∧ ((f.clients c).update deltaTime callbacks).thrown ≠ none
  | _ => False

def raised (n : Option Connection) (f : FrameWorld) : FrameAction → List Event
  | .updateHost deltaTime callbacks =>
    if n = none then (f.host.update deltaTime callbacks).raised else []
  | .updateClient c deltaTime callbacks =>
    if n = some c then ((f.clients c).update deltaTime callbacks).raised else []
  | .host a => if n = none then (f.host.perform a).raised else []
  | .client c a => if n = some c then ((f.clients c).perform a).raised else []
  | _ => []

/-- The node closes connection `c` in a step; a client has no other one. -/
def Closes (n : Option Connection) (c : Connection) (f : FrameWorld) (a : FrameAction) : Prop :=
  (f.raised n a).any (if n = none then Event.closes c else Event.isClose) = true

/-- Nothing that arrives at the node on connection `c` gets lost in this step. -/
def Spares (n : Option Connection) (c : Connection) (f : FrameWorld) (a : FrameAction) : Prop :=
  ¬f.Throws n a ∧ ¬f.Closes n c a

instance (n : Option Connection) (f : FrameWorld) (a : FrameAction) : Decidable (f.Throws n a) := by
  cases a <;> dsimp only [Throws] <;> infer_instance

instance (n : Option Connection) (c : Connection) (f : FrameWorld) (a : FrameAction) :
    Decidable (f.Spares n c a) :=
  inferInstanceAs (Decidable (¬f.Throws n a ∧ ¬(_ = true)))

variable {n : Option Connection} {f : FrameWorld} {a : FrameAction}

structure Takes (n : Option Connection) (f : FrameWorld) (a : FrameAction)
    (read : List (Connection × Packet)) : Prop where
  handled : (f.next a).handled n = f.handled n ++ read
  order : (read ++ (f.next a).socket n).Sublist (f.socket n ++ (arrival n a).toList)
  kept : ∀ c, f.Spares n c a →
    channel c (read ++ (f.next a).socket n) = channel c (f.socket n ++ (arrival n a).toList)

theorem spares_host {c : Connection} (hc : ¬f.Closes none c a) {events : List Event}
    (h : f.raised none a = events) : HostProcess.scripts.Spares (fun e => e.1 = c) events := by
  intro e he
  rw [Closes, if_pos rfl, h] at hc
  change events.any (Event.closes e.1) = false
  rw [of_decide_eq_true he]
  exact Bool.eq_false_iff.mpr hc

theorem spares_client {c d : Connection} (hc : ¬f.Closes (some d) c a) {events : List Event}
    (h : f.raised (some d) a = events) : ClientProcess.scripts.Spares (fun _ => true) events := by
  intro e _
  rw [Closes, if_neg (by simp), h] at hc
  exact Bool.eq_false_iff.mpr hc

theorem takes_none (hsocket : (f.next a).socket n = f.socket n ++ (arrival n a).toList)
    (hhandled : (f.next a).handled n = f.handled n) : ∃ read, Takes n f a read := by
  refine ⟨[], by rw [hhandled, List.append_nil], ?_, fun c _ => ?_⟩
  · rw [List.nil_append, hsocket]
  · rw [List.nil_append, hsocket]

theorem takes_host (o : HostProcess.Result) (read : List (Connection × Packet))
    (harrival : arrival none a = none) (hnext : f.next a = f.hostDoes o)
    (hraised : f.raised none a = o.raised) (hhandled : o.state.handled = f.host.handled ++ read)
    (hsub : (read ++ o.state.socket).Sublist f.host.socket)
    (hkept : ¬f.Throws none a → ∀ keep, HostProcess.scripts.Spares keep o.raised →
      (read ++ o.state.socket).filter keep = f.host.socket.filter keep) :
    ∃ read, Takes none f a read := by
  refine ⟨read, ?_, ?_, fun c hc => ?_⟩
  · rw [hnext]
    exact hhandled
  · rw [hnext, harrival, Option.toList_none, List.append_nil]
    exact hsub
  · rw [hnext, harrival, Option.toList_none, List.append_nil]
    exact congrArg (List.map Prod.snd) (hkept hc.1 _ (spares_host hc.2 hraised))

theorem takes_client {d : Connection} (o : ClientProcess.Result) (read : List Packet)
    (harrival : arrival (some d) a = none) (hnext : f.next a = f.clientDoes d o)
    (hraised : f.raised (some d) a = o.raised)
    (hhandled : o.state.handled = (f.clients d).handled ++ read)
    (hsub : (read ++ o.state.socket).Sublist (f.clients d).socket)
    (hkept : ¬f.Throws (some d) a → ∀ keep, ClientProcess.scripts.Spares keep o.raised →
      (read ++ o.state.socket).filter keep = (f.clients d).socket.filter keep) :
    ∃ read, Takes (some d) f a read := by
  refine ⟨read.map (fun m => (d, m)), ?_, ?_, fun c hc => ?_⟩
  · simp only [FrameWorld.handled, hnext, clientDoes, Function.update_self, hhandled, List.map_append]
  · simp only [FrameWorld.socket, hnext, clientDoes, Function.update_self, harrival, Option.toList_none,
      List.append_nil, ← List.map_append]
    exact hsub.map _
  · have hsame := hkept hc.1 _ (spares_client hc.2 hraised)
    rw [List.filter_true, List.filter_true] at hsame
    simp only [FrameWorld.socket, hnext, clientDoes, Function.update_self, harrival, Option.toList_none,
      List.append_nil, ← List.map_append, hsame]

theorem message_host {a : HostAction} (h : a.isOutside = true) : a.message = none := by
  cases a with
  | receive c m => cases h
  | _ => rfl

theorem message_client {a : ClientAction} (h : a.isOutside = true) : a.message = none := by
  cases a with
  | receive m => cases h
  | _ => rfl

theorem takes_updateHost {deltaTime : ℚ} {callbacks : List (ConnectionState × Connection)} :
    ∃ read, Takes none f (.updateHost deltaTime callbacks) read := by
  obtain ⟨read, hhandled, hsub, hkept⟩ := HostProcess.reads_update deltaTime callbacks f.host
  refine takes_host _ read rfl rfl rfl hhandled hsub (fun ht => hkept ?_)
  exact not_not.mp (fun hne => ht ⟨rfl, hne⟩)

theorem takes_updateClient {c : Connection} {deltaTime : ℚ}
    {callbacks : List (ConnectionState × Connection)} :
    ∃ read, Takes (some c) f (.updateClient c deltaTime callbacks) read := by
  obtain ⟨read, hhandled, hsub, hkept⟩ :=
    ClientProcess.reads_update deltaTime callbacks (f.clients c)
  refine takes_client _ read rfl rfl (if_pos rfl) hhandled hsub (fun ht => hkept ?_)
  exact not_not.mp (fun hne => ht ⟨rfl, hne⟩)

theorem takes_hostActs {b : HostAction} (hb : b.isOutside = true) : ∃ read, Takes none f (.host b) read :=
  takes_host (f.host.perform b) [] rfl rfl rfl
    (NodeScripts.handled_quiet (S := HostProcess.scripts) (message_host hb) f.host)
    (NodeScripts.socket_shrinks (S := HostProcess.scripts) b f.host)
    (fun _ _ hkeep => NodeScripts.socket_spares (S := HostProcess.scripts) hkeep)

theorem takes_clientActs {c : Connection} {b : ClientAction} (hb : b.isOutside = true) :
    ∃ read, Takes (some c) f (.client c b) read :=
  takes_client ((f.clients c).perform b) [] rfl rfl (if_pos rfl)
    (NodeScripts.handled_quiet (S := ClientProcess.scripts) (message_client hb) (f.clients c))
    (NodeScripts.socket_shrinks (S := ClientProcess.scripts) b (f.clients c))
    (fun _ _ hkeep => NodeScripts.socket_spares (S := ClientProcess.scripts) hkeep)

theorem takes_arrival (f : FrameWorld) (e : Connection × Packet) :
    ∃ read, Takes (some e.1) f (.arriveAtClient e) read := by
  apply takes_none
  · simp only [socket, arrival, if_true, Option.toList_some, next, Function.update_self, List.map_append,
      List.map_singleton]
  · simp only [handled, next, Function.update_self]

theorem takes (n : Option Connection) (he : f.Enabled a) : ∃ read, Takes n f a read := by
  have hnone (harrival : arrival n a = none) (hsocket : (f.next a).socket n = f.socket n)
      (hhandled : (f.next a).handled n = f.handled n) : ∃ read, Takes n f a read :=
    takes_none (by rw [harrival, hsocket, Option.toList_none, List.append_nil]) hhandled
  have hother (c : Connection) (p : ClientProcess) (hn : n ≠ some c) (harrival : arrival n a = none)
      (hnext : (f.next a).clients = Function.update f.clients c p) (hhost : (f.next a).host = f.host) :
      ∃ read, Takes n f a read := by
    cases n with
    | none =>
      exact hnone harrival (congrArg HostProcess.socket hhost) (congrArg HostProcess.handled hhost)
    | some d =>
      have hd : d ≠ c := fun h => hn (congrArg some h)
      have hsame : (f.next a).clients d = f.clients d := by rw [hnext, Function.update_of_ne hd]
      exact hnone harrival (by rw [FrameWorld.socket, FrameWorld.socket, hsame])
        (by rw [FrameWorld.handled, FrameWorld.handled, hsame])
  cases a with
  | updateHost deltaTime callbacks =>
    cases n with
    | none => exact takes_updateHost
    | some c => exact hnone rfl rfl rfl
  | updateClient c deltaTime callbacks =>
    by_cases hn : n = some c
    · subst hn
      exact takes_updateClient
    · exact hother c _ hn rfl rfl rfl
  | host a =>
    cases n with
    | none => exact takes_hostActs he.1
    | some c => exact hnone rfl rfl rfl
  | client c a =>
    by_cases hn : n = some c
    · subst hn
      exact takes_clientActs he.2.1
    · exact hother c _ hn rfl rfl rfl
  | arriveAtServer e =>
    cases n with
    | none => exact takes_none rfl rfl
    | some c => exact hnone rfl rfl rfl
  | arriveAtClient e =>
    by_cases hn : n = some e.1
    · subst hn
      exact takes_arrival f e
    · exact hother e.1 _ hn (if_neg hn) rfl rfl
  | loseToServer e => exact hnone rfl (by cases n <;> rfl) (by cases n <;> rfl)
  | loseToClient e => exact hnone rfl (by cases n <;> rfl) (by cases n <;> rfl)

/-- A node handles the messages that arrive in their order and none twice; it handles all those of a
connection, but for those that still wait, as long as none of its `Update`s throws and none closes
that connection. -/
theorem messages_in_order (n : Option Connection) {as : List FrameAction}
    (hl : FrameWorld.system.Legal start as) :
    ((FrameWorld.system.run start as).handled n ++ (FrameWorld.system.run start as).socket n).Sublist
        (as.filterMap (arrival n)) ∧
      ∀ c, FrameWorld.system.Meets (fun f a => f.Spares n c a) start as →
        channel c ((FrameWorld.system.run start as).handled n ++
            (FrameWorld.system.run start as).socket n) =
          channel c (as.filterMap (arrival n)) := by
  induction as using List.reverseRecOn with
  | nil => cases n <;> exact ⟨List.Sublist.refl _, fun _ _ => rfl⟩
  | append_singleton as a ih =>
    obtain ⟨hbefore, -⟩ := (FrameWorld.system.meets_append _ _ _ _).mp hl
    obtain ⟨hsub, heq⟩ := ih hbefore
    obtain ⟨read, hhandled, horder, hkept⟩ := takes n (FrameWorld.system.meets_concat hl)
    have hfilter : (as ++ [a]).filterMap (arrival n) = as.filterMap (arrival n) ++ (arrival n a).toList := by
      cases ha : arrival n a <;> simp [ha]
    have hnext : FrameWorld.system.run start (as ++ [a]) = (FrameWorld.system.run start as).next a :=
      System.run_append start as [a]
    rw [hnext, hfilter, hhandled, List.append_assoc]
    constructor
    · refine (horder.append_left _).trans ?_
      rw [← List.append_assoc]
      exact hsub.append_right _
    · intro c hmeets
      obtain ⟨hmeets, hlast⟩ := (FrameWorld.system.meets_append _ _ _ _).mp hmeets
      have hspares := ((FrameWorld.system.meets_cons _ _ a []).mp hlast).1
      rw [channel_append, hkept c hspares, channel_append, ← List.append_assoc, ← channel_append,
        heq c hmeets, channel_append]

/-- Two clients report their results, and the first one leaves before the host has read its own. -/
def leavesUnread : List FrameAction :=
  [.updateHost (1 / 60) [(.connected, 1), (.connected, 2)],
    .updateClient 1 (1 / 60) [(.connected, 1)], .updateClient 2 (1 / 60) [(.connected, 1)],
    .host .startGame, .host (.levelLoaded ⟨0, 0, 0⟩),
    .arriveAtClient (1, .registerPlayer ⟨1, 1⟩), .arriveAtClient (1, .gameState ⟨1, .startGame⟩),
    .updateClient 1 (1 / 60) [],
    .arriveAtClient (2, .registerPlayer ⟨1, 2⟩), .arriveAtClient (2, .gameState ⟨1, .startGame⟩),
    .updateClient 2 (1 / 60) [],
    .client 1 (.loadScene 4 ⟨0, 0, 0⟩), .client 2 (.loadScene 4 ⟨0, 0, 0⟩),
    .client 1 (.sendPlayerResults ⟨"first", 1, 1, 1, .playerDisconnected⟩),
    .client 2 (.sendPlayerResults ⟨"second", 2, 2, 2, .playerDisconnected⟩),
    .arriveAtServer (1, .storePlayerResults ⟨1, 1, 1, 1, 1, .playerDisconnected, "first"⟩),
    .arriveAtServer (2, .storePlayerResults ⟨1, 2, 2, 2, 2, .playerDisconnected, "second"⟩),
    .updateHost (1 / 60) [(.closedByPeer, 1)]]

theorem messages_in_order_leavesUnread :
    let f := FrameWorld.system.run start leavesUnread
    channel 1 (f.handled none ++ f.socket none) = [] ∧
      (f.handled none ++ f.socket none).Sublist (leavesUnread.filterMap (arrival none)) ∧
      channel 2 (f.handled none ++ f.socket none) = channel 2 (leavesUnread.filterMap (arrival none)) := by
  intro f
  have hl : FrameWorld.system.Legal start leavesUnread := by decide +kernel
  obtain ⟨hsub, hall⟩ := messages_in_order none hl
  exact ⟨by decide +kernel, hsub, hall 2 (by decide +kernel)⟩

end FrameWorld

end SeminarTouhou
