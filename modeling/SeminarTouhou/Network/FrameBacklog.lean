import SeminarTouhou.Library.Totals
import SeminarTouhou.Network.FrameDelivery
import SeminarTouhou.Network.FrameRefinement

namespace SeminarTouhou

open Library

open ServerHandler (ConnectionState)

section Prefixes

variable {α : Type*} {p q : α → Bool}

theorem filter_take_initial (m : ℕ) (l : List α) (h : ∀ a, p a = true → q a = true) :
    (l.take m).filter p <+: ((l.filter q).take m).filter p := by
  have hq : (l.take m).filter q <+: (l.filter q).take m := by
    apply List.prefix_of_prefix_length_le ((List.take_prefix m l).filter q) (List.take_prefix m _)
    rw [List.length_take]
    apply le_min
    · exact (List.length_filter_le q _).trans (List.length_take_le m l)
    · exact ((List.take_sublist m l).filter q).length_le
  have hsame : ((l.take m).filter q).filter p = (l.take m).filter p := by
    rw [List.filter_filter]
    apply List.filter_congr
    intro a _
    cases ha : p a with
    | false => rfl
    | true => rw [h a ha, Bool.and_self]
  rw [← hsame]
  exact hq.filter p

end Prefixes

namespace NodeScripts

variable {σ α β μ γ : Type} (S : NodeScripts σ α β μ)

/-- What so many polls are enough for, `k` of them now and the others later, is handled or still
within reach of the later ones. -/
def Serves (k : ℕ) (s : σ) (o : Outcome σ μ Event) : Prop :=
  o.thrown = none → ∀ keep, S.Spares keep o.raised → ∀ t,
    (S.handled s ++ (S.socket s).take (maxMessages * (k + t))).filter keep <+:
      (S.handled o.state ++ (S.socket o.state).take (maxMessages * t)).filter keep

variable {S} {f g : σ → Outcome σ μ Event} {s t : σ} {o : Outcome σ μ Event} {a : α} {k l : ℕ}

theorem serves_returns (hsocket : S.socket t = S.socket s) (hhandled : S.handled t = S.handled s) :
    S.Serves 0 s (.returns t) := by
  intro _ keep _ m
  rw [Outcome.returns_state, hsocket, hhandled, Nat.zero_add]

theorem Serves.andThen (ho : S.Serves k s o) (hg : o.thrown = none → S.Serves l o.state (g o.state)) :
    S.Serves (k + l) s (o.andThen g) := by
  intro ht keep hkeep m
  cases hthrown : o.thrown with
  | some e =>
    rw [Outcome.andThen_throws hthrown, hthrown] at ht
    exact absurd ht (Option.some_ne_none e)
  | none =>
    rw [Outcome.andThen_returns hthrown] at ht hkeep ⊢
    obtain ⟨hfirst, hrest⟩ := spares_append.mp hkeep
    have hreach := ho hthrown keep hfirst (l + m)
    rw [← Nat.add_assoc] at hreach
    exact hreach.trans (hg hthrown ht keep hrest m)

theorem Serves.mono (h : S.Serves l s o) (hkl : k ≤ l) : S.Serves k s o := by
  intro ht keep hkeep m
  refine List.IsPrefix.trans (List.IsPrefix.filter keep ?_) (h ht keep hkeep m)
  refine (List.prefix_append_right_inj _).mpr (List.take_prefix_take_left ?_)
  exact Nat.mul_le_mul_left _ (Nat.add_le_add_right hkl m)

theorem reach_perform (ha : S.message a = none) (s : σ) {keep : β → Bool}
    (hkeep : S.Spares keep (S.perform a s).raised) (m : ℕ) :
    (S.handled s ++ (S.socket s).take m).filter keep <+:
      (S.handled (S.perform a s).state ++ (S.socket (S.perform a s).state).take m).filter keep := by
  rw [handled_quiet ha, List.append_nil, S.socket_perform, List.filter_append, List.filter_append]
  refine (List.prefix_append_right_inj _).mpr (filter_take_initial _ _ (fun b hb => ?_))
  rw [hkeep b hb, Bool.not_false]

theorem serves_perform (ha : S.message a = none) (s : σ) : S.Serves 0 s (S.perform a s) := by
  intro _ keep hkeep m
  rw [Nat.zero_add]
  exact reach_perform ha s hkeep _

theorem serves_forEach {f : γ → σ → Outcome σ μ Event} (hf : ∀ c s, S.Serves 0 s (f c s)) (cs : List γ)
    (s : σ) : S.Serves 0 s (Outcome.forEach f cs s) := by
  induction cs generalizing s with
  | nil => exact serves_returns rfl rfl
  | cons c cs ih => exact (hf c s).andThen (fun _ => ih _)

theorem serves_paced {due : σ → Prop} [DecidablePred due] {deltaTime : ℚ} (ha : S.message a = none)
    (s : σ) : S.Serves 0 s (S.paced due a deltaTime s) := by
  have hclock (t : ℚ) (s : σ) : S.Serves 0 s (.returns (S.setClock t s)) :=
    serves_returns (S.socket_setClock t s) (S.handled_setClock t s)
  refine Serves.andThen (k := 0) (l := 0) ?_ (fun _ => hclock _ _)
  split_ifs
  · exact (serves_perform ha s).andThen (k := 0) (l := 0) (fun _ => hclock 0 _)
  · exact serves_returns rfl rfl

theorem serves_readBatch (s : σ) : S.Serves 1 s (S.readBatch s) := by
  intro ht keep hkeep m
  obtain ⟨read, lost, hbatch, hhandled, hsocket, hlost⟩ := forEach_receive (S := S)
    ((S.socket s).take maxMessages) (S.setSocket ((S.socket s).drop maxMessages) s)
  rw [hlost ht, List.append_nil] at hbatch
  rw [readBatch] at hkeep ⊢
  rw [hhandled, hsocket, S.handled_setSocket, S.socket_setSocket, ← hbatch, Nat.mul_add, Nat.mul_one,
    List.take_add, ← List.append_assoc, List.filter_append,
    List.filter_append (S.handled s ++ (S.socket s).take maxMessages)]
  refine (List.prefix_append_right_inj _).mpr (filter_take_initial _ _ (fun b hb => ?_))
  rw [hkeep b hb, Bool.not_false]

end NodeScripts

namespace HostProcess

variable {deltaTime : ℚ}

theorem serves_callbacks (callbacks : List (ConnectionState × Connection)) (p : HostProcess) :
    scripts.Serves 0 p (Outcome.forEach statusCallback callbacks p) :=
  NodeScripts.serves_forEach (fun e p => NodeScripts.serves_perform (S := scripts)
    (a := .statusCallback e.1 e.2) rfl { p with accepted := (connected e).toList ++ p.accepted }) callbacks p

theorem serves_paced {a : HostAction} (ha : a.message = none) (p : HostProcess) :
    scripts.Serves 0 p (p.paced a deltaTime) := by
  rw [paced_eq]
  exact NodeScripts.serves_paced ha p

theorem serves_poll {callbacks : List (ConnectionState × Connection)} {p : HostProcess}
    (hserver : p.session.handler.server = true) (hphase : p.session.handler.mGameState = .gameStarted) :
    scripts.Serves 1 p (p.update deltaTime callbacks) := by
  have hinterpolate (p : HostProcess) : scripts.Serves 0 p (p.perform (.interpolate deltaTime)) :=
    NodeScripts.serves_perform (S := scripts) rfl p
  have hsend (p : HostProcess) := (hinterpolate p).andThen (g := paced .sendPlayerData deltaTime)
    (fun _ => serves_paced rfl _)
  simp only [update, hserver, if_true, hphase]
  refine (serves_callbacks callbacks p).andThen (k := 0) (l := 1) (fun _ => ?_)
  exact (hsend _).andThen (k := 0) (fun _ => NodeScripts.serves_readBatch _)

theorem serves_update (callbacks : List (ConnectionState × Connection)) (p : HostProcess) :
    scripts.Serves 0 p (p.update deltaTime callbacks) := by
  have hstay : scripts.Serves 0 p (.returns p) := NodeScripts.serves_returns rfl rfl
  by_cases hserver : p.session.handler.server = true
  · cases hphase : p.session.handler.mGameState with
    | gameStarted => exact (serves_poll hserver hphase).mono (Nat.zero_le 1)
    | searchingForPlayers =>
      simp only [update, hserver, if_true, hphase]
      exact (serves_callbacks callbacks p).andThen (k := 0) (l := 0) (fun _ => serves_paced rfl _)
    | resultsScreen =>
      simp only [update, hserver, if_true, hphase]
      exact (serves_callbacks callbacks p).andThen (k := 0) (l := 0)
        (fun _ => NodeScripts.serves_perform (S := scripts) rfl _)
    | none | lookingForHost =>
      simp only [update, hserver, if_true, hphase]
      exact hstay
  · rw [update, if_neg hserver]
    exact hstay

end HostProcess

namespace ClientProcess

variable {deltaTime : ℚ}

theorem reading_callbacks {callbacks : List (ConnectionState × Connection)} {p : ClientProcess}
    (h : FrameWorld.Reading p.session.handler.mGameState) : FrameWorld.Reading
      (Outcome.forEach (fun e => perform (.statusUpdate e.1 e.2)) callbacks
        p).state.session.handler.mGameState := by
  refine Outcome.forEach_keeps (P := fun p : ClientProcess =>
    FrameWorld.Reading p.session.handler.mGameState) ?_ callbacks h
  rintro ⟨state, c⟩ p hp
  cases state with
  | connected => exact List.mem_cons_self
  | closedByPeer | problemDetectedLocally => exact hp

theorem serves_callbacks (callbacks : List (ConnectionState × Connection)) (p : ClientProcess) :
    scripts.Serves 0 p (Outcome.forEach (fun e => perform (.statusUpdate e.1 e.2)) callbacks p) := by
  have hcallback (e : ConnectionState × Connection) (p : ClientProcess) :
      scripts.Serves 0 p (p.perform (.statusUpdate e.1 e.2)) :=
    NodeScripts.serves_perform (S := scripts) rfl p
  exact NodeScripts.serves_forEach hcallback callbacks p

theorem serves_batch {p : ClientProcess} (h : FrameWorld.Reading p.session.handler.mGameState) :
    scripts.Serves 1 p (p.handleState deltaTime) := by
  have hpaced (p : ClientProcess) : scripts.Serves 0 p (p.paced deltaTime) := by
    rw [paced_eq]
    exact NodeScripts.serves_paced rfl p
  rw [handleState]
  cases hp : p.session.handler.mGameState with
  | gameStarted =>
    have hinterpolate : scripts.Serves 0 p (p.perform (.interpolate deltaTime)) :=
      NodeScripts.serves_perform (S := scripts) rfl p
    have hsend := hinterpolate.andThen (g := paced deltaTime) (fun _ => hpaced _)
    exact hsend.andThen (k := 0) (fun _ => NodeScripts.serves_readBatch _)
  | searchingForPlayers | resultsScreen => exact NodeScripts.serves_readBatch p
  | none | lookingForHost =>
    rw [hp] at h
    exact absurd h (by decide)

theorem serves_handleState (p : ClientProcess) : scripts.Serves 0 p (p.handleState deltaTime) := by
  by_cases h : FrameWorld.Reading p.session.handler.mGameState
  · exact (serves_batch h).mono (Nat.zero_le 1)
  · rw [handleState]
    cases hp : p.session.handler.mGameState with
    | none | lookingForHost => exact NodeScripts.serves_returns rfl rfl
    | gameStarted | searchingForPlayers | resultsScreen =>
      rw [hp] at h
      exact absurd (by decide) h

theorem serves_poll {callbacks : List (ConnectionState × Connection)} {p : ClientProcess}
    (hclient : p.session.handler.client = true) (h : FrameWorld.Reading p.session.handler.mGameState) :
    scripts.Serves 1 p (p.update deltaTime callbacks) := by
  rw [update, if_pos hclient]
  exact (serves_callbacks callbacks p).andThen (k := 0) (fun _ => serves_batch (reading_callbacks h))

theorem serves_update (callbacks : List (ConnectionState × Connection)) (p : ClientProcess) :
    scripts.Serves 0 p (p.update deltaTime callbacks) := by
  rw [update]
  split_ifs
  · exact (serves_callbacks callbacks p).andThen (k := 0) (fun _ => serves_handleState _)
  · exact NodeScripts.serves_returns rfl rfl

end ClientProcess

namespace FrameWorld

def polls (n : Option Connection) (f : FrameWorld) : FrameAction → ℕ
  | .updateHost _ _ =>
    if n = none ∧ f.host.session.handler.server ∧ f.host.session.handler.mGameState = .gameStarted then 1
    else 0
  | .updateClient c _ _ =>
    if n = some c ∧ (f.clients c).session.handler.client ∧
      Reading (f.clients c).session.handler.mGameState then 1
    else 0
  | _ => 0

variable {n : Option Connection} {c : Connection} {f : FrameWorld} {a : FrameAction}

theorem reach_host {o : HostProcess.Result} (hnext : f.next a = f.hostDoes o)
    (hraised : f.raised none a = o.raised) (hc : ¬f.Closes none c a) {m l : ℕ}
    (h : ∀ keep, HostProcess.scripts.Spares keep o.raised →
      (f.host.handled ++ f.host.socket.take m).filter keep <+:
        (o.state.handled ++ o.state.socket.take l).filter keep) :
    channel c (f.handled none ++ (f.socket none).take m) <+:
      channel c ((f.next a).handled none ++ ((f.next a).socket none).take l) := by
  rw [hnext]
  exact (h _ (spares_host hc hraised)).map Prod.snd

theorem reach_client {d : Connection} {o : ClientProcess.Result} (hnext : f.next a = f.clientDoes d o)
    (hraised : f.raised (some d) a = o.raised) (hc : ¬f.Closes (some d) c a) {m l : ℕ}
    (h : ∀ keep, ClientProcess.scripts.Spares keep o.raised →
      ((f.clients d).handled ++ (f.clients d).socket.take m).filter keep <+:
        (o.state.handled ++ o.state.socket.take l).filter keep) :
    channel c (f.handled (some d) ++ (f.socket (some d)).take m) <+:
      channel c ((f.next a).handled (some d) ++ ((f.next a).socket (some d)).take l) := by
  have hall := h _ (spares_client hc hraised)
  rw [List.filter_true, List.filter_true] at hall
  have hreach := (hall.map (fun m => (d, m))).filter (fun e => e.1 = c)
  rw [hnext]
  simpa only [channel, handled, socket, clientDoes, Function.update_self, List.map_append, List.map_take]
    using hreach.map Prod.snd

theorem reach_same (hhandled : (f.next a).handled n = f.handled n)
    (hsocket : f.socket n <+: (f.next a).socket n) (m : ℕ) :
    channel c (f.handled n ++ (f.socket n).take m) <+:
      channel c ((f.next a).handled n ++ ((f.next a).socket n).take m) := by
  rw [hhandled]
  exact (((List.prefix_append_right_inj _).mpr (hsocket.take m)).filter _).map _

/-- What is within reach of the polls still to come stays so, and a poll takes the first of it. -/
theorem reach_next (he : f.Enabled a) (hs : f.Spares n c a) (t : ℕ) :
    channel c (f.handled n ++ (f.socket n).take (maxMessages * (f.polls n a + t))) <+:
      channel c ((f.next a).handled n ++ ((f.next a).socket n).take (maxMessages * t)) := by
  have hother (d : Connection) (p : ClientProcess) (hn : n ≠ some d) (hpolls : f.polls n a = 0)
      (hnext : (f.next a).clients = Function.update f.clients d p) (hhost : (f.next a).host = f.host) :
      channel c (f.handled n ++ (f.socket n).take (maxMessages * (f.polls n a + t))) <+:
        channel c ((f.next a).handled n ++ ((f.next a).socket n).take (maxMessages * t)) := by
    rw [hpolls, Nat.zero_add]
    cases n with
    | none =>
      refine reach_same (n := none) (congrArg HostProcess.handled hhost) ?_ _
      rw [socket, socket, hhost]
    | some b =>
      have hb : b ≠ d := fun h => hn (congrArg some h)
      have hsame : (f.next a).clients b = f.clients b := by rw [hnext, Function.update_of_ne hb]
      refine reach_same (by rw [handled, handled, hsame]) ?_ _
      rw [socket, socket, hsame]
  have hidle (hpolls : f.polls n a = 0) (hhandled : (f.next a).handled n = f.handled n)
      (hsocket : f.socket n <+: (f.next a).socket n) :
      channel c (f.handled n ++ (f.socket n).take (maxMessages * (f.polls n a + t))) <+:
        channel c ((f.next a).handled n ++ ((f.next a).socket n).take (maxMessages * t)) := by
    rw [hpolls, Nat.zero_add]
    exact reach_same hhandled hsocket _
  cases a with
  | updateHost deltaTime callbacks =>
    cases n with
    | some d => exact hidle rfl rfl (List.prefix_refl _)
    | none =>
      have ht : (f.host.update deltaTime callbacks).thrown = none :=
        not_not.mp (fun hne => hs.1 ⟨rfl, hne⟩)
      have hserves : HostProcess.scripts.Serves (f.polls none (.updateHost deltaTime callbacks)) f.host
          (f.host.update deltaTime callbacks) := by
        rw [polls]
        split_ifs with hpoll
        · exact HostProcess.serves_poll hpoll.2.1 hpoll.2.2
        · exact HostProcess.serves_update callbacks f.host
      exact reach_host rfl rfl hs.2 (fun keep hkeep => hserves ht keep hkeep t)
  | updateClient d deltaTime callbacks =>
    by_cases hn : n = some d
    · subst hn
      have ht : ((f.clients d).update deltaTime callbacks).thrown = none :=
        not_not.mp (fun hne => hs.1 ⟨rfl, hne⟩)
      have hserves : ClientProcess.scripts.Serves (f.polls (some d) (.updateClient d deltaTime callbacks))
          (f.clients d) ((f.clients d).update deltaTime callbacks) := by
        rw [polls]
        split_ifs with hpoll
        · exact ClientProcess.serves_poll hpoll.2.1 hpoll.2.2
        · exact ClientProcess.serves_update callbacks (f.clients d)
      have hraised : f.raised (some d) (.updateClient d deltaTime callbacks) =
          ((f.clients d).update deltaTime callbacks).raised := if_pos rfl
      exact reach_client rfl hraised hs.2 (fun keep hkeep => hserves ht keep hkeep t)
    · exact hother d _ hn (if_neg (fun h => hn h.1)) rfl rfl
  | host b =>
    cases n with
    | some d => exact hidle rfl rfl (List.prefix_refl _)
    | none =>
      rw [show f.polls none (.host b) = 0 from rfl, Nat.zero_add]
      refine reach_host (o := f.host.perform b) rfl rfl hs.2 (fun keep hkeep => ?_)
      exact NodeScripts.reach_perform (S := HostProcess.scripts) (message_host he.1) f.host hkeep _
  | client d b =>
    by_cases hn : n = some d
    · subst hn
      have hraised : f.raised (some d) (.client d b) = ((f.clients d).perform b).raised := if_pos rfl
      rw [show f.polls (some d) (.client d b) = 0 from rfl, Nat.zero_add]
      refine reach_client rfl hraised hs.2 (fun keep hkeep => ?_)
      exact NodeScripts.reach_perform (S := ClientProcess.scripts) (message_client he.2.1) (f.clients d)
        hkeep _
    · exact hother d _ hn rfl rfl rfl
  | arriveAtServer e =>
    cases n with
    | some d => exact hidle rfl rfl (List.prefix_refl _)
    | none => exact hidle rfl rfl (List.prefix_append _ _)
  | arriveAtClient e =>
    by_cases hn : n = some e.1
    · subst hn
      refine hidle rfl ?_ ?_
      · simp only [handled, next, Function.update_self]
      · simp only [socket, next, Function.update_self, List.map_append]
        exact List.prefix_append _ _
    · exact hother e.1 _ hn rfl rfl rfl
  | loseToServer e => exact hidle rfl (by cases n <;> rfl) (by cases n <;> exact List.prefix_refl _)
  | loseToClient e => exact hidle rfl (by cases n <;> rfl) (by cases n <;> exact List.prefix_refl _)

/-- No message starves: of those that wait in the socket of a node, so many batches are handled as the
node polls it, whatever else goes on, but for those of a connection that it closes and as long as none
of its `Update`s throws. -/
theorem backlog_handled (n : Option Connection) (c : Connection) {f : FrameWorld} {as : List FrameAction}
    (hl : FrameWorld.system.Legal f as)
    (hs : FrameWorld.system.Meets (fun f a => f.Spares n c a) f as) :
    channel c (f.handled n ++ (f.socket n).take (maxMessages * FrameWorld.system.total (polls n) f as)) <+:
      channel c ((FrameWorld.system.run f as).handled n) := by
  induction as generalizing f with
  | nil => rw [System.total_nil, Nat.mul_zero, List.take_zero, List.append_nil, System.run_nil]
  | cons a as ih =>
    obtain ⟨he, hl⟩ := (FrameWorld.system.legal_cons f a as).mp hl
    obtain ⟨hfirst, hs⟩ := (FrameWorld.system.meets_cons _ f a as).mp hs
    rw [System.total_cons]
    exact (reach_next he hfirst _).trans (ih hl hs)

/-- The host polls once, in the `Update` in which the first client leaves. -/
theorem backlog_handled_leavesUnread :
    let f := FrameWorld.system.run start (leavesUnread.take 17)
    let as := leavesUnread.drop 17
    FrameWorld.system.total (polls none) f as = 1 ∧
      channel 2 (f.handled none ++
          (f.socket none).take (maxMessages * FrameWorld.system.total (polls none) f as)) <+:
        channel 2 ((FrameWorld.system.run f as).handled none) := by
  intro f as
  exact ⟨by decide +kernel, backlog_handled none 2 (by decide +kernel) (by decide +kernel)⟩

end FrameWorld

end SeminarTouhou
