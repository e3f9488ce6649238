import SeminarTouhou.Library.Spacing
import SeminarTouhou.Library.Totals
import SeminarTouhou.Network.ClientLaws
import SeminarTouhou.Network.FrameScripts
import SeminarTouhou.Network.RosterLaws

namespace SeminarTouhou

open Library

open ServerHandler (ConnectionState)

/-- What `Update` sends only when it is time. -/
def Packet.isPaced : Packet → Bool
  | .playerData _ | .playerCount _ => true
  | _ => false

theorem target_pos : (0 : ℚ) < packetTargetSendTime := by
  rw [packetTargetSendTime]
  norm_num

namespace NodeScripts

variable {σ α β μ γ : Type} (S : NodeScripts σ α β μ) (isPaced : μ → Bool)

/-- What leaves the clock alone and sends nothing that is paced. -/
def Quiet (f : σ → Outcome σ μ Event) : Prop :=
  ∀ s, S.clock (f s).state = S.clock s ∧ ∀ m ∈ (f s).sent, isPaced m = false

/-- How the clock can go on in an `Update`: what is paced starts it again. -/
inductive Ticks (deltaTime : ℚ) (s : σ) (o : Outcome σ μ Event) : Prop
  | stops (hc : S.clock o.state = S.clock s) (hs : ∀ m ∈ o.sent, isPaced m = false)
  | runs (hc : S.clock o.state = S.clock s + deltaTime) (hs : ∀ m ∈ o.sent, isPaced m = false)
  | starts (hold : packetTargetSendTime ≤ S.clock s) (hc : S.clock o.state = deltaTime)

variable {S isPaced} {f g : σ → Outcome σ μ Event} {deltaTime : ℚ}

theorem Quiet.ticks (hf : S.Quiet isPaced f) (s : σ) : S.Ticks isPaced deltaTime s (f s) :=
  .stops (hf s).1 (hf s).2

theorem Quiet.andThen (hf : S.Quiet isPaced f) (hg : S.Quiet isPaced g) :
    S.Quiet isPaced (fun s => (f s).andThen g) := by
  intro s
  dsimp only
  cases ht : (f s).thrown with
  | some e =>
    rw [Outcome.andThen_throws ht]
    exact hf s
  | none =>
    obtain ⟨hc, hs⟩ := hf s
    obtain ⟨hc', hs'⟩ := hg (f s).state
    rw [Outcome.andThen_returns ht]
    refine ⟨hc'.trans hc, fun m hm => ?_⟩
    obtain hm | hm := List.mem_append.mp hm
    · exact hs m hm
    · exact hs' m hm

theorem Quiet.forEach {f : γ → σ → Outcome σ μ Event} (hf : ∀ c, S.Quiet isPaced (f c)) (cs : List γ) :
    S.Quiet isPaced (Outcome.forEach f cs) := by
  induction cs with
  | nil => exact fun s => ⟨rfl, fun m hm => absurd hm List.not_mem_nil⟩
  | cons c cs ih => exact (hf c).andThen ih

theorem quiet_readBatch (h : ∀ b, S.Quiet isPaced (S.perform (S.receive b))) :
    S.Quiet isPaced S.readBatch := by
  intro s
  obtain ⟨hc, hs⟩ := Quiet.forEach h ((S.socket s).take maxMessages)
    (S.setSocket ((S.socket s).drop maxMessages) s)
  exact ⟨hc.trans (S.clock_setSocket _ s), hs⟩

theorem Quiet.andThen_ticks (hf : S.Quiet isPaced f)
    (hg : ∀ s, S.Ticks isPaced deltaTime s (g s)) (s : σ) :
    S.Ticks isPaced deltaTime s ((f s).andThen g) := by
  obtain ⟨hc, hs⟩ := hf s
  cases ht : (f s).thrown with
  | some e =>
    rw [Outcome.andThen_throws ht]
    exact .stops hc hs
  | none =>
    have hsent (hs' : ∀ m ∈ (g (f s).state).sent, isPaced m = false) :
        ∀ m ∈ (f s).sent ++ (g (f s).state).sent, isPaced m = false := by
      intro m hm
      exact (List.mem_append.mp hm).elim (hs m) (hs' m)
    rw [Outcome.andThen_returns ht]
    cases hg (f s).state with
    | stops hc' hs' => exact .stops (hc'.trans hc) (hsent hs')
    | runs hc' hs' => exact .runs (hc'.trans (congrArg (· + deltaTime) hc)) (hsent hs')
    | starts hold hc' => exact .starts (hc ▸ hold) hc'

theorem Ticks.andThen (hg : S.Quiet isPaced g) {s : σ} {o : Outcome σ μ Event}
    (h : S.Ticks isPaced deltaTime s o) : S.Ticks isPaced deltaTime s (o.andThen g) := by
  cases ht : o.thrown with
  | some e => rwa [Outcome.andThen_throws ht]
  | none =>
    obtain ⟨hc, hs⟩ := hg o.state
    have hsent (hs' : ∀ m ∈ o.sent, isPaced m = false) :
        ∀ m ∈ o.sent ++ (g o.state).sent, isPaced m = false := by
      intro m hm
      exact (List.mem_append.mp hm).elim (hs' m) (hs m)
    rw [Outcome.andThen_returns ht]
    cases h with
    | stops hc' hs' => exact .stops (hc.trans hc') (hsent hs')
    | runs hc' hs' => exact .runs (hc.trans hc') (hsent hs')
    | starts hold hc' => exact .starts hold (hc.trans hc')

theorem ticks_paced {due : σ → Prop} [DecidablePred due] {a : α}
    (ha : ∀ s, (S.perform a s).thrown = none) (s : σ) :
    S.Ticks isPaced deltaTime s (S.paced due a deltaTime s) := by
  by_cases ht : packetTargetSendTime ≤ S.clock s ∧ due s
  · refine .starts ht.1 ?_
    rw [paced, if_pos ht, Outcome.andThen_returns (ha s), Outcome.andThen_returns rfl]
    exact (S.clock_setClock _ _).trans ((congrArg (· + deltaTime) (S.clock_setClock _ _)).trans (zero_add _))
  · rw [paced, if_neg ht, Outcome.andThen_returns rfl]
    exact .runs (S.clock_setClock _ _) (fun m hm => absurd hm List.not_mem_nil)

theorem Ticks.cases {s : σ} {o : Outcome σ μ Event} (h : S.Ticks isPaced deltaTime s o) :
    (¬∃ m ∈ o.sent, isPaced m = true) ∧
        (S.clock o.state = S.clock s ∨ S.clock o.state = S.clock s + deltaTime) ∨
      packetTargetSendTime ≤ S.clock s ∧ S.clock o.state = deltaTime := by
  have hnone (hs : ∀ m ∈ o.sent, isPaced m = false) : ¬∃ m ∈ o.sent, isPaced m = true := by
    rintro ⟨m, hm, hp⟩
    exact absurd (hp.symm.trans (hs m hm)) Bool.true_eq_false_eq_False
  cases h with
  | stops hc hs => exact Or.inl ⟨hnone hs, Or.inl hc⟩
  | runs hc hs => exact Or.inl ⟨hnone hs, Or.inr hc⟩
  | starts hold hc => exact Or.inr ⟨hold, hc⟩

end NodeScripts

namespace HostProcess

variable {deltaTime : ℚ}

abbrev Quiet (f : HostProcess → Result) : Prop := scripts.Quiet (fun e => e.2.isPaced) f

abbrev Ticks (deltaTime : ℚ) : HostProcess → Result → Prop :=
  scripts.Ticks (fun e => e.2.isPaced) deltaTime

theorem quiet_perform {a : HostAction} (hpositions : a ≠ .sendPlayerData)
    (hcount : a ≠ .broadcastPlayerCount) : Quiet (perform a) := by
  intro p
  refine ⟨rfl, ?_⟩
  rintro ⟨c, m⟩ hm
  cases m with
  | playerData d =>
    have ht : HostSession.Tells a p.session.handler c (.playerData d) := HostSession.tells_act hm
    cases ht with
    | position _ ha => exact absurd ha hpositions
    | other _ hp => cases hp
  | playerCount d =>
    have hs : HostSession.Sends a p.session.handler c (.playerCount d) := HostSession.sends_act hm
    cases hs with
    | count ha => exact absurd ha hcount
    | news _ _ hp => cases hp
  | _ => rfl

theorem quiet_statusCallback (e : ConnectionState × Connection) : Quiet (statusCallback e) :=
  fun _ => quiet_perform (fun h => by cases h) (fun h => by cases h) _

theorem quiet_receiveMessages : Quiet receiveMessages :=
  NodeScripts.quiet_readBatch (S := scripts)
    (fun _ => quiet_perform (fun h => by cases h) (fun h => by cases h))

theorem ticks_paced {a : HostAction} (ha : ∀ s, (HostSession.act a s).thrown = none) (p : HostProcess) :
    Ticks deltaTime p (p.paced a deltaTime) := by
  rw [paced_eq]
  exact NodeScripts.ticks_paced (S := scripts) (fun p => ha p.session.handler) p

theorem ticks_update (deltaTime : ℚ) (callbacks : List (ConnectionState × Connection)) (p : HostProcess) :
    Ticks deltaTime p (p.update deltaTime callbacks) := by
  have hcallbacks : Quiet (Outcome.forEach statusCallback callbacks) :=
    NodeScripts.Quiet.forEach quiet_statusCallback callbacks
  have hstay : Ticks deltaTime p (.returns p) := .stops rfl (fun _ hm => absurd hm List.not_mem_nil)
  rw [update]
  split_ifs
  · cases p.session.handler.mGameState with
    | gameStarted =>
      apply hcallbacks.andThen_ticks
      intro p
      have hinterpolate : Quiet (perform (.interpolate deltaTime)) :=
        quiet_perform (fun h => by cases h) (fun h => by cases h)
      exact (hinterpolate.andThen_ticks (ticks_paced (fun _ => rfl)) p).andThen quiet_receiveMessages
    | searchingForPlayers => exact hcallbacks.andThen_ticks (ticks_paced (fun _ => rfl)) p
    | resultsScreen =>
      exact (hcallbacks.andThen (quiet_perform (fun h => by cases h) (fun h => by cases h))).ticks p
    | none => exact hstay
    | lookingForHost => exact hstay
  · exact hstay

end HostProcess

namespace ClientProcess

variable {deltaTime : ℚ}

abbrev Quiet (f : ClientProcess → Result) : Prop := scripts.Quiet Packet.isPaced f

abbrev Ticks (deltaTime : ℚ) : ClientProcess → Result → Prop := scripts.Ticks Packet.isPaced deltaTime

theorem quiet_perform {a : ClientAction} (ha : ¬ClientSession.Reports a) : Quiet (perform a) :=
  fun _ => ⟨rfl, fun _ hm => absurd (ClientSession.sent_claimedID hm).1 ha⟩

theorem quiet_handleNetMessages : Quiet handleNetMessages :=
  NodeScripts.quiet_readBatch (S := scripts) (fun m => quiet_perform (a := .receive m) id)

theorem ticks_paced (p : ClientProcess) : Ticks deltaTime p (p.paced deltaTime) := by
  rw [paced_eq]
  exact NodeScripts.ticks_paced (S := scripts) (fun _ => rfl) p

theorem ticks_update (deltaTime : ℚ) (callbacks : List (ConnectionState × Connection)) (p : ClientProcess) :
    Ticks deltaTime p (p.update deltaTime callbacks) := by
  have hcallbacks : Quiet (Outcome.forEach (fun e => perform (.statusUpdate e.1 e.2)) callbacks) :=
    NodeScripts.Quiet.forEach (fun e => quiet_perform (a := .statusUpdate e.1 e.2) id) callbacks
  rw [update]
  split_ifs
  · apply hcallbacks.andThen_ticks
    intro p
    rw [handleState]
    cases p.session.handler.mGameState with
    | gameStarted =>
      have hinterpolate : Quiet (perform (.interpolate deltaTime)) := quiet_perform id
      exact (hinterpolate.andThen_ticks ticks_paced p).andThen quiet_handleNetMessages
    | searchingForPlayers => exact quiet_handleNetMessages.ticks p
    | resultsScreen => exact quiet_handleNetMessages.ticks p
    | none => exact .stops rfl (fun _ hm => absurd hm List.not_mem_nil)
    | lookingForHost => exact .stops rfl (fun _ hm => absurd hm List.not_mem_nil)
  · exact .stops rfl (fun _ hm => absurd hm List.not_mem_nil)

end ClientProcess

namespace FrameWorld

def clock (f : FrameWorld) : Option Connection → ℚ
  | none => f.host.mPacketSendTime
  | some c => (f.clients c).mPacketSendTime

/-- The time that passed at the node before the step. -/
def frameTime (n : Option Connection) : FrameAction → ℚ
  | .updateHost deltaTime _ => if n = none then deltaTime else 0
  | .updateClient c deltaTime _ => if n = some c then deltaTime else 0
  | _ => 0

/-- An `Update` of the node sends positions, or the host the number of players. -/
def Reports (n : Option Connection) (f : FrameWorld) : FrameAction → Prop
  | .updateHost deltaTime callbacks => n = none ∧
    ∃ e ∈ (f.host.update deltaTime callbacks).sent, e.2.isPaced = true
  | .updateClient c deltaTime callbacks => n = some c ∧
    ∃ m ∈ ((f.clients c).update deltaTime callbacks).sent, m.isPaced = true
  | _ => False

instance (n : Option Connection) (f : FrameWorld) (a : FrameAction) : Decidable (f.Reports n a) :=
  match a with
  | .updateHost deltaTime callbacks =>
    decidable_of_iff (n = none ∧
      (f.host.update deltaTime callbacks).sent.any (fun e => e.2.isPaced) = true)
      (and_congr_right' List.any_eq_true)
  | .updateClient c deltaTime callbacks =>
    decidable_of_iff (n = some c ∧
      ((f.clients c).update deltaTime callbacks).sent.any Packet.isPaced = true)
      (and_congr_right' List.any_eq_true)
  | .host _ | .client _ _ | .arriveAtServer _ | .arriveAtClient _ | .loseToServer _ | .loseToClient _ =>
    isFalse id

def reports (n : Option Connection) (f : FrameWorld) (a : FrameAction) : ℕ :=
  if f.Reports n a then 1 else 0

variable {n : Option Connection} {f : FrameWorld} {a : FrameAction}

theorem frameTime_nonneg (he : f.Enabled a) : 0 ≤ frameTime n a := by
  cases a with
  | updateHost deltaTime callbacks =>
    rw [frameTime]
    split_ifs
    · exact he.1
    · exact le_refl 0
  | updateClient c deltaTime callbacks =>
    rw [frameTime]
    split_ifs
    · exact he.2.1
    · exact le_refl 0
  | _ => exact le_refl 0

/-- The clock of a node stands still, or takes in the time of a frame, or it starts again in a frame
that began when it was time. -/
theorem clock_next (n : Option Connection) (f : FrameWorld) (a : FrameAction) :
    ¬f.Reports n a ∧
        ((f.next a).clock n = f.clock n ∨ (f.next a).clock n = f.clock n + frameTime n a) ∨
      packetTargetSendTime ≤ f.clock n ∧ (f.next a).clock n = frameTime n a := by
  have hclient (c : Connection) (p : ClientProcess) (hp : p.mPacketSendTime = (f.clients c).mPacketSendTime)
      (hnext : (f.next a).clients = Function.update f.clients c p)
      (hhost : (f.next a).host.mPacketSendTime = f.host.mPacketSendTime) :
      (f.next a).clock n = f.clock n := by
    cases n with
    | none => exact hhost
    | some d =>
      rw [clock, clock, hnext]
      by_cases hd : d = c
      · subst hd
        simpa only [Function.update_self] using hp
      · simp only [Function.update_of_ne hd]
  cases a with
  | updateHost deltaTime callbacks =>
    cases n with
    | none =>
      have hcases := (HostProcess.ticks_update deltaTime callbacks f.host).cases
      exact hcases.imp_left (And.imp_left (fun hne h => hne h.2))
    | some c => exact Or.inl ⟨fun h => (Option.some_ne_none c h.1).elim, Or.inl rfl⟩
  | updateClient c deltaTime callbacks =>
    by_cases hn : n = some c
    · subst hn
      have hcases := (ClientProcess.ticks_update deltaTime callbacks (f.clients c)).cases
      simp only [clock, next, clientDoes, Function.update_self, frameTime, if_true]
      exact hcases.imp_left (And.imp_left (fun hne h => hne h.2))
    · refine Or.inl ⟨fun h => hn h.1, Or.inl ?_⟩
      cases n with
      | none => rfl
      | some d =>
        have hd : d ≠ c := fun h => hn (congrArg some h)
        simp only [clock, next, clientDoes, Function.update_of_ne hd]
  | client c a => exact Or.inl ⟨id, Or.inl (hclient c ((f.clients c).perform a).state rfl rfl rfl)⟩
  | arriveAtClient e =>
    refine Or.inl ⟨id, Or.inl ?_⟩
    exact hclient e.1 { f.clients e.1 with socket := (f.clients e.1).socket ++ [e.2] } rfl rfl rfl
  | host | arriveAtServer | loseToServer | loseToClient => exact Or.inl ⟨id, Or.inl (by cases n <;> rfl)⟩

theorem clock_reports (h : f.Reports n a) : (f.next a).clock n = frameTime n a := by
  obtain ⟨hr, -⟩ | ⟨-, hc⟩ := clock_next n f a
  · exact absurd h hr
  · exact hc

theorem clock_nonneg (he : f.Enabled a) (h : 0 ≤ f.clock n) : 0 ≤ (f.next a).clock n := by
  have hpasses := frameTime_nonneg (n := n) he
  obtain ⟨-, hc | hc⟩ | ⟨-, hc⟩ := clock_next n f a
  · rwa [hc]
  · rw [hc]
    exact add_nonneg h hpasses
  · rwa [hc]

theorem clock_pays (he : f.Enabled a) :
    packetTargetSendTime * f.reports n a + (f.next a).clock n ≤ f.clock n + frameTime n a := by
  have hpasses := frameTime_nonneg (n := n) he
  rw [reports]
  obtain ⟨hr, hc | hc⟩ | ⟨hold, hc⟩ := clock_next n f a
  · rw [if_neg hr, hc, Nat.cast_zero]
    linarith
  · rw [if_neg hr, hc, Nat.cast_zero]
    linarith
  · rw [hc]
    split_ifs
    · rw [Nat.cast_one]
      linarith
    · have hpos := target_pos
      rw [Nat.cast_zero]
      linarith

theorem run_pays (n : Option Connection) {f : FrameWorld} {as : List FrameAction}
    (hl : FrameWorld.system.Legal f as) (h : 0 ≤ f.clock n) :
    packetTargetSendTime * FrameWorld.system.total (reports n) f as ≤
      f.clock n + duration (frameTime n) as := by
  induction as generalizing f with
  | nil => simpa using h
  | cons a as ih =>
    obtain ⟨he, hl⟩ := (FrameWorld.system.legal_cons f a as).mp hl
    have hfirst := clock_pays (n := n) he
    have hrest := ih hl (clock_nonneg he h)
    rw [System.total_cons, duration_cons, Nat.cast_add, mul_add]
    change _ ≤ (f.next a).clock n + duration (frameTime n) as at hrest
    linarith

/-- In the lobby and in the game, no node reports too often, whatever throws and whatever its frames
take: the reports that follow a report have to wait for their time, all of them together, and only the
length of the frame that ended with the first one is granted to them. -/
theorem reports_paced (n : Option Connection) {as bs : List FrameAction} {a : FrameAction}
    (hl : FrameWorld.system.Legal start (as ++ a :: bs))
    (ha : (FrameWorld.system.run start as).Reports n a) :
    packetTargetSendTime *
        FrameWorld.system.total (reports n) (FrameWorld.system.run start (as ++ [a])) bs ≤
      frameTime n a + duration (frameTime n) bs := by
  obtain ⟨-, hafter⟩ := (FrameWorld.system.meets_append _ _ as _).mp hl
  obtain ⟨he, hlater⟩ := (FrameWorld.system.legal_cons _ a _).mp hafter
  have hnext : FrameWorld.system.run start (as ++ [a]) = (FrameWorld.system.run start as).next a :=
    System.run_append start as [a]
  rw [hnext, ← clock_reports ha]
  refine run_pays n hlater ?_
  rw [clock_reports ha]
  exact frameTime_nonneg he

/-- The host reports the number of players in the third and in the fifth frame. -/
theorem reports_paced_playerCount :
    let as := [.updateHost (1 / 50) [(.connected, 1)], .updateHost (1 / 50) []]
    let f := FrameWorld.system.run start (as ++ [.updateHost (1 / 50) []])
    FrameWorld.system.total (reports none) f [.updateHost (1 / 50) [], .updateHost (1 / 50) []] = 1 ∧
      packetTargetSendTime *
          FrameWorld.system.total (reports none) f [.updateHost (1 / 50) [], .updateHost (1 / 50) []] ≤
        frameTime none (.updateHost (1 / 50) []) +
          duration (frameTime none) [.updateHost (1 / 50) [], .updateHost (1 / 50) []] := by
  intro as f
  have hl : FrameWorld.system.Legal start (as ++ .updateHost (1 / 50) [] ::
      [.updateHost (1 / 50) [], .updateHost (1 / 50) []]) := by decide +kernel
  exact ⟨by decide +kernel, reports_paced none hl (by decide +kernel)⟩

end FrameWorld

end SeminarTouhou
