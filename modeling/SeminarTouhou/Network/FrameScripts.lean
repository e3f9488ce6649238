import SeminarTouhou.Network.Frames

namespace SeminarTouhou

open Library

namespace Outcome

variable {σ μ ε : Type*} {o : Outcome σ μ ε} {f : σ → Outcome σ μ ε}

theorem andThen_throws {e : Exn} (h : o.thrown = some e) : o.andThen f = o := by
  simp only [andThen, h]

theorem andThen_returns (h : o.thrown = none) : o.andThen f =
    ⟨(f o.state).state, o.sent ++ (f o.state).sent, o.raised ++ (f o.state).raised,
      (f o.state).thrown⟩ := by
  simp only [andThen, h]

theorem forEach_keeps {α : Type*} {P : σ → Prop} {f : α → σ → Outcome σ μ ε}
    (h : ∀ a s, P s → P (f a s).state) (as : List α) {s : σ} (hs : P s) : P (forEach f as s).state := by
  induction as generalizing s with
  | nil => exact hs
  | cons a as ih =>
    rw [forEach]
    cases ht : (f a s).thrown with
    | some e =>
      rw [andThen_throws ht]
      exact h a s hs
    | none =>
      rw [andThen_returns ht]
      exact ih (h a s hs)

end Outcome

/-- What the scripts of the host and of a client have in common: a clock, a socket that some events
make discard messages, and the actions that the handler performs. -/
structure NodeScripts (σ α β μ : Type) where
  perform : α → σ → Outcome σ μ Event
  clock : σ → ℚ
  setClock : ℚ → σ → σ
  socket : σ → List β
  setSocket : List β → σ → σ
  handled : σ → List β
  receive : β → α
  message : α → Option β
  discards : β → Event → Bool
  clock_setClock : ∀ t s, clock (setClock t s) = t
  clock_setSocket : ∀ l s, clock (setSocket l s) = clock s
  socket_perform : ∀ a s, socket (perform a s).state =
    (socket s).filter (fun b => !(perform a s).raised.any (discards b))
  socket_setClock : ∀ t s, socket (setClock t s) = socket s
  socket_setSocket : ∀ l s, socket (setSocket l s) = l
  handled_perform : ∀ a s, handled (perform a s).state = handled s ++ (message a).toList
  handled_setClock : ∀ t s, handled (setClock t s) = handled s
  handled_setSocket : ∀ l s, handled (setSocket l s) = handled s
  message_receive : ∀ b, message (receive b) = some b

def HostProcess.scripts : NodeScripts HostProcess HostAction (Connection × Packet) (Connection × Packet) where
  perform := HostProcess.perform
  clock := HostProcess.mPacketSendTime
  setClock t p := { p with mPacketSendTime := t }
  socket := HostProcess.socket
  setSocket l p := { p with socket := l }
  handled := HostProcess.handled
  receive e := .receive e.1 e.2
  message := HostAction.message
  discards e := Event.closes e.1
  clock_setClock _ _ := rfl
  clock_setSocket _ _ := rfl
  socket_perform _ _ := rfl
  socket_setClock _ _ := rfl
  socket_setSocket _ _ := rfl
  handled_perform _ _ := rfl
  handled_setClock _ _ := rfl
  handled_setSocket _ _ := rfl
  message_receive _ := rfl

def ClientProcess.scripts : NodeScripts ClientProcess ClientAction Packet Packet where
  perform := ClientProcess.perform
  clock := ClientProcess.mPacketSendTime
  setClock t p := { p with mPacketSendTime := t }
  socket := ClientProcess.socket
  setSocket l p := { p with socket := l }
  handled := ClientProcess.handled
  receive := .receive
  message := ClientAction.message
  discards _ := Event.isClose
  clock_setClock _ _ := rfl
  clock_setSocket _ _ := rfl
  socket_perform _ _ := rfl
  socket_setClock _ _ := rfl
  socket_setSocket _ _ := rfl
  handled_perform _ _ := rfl
  handled_setClock _ _ := rfl
  handled_setSocket _ _ := rfl
  message_receive _ := rfl

namespace NodeScripts

variable {σ α β μ : Type} (S : NodeScripts σ α β μ)

def paced (due : σ → Prop) [DecidablePred due] (a : α) (deltaTime : ℚ) (s : σ) : Outcome σ μ Event :=
  (if packetTargetSendTime ≤ S.clock s ∧ due s then
      (S.perform a s).andThen (fun s => .returns (S.setClock 0 s))
    else .returns s).andThen
  (fun s => .returns (S.setClock (S.clock s + deltaTime) s))

def readBatch (s : σ) : Outcome σ μ Event :=
  Outcome.forEach (fun b => S.perform (S.receive b)) ((S.socket s).take maxMessages)
    (S.setSocket ((S.socket s).drop maxMessages) s)

/-- The events make the socket discard none of the messages in `keep`. -/
def Spares (keep : β → Bool) (events : List Event) : Prop :=
  ∀ b, keep b = true → events.any (S.discards b) = false

variable {S} {keep : β → Bool}

theorem spares_append {events more : List Event} :
    S.Spares keep (events ++ more) ↔ S.Spares keep events ∧ S.Spares keep more := by
  simp only [Spares, List.any_append, Bool.or_eq_false_iff]
  exact ⟨fun h => ⟨fun b hb => (h b hb).1, fun b hb => (h b hb).2⟩,
    fun h b hb => ⟨h.1 b hb, h.2 b hb⟩⟩

/-- The loop over a batch handles it from the front until something throws, and the socket keeps what
no event discards. -/
theorem forEach_receive (bs : List β) (s : σ) :
    ∃ read lost, bs = read ++ lost ∧
      S.handled (Outcome.forEach (fun b => S.perform (S.receive b)) bs s).state =
        S.handled s ++ read ∧
      S.socket (Outcome.forEach (fun b => S.perform (S.receive b)) bs s).state =
        (S.socket s).filter (fun b =>
          !(Outcome.forEach (fun b => S.perform (S.receive b)) bs s).raised.any (S.discards b)) ∧
      ((Outcome.forEach (fun b => S.perform (S.receive b)) bs s).thrown = none → lost = []) := by
  induction bs generalizing s with
  | nil =>
    refine ⟨[], [], rfl, (List.append_nil _).symm, ?_, fun _ => rfl⟩
    exact (List.filter_eq_self.mpr (fun _ _ => rfl)).symm
  | cons b bs ih =>
    have hfirst : S.handled (S.perform (S.receive b) s).state = S.handled s ++ [b] := by
      rw [S.handled_perform, S.message_receive, Option.toList_some]
    cases ht : (S.perform (S.receive b) s).thrown with
    | some e =>
      rw [Outcome.forEach, Outcome.andThen_throws ht]
      exact ⟨[b], bs, rfl, hfirst, S.socket_perform _ _, fun h => absurd (ht.symm.trans h) (by simp)⟩
    | none =>
      rw [Outcome.forEach, Outcome.andThen_returns ht]
      obtain ⟨read, lost, rfl, hhandled, hsocket, hlost⟩ := ih (S.perform (S.receive b) s).state
      refine ⟨b :: read, lost, rfl, ?_, ?_, hlost⟩
      · rw [hhandled, hfirst, List.append_assoc, List.singleton_append]
      · rw [hsocket, S.socket_perform, List.filter_filter]
        apply List.filter_congr
        intro c _
        rw [List.any_append, Bool.not_or, Bool.and_comm]

end NodeScripts

namespace HostProcess

theorem paced_eq (a : HostAction) (deltaTime : ℚ) (p : HostProcess) :
    p.paced a deltaTime = scripts.paced (fun _ => True) a deltaTime p := by
  simp only [paced, NodeScripts.paced, scripts, and_true]

end HostProcess

namespace ClientProcess

theorem paced_eq (deltaTime : ℚ) (p : ClientProcess) : p.paced deltaTime =
    scripts.paced (fun p => p.session.handler.mShouldSendData) .sendPlayerData deltaTime p := rfl

end ClientProcess

end SeminarTouhou
