import SeminarTouhou.Network.ClientHandler
import SeminarTouhou.Network.HostSession

namespace SeminarTouhou

open Library

/-- The host, one client process for each connection, and the packets in flight. `accepted` are the
connections whose `Connected` callback the host has seen. -/
structure World where
  host : HostSession
  clients : Connection → ClientSession
  accepted : List Connection
  toServer : List (Connection × Packet)
  toClient : List (Connection × Packet)

inductive WorldAction
  | host (a : HostAction)
  | client (c : Connection) (a : ClientAction)
  | loseToServer (e : Connection × Packet)
  | loseToClient (e : Connection × Packet)
deriving DecidableEq

namespace World

def start : World := ⟨.start, fun _ => .start, [], [], []⟩

/-- Packets are delivered in any order and may be lost; a connection connects at most once. -/
def Enabled (w : World) : WorldAction → Prop
  | .host (.receive c p) => w.host.Enabled (.receive c p) ∧ (c, p) ∈ w.toServer
  | .host (.statusCallback .connected c) =>
    w.host.Enabled (.statusCallback .connected c) ∧ c ∉ w.accepted
  | .host a => w.host.Enabled a
  | .client c (.receive p) => c ≠ 0 ∧ (w.clients c).Enabled (.receive p) ∧ (c, p) ∈ w.toClient
  | .client c a => c ≠ 0 ∧ (w.clients c).Enabled a
  | .loseToServer e => e ∈ w.toServer
  | .loseToClient e => e ∈ w.toClient

instance (w : World) (a : WorldAction) : Decidable (w.Enabled a) := by
  rcases a with (⟨_ | _, _⟩ | _) | ⟨_, _ | _⟩ | _ <;> dsimp only [Enabled] <;> infer_instance

def acceptedAfter (w : World) : HostAction → List Connection
  | .statusCallback .connected c => c :: w.accepted
  | _ => w.accepted

def toServerAfter (w : World) : HostAction → List (Connection × Packet)
  | .receive c p => w.toServer.erase (c, p)
  | _ => w.toServer

def toClientAfter (w : World) (c : Connection) : ClientAction → List (Connection × Packet)
  | .receive p => w.toClient.erase (c, p)
  | _ => w.toClient

def hostStep (w : World) (a : HostAction) : World where
  host := w.host.next a
  clients := w.clients
  accepted := w.acceptedAfter a
  toServer := w.toServerAfter a
  toClient := w.toClient ++ (HostSession.act a w.host.handler).sent

def clientStep (w : World) (c : Connection) (a : ClientAction) : World where
  host := w.host
  clients := Function.update w.clients c ((w.clients c).next a)
  accepted := w.accepted
  toServer := w.toServer ++ (ClientSession.act a (w.clients c).handler).sent.map (fun p => (c, p))
  toClient := w.toClientAfter c a

def next (w : World) : WorldAction → World
  | .host a => w.hostStep a
  | .client c a => w.clientStep c a
  | .loseToServer e => { w with toServer := w.toServer.erase e }
  | .loseToClient e => { w with toClient := w.toClient.erase e }

def system : System World WorldAction := ⟨Enabled, next⟩

instance (w : World) (a : WorldAction) : Decidable (system.enabled w a) :=
  inferInstanceAs (Decidable (w.Enabled a))

section Steps

variable {w : World}

theorem enabled_host {a : HostAction} (he : w.Enabled (.host a)) : w.host.Enabled a := by
  cases a with
  | receive c p => exact he.1
  | statusCallback state c =>
    cases state with
    | connected => exact he.1
    | closedByPeer | problemDetectedLocally => exact he
  | _ => exact he

theorem enabled_client {c : Connection} {a : ClientAction} (he : w.Enabled (.client c a)) :
    c ≠ 0 ∧ (w.clients c).Enabled a := by
  cases a with
  | receive p => exact ⟨he.1, he.2.1⟩
  | _ => exact he

theorem toServerAfter_subset (w : World) (a : HostAction) : w.toServerAfter a ⊆ w.toServer := by
  cases a with
  | receive c p => exact List.erase_subset
  | _ => exact List.Subset.refl _

theorem toClientAfter_subset (w : World) (c : Connection) (a : ClientAction) :
    w.toClientAfter c a ⊆ w.toClient := by
  cases a with
  | receive p => exact List.erase_subset
  | _ => exact List.Subset.refl _

/-- A packet in flight to a client goes away only where it is read. -/
theorem mem_toClientAfter {w : World} {c d : Connection} {p : Packet} {a : ClientAction}
    (h : (c, p) ∈ w.toClient) (hread : ¬(d = c ∧ a = .receive p)) : (c, p) ∈ w.toClientAfter d a := by
  cases a with
  | receive q =>
    refine (List.mem_erase_of_ne ?_).mpr h
    intro heq
    obtain ⟨rfl, rfl⟩ := Prod.mk.inj heq
    exact hread ⟨rfl, rfl⟩
  | _ => exact h

theorem subset_acceptedAfter (w : World) (a : HostAction) : w.accepted ⊆ w.acceptedAfter a := by
  cases a with
  | statusCallback state c =>
    cases state with
    | connected => exact List.subset_cons_self _ _
    | closedByPeer | problemDetectedLocally => exact List.Subset.refl _
  | _ => exact List.Subset.refl _

theorem mem_toServer_clientStep {c d : Connection} {a : ClientAction} {p : Packet}
    (h : (d, p) ∈ (w.clientStep c a).toServer) :
    (d, p) ∈ w.toServer ∨ d = c ∧ p ∈ (ClientSession.act a (w.clients c).handler).sent := by
  rcases List.mem_append.mp h with h | h
  · exact Or.inl h
  · obtain ⟨q, hq, he⟩ := List.mem_map.mp h
    obtain ⟨rfl, rfl⟩ := Prod.mk.inj he
    exact Or.inr ⟨rfl, hq⟩

end Steps

end World

section Sent

namespace ServerHandler

variable {s : ServerHandler}

theorem mem_broadcast {p : Packet} {e : Connection × Packet} :
    e ∈ s.broadcast p ↔ e.1 ∈ s.connectedClients ∧ e.2 = p := by
  simp only [broadcast, List.mem_map]
  constructor
  · rintro ⟨c, hc, rfl⟩
    exact ⟨hc, rfl⟩
  · rintro ⟨hc, rfl⟩
    exact ⟨e.1, hc, rfl⟩

theorem mem_broadcastExcept {owner : UInt32} {p : Packet} {e : Connection × Packet} :
    e ∈ s.broadcastExcept owner p ↔ e.1 ∈ s.connectedClients ∧ e.1 ≠ owner ∧ e.2 = p := by
  simp only [broadcastExcept, List.mem_map, List.mem_filter, decide_eq_true_eq]
  constructor
  · rintro ⟨c, ⟨hc, hne⟩, rfl⟩
    exact ⟨hc, hne, rfl⟩
  · rintro ⟨hc, hne, rfl⟩
    exact ⟨e.1, ⟨hc, hne⟩, rfl⟩

end ServerHandler

def Packet.about : Packet → Option UInt32
  | .playerData d => some d.playerID
  | .offensiveBombData d => some d.playerID
  | .otherPlayerFinish d => some d.playerID
  | _ => none

namespace HostSession

open ServerHandler

/-- What a packet sent to `c` can be: news of another player, the registration of `c` in answer to
its `Connected` callback, `START` from the button, the end of the game, the number of players, or a
result. -/
inductive Sends (a : HostAction) (s : ServerHandler) (c : Connection) : Packet → Prop
  | news (p : Packet) (id : UInt32) (hp : p.about = some id) (hc : id ≠ c) : Sends a s c p
  | register (ha : a = .statusCallback .connected c) :
    Sends a s c (.registerPlayer ⟨roomID, c⟩)
  | started (ha : a = .startGame) (hc : c ∈ s.connectedClients) :
    Sends a s c (.gameState ⟨roomID, .startGame⟩)
  | finished (ha : a = .endCheck true) (hc : c ∈ s.connectedClients) :
    Sends a s c (.gameState ⟨roomID, .gameFinished⟩)
  | count (ha : a = .broadcastPlayerCount) :
    Sends a s c (.playerCount ⟨roomID, s.numberOfPlayers⟩)
  | result (d : PlayerSendResultData) : Sends a s c (.sendResult d)

theorem sends_broadcastExcept {a : HostAction} {s t : ServerHandler} {owner : UInt32} {p : Packet}
    {e : Connection × Packet} (hp : p.about = some owner) (h : e ∈ t.broadcastExcept owner p) :
    Sends a s e.1 e.2 := by
  obtain ⟨-, hne, rfl⟩ := mem_broadcastExcept.mp h
  exact .news _ owner hp hne.symm

theorem sends_finish {a : HostAction} {s t : ServerHandler} {id : UInt32} {r : ResultContext}
    {e : Connection × Packet} (h : e ∈ t.sendPlayerFinishToAllOtherClients id r) :
    Sends a s e.1 e.2 := by
  unfold sendPlayerFinishToAllOtherClients at h
  split_ifs at h
  · exact sends_broadcastExcept rfl h
  · simp at h

theorem sends_bomb {a : HostAction} {s t : ServerHandler} {id : UInt32} {pos : Vector2}
    {e : Connection × Packet} (h : e ∈ t.sendBombDataToAllOtherClients pos id) :
    Sends a s e.1 e.2 := by
  unfold sendBombDataToAllOtherClients at h
  split_ifs at h
  · exact sends_broadcastExcept rfl h
  · simp at h

theorem sends_receive {c : Connection} {p : Packet} {s : ServerHandler} {e : Connection × Packet}
    (h : e ∈ (s.receive p).sent) : Sends (.receive c p) s e.1 e.2 := by
  cases p with
  | storePlayerResults d =>
    simp only [receive, handleReceivePlayerResult] at h
    split_ifs at h
    · simp at h
    · split at h
      · simp at h
      · split at h
        · simp at h
        · exact sends_finish h
  | offensiveBombData d =>
    simp only [receive, handleOffensiveBombData] at h
    split at h
    · simp at h
    · split at h
      · simp at h
      · split at h
        · simp at h
        · exact sends_bomb h
  | playerData | registerPlayer | playerCount | gameState | sendResult | otherPlayerFinish =>
    simp [receive, ServerHandler.handlePlayerData] at h

theorem sends_sendPlayerData {s : ServerHandler} {e : Connection × Packet}
    (h : e ∈ s.sendPlayerData.sent) : Sends .sendPlayerData s e.1 e.2 := by
  simp only [ServerHandler.sendPlayerData, Outcome.sends_sent] at h
  split_ifs at h
  · obtain ⟨k, -, hk⟩ := List.mem_flatMap.mp h
    split at hk
    · simp at hk
    · split_ifs at hk
      · exact sends_broadcastExcept rfl hk
      · simp at hk
  · simp at h

theorem sends_act {a : HostAction} {s : ServerHandler} {e : Connection × Packet}
    (h : e ∈ (act a s).sent) : Sends a s e.1 e.2 := by
  cases a with
  | statusCallback state c =>
    cases state with
    | connected =>
      simp only [act, serverStatusCallback, handlePlayerJoining] at h
      split_ifs at h
      · simp at h
      · obtain rfl := List.mem_singleton.mp h
        exact .register rfl
    | closedByPeer | problemDetectedLocally =>
      simp only [act, serverStatusCallback, handlePlayerLeaving] at h
      split at h <;> simp at h
  | startGame =>
    obtain ⟨hc, he⟩ := mem_broadcast.mp h
    rw [he]
    exact .started rfl hc
  | levelLoaded position =>
    simp only [act, handleRegisterPlayer] at h
    split_ifs at h <;> simp at h
  | sendPlayerResults r =>
    simp only [act, handleSendPlayerResults] at h
    split_ifs at h
    · simp at h
    · exact sends_finish h
  | fireOffensiveBomb pos => exact sends_bomb h
  | receive c p => exact sends_receive h
  | endCheck b =>
    cases b with
    | false => exact absurd h List.not_mem_nil
    | true =>
      simp only [act, coDelayEndGameCheck, handleGameFinish, if_true] at h
      split_ifs at h
      · obtain ⟨hc, he⟩ := mem_broadcast.mp h
        rw [he]
        exact .finished rfl hc
      · simp at h
  | sendPlayerData => exact sends_sendPlayerData h
  | broadcastPlayerCount =>
    simp only [act, ServerHandler.broadcastPlayerCount, Outcome.sends_sent] at h
    split_ifs at h
    · obtain ⟨-, he⟩ := mem_broadcast.mp h
      rw [he]
      exact .count rfl
    · simp at h
  | broadcastResults =>
    simp only [act, ServerHandler.broadcastResults] at h
    split_ifs at h
    · obtain ⟨d, -, hd⟩ := List.mem_flatMap.mp h
      obtain ⟨-, he⟩ := mem_broadcast.mp hd
      rw [he]
      exact .result d.marshalled
    · simp at h
  | interpolate | movePlayer | destroyPlayer | unloadScene | endOfFrame =>
    simp [act, ServerHandler.handleInterpolatePlayerPoses] at h

end HostSession

end Sent

end SeminarTouhou
