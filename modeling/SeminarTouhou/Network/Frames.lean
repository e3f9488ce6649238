import SeminarTouhou.Network.World

namespace SeminarTouhou

open Library

open ServerHandler (ConnectionState)

def Outcome.forEach {α σ μ ε : Type*} (f : α → σ → Outcome σ μ ε) : List α → σ → Outcome σ μ ε
  | [], s => .returns s
  | a :: as, s => (f a s).andThen (forEach f as)

def maxMessages : ℕ := 20

def Event.closes (c : Connection) : Event → Bool
  | .closeConnection d => d = c
  | _ => false

def Event.isClose : Event → Bool
  | .closeConnection _ => true
  | _ => false

/-- The host with the clock and the socket of its handler: the messages that have arrived and that
`Update` has not asked for yet. `accepted` are the connections whose `Connected` callback it saw,
`handled` the messages that it has looked at. -/
structure HostProcess where
  session : HostSession
  accepted : List Connection
  mPacketSendTime : ℚ
  socket : List (Connection × Packet)
  handled : List (Connection × Packet)
deriving DecidableEq

def HostAction.message : HostAction → Option (Connection × Packet)
  | .receive c m => some (c, m)
  | _ => none

def ClientAction.message : ClientAction → Option Packet
  | .receive m => some m
  | _ => none

namespace HostProcess

abbrev Result := Outcome HostProcess (Connection × Packet) Event

def start : HostProcess := ⟨.start, [], 0, [], []⟩

def connected : ConnectionState × Connection → Option Connection
  | (.connected, c) => some c
  | _ => none

/-- `CloseConnection` discards what has arrived on the connection and is not read. -/
def perform (a : HostAction) (p : HostProcess) : Result :=
  let o := HostSession.act a p.session.handler
  ⟨{ p with
      session := p.session.next a
      socket := p.socket.filter (fun e => !o.raised.any (Event.closes e.1))
      handled := p.handled ++ a.message.toList },
    o.sent, o.raised, o.thrown⟩

def statusCallback (e : ConnectionState × Connection) (p : HostProcess) : Result :=
  { p with accepted := (connected e).toList ++ p.accepted }.perform (.statusCallback e.1 e.2)

def paced (a : HostAction) (deltaTime : ℚ) (p : HostProcess) : Result :=
  (if packetTargetSendTime ≤ p.mPacketSendTime then
      (p.perform a).andThen (fun p => .returns { p with mPacketSendTime := 0 })
    else .returns p).andThen
  (fun p => .returns { p with mPacketSendTime := p.mPacketSendTime + deltaTime })

/-- What `ReceiveMessagesOnListenSocket` gives is gone from the socket, also when the loop over it is
left by an exception. -/
def receiveMessages (p : HostProcess) : Result :=
  Outcome.forEach (fun e => perform (.receive e.1 e.2)) (p.socket.take maxMessages)
    { p with socket := p.socket.drop maxMessages }

/-- `Update`, in which `DispatchCallback` makes the calls of `callbacks`. -/
def update (deltaTime : ℚ) (callbacks : List (ConnectionState × Connection)) (p : HostProcess) : Result :=
  if p.session.handler.server then
    match p.session.handler.mGameState with
    | .gameStarted =>
      (Outcome.forEach statusCallback callbacks p).andThen (fun p =>
        ((p.perform (.interpolate deltaTime)).andThen (paced .sendPlayerData deltaTime)).andThen
          receiveMessages)
    | .searchingForPlayers =>
      (Outcome.forEach statusCallback callbacks p).andThen (paced .broadcastPlayerCount deltaTime)
    | .resultsScreen => (Outcome.forEach statusCallback callbacks p).andThen (perform .broadcastResults)
    | _ => .returns p
  else .returns p

end HostProcess

structure ClientProcess where
  session : ClientSession
  mPacketSendTime : ℚ
  socket : List Packet
  handled : List Packet
deriving DecidableEq

namespace ClientProcess

abbrev Result := Outcome ClientProcess Packet Event

def start : ClientProcess := ⟨.start, 0, [], []⟩

/-- A client closes no connection but its only one. -/
def perform (a : ClientAction) (p : ClientProcess) : Result :=
  let o := ClientSession.act a p.session.handler
  ⟨{ p with
      session := p.session.next a
      socket := p.socket.filter (fun _ => !o.raised.any Event.isClose)
      handled := p.handled ++ a.message.toList },
    o.sent, o.raised, o.thrown⟩

def paced (deltaTime : ℚ) (p : ClientProcess) : Result :=
  (if packetTargetSendTime ≤ p.mPacketSendTime ∧ p.session.handler.mShouldSendData then
      (p.perform .sendPlayerData).andThen (fun p => .returns { p with mPacketSendTime := 0 })
    else .returns p).andThen
  (fun p => .returns { p with mPacketSendTime := p.mPacketSendTime + deltaTime })

def handleNetMessages (p : ClientProcess) : Result :=
  Outcome.forEach (fun m => perform (.receive m)) (p.socket.take maxMessages)
    { p with socket := p.socket.drop maxMessages }

def handleState (deltaTime : ℚ) (p : ClientProcess) : Result :=
  match p.session.handler.mGameState with
  | .gameStarted =>
    ((p.perform (.interpolate deltaTime)).andThen (paced deltaTime)).andThen handleNetMessages
  | .searchingForPlayers => p.handleNetMessages
  | .resultsScreen => p.handleNetMessages
  | _ => .returns p

/-- `Update`; its callbacks come before it looks at the state. -/
def update (deltaTime : ℚ) (callbacks : List (ConnectionState × Connection)) (p : ClientProcess) :
    Result :=
  if p.session.handler.client then
    (Outcome.forEach (fun e => perform (.statusUpdate e.1 e.2)) callbacks p).andThen
      (handleState deltaTime)
  else .returns p

end ClientProcess

/-- What the engine calls outside of `Update`. -/
def HostAction.isOutside : HostAction → Bool
  | .statusCallback _ _ | .receive _ _ | .sendPlayerData | .broadcastPlayerCount | .broadcastResults
  | .interpolate _ => false
  | _ => true

def ClientAction.isOutside : ClientAction → Bool
  | .statusUpdate _ _ | .receive _ | .sendPlayerData | .interpolate _ => false
  | _ => true

/-- The game as it runs, frame by frame; `toServer` and `toClient` have not arrived yet. The sockets
give the messages in the order in which they arrived. -/
structure FrameWorld where
  host : HostProcess
  clients : Connection → ClientProcess
  toServer : List (Connection × Packet)
  toClient : List (Connection × Packet)

/-- `deltaTime` has passed since the frame before. -/
inductive FrameAction
  | updateHost (deltaTime : ℚ) (callbacks : List (ConnectionState × Connection))
  | updateClient (c : Connection) (deltaTime : ℚ) (callbacks : List (ConnectionState × Connection))
  | host (a : HostAction)
  | client (c : Connection) (a : ClientAction)
  | arriveAtServer (e : Connection × Packet)
  | arriveAtClient (e : Connection × Packet)
  | loseToServer (e : Connection × Packet)
  | loseToClient (e : Connection × Packet)

namespace FrameWorld

def start : FrameWorld := ⟨.start, fun _ => .start, [], []⟩

/-- Callbacks tell the host of connections, each at most once, and a client only once of its own. -/
def Enabled (f : FrameWorld) : FrameAction → Prop
  | .updateHost deltaTime callbacks => 0 ≤ deltaTime ∧ (∀ e ∈ callbacks, e.2 ≠ 0) ∧
    (callbacks.filterMap HostProcess.connected ++ f.host.accepted).Nodup
  | .updateClient c deltaTime callbacks => c ≠ 0 ∧ 0 ≤ deltaTime ∧
    (callbacks.filterMap HostProcess.connected).length ≤ 1 ∧
    (callbacks.filterMap HostProcess.connected ≠ [] →
      (f.clients c).session.handler.mGameState = .lookingForHost)
  | .host a => a.isOutside ∧ f.host.session.Enabled a
  | .client c a => c ≠ 0 ∧ a.isOutside ∧ (f.clients c).session.Enabled a
  | .arriveAtServer e | .loseToServer e => e ∈ f.toServer
  | .arriveAtClient e | .loseToClient e => e ∈ f.toClient

instance (f : FrameWorld) : (a : FrameAction) → Decidable (f.Enabled a)
  | .updateHost _ _ => inferInstanceAs (Decidable (_ ∧ _ ∧ _))
  | .updateClient _ _ _ => inferInstanceAs (Decidable (_ ∧ _ ∧ _ ∧ (_ → _)))
  | .host _ => inferInstanceAs (Decidable (_ ∧ _))
  | .client _ _ => inferInstanceAs (Decidable (_ ∧ _ ∧ _))
  | .arriveAtServer e | .loseToServer e => inferInstanceAs (Decidable (e ∈ f.toServer))
  | .arriveAtClient e | .loseToClient e => inferInstanceAs (Decidable (e ∈ f.toClient))

def hostDoes (f : FrameWorld) (o : HostProcess.Result) : FrameWorld :=
  { f with host := o.state, toClient := f.toClient ++ o.sent }

def clientDoes (f : FrameWorld) (c : Connection) (o : ClientProcess.Result) : FrameWorld :=
  { f with
    clients := Function.update f.clients c o.state
    toServer := f.toServer ++ o.sent.map (fun m => (c, m)) }

def next (f : FrameWorld) : FrameAction → FrameWorld
  | .updateHost deltaTime callbacks => f.hostDoes (f.host.update deltaTime callbacks)
  | .updateClient c deltaTime callbacks => f.clientDoes c ((f.clients c).update deltaTime callbacks)
  | .host a => f.hostDoes (f.host.perform a)
  | .client c a => f.clientDoes c ((f.clients c).perform a)
  | .arriveAtServer e =>
    { f with host := { f.host with socket := f.host.socket ++ [e] }, toServer := f.toServer.erase e }
  | .arriveAtClient e =>
    { f with
      clients := Function.update f.clients e.1
        { f.clients e.1 with socket := (f.clients e.1).socket ++ [e.2] }
      toClient := f.toClient.erase e }
  | .loseToServer e => { f with toServer := f.toServer.erase e }
  | .loseToClient e => { f with toClient := f.toClient.erase e }

def system : System FrameWorld FrameAction := ⟨Enabled, next⟩

instance (f : FrameWorld) (a : FrameAction) : Decidable (system.enabled f a) :=
  inferInstanceAs (Decidable (f.Enabled a))

end FrameWorld

end SeminarTouhou
