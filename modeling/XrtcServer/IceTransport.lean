import XrtcServer.IceConnection
import Mathlib.Data.List.Sort

/-! The ICE transport of one component: the address maps of its `UDPPort`s, its
`IceController` and its `IceTransportChannel`. A signal runs its slot at once, so every
method is a function of the whole transport. Connections are objects with numbers; a
pointer is such a number, and reading through it gives the last contents. -/
namespace XrtcServer
namespace Ice
open ByteFormat ObjectHeap Stun

inductive IceTransportState
  | new | checking | connected | completed | failed | disconnected | closed
  deriving DecidableEq, Repr

/-- `addresses` has the maps of all ports, keyed by port and remote address. The sets
of the controller are lists in the order of the connections' memory addresses. -/
structure IceTransport where
  memory : Heap IceConnection := {}
  addresses : AList (fun _ : ℕ × SocketAddress => ℕ) := ∅
  connections : List ℕ := []
  unpinged : List ℕ := []
  pinged : List ℕ := []
  controllerSelected : Option ℕ := none
  remoteIceParams : IceParameters := ⟨[], []⟩
  startPinging : Bool := false
  curPingInterval : ℤ := weakPingInterval
  lastPingSentMs : ℤ := 0
  selected : Option ℕ := none
  receiving : Bool := false
  writable : Bool := false
  state : IceTransportState := .new
  hadConnection : Bool := false
  hasBeenConnection : Bool := false
  stateSignals : List IceTransportState := []

/-- What the transport does not control: the digest function, the memory behind a
datagram, the addresses at which connections are allocated and the priorities of the
ports' own candidates; and the credentials that the ports were created with. -/
structure Environment where
  hmac : Bytes → Bytes → Bytes
  beyond : ℕ → UInt8
  addressOf : ℕ → ℕ
  localPriority : ℕ → ℕ
  iceParams : IceParameters

namespace IceTransport

def blankConnection : IceConnection where
  remote := ⟨[], []⟩
  port := 0
  address := ⟨[], 0⟩
  remotePriority := 0

/-- The connection that a pointer leads to. -/
def conn (s : IceTransport) (c : ℕ) : IceConnection := (s.memory.get? c).getD blankConnection

def modifyConn (s : IceTransport) (c : ℕ) (f : IceConnection → IceConnection) : IceTransport :=
  { s with memory := s.memory.modify c f }

section Controller
variable (env : Environment)

/-- Insertion into a `std::set` of pointers. -/
def insertPointer (c : ℕ) (set : List ℕ) : List ℕ :=
  if c ∈ set then set
  else set.orderedInsert (fun a b => env.addressOf a ≤ env.addressOf b) c

/-- `IceController::_weak`. -/
def weak (s : IceTransport) : Bool :=
  match s.controllerSelected with
  | none => true
  | some c => (s.conn c).weak

def connectionPingInterval (s : IceTransport) (c : ℕ) (now : ℤ) : ℤ :=
  if (s.conn c).numPingsSent < minPingsAtWeakPingInterval then weakPingInterval
  else if s.weak || !(s.conn c).stable now then stablingConnectionPingInterval
  else stableConnectionPingInterval

def isConnectionPastPingInterval (s : IceTransport) (c : ℕ) (now : ℤ) : Bool :=
  now ≥ (s.conn c).lastPingSent + s.connectionPingInterval c now

def isPingable (s : IceTransport) (c : ℕ) (now : ℤ) : Bool :=
  if (s.conn c).remote.iceUfrag = [] ∨ (s.conn c).remote.icePwd = [] then false
  else if s.weak then true
  else s.isConnectionPastPingInterval c now

def hasPingableConnection (s : IceTransport) (now : ℤ) : Bool :=
  s.connections.any fun c => s.isPingable c now

def morePingable (s : IceTransport) (conn₁ : ℕ) (conn₂ : Option ℕ) : Bool :=
  match conn₂ with
  | none => true
  | some c => (s.conn conn₁).lastPingSent < (s.conn c).lastPingSent

/-- The scan of the unpinged connections in `_find_next_pingable_connection`. -/
def bestUnpinged (s : IceTransport) (now : ℤ) : Option ℕ :=
  s.unpinged.foldl
    (fun find c => if s.isPingable c now && s.morePingable c find then some c else find) none

/-- When no unpinged connection is pingable, the pinged ones move back. -/
def refillUnpinged (s : IceTransport) (now : ℤ) : IceTransport :=
  if s.unpinged.any fun c => s.isPingable c now then s
  else { s with unpinged := s.pinged.foldl (fun set c => insertPointer env c set) s.unpinged
                pinged := [] }

def findNextPingableConnection (s : IceTransport) (now : ℤ) : IceTransport × Option ℕ :=
  match s.controllerSelected with
  | none => (s.refillUnpinged env now, (s.refillUnpinged env now).bestUnpinged now)
  | some c =>
    if (s.conn c).writable && s.isConnectionPastPingInterval c now then (s, some c)
    else (s.refillUnpinged env now, (s.refillUnpinged env now).bestUnpinged now)

def selectConnectionToPing (s : IceTransport) (lastPingSentMs now : ℤ) :
    IceTransport × Option ℕ × ℤ :=
  let needPingMoreAtWeak := s.connections.any fun c =>
    (s.conn c).numPingsSent < minPingsAtWeakPingInterval
  let pingInterval := if s.weak || needPingMoreAtWeak then weakPingInterval else strongPingInterval
  if now ≥ lastPingSentMs + pingInterval then
    let (s, c) := s.findNextPingableConnection env now
    (s, c, pingInterval)
  else (s, none, pingInterval)

def compareConnections (s : IceTransport) (a b : ℕ) : ℤ :=
  let ka := s.conn a
  let kb := s.conn b
  if ka.writable && !kb.writable then 1
  else if !ka.writable && kb.writable then -1
  else if ka.writeState.toNat < kb.writeState.toNat then 1
  else if ka.writeState.toNat > kb.writeState.toNat then -1
  else if ka.receiving && !kb.receiving then 1
  else if !ka.receiving && kb.receiving then -1
  else if ka.priority (env.localPriority ka.port) > kb.priority (env.localPriority kb.port) then 1
  else if ka.priority (env.localPriority ka.port) < kb.priority (env.localPriority kb.port) then -1
  else 0

/-- The order that `sort_and_switch_connection` sorts by. -/
def sortsBefore (s : IceTransport) (a b : ℕ) : Bool :=
  if s.compareConnections env a b ≠ 0 then s.compareConnections env a b > 0
  else (s.conn a).rtt < (s.conn b).rtt

def readyToSend (s : IceTransport) (c : Option ℕ) : Bool :=
  match c with
  | none => false
  | some c => (s.conn c).writable || (s.conn c).writeState = .writeUnreliable

/-- `std::stable_sort` of the connections. -/
def sortConnections (s : IceTransport) : IceTransport :=
  { s with connections := s.connections.mergeSort fun a b => !s.sortsBefore env b a }

/-- The connection to switch to, once the connections are sorted. -/
def connectionToSwitchTo (s : IceTransport) : Option ℕ :=
  let top := s.connections.head?
  if !s.readyToSend top || s.controllerSelected = top then none
  else match top, s.controllerSelected with
    | some t, some c => if (s.conn t).rtt ≤ (s.conn c).rtt - kMinImprovement then top else none
    | _, _ => top

def markConnectionPinged (s : IceTransport) (c : ℕ) : IceTransport :=
  if c ∈ s.pinged then s
  else { s with pinged := insertPointer env c s.pinged, unpinged := s.unpinged.erase c }

/-- `IceController::on_connection_destroyed`. -/
def forgetConnection (s : IceTransport) (c : ℕ) : IceTransport :=
  { s with
    pinged := s.pinged.erase c
    unpinged := s.unpinged.erase c
    connections := s.connections.erase c }

end Controller

section Channel
variable (env : Environment)

def setWritable (s : IceTransport) (writable : Bool) : IceTransport :=
  if s.writable = writable then s
  else { s with writable, hasBeenConnection := s.hasBeenConnection || writable }

def setReceiving (s : IceTransport) (receiving : Bool) : IceTransport := { s with receiving }

def computeIceTransportState (s : IceTransport) : IceTransportState :=
  let hasConnection := s.connections.any fun c => (s.conn c).active
  if s.hadConnection && !hasConnection then .failed
  else if s.hasBeenConnection && !s.writable then .disconnected
  else if !s.hadConnection && !hasConnection then .new
  else if hasConnection && !s.writable then .checking
  else .connected

def setState (s : IceTransport) (state : IceTransportState) : IceTransport :=
  if state ≠ s.state then { s with state, stateSignals := state :: s.stateSignals } else s

def selectedWritable (s : IceTransport) : Bool :=
  match s.selected with
  | none => false
  | some c => (s.conn c).writable

def updateState (s : IceTransport) : IceTransport :=
  let s := s.setWritable s.selectedWritable
  let s := s.setReceiving (s.connections.any fun c => (s.conn c).receiving)
  s.setState s.computeIceTransportState

/-- `IceTransportChannel::_switch_selected_connection`; only a connection, not null, is
handed on to the controller. -/
def switchSelectedConnection (s : IceTransport) (c : Option ℕ) : IceTransport :=
  let old := s.selected
  let s := { s with selected := c }
  let s := match old with
    | some o => s.modifyConn o fun k => { k with selected := false }
    | none => s
  match c with
  | some n => { s.modifyConn n fun k => { k with selected := true } with controllerSelected := c }
  | none => s

def maybeSwitchSelectedConnection (s : IceTransport) (c : Option ℕ) : IceTransport :=
  match c with
  | none => s
  | some c => s.switchSelectedConnection (some c)

def maybeStartPinging (s : IceTransport) (now : ℤ) : IceTransport :=
  if s.startPinging then s
  else if s.hasPingableConnection now then { s with startPinging := true }
  else s

/-- `_sort_connections_and_update_state`, also the slot of a connection's state change. -/
def sortConnectionsAndUpdateState (s : IceTransport) (now : ℤ) : IceTransport :=
  let s := s.sortConnections env
  let s := s.maybeSwitchSelectedConnection s.connectionToSwitchTo
  s.updateState.maybeStartPinging now

end Channel

section Connection
variable (env : Environment)

def setWriteState (s : IceTransport) (c : ℕ) (state : WriteState) (now : ℤ) : IceTransport :=
  let oldState := (s.conn c).writeState
  let s := s.modifyConn c fun k => { k with writeState := state }
  if oldState ≠ state then s.sortConnectionsAndUpdateState env now else s

def updateReceiving (s : IceTransport) (c : ℕ) (now : ℤ) : IceTransport :=
  let receiving := (s.conn c).receivingAt now
  if (s.conn c).receiving = receiving then s
  else (s.modifyConn c fun k => { k with receiving }).sortConnectionsAndUpdateState env now

/-- `IceConnection::update_state`. -/
def updateConnection (s : IceTransport) (c : ℕ) (now : ℤ) : IceTransport :=
  let rtt := max minRtt (min maxRtt (2 * (s.conn c).rtt))
  let s :=
    if (s.conn c).writable &&
        (s.conn c).tooManyPingFails connectionWriteConnectFails rtt now &&
        (s.conn c).tooLongWithoutResponse connectionWriteConnectTimeout now
    then s.setWriteState env c .writeUnreliable now else s
  let s :=
    if ((s.conn c).writeState = .writeUnreliable || (s.conn c).writeState = .writeInit) &&
        (s.conn c).tooLongWithoutResponse connectionWriteTimeout now
    then s.setWriteState env c .writeTimeout now else s
  s.updateReceiving env c now

def receivedPingResponse (s : IceTransport) (c : ℕ) (rtt now : ℤ) : IceTransport :=
  let s := s.modifyConn c fun k => k.recordPingResponse rtt now
  let s := s.updateReceiving env c now
  let s := s.setWriteState env c .writable now
  s.modifyConn c fun k => { k with state := .succeeded }

def setRequests (s : IceTransport) (c : ℕ) (requests : StunRequestManager) : IceTransport :=
  s.modifyConn c fun k => { k with requests }

/-- `IceTransportChannel::_on_connection_destroyed`. -/
def onConnectionDestroyed (s : IceTransport) (c : ℕ) (now : ℤ) : IceTransport :=
  let s := s.forgetConnection c
  if s.selected = some c then
    (s.switchSelectedConnection none).sortConnectionsAndUpdateState env now
  else s.updateState

/-- `IceConnection::destroy`: the channel is told first, then the connection is deleted
and its requests with it. -/
def destroy (s : IceTransport) (c : ℕ) (now : ℤ) : IceTransport :=
  let s := s.onConnectionDestroyed env c now
  let s := s.setRequests c (s.conn c).requests.destroy
  { s with memory := s.memory.free c }

/-- `check_response` on a connection's manager, with the handlers of its requests. -/
def checkResponse (s : IceTransport) (c : ℕ) (msg : StunMessage) (now : ℤ) : IceTransport :=
  let result := (s.conn c).requests.checkResponse msg
  match result.2 with
  | .requestResponse request =>
    (s.receivedPingResponse env c (toInt (now - request.ts)) now).setRequests c result.1
  | .failAndDestroy =>
    let s := s.modifyConn c fun k => { k with state := .failed }
    (s.destroy env c now).setRequests c result.1
  | _ => s.setRequests c result.1

end Connection

section Events
variable (env : Environment)

/-- `IceTransportChannel::_on_unknown_address`: a request from an address that the port
has no connection for. -/
def onUnknownAddress (s : IceTransport) (port : ℕ) (addr : SocketAddress) (msg : StunMessage)
    (remoteUfrag : Bytes) (now : ℤ) : IceTransport :=
  match msg.getUInt32 stunAttrPriority with
  | none => s
  | some remotePriority =>
    let c := s.memory.size
    let s := { s with
      memory := s.memory.alloc
        { remote := ⟨remoteUfrag, s.remoteIceParams.icePwd⟩, port, address := addr, remotePriority }
      addresses := s.addresses.insert (port, addr) c
      hadConnection := true
      connections := s.connections ++ [c]
      unpinged := insertPointer env c s.unpinged }
    s.sortConnectionsAndUpdateState env now

/-- A packet at a port, `UDPPort::_on_read_packet`. The step is empty when the map leads
to a deleted connection: what the program does from there on is undefined. -/
def onReadPacket (s : IceTransport) (port : ℕ) (addr : SocketAddress) (data : Bytes) (now : ℤ) :
    IceTransport :=
  match s.addresses.lookup (port, addr) with
  | some c =>
    if s.memory.Alive c then
      match Stun.onReadPacket env.hmac env.beyond env.iceParams (s.conn c).remote data with
      | .checkResponse msg => s.checkResponse env c msg now
      | _ => s
    else s
  | none =>
    match getStunMessage env.hmac env.beyond env.iceParams data with
    | .message msg remoteUfrag =>
      if msg.type = stunBindingRequest then s.onUnknownAddress env port addr msg remoteUfrag now
      else s
    | _ => s

/-- `_ping_connection` and the mark that follows it. -/
def pingConnection (s : IceTransport) (c : ℕ) (now : ℤ) (id : Bytes) : IceTransport :=
  let s := { s with lastPingSentMs := now }
  (s.modifyConn c fun k => k.ping now id).markConnectionPinged env c

/-- The timer callback, once the timer runs. -/
def onCheckAndPing (s : IceTransport) (now : ℤ) (id : Bytes) : IceTransport :=
  let s := s.connections.foldl (fun s c => s.updateConnection env c now) s
  let (s, c, pingInterval) := s.selectConnectionToPing env (s.lastPingSentMs - pingIntervalDiff) now
  let s := match c with
    | some c => s.pingConnection env c now id
    | none => s
  { s with curPingInterval := pingInterval }

def setRemoteIceParams (s : IceTransport) (params : IceParameters) (now : ℤ) : IceTransport :=
  let s := { s with remoteIceParams := params }
  let s := s.connections.foldl (fun s c =>
    s.modifyConn c fun k => { k with remote := maybeSetRemoteIceParams k.remote params }) s
  s.sortConnectionsAndUpdateState env now

/-- What the event loop hands to the transport, with the clock reading and, for the
timer, the transaction id that a ping draws. -/
inductive Event
  | packet (port : ℕ) (addr : SocketAddress) (data : Bytes) (now : ℤ)
  | timer (now : ℤ) (id : Bytes)
  | setRemoteIceParams (params : IceParameters) (now : ℤ)
  | destroyConnection (c : ℕ) (now : ℤ)

def step (s : IceTransport) (e : Event) : IceTransport :=
  match e with
  | .packet port addr data now => s.onReadPacket env port addr data now
  | .timer now id => if s.startPinging then s.onCheckAndPing env now id else s
  | .setRemoteIceParams params now => s.setRemoteIceParams env params now
  | .destroyConnection c now => if s.memory.Alive c then s.destroy env c now else s

end Events
end IceTransport
end Ice
end XrtcServer
