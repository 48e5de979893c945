import XrtcServer.IceTransport
import XrtcServer.DtlsTransport
import XrtcServer.RtcStreamManager

/-! The `TransportController` of a peer connection with its `IceAgent`: what the ICE channels
and the DTLS transports over them signal, and what becomes of the connection state. A signal
runs its slots at once, so every method is a function of the whole controller. -/
namespace XrtcServer
namespace Controller
open ByteFormat Dtls Ice
open XrtcServer.Stream (PeerConnectionState)

/-- What `_update_state` of a channel asks its connections: whether the selected one is
writable, and whether any one is receiving or active. -/
structure Connections where
  selectedWritable : Bool
  receiving : Bool
  active : Bool
  deriving DecidableEq, Repr

/-- The flags and the state of an `IceTransportChannel`. -/
structure IceChannel where
  writable : Bool := false
  receiving : Bool := false
  state : IceTransportState := .new
  hadConnection : Bool := false
  hasBeenConnection : Bool := false
  deriving DecidableEq, Repr

namespace IceChannel

def computeIceTransportState (c : IceChannel) (hasConnection : Bool) : IceTransportState :=
  if c.hadConnection && !hasConnection then .failed
  else if c.hasBeenConnection && !c.writable then .disconnected
  else if !c.hadConnection && !hasConnection then .new
  else if hasConnection && !c.writable then .checking
  else .connected

def withWritable (c : IceChannel) (writable : Bool) : IceChannel :=
  { c with writable, hasBeenConnection := c.hasBeenConnection || writable }

/-- The channel after `_update_state`. -/
def updated (c : IceChannel) (seen : Connections) : IceChannel :=
  let c := if c.writable = seen.selectedWritable then c else c.withWritable seen.selectedWritable
  let c := { c with receiving := seen.receiving }
  { c with state := c.computeIceTransportState seen.active }

theorem computeIceTransportState_ne_closed (c : IceChannel) (hasConnection : Bool) :
    c.computeIceTransportState hasConnection ≠ .closed := by
  unfold computeIceTransportState
  split_ifs <;> simp

end IceChannel

/-- The state that `IceAgent::_update_state` computes from those of its channels. -/
def iceStateOf (states : List IceTransportState) : IceTransportState :=
  let totalIceNew := states.count .new
  let totalIceChecking := states.count .checking
  let totalIceConnected := states.count .connected
  let totalIceCompleted := states.count .completed
  let totalIceFailed := states.count .failed
  let totalIceDisconnected := states.count .disconnected
  let totalIceClosed := states.count .closed
  let totalIce := states.length
  if totalIceFailed > 0 then .failed
  else if totalIceDisconnected > 0 then .disconnected
  else if totalIceNew + totalIceClosed = totalIce then .new
  else if totalIceNew + totalIceChecking > 0 then .checking
  else if totalIceCompleted + totalIceClosed = totalIce then .completed
  else if totalIceConnected + totalIceCompleted + totalIceClosed = totalIce then .connected
  else .new

/-- The state that `TransportController::_update_state` computes from those of the DTLS
transports and of their channels. -/
def pcStateOf (ice : List IceTransportState) (dtls : List DtlsTransportState) :
    PeerConnectionState :=
  let totalConnected := ice.count .connected + dtls.count .connected
  let totalDtlsConnecting := dtls.count .connecting
  let totalFailed := ice.count .failed + dtls.count .failed
  let totalClosed := ice.count .closed + dtls.count .closed
  let totalNew := ice.count .new + dtls.count .new
  let totalIceChecking := ice.count .checking
  let totalIceDisconnected := ice.count .disconnected
  let totalIceCompleted := ice.count .completed
  let totalTransports := dtls.length * 2
  if totalFailed > 0 then .failed
  else if totalIceDisconnected > 0 then .disconnected
  else if totalNew + totalClosed = totalTransports then .new
  else if totalIceChecking + totalDtlsConnecting + totalNew > 0 then .connecting
  else if totalConnected + totalIceCompleted + totalClosed = totalTransports then .connected
  else .new

/-- The switch of `_on_ice_state`. -/
def pcStateOfIce : IceTransportState → PeerConnectionState
  | .new => .new
  | .failed => .failed
  | .checking => .connecting
  | .connected | .completed => .connected
  | .disconnected | .closed => .disconnected

/-- `dtls` has the transport over each channel, and nothing when DTLS is off. `iceState` is
that of the agent, and `connectionStates` what was signalled, the last state first. The last
field is no variable of the program: it has the state that there is to compute at every
change of a channel's or a DTLS transport's state. -/
structure TransportController (σ : Type) where
  dtlsOn : Bool
  channels : List IceChannel
  dtls : List (DtlsTransport σ)
  iceState : IceTransportState := .new
  pcState : PeerConnectionState := .new
  connectionStates : List PeerConnectionState := []
  aggregates : List PeerConnectionState := []

namespace TransportController
variable {σ η τ : Type} (A : SslAdapter σ η τ) (w : TransportController σ) (i : ℕ)

def iceStates : List IceTransportState := w.channels.map fun c => c.state

def dtlsStates : List DtlsTransportState := w.dtls.map fun t => t.dtlsState

/-- The connection state that the current states of all transports make. -/
def aggregate : PeerConnectionState :=
  if w.dtlsOn then pcStateOf w.iceStates w.dtlsStates else pcStateOfIce (iceStateOf w.iceStates)

def noteAggregate : TransportController σ := { w with aggregates := w.aggregate :: w.aggregates }

def setPcState (pcState : PeerConnectionState) : TransportController σ :=
  if w.pcState ≠ pcState then
    { w with pcState, connectionStates := pcState :: w.connectionStates }
  else w

def updateState : TransportController σ := w.setPcState (pcStateOf w.iceStates w.dtlsStates)

def onIceState (state : IceTransportState) : TransportController σ :=
  if w.dtlsOn then w.updateState else w.setPcState (pcStateOfIce state)

/-- `IceAgent::signal_ice_state`, which is connected once for each transport. -/
def signalIceState (state : IceTransportState) : TransportController σ :=
  (fun w => onIceState w state)^[w.channels.length] w

/-- `IceAgent::_update_state`. -/
def agentUpdateState : TransportController σ :=
  let state := iceStateOf w.iceStates
  if w.iceState ≠ state then
    let w := if w.iceState = .checking ∧ state = .completed then w.signalIceState .connected else w
    { w with iceState := state }.signalIceState state
  else w

/-- The slots for the signals of a DTLS transport; both slots of `signal_receiving_state`
update the state. -/
def slots : Slots σ (TransportController σ) where
  onDtlsState t _ w := { w with dtls := w.dtls.set i t }.noteAggregate.updateState
  onReceivingState t w := { w with dtls := w.dtls.set i t }.updateState.updateState
  onReadPacket _ _ _ w := w

/-- The DTLS transport and what listens to it. -/
def put (x : Attached σ (TransportController σ)) : TransportController σ :=
  { x.listener with dtls := x.listener.dtls.set i x.transport }

def onDtls (f : Attached σ (TransportController σ) → Attached σ (TransportController σ)) :
    TransportController σ :=
  match w.dtls[i]? with
  | none => w
  | some t => put i (f ⟨t, w⟩)

def setChannel (c : IceChannel) : TransportController σ := { w with channels := w.channels.set i c }

/-- `IceTransportChannel::_set_writable`. The agent was connected to the signal first. -/
def setWritable (c : IceChannel) (writable : Bool) : TransportController σ :=
  if c.writable = writable then w
  else
    (w.setChannel i (c.withWritable writable)).agentUpdateState.onDtls i fun x =>
      x.onWritableState A (slots i) writable

def setReceiving (c : IceChannel) (receiving : Bool) : TransportController σ :=
  if c.receiving = receiving then w
  else
    (w.setChannel i { c with receiving }).agentUpdateState.onDtls i fun x =>
      x.onReceivingState (slots i) receiving

def setState (c : IceChannel) (state : IceTransportState) : TransportController σ :=
  if state ≠ c.state then (w.setChannel i { c with state }).noteAggregate.agentUpdateState else w

/-- The channel object is read again after each call that may signal. -/
def withChannel (f : IceChannel → TransportController σ) : TransportController σ :=
  match w.channels[i]? with
  | none => w
  | some c => f c

/-- `IceTransportChannel::_update_state`. -/
def channelUpdateState (seen : Connections) : TransportController σ :=
  let w := w.withChannel i fun c => w.setWritable A i c seen.selectedWritable
  let w := w.withChannel i fun c => w.setReceiving i c seen.receiving
  w.withChannel i fun c => w.setState i c (c.computeIceTransportState seen.active)

/-- The flag that `_add_connection` sets. -/
def addConnection : TransportController σ :=
  w.withChannel i fun c => w.setChannel i { c with hadConnection := true }

/-- What happens to the channel and the DTLS transport of a number. -/
inductive Event (τ : Type)
  | addConnection (i : ℕ)
  | channelUpdateState (i : ℕ) (seen : Connections)
  | packet (i : ℕ) (data : Bytes) (ts : ℤ)
  | task (i : ℕ) (task : τ)
  | setRemoteFingerprint (i : ℕ) (digestAlg digest : Bytes)

def step (e : Event τ) : TransportController σ :=
  match e with
  | .addConnection i => w.addConnection i
  | .channelUpdateState i seen => w.channelUpdateState A i seen
  | .packet i data ts => w.onDtls i fun x => x.onReadPacket A (slots i) data ts
  | .task i task => w.onDtls i fun x => x.onTask A (slots i) task
  | .setRemoteFingerprint i digestAlg digest =>
    w.onDtls i fun x => (x.setRemoteFingerprint A (slots i) digestAlg digest).1

/-- `set_local_description` for so many transports. -/
def start (dtlsOn : Bool) (n : ℕ) (srtpCiphers : List ℤ) (cert : Option ℕ) :
    TransportController σ :=
  let dtls : Attached σ Unit := { transport := { srtpCiphers }, listener := () }
  { dtlsOn
    channels := List.replicate n {}
    dtls := if dtlsOn then List.replicate n (dtls.setLocalCertificate cert).1.transport else [] }

end TransportController
end Controller
end XrtcServer
