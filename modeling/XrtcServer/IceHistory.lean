import XrtcServer.IceLifetimes

/-! The calls of `_sort_connections_and_update_state` that the events of a run make, and a
rule for what holds between the calls. -/
namespace XrtcServer
namespace Ice
open ByteFormat ObjectHeap Stun

/-- A call of `_sort_connections_and_update_state`: the transport before and after it. -/
structure SortCall where
  before : IceTransport
  after : IceTransport

/-- A transport with the calls so far, the last one first. -/
structure Recorded where
  transport : IceTransport := {}
  calls : List SortCall := []

namespace IceTransport

/-- The connection that `_on_unknown_address` creates and adds. -/
def addConnection (env : Environment) (s : IceTransport) (port : ℕ) (addr : SocketAddress)
    (remoteUfrag : Bytes) (remotePriority : ℕ) : IceTransport :=
  { s with
    memory := s.memory.alloc
      { remote := ⟨remoteUfrag, s.remoteIceParams.icePwd⟩, port, address := addr, remotePriority }
    addresses := s.addresses.insert (port, addr) s.memory.size
    hadConnection := true
    connections := s.connections ++ [s.memory.size]
    unpinged := insertPointer env s.memory.size s.unpinged }

end IceTransport

namespace Recorded
open IceTransport

def change (x : Recorded) (f : IceTransport → IceTransport) : Recorded :=
  { x with transport := f x.transport }

section Methods
variable (env : Environment) (x : Recorded) (c : ℕ) (now : ℤ)

/-- `_sort_connections_and_update_state`, recorded. -/
def sort : Recorded :=
  let after := x.transport.sortConnectionsAndUpdateState env now
  { transport := after, calls := ⟨x.transport, after⟩ :: x.calls }

def setWriteState (state : WriteState) : Recorded :=
  let oldState := (x.transport.conn c).writeState
  let x := x.change fun s => s.modifyConn c fun k => { k with writeState := state }
  if oldState ≠ state then x.sort env now else x

def updateReceiving : Recorded :=
  let receiving := (x.transport.conn c).receivingAt now
  if (x.transport.conn c).receiving = receiving then x
  else (x.change fun s => s.modifyConn c fun k => { k with receiving }).sort env now

def updateConnection : Recorded :=
  let rtt := max minRtt (min maxRtt (2 * (x.transport.conn c).rtt))
  let x :=
    if (x.transport.conn c).writable &&
        (x.transport.conn c).tooManyPingFails connectionWriteConnectFails rtt now &&
        (x.transport.conn c).tooLongWithoutResponse connectionWriteConnectTimeout now
    then x.setWriteState env c now .writeUnreliable else x
  let x :=
    if ((x.transport.conn c).writeState = .writeUnreliable ||
          (x.transport.conn c).writeState = .writeInit) &&
        (x.transport.conn c).tooLongWithoutResponse connectionWriteTimeout now
    then x.setWriteState env c now .writeTimeout else x
  x.updateReceiving env c now

def receivedPingResponse (rtt : ℤ) : Recorded :=
  let x := x.change fun s => s.modifyConn c fun k => k.recordPingResponse rtt now
  let x := x.updateReceiving env c now
  let x := x.setWriteState env c now .writable
  x.change fun s => s.modifyConn c fun k => { k with state := .succeeded }

def onConnectionDestroyed : Recorded :=
  let x := x.change fun s => s.forgetConnection c
  if x.transport.selected = some c then
    (x.change fun s => s.switchSelectedConnection none).sort env now
  else x.change updateState

def destroy : Recorded :=
  let x := x.onConnectionDestroyed env c now
  let x := x.change fun s => s.setRequests c (s.conn c).requests.destroy
  x.change fun s => { s with memory := s.memory.free c }

def checkResponse (msg : StunMessage) : Recorded :=
  let result := (x.transport.conn c).requests.checkResponse msg
  match result.2 with
  | .requestResponse request =>
    (x.receivedPingResponse env c now (toInt (now - request.ts))).change fun s =>
      s.setRequests c result.1
  | .failAndDestroy =>
    let x := x.change fun s => s.modifyConn c fun k => { k with state := .failed }
    (x.destroy env c now).change fun s => s.setRequests c result.1
  | _ => x.change fun s => s.setRequests c result.1

def onUnknownAddress (port : ℕ) (addr : SocketAddress) (msg : StunMessage) (remoteUfrag : Bytes) :
    Recorded :=
  match msg.getUInt32 stunAttrPriority with
  | none => x
  | some remotePriority =>
    (x.change fun s => s.addConnection env port addr remoteUfrag remotePriority).sort env now

def onReadPacket (port : ℕ) (addr : SocketAddress) (data : Bytes) : Recorded :=
  match x.transport.addresses.lookup (port, addr) with
  | some c =>
    if x.transport.memory.Alive c then
      match Stun.onReadPacket env.hmac env.beyond env.iceParams (x.transport.conn c).remote data with
      | .checkResponse msg => x.checkResponse env c now msg
      | _ => x
    else x
  | none =>
    match getStunMessage env.hmac env.beyond env.iceParams data with
    | .message msg remoteUfrag =>
      if msg.type = stunBindingRequest then x.onUnknownAddress env now port addr msg remoteUfrag else x
    | _ => x

/-- What the timer does after the connections are updated. -/
def pingNext (s : IceTransport) (id : Bytes) : IceTransport :=
  let (s, c, pingInterval) := s.selectConnectionToPing env (s.lastPingSentMs - pingIntervalDiff) now
  let s := match c with
    | some c => s.pingConnection env c now id
    | none => s
  { s with curPingInterval := pingInterval }

def onCheckAndPing (id : Bytes) : Recorded :=
  (x.transport.connections.foldl (fun x c => x.updateConnection env c now) x).change fun s =>
    pingNext env now s id

def setRemoteIceParams (params : IceParameters) : Recorded :=
  (x.change fun s => s.connections.foldl (fun s c =>
    s.modifyConn c fun k => { k with remote := maybeSetRemoteIceParams k.remote params })
      { s with remoteIceParams := params }).sort env now

def step (x : Recorded) (e : Event) : Recorded :=
  match e with
  | .packet port addr data now => x.onReadPacket env now port addr data
  | .timer now id => if x.transport.startPinging then x.onCheckAndPing env now id else x
  | .setRemoteIceParams params now => x.setRemoteIceParams env now params
  | .destroyConnection c now => if x.transport.memory.Alive c then x.destroy env c now else x

end Methods

section Projection
variable (env : Environment) (x : Recorded) (c : ℕ) (now : ℤ)

@[simp] theorem transport_change (f : IceTransport → IceTransport) :
    (x.change f).transport = f x.transport := rfl

@[simp] theorem transport_sort :
    (x.sort env now).transport = x.transport.sortConnectionsAndUpdateState env now := rfl

@[simp] theorem transport_setWriteState (state : WriteState) :
    (x.setWriteState env c now state).transport = x.transport.setWriteState env c state now := by
  unfold setWriteState IceTransport.setWriteState
  dsimp only
  split <;> rfl

@[simp] theorem transport_updateReceiving :
    (x.updateReceiving env c now).transport = x.transport.updateReceiving env c now := by
  unfold updateReceiving IceTransport.updateReceiving
  dsimp only
  split <;> rfl

theorem transport_ite (b : Bool) (y : Recorded) :
    (if b then y else x).transport = if b then y.transport else x.transport := by
  cases b <;> rfl

@[simp] theorem transport_updateConnection :
    (x.updateConnection env c now).transport = x.transport.updateConnection env c now := by
  simp only [updateConnection, IceTransport.updateConnection, transport_updateReceiving,
    transport_ite, transport_setWriteState]

@[simp] theorem transport_receivedPingResponse (rtt : ℤ) :
    (x.receivedPingResponse env c now rtt).transport =
      x.transport.receivedPingResponse env c rtt now := by
  simp only [receivedPingResponse, IceTransport.receivedPingResponse, transport_change,
    transport_setWriteState, transport_updateReceiving]

@[simp] theorem transport_onConnectionDestroyed :
    (x.onConnectionDestroyed env c now).transport = x.transport.onConnectionDestroyed env c now := by
  unfold onConnectionDestroyed IceTransport.onConnectionDestroyed
  dsimp only [change]
  split <;> rfl

@[simp] theorem transport_destroy :
    (x.destroy env c now).transport = x.transport.destroy env c now := by
  simp only [destroy, IceTransport.destroy, transport_change, transport_onConnectionDestroyed]

@[simp] theorem transport_checkResponse (msg : StunMessage) :
    (x.checkResponse env c now msg).transport = x.transport.checkResponse env c msg now := by
  unfold checkResponse IceTransport.checkResponse
  dsimp only
  cases ((x.transport.conn c).requests.checkResponse msg).2 <;> simp

@[simp] theorem transport_onUnknownAddress (port : ℕ) (addr : SocketAddress) (msg : StunMessage)
    (remoteUfrag : Bytes) :
    (x.onUnknownAddress env now port addr msg remoteUfrag).transport =
      x.transport.onUnknownAddress env port addr msg remoteUfrag now := by
  unfold onUnknownAddress IceTransport.onUnknownAddress
  cases msg.getUInt32 stunAttrPriority <;> rfl

theorem transport_foldl (f : Recorded → ℕ → Recorded) (g : IceTransport → ℕ → IceTransport)
    (h : ∀ x c, (f x c).transport = g x.transport c) (cs : List ℕ) :
    (cs.foldl f x).transport = cs.foldl g x.transport := by
  induction cs generalizing x with
  | nil => rfl
  | cons c cs ih => rw [List.foldl_cons, List.foldl_cons, ih, h]

/-- The transport of a recorded step is that of the step. -/
theorem transport_step (e : Event) : (x.step env e).transport = x.transport.step env e := by
  cases e with
  | packet port addr data now =>
    show (x.onReadPacket env now port addr data).transport = x.transport.onReadPacket env port addr data now
    unfold onReadPacket IceTransport.onReadPacket
    cases x.transport.addresses.lookup (port, addr) with
    | some c =>
      dsimp only
      split
      · cases Stun.onReadPacket env.hmac env.beyond env.iceParams (x.transport.conn c).remote data <;>
          simp
      · rfl
    | none =>
      dsimp only
      cases getStunMessage env.hmac env.beyond env.iceParams data with
      | message msg remoteUfrag =>
        dsimp only
        split
        · rw [transport_onUnknownAddress]
        · rfl
      | _ => rfl
  | timer now id =>
    show (if x.transport.startPinging then x.onCheckAndPing env now id else x).transport =
      if x.transport.startPinging then x.transport.onCheckAndPing env now id else x.transport
    split
    · unfold onCheckAndPing IceTransport.onCheckAndPing
      rw [transport_change, transport_foldl x _ (fun s c => s.updateConnection env c now)
        fun x c => transport_updateConnection env x c now]
      rfl
    · rfl
  | setRemoteIceParams params now => rfl
  | destroyConnection c now =>
    show (if x.transport.memory.Alive c then x.destroy env c now else x).transport =
      if x.transport.memory.Alive c then x.transport.destroy env c now else x.transport
    split
    · rw [transport_destroy]
    · rfl

theorem transport_run (es : List Event) :
    (Runs.run (step env) x es).transport = Runs.run (IceTransport.step env) x.transport es := by
  induction es generalizing x with
  | nil => rfl
  | cons e es ih => rw [Runs.run_cons, Runs.run_cons, ih, transport_step]

end Projection
end Recorded

namespace IceTransport

/-- What the methods leave as it is in between the calls, where no connection is added or
destroyed. -/
structure Beside (s t : IceTransport) : Prop where
  size : t.memory.size = s.memory.size
  freed : t.memory.freed = s.memory.freed
  connections : t.connections = s.connections
  controllerSelected : t.controllerSelected = s.controllerSelected
  selected : t.selected = s.selected
  writable : t.writable = s.writable
  state : t.state = s.state
  hadConnection : t.hadConnection = s.hadConnection
  hasBeenConnection : t.hasBeenConnection = s.hasBeenConnection
  stateSignals : t.stateSignals = s.stateSignals

/-- The write states of the connections stay too. -/
structure Quiet (s t : IceTransport) : Prop extends Beside s t where
  writeState : ∀ c, (t.conn c).writeState = (s.conn c).writeState

namespace Quiet

/-- The books of the pinging are no part of it. -/
theorem books (s : IceTransport) (unpinged pinged : List ℕ) (remoteIceParams : IceParameters)
    (startPinging : Bool) (curPingInterval lastPingSentMs : ℤ) :
    Quiet s { s with
      unpinged, pinged, remoteIceParams, startPinging, curPingInterval, lastPingSentMs } :=
  ⟨⟨rfl, rfl, rfl, rfl, rfl, rfl, rfl, rfl, rfl, rfl⟩, fun _ => rfl⟩

theorem refl (s : IceTransport) : Quiet s s := books s _ _ _ _ _ _

theorem trans {s t u : IceTransport} (h : Quiet s t) (h' : Quiet t u) : Quiet s u where
  size := h'.size.trans h.size
  freed := h'.freed.trans h.freed
  connections := h'.connections.trans h.connections
  controllerSelected := h'.controllerSelected.trans h.controllerSelected
  selected := h'.selected.trans h.selected
  writable := h'.writable.trans h.writable
  state := h'.state.trans h.state
  hadConnection := h'.hadConnection.trans h.hadConnection
  hasBeenConnection := h'.hasBeenConnection.trans h.hasBeenConnection
  stateSignals := h'.stateSignals.trans h.stateSignals
  writeState c := (h'.writeState c).trans (h.writeState c)

end Quiet

section Writes
variable (env : Environment) (s : IceTransport) (c : ℕ) (now : ℤ)

theorem beside_modifyConn (f : IceConnection → IceConnection) : Beside s (s.modifyConn c f) :=
  ⟨Heap.size_modify _ _ _, rfl, rfl, rfl, rfl, rfl, rfl, rfl, rfl, rfl⟩

theorem quiet_modifyConn {f : IceConnection → IceConnection}
    (hf : (f (s.conn c)).writeState = (s.conn c).writeState) : Quiet s (s.modifyConn c f) := by
  refine ⟨beside_modifyConn s c f, fun c' => ?_⟩
  rw [conn_modifyConn]
  split
  · rename_i h
    rw [← h.1, hf]
  · rfl

theorem quiet_pingConnection (id : Bytes) : Quiet s (s.pingConnection env c now id) := by
  have htime : Quiet s { s with lastPingSentMs := now } := Quiet.books s _ _ _ _ _ _
  have hping := htime.trans (quiet_modifyConn _ c (f := fun k => k.ping now id) rfl)
  unfold pingConnection markConnectionPinged
  dsimp only
  split
  · exact hping
  · exact hping.trans (Quiet.books _ _ _ _ _ _ _)

theorem quiet_selectConnectionToPing (last : ℤ) :
    Quiet s (s.selectConnectionToPing env last now).1 := by
  have hrefill : Quiet s (s.refillUnpinged env now) := by
    unfold refillUnpinged
    split
    · exact Quiet.refl s
    · exact Quiet.books s _ _ _ _ _ _
  have hfind : Quiet s (s.findNextPingableConnection env now).1 := by
    unfold findNextPingableConnection
    split
    · exact hrefill
    · split
      · exact Quiet.refl s
      · exact hrefill
  have hdue : ∀ interval : ℤ, Quiet s (if now ≥ last + interval
      then ((s.findNextPingableConnection env now).1, (s.findNextPingableConnection env now).2, interval)
      else (s, none, interval)).1 := by
    intro interval
    split
    · exact hfind
    · exact Quiet.refl s
  exact hdue _

theorem quiet_pingNext (id : Bytes) : Quiet s (Recorded.pingNext env now s id) := by
  have hselect := quiet_selectConnectionToPing env s now (s.lastPingSentMs - pingIntervalDiff)
  have hinterval : ∀ (t : IceTransport) (interval : ℤ), Quiet t { t with curPingInterval := interval } :=
    fun t interval => Quiet.books t _ _ _ _ _ _
  unfold Recorded.pingNext
  generalize s.selectConnectionToPing env (s.lastPingSentMs - pingIntervalDiff) now = r at hselect ⊢
  obtain ⟨t, c, interval⟩ := r
  dsimp only
  cases c with
  | none => exact hselect.trans (hinterval t interval)
  | some c => exact (hselect.trans (quiet_pingConnection env t c now id)).trans (hinterval _ interval)

theorem quiet_setRemoteIceParams (params : IceParameters) (cs : List ℕ) :
    Quiet s (cs.foldl (fun s c =>
      s.modifyConn c fun k => { k with remote := maybeSetRemoteIceParams k.remote params }) s) := by
  induction cs generalizing s with
  | nil => exact Quiet.refl s
  | cons c cs ih => exact (quiet_modifyConn s c rfl).trans (ih _)

end Writes
end IceTransport

namespace Recorded
open IceTransport

/-- A rule for invariants. `I` holds between the events, and `J` is the part of it that also
holds where the write state of a connection, or a new connection, still waits for the call of
`_sort_connections_and_update_state`. -/
structure Rule (env : Environment) (I J : Recorded → Prop) : Prop where
  weaken : ∀ x, I x → J x
  sort : ∀ x now, J x → I (x.sort env now)
  beside : ∀ x t, Beside x.transport t → J x → J { x with transport := t }
  quiet : ∀ x t, Quiet x.transport t → I x → I { x with transport := t }
  add : ∀ x port addr remoteUfrag remotePriority, I x →
    J (x.change fun s => s.addConnection env port addr remoteUfrag remotePriority)
  destroy : ∀ x c now, I x → I (x.destroy env c now)

namespace Rule
variable {env : Environment} {I J : Recorded → Prop} {x : Recorded} {c : ℕ} {now : ℤ}
variable (h : Rule env I J)
include h

theorem setWriteState (hx : I x) (state : WriteState) : I (x.setWriteState env c now state) := by
  unfold Recorded.setWriteState
  dsimp only
  split
  · exact h.sort _ now (h.beside x _ (beside_modifyConn _ c _) (h.weaken x hx))
  · rename_i hsame
    exact h.quiet x _ (quiet_modifyConn _ c (not_not.mp hsame).symm) hx

theorem updateReceiving (hx : I x) : I (x.updateReceiving env c now) := by
  unfold Recorded.updateReceiving
  dsimp only
  split
  · exact hx
  · exact h.sort _ now (h.beside x _ (beside_modifyConn _ c _) (h.weaken x hx))

theorem updateConnection (hx : I x) : I (x.updateConnection env c now) := by
  have hif : ∀ y : Recorded, I y → ∀ (b : Bool) (state : WriteState),
      I (if b then y.setWriteState env c now state else y) := by
    intro y hy b state
    cases b with
    | false => exact hy
    | true => exact h.setWriteState hy state
  exact h.updateReceiving (hif _ (hif _ hx _ _) _ _)

theorem receivedPingResponse (hx : I x) (rtt : ℤ) : I (x.receivedPingResponse env c now rtt) := by
  have hrecord : I (x.change fun s => s.modifyConn c fun k => k.recordPingResponse rtt now) :=
    h.quiet x _ (quiet_modifyConn _ c rfl) hx
  have hreceiving : I (Recorded.updateReceiving env _ c now) := h.updateReceiving hrecord
  have hwrite : I (Recorded.setWriteState env _ c now .writable) := h.setWriteState hreceiving .writable
  exact h.quiet _ _ (quiet_modifyConn _ c rfl) hwrite

theorem checkResponse (hx : I x) (msg : StunMessage) : I (x.checkResponse env c now msg) := by
  have hrequests : ∀ y : Recorded, I y → ∀ requests, I (y.change fun s => s.setRequests c requests) :=
    fun y hy requests => h.quiet y _ (quiet_modifyConn _ c rfl) hy
  unfold Recorded.checkResponse
  dsimp only
  split
  · exact hrequests _ (h.receivedPingResponse hx _) _
  · exact hrequests _ (h.destroy _ c now (h.quiet x _ (quiet_modifyConn _ c rfl) hx)) _
  · exact hrequests _ hx _

theorem onReadPacket (hx : I x) (port : ℕ) (addr : SocketAddress) (data : Bytes) :
    I (x.onReadPacket env now port addr data) := by
  unfold Recorded.onReadPacket
  split
  · split
    · split
      · exact h.checkResponse hx _
      · exact hx
    · exact hx
  · split
    · split
      · unfold Recorded.onUnknownAddress
        split
        · exact hx
        · exact h.sort _ now (h.add x port addr _ _ hx)
      · exact hx
    · exact hx

theorem step (hx : I x) (e : Event) : I (x.step env e) := by
  cases e with
  | packet port addr data now => exact h.onReadPacket hx port addr data
  | timer now id =>
    have hupdate : ∀ (cs : List ℕ) (y : Recorded), I y →
        I (cs.foldl (fun y c => y.updateConnection env c now) y) := by
      intro cs
      induction cs with
      | nil => exact fun y hy => hy
      | cons c cs ih => exact fun y hy => ih _ (h.updateConnection hy)
    unfold Recorded.step
    dsimp only
    split
    · exact h.quiet _ _ (quiet_pingNext env _ now id) (hupdate _ x hx)
    · exact hx
  | setRemoteIceParams params now =>
    have hset : Quiet x.transport { x.transport with remoteIceParams := params } :=
      Quiet.books _ _ _ _ _ _ _
    exact h.sort _ now (h.weaken _ (h.quiet x _
      (hset.trans (quiet_setRemoteIceParams _ params x.transport.connections)) hx))
  | destroyConnection c now =>
    unfold Recorded.step
    dsimp only
    split
    · exact h.destroy x c now hx
    · exact hx

theorem run (hx : I x) (es : List Event) : I (Runs.run (Recorded.step env) x es) := by
  induction es generalizing x with
  | nil => exact hx
  | cons e es ih => exact ih (h.step hx e)

end Rule
end Recorded
end Ice
end XrtcServer
