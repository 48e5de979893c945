import XrtcServer.IceSorting

/-! What one event does to the times of the connections, to the receiving flags and to the
books of the pinging. -/
namespace XrtcServer
namespace Ice
open ByteFormat ObjectHeap Stun

/-- Nothing was sent or received between the two. -/
structure IceConnection.SameTimes (k k' : IceConnection) : Prop where
  lastPingSent : k'.lastPingSent = k.lastPingSent
  lastPingReceived : k'.lastPingReceived = k.lastPingReceived
  lastPingResponseReceived : k'.lastPingResponseReceived = k.lastPingResponseReceived
  lastDataReceived : k'.lastDataReceived = k.lastDataReceived

namespace IceConnection.SameTimes

theorem refl (k : IceConnection) : SameTimes k k := ⟨rfl, rfl, rfl, rfl⟩

theorem trans {k k' k'' : IceConnection} (h : SameTimes k k') (h' : SameTimes k' k'') :
    SameTimes k k'' where
  lastPingSent := h'.lastPingSent.trans h.lastPingSent
  lastPingReceived := h'.lastPingReceived.trans h.lastPingReceived
  lastPingResponseReceived := h'.lastPingResponseReceived.trans h.lastPingResponseReceived
  lastDataReceived := h'.lastDataReceived.trans h.lastDataReceived

end IceConnection.SameTimes

namespace IceTransport

/-- The receiving flag of the channel is that of its connections. -/
def ReceivingAgrees (s : IceTransport) : Prop :=
  s.receiving = s.connections.any fun c => (s.conn c).receiving

/-- No connection is added, destroyed, pinged or answered. -/
structure Keeps (s t : IceTransport) : Prop where
  size : t.memory.size = s.memory.size
  perm : t.connections.Perm s.connections
  unpinged : t.unpinged = s.unpinged
  pinged : t.pinged = s.pinged
  lastPingSentMs : t.lastPingSentMs = s.lastPingSentMs
  times : ∀ c, (s.conn c).SameTimes (t.conn c)
  selection : t.controllerSelected = s.controllerSelected ∧ t.selected = s.selected ∨
    ∃ c ∈ s.connections, t.controllerSelected = some c ∧ t.selected = some c

/-- The receiving flags agree afterwards, too. -/
structure Settles (s t : IceTransport) : Prop extends Keeps s t where
  receiving : s.ReceivingAgrees → t.ReceivingAgrees

theorem Keeps.refl (s : IceTransport) : Keeps s s :=
  ⟨rfl, .refl _, rfl, rfl, rfl, fun _ => .refl _, Or.inl ⟨rfl, rfl⟩⟩

theorem Keeps.trans {s t u : IceTransport} (h : Keeps s t) (h' : Keeps t u) : Keeps s u where
  size := h'.size.trans h.size
  perm := h'.perm.trans h.perm
  unpinged := h'.unpinged.trans h.unpinged
  pinged := h'.pinged.trans h.pinged
  lastPingSentMs := h'.lastPingSentMs.trans h.lastPingSentMs
  times c := (h.times c).trans (h'.times c)
  selection := by
    rcases h'.selection with ⟨hcontroller, hselected⟩ | ⟨c, hc, hboth⟩
    · rw [hcontroller, hselected]
      exact h.selection
    · exact Or.inr ⟨c, h.perm.mem_iff.mp hc, hboth⟩

theorem Settles.refl (s : IceTransport) : Settles s s := ⟨Keeps.refl s, id⟩

theorem Settles.trans {s t u : IceTransport} (h : Settles s t) (h' : Settles t u) : Settles s u :=
  ⟨h.toKeeps.trans h'.toKeeps, h'.receiving ∘ h.receiving⟩

section Methods
variable (env : Environment) (s : IceTransport) (c : ℕ) (now : ℤ)

theorem keeps_modifyConn {f : IceConnection → IceConnection} (hf : ∀ k, IceConnection.SameTimes k (f k)) :
    Keeps s (s.modifyConn c f) := by
  refine ⟨Heap.size_modify _ _ _, .refl _, rfl, rfl, rfl, fun c' => ?_, Or.inl ⟨rfl, rfl⟩⟩
  rw [conn_modifyConn]
  split
  · exact hf _
  · exact .refl _

theorem receiving_modifyConn {f : IceConnection → IceConnection} (hf : ∀ k, (f k).receiving = k.receiving)
    (c' : ℕ) : ((s.modifyConn c f).conn c').receiving = (s.conn c').receiving := by
  rw [conn_modifyConn]
  split
  · exact hf _
  · rfl

theorem settles_modifyConn {f : IceConnection → IceConnection}
    (hf : ∀ k, IceConnection.SameTimes k (f k)) (hreceiving : ∀ k, (f k).receiving = k.receiving) :
    Settles s (s.modifyConn c f) := by
  refine ⟨keeps_modifyConn s c hf, fun h => ?_⟩
  unfold ReceivingAgrees at h ⊢
  simp only [receiving_modifyConn s c hreceiving]
  exact h

theorem keeps_sort : Keeps s (s.sortConnectionsAndUpdateState env now) ∧
    (s.sortConnectionsAndUpdateState env now).ReceivingAgrees := by
  have h := resorts env s now
  refine ⟨⟨h.size, h.perm, h.unpinged, h.pinged, h.lastPingSentMs, fun c => ?_, ?_⟩, h.receiving⟩
  · have ⟨_, hconn⟩ := h.conn c
    rw [hconn]
    exact ⟨rfl, rfl, rfl, rfl⟩
  · cases hswitch : (s.sortConnections env).connectionToSwitchTo with
    | none => exact Or.inl (h.stays hswitch)
    | some n =>
      have hmem := List.mem_mergeSort.mp (mem_of_connectionToSwitchTo hswitch)
      exact Or.inr ⟨n, hmem, h.switches n hswitch⟩

theorem settles_sort : Settles s (s.sortConnectionsAndUpdateState env now) :=
  ⟨(keeps_sort env s now).1, fun _ => (keeps_sort env s now).2⟩

/-- The change that a sort follows may be to the receiving flags themselves. -/
theorem Keeps.sort {s u : IceTransport} (h : Keeps s u) :
    Settles s (u.sortConnectionsAndUpdateState env now) :=
  ⟨h.trans (keeps_sort env u now).1, fun _ => (keeps_sort env u now).2⟩

theorem settles_setWriteState (state : WriteState) : Settles s (s.setWriteState env c state now) := by
  have hset : Settles s (s.modifyConn c fun k => { k with writeState := state }) :=
    settles_modifyConn s c (fun _ => ⟨rfl, rfl, rfl, rfl⟩) fun _ => rfl
  unfold setWriteState
  dsimp only
  split
  · exact hset.trans (settles_sort env _ now)
  · exact hset

theorem settles_updateReceiving : Settles s (s.updateReceiving env c now) := by
  unfold updateReceiving
  dsimp only
  split
  · exact Settles.refl s
  · have hset : Keeps s (s.modifyConn c fun k => { k with receiving := (s.conn c).receivingAt now }) :=
      keeps_modifyConn s c fun _ => ⟨rfl, rfl, rfl, rfl⟩
    exact hset.sort env now

theorem settles_updateConnection : Settles s (s.updateConnection env c now) := by
  have hif : ∀ (t : IceTransport) (b : Bool) (state : WriteState),
      Settles t (if b then t.setWriteState env c state now else t) := by
    intro t b state
    cases b with
    | false => exact Settles.refl t
    | true => exact settles_setWriteState env t c now state
  exact (hif s _ _).trans ((hif _ _ _).trans (settles_updateReceiving env _ c now))

theorem Settles.foldl {f : IceTransport → ℕ → IceTransport} (hf : ∀ s c, Settles s (f s c))
    (cs : List ℕ) (s : IceTransport) : Settles s (cs.foldl f s) := by
  induction cs generalizing s with
  | nil => exact Settles.refl s
  | cons c cs ih => exact (hf s c).trans (ih (f s c))

/-- `_update_connection_states`, which the timer callback begins with. -/
def updateConnectionStates : IceTransport :=
  s.connections.foldl (fun s c => s.updateConnection env c now) s

theorem settles_updateConnectionStates : Settles s (s.updateConnectionStates env now) :=
  Settles.foldl (fun s c => settles_updateConnection env s c now) _ s

theorem settles_setRequests (requests : StunRequestManager) : Settles s (s.setRequests c requests) :=
  settles_modifyConn s c (fun _ => ⟨rfl, rfl, rfl, rfl⟩) fun _ => rfl

/-- After the response is recorded. -/
theorem settles_receivedPingResponse (rtt : ℤ) :
    Settles (s.modifyConn c fun k => k.recordPingResponse rtt now) (s.receivedPingResponse env c rtt now) :=
  (settles_updateReceiving env _ c now).trans <| (settles_setWriteState env _ c now _).trans <|
    settles_modifyConn _ c (f := fun k => { k with state := .succeeded })
      (fun _ => ⟨rfl, rfl, rfl, rfl⟩) fun _ => rfl

theorem settles_setRemoteIceParams (params : IceParameters) :
    Settles s (s.setRemoteIceParams env params now) := by
  have hset : Settles s { s with remoteIceParams := params } :=
    ⟨⟨rfl, .refl _, rfl, rfl, rfl, fun _ => .refl _, Or.inl ⟨rfl, rfl⟩⟩, id⟩
  have hconn : ∀ (t : IceTransport) (c : ℕ), Settles t (t.modifyConn c fun k =>
      { k with remote := maybeSetRemoteIceParams k.remote params }) :=
    fun t c => settles_modifyConn t c (fun _ => ⟨rfl, rfl, rfl, rfl⟩) fun _ => rfl
  exact hset.trans ((Settles.foldl hconn _ _).trans (settles_sort env _ now))

end Methods

/-- The connection that is added has no times yet. -/
theorem sameTimes_addConnection (env : Environment) (s : IceTransport) (port : ℕ) (addr : SocketAddress)
    (remoteUfrag : Bytes) (remotePriority c : ℕ) :
    (s.conn c).SameTimes ((s.addConnection env port addr remoteUfrag remotePriority).conn c) := by
  unfold addConnection
  by_cases hc : c = s.memory.size
  · rw [conn_of_size_le s hc.ge, conn]
    dsimp only
    rw [Heap.get?_alloc, if_pos hc]
    exact ⟨rfl, rfl, rfl, rfl⟩
  · rw [conn, conn]
    dsimp only
    rw [Heap.get?_alloc, if_neg hc]
    exact .refl _

/-- With the connection forgotten, there is another one to switch to. -/
def Replaced (env : Environment) (s : IceTransport) (c : ℕ) : Prop :=
  ((s.forgetConnection c).sortConnections env).connectionToSwitchTo ≠ none

/-- A connection is destroyed. -/
structure Forgets (env : Environment) (s : IceTransport) (c : ℕ) (t : IceTransport) : Prop where
  size : t.memory.size = s.memory.size
  perm : t.connections.Perm (s.connections.erase c)
  unpinged : t.unpinged = s.unpinged.erase c
  pinged : t.pinged = s.pinged.erase c
  lastPingSentMs : t.lastPingSentMs = s.lastPingSentMs
  times : ∀ c', (s.conn c').SameTimes (t.conn c')
  receiving : t.ReceivingAgrees
  kept : s.selected ≠ some c → t.controllerSelected = s.controllerSelected ∧ t.selected = s.selected
  replaced : s.selected = some c → s.Replaced env c →
    ∃ n ∈ s.connections.erase c, t.controllerSelected = some n ∧ t.selected = some n

section Destroy
variable {env : Environment} {s t : IceTransport}

/-- The flags of the selection and the states of the pairs are nothing that the sort looks at. -/
theorem connectionToSwitchTo_congr (hconn : ∀ c, ∃ selected state, t.conn c = { s.conn c with selected, state })
    (hconnections : t.connections = s.connections)
    (hselected : t.controllerSelected = s.controllerSelected) :
    (t.sortConnections env).connectionToSwitchTo = (s.sortConnections env).connectionToSwitchTo := by
  have hbefore : t.sortsBefore env = s.sortsBefore env := by
    funext a b
    have ⟨_, _, ha⟩ := hconn a
    have ⟨_, _, hb⟩ := hconn b
    unfold sortsBefore compareConnections
    rw [ha, hb]
    rfl
  have hrtt : ∀ c, ((t.sortConnections env).conn c).rtt = ((s.sortConnections env).conn c).rtt := by
    intro c
    have ⟨_, _, hc⟩ := hconn c
    show (t.conn c).rtt = (s.conn c).rtt
    rw [hc]
  have hready : ∀ c, (t.sortConnections env).readyToSend c = (s.sortConnections env).readyToSend c := by
    intro c
    cases c with
    | none => rfl
    | some c =>
      have ⟨_, _, hc⟩ := hconn c
      show ((t.conn c).writable || decide ((t.conn c).writeState = .writeUnreliable)) =
        ((s.conn c).writable || decide ((s.conn c).writeState = .writeUnreliable))
      rw [hc]
      rfl
  have hsorted : (t.sortConnections env).connections = (s.sortConnections env).connections := by
    show t.connections.mergeSort _ = s.connections.mergeSort _
    rw [hconnections, hbefore]
  have hcontroller : (t.sortConnections env).controllerSelected = (s.sortConnections env).controllerSelected :=
    hselected
  unfold connectionToSwitchTo
  simp only [hsorted, hcontroller, hready, hrtt]

/-- The transport in between, when the selected connection is destroyed: it is forgotten, and
the channel has none selected. -/
theorem switch_none {c : ℕ} (h : s.selected = some c) :
    (s.forgetConnection c).switchSelectedConnection none =
      { (s.forgetConnection c).modifyConn c (fun k => { k with selected := false }) with
        selected := none } := by
  have hselected : (s.forgetConnection c).selected = some c := h
  unfold switchSelectedConnection
  dsimp only
  rw [hselected]
  rfl

theorem forgets_onConnectionDestroyed (env : Environment) (s : IceTransport) (c : ℕ) (now : ℤ) :
    Forgets env s c (s.onConnectionDestroyed env c now) := by
  by_cases hselected : s.selected = some c
  · have hdestroyed : s.onConnectionDestroyed env c now =
        ((s.forgetConnection c).switchSelectedConnection none).sortConnectionsAndUpdateState env now :=
      if_pos hselected
    rw [hdestroyed, switch_none hselected]
    generalize hu : ({ (s.forgetConnection c).modifyConn c (fun k => { k with selected := false }) with
      selected := none } : IceTransport) = u
    have ⟨hsize, hconnections, hunpinged, hpinged, hlast⟩ :
        u.memory.size = s.memory.size ∧ u.connections = s.connections.erase c ∧
          u.unpinged = s.unpinged.erase c ∧ u.pinged = s.pinged.erase c ∧
            u.lastPingSentMs = s.lastPingSentMs := by
      rw [← hu]
      exact ⟨Heap.size_modify _ _ _, rfl, rfl, rfl, rfl⟩
    have hconn : ∀ c', ∃ selected state, u.conn c' = { s.conn c' with selected, state } := by
      intro c'
      have ⟨selected, h⟩ := exists_selected_modifyConn (s.forgetConnection c) c c' false
      rw [← hu]
      exact ⟨selected, (s.conn c').state, h⟩
    have hsame : (u.sortConnections env).connectionToSwitchTo =
        ((s.forgetConnection c).sortConnections env).connectionToSwitchTo :=
      connectionToSwitchTo_congr hconn (by rw [← hu]; rfl) (by rw [← hu]; rfl)
    have h := resorts env u now
    refine ⟨h.size.trans hsize, hconnections ▸ h.perm, h.unpinged.trans hunpinged,
      h.pinged.trans hpinged, h.lastPingSentMs.trans hlast, fun c' => ?_, h.receiving,
      fun hother => absurd hselected hother, fun _ hreplaced => ?_⟩
    · have ⟨_, _, hc'⟩ := hconn c'
      have hold : (s.conn c').SameTimes (u.conn c') := by
        rw [hc']
        exact ⟨rfl, rfl, rfl, rfl⟩
      exact hold.trans ((keeps_sort env u now).1.times c')
    · cases hn : (u.sortConnections env).connectionToSwitchTo with
      | none => exact absurd (hsame.symm.trans hn) hreplaced
      | some n =>
        have hmem : n ∈ u.connections := List.mem_mergeSort.mp (mem_of_connectionToSwitchTo hn)
        exact ⟨n, hconnections ▸ hmem, h.switches n hn⟩
  · have hdestroyed : s.onConnectionDestroyed env c now = (s.forgetConnection c).updateState :=
      if_neg hselected
    rw [hdestroyed, updateState_eq]
    exact ⟨rfl, .refl _, rfl, rfl, rfl, fun _ => .refl _, rfl, fun _ => ⟨rfl, rfl⟩,
      fun hother => absurd hother hselected⟩

theorem Forgets.settles {c : ℕ} {u : IceTransport} (h : Forgets env s c u) (hu : Settles u t)
    (hconnections : t.connections = u.connections)
    (hselection : t.controllerSelected = u.controllerSelected ∧ t.selected = u.selected) :
    Forgets env s c t where
  size := hu.size.trans h.size
  perm := hconnections ▸ h.perm
  unpinged := hu.unpinged.trans h.unpinged
  pinged := hu.pinged.trans h.pinged
  lastPingSentMs := hu.lastPingSentMs.trans h.lastPingSentMs
  times c' := (h.times c').trans (hu.times c')
  receiving := hu.receiving h.receiving
  kept hother := by
    rw [hselection.1, hselection.2]
    exact h.kept hother
  replaced hselected hreplaced := by
    rw [hselection.1, hselection.2]
    exact h.replaced hselected hreplaced

theorem forgets_destroy (env : Environment) (s : IceTransport) (c : ℕ) (now : ℤ) :
    Forgets env s c (s.destroy env c now) := by
  have hdestroyed := forgets_onConnectionDestroyed env s c now
  unfold destroy
  generalize s.onConnectionDestroyed env c now = u at hdestroyed ⊢
  have hrequests := hdestroyed.settles (settles_setRequests u c (u.conn c).requests.destroy) rfl ⟨rfl, rfl⟩
  have hfree : ∀ v : IceTransport, Settles v { v with memory := v.memory.free c } :=
    fun v => ⟨⟨rfl, .refl _, rfl, rfl, rfl, fun _ => .refl _, Or.inl ⟨rfl, rfl⟩⟩, id⟩
  exact hrequests.settles (hfree _) rfl ⟨rfl, rfl⟩

/-- Another state of the pair is nothing that a destruction depends on. -/
theorem Forgets.of_failed {c : ℕ} {state : IceCandidatePairState}
    (h : Forgets env (s.modifyConn c fun k => { k with state }) c t) : Forgets env s c t := by
  have hset : Settles s (s.modifyConn c fun k => { k with state }) :=
    settles_modifyConn s c (fun _ => ⟨rfl, rfl, rfl, rfl⟩) fun _ => rfl
  have hconn : ∀ c', ∃ selected state',
      (s.modifyConn c fun k => { k with state }).conn c' = { s.conn c' with selected, state := state' } := by
    intro c'
    rw [conn_modifyConn]
    split
    · exact ⟨_, state, rfl⟩
    · exact ⟨_, _, rfl⟩
  refine ⟨h.size.trans hset.size, h.perm, h.unpinged, h.pinged, h.lastPingSentMs,
    fun c' => (hset.times c').trans (h.times c'), h.receiving, h.kept, fun hselected hreplaced => ?_⟩
  have hsame : (((s.modifyConn c fun k => { k with state }).forgetConnection c).sortConnections
      env).connectionToSwitchTo = ((s.forgetConnection c).sortConnections env).connectionToSwitchTo :=
    connectionToSwitchTo_congr hconn rfl rfl
  exact h.replaced hselected fun hnone => hreplaced (hsame.symm.trans hnone)

end Destroy

section Pinging
variable (env : Environment) (s : IceTransport) (now : ℤ)

/-- How the controller selects the connection to ping: it leaves the connection out for now,
it takes the selected one, or it takes the best of the unpinged ones. -/
inductive Selects : IceTransport → Option ℕ → Prop
  | waits : Selects s none
  | none (hbest : (s.refillUnpinged env now).bestUnpinged now = none) :
    Selects (s.refillUnpinged env now) none
  | selected {c : ℕ} (hdue : now ≥ s.lastPingSentMs - pingIntervalDiff + weakPingInterval)
    (hc : s.controllerSelected = some c) (hpast : s.isConnectionPastPingInterval c now = true)
    (hwritable : (s.conn c).writable = true) : Selects s (some c)
  | fallback {c : ℕ} (hdue : now ≥ s.lastPingSentMs - pingIntervalDiff + weakPingInterval)
    (hbest : (s.refillUnpinged env now).bestUnpinged now = some c) :
    Selects (s.refillUnpinged env now) (some c)

theorem selects : Selects env s now
    (s.selectConnectionToPing env (s.lastPingSentMs - pingIntervalDiff) now).1
    (s.selectConnectionToPing env (s.lastPingSentMs - pingIntervalDiff) now).2.1 := by
  have hinterval : ∀ b : Bool, weakPingInterval ≤ if b then weakPingInterval else strongPingInterval := by
    decide
  have hrefill : now ≥ s.lastPingSentMs - pingIntervalDiff + weakPingInterval →
      Selects env s now (s.refillUnpinged env now) ((s.refillUnpinged env now).bestUnpinged now) := by
    intro hdue
    cases hbest : (s.refillUnpinged env now).bestUnpinged now with
    | none => exact .none hbest
    | some c => exact .fallback hdue hbest
  unfold selectConnectionToPing
  dsimp only
  have hmin := hinterval (s.weak || s.connections.any fun c =>
    decide ((s.conn c).numPingsSent < minPingsAtWeakPingInterval))
  generalize (if s.weak || s.connections.any fun c =>
    decide ((s.conn c).numPingsSent < minPingsAtWeakPingInterval)
      then weakPingInterval else strongPingInterval) = interval at hmin ⊢
  by_cases htime : now ≥ s.lastPingSentMs - pingIntervalDiff + interval
  · have hdue : now ≥ s.lastPingSentMs - pingIntervalDiff + weakPingInterval :=
      (Int.add_le_add_left hmin _).trans htime
    rw [if_pos htime]
    unfold findNextPingableConnection
    cases hselected : s.controllerSelected with
    | none => exact hrefill hdue
    | some c =>
      dsimp only
      split
      · rename_i htests
        rw [Bool.and_eq_true] at htests
        exact .selected hdue hselected htests.2 htests.1
      · exact hrefill hdue
  · rw [if_neg htime]
    exact .waits

/-- Beside the books, the end of the timer callback changes the connection that it pings. -/
structure Attends (s : IceTransport) (now : ℤ) (t : IceTransport) : Prop where
  size : t.memory.size = s.memory.size
  connections : t.connections = s.connections
  controllerSelected : t.controllerSelected = s.controllerSelected
  selected : t.selected = s.selected
  receiving : t.receiving = s.receiving
  conn : ∀ c, t.conn c = s.conn c ∨ ∃ id, t.conn c = (s.conn c).ping now id

theorem Attends.lastPingResponseReceived {s t : IceTransport} {now : ℤ} (h : Attends s now t) (c : ℕ) :
    (t.conn c).lastPingResponseReceived = (s.conn c).lastPingResponseReceived := by
  rcases h.conn c with hsame | ⟨_, hping⟩
  · rw [hsame]
  · rw [hping]
    rfl

theorem Attends.receivingAgrees {s t : IceTransport} {now : ℤ} (h : Attends s now t) (hs : s.ReceivingAgrees) :
    t.ReceivingAgrees := by
  have hflags : ∀ c, (t.conn c).receiving = (s.conn c).receiving := by
    intro c
    rcases h.conn c with hsame | ⟨_, hping⟩
    · rw [hsame]
    · rw [hping]
      rfl
  unfold ReceivingAgrees
  rw [h.receiving, h.connections]
  simp only [hflags]
  exact hs

theorem attends_books (t : IceTransport) (unpinged pinged : List ℕ) (curPingInterval lastPingSentMs : ℤ)
    (h : Attends s now t) :
    Attends s now { t with unpinged, pinged, curPingInterval, lastPingSentMs } :=
  ⟨h.size, h.connections, h.controllerSelected, h.selected, h.receiving, h.conn⟩

theorem attends_pingConnection {t : IceTransport} (h : Attends s now t) (hconn : t.conn = s.conn) (c : ℕ)
    (id : Bytes) : Attends s now (t.pingConnection env c now id) := by
  have hping : Attends s now (({ t with lastPingSentMs := now } : IceTransport).modifyConn c
      fun k => k.ping now id) := by
    refine ⟨(Heap.size_modify _ _ _).trans h.size, h.connections, h.controllerSelected, h.selected,
      h.receiving, fun c' => ?_⟩
    rw [conn_modifyConn]
    split
    · exact Or.inr ⟨id, congrArg (·.ping now id) (congrFun hconn c')⟩
    · exact Or.inl (congrFun hconn c')
  unfold pingConnection markConnectionPinged
  dsimp only
  split
  · exact hping
  · exact attends_books s now _ _ _ _ _ hping

theorem attends_pingNext (id : Bytes) : Attends s now (Recorded.pingNext env now s id) := by
  have hrefl : Attends s now s := ⟨rfl, rfl, rfl, rfl, rfl, fun _ => Or.inl rfl⟩
  have hrefill : Attends s now (s.refillUnpinged env now) ∧ (s.refillUnpinged env now).conn = s.conn := by
    unfold refillUnpinged
    split
    · exact ⟨hrefl, rfl⟩
    · exact ⟨attends_books s now s _ _ _ _ hrefl, rfl⟩
  have hselects := selects env s now
  unfold Recorded.pingNext
  generalize s.selectConnectionToPing env (s.lastPingSentMs - pingIntervalDiff) now = r at hselects ⊢
  obtain ⟨t, c, interval⟩ := r
  dsimp only at hselects ⊢
  cases hselects with
  | waits => exact attends_books s now _ _ _ _ _ hrefl
  | none => exact attends_books s now _ _ _ _ _ hrefill.1
  | selected => exact attends_books s now _ _ _ _ _ (attends_pingConnection env s now hrefl rfl _ id)
  | fallback =>
    exact attends_books s now _ _ _ _ _ (attends_pingConnection env s now hrefill.1 hrefill.2 _ id)

end Pinging

/-- What a packet is for the connection that reads it. -/
inductive PacketKind
  | data | bindingRequest | pingResponse | otherResponse
  deriving DecidableEq, Repr

/-- A packet that has arrived on a connection, and was not refused there. -/
structure Arrival where
  conn : ℕ
  kind : PacketKind
  time : ℤ
  deriving DecidableEq, Repr

section Events
variable (env : Environment)

def Event.now : Event → ℤ
  | .packet _ _ _ now => now
  | .timer now _ => now
  | .setRemoteIceParams _ now => now
  | .destroyConnection _ now => now

/-- The branches of `IceConnection::on_read_packet`, with what becomes of a response. -/
def packetKind (k : IceConnection) (data : Bytes) : Option PacketKind :=
  match Stun.onReadPacket env.hmac env.beyond env.iceParams k.remote data with
  | .signalReadPacket => some .data
  | .handleBindingRequest _ => some .bindingRequest
  | .checkResponse msg =>
    match (k.requests.checkResponse msg).2 with
    | .requestResponse _ => some .pingResponse
    | _ => some .otherResponse
  | _ => none

/-- The arrival that an event is. The request that a connection is created for is the first
one that it handles. -/
def arrival (s : IceTransport) (e : Event) : Option Arrival :=
  match e with
  | .packet port addr data now =>
    match s.addresses.lookup (port, addr) with
    | some c =>
      if s.memory.Alive c then (packetKind env (s.conn c) data).map fun kind => ⟨c, kind, now⟩ else none
    | none =>
      match getStunMessage env.hmac env.beyond env.iceParams data with
      | .message msg _ =>
        if msg.type = stunBindingRequest ∧ (msg.getUInt32 stunAttrPriority).isSome then
          some ⟨s.memory.size, .bindingRequest, now⟩
        else none
      | _ => none
  | _ => none

/-- The connection that an event destroys. -/
def Destroys (s : IceTransport) (e : Event) (c : ℕ) : Prop :=
  match e with
  | .packet port addr data _ => s.addresses.lookup (port, addr) = some c ∧ s.memory.Alive c ∧
    ∃ msg, Stun.onReadPacket env.hmac env.beyond env.iceParams (s.conn c).remote data =
        .checkResponse msg ∧
      ((s.conn c).requests.checkResponse msg).2 = .failAndDestroy
  | .destroyConnection c' _ => c' = c ∧ s.memory.Alive c
  | _ => False

/-- If something arrives, it is no response to a ping, and the connection is there already. -/
def NoAnswer (s : IceTransport) (e : Event) : Prop :=
  ∀ a, arrival env s e = some a → a.kind ≠ .pingResponse ∧ a.conn < s.memory.size

/-- What an event does. -/
inductive Effect (s : IceTransport) (e : Event) : IceTransport → Prop
  | settled {t : IceTransport} (harrival : NoAnswer env s e) (h : Settles s t) : Effect s e t
  | answered {t : IceTransport} {c : ℕ} {rtt : ℤ} (hc : s.memory.Alive c)
    (harrival : arrival env s e = some ⟨c, .pingResponse, e.now⟩)
    (h : Settles (s.modifyConn c fun k => k.recordPingResponse rtt e.now) t) : Effect s e t
  | added {t : IceTransport} {port remotePriority : ℕ} {addr : SocketAddress} {remoteUfrag : Bytes}
    (harrival : arrival env s e = some ⟨s.memory.size, .bindingRequest, e.now⟩)
    (h : Keeps (s.addConnection env port addr remoteUfrag remotePriority) t)
    (hreceiving : t.ReceivingAgrees) : Effect s e t
  | pinged {now : ℤ} {id : Bytes} (he : e = .timer now id) :
    Effect s e (Recorded.pingNext env now (s.updateConnectionStates env now) id)
  | destroyed {t : IceTransport} {c : ℕ} (hc : Destroys env s e c) (harrival : NoAnswer env s e)
    (h : Forgets env s c t) : Effect s e t

variable {env} {s : IceTransport} {port c : ℕ} {addr : SocketAddress} {data : Bytes} {now : ℤ}

theorem arrival_known (hc : s.addresses.lookup (port, addr) = some c) (halive : s.memory.Alive c) :
    arrival env s (.packet port addr data now) =
      (packetKind env (s.conn c) data).map fun kind => ⟨c, kind, now⟩ := by
  unfold arrival
  dsimp only
  rw [hc]
  exact if_pos halive

/-- A packet that is no response to a ping. -/
theorem noAnswer_known (hc : s.addresses.lookup (port, addr) = some c) (halive : s.memory.Alive c)
    (hkind : packetKind env (s.conn c) data ≠ some .pingResponse) :
    NoAnswer env s (.packet port addr data now) := by
  intro a ha
  rw [arrival_known hc halive, Option.map_eq_some_iff] at ha
  obtain ⟨kind, hsome, rfl⟩ := ha
  refine ⟨?_, halive.1⟩
  rintro rfl
  exact hkind hsome

theorem noAnswer_none {e : Event} (h : arrival env s e = none) : NoAnswer env s e := by
  intro a ha
  rw [h] at ha
  cases ha

theorem packetKind_checkResponse {k : IceConnection} {msg : StunMessage}
    (haction : Stun.onReadPacket env.hmac env.beyond env.iceParams k.remote data = .checkResponse msg) :
    packetKind env k data = some .pingResponse ↔
      ∃ request, (k.requests.checkResponse msg).2 = .requestResponse request := by
  unfold packetKind
  rw [haction]
  dsimp only
  cases (k.requests.checkResponse msg).2 <;> simp

theorem effect_checkResponse {msg : StunMessage} (hc : s.addresses.lookup (port, addr) = some c)
    (halive : s.memory.Alive c)
    (haction : Stun.onReadPacket env.hmac env.beyond env.iceParams (s.conn c).remote data =
      .checkResponse msg) :
    Effect env s (.packet port addr data now) (s.checkResponse env c msg now) := by
  have hkind := packetKind_checkResponse haction
  unfold checkResponse
  dsimp only
  cases hhandler : ((s.conn c).requests.checkResponse msg).2 with
  | requestResponse request =>
    have harrival : arrival env s (.packet port addr data now) = some ⟨c, .pingResponse, now⟩ := by
      rw [arrival_known hc halive, hkind.mpr ⟨request, hhandler⟩]
      rfl
    exact .answered halive harrival
      ((settles_receivedPingResponse env s c now _).trans (settles_setRequests _ c _))
  | failAndDestroy =>
    have hdestroy := forgets_destroy env (s.modifyConn c fun k => { k with state := .failed }) c now
    exact .destroyed ⟨hc, halive, msg, haction, hhandler⟩
      (noAnswer_known hc halive (by simp [hkind, hhandler]))
      (hdestroy.settles (settles_setRequests _ c _) rfl ⟨rfl, rfl⟩).of_failed
  | _ =>
    exact .settled (noAnswer_known hc halive (by simp [hkind, hhandler])) (settles_setRequests s c _)

theorem effect_onReadPacket (port : ℕ) (addr : SocketAddress) (data : Bytes) (now : ℤ) :
    Effect env s (.packet port addr data now) (s.onReadPacket env port addr data now) := by
  unfold onReadPacket
  cases hc : s.addresses.lookup (port, addr) with
  | some c =>
    dsimp only
    by_cases halive : s.memory.Alive c
    · rw [if_pos halive]
      cases haction : Stun.onReadPacket env.hmac env.beyond env.iceParams (s.conn c).remote data with
      | checkResponse msg => exact effect_checkResponse hc halive haction
      | _ => exact .settled (noAnswer_known hc halive (by simp [packetKind, haction])) (Settles.refl s)
    · rw [if_neg halive]
      exact .settled (noAnswer_none (by simp [arrival, hc, halive])) (Settles.refl s)
  | none =>
    dsimp only
    cases hmsg : getStunMessage env.hmac env.beyond env.iceParams data with
    | message msg remoteUfrag =>
      dsimp only
      by_cases htype : msg.type = stunBindingRequest
      · rw [if_pos htype]
        unfold onUnknownAddress
        cases hpriority : msg.getUInt32 stunAttrPriority with
        | none =>
          exact .settled (noAnswer_none (by simp [arrival, hc, hmsg, hpriority])) (Settles.refl s)
        | some remotePriority =>
          have hsort := keeps_sort env (s.addConnection env port addr remoteUfrag remotePriority) now
          exact .added (by simp [arrival, hc, hmsg, htype, hpriority, Event.now]) hsort.1 hsort.2
      · rw [if_neg htype]
        exact .settled (noAnswer_none (by simp [arrival, hc, hmsg, htype])) (Settles.refl s)
    | _ => exact .settled (noAnswer_none (by simp [arrival, hc, hmsg])) (Settles.refl s)

theorem effect (env : Environment) (s : IceTransport) (e : Event) : Effect env s e (s.step env e) := by
  cases e with
  | packet port addr data now => exact effect_onReadPacket port addr data now
  | timer now id =>
    show Effect env s _ (if s.startPinging then s.onCheckAndPing env now id else s)
    split
    · exact .pinged rfl
    · exact .settled (noAnswer_none rfl) (Settles.refl s)
  | setRemoteIceParams params now =>
    exact .settled (noAnswer_none rfl) (settles_setRemoteIceParams env s now params)
  | destroyConnection c now =>
    show Effect env s _ (if s.memory.Alive c then s.destroy env c now else s)
    split
    · rename_i halive
      exact .destroyed ⟨rfl, halive⟩ (noAnswer_none rfl) (forgets_destroy env s c now)
    · exact .settled (noAnswer_none rfl) (Settles.refl s)

end Events
end IceTransport
end Ice
end XrtcServer
