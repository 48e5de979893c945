import XrtcServer.IceFailover

/-! What the state of the channel says about its connections whenever control returns to the
event loop, and how often a change of it is signalled. -/
namespace XrtcServer
namespace Ice
open ByteFormat ObjectHeap Stun

namespace IceTransport

def NoneAdded (s : IceTransport) : Prop := s.memory.size = 0

def SomeActive (s : IceTransport) : Prop := ∃ c < s.memory.size, (s.conn c).active = true

theorem nextSelected_mem {env : Environment} {s : IceTransport} {c : ℕ}
    (h : s.nextSelected env = some c) : s.selected = some c ∨ c ∈ s.connections := by
  cases hnew : (s.sortConnections env).connectionToSwitchTo with
  | none =>
    left
    rw [← h, nextSelected, hnew]
  | some new =>
    right
    have hsame : new = c := by simpa only [nextSelected, hnew, Option.some.injEq] using h
    unfold connectionToSwitchTo at hnew
    have hhead : (s.sortConnections env).connections.head? = some new := by
      grind
    exact hsame ▸ mem_of_head hhead

theorem SomeActive.added {s : IceTransport} (h : s.SomeActive) : ¬s.NoneAdded := by
  have ⟨c, hc, _⟩ := h
  exact Nat.ne_zero_of_lt hc

theorem exists_selected {s : IceTransport} (h : s.selectedWritable = true) :
    ∃ c, s.selected = some c ∧ (s.conn c).writable = true := by
  unfold selectedWritable at h
  cases hsel : s.selected with
  | none => simp [hsel] at h
  | some c =>
    rw [hsel] at h
    exact ⟨c, rfl, h⟩

end IceTransport

/-- The state that the calls have left behind, the last one first. -/
def SortCall.lastState : List SortCall → IceTransportState
  | [] => .new
  | call :: _ => call.after.state

/-- Between two calls the state stays as it is. -/
def SortCall.Linked : List SortCall → Prop
  | [] => True
  | call :: calls => call.before.state = lastState calls ∧ Linked calls

namespace Recorded
open IceTransport

/-- The channel has been writable. -/
def WasWritable (x : Recorded) : Prop := ∃ call ∈ x.calls, call.after.writable = true

/-- The channel has lost its writable connection, and may find another one. -/
def Lost (x : Recorded) : Prop :=
  x.WasWritable ∧ x.transport.writable = false ∧ x.transport.SomeActive

/-- What each state says. -/
structure Described (x : Recorded) : Prop where
  new : x.transport.NoneAdded → x.transport.state = .new
  failed : ¬x.transport.NoneAdded → ¬x.transport.SomeActive → x.transport.state = .failed
  connected : x.transport.selectedWritable = true → x.transport.state = .connected
  disconnected : x.Lost → x.transport.state = .disconnected
  checking : ¬x.transport.NoneAdded → x.transport.SomeActive → x.transport.selectedWritable = false →
    ¬x.Lost → x.transport.state = .checking

/-- The state changes in the calls only, and the calls that change it signal it once. -/
structure Signalled (x : Recorded) : Prop where
  last : x.transport.state = SortCall.lastState x.calls
  linked : SortCall.Linked x.calls
  signals : x.transport.stateSignals =
    (x.calls.filter fun call => call.before.state ≠ call.after.state).map fun call => call.after.state

/-- What holds of a channel that has kept its connections, also inside of an event. -/
structure History (x : Recorded) : Prop extends Signalled x where
  connections : ∀ c, c ∈ x.transport.connections ↔ c < x.transport.memory.size
  selected : ∀ c, x.transport.selected = some c → c < x.transport.memory.size
  hadConnection : x.transport.hadConnection = true ↔ 0 < x.transport.memory.size
  hasBeenConnection : x.transport.hasBeenConnection = true ↔ x.WasWritable
  writable : x.transport.writable = true → x.WasWritable
  added : x.WasWritable → 0 < x.transport.memory.size

/-- The flag and the state are those of the connections. -/
structure Settled (s : IceTransport) : Prop where
  writable : s.writable = s.selectedWritable
  state : s.state = s.computeIceTransportState

theorem history_empty : History {} where
  last := rfl
  linked := trivial
  signals := rfl
  connections c := by simp [Heap.size]
  selected c h := by simp at h
  hadConnection := by simp [Heap.size]
  hasBeenConnection := by simp [WasWritable]
  writable h := by simp at h
  added h := by simp [WasWritable] at h

theorem settled_empty : Settled {} := ⟨rfl, rfl⟩

section Steps
variable {env : Environment} {x : Recorded}

theorem History.beside {t : IceTransport} (h : History x) (ht : Beside x.transport t) :
    History { x with transport := t } where
  last := ht.state.trans h.last
  linked := h.linked
  signals := ht.stateSignals.trans h.signals
  connections c := by
    show c ∈ t.connections ↔ c < t.memory.size
    rw [ht.connections, ht.size]
    exact h.connections c
  selected c hc := by
    show c < t.memory.size
    rw [ht.size]
    exact h.selected c (ht.selected.symm.trans hc)
  hadConnection := by
    show t.hadConnection = true ↔ 0 < t.memory.size
    rw [ht.hadConnection, ht.size]
    exact h.hadConnection
  hasBeenConnection := by
    show t.hasBeenConnection = true ↔ _
    rw [ht.hasBeenConnection]
    exact h.hasBeenConnection
  writable hw := h.writable (ht.writable.symm.trans hw)
  added hw := ht.size.symm ▸ h.added hw

theorem Settled.quiet {s t : IceTransport} (h : Settled s) (ht : Quiet s t) : Settled t where
  writable := by
    rw [ht.writable, selectedWritable_congr ht.writeState ht.selected]
    exact h.writable
  state := by
    rw [ht.state, computeIceTransportState_congr ht.writeState ht.connections ht.writable
      ht.hadConnection ht.hasBeenConnection]
    exact h.state

theorem History.add (h : History x) (port : ℕ) (addr : SocketAddress) (remoteUfrag : Bytes)
    (remotePriority : ℕ) :
    History (x.change fun s => s.addConnection env port addr remoteUfrag remotePriority) where
  last := h.last
  linked := h.linked
  signals := h.signals
  connections c := by
    show c ∈ x.transport.connections ++ [x.transport.memory.size] ↔ c < (x.transport.memory.alloc _).size
    rw [List.mem_append, h.connections, List.mem_singleton, Heap.size_alloc]
    omega
  selected c hc := by
    show c < (x.transport.memory.alloc _).size
    rw [Heap.size_alloc]
    have hlt := h.selected c hc
    omega
  hadConnection := by
    show true = true ↔ 0 < (x.transport.memory.alloc _).size
    simp
  hasBeenConnection := h.hasBeenConnection
  writable := h.writable
  added _ := by
    show 0 < (x.transport.memory.alloc _).size
    simp

theorem wasWritable_sort (now : ℤ) : (x.sort env now).WasWritable ↔
    (x.sort env now).transport.writable = true ∨ x.WasWritable := by
  unfold WasWritable sort
  simp only [List.mem_cons, exists_eq_or_imp]

theorem History.sort (h : History x) (now : ℤ) : History (x.sort env now) := by
  have hsorts := sorts env x.transport now
  have hselected : ∀ c, (x.sort env now).transport.selected = some c → c < x.transport.memory.size := by
    intro c hc
    rcases nextSelected_mem (hsorts.selected.symm.trans hc) with hold | hnew
    · exact h.selected c hold
    · exact (h.connections c).mp hnew
  refine ⟨⟨rfl, ⟨h.last, h.linked⟩, ?_⟩, fun c => ?_, fun c hc => ?_, ?_, ?_, fun hw => ?_, fun hw => ?_⟩
  · show (x.transport.sortConnectionsAndUpdateState env now).stateSignals = _
    rw [hsorts.stateSignals, h.signals]
    unfold Recorded.sort
    by_cases hsame : x.transport.state = (x.transport.sortConnectionsAndUpdateState env now).state
    · simp [hsame]
    · simp [hsame, Ne.symm hsame]
  · show c ∈ (x.transport.sortConnectionsAndUpdateState env now).connections ↔
      c < (x.transport.sortConnectionsAndUpdateState env now).memory.size
    rw [hsorts.connections, hsorts.size]
    exact h.connections c
  · show c < (x.transport.sortConnectionsAndUpdateState env now).memory.size
    rw [hsorts.size]
    exact hselected c hc
  · show (x.transport.sortConnectionsAndUpdateState env now).hadConnection = true ↔
      0 < (x.transport.sortConnectionsAndUpdateState env now).memory.size
    rw [hsorts.hadConnection, hsorts.size]
    exact h.hadConnection
  · rw [wasWritable_sort, ← h.hasBeenConnection]
    show (x.transport.sortConnectionsAndUpdateState env now).hasBeenConnection = true ↔
      (x.transport.sortConnectionsAndUpdateState env now).writable = true ∨ _
    rw [hsorts.hasBeenConnection]
    have hbefore : x.transport.writable = true → x.transport.hasBeenConnection = true :=
      fun hw => h.hasBeenConnection.mpr (h.writable hw)
    grind
  · exact (wasWritable_sort now).mpr (Or.inl hw)
  · show 0 < (x.transport.sortConnectionsAndUpdateState env now).memory.size
    rw [hsorts.size]
    rcases (wasWritable_sort now).mp hw with hnow | hwas
    · have ⟨c, hc⟩ := exists_selected (hsorts.writable.symm.trans hnow)
      exact Nat.zero_lt_of_lt (hselected c hc.1)
    · exact h.added hwas

theorem settled_sort (now : ℤ) : Settled (x.sort env now).transport :=
  ⟨(sorts env x.transport now).writable, (sorts env x.transport now).state⟩

end Steps

/-- The history is right and, after an event, the state is that of the connections, as long
as no connection is destroyed. -/
theorem rule_history (env : Environment) :
    Rule env (fun x => x.transport.memory.freed = [] → History x ∧ Settled x.transport)
      (fun x => x.transport.memory.freed = [] → History x) where
  weaken x hx hkept := (hx hkept).1
  sort x now hx hkept := by
    have hbefore : x.transport.memory.freed = [] := (sorts env x.transport now).freed.symm.trans hkept
    exact ⟨(hx hbefore).sort now, settled_sort now⟩
  beside x t ht hx hkept := (hx (ht.freed.symm.trans hkept)).beside ht
  quiet x t ht hx hkept := by
    have ⟨hhistory, hsettled⟩ := hx (ht.freed.symm.trans hkept)
    exact ⟨hhistory.beside ht.toBeside, hsettled.quiet ht⟩
  add x port addr remoteUfrag remotePriority hx hkept :=
    (hx hkept).1.add port addr remoteUfrag remotePriority
  destroy x c now hx hkept := by
    have hfreed := (destroy_addresses env x.transport c now).2
    rw [← transport_destroy, hkept] at hfreed
    exact absurd hfreed List.not_mem_nil

theorem History.any_active_iff {x : Recorded} (h : History x) :
    (x.transport.connections.any fun c => (x.transport.conn c).active) = true ↔
      x.transport.SomeActive := by
  simp only [List.any_eq_true, h.connections, SomeActive]

theorem History.someActive {x : Recorded} (h : History x)
    (hwritable : x.transport.selectedWritable = true) : x.transport.SomeActive := by
  have ⟨c, hsel, hw⟩ := exists_selected hwritable
  simp only [IceConnection.writable, decide_eq_true_eq] at hw
  exact ⟨c, h.selected c hsel, by simp [IceConnection.active, hw]⟩

/-- The tests of the computation, in its order, in terms of the connections. -/
theorem History.state_eq {x : Recorded} (h : History x) (hsettled : Settled x.transport)
    [Decidable x.transport.NoneAdded] [Decidable x.transport.SomeActive] [Decidable x.WasWritable] :
    x.transport.state =
      if ¬x.transport.NoneAdded ∧ ¬x.transport.SomeActive then .failed
      else if x.WasWritable ∧ x.transport.selectedWritable = false then .disconnected
      else if x.transport.NoneAdded ∧ ¬x.transport.SomeActive then .new
      else if x.transport.SomeActive ∧ x.transport.selectedWritable = false then .checking
      else .connected := by
  have hhad : x.transport.hadConnection = decide ¬x.transport.NoneAdded := by
    rw [Bool.eq_iff_iff, h.hadConnection, decide_eq_true_eq]
    exact Nat.pos_iff_ne_zero
  have hbeen : x.transport.hasBeenConnection = decide x.WasWritable := by
    rw [Bool.eq_iff_iff, h.hasBeenConnection, decide_eq_true_eq]
  have hany : (x.transport.connections.any fun c => (x.transport.conn c).active) =
      decide x.transport.SomeActive := by
    rw [Bool.eq_iff_iff, h.any_active_iff, decide_eq_true_eq]
  rw [hsettled.state]
  unfold computeIceTransportState
  rw [hhad, hbeen, hany, hsettled.writable]
  simp

theorem History.described {x : Recorded} (h : History x) (hsettled : Settled x.transport) :
    Described x := by
  classical
  have hstate := h.state_eq hsettled
  refine ⟨fun hnone => ?_, fun hadded hactive => ?_, fun hselected => ?_, fun hlost => ?_,
    fun hadded hactive hselected hlost => ?_⟩
  · have hactive : ¬x.transport.SomeActive := fun hactive => hactive.added hnone
    have hwas : ¬x.WasWritable := fun hwas => Nat.ne_zero_of_lt (h.added hwas) hnone
    simp [hstate, hnone, hactive, hwas]
  · simp [hstate, hadded, hactive]
  · simp [hstate, hselected, h.someActive hselected]
  · have ⟨hwas, hwritable, hactive⟩ := hlost
    rw [hsettled.writable] at hwritable
    simp [hstate, hwas, hwritable, hactive]
  · have hwas : ¬x.WasWritable := fun hwas => hlost ⟨hwas, hsettled.writable.trans hselected, hactive⟩
    simp [hstate, hadded, hactive, hselected, hwas]

/-- Whenever control returns to the event loop, while no connection has been destroyed, the
state says what the connections have come to, and each change of it has been signalled once. -/
theorem state_described (env : Environment) (es : List Event)
    (hkept : (Runs.run (Recorded.step env) {} es).transport.memory.freed = []) :
    Described (Runs.run (Recorded.step env) {} es) ∧ Signalled (Runs.run (Recorded.step env) {} es) := by
  have ⟨hhistory, hsettled⟩ := (rule_history env).run (fun _ => ⟨history_empty, settled_empty⟩) es hkept
  exact ⟨hhistory.described hsettled, hhistory.toSignalled⟩

/-- A channel whose one connection was pinged with success. -/
theorem connected_silence :
    (Runs.run (Recorded.step failoverEnvironment) {} silenceEvents).transport.state = .connected := by
  have htransport : (Runs.run (Recorded.step failoverEnvironment) {} silenceEvents).transport =
      silentTransport := (transport_run _ _ _).trans run_silence
  have hkept : (Runs.run (Recorded.step failoverEnvironment) {} silenceEvents).transport.memory.freed =
      [] := by
    rw [htransport]
    decide +kernel
  apply (state_described failoverEnvironment silenceEvents hkept).1.connected
  rw [htransport]
  decide +kernel

end Recorded
end Ice
end XrtcServer
