import XrtcServer.IceHistory
import Mathlib.Data.Prod.Lex

/-! What one call of `_sort_connections_and_update_state` does: the order of the sort, the
switch of the selected connection and the state computed after it. -/
namespace XrtcServer
namespace Ice
open ByteFormat ObjectHeap Stun

namespace IceTransport

section Order
variable (env : Environment) (s : IceTransport)

/-- What the sort looks at, the first part first: the smaller goes in front. -/
def rank (c : ℕ) : ℕ ×ₗ ℕ ×ₗ ℤ ×ₗ ℤ :=
  let k := s.conn c
  toLex (k.writeState.toNat, toLex (if k.receiving then 0 else 1,
    toLex (-(k.priority (env.localPriority k.port) : ℤ), k.rtt)))

theorem sortsBefore_iff (a b : ℕ) : s.sortsBefore env a b ↔ s.rank env a < s.rank env b := by
  have ⟨wa, ha⟩ : ∃ w, (s.conn a).writeState = w := ⟨_, rfl⟩
  have ⟨wb, hb⟩ : ∃ w, (s.conn b).writeState = w := ⟨_, rfl⟩
  have ⟨ra, hra⟩ : ∃ r, (s.conn a).receiving = r := ⟨_, rfl⟩
  have ⟨rb, hrb⟩ : ∃ r, (s.conn b).receiving = r := ⟨_, rfl⟩
  unfold sortsBefore compareConnections rank
  simp only [IceConnection.writable, Prod.Lex.toLex_lt_toLex, ha, hb, hra, hrb]
  rcases lt_trichotomy ((s.conn a).priority (env.localPriority (s.conn a).port))
    ((s.conn b).priority (env.localPriority (s.conn b).port)) with hp | hp | hp
  · cases wa <;> cases wb <;> cases ra <;> cases rb <;>
      simp [WriteState.toNat, hp, hp.not_gt, hp.ne]
  · cases wa <;> cases wb <;> cases ra <;> cases rb <;> simp [WriteState.toNat, hp]
  · cases wa <;> cases wb <;> cases ra <;> cases rb <;> simp [WriteState.toNat, hp]

theorem not_sortsBefore_iff (a b : ℕ) :
    (!s.sortsBefore env b a) = true ↔ s.rank env a ≤ s.rank env b := by
  rw [Bool.not_eq_true', ← Bool.not_eq_true, sortsBefore_iff, not_lt]

theorem pairwise_sortConnections :
    (s.sortConnections env).connections.Pairwise fun a b => s.rank env a ≤ s.rank env b := by
  have hsorted : (s.sortConnections env).connections.Pairwise
      fun a b => (!s.sortsBefore env b a) = true := by
    apply List.pairwise_mergeSort
    · intro a b c hab hbc
      rw [not_sortsBefore_iff] at hab hbc ⊢
      exact hab.trans hbc
    · intro a b
      rw [Bool.or_eq_true_iff, not_sortsBefore_iff, not_sortsBefore_iff]
      exact le_total _ _
  exact hsorted.imp fun h => (not_sortsBefore_iff env s _ _).mp h

/-- The sort of two connections, without its recursion. -/
theorem sortConnections_pair {a b : ℕ} (h : s.connections = [a, b]) :
    (s.sortConnections env).connections = if s.sortsBefore env b a then [b, a] else [a, b] := by
  show s.connections.mergeSort _ = _
  rw [h]
  cases hba : s.sortsBefore env b a <;>
    simp [List.mergeSort, List.MergeSort.Internal.splitInTwo, hba]

variable {env s} {top c : ℕ}

theorem mem_of_head (h : (s.sortConnections env).connections.head? = some top) :
    top ∈ s.connections := List.mem_mergeSort.mp (List.mem_of_mem_head? h)

theorem rank_head_le (h : (s.sortConnections env).connections.head? = some top)
    (hc : c ∈ s.connections) : s.rank env top ≤ s.rank env c := by
  have hmem : c ∈ (s.sortConnections env).connections := List.mem_mergeSort.mpr hc
  have hsorted := pairwise_sortConnections env s
  cases hl : (s.sortConnections env).connections with
  | nil => simp [hl] at hmem
  | cons a l =>
    rw [hl] at h hmem hsorted
    obtain rfl : a = top := Option.some.inj h
    rcases List.mem_cons.mp hmem with rfl | hin
    · exact le_refl _
    · exact (List.pairwise_cons.mp hsorted).1 c hin

theorem writeState_le_of_rank_le {a b : ℕ} (h : s.rank env a ≤ s.rank env b) :
    (s.conn a).writeState.toNat ≤ (s.conn b).writeState.toNat := by
  rcases Prod.Lex.toLex_le_toLex.mp h with hlt | ⟨heq, -⟩
  · exact hlt.le
  · exact heq.le

theorem rtt_eq_of_rank_eq {a b : ℕ} (h : s.rank env a = s.rank env b) :
    (s.conn a).rtt = (s.conn b).rtt := by
  simp only [rank, EmbeddingLike.apply_eq_iff_eq, Prod.mk.injEq] at h
  exact h.2.2.2

end Order

section Update
variable (env : Environment) (s : IceTransport) (now : ℤ)

theorem setWritable_eq (b : Bool) : s.setWritable b = { s with
    writable := b, hasBeenConnection := s.hasBeenConnection || (b && !s.writable) } := by
  unfold setWritable
  split
  · rename_i h
    subst h
    simp only [Bool.and_not_self, Bool.or_false]
  · rename_i h
    have hset : (b && !s.writable) = b := by
      cases b <;> simp_all
    rw [hset]

theorem setState_eq (state : IceTransportState) : s.setState state = { s with
    state, stateSignals := if state ≠ s.state then state :: s.stateSignals else s.stateSignals } := by
  unfold setState
  split
  · rfl
  · rename_i h
    rw [not_not.mp h]

/-- The state that the update computes, with the flag of the selected connection. -/
def nextState : IceTransportState :=
  computeIceTransportState { s with
    writable := s.selectedWritable
    hasBeenConnection := s.hasBeenConnection || (s.selectedWritable && !s.writable) }

theorem updateState_eq : s.updateState = { s with
    writable := s.selectedWritable
    hasBeenConnection := s.hasBeenConnection || (s.selectedWritable && !s.writable)
    receiving := s.connections.any fun c => (s.conn c).receiving
    state := s.nextState
    stateSignals := if s.nextState ≠ s.state then s.nextState :: s.stateSignals
      else s.stateSignals } := by
  unfold updateState setReceiving
  rw [setWritable_eq, setState_eq]
  rfl

/-- The connections are sorted, and another one may be selected. -/
def switched : IceTransport :=
  (s.sortConnections env).maybeSwitchSelectedConnection (s.sortConnections env).connectionToSwitchTo

/-- The connection that is selected after the switch. -/
def nextSelected : Option ℕ :=
  match (s.sortConnections env).connectionToSwitchTo with
  | none => s.selected
  | some c => some c

theorem selected_switched : (s.switched env).selected = s.nextSelected env := by
  unfold switched nextSelected
  cases (s.sortConnections env).connectionToSwitchTo with
  | none => rfl
  | some c =>
    show ((s.sortConnections env).switchSelectedConnection (some c)).selected = some c
    unfold switchSelectedConnection
    cases (s.sortConnections env).selected <;> rfl

/-- Beside the selection and the order of the connections a switch changes nothing. -/
theorem quiet_switched : Quiet s { s.switched env with
    connections := s.connections, selected := s.selected
    controllerSelected := s.controllerSelected } := by
  have hflag : ∀ (t : IceTransport) (c : ℕ) (selected : Bool),
      Quiet t (t.modifyConn c fun k => { k with selected }) :=
    fun t c selected => quiet_modifyConn t c rfl
  unfold switched
  cases (s.sortConnections env).connectionToSwitchTo with
  | none => exact Quiet.refl s
  | some n =>
    unfold maybeSwitchSelectedConnection switchSelectedConnection
    cases (s.sortConnections env).selected with
    | none => exact hflag s n true
    | some o => exact (hflag s o false).trans (hflag _ n true)

theorem agree_switched :
    (s.switched env).selected = s.selected ∧
        (s.switched env).controllerSelected = s.controllerSelected ∨
      (s.switched env).controllerSelected = (s.switched env).selected := by
  unfold switched
  cases (s.sortConnections env).connectionToSwitchTo with
  | none => exact Or.inl ⟨rfl, rfl⟩
  | some n =>
    right
    unfold maybeSwitchSelectedConnection switchSelectedConnection
    cases (s.sortConnections env).selected <;> rfl

theorem connections_switched : (s.switched env).connections = (s.sortConnections env).connections := by
  unfold switched
  cases (s.sortConnections env).connectionToSwitchTo with
  | none => rfl
  | some n =>
    unfold maybeSwitchSelectedConnection switchSelectedConnection
    cases (s.sortConnections env).selected <;> rfl

theorem quiet_maybeStartPinging : Quiet s (s.maybeStartPinging now) := by
  unfold maybeStartPinging
  split_ifs
  · exact Quiet.refl s
  · exact Quiet.books s _ _ _ _ _ _
  · exact Quiet.refl s

end Update

section Congruence
variable {s t : IceTransport} (h : ∀ c, (t.conn c).writeState = (s.conn c).writeState)
include h

theorem writable_congr (c : ℕ) : (t.conn c).writable = (s.conn c).writable := by
  unfold IceConnection.writable
  rw [h c]

theorem active_congr (c : ℕ) : (t.conn c).active = (s.conn c).active := by
  unfold IceConnection.active
  rw [h c]

theorem selectedWritable_congr (hsel : t.selected = s.selected) :
    t.selectedWritable = s.selectedWritable := by
  unfold selectedWritable
  rw [hsel]
  cases s.selected with
  | none => rfl
  | some c => exact writable_congr h c

theorem computeIceTransportState_congr (hconn : t.connections = s.connections)
    (hwritable : t.writable = s.writable) (hhad : t.hadConnection = s.hadConnection)
    (hbeen : t.hasBeenConnection = s.hasBeenConnection) :
    t.computeIceTransportState = s.computeIceTransportState := by
  unfold computeIceTransportState
  rw [hconn, hwritable, hhad, hbeen]
  simp only [active_congr h]

end Congruence

/-- Everything that a call of `_sort_connections_and_update_state` does, except to the order
of the connections and to the books of the pinging. -/
structure Sorts (env : Environment) (s t : IceTransport) : Prop where
  size : t.memory.size = s.memory.size
  freed : t.memory.freed = s.memory.freed
  connections : ∀ c, c ∈ t.connections ↔ c ∈ s.connections
  writeState : ∀ c, (t.conn c).writeState = (s.conn c).writeState
  selected : t.selected = s.nextSelected env
  agree : t.selected = s.selected ∧ t.controllerSelected = s.controllerSelected ∨
    t.controllerSelected = t.selected
  hadConnection : t.hadConnection = s.hadConnection
  writable : t.writable = t.selectedWritable
  hasBeenConnection : t.hasBeenConnection = (s.hasBeenConnection || (t.writable && !s.writable))
  state : t.state = t.computeIceTransportState
  stateSignals :
    t.stateSignals = if t.state ≠ s.state then t.state :: s.stateSignals else s.stateSignals

theorem sorts (env : Environment) (s : IceTransport) (now : ℤ) :
    Sorts env s (s.sortConnectionsAndUpdateState env now) := by
  have hswitch := quiet_switched env s
  have hselected := selected_switched env s
  have hagree := agree_switched env s
  have hconnections := connections_switched env s
  generalize hu : s.switched env = u at hswitch hselected hagree hconnections
  have hstart := quiet_maybeStartPinging u.updateState now
  have hsort : s.sortConnectionsAndUpdateState env now = u.updateState.maybeStartPinging now := by
    rw [← hu]
    rfl
  rw [hsort]
  generalize u.updateState.maybeStartPinging now = t at hstart
  rw [updateState_eq] at hstart
  have hwriteState : ∀ c, (t.conn c).writeState = (u.conn c).writeState := hstart.writeState
  have hwritable : u.selectedWritable = t.selectedWritable :=
    (selectedWritable_congr hwriteState hstart.selected).symm
  refine ⟨hstart.size.trans hswitch.size, hstart.freed.trans hswitch.freed, fun c => ?_,
    fun c => (hwriteState c).trans (hswitch.writeState c), hstart.selected.trans hselected, ?_,
    hstart.hadConnection.trans hswitch.hadConnection, ?_, ?_, ?_, ?_⟩
  · rw [hstart.connections, hconnections]
    exact List.mem_mergeSort
  · rw [hstart.selected, hstart.controllerSelected]
    exact hagree
  · exact hstart.writable.trans hwritable
  · rw [hstart.hasBeenConnection, hstart.writable]
    exact congrArg₂ (fun b w => b || (u.selectedWritable && !w)) hswitch.hasBeenConnection hswitch.writable
  · rw [hstart.state]
    exact (computeIceTransportState_congr hstart.writeState hstart.connections hstart.writable
      hstart.hadConnection hstart.hasBeenConnection).symm
  · rw [hstart.stateSignals, hstart.state]
    exact congrArg₂ (fun state signals => if u.nextState ≠ state then u.nextState :: signals else signals)
      hswitch.state hswitch.stateSignals

/-- What such a call leaves of the connections and of the books of the pinging: it sets the
selection and its flags, the order of the connections and the receiving flag of the channel. -/
structure Resorts (env : Environment) (s t : IceTransport) : Prop where
  conn : ∀ c, ∃ selected, t.conn c = { s.conn c with selected }
  size : t.memory.size = s.memory.size
  perm : t.connections.Perm s.connections
  unpinged : t.unpinged = s.unpinged
  pinged : t.pinged = s.pinged
  lastPingSentMs : t.lastPingSentMs = s.lastPingSentMs
  receiving : t.receiving = t.connections.any fun c => (t.conn c).receiving
  stays : (s.sortConnections env).connectionToSwitchTo = none →
    t.controllerSelected = s.controllerSelected ∧ t.selected = s.selected
  switches : ∀ c, (s.sortConnections env).connectionToSwitchTo = some c →
    t.controllerSelected = some c ∧ t.selected = some c

theorem exists_selected_modifyConn (s : IceTransport) (c c' : ℕ) (b : Bool) :
    ∃ selected, (s.modifyConn c fun k => { k with selected := b }).conn c' =
      { s.conn c' with selected } := by
  rw [conn_modifyConn]
  split
  · exact ⟨b, rfl⟩
  · exact ⟨_, rfl⟩

theorem conn_switched (env : Environment) (s : IceTransport) (c : ℕ) :
    ∃ selected, (s.switched env).conn c = { s.conn c with selected } := by
  unfold switched
  cases (s.sortConnections env).connectionToSwitchTo with
  | none => exact ⟨_, rfl⟩
  | some n =>
    unfold maybeSwitchSelectedConnection switchSelectedConnection
    cases (s.sortConnections env).selected with
    | none => exact exists_selected_modifyConn s n c true
    | some o =>
      have ⟨_, hold⟩ := exists_selected_modifyConn s o c false
      have ⟨new, hnew⟩ := exists_selected_modifyConn
        (s.modifyConn o fun k => { k with selected := false }) n c true
      rw [hold] at hnew
      exact ⟨new, hnew⟩

theorem resorts (env : Environment) (s : IceTransport) (now : ℤ) :
    Resorts env s (s.sortConnectionsAndUpdateState env now) := by
  have hconn := conn_switched env s
  have hconnections := connections_switched env s
  have hsize := (quiet_switched env s).size
  have hbooks : (s.switched env).unpinged = s.unpinged ∧ (s.switched env).pinged = s.pinged ∧
      (s.switched env).lastPingSentMs = s.lastPingSentMs := by
    unfold switched
    cases (s.sortConnections env).connectionToSwitchTo with
    | none => exact ⟨rfl, rfl, rfl⟩
    | some n =>
      unfold maybeSwitchSelectedConnection switchSelectedConnection
      cases (s.sortConnections env).selected <;> exact ⟨rfl, rfl, rfl⟩
  have hstays : (s.sortConnections env).connectionToSwitchTo = none →
      (s.switched env).controllerSelected = s.controllerSelected ∧
        (s.switched env).selected = s.selected := by
    intro hnone
    unfold switched
    rw [hnone]
    exact ⟨rfl, rfl⟩
  have hswitches : ∀ c, (s.sortConnections env).connectionToSwitchTo = some c →
      (s.switched env).controllerSelected = some c ∧ (s.switched env).selected = some c := by
    intro c hsome
    unfold switched
    rw [hsome]
    unfold maybeSwitchSelectedConnection switchSelectedConnection
    cases (s.sortConnections env).selected <;> exact ⟨rfl, rfl⟩
  have hsort : s.sortConnectionsAndUpdateState env now =
      (s.switched env).updateState.maybeStartPinging now := rfl
  rw [hsort]
  generalize s.switched env = u at hconn hconnections hsize hbooks hstays hswitches ⊢
  have hperm : u.connections.Perm s.connections := by
    rw [hconnections]
    exact List.mergeSort_perm _ _
  have hupdate : Resorts env s u.updateState := by
    rw [updateState_eq]
    exact ⟨hconn, hsize, hperm, hbooks.1, hbooks.2.1, hbooks.2.2, rfl, hstays, hswitches⟩
  unfold maybeStartPinging
  split_ifs
  · exact hupdate
  · exact ⟨hupdate.conn, hupdate.size, hupdate.perm, hupdate.unpinged, hupdate.pinged,
      hupdate.lastPingSentMs, hupdate.receiving, hupdate.stays, hupdate.switches⟩
  · exact hupdate

end IceTransport
end Ice
end XrtcServer
