import XrtcServer.TransportController
import XrtcServer.DtlsRules
import XrtcServer.Runs

/-! The connection state of a `TransportController` is the one that the current states of its
transports make, and each change of that is signalled once. The agent passes on only the
changes of its own state; the connection state depends on the ICE states through it alone. -/
namespace XrtcServer
namespace Controller
open ByteFormat Dtls Ice
open XrtcServer.Stream (PeerConnectionState)

section Aggregates

theorem sum_count_ice (l : List IceTransportState) :
    l.count .new + l.count .checking + l.count .connected + l.count .completed + l.count .failed +
      l.count .disconnected + l.count .closed = l.length := by
  induction l with
  | nil => rfl
  | cons s l ih => cases s <;> simp <;> omega

theorem sum_count_dtls (l : List DtlsTransportState) :
    l.count .new + l.count .connecting + l.count .connected + l.count .closed + l.count .failed =
      l.length := by
  induction l with
  | nil => rfl
  | cons s l ih => cases s <;> simp <;> omega

/-- The connection state in terms of the agent's state. -/
def combined (ice : IceTransportState) (dtls : List DtlsTransportState) : PeerConnectionState :=
  if ice = .failed ∨ dtls.count .failed > 0 then .failed
  else if ice = .disconnected then .disconnected
  else if ice = .new ∧ dtls.count .new + dtls.count .closed = dtls.length then .new
  else if ice = .new ∨ ice = .checking ∨ dtls.count .connecting + dtls.count .new > 0 then .connecting
  else .connected

/-- Closed channels would make a difference between the two orders of priority. -/
theorem pcStateOf_eq {ice : List IceTransportState} {dtls : List DtlsTransportState}
    (hclosed : .closed ∉ ice) (hlen : ice.length = dtls.length) :
    pcStateOf ice dtls = combined (iceStateOf ice) dtls := by
  have hice := sum_count_ice ice
  have hdtls := sum_count_dtls dtls
  rw [List.count_eq_zero_of_not_mem hclosed] at hice
  unfold pcStateOf iceStateOf
  dsimp only
  rw [List.count_eq_zero_of_not_mem hclosed]
  split_ifs <;> simp only [combined] <;> grind

/-- The changes in a list of states, the last state first, that begins from `new`. -/
def changes : List PeerConnectionState → List PeerConnectionState
  | [] => []
  | state :: states =>
    if state = states.headD .new then changes states else state :: changes states

end Aggregates

namespace TransportController
variable {σ η τ : Type} {A : SslAdapter σ η τ} {w : TransportController σ} {i : ℕ}

/-- What holds of a controller also while a change is on its way. -/
structure Consistent (w : TransportController σ) : Prop where
  closed : .closed ∉ w.iceStates
  length : w.dtls.length = if w.dtlsOn then w.channels.length else 0
  last : w.pcState = w.aggregates.headD .new
  signalled : w.connectionStates = changes w.aggregates

/-- The changes have been propagated. -/
structure Settled (w : TransportController σ) : Prop extends Consistent w where
  iceState : w.iceState = iceStateOf w.iceStates
  pcState : w.pcState = w.aggregate

section Signals

/-- The connection state depends on the states of the channels through the agent's alone. -/
theorem Consistent.aggregate_eq (h : Consistent w) :
    w.aggregate = if w.dtlsOn then combined (iceStateOf w.iceStates) w.dtlsStates
      else pcStateOfIce (iceStateOf w.iceStates) := by
  unfold aggregate
  split
  · rename_i hon
    apply pcStateOf_eq h.closed
    simp [iceStates, dtlsStates, h.length, hon]
  · rfl

theorem setPcState_self (h : w.pcState = w.aggregate) : w.setPcState w.aggregate = w := by
  simp [setPcState, h]

@[simp] theorem aggregate_setPcState (state : PeerConnectionState) :
    (w.setPcState state).aggregate = w.aggregate := by
  unfold setPcState
  split <;> rfl

@[simp] theorem channels_setPcState (state : PeerConnectionState) :
    (w.setPcState state).channels = w.channels := by
  unfold setPcState
  split <;> rfl

@[simp] theorem dtls_setPcState (state : PeerConnectionState) :
    (w.setPcState state).dtls = w.dtls := by
  unfold setPcState
  split <;> rfl

@[simp] theorem dtlsOn_setPcState (state : PeerConnectionState) :
    (w.setPcState state).dtlsOn = w.dtlsOn := by
  unfold setPcState
  split <;> rfl

@[simp] theorem iceState_setPcState (state : PeerConnectionState) :
    (w.setPcState state).iceState = w.iceState := by
  unfold setPcState
  split <;> rfl

@[simp] theorem pcState_setPcState (state : PeerConnectionState) :
    (w.setPcState state).pcState = state := by
  unfold setPcState
  split
  · rfl
  · exact not_not.mp ‹_›

@[simp] theorem iceStates_setPcState (state : PeerConnectionState) :
    (w.setPcState state).iceStates = w.iceStates := by simp [iceStates]

/-- A change that is noted and then made the connection state. -/
theorem Consistent.propagate (h : Consistent w) :
    Consistent (w.noteAggregate.setPcState w.aggregate) := by
  have hlast := h.last
  have hsignalled := h.signalled
  by_cases hsame : w.pcState = w.aggregate
  · have hnoop : w.noteAggregate.setPcState w.aggregate = w.noteAggregate :=
      setPcState_self (w := w.noteAggregate) hsame
    rw [hnoop]
    refine ⟨h.closed, h.length, hsame, ?_⟩
    show w.connectionStates = changes (w.aggregate :: w.aggregates)
    rw [changes, if_pos (hsame.symm.trans hlast), hsignalled]
  · have hset : w.noteAggregate.setPcState w.aggregate =
        { w.noteAggregate with
          pcState := w.aggregate
          connectionStates := w.aggregate :: w.connectionStates } := if_pos hsame
    rw [hset]
    refine ⟨h.closed, h.length, rfl, ?_⟩
    show w.aggregate :: w.connectionStates = changes (w.aggregate :: w.aggregates)
    rw [changes, if_neg fun heq => hsame (hlast.trans heq.symm), hsignalled]

/-- The slots do not care how often they are called. -/
theorem iterate_setPcState (n : ℕ) (hn : n ≠ 0) :
    (fun w : TransportController σ => w.setPcState w.aggregate)^[n] w = w.setPcState w.aggregate := by
  induction n generalizing w with
  | zero => exact absurd rfl hn
  | succ n ih =>
    by_cases hzero : n = 0
    · subst hzero
      rfl
    · rw [Function.iterate_succ_apply, ih hzero, setPcState_self (by simp)]

theorem iterate_onIceState (n : ℕ) {state : IceTransportState}
    (hstate : pcStateOfIce state = pcStateOfIce (iceStateOf w.iceStates)) :
    (fun w => onIceState w state)^[n] w =
      (fun w : TransportController σ => w.setPcState w.aggregate)^[n] w := by
  induction n generalizing w with
  | zero => rfl
  | succ n ih =>
    have hfirst : onIceState w state = w.setPcState w.aggregate := by
      unfold onIceState updateState aggregate
      by_cases hon : w.dtlsOn
      · simp [hon]
      · simp [hon, hstate]
    rw [Function.iterate_succ_apply, Function.iterate_succ_apply, hfirst, ih (by simpa using hstate)]

theorem signalIceState_eq (hsome : w.channels ≠ []) {state : IceTransportState}
    (hstate : pcStateOfIce state = pcStateOfIce (iceStateOf w.iceStates)) :
    w.signalIceState state = w.setPcState w.aggregate := by
  have hn : w.channels.length ≠ 0 := fun h => hsome (List.length_eq_zero_iff.mp h)
  rw [signalIceState, iterate_onIceState _ hstate, iterate_setPcState _ hn]

theorem setPcState_withIceState (state : IceTransportState) (pcState : PeerConnectionState) :
    { w with iceState := state }.setPcState pcState =
      { w.setPcState pcState with iceState := state } := by
  unfold setPcState
  dsimp only
  split <;> rfl

/-- When the agent's state changes, so may the connection state, and the agent's state on
the way from checking to completed changes nothing. -/
theorem agentUpdateState_changed (hsome : w.channels ≠ [])
    (hchanged : w.iceState ≠ iceStateOf w.iceStates) :
    w.agentUpdateState = { w.setPcState w.aggregate with iceState := iceStateOf w.iceStates } := by
  have hlast : ∀ v : TransportController σ, v.channels ≠ [] → v.iceStates = w.iceStates →
      ({ v with iceState := iceStateOf w.iceStates } : TransportController σ).signalIceState
          (iceStateOf w.iceStates) =
        { v.setPcState v.aggregate with iceState := iceStateOf w.iceStates } := by
    intro v hv hstates
    have hv' : ({ v with iceState := iceStateOf w.iceStates } : TransportController σ).channels ≠ [] := hv
    rw [signalIceState_eq hv' (by rw [← hstates]; rfl), setPcState_withIceState]
    rfl
  unfold agentUpdateState
  dsimp only
  rw [if_pos hchanged]
  split
  · rename_i hcompleted
    rw [signalIceState_eq hsome (by rw [hcompleted.2]; rfl),
      hlast _ (by simpa using hsome) (by simp), setPcState_self (by simp)]
  · exact hlast w hsome rfl

theorem agentUpdateState_same (hsame : w.iceState = iceStateOf w.iceStates) :
    w.agentUpdateState = w := by simp [agentUpdateState, hsame]

theorem channels_agentUpdateState (hsome : w.channels ≠ []) :
    w.agentUpdateState.channels = w.channels := by
  by_cases hsame : w.iceState = iceStateOf w.iceStates
  · rw [agentUpdateState_same hsame]
  · rw [agentUpdateState_changed hsome hsame]
    exact channels_setPcState _

/-- The changed state of a channel comes through, whether or not the agent passes it on. -/
theorem Consistent.agentUpdateState (h : Consistent w)
    (hold : w.pcState = if w.dtlsOn then combined w.iceState w.dtlsStates else pcStateOfIce w.iceState)
    (hsome : w.channels ≠ []) : Settled w.noteAggregate.agentUpdateState := by
  by_cases hsame : w.iceState = iceStateOf w.iceStates
  · have hpc : w.pcState = w.aggregate := by rw [hold, h.aggregate_eq, hsame]
    have hnoop : w.noteAggregate.setPcState w.aggregate = w.noteAggregate :=
      setPcState_self (w := w.noteAggregate) hpc
    rw [agentUpdateState_same (w := w.noteAggregate) hsame]
    exact ⟨hnoop ▸ h.propagate, hsame, hpc⟩
  · rw [agentUpdateState_changed (w := w.noteAggregate) hsome hsame]
    have hnoted := h.propagate
    refine ⟨⟨hnoted.closed, hnoted.length, hnoted.last, hnoted.signalled⟩, ?_, ?_⟩
    · show iceStateOf w.noteAggregate.iceStates =
        iceStateOf (w.noteAggregate.setPcState w.noteAggregate.aggregate).iceStates
      rw [iceStates_setPcState]
    · show (w.noteAggregate.setPcState w.noteAggregate.aggregate).pcState =
        (w.noteAggregate.setPcState w.noteAggregate.aggregate).aggregate
      rw [pcState_setPcState, aggregate_setPcState]

end Signals

section Methods

theorem set_of_getElem? {α : Type} {l : List α} {a : α} (h : l[i]? = some a) : l.set i a = l := by
  have ⟨hlt, hget⟩ := List.getElem?_eq_some_iff.mp h
  rw [← hget, List.set_getElem_self]

theorem Consistent.withDtls (h : Consistent w) {dtls : List (DtlsTransport σ)}
    (hlen : dtls.length = w.dtls.length) : Consistent { w with dtls } :=
  ⟨h.closed, hlen.trans h.length, h.last, h.signalled⟩

theorem Settled.withDtls (h : Settled w) {dtls : List (DtlsTransport σ)}
    (hstates : dtls.map (fun t => t.dtlsState) = w.dtlsStates) : Settled { w with dtls } := by
  have hlen : dtls.length = w.dtls.length := by
    simpa [dtlsStates] using congrArg List.length hstates
  refine ⟨h.toConsistent.withDtls hlen, h.iceState, h.pcState.trans ?_⟩
  unfold aggregate
  rw [← hstates]
  rfl

/-- A method of a DTLS transport is running, with the channels as they are. -/
def Listening (i : ℕ) (channels : List IceChannel) (x : Attached σ (TransportController σ)) : Prop :=
  Settled (put i x) ∧ x.listener.dtlsOn = true ∧ x.listener.channels = channels

theorem put_eq (x : Attached σ (TransportController σ)) :
    put i x = { x.listener with dtls := x.listener.dtls.set i x.transport } := rfl

/-- A listener that knows the transport already. -/
theorem put_of_set {t : DtlsTransport σ} (ht : w.dtls.set i t = w.dtls) : put i ⟨t, w⟩ = w := by
  rw [put_eq, ht]

theorem updateState_eq (hon : w.dtlsOn = true) : w.updateState = w.setPcState w.aggregate := by
  simp [updateState, aggregate, hon]

namespace Listening
variable {channels : List IceChannel} {x : Attached σ (TransportController σ)}

theorem transport (h : Listening i channels x) (t : DtlsTransport σ)
    (ht : t.dtlsState = x.transport.dtlsState) : Settled (put i ⟨t, x.listener⟩) := by
  have hstates : (x.listener.dtls.set i t).map (fun t => t.dtlsState) = (put i x).dtlsStates := by
    rw [dtlsStates, put_eq, List.map_set, List.map_set, ht]
  exact h.1.withDtls hstates

theorem setDtlsState (h : Listening i channels x) (t : DtlsTransport σ) (state : DtlsTransportState) :
    Listening i channels ⟨t, (slots i).onDtlsState t state x.listener⟩ := by
  generalize hv : put i ⟨t, x.listener⟩ = v
  have hdtls : v.dtls = x.listener.dtls.set i t := by rw [← hv]; rfl
  have hon : v.dtlsOn = true := by rw [← hv]; exact h.2.1
  have hconsistent : Consistent v := hv ▸ h.1.toConsistent.withDtls (by simp [put_eq])
  have hslot : (slots i).onDtlsState t state x.listener = v.noteAggregate.setPcState v.aggregate := by
    rw [← hv]
    exact updateState_eq (w := (put i ⟨t, x.listener⟩).noteAggregate) h.2.1
  rw [hslot]
  refine ⟨?_, ?_, ?_⟩
  · rw [put_of_set (by simp [noteAggregate, hdtls])]
    refine ⟨hconsistent.propagate, ?_, ?_⟩
    · rw [iceState_setPcState, iceStates_setPcState, ← hv]
      exact h.1.iceState
    · rw [pcState_setPcState, aggregate_setPcState]
      rfl
  · simpa [noteAggregate] using hon
  · rw [← h.2.2, ← hv]
    simp [noteAggregate, put_eq]

theorem setReceiving (h : Listening i channels x) (t : DtlsTransport σ)
    (ht : t.dtlsState = x.transport.dtlsState) :
    Listening i channels ⟨t, (slots i).onReceivingState t x.listener⟩ := by
  have hput := h.transport t ht
  have hsame : (put i ⟨t, x.listener⟩).updateState = put i ⟨t, x.listener⟩ := by
    rw [updateState_eq (w := put i ⟨t, x.listener⟩) h.2.1, setPcState_self hput.pcState]
  have hslot : (slots i).onReceivingState t x.listener = put i ⟨t, x.listener⟩ := by
    show (put i ⟨t, x.listener⟩).updateState.updateState = _
    rw [hsame, hsame]
  rw [hslot]
  refine ⟨?_, h.2⟩
  rw [put_of_set (by simp [put_eq])]
  exact hput

end Listening

theorem rule_listening (i : ℕ) (channels : List IceChannel) :
    Rule (slots (σ := σ) i) (Listening i channels) where
  setDtlsState x state h := by
    unfold Attached.setDtlsState
    split
    · exact h
    · exact h.setDtlsState _ state
  setReceiving x receiving h := by
    unfold Attached.setReceiving
    split
    · exact h
    · exact h.setReceiving _ rfl
  passOn x buf ts h := h
  beside x t ht h := ⟨h.transport t ht, h.2⟩

/-- What a method of a DTLS transport does leaves the controller settled and the channels
alone. -/
theorem Settled.onDtls (h : Settled w) {f : Attached σ (TransportController σ) →
    Attached σ (TransportController σ)}
    (hf : ∀ x, Listening i w.channels x → Listening i w.channels (f x)) :
    Settled (w.onDtls i f) ∧ (w.onDtls i f).channels = w.channels := by
  unfold TransportController.onDtls
  cases ht : w.dtls[i]? with
  | none => exact ⟨h, rfl⟩
  | some t =>
    have hset := set_of_getElem? ht
    have hon : w.dtlsOn = true := by
      by_contra hoff
      have hlength := h.length
      rw [if_neg hoff] at hlength
      simp [List.length_eq_zero_iff.mp hlength] at ht
    have hstart : Listening i w.channels ⟨t, w⟩ := ⟨by rwa [put_of_set hset], hon, rfl⟩
    have hdone := hf _ hstart
    exact ⟨hdone.1, hdone.2.2⟩

/-- The flags of a channel make no difference. -/
theorem Settled.setFlags (h : Settled w) {old new : IceChannel} (hold : w.channels[i]? = some old)
    (hstate : new.state = old.state) : Settled (w.setChannel i new) := by
  have hstates : (w.setChannel i new).iceStates = w.iceStates := by
    have hget : w.iceStates[i]? = some old.state := by simp [iceStates, hold]
    rw [iceStates, setChannel, List.map_set, hstate]
    exact set_of_getElem? hget
  have haggregate : (w.setChannel i new).aggregate = w.aggregate := by
    unfold aggregate
    rw [hstates]
    rfl
  refine ⟨⟨?_, ?_, h.last, h.signalled⟩, ?_, ?_⟩
  · rw [hstates]
    exact h.closed
  · simpa [setChannel] using h.length
  · rw [hstates]
    exact h.iceState
  · rw [haggregate]
    exact h.pcState

/-- The agent has nothing to do when no state changed. -/
theorem Settled.signalFlags (h : Settled w) {old : IceChannel} (hold : w.channels[i]? = some old)
    (new : IceChannel) (hstate : new.state = old.state) :
    Settled (w.setChannel i new).agentUpdateState ∧
      (w.setChannel i new).agentUpdateState.channels = w.channels.set i new := by
  have hflags := h.setFlags hold hstate
  rw [agentUpdateState_same hflags.iceState]
  exact ⟨hflags, rfl⟩

/-- A changed state of a channel is propagated. -/
theorem Settled.setChannelState (h : Settled w) {old new : IceChannel}
    (hold : w.channels[i]? = some old) (hclosed : new.state ≠ .closed) :
    Settled (w.setChannel i new).noteAggregate.agentUpdateState := by
  have hconsistent : Consistent (w.setChannel i new) := by
    refine ⟨?_, by simpa [setChannel] using h.length, h.last, h.signalled⟩
    rw [iceStates, setChannel, List.map_set]
    intro hmem
    rcases List.mem_or_eq_of_mem_set hmem with hmem | heq
    · exact h.closed hmem
    · exact hclosed heq.symm
  apply hconsistent.agentUpdateState
  · show w.pcState = if w.dtlsOn then combined w.iceState w.dtlsStates else pcStateOfIce w.iceState
    rw [h.pcState, h.aggregate_eq, h.iceState]
  · intro hnil
    have hlen : w.channels.length = 0 := by
      simpa [setChannel] using congrArg List.length hnil
    simp [List.length_eq_zero_iff.mp hlen] at hold

section Channel
variable {c : IceChannel} (h : Settled w) (hc : w.channels[i]? = some c)
include h hc

theorem Settled.setWritable (writable : Bool) :
    Settled (w.setWritable A i c writable) ∧ (w.setWritable A i c writable).channels =
      w.channels.set i (if c.writable = writable then c else c.withWritable writable) := by
  unfold TransportController.setWritable
  split
  · exact ⟨h, (set_of_getElem? hc).symm⟩
  · have ⟨hsettled, hchannels⟩ := h.signalFlags hc (c.withWritable writable) rfl
    have ⟨hdtls, hsame⟩ := hsettled.onDtls (i := i)
      fun x hx => (rule_listening i _).onWritableState (A := A) hx writable
    exact ⟨hdtls, hsame.trans hchannels⟩

theorem Settled.setReceiving (receiving : Bool) :
    Settled (w.setReceiving i c receiving) ∧
      (w.setReceiving i c receiving).channels = w.channels.set i { c with receiving } := by
  unfold TransportController.setReceiving
  split
  · rename_i hsame
    exact ⟨h, by rw [← hsame, set_of_getElem? hc]⟩
  · have ⟨hsettled, hchannels⟩ := h.signalFlags hc { c with receiving } rfl
    have ⟨hdtls, hsame⟩ := hsettled.onDtls (i := i)
      fun x hx => (rule_listening i _).onReceivingState hx receiving
    exact ⟨hdtls, hsame.trans hchannels⟩

theorem Settled.setState (hasConnection : Bool) :
    Settled (w.setState i c (c.computeIceTransportState hasConnection)) ∧
      (w.setState i c (c.computeIceTransportState hasConnection)).channels =
        w.channels.set i { c with state := c.computeIceTransportState hasConnection } := by
  unfold TransportController.setState
  split
  · refine ⟨h.setChannelState hc (c.computeIceTransportState_ne_closed hasConnection), ?_⟩
    apply channels_agentUpdateState
    intro hnil
    have hlen : w.channels.length = 0 := by
      simpa [noteAggregate, setChannel] using congrArg List.length hnil
    simp [List.length_eq_zero_iff.mp hlen] at hc
  · rename_i hsame
    exact ⟨h, by rw [not_not.mp hsame, set_of_getElem? hc]⟩

end Channel

/-- `_update_state` of a channel, with all that it sets off. -/
theorem Settled.channelUpdateState (h : Settled w) (seen : Connections) :
    Settled (w.channelUpdateState A i seen) ∧
      (w.channelUpdateState A i seen).channels = w.channels.modify i fun c => c.updated seen := by
  unfold TransportController.channelUpdateState
  cases hc : w.channels[i]? with
  | none =>
    have hnone : ∀ f, w.withChannel i f = w := by
      intro f
      simp [withChannel, hc]
    have hlen := List.getElem?_eq_none_iff.mp hc
    dsimp only
    rw [hnone, hnone, hnone, List.modify_eq_self hlen]
    exact ⟨h, rfl⟩
  | some c =>
    have hlt := (List.getElem?_eq_some_iff.mp hc).1
    have hread : ∀ (v : TransportController σ) (c' : IceChannel) (f : IceChannel → TransportController σ),
        v.channels = w.channels.set i c' → v.channels[i]? = some c' ∧ v.withChannel i f = f c' := by
      intro v c' f hv
      have hget : v.channels[i]? = some c' := by simp [hv, hlt]
      exact ⟨hget, by simp [withChannel, hget]⟩
    have h₀ := hread w c (fun c => w.setWritable A i c seen.selectedWritable) (set_of_getElem? hc).symm
    dsimp only
    rw [h₀.2]
    have ⟨hsettled₁, hchannels₁⟩ := h.setWritable (A := A) hc seen.selectedWritable
    generalize w.setWritable A i c seen.selectedWritable = w₁ at hsettled₁ hchannels₁ ⊢
    have h₁ := hread w₁ _ (fun c => w₁.setReceiving i c seen.receiving) hchannels₁
    rw [h₁.2]
    have ⟨hsettled₂, hchannels₂⟩ := hsettled₁.setReceiving h₁.1 seen.receiving
    generalize w₁.setReceiving i _ seen.receiving = w₂ at hsettled₂ hchannels₂ ⊢
    rw [hchannels₁, List.set_set] at hchannels₂
    have h₂ := hread w₂ _
      (fun c => w₂.setState i c (c.computeIceTransportState seen.active)) hchannels₂
    rw [h₂.2]
    have ⟨hsettled₃, hchannels₃⟩ := hsettled₂.setState h₂.1 seen.active
    refine ⟨hsettled₃, ?_⟩
    rw [hchannels₃, hchannels₂, List.set_set, List.modify_eq_set_getElem? , hc]
    rfl

end Methods

section Runs

theorem Settled.addConnection (h : Settled w) : Settled (w.addConnection i) := by
  unfold TransportController.addConnection withChannel
  cases hc : w.channels[i]? with
  | none => exact h
  | some c => exact h.setFlags hc rfl

theorem Settled.step (h : Settled w) (e : Event τ) : Settled (w.step A e) := by
  cases e with
  | addConnection i => exact h.addConnection
  | channelUpdateState i seen => exact (h.channelUpdateState seen).1
  | packet i data ts =>
    exact (h.onDtls fun x hx => (rule_listening i _).onReadPacket hx data ts).1
  | task i task => exact (h.onDtls fun x hx => (rule_listening i _).onTask hx task).1
  | setRemoteFingerprint i digestAlg digest =>
    exact (h.onDtls fun x hx => (rule_listening i _).setRemoteFingerprint hx digestAlg digest).1

theorem settled_start (dtlsOn : Bool) (n : ℕ) (srtpCiphers : List ℤ) (cert : Option ℕ) :
    Settled (start (σ := σ) dtlsOn n srtpCiphers cert) := by
  have hnew : iceStateOf (List.replicate n .new) = .new := by
    simp [iceStateOf, List.count_replicate]
  have hdtls : (start (σ := σ) dtlsOn n srtpCiphers cert).dtlsStates =
      if dtlsOn then List.replicate n .new else [] := by
    unfold dtlsStates start Attached.setLocalCertificate
    cases dtlsOn <;> cases cert <;> simp
  have hice : (start (σ := σ) dtlsOn n srtpCiphers cert).iceStates = List.replicate n .new := by
    simp [iceStates, start]
  have hlen : (start (σ := σ) dtlsOn n srtpCiphers cert).dtls.length = if dtlsOn then n else 0 := by
    cases dtlsOn <;> simp [start]
  have hconsistent : Consistent (start (σ := σ) dtlsOn n srtpCiphers cert) :=
    ⟨by simp [hice, List.mem_replicate], by simpa [start] using hlen, rfl, rfl⟩
  refine ⟨hconsistent, by rw [hice, hnew]; rfl, ?_⟩
  rw [hconsistent.aggregate_eq, hice, hnew, hdtls]
  cases dtlsOn with
  | false => rfl
  | true => simp [start, combined, List.count_replicate]

variable (A) in
/-- After any run the connection state is that of all transports' current states, and what was
signalled is each change of it. -/
theorem connection_state_current (dtlsOn : Bool) (n : ℕ) (srtpCiphers : List ℤ) (cert : Option ℕ)
    (es : List (Event τ)) :
    let w := Runs.run (step A) (start dtlsOn n srtpCiphers cert) es
    w.pcState = w.aggregate ∧ w.connectionStates = changes w.aggregates ∧
      w.aggregates.headD .new = w.aggregate := by
  have hrun : Settled (Runs.run (TransportController.step A) (start dtlsOn n srtpCiphers cert) es) := by
    generalize hw : start dtlsOn n srtpCiphers cert = w
    have hstart : Settled w := hw ▸ settled_start dtlsOn n srtpCiphers cert
    clear hw
    induction es generalizing w with
    | nil => exact hstart
    | cons e es ih => exact ih _ (hstart.step e)
  exact ⟨hrun.pcState, hrun.signalled, hrun.last.symm.trans hrun.pcState⟩

end Runs
end TransportController

/-- The flags of an ICE transport. -/
def flags (s : IceTransport) : IceChannel where
  writable := s.writable
  receiving := s.receiving
  state := s.state
  hadConnection := s.hadConnection
  hasBeenConnection := s.hasBeenConnection

/-- What an ICE transport's connections answer. -/
def seen (s : IceTransport) : Connections where
  selectedWritable := s.selectedWritable
  receiving := s.connections.any fun c => (s.conn c).receiving
  active := s.connections.any fun c => (s.conn c).active

/-- The flags of an ICE transport change as those of a channel of the controller do. -/
theorem flags_updateState (s : IceTransport) : flags s.updateState = (flags s).updated (seen s) := by
  have hset : ∀ (s : IceTransport) (state : IceTransportState),
      flags (s.setState state) = { flags s with state } := by
    intro s state
    unfold IceTransport.setState
    split
    · rfl
    · rename_i hsame
      rw [not_not.mp hsame]
      rfl
  unfold IceTransport.updateState IceTransport.setWritable IceChannel.updated
  dsimp only
  rw [hset]
  by_cases hsame : s.writable = s.selectedWritable
  · rw [if_pos hsame, if_pos (show (flags s).writable = (seen s).selectedWritable from hsame)]
    rfl
  · rw [if_neg hsame, if_neg (show (flags s).writable ≠ (seen s).selectedWritable from hsame)]
    rfl

end Controller
end XrtcServer
