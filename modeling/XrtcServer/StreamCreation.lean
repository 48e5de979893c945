import XrtcServer.RemoteSdp
import XrtcServer.StreamLifetimes

/-! The creation of streams from an offer: what `set_remote_sdp` and `create_answer` make of it,
and what the manager does when one of them fails. -/
namespace XrtcServer
namespace Stream
open ObjectHeap

/-- What a stream meets while it is created: whether there is a certificate, what its peer
connection signals, and what its local description prints. -/
structure PeerInput where
  certificate : Bool
  states : List PeerConnectionState := []
  localDesc : String := ""

/-- `PushStream` passes on whether it uses DTLS, `PullStream` leaves the option at its default. -/
def answerDtlsOn (type : RtcStreamType) (msg : RtcMsg) : Bool :=
  match type with
  | .push => decide (msg.dtlsOn ≠ 0)
  | .pull => true

def createAnswer (dtlsOn : Bool) (peer : PeerInput) : String :=
  if dtlsOn && !peer.certificate then "" else peer.localDesc

/-- The sources of a medium. A description that is not complete has no contents. -/
def getSource (remoteDesc : Except Sdp.Failure Sdp.SessionDescription) (mid : String) : List StreamParams :=
  match remoteDesc with
  | .ok desc =>
    match desc.getContent mid with
    | some content => content.streams
    | none => []
  | .error _ => []

/-- What the peer connection does for a new stream, nothing if an exception ends the process. -/
def peerOutcome (type : RtcStreamType) (msg : RtcMsg) (peer : PeerInput) : Option PeerOutcome :=
  let remoteDesc := Sdp.setRemoteSdp msg.sdp.toList
  if remoteDesc = .error .outOfRange then none
  else
    some { states := peer.states
           audioSource := getSource remoteDesc "audio"
           videoSource := getSource remoteDesc "video"
           answer := createAnswer (answerDtlsOn type msg) peer }

/-- The offer is not accepted, or there is no answer to it. -/
def Rejected (type : RtcStreamType) (msg : RtcMsg) (peer : PeerInput) : Prop :=
  (∃ failure, Sdp.setRemoteSdp msg.sdp.toList = .error failure) ∨ (answerDtlsOn type msg = true ∧ peer.certificate = false)

namespace RtcStreamManager

/-- A push stream is made whatever the peer connection does. -/
def requestPushStream (m : RtcStreamManager) (msg : RtcMsg) (peer : PeerInput) : Option (RtcStreamManager × ℤ × String) :=
  (peerOutcome .push msg peer).map (m.createPushStream msg)

/-- A pull stream is made if its push stream is there. -/
def requestPullStream (m : RtcStreamManager) (msg : RtcMsg) (peer : PeerInput) : Option (RtcStreamManager × ℤ × String) :=
  if (m.findPushStream msg.streamName).isNone then some (m.createPullStream msg {})
  else (peerOutcome .pull msg peer).map (m.createPullStream msg)

def requestStream (m : RtcStreamManager) (type : RtcStreamType) (msg : RtcMsg) (peer : PeerInput) :
    Option (RtcStreamManager × ℤ × String) :=
  match type with
  | .push => m.requestPushStream msg peer
  | .pull => m.requestPullStream msg peer

/-- The request returns an error and leaves maps and registered streams as they were. -/
def Refused (m : RtcStreamManager) (result : Option (RtcStreamManager × ℤ × String)) : Prop :=
  ∃ m' ret answer, result = some (m', ret, answer) ∧ ret ≠ 0 ∧ (∀ type, m'.streams type = m.streams type) ∧
    ∀ type streamName i, m.findStream type streamName = some i →
      m'.memory.get? i = m.memory.get? i ∧ (m'.memory.Alive i ↔ m.memory.Alive i)

theorem Keyed.run {m : RtcStreamManager} (h : m.Keyed) (es : List Event) : (Runs.run RtcStreamManager.step m es).Keyed := by
  induction es generalizing m with
  | nil => exact h
  | cons e es ih => exact ih (h.step e)

section Requests
variable {m : RtcStreamManager} {type : RtcStreamType} {msg : RtcMsg} {peer : PeerInput}

theorem createPullStream_result (h : m.Keyed) (outcome : PeerOutcome) (hsource : (m.findPushStream msg.streamName).isSome) :
    (m.createPullStream msg outcome).2.1 = 0 := by
  obtain ⟨i, hi⟩ := Option.isSome_iff_exists.mp hsource
  obtain ⟨-, push, hpush, -⟩ := h.registered .push msg.streamName i hi
  rw [createPullStream, hi, Option.bind_some, hpush]

/-- A request that gets past the search for a push stream returns zero. -/
theorem requestStream_result (h : m.Keyed) (hsource : type = .pull → (m.findPushStream msg.streamName).isSome)
    {m' : RtcStreamManager} {ret : ℤ} {answer : String} (hresult : m.requestStream type msg peer = some (m', ret, answer)) : ret = 0 := by
  cases type with
  | push =>
    obtain ⟨outcome, -, hcreate⟩ := Option.map_eq_some_iff.mp hresult
    exact (congrArg (fun result => result.2.1) hcreate).symm
  | pull =>
    have hsome := hsource rfl
    have hfound : ¬ (m.findPushStream msg.streamName).isNone = true := by
      rw [Option.isNone_iff_eq_none]
      exact Option.isSome_iff_ne_none.mp hsome
    rw [requestStream, requestPullStream, if_neg hfound] at hresult
    obtain ⟨outcome, -, hcreate⟩ := Option.map_eq_some_iff.mp hresult
    have hzero := createPullStream_result h outcome hsome
    rw [hcreate] at hzero
    exact hzero

/-- A pull request without its push stream leaves all as it is. -/
theorem requestPullStream_none (hnone : m.findPushStream msg.streamName = none) :
    m.requestPullStream msg peer = some (m, -1, "") := by
  rw [requestPullStream, hnone]
  simp [createPullStream, hnone]

/-- A push request with a bad offer takes the place of the stream before. -/
theorem requestPushStream_error (h : m.Keyed) (herror : Sdp.setRemoteSdp msg.sdp.toList = .error .error) :
    ∃ m' answer, m.requestPushStream msg peer = some (m', 0, answer) ∧ (m'.findPushStream msg.streamName).isSome ∧
      ∀ i, m.findPushStream msg.streamName = some i → ¬ m'.memory.Alive i := by
  have houtcome : ∃ outcome, peerOutcome .push msg peer = some outcome := by
    rw [peerOutcome, herror]
    exact ⟨_, if_neg (by decide)⟩
  obtain ⟨outcome, houtcome⟩ := houtcome
  obtain ⟨stream, -, -, -, hcreate⟩ := createPushStream_eq h msg outcome
  refine ⟨(m.createPushStream msg outcome).1, outcome.answer, ?_, ?_, ?_⟩
  · rw [requestPushStream, houtcome]
    rfl
  · rw [hcreate, findPushStream, findStream_addStream, if_pos ⟨rfl, rfl⟩]
    rfl
  · intro i hi
    have hlt := (h.registered .push msg.streamName i hi).1.1
    have hdrop : m.dropPushStream msg.streamName = m.dropStream .push msg.streamName i := by
      rw [dropPushStream, hi]
    rw [hcreate, (h.dropPushStream msg.streamName).alive_addStream, size_dropPushStream, hdrop, memory_dropStream, Heap.alive_free]
    rintro (rfl | ⟨-, hne⟩)
    · exact hlt.false
    · exact hne rfl

end Requests

/-- A rejected request is refused exactly if it is a pull request without a push stream. -/
theorem refused_requestStream_iff (es : List Event) (type : RtcStreamType) (msg : RtcMsg) (peer : PeerInput) :
    let m := Runs.run step {} es
    (Rejected type msg peer → m.Refused (m.requestStream type msg peer)) ↔
      (Rejected type msg peer → type = .pull ∧ m.findPushStream msg.streamName = none) := by
  intro m
  have hkeyed : m.Keyed := keyed_empty.run es
  refine forall_congr' fun _ => ⟨fun hrefused => ?_, ?_⟩
  · obtain ⟨m', ret, answer, hresult, hret, -⟩ := hrefused
    by_contra hnot
    refine hret (requestStream_result hkeyed (fun hpull => ?_) hresult)
    rw [Option.isSome_iff_ne_none]
    exact fun hnone => hnot ⟨hpull, hnone⟩
  · rintro ⟨rfl, hnone⟩
    exact ⟨m, -1, "", requestPullStream_none hnone, by decide, fun _ => rfl, fun _ _ _ _ => ⟨rfl, Iff.rfl⟩⟩

/-- An offer without a line. -/
theorem empty_offer_not_refused :
    let m := Runs.run step {} [.createPush { streamName := "a", uid := 1 } {}]
    let msg : RtcMsg := { streamName := "a", uid := 2 }
    Rejected .push msg { certificate := true } ∧ ¬ m.Refused (m.requestStream .push msg { certificate := true }) := by
  refine ⟨.inl ⟨.error, by decide⟩, ?_⟩
  rintro ⟨m', ret, answer, hresult, hret, -⟩
  have hzero : (Option.map (fun result : RtcStreamManager × ℤ × String => result.2.1) (some (m', ret, answer))) = some 0 := by
    rw [← hresult]
    rfl
  exact hret (Option.some.inj hzero)

end RtcStreamManager
end Stream
end XrtcServer
