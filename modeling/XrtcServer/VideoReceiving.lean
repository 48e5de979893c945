import XrtcServer.NackInvariants
import XrtcServer.ReportRotation
import XrtcServer.RtpPacket
import Mathlib.Data.List.Chain

/-! The RTP packets of a peer connection on their way to the receive streams, their statistics and the
NACK requester. -/
namespace XrtcServer
namespace Rtp
open ByteFormat (Bytes)
open XrtcServer.Video (NackRequester)

def RTCP_MAX_REPORT_BLOCKS : ℕ := 31

/-- What the statistics read; the frequency of the payload type is never set. -/
def RtpPacket.received (p : RtpPacket) : RtpPacketReceived where
  ssrc := p.ssrc
  sequenceNumber := p.sequenceNumber
  timestamp := p.timestamp
  headerSize := p.payloadOffset
  payloadSize := p.payloadSize
  paddingSize := p.paddingSize

/-- `Parse` into a new packet. -/
def parsePacket (packet : Bytes) : RtpPacket × Bool :=
  (RtpPacket.make kDefaultRtpCapacity fun _ => 0).parse packet kDefaultRtpCapacity fun _ => 0

structure VideoReceiveStreamConfig where
  remoteSsrc : UInt32
  rtxSsrc : UInt32 := 0

structure VideoReceiveStream where
  remoteSsrc : UInt32
  rtpReceiveStatistics : ReceiveStatistics
  nackModule : NackRequester

namespace VideoReceiveStream

def create (config : VideoReceiveStreamConfig) : VideoReceiveStream :=
  let statistics : ReceiveStatistics := {}
  let statistics :=
    if config.rtxSsrc = 0 then statistics.enableRetransmitDetection config.remoteSsrc true else statistics
  { remoteSsrc := config.remoteSsrc
    rtpReceiveStatistics := statistics.setMaxReorderingThresholdOf config.remoteSsrc kDefaultMaxReorderingThreshold
    nackModule := {} }

inductive ExtensionType
  | dependencyDescriptor | genericFrameDescriptor00

/-- No extension is registered in the map of a received packet. -/
def getId : ExtensionType → UInt8 := fun _ => 0

/-- What `ParseGenericDependenciesExtension` finds out, where it finds a descriptor. -/
def hasDescriptor (packet : RtpPacket) : Bool :=
  packet.hasExtension getId .dependencyDescriptor || packet.findExtension getId .genericFrameDescriptor00 ≠ []

/-- Without a descriptor the packet is not one of a key frame, and it is never marked as recovered. -/
def deliverRtp (env : ReceiveEnvironment) (nackEnv : Video.Environment) (s : VideoReceiveStream) (packet : Bytes)
    (nowMs : ℕ) : Except Fault VideoReceiveStream := do
  let rtpPacket := (parsePacket packet).1
  let statistics ← s.rtpReceiveStatistics.onRtpPacket env rtpPacket.received nowMs
  let s := { s with rtpReceiveStatistics := statistics }
  if s.remoteSsrc = rtpPacket.ssrc then
    let nackModule := { s.nackModule with clock := nowMs }
    return { s with nackModule := (nackModule.onReceivedPacket nackEnv rtpPacket.sequenceNumber false false).1 }
  else return s

end VideoReceiveStream

/-- The side of `PeerConnection` that receives. An audio stream has nothing but statistics. -/
structure PeerConnection where
  remoteAudioSsrc : UInt32 := 0
  remoteVideoSsrc : UInt32 := 0
  remoteVideoRtxSsrc : UInt32 := 0
  audioRecvStream : Option ReceiveStatistics := none
  videoRecvStream : Option VideoReceiveStream := none

namespace PeerConnection

/-- The receive streams for the SSRCs of the first audio and of the first video track. -/
def create (audioSsrcs videoSsrcs : List UInt32) : PeerConnection :=
  let pc : PeerConnection := {}
  let pc := match audioSsrcs with
    | [] => pc
    | ssrc :: _ =>
      { pc with remoteAudioSsrc := ssrc
                audioRecvStream := some (ReceiveStatistics.setMaxReorderingThresholdOf {} ssrc kDefaultMaxReorderingThreshold) }
  match videoSsrcs with
  | [] => pc
  | [ssrc] => { pc with remoteVideoSsrc := ssrc, videoRecvStream := some (.create { remoteSsrc := ssrc }) }
  | ssrc :: rtxSsrc :: _ =>
    { pc with remoteVideoSsrc := ssrc, remoteVideoRtxSsrc := rtxSsrc
              videoRecvStream := some (.create { remoteSsrc := ssrc, rtxSsrc }) }

variable (env : ReceiveEnvironment) (nackEnv : Video.Environment)

def onRtpPacketReceived (pc : PeerConnection) (packet : Bytes) (nowMs : ℕ) : Except Fault PeerConnection :=
  let (rtpPacket, success) := parsePacket packet
  if !success then .ok pc
  else if pc.remoteAudioSsrc = rtpPacket.ssrc then
    match pc.audioRecvStream with
    | none => .ok pc
    | some audio => do
      let audio ← audio.onRtpPacket env (parsePacket packet).1.received nowMs
      return { pc with audioRecvStream := some audio }
  else if pc.remoteVideoSsrc = rtpPacket.ssrc ∨ pc.remoteVideoRtxSsrc = rtpPacket.ssrc then
    match pc.videoRecvStream with
    | none => .ok pc
    | some video => do
      let video ← video.deliverRtp env nackEnv packet nowMs
      return { pc with videoRecvStream := some video }
  else .ok pc

/-- A packet comes in, or it is time for a report of one of the streams. -/
inductive Event
  | rtpPacket (packet : Bytes) (nowMs : ℕ)
  | audioReport (nowMs : ℕ)
  | videoReport (nowMs : ℕ)

def step (pc : PeerConnection) : Event → Except Fault PeerConnection
  | .rtpPacket packet nowMs => pc.onRtpPacketReceived env nackEnv packet nowMs
  | .audioReport nowMs => .ok { pc with
      audioRecvStream := pc.audioRecvStream.map fun s => (s.rtcpReportBlocks RTCP_MAX_REPORT_BLOCKS nowMs).2 }
  | .videoReport nowMs => .ok { pc with
      videoRecvStream := pc.videoRecvStream.map fun v => { v with
        rtpReceiveStatistics := (v.rtpReceiveStatistics.rtcpReportBlocks RTCP_MAX_REPORT_BLOCKS nowMs).2 } }

def run (pc : PeerConnection) (es : List Event) : Except Fault PeerConnection := es.foldlM (step env nackEnv) pc

end PeerConnection

namespace StreamStatistician
variable {env : ReceiveEnvironment} {s s' : StreamStatistician} {packet : RtpPacketReceived} {nowMs : ℤ}

theorem updateCounters_received (h : s.receivedRtpPacket = true) : s.updateCounters env packet nowMs =
    ((s.countReceived packet nowMs).updateOutOfOrder env packet (s.extended env packet) nowMs).map fun result =>
      if result.1 then result.2 else result.2.updateInOrder packet (s.extended env packet) nowMs := by
  have hsome : (s.countReceived packet nowMs).receivedRtpPacket = true := h
  rw [updateCounters]
  dsimp only
  rw [hsome, if_neg (by decide)]
  rfl

theorem updateOutOfOrder_ok (env : ReceiveEnvironment) (h : s.enableRetransmitDetection = false) (packet : RtpPacketReceived)
    (n nowMs : ℤ) :
    ∃ result, s.updateOutOfOrder env packet n nowMs = .ok result := by
  rw [updateOutOfOrder]
  dsimp only
  split
  · exact ⟨_, rfl⟩
  split
  · exact ⟨_, rfl⟩
  split
  · exact ⟨_, rfl⟩
  · have hkept : s.countPostponed.enableRetransmitDetection = false := by
      rw [countPostponed]
      split <;> exact h
    rw [hkept, if_neg (by decide)]
    exact ⟨_, rfl⟩

/-- Without the detection of retransmissions nothing is divided. -/
theorem updateCounters_ok (env : ReceiveEnvironment) (h : s.enableRetransmitDetection = false) (packet : RtpPacketReceived)
    (nowMs : ℤ) :
    ∃ s', s.updateCounters env packet nowMs = .ok s' := by
  cases hreceived : s.receivedRtpPacket with
  | false =>
    have hnone : (s.countReceived packet nowMs).receivedRtpPacket = false := hreceived
    rw [updateCounters]
    dsimp only
    rw [hnone, if_pos (by decide)]
    exact ⟨_, rfl⟩
  | true =>
    have hkept : (s.countReceived packet nowMs).enableRetransmitDetection = false := h
    obtain ⟨result, hresult⟩ := updateOutOfOrder_ok env hkept packet (s.extended env packet) nowMs
    rw [updateCounters_received hreceived, hresult]
    exact ⟨_, rfl⟩

theorem counted_detection (s : StreamStatistician) (packet : RtpPacketReceived) (nowMs : ℤ) :
    (s.counted packet nowMs).enableRetransmitDetection = s.enableRetransmitDetection := by
  rw [counted, countPostponed]
  split <;> rfl

theorem counts_detection (h : Counts env s packet nowMs s') : s'.enableRetransmitDetection = s.enableRetransmitDetection := by
  have hcounted := counted_detection s packet nowMs
  cases h with
  | first hnone =>
    rw [updateInOrder_eq]
    rfl
  | restart hsome hnext =>
    rw [updateInOrder_eq]
    exact hcounted
  | jump hsome hfar => exact hcounted
  | ahead hsome hnear hlt =>
    rw [updateInOrder_eq]
    exact hcounted
  | late hsome hnear hle retransmitted => exact hcounted

/-- With the detection, and no frequency to divide by, a packet has to be ahead of the others. -/
theorem updateCounters_ok_iff {threshold : ℤ} {first top n : ℕ} (h : Straight threshold first top s)
    (hthreshold : threshold < 32768) (hnear : |(n : ℤ) - top| ≤ threshold)
    (hseq : packet.sequenceNumber = UInt16.ofNat n) (hdetection : s.enableRetransmitDetection = true)
    (hfrequency : packet.payloadTypeFrequency = 0) : (∃ s', s.updateCounters env packet nowMs = .ok s') ↔ top < n := by
  have heq : s.extended env packet = n := h.extended_eq hthreshold hnear hseq
  have hgap : (s.countReceived packet nowMs).receivedSeqOutOfOrder.map (· + 1) ≠ some packet.sequenceNumber := by
    have hnone : (s.countReceived packet nowMs).receivedSeqOutOfOrder = none := h.outOfOrder
    simp [hnone]
  have hnear' : |(n : ℤ) - (s.countReceived packet nowMs).receivedSeqMax| ≤
      (s.countReceived packet nowMs).maxReorderingThreshold := by
    have hmax : (s.countReceived packet nowMs).receivedSeqMax = top := h.max_eq
    have hkept : (s.countReceived packet nowMs).maxReorderingThreshold = threshold := h.threshold_eq
    rwa [hmax, hkept]
  have hmax : (s.countReceived packet nowMs).receivedSeqMax = top := h.max_eq
  rw [updateCounters_received h.begun.receivedRtpPacket, heq]
  constructor
  · rintro ⟨s', hresult⟩
    by_contra hle
    rw [updateOutOfOrder] at hresult
    dsimp only at hresult
    have hkept : (s.countReceived packet nowMs).countPostponed.enableRetransmitDetection = true :=
      (counted_detection s packet nowMs).trans hdetection
    rw [if_neg hgap, if_neg (by simpa using hnear'), if_neg (by simp [hmax]; omega), if_pos hkept] at hresult
    rw [isRetransmitOfOldPacket, hfrequency, if_pos (by decide)] at hresult
    cases hresult
  · intro hlt
    rw [updateOutOfOrder_ahead hgap hnear' (by omega)]
    exact ⟨_, rfl⟩

/-- What the next packet of a stream is counted against: nothing has come, or nothing has jumped and this is
the highest number. -/
def Expecting (threshold : ℤ) : Option ℕ → StreamStatistician → Prop
  | none, s => s.Sound ∧ s.Fresh ∧ s.maxReorderingThreshold = threshold
  | some top, s => ∃ first, Straight threshold first top s

/-- The numbers that are still to come are within reach. -/
def Reachable (threshold : ℤ) : Option ℕ → List ℕ → Prop
  | _, [] => True
  | none, n :: ns => n < 65536 ∧ WithinReach threshold n ns
  | some top, ns => WithinReach threshold top ns

theorem Expecting.report {threshold : ℤ} {top : Option ℕ} (h : Expecting threshold top s) (nowMs : ℤ) :
    Expecting threshold top (s.maybeAppendReportBlockAndReset nowMs).2 := by
  have hstep : step closestEnvironment s (.report nowMs) = .ok (s.maybeAppendReportBlockAndReset nowMs).2 := rfl
  cases top with
  | none =>
    obtain ⟨hsound, hfresh, hthreshold⟩ := h
    have hsound' := hsound.step hstep
    obtain ⟨offset, capped, loss, seqMax, heq⟩ := report_eq s nowMs
    rw [heq] at hsound' ⊢
    exact ⟨hsound', ⟨hfresh.first_eq, hfresh.unwrapper, hfresh.spans, hfresh.outOfOrder, hfresh.received⟩, hthreshold⟩
  | some top =>
    obtain ⟨first, hstraight⟩ := h
    exact ⟨first, hstraight.of_other rfl rfl hstep⟩

theorem report_detection (s : StreamStatistician) (nowMs : ℤ) :
    (s.maybeAppendReportBlockAndReset nowMs).2.enableRetransmitDetection = s.enableRetransmitDetection := by
  obtain ⟨offset, capped, loss, seqMax, heq⟩ := report_eq s nowMs
  rw [heq]

/-- The next packet is counted exactly if its number is the highest one. -/
theorem Expecting.next (env : ReceiveEnvironment) (nowMs : ℤ) {threshold : ℤ} {top : Option ℕ} {n : ℕ} {ns : List ℕ} (h : Expecting threshold top s)
    (hthreshold : threshold < 32768) (hreach : Reachable threshold top (n :: ns))
    (hseq : packet.sequenceNumber = UInt16.ofNat n) (hdetection : s.enableRetransmitDetection = true)
    (hfrequency : packet.payloadTypeFrequency = 0) :
    ((∃ s', s.updateCounters env packet nowMs = .ok s') ↔ ∀ m ∈ top, m < n) ∧
      ∀ s', s.updateCounters env packet nowMs = .ok s' → (∀ m ∈ top, m < n) →
        Expecting threshold (some n) s' ∧ Reachable threshold (some n) ns ∧ s'.enableRetransmitDetection = true := by
  cases top with
  | none =>
    obtain ⟨hsound, hfresh, hinit⟩ := h
    have hnone : (s.countReceived packet nowMs).receivedRtpPacket = false := hfresh.receivedRtpPacket
    have hok : ∃ s', s.updateCounters env packet nowMs = .ok s' := by
      rw [updateCounters]
      dsimp only
      rw [hnone, if_pos (by decide)]
      exact ⟨_, rfl⟩
    refine ⟨⟨fun _ m hm => (by cases hm), fun _ => hok⟩, fun s' hs' _ => ?_⟩
    have hcounts := counts_of_updateCounters hs'
    refine ⟨⟨n, straight_first hsound hfresh hreach.1 hinit hseq hcounts⟩, ?_, (counts_detection hcounts).trans hdetection⟩
    cases ns with
    | nil => trivial
    | cons m ms => exact hreach.2
  | some top =>
    obtain ⟨first, hstraight⟩ := h
    refine ⟨(updateCounters_ok_iff hstraight hthreshold hreach.1 hseq hdetection hfrequency).trans (by simp),
      fun s' hs' hlt => ?_⟩
    have hcounts := counts_of_updateCounters hs'
    have hmax : max top n = n := max_eq_right (hlt top rfl).le
    have hnext := hstraight.counts hthreshold hreach.1 hseq hcounts
    have hrest := hreach.2
    rw [hmax] at hnext hrest
    refine ⟨⟨first, hnext⟩, ?_, (counts_detection hcounts).trans hdetection⟩
    cases ns with
    | nil => trivial
    | cons m ms => exact hrest

end StreamStatistician

namespace ReceiveStatistics
variable {env : ReceiveEnvironment} {s s' : ReceiveStatistics} {packet : RtpPacketReceived} {nowMs : ℤ}
  {watched : Option UInt32}

/-- What a report of one stream keeps, and a place in the list, is kept by the reports of all. -/
theorem reportBlocks_ind {P : ReceiveStatistics → Prop} {maxBlocks : ℕ}
    (hstore : ∀ s ssrc impl, P s → s.statisticians ssrc = some impl →
      P (s.store ssrc (impl.maybeAppendReportBlockAndReset nowMs).2))
    (hindex : ∀ s i, P s → P { s with lastReturnedSsrcIdx := i }) (h : P s) :
    P (s.rtcpReportBlocks maxBlocks nowMs).2 := by
  have hloop : ∀ is c, P c.statistics → P (Collecting.loop maxBlocks nowMs is c).statistics := by
    intro is
    induction is with
    | nil => exact fun _ hc => hc
    | cons i is ih =>
      intro c hc
      rw [Collecting.loop]
      split
      · refine ih _ ?_
        rw [Collecting.round]
        dsimp only
        split
        · exact hc
        · rename_i impl hsome
          exact hstore _ _ impl hc hsome
      · exact hc
  exact hindex _ _ (hloop _ ⟨s, [], 0⟩ h)

/-- Retransmissions are detected in one stream at most. -/
def Quiet (watched : Option UInt32) (s : ReceiveStatistics) : Prop :=
  ∀ ssrc impl, s.statisticians ssrc = some impl → some ssrc ≠ watched → impl.enableRetransmitDetection = false

theorem Quiet.store {ssrc : UInt32} {impl : StreamStatistician} (h : Quiet watched s)
    (himpl : some ssrc ≠ watched → impl.enableRetransmitDetection = false) : Quiet watched (s.store ssrc impl) := by
  intro other found hfound hother
  cases update_eq_some hfound with
  | inl hhere =>
    obtain ⟨rfl, rfl⟩ := hhere
    exact himpl hother
  | inr hthere => exact h other found hthere hother

theorem Quiet.getOrCreate (h : Quiet watched s) (ssrc : UInt32) : Quiet watched (s.getOrCreateStatistician ssrc).2 ∧
    (some ssrc ≠ watched → (s.getOrCreateStatistician ssrc).1.enableRetransmitDetection = false) := by
  rw [getOrCreateStatistician]
  cases hfind : s.statisticians ssrc with
  | some impl => exact ⟨h, h ssrc impl hfind⟩
  | none => exact ⟨Quiet.store h fun _ => rfl, fun _ => rfl⟩

theorem Quiet.report (h : Quiet watched s) (maxBlocks : ℕ) (nowMs : ℤ) :
    Quiet watched (s.rtcpReportBlocks maxBlocks nowMs).2 := by
  refine reportBlocks_ind (P := Quiet watched) (fun s ssrc impl hs hsome => hs.store fun hother => ?_) (fun _ _ hs => hs) h
  rw [StreamStatistician.report_detection]
  exact hs ssrc impl hsome hother

/-- Other streams than the one that is watched never fail. -/
theorem Quiet.onRtpPacket (env : ReceiveEnvironment) (nowMs : ℤ) (h : Quiet watched s) (hother : some packet.ssrc ≠ watched) :
    ∃ s', s.onRtpPacket env packet nowMs = .ok s' ∧ Quiet watched s' ∧
      ∀ ssrc ∈ watched, s'.statisticians ssrc = s.statisticians ssrc := by
  obtain ⟨hquiet, hfalse⟩ := h.getOrCreate packet.ssrc
  obtain ⟨impl, himpl⟩ := StreamStatistician.updateCounters_ok env (hfalse hother) packet nowMs
  refine ⟨(s.getOrCreateStatistician packet.ssrc).2.store packet.ssrc impl, ?_, hquiet.store fun _ => ?_, fun ssrc hssrc => ?_⟩
  · rw [ReceiveStatistics.onRtpPacket]
    dsimp only
    rw [himpl]
    rfl
  · exact (StreamStatistician.counts_detection (StreamStatistician.counts_of_updateCounters himpl)).trans (hfalse hother)
  · have hne : ssrc ≠ packet.ssrc := by
      rintro rfl
      exact hother hssrc.symm
    rw [store_other _ _ hne, getOrCreateStatistician]
    split
    · rfl
    · exact Function.update_of_ne hne ..

/-- A packet of a stream that is there. -/
theorem onRtpPacket_eq {impl : StreamStatistician} (hsome : s.statisticians packet.ssrc = some impl) :
    s.onRtpPacket env packet nowMs = (impl.updateCounters env packet nowMs).map (s.store packet.ssrc) := by
  rw [onRtpPacket, getOrCreateStatistician, hsome]
  rfl

end ReceiveStatistics

namespace VideoReceiveStream

/-- A packet is counted, and after that nothing fails. -/
theorem deliverRtp_eq (env : ReceiveEnvironment) (nackEnv : Video.Environment) (s : VideoReceiveStream) (packet : Bytes)
    (nowMs : ℕ) : ∃ f : ReceiveStatistics → VideoReceiveStream,
    s.deliverRtp env nackEnv packet nowMs =
      (s.rtpReceiveStatistics.onRtpPacket env (parsePacket packet).1.received nowMs).map f ∧
    ∀ statistics, (f statistics).remoteSsrc = s.remoteSsrc ∧ (f statistics).rtpReceiveStatistics = statistics := by
  by_cases heq : s.remoteSsrc = (parsePacket packet).1.ssrc
  · refine ⟨fun statistics => { s with
      rtpReceiveStatistics := statistics
      nackModule := (NackRequester.onReceivedPacket nackEnv { s.nackModule with clock := nowMs }
        (parsePacket packet).1.sequenceNumber false false).1 }, ?_, fun _ => ⟨rfl, rfl⟩⟩
    rw [deliverRtp]
    simp only [if_pos heq]
    rfl
  · refine ⟨fun statistics => { s with rtpReceiveStatistics := statistics }, ?_, fun _ => ⟨rfl, rfl⟩⟩
    rw [deliverRtp]
    simp only [if_neg heq]
    rfl

end VideoReceiveStream

namespace PeerConnection
variable {env : ReceiveEnvironment} {nackEnv : Video.Environment} {pc pc' : PeerConnection} {v : UInt32}
  {impl impl' : StreamStatistician}

/-- The packet of an event if it is one of the video stream. -/
def videoPacket (v : UInt32) : Event → Option RtpPacketReceived
  | .rtpPacket packet _ => if (parsePacket packet).2 ∧ (parsePacket packet).1.ssrc = v then some (parsePacket packet).1.received else none
  | _ => none

/-- No stream detects retransmissions, but for the video stream if it is watched. -/
structure Quiet (watched : Option UInt32) (pc : PeerConnection) : Prop where
  audioSsrc : some pc.remoteAudioSsrc ≠ watched
  audio : ∀ s ∈ pc.audioRecvStream, s.Quiet none
  video : ∀ s ∈ pc.videoRecvStream, s.rtpReceiveStatistics.Quiet watched

/-- The statistics of the video stream that is watched. -/
def Watches (v : UInt32) (impl : StreamStatistician) (pc : PeerConnection) : Prop :=
  pc.remoteVideoSsrc = v ∧ ∃ s ∈ pc.videoRecvStream, s.rtpReceiveStatistics.statisticians v = some impl

theorem Quiet.setAudio {watched : Option UInt32} {audio : ReceiveStatistics} (h : Quiet watched pc) (haudio : audio.Quiet none) :
    Quiet watched { pc with audioRecvStream := some audio } :=
  ⟨h.audioSsrc, fun _ hs => Option.some.inj hs ▸ haudio, h.video⟩

theorem Quiet.setVideo {watched : Option UInt32} {video : VideoReceiveStream} (h : Quiet watched pc)
    (hvideo : video.rtpReceiveStatistics.Quiet watched) : Quiet watched { pc with videoRecvStream := some video } :=
  ⟨h.audioSsrc, h.audio, fun _ hs => Option.some.inj hs ▸ hvideo⟩

/-- So many reports of one stream. -/
def reported (impl : StreamStatistician) (times : List ℤ) : StreamStatistician :=
  times.foldl (fun impl nowMs => (impl.maybeAppendReportBlockAndReset nowMs).2) impl

theorem reported_statistician {s : ReceiveStatistics} (maxBlocks : ℕ) (nowMs : ℤ) (h : s.statisticians v = some impl) :
    ∃ times, (s.rtcpReportBlocks maxBlocks nowMs).2.statisticians v = some (reported impl times) := by
  refine ReceiveStatistics.reportBlocks_ind (P := fun s => ∃ times, s.statisticians v = some (reported impl times))
    (fun s ssrc found hs hfound => ?_) (fun _ _ hs => hs) ⟨[], h⟩
  obtain ⟨times, hsome⟩ := hs
  by_cases heq : v = ssrc
  · subst heq
    obtain rfl := Option.some.inj (hsome.symm.trans hfound)
    refine ⟨times ++ [nowMs], ?_⟩
    rw [ReceiveStatistics.store_same, reported, reported, List.foldl_append]
    rfl
  · rw [ReceiveStatistics.store_other _ _ heq]
    exact ⟨times, hsome⟩

/-- Any event but a packet of the watched stream does not fail, and makes reports of it at most. -/
theorem Quiet.other (env : ReceiveEnvironment) (nackEnv : Video.Environment) {watched : Option UInt32} {e : Event}
    (h : Quiet watched pc)
    (hother : ∀ v ∈ watched, videoPacket v e = none) :
    ∃ pc', step env nackEnv pc e = .ok pc' ∧ Quiet watched pc' ∧ ∀ v ∈ watched, ∀ impl, Watches v impl pc →
      ∃ times, Watches v (reported impl times) pc' := by
  have hsame : ∀ v ∈ watched, ∀ impl, Watches v impl pc → ∃ times, Watches v (reported impl times) pc :=
    fun _ _ _ hwatches => ⟨[], hwatches⟩
  cases e with
  | rtpPacket packet nowMs =>
    rw [step, onRtpPacketReceived]
    dsimp only
    by_cases hsuccess : (parsePacket packet).2 = true
    · rw [hsuccess, if_neg (by decide)]
      by_cases haudio : pc.remoteAudioSsrc = (parsePacket packet).1.ssrc
      · rw [if_pos haudio]
        cases hstream : pc.audioRecvStream with
        | none => exact ⟨pc, rfl, h, hsame⟩
        | some audio =>
          have hne : some (parsePacket packet).1.received.ssrc ≠ none := Option.some_ne_none _
          obtain ⟨audio', hok, hquiet, -⟩ := (h.audio audio hstream).onRtpPacket env nowMs hne
          dsimp only
          rw [hok]
          exact ⟨_, rfl, h.setAudio hquiet, hsame⟩
      · rw [if_neg haudio]
        split
        · cases hstream : pc.videoRecvStream with
          | none => exact ⟨pc, rfl, h, hsame⟩
          | some video =>
            have hne : some (parsePacket packet).1.received.ssrc ≠ watched := by
              rintro rfl
              have hnone := hother _ rfl
              rw [videoPacket, if_pos ⟨hsuccess, rfl⟩] at hnone
              cases hnone
            obtain ⟨statistics, hok, hquiet, hkept⟩ := (h.video video hstream).onRtpPacket env nowMs hne
            obtain ⟨f, hdeliver, hf⟩ := VideoReceiveStream.deliverRtp_eq env nackEnv video packet nowMs
            dsimp only
            rw [hdeliver, hok]
            have hvideo : (f statistics).rtpReceiveStatistics.Quiet watched := (hf statistics).2.symm ▸ hquiet
            refine ⟨_, rfl, h.setVideo hvideo, fun v hv impl hwatches => ⟨[], hwatches.1, f statistics, rfl, ?_⟩⟩
            obtain ⟨s, hs, hsome⟩ := hwatches.2
            obtain rfl := Option.some.inj (hstream.symm.trans hs)
            rw [(hf statistics).2, hkept v hv]
            exact hsome
        · exact ⟨pc, rfl, h, hsame⟩
    · have hfailed : (parsePacket packet).2 = false := by simpa using hsuccess
      rw [hfailed, if_pos (by decide)]
      exact ⟨pc, rfl, h, hsame⟩
  | audioReport nowMs =>
    refine ⟨_, rfl, ⟨h.audioSsrc, fun s hs => ?_, h.video⟩, hsame⟩
    obtain ⟨audio, haudio, rfl⟩ := Option.map_eq_some_iff.mp hs
    exact (h.audio audio haudio).report _ _
  | videoReport nowMs =>
    refine ⟨_, rfl, ⟨h.audioSsrc, h.audio, fun s hs => ?_⟩, fun v _ impl hwatches => ?_⟩
    · obtain ⟨video, hvideo, rfl⟩ := Option.map_eq_some_iff.mp hs
      exact (h.video video hvideo).report _ _
    · obtain ⟨hssrc, s, hs, hsome⟩ := hwatches
      obtain ⟨times, hreported⟩ := reported_statistician RTCP_MAX_REPORT_BLOCKS nowMs hsome
      exact ⟨times, hssrc, _, Option.map_eq_some_iff.mpr ⟨s, hs, rfl⟩, hreported⟩

/-- A packet of the watched stream fails exactly if it cannot be counted there. -/
theorem Quiet.watched (env : ReceiveEnvironment) (nackEnv : Video.Environment) {packet : Bytes} {nowMs : ℕ} {received : RtpPacketReceived} (h : Quiet (some v) pc)
    (hwatches : Watches v impl pc) (hvideo : videoPacket v (.rtpPacket packet nowMs) = some received) :
    ((∃ pc', step env nackEnv pc (.rtpPacket packet nowMs) = .ok pc') ↔
      ∃ impl', impl.updateCounters env received nowMs = .ok impl') ∧
    ∀ pc', step env nackEnv pc (.rtpPacket packet nowMs) = .ok pc' → Quiet (some v) pc' ∧
      ∃ impl', impl.updateCounters env received nowMs = .ok impl' ∧ Watches v impl' pc' := by
  obtain ⟨hssrc, s, hs, hsome⟩ := hwatches
  rw [videoPacket] at hvideo
  split at hvideo
  · rename_i hmine
    obtain ⟨hsuccess, hv⟩ := hmine
    obtain rfl := Option.some.inj hvideo
    have haudio : pc.remoteAudioSsrc ≠ (parsePacket packet).1.ssrc := by
      rw [hv]
      exact fun heq => h.audioSsrc (congrArg some heq)
    have hcount : s.rtpReceiveStatistics.onRtpPacket env (parsePacket packet).1.received nowMs =
        (impl.updateCounters env (parsePacket packet).1.received nowMs).map (s.rtpReceiveStatistics.store v) := by
      have hnamed : (parsePacket packet).1.received.ssrc = v := hv
      rw [ReceiveStatistics.onRtpPacket_eq (hnamed.symm ▸ hsome), hnamed]
    obtain ⟨f, hdeliver, hf⟩ := VideoReceiveStream.deliverRtp_eq env nackEnv s packet nowMs
    have hstep : step env nackEnv pc (.rtpPacket packet nowMs) =
        (impl.updateCounters env (parsePacket packet).1.received nowMs).map fun impl' =>
          { pc with videoRecvStream := some (f (s.rtpReceiveStatistics.store v impl')) } := by
      rw [step, onRtpPacketReceived]
      dsimp only
      rw [hsuccess, if_neg (by decide), if_neg haudio, if_pos (.inl (hssrc.trans hv.symm)), hs]
      dsimp only
      rw [hdeliver, hcount]
      cases impl.updateCounters env (parsePacket packet).1.received nowMs <;> rfl
    rw [hstep]
    cases hresult : impl.updateCounters env (parsePacket packet).1.received nowMs with
    | error fault => exact ⟨by simp [Except.map], fun pc' hpc' => by cases hpc'⟩
    | ok impl' =>
      refine ⟨⟨fun _ => ⟨impl', rfl⟩, fun _ => ⟨_, rfl⟩⟩, fun pc' hpc' => ?_⟩
      obtain rfl := Except.ok.inj hpc'
      have hstored : (s.rtpReceiveStatistics.store v impl').Quiet (some v) :=
        (h.video s hs).store fun hne => absurd rfl hne
      refine ⟨h.setVideo ((hf _).2.symm ▸ hstored), impl', rfl, hssrc, _, rfl, ?_⟩
      rw [(hf _).2]
      exact ReceiveStatistics.store_same ..
  · cases hvideo

theorem reported_expecting {threshold : ℤ} {top : Option ℕ} (h : impl.Expecting threshold top) (times : List ℤ) :
    (reported impl times).Expecting threshold top := by
  induction times generalizing impl with
  | nil => exact h
  | cons nowMs times ih => exact ih (h.report nowMs)

theorem reported_detection (impl : StreamStatistician) (times : List ℤ) :
    (reported impl times).enableRetransmitDetection = impl.enableRetransmitDetection := by
  induction times generalizing impl with
  | nil => rfl
  | cons nowMs times ih => exact (ih _).trans (impl.report_detection nowMs)

theorem isChain_next {top : Option ℕ} {n : ℕ} {ns : List ℕ} :
    (top.toList ++ n :: ns).IsChain (· < ·) ↔ (∀ m ∈ top, m < n) ∧ (n :: ns).IsChain (· < ·) := by
  cases top with
  | none => simp
  | some top => simp [List.isChain_cons_cons]

theorem watched_run {es : List Event} {top : Option ℕ} {ns : List ℕ} (h : Quiet (some v) pc) (hwatches : Watches v impl pc)
    (hexpecting : impl.Expecting kDefaultMaxReorderingThreshold top) (hdetection : impl.enableRetransmitDetection = true)
    (hreach : StreamStatistician.Reachable kDefaultMaxReorderingThreshold top ns)
    (hseq : (es.filterMap (videoPacket v)).map RtpPacketReceived.sequenceNumber = ns.map UInt16.ofNat) :
    (∃ pc', run env nackEnv pc es = .ok pc') ↔ (top.toList ++ ns).IsChain (· < ·) := by
  induction es generalizing pc impl top ns with
  | nil =>
    obtain rfl : ns = [] := List.map_eq_nil_iff.mp hseq.symm
    refine ⟨fun _ => ?_, fun _ => ⟨pc, rfl⟩⟩
    cases top <;> simp
  | cons e es ih =>
    cases hvideo : videoPacket v e with
    | none =>
      rw [List.filterMap_cons, hvideo] at hseq
      obtain ⟨pc', hstep, hquiet, hkept⟩ := h.other env nackEnv fun u hu => by
        rw [← Option.some.inj hu]
        exact hvideo
      obtain ⟨times, hwatches'⟩ := hkept v rfl impl hwatches
      have hrun : run env nackEnv pc (e :: es) = run env nackEnv pc' es := ExceptFolds.foldlM_cons_ok hstep es
      rw [hrun]
      exact ih hquiet hwatches' (reported_expecting hexpecting times) ((reported_detection impl times).trans hdetection)
        hreach hseq
    | some received =>
      rw [List.filterMap_cons, hvideo] at hseq
      cases ns with
      | nil => cases hseq
      | cons n ns =>
        obtain ⟨hfirst, hrest⟩ := List.cons.inj hseq
        cases e with
        | audioReport nowMs => cases hvideo
        | videoReport nowMs => cases hvideo
        | rtpPacket packet nowMs =>
          have hfrequency : received.payloadTypeFrequency = 0 := by
            rw [videoPacket] at hvideo
            split at hvideo
            · rw [← Option.some.inj hvideo]
              rfl
            · cases hvideo
          obtain ⟨hok, hnext⟩ := h.watched env nackEnv hwatches hvideo
          obtain ⟨hcount, hafter⟩ := hexpecting.next env nowMs (by decide) hreach hfirst hdetection hfrequency
          rw [isChain_next]
          constructor
          · rintro ⟨pc'', hrun⟩
            obtain ⟨pc', hstep, hrun'⟩ := ExceptFolds.foldlM_cons_eq_ok hrun
            obtain ⟨hquiet, impl', himpl', hwatches'⟩ := hnext pc' hstep
            have hahead := hcount.mp ⟨impl', himpl'⟩
            obtain ⟨hexpecting', hreach', hdetection'⟩ := hafter impl' himpl' hahead
            exact ⟨hahead, (ih hquiet hwatches' hexpecting' hdetection' hreach' hrest).mp ⟨pc'', hrun'⟩⟩
          · rintro ⟨hahead, hchain⟩
            obtain ⟨pc', hstep⟩ := hok.mpr (hcount.mpr hahead)
            obtain ⟨hquiet, impl', himpl', hwatches'⟩ := hnext pc' hstep
            obtain ⟨hexpecting', hreach', hdetection'⟩ := hafter impl' himpl' hahead
            have hrun : run env nackEnv pc (.rtpPacket packet nowMs :: es) = run env nackEnv pc' es :=
              ExceptFolds.foldlM_cons_ok hstep es
            rw [hrun]
            exact (ih hquiet hwatches' hexpecting' hdetection' hreach' hrest).mpr hchain

/-- The audio stream has its statistics before there is a packet. -/
theorem quiet_fresh (ssrc : UInt32) (watched : Option UInt32) :
    (ReceiveStatistics.setMaxReorderingThresholdOf {} ssrc kDefaultMaxReorderingThreshold).Quiet watched := by
  have hempty : ReceiveStatistics.Quiet watched {} := fun _ _ h => nomatch h
  obtain ⟨hquiet, -⟩ := hempty.getOrCreate ssrc
  exact hquiet.store fun _ => rfl

theorem quiet_create_audio (audioSsrcs : List UInt32) :
    (create audioSsrcs []).remoteAudioSsrc = audioSsrcs.headD 0 ∧
      ∀ s ∈ (create audioSsrcs []).audioRecvStream, s.Quiet none := by
  cases audioSsrcs with
  | nil => exact ⟨rfl, fun _ h => nomatch h⟩
  | cons ssrc rest => exact ⟨rfl, fun _ h => Option.some.inj h ▸ quiet_fresh ssrc none⟩

/-- With an RTX stream, or without a video stream, no run of packets fails. -/
theorem run_ok (audioSsrcs : List UInt32) {videoSsrcs : List UInt32} (hrtx : ∀ v ∈ videoSsrcs.head?, videoSsrcs.tail.headD 0 ≠ 0)
    (es : List Event) : ∃ pc', run env nackEnv (create audioSsrcs videoSsrcs) es = .ok pc' := by
  have hquiet : Quiet none (create audioSsrcs videoSsrcs) := by
    obtain ⟨-, haudio⟩ := quiet_create_audio audioSsrcs
    cases videoSsrcs with
    | nil =>
      refine ⟨Option.some_ne_none _, haudio, fun s hs => ?_⟩
      cases audioSsrcs <;> cases hs
    | cons v rest =>
      cases rest with
      | nil => exact absurd rfl (hrtx v rfl)
      | cons rtx rest =>
        refine ⟨Option.some_ne_none _, haudio, fun s hs => ?_⟩
        obtain rfl := Option.some.inj hs
        have hne : rtx ≠ 0 := hrtx v rfl
        rw [VideoReceiveStream.create]
        simp only [if_neg hne]
        exact quiet_fresh v none
  have hstep : ∀ e ∈ es, ∀ pc, Quiet none pc → ∃ pc', step env nackEnv pc e = .ok pc' ∧ Quiet none pc' := by
    intro e _ pc h
    have hnone : ∀ v ∈ (none : Option UInt32), videoPacket v e = none := by simp
    obtain ⟨pc', hok, hnext, -⟩ := h.other env nackEnv hnone
    exact ⟨pc', hok, hnext⟩
  clear hrtx
  generalize create audioSsrcs videoSsrcs = pc at hquiet
  induction es generalizing pc with
  | nil => exact ⟨pc, rfl⟩
  | cons e es ih =>
    obtain ⟨pc', hok, hnext⟩ := hstep e List.mem_cons_self pc hquiet
    have hrun : run env nackEnv pc (e :: es) = run env nackEnv pc' es := ExceptFolds.foldlM_cons_ok hok es
    rw [hrun]
    exact ih (fun e' he' => hstep e' (List.mem_cons_of_mem e he')) pc' hnext

/-- The statistician of a video stream without RTX when it is created. -/
def detecting (v : UInt32) : StreamStatistician :=
  { StreamStatistician.create v kDefaultMaxReorderingThreshold with enableRetransmitDetection := true }

theorem create_detecting (v : UInt32) :
    (VideoReceiveStream.create { remoteSsrc := v }).rtpReceiveStatistics.Quiet (some v) ∧
      (VideoReceiveStream.create { remoteSsrc := v }).rtpReceiveStatistics.statisticians v = some (detecting v) := by
  have hempty : ReceiveStatistics.Quiet (some v) {} := fun _ _ h => nomatch h
  have hfirst : (ReceiveStatistics.enableRetransmitDetection {} v true).statisticians v = some (detecting v) :=
    ReceiveStatistics.store_same ..
  have hquiet : (ReceiveStatistics.enableRetransmitDetection {} v true).Quiet (some v) :=
    (hempty.getOrCreate v).1.store fun hne => absurd rfl hne
  have hcreate : (VideoReceiveStream.create { remoteSsrc := v }).rtpReceiveStatistics =
      (ReceiveStatistics.enableRetransmitDetection {} v true).setMaxReorderingThresholdOf v kDefaultMaxReorderingThreshold := rfl
  have hfound : (ReceiveStatistics.enableRetransmitDetection {} v true).getOrCreateStatistician v =
      (detecting v, ReceiveStatistics.enableRetransmitDetection {} v true) := by
    rw [ReceiveStatistics.getOrCreateStatistician, hfirst]
  rw [hcreate, ReceiveStatistics.setMaxReorderingThresholdOf, hfound]
  exact ⟨hquiet.store fun hne => absurd rfl hne, ReceiveStatistics.store_same ..⟩

theorem detecting_expecting (v : UInt32) : (detecting v).Expecting kDefaultMaxReorderingThreshold none := by
  have hstep : StreamStatistician.step StreamStatistician.closestEnvironment (.create v kDefaultMaxReorderingThreshold)
      (.enableRetransmitDetection true) = .ok (detecting v) := rfl
  have hsound := (StreamStatistician.sound_create v kDefaultMaxReorderingThreshold).step hstep
  exact ⟨hsound, ⟨rfl, rfl, rfl, rfl, rfl⟩, rfl⟩

/-- The server divides by zero exactly at a video packet that is not ahead of all others of its stream,
where the stream has no RTX. The numbers are those of its packets, none too far from the highest one. -/
theorem survives_iff {audioSsrcs rest : List UInt32} {es : List Event} {ns : List ℕ} (hne : audioSsrcs.headD 0 ≠ v)
    (hreach : StreamStatistician.Reachable kDefaultMaxReorderingThreshold none ns)
    (hseq : (es.filterMap (videoPacket v)).map RtpPacketReceived.sequenceNumber = ns.map UInt16.ofNat) :
    (∃ pc', run env nackEnv (create audioSsrcs (v :: rest)) es = .ok pc') ↔
      rest.headD 0 ≠ 0 ∨ ns.IsChain (· < ·) := by
  by_cases hrtx : rest.headD 0 = 0
  · have hvideo : (create audioSsrcs (v :: rest)).remoteVideoSsrc = v ∧
        (create audioSsrcs (v :: rest)).videoRecvStream = some (.create { remoteSsrc := v }) := by
      cases rest with
      | nil => exact ⟨rfl, rfl⟩
      | cons rtx rest =>
        obtain rfl : rtx = 0 := hrtx
        exact ⟨rfl, rfl⟩
    have haudio : (create audioSsrcs (v :: rest)).remoteAudioSsrc = (create audioSsrcs []).remoteAudioSsrc ∧
        (create audioSsrcs (v :: rest)).audioRecvStream = (create audioSsrcs []).audioRecvStream := by
      cases rest <;> exact ⟨rfl, rfl⟩
    obtain ⟨hssrc, hfresh⟩ := quiet_create_audio audioSsrcs
    obtain ⟨hquiet, hsome⟩ := create_detecting v
    have hstart : Quiet (some v) (create audioSsrcs (v :: rest)) := by
      refine ⟨?_, ?_, fun s hs => ?_⟩
      · rw [haudio.1, hssrc]
        exact fun heq => hne (Option.some.inj heq)
      · rw [haudio.2]
        exact hfresh
      · rw [hvideo.2] at hs
        exact Option.some.inj hs ▸ hquiet
    refine (watched_run hstart ⟨hvideo.1, _, hvideo.2, hsome⟩ (detecting_expecting v) rfl hreach hseq).trans ?_
    exact ⟨.inr, fun h => h.resolve_left fun hrtx' => hrtx' hrtx⟩
  · have hall : ∀ u ∈ (v :: rest).head?, (v :: rest).tail.headD 0 ≠ 0 := fun _ _ => hrtx
    exact ⟨fun _ => .inl hrtx, fun _ => run_ok audioSsrcs hall es⟩

/-- A packet of the stream 9 with a header only. -/
def videoDatagram (sequenceNumber : UInt8) : Bytes := [0x80, 96, 0, sequenceNumber, 0, 0, 0, 0, 0, 0, 0, 9]

/-- A packet that comes twice. -/
theorem survives_iff_twice : ¬ ∃ pc', run StreamStatistician.closestEnvironment NackRequester.plainEnvironment
    (create [] [9]) [.rtpPacket (videoDatagram 5) 0, .rtpPacket (videoDatagram 5) 1] = .ok pc' := by
  have hreach : StreamStatistician.Reachable kDefaultMaxReorderingThreshold none [5, 5] := ⟨by decide, by decide, trivial⟩
  rw [survives_iff (by decide) hreach (by decide)]
  decide

end PeerConnection

end Rtp
end XrtcServer
