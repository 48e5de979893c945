import XrtcServer.ExceptFolds
import XrtcServer.ReportWriting
import Mathlib.Tactic.SplitIfs

/-! What a receive stream counts of the RTP packets that come in, and the report blocks that are
made of it. -/
namespace XrtcServer
namespace Rtp
open XrtcServer.Rtcp (ReportBlock)

def kStatisticsTimeoutMs : ℤ := 8000
def kDefaultMaxReorderingThreshold : ℤ := 5

/-- A conversion to `int32_t`. -/
def toInt32 (n : ℤ) : ℤ := n.bmod (2^32)

/-- `webrtc::SequenceNumberUnwrapper`, which gives the value that is closest to the last one. It
does not wrap backwards past 0. -/
structure SequenceNumberUnwrapper where
  unwrapWithoutUpdate : Option ℤ → UInt16 → ℤ
  unwrap_first : ∀ v, unwrapWithoutUpdate none v = v.toNat
  unwrap_mod : ∀ last v, 0 ≤ last → unwrapWithoutUpdate (some last) v % 65536 = v.toNat
  unwrap_nonneg : ∀ last v, 0 ≤ last → 0 ≤ unwrapWithoutUpdate (some last) v
  unwrap_near : ∀ last v, 0 ≤ last →
    unwrapWithoutUpdate (some last) v ≤ last + 32768 ∧ last ≤ unwrapWithoutUpdate (some last) v + 32768 ∨
      last ≤ unwrapWithoutUpdate (some last) v ∧ unwrapWithoutUpdate (some last) v < 65536

/-- `deviationsMs` has two standard deviations of the jitter in milliseconds, which is a `float` on
the way. -/
structure ReceiveEnvironment extends SequenceNumberUnwrapper where
  deviationsMs : ℕ → ℕ → ℤ

namespace SequenceNumberUnwrapper

/-- The number with these 16 bits that is closest to the last one, the higher one of two; the one
above it where the closest one is below 0. -/
def closestTo : Option ℤ → UInt16 → ℤ
  | none, value => value.toNat
  | some last, value =>
    let delta := value.toNat - last % 65536
    let newer := 0 < delta % 65536 ∧ (delta % 65536 < 32768 ∨ delta = 32768)
    if newer then last + delta % 65536
    else if delta > 0 ∧ last + delta - 65536 ≥ 0 then last + delta - 65536
    else last + delta

def closest : SequenceNumberUnwrapper where
  unwrapWithoutUpdate := closestTo
  unwrap_first _ := rfl
  unwrap_mod last v h := by
    have hv := v.toNat_lt
    dsimp only [closestTo]
    split_ifs <;> omega
  unwrap_nonneg last v h := by
    have hv := v.toNat_lt
    dsimp only [closestTo]
    split_ifs <;> omega
  unwrap_near last v h := by
    have hv := v.toNat_lt
    dsimp only [closestTo]
    split_ifs <;> omega

end SequenceNumberUnwrapper

/-- What the statistics read of a packet. -/
structure RtpPacketReceived where
  ssrc : UInt32
  sequenceNumber : UInt16
  timestamp : UInt32 := 0
  headerSize : ℕ := 12
  payloadSize : ℕ := 0
  paddingSize : ℕ := 0
  payloadTypeFrequency : ℤ := 0
  deriving DecidableEq, Repr

structure RtpPacketCounter where
  headerBytes : ℕ := 0
  payloadBytes : ℕ := 0
  paddingBytes : ℕ := 0
  packets : UInt32 := 0
  deriving DecidableEq, Repr

def RtpPacketCounter.addPacket (c : RtpPacketCounter) (packet : RtpPacketReceived) : RtpPacketCounter where
  headerBytes := c.headerBytes + packet.headerSize
  payloadBytes := c.payloadBytes + packet.payloadSize
  paddingBytes := c.paddingBytes + packet.paddingSize
  packets := c.packets + 1

structure StreamDataCounters where
  firstPacketTimeMs : ℤ := -1
  lastPacketReceivedTimestampMs : Option ℤ := none
  transmitted : RtpPacketCounter := {}
  retransmitted : RtpPacketCounter := {}
  deriving DecidableEq, Repr

/-- `StreamStatisticianImpl`. `spans` has the first and the last number of each part of the stream
that began with a restart, the newest part first; it is not a variable of the program. -/
structure StreamStatistician where
  ssrc : UInt32
  maxReorderingThreshold : ℤ
  enableRetransmitDetection : Bool := false
  cumulativeLossIsCapped : Bool := false
  jitterQ4 : ℤ := 0
  cumulativeLoss : ℤ := 0
  cumulativeLossRtcpOffset : ℤ := 0
  lastReceiveTimeMs : ℤ := 0
  lastReceivedTimestamp : UInt32 := 0
  seqUnwrapper : Option ℤ := none
  receivedSeqFirst : ℤ := -1
  receivedSeqMax : ℤ := -1
  receivedSeqOutOfOrder : Option UInt16 := none
  receiveCounters : StreamDataCounters := {}
  lastReportCumulativeLoss : ℤ := 0
  lastReportSeqMax : ℤ := -1
  spans : List (ℤ × ℤ) := []
  deriving DecidableEq, Repr

inductive Fault
  | dividedByZero
  deriving DecidableEq, Repr

namespace StreamStatistician

def create (ssrc : UInt32) (maxReorderingThreshold : ℤ) : StreamStatistician := { ssrc, maxReorderingThreshold }

variable (env : ReceiveEnvironment) (s : StreamStatistician)

def receivedRtpPacket : Bool := 0 ≤ s.receivedSeqFirst

/-- The frequency is divided by 1000 as an `int`, and what is left divides the timestamps. -/
def isRetransmitOfOldPacket (packet : RtpPacketReceived) (nowMs : ℤ) : Except Fault Bool :=
  let frequencyKhz := ((packet.payloadTypeFrequency.tdiv 1000) % 2^32).toNat
  if frequencyKhz = 0 then .error .dividedByZero
  else
    let timeDiffMs := nowMs - s.lastReceiveTimeMs
    let timestampDiff := packet.timestamp - s.lastReceivedTimestamp
    let rtpTimeStampDiffMs : ℕ := timestampDiff.toNat / frequencyKhz
    let maxDelayMs := env.deviationsMs (s.jitterQ4 / 16).toNat frequencyKhz
    let maxDelayMs := if maxDelayMs = 0 then 1 else maxDelayMs
    .ok (timeDiffMs > rtpTimeStampDiffMs + maxDelayMs)

/-- The packet before was postponed; it counts as received. -/
def countPostponed : StreamStatistician :=
  if s.receivedSeqOutOfOrder.isSome then
    { s with cumulativeLoss := toInt32 (s.cumulativeLoss - 1), receivedSeqOutOfOrder := none }
  else s

/-- The result says whether the packet is out of order. -/
def updateOutOfOrder (packet : RtpPacketReceived) (sequenceNumber nowMs : ℤ) :
    Except Fault (Bool × StreamStatistician) :=
  let restarted := s.receivedSeqOutOfOrder.map (· + 1) = some packet.sequenceNumber
  let s := s.countPostponed
  if restarted then
    -- the gap in front of the restart is not a loss
    .ok (false, { s with lastReportSeqMax := sequenceNumber - 2
                         receivedSeqMax := sequenceNumber - 2
                         spans := (sequenceNumber - 1, sequenceNumber - 2) :: s.spans })
  else if |sequenceNumber - s.receivedSeqMax| > s.maxReorderingThreshold then
    .ok (true, { s with receivedSeqOutOfOrder := some packet.sequenceNumber
                        cumulativeLoss := toInt32 (s.cumulativeLoss + 1) })
  else if sequenceNumber > s.receivedSeqMax then .ok (false, s)
  else if s.enableRetransmitDetection then do
    let retransmit ← s.isRetransmitOfOldPacket env packet nowMs
    if retransmit then
      .ok (true, { s with receiveCounters := { s.receiveCounters with
        retransmitted := s.receiveCounters.retransmitted.addPacket packet } })
    else .ok (true, s)
  else .ok (true, s)

/-- `abs` of the least `int32_t` is that number. -/
def timeDiffSamples (packet : RtpPacketReceived) (receiveTimeMs : ℤ) : ℤ :=
  let receiveDiffMs := receiveTimeMs - s.lastReceiveTimeMs
  let receiveDiffRtp := (receiveDiffMs * packet.payloadTypeFrequency).tdiv 1000
  toInt32 |toInt32 (receiveDiffRtp - (packet.timestamp - s.lastReceivedTimestamp).toNat)|

def updateJitter (packet : RtpPacketReceived) (receiveTimeMs : ℤ) : StreamStatistician :=
  let timeDiffSamples := s.timeDiffSamples packet receiveTimeMs
  if timeDiffSamples < 450000 then
    let jitterDiffQ4 := toInt32 (toInt32 (timeDiffSamples * 16) - s.jitterQ4)
    { s with jitterQ4 := (s.jitterQ4 + toInt32 (jitterDiffQ4 + 8) / 16) % 2^32 }
  else s

/-- The end of `UpdateCounters`, for a packet in order. -/
def updateInOrder (packet : RtpPacketReceived) (sequenceNumber nowMs : ℤ) : StreamStatistician :=
  let s := { s with cumulativeLoss := toInt32 (s.cumulativeLoss + (sequenceNumber - s.receivedSeqMax))
                    receivedSeqMax := sequenceNumber
                    seqUnwrapper := some sequenceNumber
                    spans := s.spans.modifyHead fun span => (span.1, sequenceNumber) }
  let s := if packet.timestamp ≠ s.lastReceivedTimestamp ∧
      s.receiveCounters.transmitted.packets - s.receiveCounters.retransmitted.packets > 1
    then s.updateJitter packet nowMs else s
  { s with lastReceivedTimestamp := packet.timestamp, lastReceiveTimeMs := nowMs }

/-- The beginning of `UpdateCounters`, which counts the packet as received. -/
def countReceived (packet : RtpPacketReceived) (nowMs : ℤ) : StreamStatistician :=
  { s with
    receiveCounters := { s.receiveCounters with
      lastPacketReceivedTimestampMs := some nowMs
      transmitted := s.receiveCounters.transmitted.addPacket packet }
    cumulativeLoss := toInt32 (s.cumulativeLoss - 1) }

def updateCounters (packet : RtpPacketReceived) (nowMs : ℤ) : Except Fault StreamStatistician := do
  let s := s.countReceived packet nowMs
  let sequenceNumber := env.unwrapWithoutUpdate s.seqUnwrapper packet.sequenceNumber
  if !s.receivedRtpPacket then
    let s := { s with receivedSeqFirst := sequenceNumber
                      lastReportSeqMax := sequenceNumber - 1
                      receivedSeqMax := sequenceNumber - 1
                      spans := [(sequenceNumber, sequenceNumber - 1)]
                      receiveCounters := { s.receiveCounters with firstPacketTimeMs := nowMs } }
    return s.updateInOrder packet sequenceNumber nowMs
  else
    let (outOfOrder, s) ← s.updateOutOfOrder env packet sequenceNumber nowMs
    return if outOfOrder then s else s.updateInOrder packet sequenceNumber nowMs

/-- 255 for a loss of everything. The product is an `int`, and the result has one byte. -/
def fractionLost : UInt8 :=
  let expSinceLast := s.receivedSeqMax - s.lastReportSeqMax
  let lostSinceLast := toInt32 (s.cumulativeLoss - s.lastReportCumulativeLoss)
  if expSinceLast > 0 ∧ lostSinceLast > 0 then
    UInt8.ofNat (((toInt32 (255 * lostSinceLast)).tdiv expSinceLast) % 256).toNat
  else 0

/-- The loss in all as a report has it. The offset keeps it from being negative, and it has three
bytes. -/
def clampedLoss : ℤ × StreamStatistician :=
  let packetsLost := toInt32 (s.cumulativeLoss + s.cumulativeLossRtcpOffset)
  let (packetsLost, s) := if packetsLost < 0 then
      (0, { s with cumulativeLossRtcpOffset := toInt32 (-s.cumulativeLoss) })
    else (packetsLost, s)
  if packetsLost > 0x7fffff then (0x7fffff, { s with cumulativeLossIsCapped := true }) else (packetsLost, s)

theorem zero_lost_range : -8388608 ≤ (0 : ℤ) ∧ (0 : ℤ) < 8388608 := by decide

def reportBlock (packetsLost : ℤ) : ReportBlock :=
  let stats : ReportBlock :=
    { sourceSsrc := s.ssrc, fractionLost := s.fractionLost, packetsLost := 0, extendedHighSeqNum := 0
      jitter := 0, lastSr := 0, delaySinceLastSr := 0, lost_range := zero_lost_range }
  let stats := (stats.setCumulativeLost packetsLost).2
  { stats with extendedHighSeqNum := UInt32.ofNat (s.receivedSeqMax % 2^32).toNat
               jitter := UInt32.ofNat (s.jitterQ4 / 16).toNat }

/-- `MaybeAppendReportBlockAndReset`, with the block that it appends. -/
def maybeAppendReportBlockAndReset (nowMs : ℤ) : Option ReportBlock × StreamStatistician :=
  if nowMs - s.lastReceiveTimeMs ≥ kStatisticsTimeoutMs then (none, s)
  else if !s.receivedRtpPacket then (none, s)
  else
    let (packetsLost, s) := s.clampedLoss
    (some (s.reportBlock packetsLost),
      { s with lastReportCumulativeLoss := s.cumulativeLoss, lastReportSeqMax := s.receivedSeqMax })

def getFractionLostInPercent : Option ℤ :=
  if !s.receivedRtpPacket then none
  else
    let expectedPackets := 1 + s.receivedSeqMax - s.receivedSeqFirst
    if expectedPackets ≤ 0 then none
    else if s.cumulativeLoss ≤ 0 then some 0
    else some (toInt32 ((100 * s.cumulativeLoss).tdiv expectedPackets))

inductive Event
  | packet (packet : RtpPacketReceived) (nowMs : ℤ)
  | report (nowMs : ℤ)
  | setMaxReorderingThreshold (threshold : ℤ)
  | enableRetransmitDetection (enable : Bool)

def Event.packet? : Event → Option RtpPacketReceived
  | .packet p _ => some p
  | _ => none

def packets (es : List Event) : List RtpPacketReceived := es.filterMap Event.packet?

def step (s : StreamStatistician) : Event → Except Fault StreamStatistician
  | .packet packet nowMs => s.updateCounters env packet nowMs
  | .report nowMs => .ok (s.maybeAppendReportBlockAndReset nowMs).2
  | .setMaxReorderingThreshold threshold => .ok { s with maxReorderingThreshold := threshold }
  | .enableRetransmitDetection enable => .ok { s with enableRetransmitDetection := enable }

def run (es : List Event) : Except Fault StreamStatistician := es.foldlM (step env) s

theorem updateJitter_eq (packet : RtpPacketReceived) (receiveTimeMs : ℤ) :
    s.updateJitter packet receiveTimeMs = { s with jitterQ4 := (s.updateJitter packet receiveTimeMs).jitterQ4 } := by
  rw [updateJitter]
  dsimp only
  split <;> rfl

theorem jitterQ4_updateJitter (packet : RtpPacketReceived) (receiveTimeMs : ℤ) :
    (s.updateJitter packet receiveTimeMs).jitterQ4 =
      if s.timeDiffSamples packet receiveTimeMs < 450000 then
        (s.jitterQ4 +
          toInt32 (toInt32 (toInt32 (s.timeDiffSamples packet receiveTimeMs * 16) - s.jitterQ4) + 8) / 16) % 2^32
      else s.jitterQ4 := by
  rw [updateJitter]
  dsimp only
  split <;> rfl

/-- A packet in order changes the jitter in one way only. -/
def jitterAfter (packet : RtpPacketReceived) (nowMs : ℤ) : ℤ :=
  if packet.timestamp ≠ s.lastReceivedTimestamp ∧
      s.receiveCounters.transmitted.packets - s.receiveCounters.retransmitted.packets > 1
    then (s.updateJitter packet nowMs).jitterQ4 else s.jitterQ4

theorem updateInOrder_eq (packet : RtpPacketReceived) (sequenceNumber nowMs : ℤ) :
    s.updateInOrder packet sequenceNumber nowMs =
      { s with cumulativeLoss := toInt32 (s.cumulativeLoss + (sequenceNumber - s.receivedSeqMax))
               receivedSeqMax := sequenceNumber
               seqUnwrapper := some sequenceNumber
               spans := s.spans.modifyHead fun span => (span.1, sequenceNumber)
               jitterQ4 := s.jitterAfter packet nowMs
               lastReceivedTimestamp := packet.timestamp
               lastReceiveTimeMs := nowMs } := by
  rw [updateInOrder, jitterAfter]
  dsimp only
  split
  · rw [updateJitter_eq, jitterQ4_updateJitter, jitterQ4_updateJitter]
    rfl
  · rfl

/-- The number of a packet without the wraps of its 16 bits. -/
def extended (packet : RtpPacketReceived) : ℤ := env.unwrapWithoutUpdate s.seqUnwrapper packet.sequenceNumber

/-- The statistics at the first packet, before it is counted in order. -/
def started (packet : RtpPacketReceived) (sequenceNumber nowMs : ℤ) : StreamStatistician :=
  let s := s.countReceived packet nowMs
  { s with receivedSeqFirst := sequenceNumber
           lastReportSeqMax := sequenceNumber - 1
           receivedSeqMax := sequenceNumber - 1
           spans := [(sequenceNumber, sequenceNumber - 1)]
           receiveCounters := { s.receiveCounters with firstPacketTimeMs := nowMs } }

/-- A packet that came in after another one. -/
def counted (packet : RtpPacketReceived) (nowMs : ℤ) : StreamStatistician :=
  (s.countReceived packet nowMs).countPostponed

/-- What is done with a packet that is counted: it is the first one, the second one after a
restart, one that jumped, one that is ahead, or an old one. -/
inductive Counts (packet : RtpPacketReceived) (nowMs : ℤ) : StreamStatistician → Prop
  | first (hnone : s.receivedRtpPacket = false) :
      Counts packet nowMs
        ((s.started packet (s.extended env packet) nowMs).updateInOrder packet (s.extended env packet) nowMs)
  | restart (hsome : s.receivedRtpPacket = true)
      (hnext : s.receivedSeqOutOfOrder.map (· + 1) = some packet.sequenceNumber) :
      Counts packet nowMs (({ s.counted packet nowMs with
        lastReportSeqMax := s.extended env packet - 2
        receivedSeqMax := s.extended env packet - 2
        spans := (s.extended env packet - 1, s.extended env packet - 2) :: (s.counted packet nowMs).spans } :
          StreamStatistician).updateInOrder packet (s.extended env packet) nowMs)
  | jump (hsome : s.receivedRtpPacket = true)
      (hfar : s.maxReorderingThreshold < |s.extended env packet - s.receivedSeqMax|) :
      Counts packet nowMs { s.counted packet nowMs with
        receivedSeqOutOfOrder := some packet.sequenceNumber
        cumulativeLoss := toInt32 ((s.counted packet nowMs).cumulativeLoss + 1) }
  | ahead (hsome : s.receivedRtpPacket = true)
      (hnear : |s.extended env packet - s.receivedSeqMax| ≤ s.maxReorderingThreshold)
      (hlt : s.receivedSeqMax < s.extended env packet) :
      Counts packet nowMs ((s.counted packet nowMs).updateInOrder packet (s.extended env packet) nowMs)
  | late (hsome : s.receivedRtpPacket = true)
      (hnear : |s.extended env packet - s.receivedSeqMax| ≤ s.maxReorderingThreshold)
      (hle : s.extended env packet ≤ s.receivedSeqMax) (retransmitted : RtpPacketCounter) :
      Counts packet nowMs { s.counted packet nowMs with
        receiveCounters := { (s.counted packet nowMs).receiveCounters with retransmitted } }

@[simp] theorem countPostponed_receivedSeqMax : s.countPostponed.receivedSeqMax = s.receivedSeqMax := by
  rw [countPostponed]
  split <;> rfl

@[simp] theorem countPostponed_maxReorderingThreshold :
    s.countPostponed.maxReorderingThreshold = s.maxReorderingThreshold := by
  rw [countPostponed]
  split <;> rfl

@[simp] theorem countPostponed_receiveCounters : s.countPostponed.receiveCounters = s.receiveCounters := by
  rw [countPostponed]
  split <;> rfl

variable {env s} {packet : RtpPacketReceived} {nowMs : ℤ} {s' : StreamStatistician}

section OutOfOrder
variable {n : ℤ}

theorem updateOutOfOrder_restart (hnext : s.receivedSeqOutOfOrder.map (· + 1) = some packet.sequenceNumber) :
    s.updateOutOfOrder env packet n nowMs =
      .ok (false, { s.countPostponed with lastReportSeqMax := n - 2, receivedSeqMax := n - 2
                                          spans := (n - 1, n - 2) :: s.countPostponed.spans }) := by
  rw [updateOutOfOrder]
  exact if_pos hnext

variable (hgap : s.receivedSeqOutOfOrder.map (· + 1) ≠ some packet.sequenceNumber)
include hgap

theorem updateOutOfOrder_jump (hfar : s.maxReorderingThreshold < |n - s.receivedSeqMax|) :
    s.updateOutOfOrder env packet n nowMs =
      .ok (true, { s.countPostponed with receivedSeqOutOfOrder := some packet.sequenceNumber
                                         cumulativeLoss := toInt32 (s.countPostponed.cumulativeLoss + 1) }) := by
  rw [updateOutOfOrder]
  dsimp only
  rw [if_neg hgap, if_pos (by simpa using hfar)]

variable (hnear : |n - s.receivedSeqMax| ≤ s.maxReorderingThreshold)
include hnear

theorem updateOutOfOrder_ahead (hlt : s.receivedSeqMax < n) :
    s.updateOutOfOrder env packet n nowMs = .ok (false, s.countPostponed) := by
  rw [updateOutOfOrder]
  dsimp only
  rw [if_neg hgap, if_neg (by simpa using hnear), if_pos (by simpa using hlt)]

/-- An old packet changes a counter at most. -/
theorem updateOutOfOrder_late {outOfOrder : Bool} (hle : n ≤ s.receivedSeqMax)
    (h : s.updateOutOfOrder env packet n nowMs = .ok (outOfOrder, s')) :
    outOfOrder = true ∧ ∃ retransmitted, s' = { s.countPostponed with
      receiveCounters := { s.countPostponed.receiveCounters with retransmitted } } := by
  rw [updateOutOfOrder] at h
  dsimp only at h
  rw [if_neg hgap, if_neg (by simpa using hnear), if_neg (by simpa using hle)] at h
  split at h
  · obtain ⟨retransmit, -, h⟩ := ExceptFolds.bind_eq_ok h
    cases retransmit <;> cases h <;> exact ⟨rfl, _, rfl⟩
  · cases h
    exact ⟨rfl, _, rfl⟩

end OutOfOrder

theorem counts_of_updateCounters (h : s.updateCounters env packet nowMs = .ok s') : Counts env s packet nowMs s' := by
  rw [updateCounters] at h
  dsimp only at h
  cases hreceived : s.receivedRtpPacket with
  | false =>
    have hnone : (!(s.countReceived packet nowMs).receivedRtpPacket) = true := congrArg (!·) hreceived
    rw [if_pos hnone] at h
    obtain rfl := Except.ok.inj h
    exact .first hreceived
  | true =>
    have hsome : (s.countReceived packet nowMs).receivedRtpPacket = true := hreceived
    rw [hsome, if_neg (by decide)] at h
    obtain ⟨⟨outOfOrder, t⟩, ht, h⟩ := ExceptFolds.bind_eq_ok h
    obtain rfl := Except.ok.inj h
    by_cases hnext : s.receivedSeqOutOfOrder.map (· + 1) = some packet.sequenceNumber
    · cases (updateOutOfOrder_restart (s := s.countReceived packet nowMs) hnext).symm.trans ht
      exact .restart hreceived hnext
    by_cases hfar : s.maxReorderingThreshold < |s.extended env packet - s.receivedSeqMax|
    · cases (updateOutOfOrder_jump (s := s.countReceived packet nowMs) hnext hfar).symm.trans ht
      exact .jump hreceived hfar
    rw [not_lt] at hfar
    by_cases hlt : s.receivedSeqMax < s.extended env packet
    · cases (updateOutOfOrder_ahead (s := s.countReceived packet nowMs) hnext hfar hlt).symm.trans ht
      exact .ahead hreceived hfar hlt
    · rw [not_lt] at hlt
      obtain ⟨rfl, retransmitted, rfl⟩ :=
        updateOutOfOrder_late (s := s.countReceived packet nowMs) hnext hfar hlt ht
      exact .late hreceived hfar hlt retransmitted

end StreamStatistician
end Rtp
end XrtcServer
