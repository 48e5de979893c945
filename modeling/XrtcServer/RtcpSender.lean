import XrtcServer.Nack
import XrtcServer.RtcpReceiver
import XrtcServer.Runs
import Mathlib.Data.List.Sort

/-! The sender of RTCP packets. What to build is kept as flags, which a call of `SendRTCP`
sets and then goes through. -/
namespace XrtcServer
namespace Rtcp
open ByteFormat

def kRtcpReport : UInt32 := 0x0001
def kRtcpSr : UInt32 := 0x0002
def kRtcpRr : UInt32 := 0x0004
def kRtcpNack : UInt32 := 0x0040

inductive RtcpMode
  | off | compound | reducedSize
  deriving DecidableEq, Repr

/-- Flags are ordered and compared by their types. -/
structure ReportFlag where
  type : UInt32
  isVolatile : Bool
  deriving DecidableEq, Repr

structure FeedbackState where
  packetsSent : UInt32 := 0
  mediaBytesSent : ℕ := 0
  lastRrNtpSecs : UInt32 := 0
  lastRrNtpFrac : UInt32 := 0
  remoteSr : UInt32 := 0

structure RtcpNackStats where
  maxSequenceNumber : UInt16 := 0
  requests : UInt32 := 0
  uniqueRequests : UInt32 := 0

structure RtcpPacketTypeCounter where
  nackPackets : UInt32 := 0
  nackRequests : UInt32 := 0
  uniqueNackRequests : UInt32 := 0

/-- A packet that a builder appends. -/
inductive Built
  | sr (report : SenderReport)
  | rr (report : ReceiverReport)
  | nack (nack : Nack)

def Built.type : Built → UInt32
  | sr _ => kRtcpSr
  | rr _ => kRtcpRr
  | nack _ => kRtcpNack

/-- A call of `SendRTCP` with the clock in microseconds, the blocks of the receive statistics,
the duration that is drawn for the next report, and what an empty capture time reads as. -/
structure Call where
  feedbackState : FeedbackState := {}
  packetType : UInt32
  nackList : List UInt16 := []
  now : ℤ := 0
  ntpNow : NtpTime := ⟨0, 0⟩
  reportBlocks : List ReportBlock := []
  timeToNext : ℤ := 0
  stray : ℤ := 0

structure RTCPSender where
  localSsrc : UInt32
  remoteSsrc : UInt32
  clockRate : ℤ
  reportInterval : ℤ
  mode : RtcpMode := .off
  reportFlags : List ReportFlag := []
  sending : Bool := false
  lastRtpTimestamp : UInt32 := 0
  lastFrameCaptureTime : Option ℤ := none
  nextTimeToSendRtcp : Option ℤ := none
  nackStats : RtcpNackStats := {}
  packetTypeCounter : RtcpPacketTypeCounter := {}

/-- `webrtc::IsNewerSequenceNumber`; the difference is not reduced in the first test. -/
def isNewerSequenceNumber (value prevValue : UInt16) : Bool :=
  if (value.toNat : ℤ) - prevValue.toNat = 0x8000 then value > prevValue
  else value ≠ prevValue && value - prevValue < 0x8000

def RtcpNackStats.reportRequest (s : RtcpNackStats) (sequenceNumber : UInt16) : RtcpNackStats :=
  let s :=
    if s.requests = 0 || isNewerSequenceNumber sequenceNumber s.maxSequenceNumber then
      { s with maxSequenceNumber := sequenceNumber, uniqueRequests := s.uniqueRequests + 1 }
    else s
  { s with requests := s.requests + 1 }

namespace RTCPSender
variable (s : RTCPSender) (call : Call)

section Flags

/-- Insertion into a `std::set` of flags. -/
def setFlag (type : UInt32) : RTCPSender :=
  if s.reportFlags.any fun flag => flag.type = type then s
  else
    { s with reportFlags :=
        s.reportFlags.orderedInsert (fun a b => a.type ≤ b.type) ⟨type, true⟩ }

def consumeFlag (type : UInt32) (forced : Bool) : RTCPSender × Bool :=
  match s.reportFlags.find? fun flag => flag.type = type with
  | none => (s, false)
  | some flag =>
    if flag.isVolatile || forced then ({ s with reportFlags := s.reportFlags.erase flag }, true)
    else (s, true)

def allVolatileFlagsConsumed : Bool := s.reportFlags.all fun flag => !flag.isVolatile

end Flags

section Builders

/-- Milliseconds of a time, to the nearest. -/
def toMs (us : ℤ) : ℤ := (us + 500) / 1000

def setLastRtpTimestamp (rtpTimestamp : UInt32) (lastFrameCaptureTime : Option ℤ) (now : ℤ) :
    RTCPSender :=
  { s with lastRtpTimestamp := rtpTimestamp
           lastFrameCaptureTime := some (lastFrameCaptureTime.getD now) }

def setNextRtcpSendEvaluationDuration (duration now : ℤ) : RTCPSender :=
  { s with nextTimeToSendRtcp := some (now + duration) }

def setRTCPStatus (mode : RtcpMode) (now : ℤ) : RTCPSender :=
  if mode = .off then s
  else
    let s := if s.mode = .off then s.setNextRtcpSendEvaluationDuration (s.reportInterval / 2) now else s
    { s with mode }

def buildSR : RTCPSender × List Built :=
  let captureTime := s.lastFrameCaptureTime.getD call.stray
  let rtpTimestamp := s.lastRtpTimestamp +
    UInt32.ofInt (((call.now + 500).tdiv 1000 - toMs captureTime) * s.clockRate.tdiv 1000)
  (s, [.sr { senderSsrc := s.localSsrc
             ntpTime := call.ntpNow
             rtpTimestamp
             senderPacketCount := call.feedbackState.packetsSent
             senderOctetCount := some (UInt32.ofNat call.feedbackState.mediaBytesSent)
             reportBlocks := [] }])

def createReportBlocks : List ReportBlock :=
  let state := call.feedbackState
  if call.reportBlocks ≠ [] ∧ (state.lastRrNtpSecs ≠ 0 ∨ state.lastRrNtpFrac ≠ 0) then
    let receiveTime := (state.lastRrNtpSecs &&& 0x0000FFFF) <<< 16 +
      (state.lastRrNtpFrac &&& 0xffff0000) >>> 16
    call.reportBlocks.map fun block =>
      { block with lastSr := state.remoteSr
                   delaySinceLastSr := compactNtp call.ntpNow - receiveTime }
  else call.reportBlocks

def ReceiverReport.kMaxNumberOfReportBlocks : ℕ := 31

/-- Too many report blocks are not taken over. -/
def setReportBlocks (report : ReceiverReport) (blocks : List ReportBlock) : ReceiverReport :=
  if blocks.length > ReceiverReport.kMaxNumberOfReportBlocks then report
  else { report with reportBlocks := blocks }

def buildRR : RTCPSender × List Built :=
  let report : ReceiverReport := { senderSsrc := s.localSsrc, reportBlocks := [] }
  (s, [.rr (setReportBlocks report (createReportBlocks call))])

def buildNACK : RTCPSender × List Built :=
  let nack := ({ senderSsrc := s.localSsrc, mediaSsrc := s.remoteSsrc } : Nack).setPacketIds call.nackList
  let nackStats := call.nackList.foldl RtcpNackStats.reportRequest s.nackStats
  let packetTypeCounter :=
    { nackPackets := s.packetTypeCounter.nackPackets + 1
      nackRequests := nackStats.requests
      uniqueNackRequests := nackStats.uniqueRequests }
  ({ s with nackStats, packetTypeCounter }, [.nack nack])

/-- The builder of a type in `builders_`, if it has one. -/
def build (type : UInt32) : RTCPSender × List Built :=
  if type = kRtcpSr then s.buildSR call
  else if type = kRtcpRr then s.buildRR call
  else if type = kRtcpNack then s.buildNACK call
  else (s, [])

end Builders

def prepareReport : RTCPSender :=
  let s := (s.consumeFlag kRtcpReport false).1
  let s := s.setFlag (if s.sending then kRtcpSr else kRtcpRr)
  s.setNextRtcpSendEvaluationDuration call.timeToNext call.now

/-- The loop over the flags, which erases the volatile ones. -/
def buildFlags : List ReportFlag → RTCPSender → RTCPSender × List Built
  | [], s => (s, [])
  | flag :: flags, s =>
    let s := if flag.isVolatile then { s with reportFlags := s.reportFlags.erase flag } else s
    let built := s.build call flag.type
    let rest := buildFlags flags built.1
    (rest.1, built.2 ++ rest.2)

def prepareAndBuild : RTCPSender × List Built :=
  let s := s.prepareReport call
  buildFlags call s.reportFlags s

/-- The packets that are built, and the result. -/
def computeCompoundRTCPPacket : RTCPSender × List Built × ℤ :=
  let s := s.setFlag call.packetType
  if s.lastFrameCaptureTime.isNone then
    let sr := s.consumeFlag kRtcpSr false
    let report := sr.1.consumeFlag kRtcpReport false
    let s := report.1
    if (sr.2 || report.2) && s.allVolatileFlagsConsumed then (s, [], 0)
    else if s.sending && s.mode = .compound then (s, [], -1)
    else
      let result := s.prepareAndBuild call
      (result.1, result.2, 0)
  else
    let result := s.prepareAndBuild call
    (result.1, result.2, 0)

def sendRTCP : RTCPSender × List Built × ℤ := s.computeCompoundRTCPPacket call

inductive Event
  | sendRTCP (call : Call)
  | setSendingStatus (sending : Bool)
  | setRTCPStatus (mode : RtcpMode) (now : ℤ)
  | setLastRtpTimestamp (rtpTimestamp : UInt32) (lastFrameCaptureTime : Option ℤ) (now : ℤ)

def step (s : RTCPSender) (e : Event) : RTCPSender :=
  match e with
  | .sendRTCP call => (s.sendRTCP call).1
  | .setSendingStatus sending => { s with sending }
  | .setRTCPStatus mode now => s.setRTCPStatus mode now
  | .setLastRtpTimestamp rtpTimestamp lastFrameCaptureTime now =>
    s.setLastRtpTimestamp rtpTimestamp lastFrameCaptureTime now

end RTCPSender

end Rtcp
end XrtcServer
