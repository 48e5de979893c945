import XrtcServer.Nack
import XrtcServer.RtcpReports

/-! The receiver of RTCP packets takes a compound packet apart, block by block, and tells
its observer about the network and about lost packets. -/
namespace XrtcServer
namespace Rtcp
open ByteFormat StructLayout

/-- The clock of a receiver while it handles one packet. -/
structure Clock where
  currentTime : ℤ
  currentNtpTime : NtpTime
  convertTimestampToNtpTime : ℤ → NtpTime

def compactNtp (t : NtpTime) : UInt32 := t.seconds <<< 16 ||| t.fractions >>> 16

/-- `DivideRoundToNearest` of what is not negative. -/
def divideRoundToNearest (dividend divisor : ℕ) : ℕ :=
  dividend / divisor + if dividend % divisor > (divisor - 1) / 2 then 1 else 0

def compactNtpRttToMs (compactNtpInterval : UInt32) : ℕ :=
  if compactNtpInterval > 0x80000000 then 1
  else max (divideRoundToNearest (compactNtpInterval.toNat * 1000) (1 <<< 16)) 1

/-- A call of the observer. -/
inductive Observation
  | networkInfo (rttMs : ℕ) (packetsLost : ℤ) (fractionLost : UInt8) (jitter : UInt32)
  | nackReceived (audio : Bool) (packetIds : List UInt16)

/-- The observer is the list of its calls, or null. -/
structure RTCPReceiver where
  audio : Bool
  registeredSsrcs : List UInt32
  rtpRtcpModuleObserver : Option (List Observation)
  remoteSsrc : UInt32 := 0
  numSkippedPackets : UInt32 := 0
  lastReceivedRb : Option ℤ := none
  remoteSenderNtpTime : Option NtpTime := none
  remoteSenderRtpTime : UInt32 := 0
  lastReceivedSrNtp : Option NtpTime := none
  remoteSenderPacketCount : UInt32 := 0
  remoteSenderOctetCount : Option UInt32 := some 0
  remoteSenderReportsCount : UInt64 := 0

namespace RTCPReceiver

def isRegisteredSsrc (s : RTCPReceiver) (ssrc : UInt32) : Bool := s.registeredSsrcs.any (· = ssrc)

def tell (s : RTCPReceiver) (o : Observation) : RTCPReceiver :=
  { s with rtpRtcpModuleObserver := s.rtpRtcpModuleObserver.map (· ++ [o]) }

/-- The round trip time that a report block stands for. -/
def rttMs (clock : Clock) (r : ReportBlock) : ℕ :=
  let receiveNtpTime := compactNtp (clock.convertTimestampToNtpTime clock.currentTime)
  compactNtpRttToMs (receiveNtpTime - r.lastSr - r.delaySinceLastSr)

def handleReportBlock (s : RTCPReceiver) (clock : Clock) (r : ReportBlock) : RTCPReceiver :=
  if ¬ s.isRegisteredSsrc r.sourceSsrc then s
  else
    let s := { s with lastReceivedRb := some clock.currentTime }
    if r.lastSr ≠ 0 then s.tell (.networkInfo (rttMs clock r) r.packetsLost r.fractionLost r.jitter) else s

/-- The parameters of a report are kept when it comes from the one remote sender. -/
def keepReport (s : RTCPReceiver) (clock : Clock) (report : SenderReport) : RTCPReceiver :=
  let s := if s.remoteSsrc = 0 then { s with remoteSsrc := report.senderSsrc } else s
  if s.remoteSsrc = report.senderSsrc then
    { s with
      remoteSenderNtpTime := some report.ntpTime
      remoteSenderRtpTime := report.rtpTimestamp
      lastReceivedSrNtp := some clock.currentNtpTime
      remoteSenderPacketCount := report.senderPacketCount
      remoteSenderOctetCount := report.senderOctetCount
      remoteSenderReportsCount := s.remoteSenderReportsCount + 1 }
  else s

def skipPacket (s : RTCPReceiver) : RTCPReceiver := { s with numSkippedPackets := s.numSkippedPackets + 1 }

def handleSenderReport (s : RTCPReceiver) (clock : Clock) (block : CommonHeader) : RTCPReceiver :=
  match SenderReport.parse block with
  | none => s.skipPacket
  | some report => report.reportBlocks.foldl (·.handleReportBlock clock ·) (s.keepReport clock report)

/-- Nothing calls this one. -/
def handleReceiverReport (s : RTCPReceiver) (clock : Clock) (block : CommonHeader) : RTCPReceiver :=
  match ReceiverReport.parse block with
  | none => s.skipPacket
  | some report => report.reportBlocks.foldl (·.handleReportBlock clock ·) s

def handleNack (s : RTCPReceiver) (block : CommonHeader) : RTCPReceiver :=
  match Nack.parse block with
  | none => s.skipPacket
  | some nack => s.tell (.nackReceived s.audio nack.packetIds)

/-- The switch over the packet types. -/
def handleBlock (s : RTCPReceiver) (clock : Clock) (block : CommonHeader) : RTCPReceiver :=
  if block.packetType = SenderReport.kPacketType then s.handleSenderReport clock block
  else if block.packetType = Nack.kPacketType then
    if block.countOrFmt.toNat = Nack.kFeedbackMessageType then s.handleNack block else s.skipPacket
  else s

/-- The loop of `ParseCompoundPacket`. A packet whose first block cannot be parsed is not
counted. -/
def parseBlocks (clock : Clock) (s : RTCPReceiver) (first : Bool) (nextBlock : Bytes) : RTCPReceiver :=
  if nextBlock = [] then s
  else
    match _h : CommonHeader.parse nextBlock with
    | none => if first then s else s.skipPacket
    | some block => parseBlocks clock (s.handleBlock clock block) false block.nextPacket
termination_by nextBlock.length
decreasing_by
  exact CommonHeader.nextPacket_lt ‹_›

theorem parseBlocks_of_none {nextBlock : Bytes} (hne : nextBlock ≠ [])
    (h : CommonHeader.parse nextBlock = none) (clock : Clock) (s : RTCPReceiver) (first : Bool) :
    parseBlocks clock s first nextBlock = if first then s else s.skipPacket := by
  rw [parseBlocks, if_neg hne]
  split
  · rfl
  · rename_i hsome
    exact nomatch h.symm.trans hsome

theorem parseBlocks_of_some {nextBlock : Bytes} {block : CommonHeader} (hne : nextBlock ≠ [])
    (h : CommonHeader.parse nextBlock = some block) (clock : Clock) (s : RTCPReceiver) (first : Bool) :
    parseBlocks clock s first nextBlock =
      parseBlocks clock (s.handleBlock clock block) false block.nextPacket := by
  rw [parseBlocks, if_neg hne]
  split
  · rename_i hnone
    exact nomatch hnone.symm.trans h
  · rename_i hsome
    obtain rfl := Option.some.inj (h.symm.trans hsome)
    rfl

def incomingRtcpPacket (s : RTCPReceiver) (clock : Clock) (packet : Bytes) : RTCPReceiver :=
  if packet = [] then s else parseBlocks clock s true packet

end RTCPReceiver

/-- What a block of a compound packet says. -/
inductive Body
  | senderReport (ssrc : UInt32) (ntpTime : NtpTime) (rtpTimestamp packetCount octetCount : UInt32)
      (reports : List ReportBlock) (extension : Bytes)
  | receiverReport (ssrc : UInt32) (reports : List ReportBlock) (extension : Bytes)
  | nack (senderSsrc mediaSsrc : UInt32) (items : List PackedNack)
  | other (fmt : ℕ) (packetType : UInt8) (payload : Bytes)

namespace Body

def fmt : Body → ℕ
  | senderReport _ _ _ _ _ reports _ => reports.length
  | receiverReport _ reports _ => reports.length
  | nack _ _ _ => Nack.kFeedbackMessageType
  | other fmt _ _ => fmt

def packetType : Body → UInt8
  | senderReport .. => SenderReport.kPacketType
  | receiverReport .. => ReceiverReport.kPacketType
  | nack .. => Nack.kPacketType
  | other _ packetType _ => packetType

def payload : Body → Bytes
  | senderReport ssrc ntpTime rtpTimestamp packetCount octetCount reports extension =>
    writeUint32 ssrc ++ writeUint32 ntpTime.seconds ++ writeUint32 ntpTime.fractions ++ writeUint32 rtpTimestamp ++
      writeUint32 packetCount ++ writeUint32 octetCount ++ (reports.flatMap ReportBlock.create ++ extension)
  | receiverReport ssrc reports extension => writeUint32 ssrc ++ (reports.flatMap ReportBlock.create ++ extension)
  | nack senderSsrc mediaSsrc items => writeUint32 senderSsrc ++ writeUint32 mediaSsrc ++ items.flatMap PackedNack.bytes
  | other _ _ payload => payload

/-- The report blocks in a body. -/
def reports : Body → List ReportBlock
  | senderReport _ _ _ _ _ reports _ => reports
  | receiverReport _ reports _ => reports
  | nack .. => []
  | other .. => []

def WellFormed : Body → Prop
  | senderReport _ _ _ _ _ reports extension => reports.length ≤ 31 ∧ extension.length % 4 = 0
  | receiverReport _ reports extension => reports.length ≤ 31 ∧ extension.length % 4 = 0
  | nack _ _ items => items ≠ []
  | other fmt packetType payload => fmt < 32 ∧ payload.length % 4 = 0 ∧ packetType ≠ SenderReport.kPacketType ∧
      packetType ≠ ReceiverReport.kPacketType ∧ (packetType = Nack.kPacketType → fmt ≠ Nack.kFeedbackMessageType)

end Body

/-- A well-formed block. The last byte of its padding says how long the padding is. -/
structure Block where
  body : Body
  padding : Bytes
  wellFormed : body.WellFormed
  padding_length : padding = [] ∨ padding.length % 4 = 0 ∧ padding.getLast? = some (UInt8.ofNat padding.length) ∧
    padding.length < 256
  length_lt : (body.payload ++ padding).length < 4 * 2^16

namespace Block

def content (b : Block) : Bytes := b.body.payload ++ b.padding

def encode (b : Block) : Bytes :=
  createHeader b.body.fmt b.body.packetType (b.content.length / 4) (decide (b.padding ≠ [])) ++ b.content

end Block

def encodeBlocks (blocks : List Block) : Bytes := blocks.flatMap Block.encode

end Rtcp
end XrtcServer
