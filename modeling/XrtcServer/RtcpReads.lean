import XrtcServer.BufferReads
import XrtcServer.RtcpReceiver

/-! The parsers of RTCP packets over pointers: every field is read at its place in the whole
packet, whatever lies there, and the places are kept. -/
namespace XrtcServer
namespace Rtcp
open ByteFormat StructLayout BufferReads

/-- Fields of a packet at a place. -/
def byteIn (packet : Bytes) (pos : ℕ) : Reads UInt8 := return byteAt (← Reads.field packet pos 1) 0
def uint16In (packet : Bytes) (pos : ℕ) : Reads UInt16 := return readUint16 (← Reads.field packet pos 2) 0
def uint32In (packet : Bytes) (pos : ℕ) : Reads UInt32 := return readUint32 (← Reads.field packet pos 4) 0
def int24In (packet : Bytes) (pos : ℕ) : Reads { n : ℤ // -8388608 ≤ n ∧ n < 8388608 } :=
  return ⟨readInt24 (← Reads.field packet pos 3) 0, readInt24_range _ 0⟩

/-- A common header whose `payload` is a place in the packet. -/
structure HeaderAt where
  countOrFmt : UInt8
  packetType : UInt8
  paddingSize : ℕ
  payloadSize : ℕ
  payload : ℕ
  deriving DecidableEq, Repr

namespace HeaderAt

def parse (packet : Bytes) (buffer len : ℕ) : Reads (Option HeaderAt) :=
  if len < kHeaderSize then pure none
  else do
    let first ← byteIn packet buffer
    if first >>> 6 ≠ 2 then pure none
    else do
      let packetType ← byteIn packet (buffer + 1)
      let payloadSize := (← uint16In packet (buffer + 2)).toNat * 4
      let header : HeaderAt := { countOrFmt := first &&& 0x1f, packetType, paddingSize := 0, payloadSize,
                                 payload := buffer + kHeaderSize }
      if len < payloadSize + kHeaderSize then pure none
      else if first &&& 0x20 = 1 then
        if payloadSize = 0 then pure none
        else do
          let paddingSize := (← byteIn packet (header.payload + (payloadSize - 1))).toNat
          if paddingSize = 0 then pure none
          else pure (some { header with paddingSize, payloadSize := (payloadSize + 2^32 - paddingSize) % 2^32 })
      else pure (some header)

def nextPacket (h : HeaderAt) : ℕ := h.payload + (h.paddingSize + h.payloadSize)

/-- The header with the bytes of the packet behind its pointer. -/
def view (packet : Bytes) (h : HeaderAt) : CommonHeader :=
  { h with payload := packet.drop h.payload }

end HeaderAt

def ReportBlock.parseAt (packet : Bytes) (buffer : ℕ) : Reads ReportBlock := do
  let sourceSsrc ← uint32In packet buffer
  let fractionLost ← byteIn packet (buffer + 4)
  let packetsLost ← int24In packet (buffer + 5)
  let extendedHighSeqNum ← uint32In packet (buffer + 8)
  let jitter ← uint32In packet (buffer + 12)
  let lastSr ← uint32In packet (buffer + 16)
  let delaySinceLastSr ← uint32In packet (buffer + 20)
  return { sourceSsrc, fractionLost, packetsLost := packetsLost.val, extendedHighSeqNum, jitter, lastSr,
           delaySinceLastSr, lost_range := packetsLost.property }

/-- So many report blocks from a place on. -/
def readReportsAt (packet : Bytes) : ℕ → ℕ → Reads (List ReportBlock)
  | 0, _ => pure []
  | n + 1, nextBlock => do
    let block ← ReportBlock.parseAt packet nextBlock
    let blocks ← readReportsAt packet n (nextBlock + ReportBlock.kLength)
    return block :: blocks

def SenderReport.parseAt (packet : Bytes) (header : HeaderAt) : Reads (Option SenderReport) :=
  let reportBlockCount := header.countOrFmt.toNat
  if header.payloadSize < kSenderBaseLength + reportBlockCount * ReportBlock.kLength then pure none
  else do
    let senderSsrc ← uint32In packet header.payload
    let seconds ← uint32In packet (header.payload + 4)
    let fractions ← uint32In packet (header.payload + 8)
    let rtpTimestamp ← uint32In packet (header.payload + 12)
    let _ ← uint32In packet (header.payload + 16)
    let senderPacketCount ← uint32In packet (header.payload + 20)
    let reportBlocks ← readReportsAt packet reportBlockCount (header.payload + kSenderBaseLength)
    return some { senderSsrc, ntpTime := ⟨seconds, fractions⟩, rtpTimestamp, senderPacketCount,
                  senderOctetCount := none, reportBlocks }

/-- So many items from a place on. -/
def Nack.readItemsAt (packet : Bytes) : ℕ → ℕ → Reads (List PackedNack)
  | 0, _ => pure []
  | n + 1, nextNack => do
    let firstPid ← uint16In packet nextNack
    let bitmask ← uint16In packet (nextNack + 2)
    let items ← readItemsAt packet n (nextNack + kNackItemLength)
    return ⟨firstPid, bitmask⟩ :: items

def Nack.parseAt (packet : Bytes) (header : HeaderAt) : Reads (Option Nack) :=
  if header.payloadSize < kCommonFeedbackLength + kNackItemLength then pure none
  else do
    let senderSsrc ← uint32In packet header.payload
    let mediaSsrc ← uint32In packet (header.payload + 4)
    let packed ← readItemsAt packet ((header.payloadSize - kCommonFeedbackLength) / kNackItemLength)
      (header.payload + kCommonFeedbackLength)
    return some { senderSsrc, mediaSsrc, packed, packetIds := unpack packed }

namespace RTCPReceiver

def handleSenderReportAt (s : RTCPReceiver) (clock : Clock) (packet : Bytes) (block : HeaderAt) :
    Reads RTCPReceiver := do
  match ← SenderReport.parseAt packet block with
  | none => return s.skipPacket
  | some report => return report.reportBlocks.foldl (·.handleReportBlock clock ·) (s.keepReport clock report)

def handleNackAt (s : RTCPReceiver) (packet : Bytes) (block : HeaderAt) : Reads RTCPReceiver := do
  match ← Nack.parseAt packet block with
  | none => return s.skipPacket
  | some nack => return s.tell (.nackReceived s.audio nack.packetIds)

/-- The switch over the packet types. -/
def handleBlockAt (s : RTCPReceiver) (clock : Clock) (packet : Bytes) (block : HeaderAt) : Reads RTCPReceiver :=
  if block.packetType = SenderReport.kPacketType then s.handleSenderReportAt clock packet block
  else if block.packetType = Nack.kPacketType then
    if block.countOrFmt.toNat = Nack.kFeedbackMessageType then s.handleNackAt packet block
    else pure s.skipPacket
  else pure s

/-- A pointer difference as a size: a negative one is huge. -/
def toSize (n : ℤ) : ℕ := if 0 ≤ n then n.toNat else (n + 2^64).toNat

/-- `ParseCompoundPacket` with the blocks that go through the switch, for so many rounds of
its loop; it has no result if they do not suffice. -/
def parseCompoundPacket (clock : Clock) (packet : Bytes) :
    ℕ → RTCPReceiver → ℕ → Option (Reads (RTCPReceiver × List HeaderAt))
  | 0, _, _ => none
  | rounds + 1, s, nextBlock =>
    if nextBlock = packet.length then some (pure (s, []))
    else
      let parsed := HeaderAt.parse packet nextBlock (toSize (packet.length - nextBlock))
      match parsed.value with
      | none => some do
        let _ ← parsed
        return (if nextBlock = 0 then s else s.skipPacket, [])
      | some block =>
        let handled := s.handleBlockAt clock packet block
        (parseCompoundPacket clock packet rounds handled.value block.nextPacket).map fun rest => do
          let _ ← parsed
          let _ ← handled
          let (s, blocks) ← rest
          return (s, block :: blocks)

end RTCPReceiver
end Rtcp
end XrtcServer
