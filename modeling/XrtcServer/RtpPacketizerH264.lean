import XrtcServer.ByteFormat
import XrtcServer.SplitAboutEqual

/-! The packetizer of H.264 frames: the search for NAL units, the choice of packets, and
the writing of one packet after the other. -/
namespace XrtcServer
namespace RtpFormat
open ByteFormat

def kNaluShortStartSequenceSize : ℕ := 3
def kFuAHeaderSize : ℕ := 2
def kNaluHeaderSize : ℕ := 1
def kLengthFieldSize : ℕ := 2

def kFBit : UInt8 := 0x80
def kNriMask : UInt8 := 0x60
def kTypeMask : UInt8 := 0x1F

def kSBit : UInt8 := 0x80
def kEBit : UInt8 := 0x40

def kStapA : UInt8 := 24
def kFuA : UInt8 := 28

def kDefaultRtpCapacity : ℕ := 1500
def kFixedHeaderSize : ℕ := 12

structure NaluIndex where
  startOffset : ℕ
  payloadStartOffset : ℕ
  payloadSize : ℕ
  deriving DecidableEq, Repr

section FindNaluIndices
variable (buffer : Bytes)

def byteAt (i : ℕ) : UInt8 := buffer.getD i 0

/-- The entry for a start code whose last three bytes are at `i`. -/
def naluAt (i : ℕ) : NaluIndex where
  startOffset := if i > 0 ∧ byteAt buffer (i-1) = 0 then i - 1 else i
  payloadStartOffset := i + 3
  payloadSize := 0

/-- The last entry ends at an offset. -/
def closeLast (sequences : List NaluIndex) (stop : ℕ) : List NaluIndex :=
  sequences.modifyLast fun it => { it with payloadSize := stop - it.payloadStartOffset }

/-- The loop of `FindNaluIndices` from position `i`. -/
def findFrom (i : ℕ) (sequences : List NaluIndex) : List NaluIndex :=
  if i < buffer.length - kNaluShortStartSequenceSize then
    if byteAt buffer (i+2) > 1 then findFrom (i+3) sequences
    else if byteAt buffer (i+2) = 1 then
      if byteAt buffer i = 0 ∧ byteAt buffer (i+1) = 0 then
        findFrom (i+3) (closeLast sequences (naluAt buffer i).startOffset ++ [naluAt buffer i])
      else findFrom (i+3) sequences
    else findFrom (i+1) sequences
  else sequences
termination_by buffer.length - i

def findNaluIndices : List NaluIndex :=
  if buffer.length < kNaluShortStartSequenceSize then []
  else closeLast (findFrom buffer 0 []) buffer.length

/-- The part of the buffer that an entry stands for. -/
def subview (nalu : NaluIndex) : Bytes := (buffer.drop nalu.payloadStartOffset).take nalu.payloadSize

def fragmentsOf : List Bytes := (findNaluIndices buffer).map (subview buffer)

end FindNaluIndices

/-- What the packetizer uses of a packet. `overrun`: bytes were written outside of its
buffer. -/
structure RtpPacketToSend where
  capacity : ℕ := kDefaultRtpCapacity
  payloadOffset : ℕ := kFixedHeaderSize
  payload : Bytes := []
  marker : Bool := false
  overrun : Bool := false
  deriving DecidableEq, Repr

namespace RtpPacketToSend

def freeCapacity (packet : RtpPacketToSend) : ℕ :=
  packet.capacity - (packet.payloadOffset + packet.payload.length)

/-- The payload is allocated, and written through the pointer that this returns. -/
def write (packet : RtpPacketToSend) (bytes : Bytes) : RtpPacketToSend :=
  if packet.payloadOffset + bytes.length > packet.capacity then { packet with payload := [], overrun := true }
  else { packet with payload := bytes }

end RtpPacketToSend

structure PacketUnit where
  sourceFragment : Bytes
  firstFragment : Bool
  lastFragment : Bool
  aggregated : Bool
  header : UInt8
  deriving DecidableEq, Repr

/-- `readOutside`: the first byte of an empty fragment was read. `readPopped`: a unit was
read that the queue no longer has. -/
structure RtpPacketizerH264 where
  limits : PayloadLimits
  inputFragments : List Bytes
  packets : List PacketUnit := []
  numPacketsLeft : ℕ := 0
  readOutside : Bool := false
  readPopped : Bool := false

/-- `fragment[0]`. -/
def headerOf (fragment : Bytes) : UInt8 := fragment.headD 0

/-- The limits for the pieces of one NAL unit. -/
def fuALimits (limits : PayloadLimits) (count fragmentIndex : ℕ) : PayloadLimits :=
  let limits := { limits with maxPayloadLen := limits.maxPayloadLen - kFuAHeaderSize }
  let limits :=
    if count ≠ 1 then
      if fragmentIndex = count - 1 then { limits with singlePacketReductionLen := limits.lastPacketReductionLen }
      else if fragmentIndex = 0 then { limits with singlePacketReductionLen := limits.firstPacketReductionLen }
      else { limits with singlePacketReductionLen := 0 }
    else limits
  let limits := if fragmentIndex ≠ 0 then { limits with firstPacketReductionLen := 0 } else limits
  if fragmentIndex ≠ count - 1 then { limits with lastPacketReductionLen := 0 } else limits

/-- The packet units of a fragment that is cut into `sizes` from an offset on. -/
def fuAUnits (fragment : Bytes) (offset : ℕ) (first : Bool) : List ℕ → List PacketUnit
  | [] => []
  | packetLength :: sizes =>
    { sourceFragment := (fragment.drop offset).take packetLength
      firstFragment := first
      lastFragment := sizes = []
      aggregated := false
      header := headerOf fragment } :: fuAUnits fragment (offset + packetLength) false sizes

/-- The room for a NAL unit that has a packet of its own. -/
def singlePacketCapacity (limits : PayloadLimits) (count i : ℕ) : ℕ :=
  if count = 1 then limits.maxPayloadLen - limits.singlePacketReductionLen
  else if i = 0 then limits.maxPayloadLen - limits.firstPacketReductionLen
  else if i + 1 = count then limits.maxPayloadLen - limits.lastPacketReductionLen
  else limits.maxPayloadLen

/-- The room that an aggregation packet has at first. -/
def payloadSizeLeft (limits : PayloadLimits) (count fragmentIndex : ℕ) : ℕ :=
  if count = 1 then limits.maxPayloadLen - limits.singlePacketReductionLen
  else if fragmentIndex = 0 then limits.maxPayloadLen - limits.firstPacketReductionLen
  else limits.maxPayloadLen

def payloadSizeNeeded (limits : PayloadLimits) (count fragmentIndex fragmentSize : ℕ) : ℕ :=
  if count = 1 then fragmentSize
  else if fragmentIndex = count - 1 then fragmentSize + limits.lastPacketReductionLen
  else fragmentSize

/-- The loop of `PacketizeStapA` over the fragments from `fragmentIndex` on: the units
that go in the packet, and the index of the first fragment that does not. -/
def aggregateFrom (limits : PayloadLimits) (count : ℕ) (fragmentIndex aggregatedFragment left headerLength : ℕ) :
    List Bytes → List PacketUnit × ℕ
  | [] => ([], fragmentIndex)
  | fragment :: fragments =>
    if left ≥ payloadSizeNeeded limits count fragmentIndex (fragment.length + headerLength) then
      let headerLength' :=
        if aggregatedFragment = 0 then kLengthFieldSize + (kNaluHeaderSize + kLengthFieldSize)
        else kLengthFieldSize
      let rest := aggregateFrom limits count (fragmentIndex + 1) (aggregatedFragment + 1)
        (left - fragment.length - headerLength) headerLength' fragments
      ({ sourceFragment := fragment
         firstFragment := aggregatedFragment = 0
         lastFragment := false
         aggregated := true
         header := headerOf fragment } :: rest.1, rest.2)
    else ([], fragmentIndex)

/-- What `NextAggregatedPacket` takes from the queue: the bytes that it writes, the queue
that it leaves, and the number of units. -/
structure Taken where
  body : Bytes
  packets : List PacketUnit
  count : ℕ
  readPopped : Bool

def takeAggregated : List PacketUnit → Taken
  | [] => ⟨[], [], 0, true⟩
  | packet :: packets =>
    if packet.aggregated then
      let field := toBE kLengthFieldSize packet.sourceFragment.length ++ packet.sourceFragment
      if packet.lastFragment then ⟨field, packets, 1, false⟩
      else
        let rest := takeAggregated packets
        ⟨field ++ rest.body, rest.packets, rest.count + 1, rest.readPopped⟩
    else ⟨[], packet :: packets, 0, false⟩

namespace RtpPacketizerH264

/-- No result when the split does not end, `false` when it is empty. -/
def packetizeFuA (p : RtpPacketizerH264) (fragmentIndex : ℕ) : Option (Bool × RtpPacketizerH264) :=
  let fragment := p.inputFragments.getD fragmentIndex []
  let limits := fuALimits p.limits p.inputFragments.length fragmentIndex
  (splitAboutEqual (fragment.length - kNaluHeaderSize) limits).map fun payloadSizes =>
    if payloadSizes = [] then (false, p)
    else
      (true,
        { p with
          packets := p.packets ++ fuAUnits fragment kNaluHeaderSize true payloadSizes
          numPacketsLeft := p.numPacketsLeft + payloadSizes.length
          readOutside := p.readOutside || fragment = [] })

def packetizeStapA (p : RtpPacketizerH264) (fragmentIndex : ℕ) : ℕ × RtpPacketizerH264 :=
  let count := p.inputFragments.length
  let r := aggregateFrom p.limits count fragmentIndex 0 (payloadSizeLeft p.limits count fragmentIndex) 0
    (p.inputFragments.drop fragmentIndex)
  (r.2,
    { p with
      packets := (p.packets ++ r.1).modifyLast fun packet => { packet with lastFragment := true }
      numPacketsLeft := p.numPacketsLeft + 1
      readOutside := p.readOutside || r.1.any fun packet => packet.sourceFragment = [] })

/-- One round of the loop of `GeneratePackets`. -/
def generateBody : ℕ × RtpPacketizerH264 → (Bool × RtpPacketizerH264) ⊕ (ℕ × RtpPacketizerH264)
  | (i, p) =>
    if i < p.inputFragments.length then
      if (p.inputFragments.getD i []).length > singlePacketCapacity p.limits p.inputFragments.length i then
        match p.packetizeFuA i with
        | none => .inr (i, p)
        | some (false, p) => .inl (false, p)
        | some (true, p) => .inr (i + 1, p)
      else .inr (p.packetizeStapA i)
    else .inl (true, p)

def generatePackets (p : RtpPacketizerH264) : Option (Bool × RtpPacketizerH264) :=
  Loops.result generateBody (0, p)

/-- The constructor. -/
def make (payload : Bytes) (limits : PayloadLimits) : Option RtpPacketizerH264 :=
  (generatePackets { limits, inputFragments := fragmentsOf payload }).map fun r =>
    if r.1 then r.2 else { r.2 with numPacketsLeft := 0, packets := [] }

def nextAggregatedPacket (p : RtpPacketizerH264) (packet : PacketUnit) (rtpPacket : RtpPacketToSend) :
    RtpPacketizerH264 × RtpPacketToSend :=
  let taken := takeAggregated p.packets
  ({ p with
     packets := taken.packets
     inputFragments := p.inputFragments.drop taken.count
     readPopped := p.readPopped || taken.readPopped },
   rtpPacket.write (((packet.header &&& (kFBit ||| kNriMask)) ||| kStapA) :: taken.body))

/-- The unit is popped before its `last_fragment` is read. -/
def nextFragmentPacket (p : RtpPacketizerH264) (packet : PacketUnit) (rtpPacket : RtpPacketToSend) :
    RtpPacketizerH264 × RtpPacketToSend :=
  let fuIndicator := (packet.header &&& (kFBit ||| kNriMask)) ||| kFuA
  let fuHeader := (if packet.firstFragment then kSBit else 0) ||| (if packet.lastFragment then kEBit else 0)
  let fuHeader := fuHeader ||| (packet.header &&& kTypeMask)
  ({ p with
     packets := p.packets.tail
     inputFragments := if packet.lastFragment then p.inputFragments.tail else p.inputFragments
     readPopped := true },
   rtpPacket.write (fuIndicator :: fuHeader :: packet.sourceFragment))

/-- The packetizer and the packet after a call that returns true. -/
def nextPacket (p : RtpPacketizerH264) (rtpPacket : RtpPacketToSend) :
    Option (RtpPacketizerH264 × RtpPacketToSend) :=
  match p.packets with
  | [] => none
  | packet :: packets =>
    let r :=
      if packet.firstFragment ∧ packet.lastFragment then
        ({ p with packets := packets, inputFragments := p.inputFragments.tail },
          rtpPacket.write packet.sourceFragment)
      else if packet.aggregated then p.nextAggregatedPacket packet rtpPacket
      else p.nextFragmentPacket packet rtpPacket
    some ({ r.1 with numPacketsLeft := r.1.numPacketsLeft - 1 }, { r.2 with marker := r.1.packets = [] })

/-- Calls of `NextPacket`, each with a new packet, until it returns false. -/
def sendBody (capacity : ℕ) :
    RtpPacketizerH264 × List RtpPacketToSend →
      (RtpPacketizerH264 × List RtpPacketToSend) ⊕ (RtpPacketizerH264 × List RtpPacketToSend)
  | (p, sent) =>
    match p.nextPacket { capacity } with
    | none => .inl (p, sent)
    | some (p, rtpPacket) => .inr (p, sent ++ [rtpPacket])

def send (p : RtpPacketizerH264) (capacity : ℕ) : Option (RtpPacketizerH264 × List RtpPacketToSend) :=
  Loops.result (sendBody capacity) (p, [])

end RtpPacketizerH264

end RtpFormat
end XrtcServer
