import XrtcServer.RtcpPacket

/-! RTP packets in the memory of an object that is used again. -/
namespace XrtcServer
namespace Rtp
open ByteFormat StructLayout
open XrtcServer.Rtcp (byteAt readUint16 readUint32 writeUint16 writeUint32)

def kDefaultRtpCapacity : ℕ := 1500
def kFixedHeaderSize : ℕ := 12
def kRtpVersion : UInt8 := 2
def kOneByteExtensionProfileId : UInt16 := 0xBEDE
def kTwoByteExtensionProfileId : UInt16 := 0x1000
def kTwobyteExtensionProfileIdAppBitsFilter : UInt16 := 0xfff0
def kOneByteExtensionHeaderLength : ℕ := 1
def kTwoByteExtensionHeaderLength : ℕ := 2
def kOneByteHeaderExtensionReservedId : UInt8 := 15

/-- What lies behind the size is not read. -/
structure CopyOnWriteBuffer where
  data : Bytes
  capacity : ℕ
  size_le : data.length ≤ capacity

namespace CopyOnWriteBuffer

/-- New bytes are those that happen to be in memory. -/
def setSize (b : CopyOnWriteBuffer) (size : ℕ) (fill : ℕ → UInt8) : CopyOnWriteBuffer where
  data := if size ≤ b.data.length then b.data.take size
    else b.data ++ (List.range (size - b.data.length)).map fill
  capacity := max b.capacity size
  size_le := by
    have hle := b.size_le
    split
    · rw [List.length_take]
      omega
    · rw [List.length_append, List.length_map, List.length_range]
      omega

def writeAt (b : CopyOnWriteBuffer) (offset : ℕ) (byte : UInt8) : CopyOnWriteBuffer where
  data := b.data.set offset byte
  capacity := b.capacity
  size_le := by
    rw [List.length_set]
    exact b.size_le

/-- `ByteWriter` writes one byte after the other. -/
def writeBytes (b : CopyOnWriteBuffer) (offset : ℕ) : Bytes → CopyOnWriteBuffer
  | [] => b
  | byte :: bytes => (b.writeAt offset byte).writeBytes (offset + 1) bytes

theorem length_setSize (b : CopyOnWriteBuffer) (size : ℕ) (fill : ℕ → UInt8) : (b.setSize size fill).data.length = size := by
  rw [setSize]
  dsimp only
  split
  · rw [List.length_take]
    omega
  · rw [List.length_append, List.length_map, List.length_range]
    omega

@[simp] theorem length_writeAt (b : CopyOnWriteBuffer) (offset : ℕ) (byte : UInt8) :
    (b.writeAt offset byte).data.length = b.data.length := List.length_set

@[simp] theorem capacity_writeAt (b : CopyOnWriteBuffer) (offset : ℕ) (byte : UInt8) : (b.writeAt offset byte).capacity = b.capacity := rfl

theorem writeBytes_sizes (b : CopyOnWriteBuffer) (offset : ℕ) (bytes : Bytes) :
    (b.writeBytes offset bytes).data.length = b.data.length ∧ (b.writeBytes offset bytes).capacity = b.capacity := by
  induction bytes generalizing b offset with
  | nil => exact ⟨rfl, rfl⟩
  | cons byte bytes ih =>
    obtain ⟨hlength, hcapacity⟩ := ih (b.writeAt offset byte) (offset + 1)
    exact ⟨hlength.trans (length_writeAt b offset byte), hcapacity⟩

end CopyOnWriteBuffer

structure ExtensionInfo where
  id : UInt8
  length : UInt8 := 0
  offset : UInt16 := 0
  deriving DecidableEq

/-- `FindOrCreateExtensionInfo` with what is done to the entry that it gives. -/
def updateExtensionInfo (id : UInt8) (f : ExtensionInfo → ExtensionInfo) : List ExtensionInfo → List ExtensionInfo
  | [] => [f { id }]
  | info :: infos => if info.id = id then f info :: infos else info :: updateExtensionInfo id f infos

/-- An element of a header extension: where its data start in the packet, and how many they are. -/
structure Element where
  id : UInt8
  start : ℕ
  length : UInt8

/-- A header extension with a profile that is read: its place in the packet and its size. -/
structure Extension where
  oneByte : Bool
  offset : ℕ
  capacity : ℕ

namespace Extension

def headerLength (x : Extension) : ℕ := if x.oneByte then kOneByteExtensionHeaderLength else kTwoByteExtensionHeaderLength

/-- The element at a position that is not a padding byte. -/
def elementAt (x : Extension) (buffer : Bytes) (pos : ℕ) : Element :=
  let byte := byteAt buffer (x.offset + pos)
  if x.oneByte then ⟨byte >>> 4, x.offset + pos + x.headerLength, 1 + (byte &&& 0xf)⟩
  else ⟨byte, x.offset + pos + x.headerLength, byteAt buffer (x.offset + pos + 1)⟩

/-- An id that ends the extension, or an element that is longer than it. -/
def ends (x : Extension) (pos : ℕ) (e : Element) : Bool :=
  x.oneByte && (e.id = kOneByteHeaderExtensionReservedId || e.id = 0 && e.length ≠ 1) ||
    pos + x.headerLength + e.length.toNat > x.capacity

/-- The loop of `ParseBuffer` over the extension, with `extensions_size_` and the entries. Every
round goes at least one byte further. -/
def parse (x : Extension) (buffer : Bytes) : ℕ → ℕ → List ExtensionInfo → ℕ × List ExtensionInfo
  | 0, pos, infos => (pos, infos)
  | rounds + 1, pos, infos =>
    if ¬ pos + x.headerLength < x.capacity then (pos, infos)
    else if byteAt buffer (x.offset + pos) = 0 then x.parse buffer rounds (pos + 1) infos
    else
      let e := x.elementAt buffer pos
      if x.ends pos e then (pos, infos)
      else if 65536 ≤ e.start then (pos, updateExtensionInfo e.id id infos)
      else
        let infos := updateExtensionInfo e.id (fun info => { info with offset := UInt16.ofNat e.start, length := e.length }) infos
        x.parse buffer rounds (pos + x.headerLength + e.length.toNat) infos

/-- The elements from a position on. -/
def elements (x : Extension) (buffer : Bytes) : ℕ → ℕ → List Element
  | 0, _ => []
  | rounds + 1, pos =>
    if ¬ pos + x.headerLength < x.capacity then []
    else if byteAt buffer (x.offset + pos) = 0 then x.elements buffer rounds (pos + 1)
    else
      let e := x.elementAt buffer pos
      if x.ends pos e then [] else e :: x.elements buffer rounds (pos + x.headerLength + e.length.toNat)

end Extension

structure RtpPacket where
  marker : Bool := false
  payloadType : UInt8 := 0
  sequenceNumber : UInt16 := 0
  timestamp : UInt32 := 0
  ssrc : UInt32 := 0
  payloadOffset : ℕ
  payloadSize : ℕ := 0
  paddingSize : ℕ := 0
  buffer : CopyOnWriteBuffer
  extensionsSize : ℕ := 0
  extensionEntries : List ExtensionInfo := []

namespace RtpPacket

/-- The sizes are added up as `size_t`. -/
def size (p : RtpPacket) : ℕ := (p.payloadOffset + p.payloadSize + p.paddingSize) % 2^64

def clear (p : RtpPacket) (fill : ℕ → UInt8) : RtpPacket :=
  { p with
    marker := false
    payloadType := 0
    sequenceNumber := 0
    timestamp := 0
    ssrc := 0
    payloadOffset := kFixedHeaderSize
    payloadSize := 0
    paddingSize := 0
    buffer := (p.buffer.setSize kFixedHeaderSize fill).writeAt 0 (kRtpVersion <<< 6) }

/-- The buffer is made with its capacity as its size. -/
def make (capacity : ℕ) (fill : ℕ → UInt8) : RtpPacket :=
  let buffer : CopyOnWriteBuffer :=
    { data := (List.range capacity).map fill, capacity, size_le := by rw [List.length_map, List.length_range] }
  clear { payloadOffset := 0, buffer } fill

def setMarker (p : RtpPacket) (markerBit : Bool) : RtpPacket :=
  let byte := byteAt p.buffer.data 1
  { p with marker := markerBit, buffer := p.buffer.writeAt 1 (if markerBit then byte ||| 0x80 else byte &&& 0x7F) }

def setPayloadType (p : RtpPacket) (payloadType : UInt8) : RtpPacket :=
  { p with payloadType, buffer := p.buffer.writeAt 1 ((byteAt p.buffer.data 1 &&& 0x80) ||| payloadType) }

def setSequenceNumber (p : RtpPacket) (seqNo : UInt16) : RtpPacket :=
  { p with sequenceNumber := seqNo, buffer := p.buffer.writeBytes 2 (writeUint16 seqNo) }

def setTimestamp (p : RtpPacket) (ts : UInt32) : RtpPacket :=
  { p with timestamp := ts, buffer := p.buffer.writeBytes 4 (writeUint32 ts) }

def setSsrc (p : RtpPacket) (ssrc : UInt32) : RtpPacket := { p with ssrc, buffer := p.buffer.writeBytes 8 (writeUint32 ssrc) }

/-- What the buffer gets as its size for a payload, a `size_t`. -/
def payloadEnd (p : RtpPacket) (bytesSize : UInt64) : ℕ := (p.payloadOffset + bytesSize.toNat) % 2^64

/-- Where there is no room, nothing is changed. -/
def setPayloadSize (p : RtpPacket) (bytesSize : UInt64) (fill : ℕ → UInt8) : RtpPacket :=
  if p.payloadEnd bytesSize > p.buffer.capacity then p
  else { p with payloadSize := bytesSize.toNat, buffer := p.buffer.setSize (p.payloadEnd bytesSize) fill }

def allocatePayload (p : RtpPacket) (payloadSize : UInt64) (fill : ℕ → UInt8) : RtpPacket :=
  (p.setPayloadSize 0 fill).setPayloadSize payloadSize fill

/-- The header extension at an offset, if it fits: its end, and the extension itself if its profile
is known. -/
def extensionAt (buffer : Bytes) (payloadOffset : ℕ) : Option (ℕ × Option Extension) :=
  let offset := payloadOffset + 4
  if offset > buffer.length then none
  else
    let profile := readUint16 buffer payloadOffset
    let capacity := (readUint16 buffer (payloadOffset + 2)).toNat * 4
    if offset + capacity > buffer.length then none
    else if profile ≠ kOneByteExtensionProfileId ∧
        profile &&& kTwobyteExtensionProfileIdAppBitsFilter ≠ kTwoByteExtensionProfileId then some (offset + capacity, none)
    else some (offset + capacity, some ⟨profile = kOneByteExtensionProfileId, offset, capacity⟩)

/-- The extension is read into the entries. -/
def parseExtension (p : RtpPacket) (buffer : Bytes) : Option RtpPacket :=
  match extensionAt buffer p.payloadOffset with
  | none => none
  | some (payloadOffset, none) => some { p with payloadOffset }
  | some (payloadOffset, some x) =>
    let (extensionsSize, extensionEntries) := x.parse buffer x.capacity p.extensionsSize p.extensionEntries
    some { p with payloadOffset, extensionsSize, extensionEntries }

def parsePadding (p : RtpPacket) (buffer : Bytes) (hasPadding : Bool) : RtpPacket × Bool :=
  let padded := hasPadding && decide (p.payloadOffset < buffer.length)
  let p := { p with paddingSize := if padded then (byteAt buffer (buffer.length - 1)).toNat else 0 }
  if padded && p.paddingSize = 0 then (p, false)
  else if p.payloadOffset + p.paddingSize > buffer.length then (p, false)
  else ({ p with payloadSize := buffer.length - p.payloadOffset - p.paddingSize }, true)

/-- The object may be left half filled. -/
def parseBuffer (p : RtpPacket) (buffer : Bytes) : RtpPacket × Bool :=
  if buffer.length < kFixedHeaderSize then (p, false)
  else if byteAt buffer 0 >>> 6 ≠ kRtpVersion then (p, false)
  else
    let hasPadding := byteAt buffer 0 &&& 0x20 ≠ 0
    let hasExtension := byteAt buffer 0 &&& 0x10 ≠ 0
    let numberOfCrcs := (byteAt buffer 0 &&& 0x0f).toNat
    let p :=
      { p with
        marker := byteAt buffer 1 &&& 0x80 ≠ 0
        payloadType := byteAt buffer 1 &&& 0x7f
        sequenceNumber := readUint16 buffer 2
        timestamp := readUint32 buffer 4
        ssrc := readUint32 buffer 8 }
    if buffer.length < kFixedHeaderSize + numberOfCrcs * 4 then (p, false)
    else
      let p := { p with payloadOffset := kFixedHeaderSize + numberOfCrcs * 4, extensionsSize := 0, extensionEntries := [] }
      match if hasExtension then p.parseExtension buffer else some p with
      | none => (p, false)
      | some p => p.parsePadding buffer hasPadding

/-- How much memory the buffer has behind its bytes is up to it, or to the buffer that is moved. -/
def parse (p : RtpPacket) (buffer : Bytes) (capacity : ℕ) (fill : ℕ → UInt8) : RtpPacket × Bool :=
  match p.parseBuffer buffer with
  | (p, true) => ({ p with buffer := ⟨buffer, max capacity buffer.length, le_max_right _ _⟩ }, true)
  | (p, false) => (p.clear fill, false)

def findExtensionInfo (p : RtpPacket) (id : UInt8) : Option ExtensionInfo := p.extensionEntries.find? fun info => info.id = id

/-- The view of an extension, for what a map gives as the ids of the types. -/
def findExtension {τ : Type} (getId : τ → UInt8) (p : RtpPacket) (type : τ) : Bytes :=
  if getId type = 0 then []
  else
    match p.findExtensionInfo (getId type) with
    | none => []
    | some info => load p.buffer.data info.offset.toNat info.length.toNat

def hasExtension {τ : Type} (getId : τ → UInt8) (p : RtpPacket) (type : τ) : Bool :=
  if getId type = 0 then false else (p.findExtensionInfo (getId type)).isSome

/-- A call of the interface. -/
inductive Call
  | construct (capacity : ℕ)
  | parse (buffer : Bytes) (capacity : ℕ) (isSize : buffer.length < 2^64)
  | clear
  | setMarker (markerBit : Bool)
  | setPayloadType (payloadType : UInt8)
  | setSequenceNumber (seqNo : UInt16)
  | setTimestamp (ts : UInt32)
  | setSsrc (ssrc : UInt32)
  | setPayloadSize (bytesSize : UInt64)
  | allocatePayload (payloadSize : UInt64)

/-- With what is in the memory that it takes. -/
structure Event where
  call : Call
  fill : ℕ → UInt8

def step (p : RtpPacket) (e : Event) : RtpPacket :=
  match e.call with
  | .construct capacity => make capacity e.fill
  | .parse buffer capacity _ => (p.parse buffer capacity e.fill).1
  | .clear => p.clear e.fill
  | .setMarker markerBit => p.setMarker markerBit
  | .setPayloadType payloadType => p.setPayloadType payloadType
  | .setSequenceNumber seqNo => p.setSequenceNumber seqNo
  | .setTimestamp ts => p.setTimestamp ts
  | .setSsrc ssrc => p.setSsrc ssrc
  | .setPayloadSize bytesSize => p.setPayloadSize bytesSize e.fill
  | .allocatePayload payloadSize => p.allocatePayload payloadSize e.fill

end RtpPacket

end Rtp
end XrtcServer
