import XrtcServer.RtpPacketReuse

/-! Packets that are built to be sent, and what a reader makes of their bytes. -/
namespace XrtcServer
namespace Rtp
open ByteFormat StructLayout
open XrtcServer.Rtcp (byteAt readUint16 readUint32 writeUint16 writeUint32 readUint16_append readUint32_append)

namespace CopyOnWriteBuffer
variable {b : CopyOnWriteBuffer} {offset i size : ℕ} {byte : UInt8}

theorem load_put_after {mem v : Bytes} {pos : ℕ} (hfit : pos + v.length ≤ mem.length) (h : pos + v.length ≤ i) :
    load (put mem pos v) i size = load mem i size := by
  have hpos : (mem.take pos).length = pos := List.length_take_of_le (by omega)
  rw [put, load_append_of_le (by omega), load_append_of_le (by omega), hpos, load, load, List.drop_drop]
  congr 2
  omega

theorem data_writeAt (h : offset < b.data.length) : (b.writeAt offset byte).data = put b.data offset [byte] := by
  change b.data.set offset byte = _
  rw [put, List.set_eq_take_append_cons_drop, if_pos h]
  rfl

/-- Bytes that are written behind others are written with them. -/
theorem put_put {mem : Bytes} {pos : ℕ} (h : pos ≤ mem.length) (v w : Bytes) :
    put (put mem pos v) (pos + v.length) w = put mem pos (v ++ w) := by
  have hpos : (mem.take pos).length = pos := List.length_take_of_le h
  have hfront : (mem.take pos ++ v).length = pos + v.length := by rw [List.length_append, hpos]
  have hput : put mem pos v = (mem.take pos ++ v) ++ mem.drop (pos + v.length) := by simp [put]
  rw [hput, put_append hfront, List.drop_drop, put]
  simp [Nat.add_assoc]

theorem data_writeBytes {bytes : Bytes} (h : offset + bytes.length ≤ b.data.length) :
    (b.writeBytes offset bytes).data = put b.data offset bytes := by
  induction bytes generalizing b offset with
  | nil => simp [writeBytes, put]
  | cons byte bytes ih =>
    rw [List.length_cons] at h
    have hlt : offset < b.data.length := by omega
    rw [writeBytes, ih (by rw [length_writeAt]; omega), data_writeAt hlt]
    exact put_put hlt.le [byte] bytes

/-- What stays in the buffer is not touched when its size is set. -/
theorem load_setSize {n : ℕ} {fill : ℕ → UInt8} (hn : i + size ≤ n) (hlen : i + size ≤ b.data.length) :
    load (b.setSize n fill).data i size = load b.data i size := by
  rw [setSize]
  dsimp only
  split
  · rw [load, load, List.drop_take, List.take_take, Nat.min_eq_left (by omega)]
  · exact load_append_left hlen _

end CopyOnWriteBuffer

/-- The fields of the fixed header that a packet sets. -/
inductive HeaderField
  | marker | payloadType | sequenceNumber | timestamp | ssrc
  deriving DecidableEq

namespace HeaderField

def offset : HeaderField → ℕ
  | marker => 1
  | payloadType => 1
  | sequenceNumber => 2
  | timestamp => 4
  | ssrc => 8

def size : HeaderField → ℕ
  | marker => 1
  | payloadType => 1
  | sequenceNumber => 2
  | timestamp => 4
  | ssrc => 4

/-- What a reader takes for the field. -/
def valueIn (buffer : Bytes) : HeaderField → ℕ
  | marker => if byteAt buffer 1 &&& 0x80 ≠ 0 then 1 else 0
  | payloadType => (byteAt buffer 1 &&& 0x7f).toNat
  | sequenceNumber => (readUint16 buffer 2).toNat
  | timestamp => (readUint32 buffer 4).toNat
  | ssrc => (readUint32 buffer 8).toNat

theorem byteAt_eq_load (buffer : Bytes) (i : ℕ) : byteAt buffer i = byteAt (load buffer i 1) 0 := by
  simp [byteAt, load, List.getD_eq_getElem?_getD]

theorem valueIn_congr {a b : Bytes} (f : HeaderField) (h : load a f.offset f.size = load b f.offset f.size) :
    valueIn a f = valueIn b f := by
  cases f with
  | marker => rw [valueIn, valueIn, byteAt_eq_load a, byteAt_eq_load b, show load a 1 1 = load b 1 1 from h]
  | payloadType => rw [valueIn, valueIn, byteAt_eq_load a, byteAt_eq_load b, show load a 1 1 = load b 1 1 from h]
  | sequenceNumber => rw [valueIn, valueIn, readUint16, readUint16, show load a 2 2 = load b 2 2 from h]
  | timestamp => rw [valueIn, valueIn, readUint32, readUint32, show load a 4 4 = load b 4 4 from h]
  | ssrc => rw [valueIn, valueIn, readUint32, readUint32, show load a 8 4 = load b 8 4 from h]

/-- A field does not see what is written beside it. -/
theorem valueIn_put {mem v : Bytes} {pos : ℕ} (f : HeaderField) (hfit : pos + v.length ≤ mem.length)
    (h : pos + v.length ≤ f.offset ∨ f.offset + f.size ≤ pos) : valueIn (put mem pos v) f = valueIn mem f := by
  rcases h with h | h
  · exact valueIn_congr f (CopyOnWriteBuffer.load_put_after hfit h)
  · exact valueIn_congr f (load_put_before h (by omega) v)

theorem apart {f g : HeaderField} (h : f.offset ≠ g.offset) :
    g.offset + g.size ≤ f.offset ∨ f.offset + f.size ≤ g.offset := by
  cases f <;> cases g <;> simp_all [offset, size]

theorem place (f : HeaderField) : 1 ≤ f.offset ∧ f.offset + f.size ≤ kFixedHeaderSize := by
  cases f <;> decide

end HeaderField

namespace RtpPacket
open HeaderField
variable {p : RtpPacket} {e : Event}

def value (p : RtpPacket) : HeaderField → ℕ
  | .marker => if p.marker then 1 else 0
  | .payloadType => p.payloadType.toNat
  | .sequenceNumber => p.sequenceNumber.toNat
  | .timestamp => p.timestamp.toNat
  | .ssrc => p.ssrc.toNat

/-- The buffer has the field as the packet has it. -/
def Agrees (p : RtpPacket) (f : HeaderField) : Prop := valueIn p.buffer.data f = p.value f

def Call.sets : Call → Option HeaderField
  | .setMarker _ => some .marker
  | .setPayloadType _ => some .payloadType
  | .setSequenceNumber _ => some .sequenceNumber
  | .setTimestamp _ => some .timestamp
  | .setSsrc _ => some .ssrc
  | _ => none

/-- A call that builds a packet: payload types have seven bits, and sizes can be added up. -/
def Call.Builds : Call → Prop
  | .construct _ => False
  | .parse _ _ _ => False
  | .clear => False
  | .setPayloadType payloadType => payloadType &&& 0x80 = 0
  | .setPayloadSize bytesSize => kFixedHeaderSize + bytesSize.toNat < 2^64
  | .allocatePayload payloadSize => kFixedHeaderSize + payloadSize.toNat < 2^64
  | _ => True

instance decidableBuilds : (c : Call) → Decidable c.Builds
  | .construct _ | .parse _ _ _ | .clear => inferInstanceAs (Decidable False)
  | .setPayloadType payloadType => inferInstanceAs (Decidable (payloadType &&& 0x80 = 0))
  | .setPayloadSize n | .allocatePayload n => inferInstanceAs (Decidable (kFixedHeaderSize + n.toNat < 2^64))
  | .setMarker _ | .setSequenceNumber _ | .setTimestamp _ | .setSsrc _ => inferInstanceAs (Decidable True)

/-- A packet that was not parsed: a fixed header and a payload. -/
structure Fresh (p : RtpPacket) : Prop where
  offset : p.payloadOffset = kFixedHeaderSize
  padding : p.paddingSize = 0
  length : p.buffer.data.length = kFixedHeaderSize + p.payloadSize
  first : byteAt p.buffer.data 0 = 0x80

theorem and_of_or (b c d : UInt8) : (b ||| c) &&& d = b &&& d ||| c &&& d := by
  apply UInt8.toBitVec_inj.mp
  rw [UInt8.toBitVec_and, UInt8.toBitVec_or, UInt8.toBitVec_or, UInt8.toBitVec_and, UInt8.toBitVec_and,
    BitVec.and_or_distrib_right]

theorem and_or_self (b c : UInt8) : (b ||| c) &&& c = c := by
  apply UInt8.toBitVec_inj.mp
  rw [UInt8.toBitVec_and, UInt8.toBitVec_or]
  ext i hi
  rw [BitVec.getElem_and, BitVec.getElem_or]
  cases b.toBitVec[i] <;> cases c.toBitVec[i] <;> rfl

/-- The low bits of the second byte are left by the marker. -/
theorem markerByte (byte : UInt8) (markerBit : Bool) :
    (if markerBit then byte ||| 0x80 else byte &&& 0x7F) &&& 0x80 = (if markerBit then 0x80 else 0) ∧
      (if markerBit then byte ||| 0x80 else byte &&& 0x7F) &&& 0x7f = byte &&& 0x7f := by
  have hapart : (0x80 : UInt8) &&& 0x7f = 0 := rfl
  cases markerBit with
  | true => exact ⟨and_or_self byte 0x80, by rw [if_pos rfl, and_of_or, hapart, UInt8.or_zero]⟩
  | false =>
    rw [if_neg (by decide), if_neg (by decide), UInt8.and_assoc, UInt8.and_assoc, UInt8.and_self,
      UInt8.and_comm 0x7F, hapart, UInt8.and_zero]
    exact ⟨rfl, rfl⟩

/-- Its high bit is left by the payload type. -/
theorem payloadTypeByte {payloadType : UInt8} (h : payloadType &&& 0x80 = 0) (byte : UInt8) :
    (byte &&& 0x80 ||| payloadType) &&& 0x80 = byte &&& 0x80 ∧
      (byte &&& 0x80 ||| payloadType) &&& 0x7f = payloadType := by
  have hapart : (0x80 : UInt8) &&& 0x7f = 0 := rfl
  have hlow : payloadType &&& 0x7f = payloadType := by
    have hall : payloadType &&& (0x80 ||| 0x7f) = payloadType := UInt8.and_neg_one
    rwa [UInt8.and_comm, and_of_or, UInt8.and_comm, h, UInt8.zero_or, UInt8.and_comm] at hall
  rw [and_of_or, and_of_or, h, hlow, UInt8.and_assoc, UInt8.and_assoc, UInt8.and_self, hapart, UInt8.and_zero,
    UInt8.or_zero, UInt8.zero_or]
  exact ⟨rfl, rfl⟩

/-- A setter writes its field into the buffer, and leaves the field in the same byte. -/
theorem Fresh.set (h : p.Fresh) {q : RtpPacket} {g : HeaderField} {v : Bytes}
    (hdata : q.buffer.data = put p.buffer.data g.offset v) (hlength : v.length = g.size)
    (hkeeps : q.payloadOffset = p.payloadOffset ∧ q.paddingSize = p.paddingSize ∧ q.payloadSize = p.payloadSize)
    (hvalues : ∀ f, f ≠ g → q.value f = p.value f) (hown : q.Agrees g)
    (hshared : ∀ f, f ≠ g → f.offset = g.offset → (q.Agrees f ↔ p.Agrees f)) :
    q.Fresh ∧ ∀ f, q.Agrees f ↔ some g = some f ∨ p.Agrees f := by
  obtain ⟨hpos, hfit⟩ := g.place
  have hroom : g.offset + v.length ≤ p.buffer.data.length := by rw [h.length]; omega
  refine ⟨⟨hkeeps.1.trans h.offset, hkeeps.2.1.trans h.padding, ?_, ?_⟩, fun f => ?_⟩
  · rw [hdata, put_length hroom, hkeeps.2.2, h.length]
  · rw [hdata, byteAt_eq_load, load_put_before (by omega) (by omega), ← byteAt_eq_load, h.first]
  · by_cases hfg : f = g
    · exact ⟨fun _ => .inl (hfg ▸ rfl), fun _ => hfg ▸ hown⟩
    · rw [or_iff_right fun heq => hfg (Option.some.inj heq).symm]
      by_cases hoffset : f.offset = g.offset
      · exact hshared f hfg hoffset
      · rw [Agrees, hdata, valueIn_put f hroom (by rw [hlength]; exact apart hoffset), hvalues f hfg, Agrees]

theorem Fresh.length_le (h : p.Fresh) (f : HeaderField) : f.offset + f.size ≤ p.buffer.data.length := by
  have hplace := f.place.2
  rw [h.length]
  omega

theorem byteAt_put {mem : Bytes} {pos : ℕ} (h : pos < mem.length) (byte : UInt8) :
    byteAt (put mem pos [byte]) pos = byte := by
  have hload := load_put (Nat.le_of_lt h) [byte]
  rw [byteAt_eq_load, show load (put mem pos [byte]) pos 1 = [byte] from hload]
  rfl

theorem Fresh.setMarker (h : p.Fresh) (markerBit : Bool) : (p.setMarker markerBit).Fresh ∧
    ∀ f, (p.setMarker markerBit).Agrees f ↔ some HeaderField.marker = some f ∨ p.Agrees f := by
  have hroom : 1 < p.buffer.data.length := h.length_le .marker
  obtain ⟨hhigh, hlow⟩ := markerByte (byteAt p.buffer.data 1) markerBit
  have hdata : (p.setMarker markerBit).buffer.data = put p.buffer.data 1 [if markerBit then
    byteAt p.buffer.data 1 ||| 0x80 else byteAt p.buffer.data 1 &&& 0x7F] := CopyOnWriteBuffer.data_writeAt hroom
  generalize (if markerBit then byteAt p.buffer.data 1 ||| 0x80 else byteAt p.buffer.data 1 &&& 0x7F) = byte
    at hhigh hlow hdata
  refine h.set (g := .marker) hdata rfl ⟨rfl, rfl, rfl⟩ ?_ ?_ ?_
  · intro f hf
    cases f <;> first | rfl | exact absurd rfl hf
  · rw [Agrees, hdata, valueIn, byteAt_put hroom, hhigh]
    cases markerBit <;> rfl
  · intro f hf hoffset
    cases f with
    | payloadType =>
      rw [Agrees, hdata, valueIn, byteAt_put hroom, hlow]
      exact Iff.rfl
    | marker => exact absurd rfl hf
    | sequenceNumber => cases hoffset
    | timestamp => cases hoffset
    | ssrc => cases hoffset

theorem Fresh.setPayloadType (h : p.Fresh) {payloadType : UInt8} (hbits : payloadType &&& 0x80 = 0) :
    (p.setPayloadType payloadType).Fresh ∧
      ∀ f, (p.setPayloadType payloadType).Agrees f ↔ some HeaderField.payloadType = some f ∨ p.Agrees f := by
  have hroom : 1 < p.buffer.data.length := h.length_le .payloadType
  obtain ⟨hhigh, hlow⟩ := payloadTypeByte hbits (byteAt p.buffer.data 1)
  have hdata : (p.setPayloadType payloadType).buffer.data = put p.buffer.data 1
    [byteAt p.buffer.data 1 &&& 0x80 ||| payloadType] := CopyOnWriteBuffer.data_writeAt hroom
  generalize byteAt p.buffer.data 1 &&& 0x80 ||| payloadType = byte at hhigh hlow hdata
  refine h.set (g := .payloadType) hdata rfl ⟨rfl, rfl, rfl⟩ ?_ ?_ ?_
  · intro f hf
    cases f <;> first | rfl | exact absurd rfl hf
  · rw [Agrees, hdata, valueIn, byteAt_put hroom, hlow]
    rfl
  · intro f hf hoffset
    cases f with
    | marker =>
      rw [Agrees, hdata, valueIn, byteAt_put hroom, hhigh]
      exact Iff.rfl
    | payloadType => exact absurd rfl hf
    | sequenceNumber => cases hoffset
    | timestamp => cases hoffset
    | ssrc => cases hoffset

/-- A number that a setter writes is read there. -/
theorem readUint16_put {mem : Bytes} {pos : ℕ} (h : pos ≤ mem.length) (n : UInt16) :
    readUint16 (put mem pos (writeUint16 n)) pos = n := by
  rw [put, Rtcp.readUint16_skip (by simp), List.length_take_of_le h, Nat.sub_self, readUint16_append]

theorem readUint32_put {mem : Bytes} {pos : ℕ} (h : pos ≤ mem.length) (n : UInt32) :
    readUint32 (put mem pos (writeUint32 n)) pos = n := by
  rw [put, Rtcp.readUint32_skip (by simp), List.length_take_of_le h, Nat.sub_self, readUint32_append]

/-- A setter of a field with bytes of its own. -/
theorem Fresh.setNumber (h : p.Fresh) {q : RtpPacket} {g : HeaderField} {v : Bytes}
    (hdata : q.buffer = p.buffer.writeBytes g.offset v) (hlength : v.length = g.size)
    (hkeeps : q.payloadOffset = p.payloadOffset ∧ q.paddingSize = p.paddingSize ∧ q.payloadSize = p.payloadSize)
    (hvalues : ∀ f, f ≠ g → q.value f = p.value f) (hown : valueIn (put p.buffer.data g.offset v) g = q.value g)
    (halone : ∀ f, f ≠ g → f.offset ≠ g.offset) :
    q.Fresh ∧ ∀ f, q.Agrees f ↔ some g = some f ∨ p.Agrees f := by
  have hput : q.buffer.data = put p.buffer.data g.offset v := by
    rw [hdata, CopyOnWriteBuffer.data_writeBytes (by rw [hlength]; exact h.length_le g)]
  exact h.set hput hlength hkeeps hvalues (by rw [Agrees, hput, hown]) fun f hf hoffset =>
    absurd hoffset (halone f hf)

theorem Fresh.setSequenceNumber (h : p.Fresh) (seqNo : UInt16) : (p.setSequenceNumber seqNo).Fresh ∧
    ∀ f, (p.setSequenceNumber seqNo).Agrees f ↔ some HeaderField.sequenceNumber = some f ∨ p.Agrees f := by
  refine h.setNumber (g := .sequenceNumber) rfl (Rtcp.writeUint16_length seqNo) ⟨rfl, rfl, rfl⟩ ?_ ?_ ?_
  · intro f hf
    cases f <;> first | rfl | exact absurd rfl hf
  · exact congrArg UInt16.toNat (readUint16_put ((Nat.le_add_right _ _).trans (h.length_le .sequenceNumber)) seqNo)
  · intro f hf
    cases f <;> first | decide | exact absurd rfl hf

theorem Fresh.setTimestamp (h : p.Fresh) (ts : UInt32) : (p.setTimestamp ts).Fresh ∧
    ∀ f, (p.setTimestamp ts).Agrees f ↔ some HeaderField.timestamp = some f ∨ p.Agrees f := by
  refine h.setNumber (g := .timestamp) rfl (Rtcp.writeUint32_length ts) ⟨rfl, rfl, rfl⟩ ?_ ?_ ?_
  · intro f hf
    cases f <;> first | rfl | exact absurd rfl hf
  · exact congrArg UInt32.toNat (readUint32_put ((Nat.le_add_right _ _).trans (h.length_le .timestamp)) ts)
  · intro f hf
    cases f <;> first | decide | exact absurd rfl hf

theorem Fresh.setSsrc (h : p.Fresh) (ssrc : UInt32) : (p.setSsrc ssrc).Fresh ∧
    ∀ f, (p.setSsrc ssrc).Agrees f ↔ some HeaderField.ssrc = some f ∨ p.Agrees f := by
  refine h.setNumber (g := .ssrc) rfl (Rtcp.writeUint32_length ssrc) ⟨rfl, rfl, rfl⟩ ?_ ?_ ?_
  · intro f hf
    cases f <;> first | rfl | exact absurd rfl hf
  · exact congrArg UInt32.toNat (readUint32_put ((Nat.le_add_right _ _).trans (h.length_le .ssrc)) ssrc)
  · intro f hf
    cases f <;> first | decide | exact absurd rfl hf

theorem value_setPayloadSize (p : RtpPacket) (bytesSize : UInt64) (fill : ℕ → UInt8) (f : HeaderField) :
    (p.setPayloadSize bytesSize fill).value f = p.value f := by
  unfold RtpPacket.setPayloadSize
  split
  · rfl
  · cases f <;> rfl

theorem Fresh.payloadEnd_eq (h : p.Fresh) {bytesSize : UInt64} (hsize : kFixedHeaderSize + bytesSize.toNat < 2^64) :
    p.payloadEnd bytesSize = kFixedHeaderSize + bytesSize.toNat := by
  rw [payloadEnd, h.offset, Nat.mod_eq_of_lt hsize]

/-- Setting the size of the payload leaves the header. -/
theorem Fresh.load_setPayloadSize (h : p.Fresh) {bytesSize : UInt64} (hsize : kFixedHeaderSize + bytesSize.toNat < 2^64)
    (fill : ℕ → UInt8) {i size : ℕ} (hin : i + size ≤ kFixedHeaderSize) :
    load (p.setPayloadSize bytesSize fill).buffer.data i size = load p.buffer.data i size := by
  unfold RtpPacket.setPayloadSize
  split
  · rfl
  · rw [h.payloadEnd_eq hsize]
    exact CopyOnWriteBuffer.load_setSize (by omega) (by rw [h.length]; omega)

theorem Fresh.setPayloadSize (h : p.Fresh) {bytesSize : UInt64} (hsize : kFixedHeaderSize + bytesSize.toNat < 2^64)
    (fill : ℕ → UInt8) : (p.setPayloadSize bytesSize fill).Fresh ∧
      ∀ f, (p.setPayloadSize bytesSize fill).Agrees f ↔ p.Agrees f := by
  refine ⟨⟨?_, ?_, ?_, ?_⟩, fun f => ?_⟩
  · unfold RtpPacket.setPayloadSize
    split <;> exact h.offset
  · unfold RtpPacket.setPayloadSize
    split <;> exact h.padding
  · unfold RtpPacket.setPayloadSize
    split
    · exact h.length
    · rw [h.payloadEnd_eq hsize]
      exact CopyOnWriteBuffer.length_setSize _ _ _
  · rw [byteAt_eq_load, h.load_setPayloadSize hsize fill (by decide), ← byteAt_eq_load, h.first]
  · rw [Agrees, value_setPayloadSize, valueIn_congr f (h.load_setPayloadSize hsize fill f.place.2), Agrees]

theorem Fresh.allocatePayload (h : p.Fresh) {payloadSize : UInt64} (hsize : kFixedHeaderSize + payloadSize.toNat < 2^64)
    (fill : ℕ → UInt8) : (p.allocatePayload payloadSize fill).Fresh ∧
      ∀ f, (p.allocatePayload payloadSize fill).Agrees f ↔ p.Agrees f := by
  obtain ⟨hempty, hagrees⟩ := h.setPayloadSize (show kFixedHeaderSize + (0 : UInt64).toNat < 2^64 by decide) fill
  obtain ⟨hfresh, hagrees'⟩ := hempty.setPayloadSize hsize fill
  exact ⟨hfresh, fun f => (hagrees' f).trans (hagrees f)⟩

/-- A call that builds a packet makes the field that it sets agree, and leaves the others. -/
theorem Fresh.step (h : p.Fresh) (he : e.call.Builds) : (p.step e).Fresh ∧
    ∀ f, (p.step e).Agrees f ↔ e.call.sets = some f ∨ p.Agrees f := by
  obtain ⟨call, fill⟩ := e
  cases call with
  | construct capacity => exact he.elim
  | parse buffer capacity isSize => exact he.elim
  | clear => exact he.elim
  | setMarker markerBit => exact h.setMarker markerBit
  | setPayloadType payloadType => exact h.setPayloadType he
  | setSequenceNumber seqNo => exact h.setSequenceNumber seqNo
  | setTimestamp ts => exact h.setTimestamp ts
  | setSsrc ssrc => exact h.setSsrc ssrc
  | setPayloadSize bytesSize =>
    obtain ⟨hfresh, hagrees⟩ := h.setPayloadSize he fill
    exact ⟨hfresh, fun f => (hagrees f).trans (or_iff_right nofun).symm⟩
  | allocatePayload payloadSize =>
    obtain ⟨hfresh, hagrees⟩ := h.allocatePayload he fill
    exact ⟨hfresh, fun f => (hagrees f).trans (or_iff_right nofun).symm⟩

/-- A reader in whatever state takes the packet for what it is. -/
def Sent (p : RtpPacket) : Prop :=
  ∀ reader : RtpPacket, ∃ q, reader.parseBuffer p.buffer.data = (q, true) ∧ (∀ f, q.value f = p.value f) ∧
    q.payloadOffset = p.payloadOffset ∧ q.payloadSize = p.payloadSize ∧ q.paddingSize = 0 ∧ q.extensionEntries = []

/-- The bytes of a fresh packet are read, its fields as the buffer has them. -/
theorem Fresh.parseBuffer (h : p.Fresh) (reader : RtpPacket) : ∃ q, reader.parseBuffer p.buffer.data = (q, true) ∧
    (∀ f, q.value f = valueIn p.buffer.data f) ∧ q.payloadOffset = p.payloadOffset ∧
    q.payloadSize = p.payloadSize ∧ q.paddingSize = 0 ∧ q.extensionEntries = [] := by
  have hlength := h.length
  have hcsrc : csrcEnd p.buffer.data = kFixedHeaderSize := by rw [csrcEnd, h.first]; rfl
  have hfits : HeaderFits p.buffer.data := ⟨by omega, by rw [h.first]; rfl, by rw [hcsrc]; omega⟩
  rw [parseBuffer_of_fits hfits, h.first, if_neg (by decide)]
  dsimp only
  rw [RtpPacket.parsePadding]
  have hnot : decide ((0x80 : UInt8) &&& 0x20 ≠ 0) = false := by decide
  simp only [hnot, Bool.false_and, Bool.false_eq_true, if_false, Nat.add_zero, Nat.sub_zero]
  have hle : ¬(reader.withHeader p.buffer.data).payloadOffset > p.buffer.data.length := by
    change ¬csrcEnd p.buffer.data > p.buffer.data.length
    omega
  rw [if_neg hle]
  refine ⟨_, rfl, fun f => ?_, ?_, ?_, rfl, rfl⟩
  · cases f with
    | marker => simp [value, valueIn, withHeader]
    | _ => rfl
  · exact hcsrc.trans h.offset.symm
  · change p.buffer.data.length - csrcEnd p.buffer.data = p.payloadSize
    omega

theorem Fresh.sent_iff (h : p.Fresh) : p.Sent ↔ ∀ f, p.Agrees f := by
  constructor
  · intro hsent f
    obtain ⟨q, hparse, hvalues, -⟩ := hsent p
    obtain ⟨q', hparse', hvalues', -⟩ := h.parseBuffer p
    obtain rfl : q = q' := congrArg Prod.fst (hparse.symm.trans hparse')
    exact (hvalues' f).symm.trans (hvalues f)
  · intro hagrees reader
    obtain ⟨q, hparse, hvalues, hrest⟩ := h.parseBuffer reader
    exact ⟨q, hparse, fun f => (hvalues f).trans (hagrees f), hrest⟩

/-- Over a run of calls that build, the fields that were set agree besides those that did before. -/
theorem Fresh.run {es : List Event} (h : p.Fresh) (hes : ∀ e ∈ es, e.call.Builds) : (Runs.run RtpPacket.step p es).Fresh ∧
    ∀ f, (Runs.run RtpPacket.step p es).Agrees f ↔ (∃ e ∈ es, e.call.sets = some f) ∨ p.Agrees f := by
  induction es generalizing p with
  | nil => exact ⟨h, fun f => (or_iff_right nofun).symm⟩
  | cons e es ih =>
    obtain ⟨hfresh, hagrees⟩ := h.step (hes e List.mem_cons_self)
    obtain ⟨hrun, hrunAgrees⟩ := ih hfresh fun e' he' => hes e' (List.mem_cons_of_mem e he')
    refine ⟨hrun, fun f => ?_⟩
    rw [Runs.run_cons, hrunAgrees f, hagrees f]
    simp only [List.mem_cons, exists_eq_or_imp]
    rw [or_left_comm, or_assoc]

theorem fresh_make (capacity : ℕ) (fill : ℕ → UInt8) : (make capacity fill).Fresh where
  offset := rfl
  padding := rfl
  length := length_clear _ _
  first := by
    have hroom : 0 < (CopyOnWriteBuffer.setSize ⟨(List.range capacity).map fill, capacity, by simp⟩
        kFixedHeaderSize fill).data.length := by rw [CopyOnWriteBuffer.length_setSize]; decide
    exact (congrArg (byteAt · 0) (CopyOnWriteBuffer.data_writeAt hroom)).trans (byteAt_put hroom _)

/-- In memory that is full of ones a new packet agrees in no field. -/
theorem not_agrees_make (capacity : ℕ) (f : HeaderField) : ¬(make capacity fun _ => 0xff).Agrees f := by
  have hones : (CopyOnWriteBuffer.setSize ⟨(List.range capacity).map fun _ => 0xff, capacity, by simp⟩
      kFixedHeaderSize fun _ => 0xff).data = List.replicate kFixedHeaderSize 0xff := by
    rw [CopyOnWriteBuffer.setSize]
    simp only [List.map_const', List.length_range, List.length_replicate]
    split
    · rw [List.take_replicate, Nat.min_eq_left ‹_›]
    · rw [List.replicate_append_replicate, Nat.add_sub_cancel' (by omega)]
  have hdata : (make capacity fun _ => 0xff).buffer.data = (List.replicate kFixedHeaderSize 0xff).set 0 0x80 :=
    congrArg (List.set · 0 0x80) hones
  have hvalue : (make capacity fun _ => 0xff).value f = 0 := by cases f <;> rfl
  rw [Agrees, hdata, hvalue]
  cases f <;> decide

/-- A packet that is built from new memory reaches its reader as it is, whatever was in the memory, exactly if
every field of the fixed header was set. -/
theorem sent_iff_set {es : List Event} (capacity : ℕ) (hes : ∀ e ∈ es, e.call.Builds) :
    (∀ fill, (Runs.run step (make capacity fill) es).Sent) ↔ ∀ f, ∃ e ∈ es, e.call.sets = some f := by
  constructor
  · intro hsent f
    obtain ⟨hfresh, hagrees⟩ := (fresh_make capacity fun _ => 0xff).run hes
    exact ((hagrees f).mp (hfresh.sent_iff.mp (hsent _) f)).resolve_right (not_agrees_make capacity f)
  · intro hset fill
    obtain ⟨hfresh, hagrees⟩ := (fresh_make capacity fill).run hes
    exact hfresh.sent_iff.mpr fun f => (hagrees f).mpr (.inl (hset f))

/-- The calls for a packet with four bytes of payload. -/
def fullHeader : List Event :=
  [.setPayloadType 96, .setSsrc 7, .setSequenceNumber 1000, .setMarker true, .setTimestamp 90000,
    .allocatePayload 4].map fun call => ⟨call, fun _ => 0⟩

theorem sent_iff_set_full :
    (Runs.run step (make kDefaultRtpCapacity fun _ => 0xff) fullHeader).Sent :=
  (sent_iff_set kDefaultRtpCapacity (by decide)).mpr (fun f => by cases f <;> decide) fun _ => 0xff

end RtpPacket
end Rtp
end XrtcServer
