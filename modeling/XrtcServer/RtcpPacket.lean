import XrtcServer.StructLayout

/-! The common parts of RTCP packets: the header of a block, the two SSRCs of a feedback
block, and the buffer in which a compound packet is put together. -/
namespace XrtcServer
namespace Rtcp
open ByteFormat StructLayout

/-- Big-endian fields of a buffer. -/
def byteAt (b : Bytes) (pos : ℕ) : UInt8 := b.getD pos 0
def readUint16 (b : Bytes) (pos : ℕ) : UInt16 := UInt16.ofNat (beNat (load b pos 2))
def readUint32 (b : Bytes) (pos : ℕ) : UInt32 := UInt32.ofNat (beNat (load b pos 4))
def writeUint16 (n : UInt16) : Bytes := toBE 2 n.toNat
def writeUint32 (n : UInt32) : Bytes := toBE 4 n.toNat

def kHeaderSize : ℕ := 4
def kCommonFeedbackLength : ℕ := 8

/-- What `CommonHeader::Parse` finds. `payload` is the buffer from the payload on, up to the
end of what was given to parse. -/
structure CommonHeader where
  countOrFmt : UInt8
  packetType : UInt8
  paddingSize : ℕ
  payloadSize : ℕ
  payload : Bytes

namespace CommonHeader

def parse (buffer : Bytes) : Option CommonHeader :=
  if buffer.length < kHeaderSize then none
  else if byteAt buffer 0 >>> 6 ≠ 2 then none
  else
    -- the mask leaves 0 or 32, so this is never true
    let hasPadding := byteAt buffer 0 &&& 0x20 = 1
    let payloadSize := (readUint16 buffer 2).toNat * 4
    let payload := buffer.drop kHeaderSize
    let header := { countOrFmt := byteAt buffer 0 &&& 0x1f, packetType := byteAt buffer 1,
                    paddingSize := 0, payloadSize, payload }
    if buffer.length < payloadSize + kHeaderSize then none
    else if hasPadding then
      if payloadSize = 0 then none
      else
        let paddingSize := (byteAt payload (payloadSize - 1)).toNat
        if paddingSize = 0 then none
        else some { header with paddingSize, payloadSize := (payloadSize + 2^32 - paddingSize) % 2^32 }
    else some header

def nextPacket (h : CommonHeader) : Bytes := h.payload.drop (h.paddingSize + h.payloadSize)

theorem payload_of_parse {buffer : Bytes} {h : CommonHeader} (hparse : parse buffer = some h) :
    h.payload = buffer.drop kHeaderSize ∧ kHeaderSize ≤ buffer.length := by
  simp only [parse] at hparse
  split at hparse
  · cases hparse
  · split at hparse
    · cases hparse
    · split at hparse
      · cases hparse
      · split at hparse
        · split at hparse
          · cases hparse
          · split at hparse
            · cases hparse
            · cases hparse
              exact ⟨rfl, by omega⟩
        · cases hparse
          exact ⟨rfl, by omega⟩

/-- Each block takes the reader forward. -/
theorem nextPacket_lt {buffer : Bytes} {h : CommonHeader} (hparse : parse buffer = some h) :
    h.nextPacket.length < buffer.length := by
  obtain ⟨hpayload, hlen⟩ := payload_of_parse hparse
  rw [nextPacket, hpayload, List.length_drop, List.length_drop]
  simp only [kHeaderSize] at hlen ⊢
  omega

end CommonHeader

/-- The bytes of `CreateHeader`. -/
def createHeader (countOrFmt : ℕ) (packetType : UInt8) (blockLength : ℕ) (padding : Bool) : Bytes :=
  [0x80 ||| (if padding then 0x20 else 0) ||| UInt8.ofNat countOrFmt, packetType] ++ toBE 2 blockLength

/-- The bytes in front of `index`, and the packets given to the callback. -/
structure Compound where
  packet : Bytes := []
  ready : List Bytes := []

/-- No result stands for `false`. -/
def Compound.onBufferFull (c : Compound) : Option Compound :=
  if c.packet = [] then none else some { packet := [], ready := c.ready ++ [c.packet] }

/-- All datagrams, the one in the buffer last. -/
def Compound.datagrams (c : Compound) : List Bytes := c.ready ++ [c.packet]

section Fields

theorem readUint16_append (n : UInt16) (tail : Bytes) : readUint16 (writeUint16 n ++ tail) 0 = n := by
  have h := load_append (writeUint16 n) tail
  have hlen : (writeUint16 n).length = 2 := toBE_length 2 _
  rw [hlen] at h
  rw [readUint16, h, writeUint16, beNat_toBE_of_lt n.toNat_lt, UInt16.ofNat_toNat]

theorem readUint32_append (n : UInt32) (tail : Bytes) : readUint32 (writeUint32 n ++ tail) 0 = n := by
  have h := load_append (writeUint32 n) tail
  have hlen : (writeUint32 n).length = 4 := toBE_length 4 _
  rw [hlen] at h
  rw [readUint32, h, writeUint32, beNat_toBE_of_lt n.toNat_lt, UInt32.ofNat_toNat]

@[simp] theorem writeUint16_length (n : UInt16) : (writeUint16 n).length = 2 := toBE_length 2 _

@[simp] theorem writeUint32_length (n : UInt32) : (writeUint32 n).length = 4 := toBE_length 4 _

theorem readUint16_skip {pre : Bytes} {pos : ℕ} (h : pre.length ≤ pos) (tail : Bytes) :
    readUint16 (pre ++ tail) pos = readUint16 tail (pos - pre.length) := by
  rw [readUint16, load_append_of_le h]
  rfl

theorem readUint32_skip {pre : Bytes} {pos : ℕ} (h : pre.length ≤ pos) (tail : Bytes) :
    readUint32 (pre ++ tail) pos = readUint32 tail (pos - pre.length) := by
  rw [readUint32, load_append_of_le h]
  rfl

end Fields

section Header
variable {countOrFmt : ℕ} {packetType : UInt8} {blockLength : ℕ} {padding : Bool}

@[simp] theorem createHeader_length : (createHeader countOrFmt packetType blockLength padding).length = kHeaderSize := by
  simp [createHeader, kHeaderSize]

/-- The first byte of a header. -/
def firstByte (countOrFmt : ℕ) (padding : Bool) : UInt8 :=
  0x80 ||| (if padding then 0x20 else 0) ||| UInt8.ofNat countOrFmt

theorem firstByte_version (h : countOrFmt < 32) : firstByte countOrFmt padding >>> 6 = 2 := by
  have hall : ∀ n < 32, ∀ p, firstByte n p >>> 6 = 2 := by decide
  exact hall countOrFmt h padding

theorem firstByte_count (h : countOrFmt < 32) : firstByte countOrFmt padding &&& 0x1f = UInt8.ofNat countOrFmt := by
  have hall : ∀ n < 32, ∀ p, firstByte n p &&& 0x1f = UInt8.ofNat n := by decide
  exact hall countOrFmt h padding

theorem and_padding_ne_one (b : UInt8) : b &&& 0x20 ≠ 1 := by
  intro h
  have hbit := congrArg (fun x : UInt8 => x &&& 1) h
  have hzero : (32 : UInt8) &&& 1 = 0 := rfl
  simp [UInt8.and_assoc, hzero] at hbit

/-- A block with its declared payload is parsed, whatever comes after it. -/
theorem parse_createHeader (hcount : countOrFmt < 32) (hlen : blockLength < 2^16) {body : Bytes}
    (hbody : body.length = 4 * blockLength) (rest : Bytes) :
    CommonHeader.parse (createHeader countOrFmt packetType blockLength padding ++ (body ++ rest)) =
      some { countOrFmt := UInt8.ofNat countOrFmt, packetType, paddingSize := 0, payloadSize := body.length,
             payload := body ++ rest } := by
  have hread : (readUint16 (createHeader countOrFmt packetType blockLength padding ++ (body ++ rest)) 2).toNat =
      blockLength := by
    have hskip : createHeader countOrFmt packetType blockLength padding ++ (body ++ rest) =
        [firstByte countOrFmt padding, packetType] ++ (toBE 2 blockLength ++ (body ++ rest)) := by
      simp [createHeader, firstByte]
    have hload := load_append (toBE 2 blockLength) (body ++ rest)
    rw [toBE_length] at hload
    rw [hskip, readUint16_skip (by simp), readUint16]
    simp only [List.length_cons, List.length_nil, Nat.reduceAdd, Nat.sub_self, hload]
    rw [beNat_toBE_of_lt hlen]
    simpa using hlen
  have hbyte : byteAt (createHeader countOrFmt packetType blockLength padding ++ (body ++ rest)) 0 =
      firstByte countOrFmt padding := rfl
  have hdrop : (createHeader countOrFmt packetType blockLength padding ++ (body ++ rest)).drop kHeaderSize =
      body ++ rest := by
    rw [← @createHeader_length countOrFmt packetType blockLength padding, List.drop_left]
  have htotal : (createHeader countOrFmt packetType blockLength padding ++ (body ++ rest)).length =
      kHeaderSize + (body.length + rest.length) := by
    rw [List.length_append, createHeader_length, List.length_append]
  rw [CommonHeader.parse, if_neg (by omega), hbyte, if_neg (by simp [firstByte_version hcount])]
  simp only [hread, hdrop, firstByte_count hcount, if_neg (and_padding_ne_one _)]
  rw [if_neg (by omega)]
  simp [hbody, mul_comm]
  rfl

end Header

end Rtcp
end XrtcServer
