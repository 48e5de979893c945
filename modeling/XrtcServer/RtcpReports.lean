import XrtcServer.RtcpPacket

/-! Report blocks, and the sender and receiver reports that carry them. -/
namespace XrtcServer
namespace Rtcp
open ByteFormat StructLayout

def ReportBlock.kLength : ℕ := 24
def SenderReport.kPacketType : UInt8 := 200
def SenderReport.kSenderBaseLength : ℕ := 24
def ReceiverReport.kPacketType : UInt8 := 201
def ReceiverReport.kRrBaseLength : ℕ := 4

/-- A signed number of three bytes. -/
def signed24 (n : ℕ) : ℤ := if n < 8388608 then n else n - 16777216
def readInt24 (b : Bytes) (pos : ℕ) : ℤ := signed24 (beNat (load b pos 3))
def writeInt24 (n : ℤ) : Bytes := toBE 3 (n % 16777216).toNat

/-- `packetsLost` has three bytes in a packet. -/
structure ReportBlock where
  sourceSsrc : UInt32
  fractionLost : UInt8
  packetsLost : ℤ
  extendedHighSeqNum : UInt32
  jitter : UInt32
  lastSr : UInt32
  delaySinceLastSr : UInt32
  lost_range : -8388608 ≤ packetsLost ∧ packetsLost < 8388608

theorem signed24_range {n : ℕ} (h : n < 16777216) : -8388608 ≤ signed24 n ∧ signed24 n < 8388608 := by
  rw [signed24]
  split <;> omega

theorem readInt24_range (b : Bytes) (pos : ℕ) : -8388608 ≤ readInt24 b pos ∧ readInt24 b pos < 8388608 := by
  have hlen : (load b pos 3).length ≤ 3 := List.length_take_le 3 _
  refine signed24_range (Nat.lt_of_lt_of_le (beNat_lt _) ?_)
  exact Nat.pow_le_pow_right (by decide) hlen

def ReportBlock.parse (buffer : Bytes) : ReportBlock where
  sourceSsrc := readUint32 buffer 0
  fractionLost := byteAt buffer 4
  packetsLost := readInt24 buffer 5
  extendedHighSeqNum := readUint32 buffer 8
  jitter := readUint32 buffer 12
  lastSr := readUint32 buffer 16
  delaySinceLastSr := readUint32 buffer 20
  lost_range := readInt24_range buffer 5

def ReportBlock.create (r : ReportBlock) : Bytes :=
  writeUint32 r.sourceSsrc ++ ([r.fractionLost] ++ (writeInt24 r.packetsLost ++ (writeUint32 r.extendedHighSeqNum ++
    (writeUint32 r.jitter ++ (writeUint32 r.lastSr ++ writeUint32 r.delaySinceLastSr)))))

/-- So many report blocks, one after the other. -/
def readReports : ℕ → Bytes → List ReportBlock
  | 0, _ => []
  | n+1, b => ReportBlock.parse b :: readReports n (b.drop ReportBlock.kLength)

structure NtpTime where
  seconds : UInt32
  fractions : UInt32
  deriving DecidableEq, Repr

/-- `Parse` leaves the octet count as it was, which is not initialized. -/
structure SenderReport where
  senderSsrc : UInt32
  ntpTime : NtpTime
  rtpTimestamp : UInt32
  senderPacketCount : UInt32
  senderOctetCount : Option UInt32
  reportBlocks : List ReportBlock

/-- The packet count is read a second time, where the octet count is. -/
def SenderReport.parse (packet : CommonHeader) : Option SenderReport :=
  let reportBlockCount := packet.countOrFmt.toNat
  if packet.payloadSize < kSenderBaseLength + reportBlockCount * ReportBlock.kLength then none
  else
    let payload := packet.payload
    some { senderSsrc := readUint32 payload 0
           ntpTime := ⟨readUint32 payload 4, readUint32 payload 8⟩
           rtpTimestamp := readUint32 payload 12
           senderPacketCount := readUint32 payload 20
           senderOctetCount := none
           reportBlocks := readReports reportBlockCount (payload.drop kSenderBaseLength) }

structure ReceiverReport where
  senderSsrc : UInt32
  reportBlocks : List ReportBlock

def ReceiverReport.parse (packet : CommonHeader) : Option ReceiverReport :=
  let reportCount := packet.countOrFmt.toNat
  if packet.payloadSize < kRrBaseLength + reportCount * ReportBlock.kLength then none
  else
    some { senderSsrc := readUint32 packet.payload 0
           reportBlocks := readReports reportCount (packet.payload.drop kRrBaseLength) }

section ReportBlocks

theorem signed24_mod {n : ℤ} (h : -8388608 ≤ n ∧ n < 8388608) : signed24 (n % 16777216).toNat = n := by
  rw [signed24]
  split <;> omega

theorem readInt24_append {n : ℤ} (h : -8388608 ≤ n ∧ n < 8388608) (tail : Bytes) :
    readInt24 (writeInt24 n ++ tail) 0 = n := by
  have hload := load_append (writeInt24 n) tail
  have hlen : (writeInt24 n).length = 3 := toBE_length 3 _
  have hlt : (n % 16777216).toNat < 256^3 := by omega
  rw [hlen] at hload
  rw [readInt24, hload, writeInt24, beNat_toBE_of_lt hlt, signed24_mod h]

theorem readInt24_skip {pre : Bytes} {pos : ℕ} (h : pre.length ≤ pos) (tail : Bytes) :
    readInt24 (pre ++ tail) pos = readInt24 tail (pos - pre.length) := by
  simp only [readInt24, load_append_of_le h]

theorem byteAt_skip {pre : Bytes} {pos : ℕ} (h : pre.length ≤ pos) (tail : Bytes) :
    byteAt (pre ++ tail) pos = byteAt tail (pos - pre.length) := by
  simp only [byteAt, List.getD_eq_getElem?_getD, List.getElem?_append_right h]

@[simp] theorem writeInt24_length (n : ℤ) : (writeInt24 n).length = 3 := toBE_length 3 _

@[simp] theorem ReportBlock.create_length (r : ReportBlock) : r.create.length = kLength := by
  simp [create, kLength]

/-- A report block is read back. -/
theorem ReportBlock.parse_create (r : ReportBlock) (rest : Bytes) : parse (r.create ++ rest) = r := by
  obtain ⟨ssrc, fraction, lost, high, jitter, lastSr, delay, hrange⟩ := r
  simp only [parse, create, mk.injEq, List.append_assoc]
  refine ⟨?_, ?_, ?_, ?_, ?_, ?_, ?_⟩
  · rw [readUint32_append]
  · rw [byteAt_skip (by simp)]
    rfl
  · rw [readInt24_skip (by simp), readInt24_skip (by simp)]
    exact readInt24_append hrange _
  · simp (disch := simp) only [readUint32_skip]
    exact readUint32_append high _
  · simp (disch := simp) only [readUint32_skip]
    exact readUint32_append jitter _
  · simp (disch := simp) only [readUint32_skip]
    exact readUint32_append lastSr _
  · simp (disch := simp) only [readUint32_skip]
    exact readUint32_append delay _

theorem readReports_append (rs : List ReportBlock) (rest : Bytes) :
    readReports rs.length (rs.flatMap ReportBlock.create ++ rest) = rs := by
  induction rs with
  | nil => rfl
  | cons r rs ih =>
    have hdrop : ((r :: rs).flatMap ReportBlock.create ++ rest).drop ReportBlock.kLength =
        rs.flatMap ReportBlock.create ++ rest := by
      rw [List.flatMap_cons, List.append_assoc, ← r.create_length, List.drop_left]
    rw [List.length_cons, readReports, hdrop, ih, List.flatMap_cons, List.append_assoc, r.parse_create]

theorem reports_length (rs : List ReportBlock) :
    (rs.flatMap ReportBlock.create).length = rs.length * ReportBlock.kLength := by
  induction rs with
  | nil => rfl
  | cons r rs ih =>
    rw [List.flatMap_cons, List.length_append, r.create_length, ih, List.length_cons, Nat.succ_mul, Nat.add_comm]

end ReportBlocks

end Rtcp
end XrtcServer
