import XrtcServer.Nack
import XrtcServer.RtcpReports

/-! Reports written into a compound packet, and what is read back of them. -/
namespace XrtcServer
namespace Rtcp
open ByteFormat StructLayout

namespace Compound

/-- The loop in front of a block: what is in the buffer goes out while there is no room. -/
def makeRoom (maxLength blockLength : ℕ) (c : Compound) : Bool × Compound :=
  if c.packet.length + blockLength > maxLength then
    match _hc : c.onBufferFull with
    | none => (false, c)
    | some c' => makeRoom maxLength blockLength c'
  else (true, c)
termination_by c.packet.length
decreasing_by
  obtain ⟨hne, rfl⟩ := onBufferFull_eq_some.mp ‹_›
  exact List.length_pos_iff.mpr hne

/-- `Create` of a report, with the bytes that it writes. -/
def create (maxLength blockLength : ℕ) (block : Bytes) (c : Compound) : Bool × Compound :=
  let (room, c) := c.makeRoom maxLength blockLength
  if room then (true, { c with packet := c.packet ++ block }) else (false, c)

/-- A block behind what is in the buffer, or at the front of the next datagram. -/
def placed (maxLength : ℕ) (block : Bytes) (c : Compound) : Compound :=
  if c.packet.length + block.length ≤ maxLength then { c with packet := c.packet ++ block }
  else { packet := block, ready := c.ready ++ [c.packet] }

theorem placed_inj {maxLength : ℕ} {block block' : Bytes} {c : Compound} (hlen : block.length = block'.length)
    (h : c.placed maxLength block = c.placed maxLength block') : block = block' := by
  rw [placed, placed, hlen] at h
  split at h
  · exact List.append_cancel_left (congrArg packet h)
  · exact congrArg packet h

/-- Nothing is left in the buffer. -/
def flushed (c : Compound) : Compound :=
  { packet := [], ready := if c.packet = [] then c.ready else c.ready ++ [c.packet] }

theorem makeRoom_of_fits {maxLength blockLength : ℕ} {c : Compound} (h : c.packet.length + blockLength ≤ maxLength) :
    c.makeRoom maxLength blockLength = (true, c) := by
  rw [makeRoom, if_neg (by omega)]

/-- The loop has one round at most in which the buffer is not empty. -/
theorem makeRoom_of_full {maxLength blockLength : ℕ} {c : Compound} (h : maxLength < c.packet.length + blockLength) :
    c.makeRoom maxLength blockLength = (decide (blockLength ≤ maxLength), c.flushed) := by
  by_cases hempty : c.packet = []
  · have hlarge : ¬ blockLength ≤ maxLength := by
      rw [hempty, List.length_nil] at h
      omega
    have hnone : c.onBufferFull = none := if_pos hempty
    have hsame : c.flushed = c := by
      obtain ⟨packet, ready⟩ := c
      obtain rfl : packet = [] := hempty
      rfl
    rw [makeRoom, if_pos h, decide_eq_false hlarge, hsame]
    split
    · rfl
    · simp_all
  · have hsome : c.onBufferFull = some c.flushed := by
      rw [onBufferFull, if_neg hempty, flushed, if_neg hempty]
    rw [makeRoom, if_pos h]
    split
    · simp_all
    · rename_i c' hc'
      obtain rfl := Option.some.inj (hsome.symm.trans hc')
      by_cases hfits : blockLength ≤ maxLength
      · rw [makeRoom_of_fits (by simpa [flushed] using hfits), decide_eq_true hfits]
      · have hnone : c.flushed.onBufferFull = none := if_pos rfl
        rw [makeRoom, if_pos (by simpa [flushed] using hfits), decide_eq_false hfits]
        split
        · rfl
        · simp_all

/-- A block is written if and only if it fits into an empty buffer. -/
theorem create_eq (maxLength : ℕ) (block : Bytes) (c : Compound) :
    c.create maxLength block.length block =
      if block.length ≤ maxLength then (true, c.placed maxLength block) else (false, c.flushed) := by
  rw [create]
  by_cases hroom : c.packet.length + block.length ≤ maxLength
  · rw [makeRoom_of_fits hroom, if_pos (by omega), placed, if_pos hroom]
    rfl
  · rw [makeRoom_of_full (by omega)]
    by_cases hfits : block.length ≤ maxLength
    · have hne : c.packet ≠ [] := by
        intro hempty
        rw [hempty, List.length_nil] at hroom
        omega
      rw [if_pos hfits, decide_eq_true hfits, placed, if_neg hroom, flushed, if_neg hne]
      rfl
    · rw [if_neg hfits, decide_eq_false hfits]
      rfl

end Compound

/-- `HeaderLength` of a block. -/
def headerLength (blockLength : ℕ) : ℕ := (blockLength - kHeaderSize) / 4

/-- A header, the fixed part and the report blocks. -/
def reportPacket (packetType : UInt8) (blockLength : ℕ) (fixed : Bytes) (reports : List ReportBlock) : Bytes :=
  createHeader reports.length packetType (headerLength blockLength) false ++
    (fixed ++ reports.flatMap ReportBlock.create)

namespace SenderReport

def blockLength (r : SenderReport) : ℕ :=
  kHeaderSize + kSenderBaseLength + r.reportBlocks.length * ReportBlock.kLength

/-- The packet count is written where the octet count should be too. -/
def fixedPart (r : SenderReport) : Bytes :=
  writeUint32 r.senderSsrc ++ (writeUint32 r.ntpTime.seconds ++ (writeUint32 r.ntpTime.fractions ++
    (writeUint32 r.rtpTimestamp ++ (writeUint32 r.senderPacketCount ++ writeUint32 r.senderPacketCount))))

def bytes (r : SenderReport) : Bytes := reportPacket kPacketType r.blockLength r.fixedPart r.reportBlocks

def create (r : SenderReport) (maxLength : ℕ) (c : Compound) : Bool × Compound :=
  c.create maxLength r.blockLength r.bytes

/-- `Parse` on a report that holds something already. -/
def parseInto (into : SenderReport) (packet : CommonHeader) : Option SenderReport :=
  (parse packet).map fun r => { r with senderOctetCount := into.senderOctetCount }

end SenderReport

namespace ReceiverReport

def blockLength (r : ReceiverReport) : ℕ :=
  kHeaderSize + kRrBaseLength + r.reportBlocks.length * ReportBlock.kLength

def bytes (r : ReceiverReport) : Bytes :=
  reportPacket kPacketType r.blockLength (writeUint32 r.senderSsrc) r.reportBlocks

def create (r : ReceiverReport) (maxLength : ℕ) (c : Compound) : Bool × Compound :=
  c.create maxLength r.blockLength r.bytes

end ReceiverReport

/-- `SetCumulativeLost` with a number of 32 bits; it keeps the old one where three bytes do not
hold it. -/
def ReportBlock.setCumulativeLost (r : ReportBlock) (cumulativeLost : ℤ) : Bool × ReportBlock :=
  if h : cumulativeLost ≥ 8388608 ∨ cumulativeLost < -8388608 then (false, r)
  else (true, { r with packetsLost := cumulativeLost, lost_range := by omega })

/-- Exactly the signed numbers of three bytes are accepted. -/
theorem ReportBlock.setCumulativeLost_iff (r : ReportBlock) (n : ℤ) :
    (r.setCumulativeLost n).1 ↔ -8388608 ≤ n ∧ n < 8388608 := by
  rw [setCumulativeLost]
  split <;> simp <;> omega

section Packet
variable {packetType : UInt8} {blockLength : ℕ} {fixed : Bytes} {reports : List ReportBlock}

theorem reportPacket_length (hlen : blockLength = kHeaderSize + fixed.length + reports.length * ReportBlock.kLength) :
    (reportPacket packetType blockLength fixed reports).length = blockLength := by
  rw [reportPacket, List.length_append, createHeader_length, List.length_append, reports_length, hlen]
  omega

/-- The count and the length of the header agree with what is behind it. -/
theorem parse_reportPacket (hlen : blockLength = kHeaderSize + fixed.length + reports.length * ReportBlock.kLength)
    (hfixed : fixed.length % 4 = 0) (hsmall : fixed.length ≤ 24) (hcount : reports.length ≤ 31) (rest : Bytes) :
    CommonHeader.parse (reportPacket packetType blockLength fixed reports ++ rest) =
      some { countOrFmt := UInt8.ofNat reports.length, packetType, paddingSize := 0,
             payloadSize := fixed.length + reports.length * ReportBlock.kLength,
             payload := fixed ++ (reports.flatMap ReportBlock.create ++ rest) } := by
  have hheader : kHeaderSize = 4 := rfl
  have hblock : ReportBlock.kLength = 24 := rfl
  have hbody : (fixed ++ reports.flatMap ReportBlock.create).length = 4 * headerLength blockLength := by
    rw [List.length_append, reports_length, headerLength, hlen, hheader, hblock]
    omega
  have hfield : headerLength blockLength < 2^16 := by
    rw [headerLength, hlen, hheader, hblock]
    omega
  have hparse := @parse_createHeader reports.length packetType _ false (by omega) hfield _ hbody rest
  rw [reportPacket, List.append_assoc, hparse, List.length_append, reports_length, List.append_assoc]

/-- The next packet starts behind the blocks. -/
theorem nextPacket_report (countOrFmt packetType : UInt8) (fixed : Bytes) (reports : List ReportBlock) (rest : Bytes) :
    CommonHeader.nextPacket { countOrFmt, packetType, paddingSize := 0,
                              payloadSize := fixed.length + reports.length * ReportBlock.kLength,
                              payload := fixed ++ (reports.flatMap ReportBlock.create ++ rest) } = rest := by
  have hlen : (fixed ++ reports.flatMap ReportBlock.create).length = fixed.length + reports.length * ReportBlock.kLength := by
    rw [List.length_append, reports_length]
  rw [CommonHeader.nextPacket, Nat.zero_add, ← hlen, ← List.append_assoc, List.drop_left]

theorem count_toNat (hcount : reports.length ≤ 31) : (UInt8.ofNat reports.length).toNat = reports.length := by
  rw [UInt8.toNat_ofNat']
  exact Nat.mod_eq_of_lt (by omega)

end Packet

namespace ReceiverReport
variable (r : ReceiverReport)

theorem bytes_length : r.bytes.length = r.blockLength := reportPacket_length (by simp [blockLength, kRrBaseLength])

/-- The bytes of a report, with anything behind them, give it back. -/
theorem parse_bytes (hcount : r.reportBlocks.length ≤ 31) (rest : Bytes) :
    ∃ header, CommonHeader.parse (r.bytes ++ rest) = some header ∧ header.packetType = kPacketType ∧
      header.nextPacket = rest ∧ parse header = some r := by
  have hparse := @parse_reportPacket kPacketType r.blockLength (writeUint32 r.senderSsrc) r.reportBlocks
    (by simp [blockLength, kRrBaseLength]) (by simp) (by simp) hcount rest
  refine ⟨_, hparse, rfl, nextPacket_report _ _ _ _ rest, ?_⟩
  have hdrop : (writeUint32 r.senderSsrc ++ (r.reportBlocks.flatMap ReportBlock.create ++ rest)).drop kRrBaseLength =
      r.reportBlocks.flatMap ReportBlock.create ++ rest := List.drop_left' (writeUint32_length _)
  simp only [parse, count_toNat hcount]
  rw [if_neg (by simp [kRrBaseLength]), hdrop, readUint32_append, readReports_append]

/-- `Create` writes a report that the buffer has room for when it is empty, no matter where,
and its bytes are as many as `BlockLength` says and give the report back. -/
structure RoundTrips (maxLength : ℕ) (c : Compound) : Prop where
  created : (r.create maxLength c).1 ↔ r.blockLength ≤ maxLength
  readBack : r.blockLength ≤ maxLength → ∃ block, block.length = r.blockLength ∧
    r.create maxLength c = (true, c.placed maxLength block) ∧
      ∀ rest, ∃ header, CommonHeader.parse (block ++ rest) = some header ∧ header.packetType = kPacketType ∧
        header.nextPacket = rest ∧ parse header = some r

theorem create_eq (maxLength : ℕ) (c : Compound) : r.create maxLength c =
    if r.blockLength ≤ maxLength then (true, c.placed maxLength r.bytes) else (false, c.flushed) := by
  rw [create, ← r.bytes_length, Compound.create_eq]

theorem roundTrips (hcount : r.reportBlocks.length ≤ 31) (maxLength : ℕ) (c : Compound) :
    r.RoundTrips maxLength c := by
  refine ⟨?_, fun hfits => ⟨r.bytes, r.bytes_length, ?_, r.parse_bytes hcount⟩⟩
  · rw [create_eq]
    split <;> simp [*]
  · rw [create_eq, if_pos hfits]

/-- Two blocks behind another packet in a buffer that is too short for both. -/
theorem roundTrips_flushed :
    RoundTrips ⟨7, [⟨1, 2, -8388608, 4, 5, 6, 7, by decide⟩, ⟨8, 9, 8388607, 11, 12, 13, 14, by decide⟩]⟩ 56
      { packet := [0x80, 201, 0, 1, 0, 0, 0, 1] } :=
  roundTrips _ (by decide) 56 _

end ReceiverReport

namespace SenderReport
variable (r : SenderReport)

theorem fixedPart_length : r.fixedPart.length = kSenderBaseLength := by
  simp [fixedPart, kSenderBaseLength]

theorem bytes_length : r.bytes.length = r.blockLength := reportPacket_length (by rw [r.fixedPart_length, blockLength])

/-- All fields but the octet count are read back. -/
theorem parse_bytes (hcount : r.reportBlocks.length ≤ 31) (rest : Bytes) :
    ∃ header, CommonHeader.parse (r.bytes ++ rest) = some header ∧ header.packetType = kPacketType ∧
      header.nextPacket = rest ∧ parse header = some { r with senderOctetCount := none } := by
  have hlen := r.fixedPart_length
  have hbase : kSenderBaseLength = 24 := rfl
  have hparse := @parse_reportPacket kPacketType r.blockLength r.fixedPart r.reportBlocks
    (by rw [hlen, blockLength]) (by rw [hlen, hbase]) (by rw [hlen, hbase]) hcount rest
  refine ⟨_, hparse, rfl, nextPacket_report _ _ _ _ rest, ?_⟩
  have hdrop : (r.fixedPart ++ (r.reportBlocks.flatMap ReportBlock.create ++ rest)).drop kSenderBaseLength =
      r.reportBlocks.flatMap ReportBlock.create ++ rest := List.drop_left' hlen
  simp only [parse, count_toNat hcount]
  rw [if_neg (by rw [hlen]; omega), hdrop, readReports_append]
  obtain ⟨ssrc, ⟨seconds, fractions⟩, timestamp, packets, octets, reports⟩ := r
  simp only [fixedPart, List.append_assoc, Option.some.injEq, mk.injEq, NtpTime.mk.injEq, and_true]
  refine ⟨readUint32_append ssrc _, ⟨?_, ?_⟩, ?_, ?_⟩
  · simp (disch := simp) only [readUint32_skip]
    exact readUint32_append seconds _
  · simp (disch := simp) only [readUint32_skip]
    exact readUint32_append fractions _
  · simp (disch := simp) only [readUint32_skip]
    exact readUint32_append timestamp _
  · simp (disch := simp) only [readUint32_skip]
    exact readUint32_append packets _

theorem create_eq (maxLength : ℕ) (c : Compound) : r.create maxLength c =
    if r.blockLength ≤ maxLength then (true, c.placed maxLength r.bytes) else (false, c.flushed) := by
  rw [create, ← r.bytes_length, Compound.create_eq]

/-- `Create` writes the report, no matter where, and a report that is filled from its bytes
becomes equal to it. -/
def ReadsBack (into : SenderReport) (maxLength : ℕ) (c : Compound) : Prop :=
  ∃ block, block.length = r.blockLength ∧ r.create maxLength c = (true, c.placed maxLength block) ∧
    ∀ rest, ∃ header, CommonHeader.parse (block ++ rest) = some header ∧ header.packetType = kPacketType ∧
      into.parseInto header = some r

variable {r} {into : SenderReport} {maxLength : ℕ} {c : Compound}

/-- The octet count that is found after `Parse` is the one from before. -/
theorem octets_of_readsBack (hcount : r.reportBlocks.length ≤ 31) (h : r.ReadsBack into maxLength c) :
    into.senderOctetCount = r.senderOctetCount := by
  obtain ⟨block, hlen, hcreate, hread⟩ := h
  have heq := r.create_eq maxLength c
  rw [hcreate] at heq
  split at heq
  · have hplaced := congrArg Prod.snd heq
    obtain rfl := Compound.placed_inj (hlen.trans r.bytes_length.symm) hplaced
    obtain ⟨header, hparse, -, hinto⟩ := hread []
    obtain ⟨header', hparse', -, -, hbytes⟩ := r.parse_bytes hcount []
    obtain rfl := Option.some.inj (hparse.symm.trans hparse')
    rw [parseInto, hbytes] at hinto
    have hsame := congrArg (Option.map senderOctetCount) hinto
    exact Option.some.inj hsame
  · cases congrArg Prod.fst heq

/-- The octet count is neither written nor read. -/
theorem readsBack_iff {octets : UInt32} (hoctets : r.senderOctetCount = some octets)
    (hcount : r.reportBlocks.length ≤ 31) (hfits : r.blockLength ≤ maxLength) :
    r.ReadsBack into maxLength c ↔ into.senderOctetCount = some octets := by
  rw [← hoctets]
  refine ⟨octets_of_readsBack hcount, fun hinto => ⟨r.bytes, r.bytes_length, ?_, fun rest => ?_⟩⟩
  · rw [create_eq, if_pos hfits]
  · obtain ⟨header, hparse, htype, -, hread⟩ := r.parse_bytes hcount rest
    refine ⟨header, hparse, htype, ?_⟩
    rw [parseInto, hread, hinto]
    rfl

/-- A report with a block goes out behind a full buffer, and a report with the same octet
count is filled from it. -/
theorem readsBack_flushed :
    ReadsBack ⟨1, ⟨2, 3⟩, 4, 5, some 6, [⟨1, 2, -1, 4, 5, 6, 7, by decide⟩]⟩ ⟨0, ⟨0, 0⟩, 0, 0, some 6, []⟩ 52
      { packet := [0x80, 201, 0, 1, 0, 0, 0, 1] } :=
  (@readsBack_iff _ _ _ _ 6 rfl (by decide) (by decide)).mpr rfl

/-- The octet count of a new report is not initialized, and stays so. -/
theorem fresh_not_readsBack : ¬ReadsBack ⟨1, ⟨2, 3⟩, 4, 5, some 6, []⟩ ⟨0, ⟨0, 0⟩, 0, 0, none, []⟩ 28 {} := by
  intro h
  cases octets_of_readsBack (by decide) h

end SenderReport

end Rtcp
end XrtcServer
