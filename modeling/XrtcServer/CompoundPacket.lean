import XrtcServer.RtcpReads

/-! A compound packet is read inside its bounds and taken apart into its well-formed blocks,
each of which is handled once and in order. -/
namespace XrtcServer
namespace Rtcp
open ByteFormat StructLayout BufferReads Reads

section Values
variable (packet : Bytes) (pos i : ℕ)

theorem load_load (size : ℕ) : load (load packet pos size) 0 size = load packet pos size := by
  simp [load, List.take_take]

theorem load_drop (size : ℕ) : load (packet.drop pos) i size = load packet (pos + i) size := by
  rw [load, load, List.drop_drop]

@[simp] theorem readUint16_drop : readUint16 (packet.drop pos) i = readUint16 packet (pos + i) := by
  rw [readUint16, load_drop, readUint16]

@[simp] theorem readUint32_drop : readUint32 (packet.drop pos) i = readUint32 packet (pos + i) := by
  rw [readUint32, load_drop, readUint32]

@[simp] theorem readInt24_drop : readInt24 (packet.drop pos) i = readInt24 packet (pos + i) := by
  rw [readInt24, load_drop, readInt24]

@[simp] theorem byteAt_drop : byteAt (packet.drop pos) i = byteAt packet (pos + i) := by
  simp [byteAt, List.getD_eq_getElem?_getD]

@[simp] theorem value_byteIn : (byteIn packet pos).value = byteAt packet pos := by
  show byteAt (load packet pos 1) 0 = byteAt packet pos
  simp [byteAt, load, List.getD_eq_getElem?_getD]

@[simp] theorem value_uint16In : (uint16In packet pos).value = readUint16 packet pos := by
  show readUint16 (load packet pos 2) 0 = readUint16 packet pos
  rw [readUint16, load_load, readUint16]

@[simp] theorem value_uint32In : (uint32In packet pos).value = readUint32 packet pos := by
  show readUint32 (load packet pos 4) 0 = readUint32 packet pos
  rw [readUint32, load_load, readUint32]

@[simp] theorem value_int24In : (int24In packet pos).value.val = readInt24 packet pos := by
  show readInt24 (load packet pos 3) 0 = readInt24 packet pos
  rw [readInt24, load_load, readInt24]

/-- What is read at a place is what the parser finds in the bytes from there on. -/
@[simp] theorem value_reportBlock :
    (ReportBlock.parseAt packet pos).value = ReportBlock.parse (packet.drop pos) := by
  simp [ReportBlock.parseAt, ReportBlock.parse]

@[simp] theorem value_readReportsAt (n : ℕ) :
    (readReportsAt packet n pos).value = readReports n (packet.drop pos) := by
  induction n generalizing pos with
  | zero => rfl
  | succ n ih => simp [readReportsAt, readReports, ih, List.drop_drop]

@[simp] theorem value_senderReport (h : HeaderAt) :
    (SenderReport.parseAt packet h).value = SenderReport.parse (h.view packet) := by
  unfold SenderReport.parseAt SenderReport.parse HeaderAt.view
  dsimp only
  split
  · rfl
  · simp [List.drop_drop]

@[simp] theorem value_readItemsAt (n : ℕ) :
    (Nack.readItemsAt packet n pos).value = Nack.readItems n (packet.drop pos) := by
  induction n generalizing pos with
  | zero => rfl
  | succ n ih => simp [Nack.readItemsAt, Nack.readItems, ih, List.drop_drop]

@[simp] theorem value_nack (h : HeaderAt) :
    (Nack.parseAt packet h).value = Nack.parse (h.view packet) := by
  unfold Nack.parseAt Nack.parse HeaderAt.view
  dsimp only
  split
  · rfl
  · simp [List.drop_drop]

end Values
section Places
variable {n pos : ℕ} (packet : Bytes)

theorem within_byteIn (h : pos + 1 ≤ n) : (byteIn packet pos).Within n :=
  (within_field packet h).bind (within_pure n _)

theorem within_uint16In (h : pos + 2 ≤ n) : (uint16In packet pos).Within n :=
  (within_field packet h).bind (within_pure n _)

theorem within_uint32In (h : pos + 4 ≤ n) : (uint32In packet pos).Within n :=
  (within_field packet h).bind (within_pure n _)

theorem within_int24In (h : pos + 3 ≤ n) : (int24In packet pos).Within n :=
  (within_field packet h).bind (within_pure n _)

theorem within_reportBlock (h : pos + ReportBlock.kLength ≤ n) :
    (ReportBlock.parseAt packet pos).Within n := by
  unfold ReportBlock.kLength at h
  refine (within_uint32In packet (by omega)).bind ?_
  refine (within_byteIn packet (by omega)).bind ?_
  refine (within_int24In packet (by omega)).bind ?_
  refine (within_uint32In packet (by omega)).bind ?_
  refine (within_uint32In packet (by omega)).bind ?_
  refine (within_uint32In packet (by omega)).bind ?_
  exact (within_uint32In packet (by omega)).bind (within_pure n _)

theorem within_readReportsAt {count : ℕ} (h : pos + count * ReportBlock.kLength ≤ n) :
    (readReportsAt packet count pos).Within n := by
  induction count generalizing pos with
  | zero => exact within_pure n []
  | succ count ih =>
    rw [Nat.succ_mul] at h
    refine (within_reportBlock packet (by omega)).bind ?_
    exact (ih (by omega)).bind (within_pure n _)

theorem within_senderReport {h : HeaderAt} (hsize : h.payload + h.payloadSize ≤ n) :
    (SenderReport.parseAt packet h).Within n := by
  unfold SenderReport.parseAt
  refine Within.ite (fun _ => within_pure n _) fun hle => ?_
  have hbase : SenderReport.kSenderBaseLength = 24 := rfl
  refine (within_uint32In packet (by omega)).bind ?_
  refine (within_uint32In packet (by omega)).bind ?_
  refine (within_uint32In packet (by omega)).bind ?_
  refine (within_uint32In packet (by omega)).bind ?_
  refine (within_uint32In packet (by omega)).bind ?_
  refine (within_uint32In packet (by omega)).bind ?_
  exact (within_readReportsAt packet (by omega)).bind (within_pure n _)

theorem within_readItemsAt {count : ℕ} (h : pos + count * Nack.kNackItemLength ≤ n) :
    (Nack.readItemsAt packet count pos).Within n := by
  induction count generalizing pos with
  | zero => exact within_pure n []
  | succ count ih =>
    have hitem : Nack.kNackItemLength = 4 := rfl
    rw [Nat.succ_mul] at h
    refine (within_uint16In packet (by omega)).bind ?_
    refine (within_uint16In packet (by omega)).bind ?_
    exact (ih (by omega)).bind (within_pure n _)

theorem within_nack {h : HeaderAt} (hsize : h.payload + h.payloadSize ≤ n) :
    (Nack.parseAt packet h).Within n := by
  unfold Nack.parseAt
  refine Within.ite (fun _ => within_pure n _) fun hle => ?_
  have hcommon : kCommonFeedbackLength = 8 := rfl
  have hitems : (h.payloadSize - kCommonFeedbackLength) / Nack.kNackItemLength * Nack.kNackItemLength ≤
      h.payloadSize - kCommonFeedbackLength := Nat.div_mul_le_self _ _
  refine (within_uint32In packet (by omega)).bind ?_
  refine (within_uint32In packet (by omega)).bind ?_
  exact (within_readItemsAt packet (by omega)).bind (within_pure n _)

end Places

namespace RTCPReceiver
variable (s : RTCPReceiver) (clock : Clock) (packet : Bytes)

@[simp] theorem value_handleSenderReportAt (h : HeaderAt) :
    (s.handleSenderReportAt clock packet h).value = s.handleSenderReport clock (h.view packet) := by
  unfold handleSenderReportAt handleSenderReport
  rw [← value_senderReport, value_bind]
  cases (SenderReport.parseAt packet h).value <;> rfl

@[simp] theorem value_handleNackAt (h : HeaderAt) :
    (s.handleNackAt packet h).value = s.handleNack (h.view packet) := by
  unfold handleNackAt handleNack
  rw [← value_nack, value_bind]
  cases (Nack.parseAt packet h).value <;> rfl

@[simp] theorem value_handleBlockAt (h : HeaderAt) :
    (s.handleBlockAt clock packet h).value = s.handleBlock clock (h.view packet) := by
  unfold handleBlockAt handleBlock
  simp only [value_ite, value_pure, value_handleSenderReportAt, value_handleNackAt]
  rfl

theorem within_handleBlockAt {n : ℕ} {h : HeaderAt} (hsize : h.payload + h.payloadSize ≤ n) :
    (s.handleBlockAt clock packet h).Within n := by
  unfold handleBlockAt handleSenderReportAt handleNackAt
  refine Within.ite (fun _ => ?_) fun _ => Within.ite (fun _ => Within.ite (fun _ => ?_) fun _ => ?_) fun _ => ?_
  · refine (within_senderReport packet hsize).bind ?_
    split <;> exact within_pure n _
  · refine (within_nack packet hsize).bind ?_
    split <;> exact within_pure n _
  · exact within_pure n _
  · exact within_pure n _

end RTCPReceiver

section Blocks

/-- A block of version 2 with the length that its header declares. -/
structure WellFormedBlock (b : Bytes) : Prop where
  header : kHeaderSize ≤ b.length
  version : byteAt b 0 >>> 6 = 2
  length : b.length = kHeaderSize + (readUint16 b 2).toNat * 4

/-- The header of a block at a place. -/
def headerAt (pos : ℕ) (b : Bytes) : HeaderAt where
  countOrFmt := byteAt b 0 &&& 0x1f
  packetType := byteAt b 1
  paddingSize := 0
  payloadSize := (readUint16 b 2).toNat * 4
  payload := pos + kHeaderSize

/-- The headers of blocks that lie one behind the other. -/
def headersFrom : ℕ → List Bytes → List HeaderAt
  | _, [] => []
  | pos, b :: blocks => headerAt pos b :: headersFrom (pos + b.length) blocks

/-- The bytes begin with a header of version 2 and are as long as it declares. -/
def HasBlock (b : Bytes) : Prop :=
  kHeaderSize ≤ b.length ∧ byteAt b 0 >>> 6 = 2 ∧ (readUint16 b 2).toNat * 4 + kHeaderSize ≤ b.length

variable {packet : Bytes} {pos : ℕ}

theorem HeaderAt.within_parse (hpos : pos ≤ packet.length) :
    (HeaderAt.parse packet pos (packet.length - pos)).Within packet.length := by
  have hheader : kHeaderSize = 4 := rfl
  unfold HeaderAt.parse
  refine Within.ite (fun _ => within_pure _ _) fun hlen => ?_
  refine (within_byteIn packet (by omega)).bind (Within.ite (fun _ => within_pure _ _) fun _ => ?_)
  refine (within_byteIn packet (by omega)).bind ?_
  refine (within_uint16In packet (by omega)).bind ?_
  refine Within.ite (fun _ => within_pure _ _) fun hsize => ?_
  refine Within.ite (fun _ => Within.ite (fun _ => within_pure _ _) fun hne => ?_) fun _ => within_pure _ _
  refine (within_byteIn packet ?_).bind (Within.ite (fun _ => within_pure _ _) fun _ => within_pure _ _)
  dsimp only
  omega

open Classical in
theorem HeaderAt.value_parse (packet : Bytes) (pos : ℕ) :
    (HeaderAt.parse packet pos (packet.length - pos)).value =
      if HasBlock (packet.drop pos) then some (headerAt pos (packet.drop pos)) else none := by
  unfold HeaderAt.parse HasBlock headerAt
  simp only [value_ite, value_pure, value_bind, value_byteIn, value_uint16In, List.length_drop,
    byteAt_drop, readUint16_drop, if_neg (and_padding_ne_one _), Nat.add_zero]
  split_ifs <;> grind

open Classical in
theorem CommonHeader.parse_eq (packet : Bytes) (pos : ℕ) :
    CommonHeader.parse (packet.drop pos) =
      if HasBlock (packet.drop pos) then some ((headerAt pos (packet.drop pos)).view packet) else none := by
  unfold CommonHeader.parse HasBlock headerAt HeaderAt.view
  simp only [if_neg (and_padding_ne_one _), List.drop_drop]
  split_ifs <;> grind

/-- Further bytes do not change the header of a block. -/
theorem WellFormedBlock.headerAt_append {b : Bytes} (h : WellFormedBlock b) (tail : Bytes) (pos : ℕ) :
    headerAt pos (b ++ tail) = headerAt pos b ∧ byteAt (b ++ tail) 0 = byteAt b 0 ∧
      readUint16 (b ++ tail) 2 = readUint16 b 2 := by
  have hheader := h.header
  unfold kHeaderSize at hheader
  have hbyte (i : ℕ) (hi : i < 4) : byteAt (b ++ tail) i = byteAt b i := by
    rw [byteAt, byteAt, List.getD_eq_getElem?_getD, List.getElem?_append_left (by omega),
      List.getD_eq_getElem?_getD]
  have hfield : readUint16 (b ++ tail) 2 = readUint16 b 2 := by
    rw [readUint16, load_append_left (by omega), readUint16]
  refine ⟨?_, hbyte 0 (by decide), hfield⟩
  rw [headerAt, headerAt, hbyte 0 (by decide), hbyte 1 (by decide), hfield]

theorem hasBlock_iff {c : Bytes} : HasBlock c ↔ ∃ b tail, WellFormedBlock b ∧ c = b ++ tail := by
  constructor
  · rintro ⟨hheader, hversion, hlength⟩
    have hsize : (c.take (kHeaderSize + (readUint16 c 2).toNat * 4)).length =
        kHeaderSize + (readUint16 c 2).toNat * 4 := List.length_take_of_le (by omega)
    have hbyte : byteAt (c.take (kHeaderSize + (readUint16 c 2).toNat * 4)) 0 = byteAt c 0 := by
      rw [byteAt, byteAt, List.getD_eq_getElem?_getD, List.getElem?_take_of_lt (by unfold kHeaderSize; omega),
        List.getD_eq_getElem?_getD]
    have hfield : readUint16 (c.take (kHeaderSize + (readUint16 c 2).toNat * 4)) 2 = readUint16 c 2 := by
      have happend := load_append_left (show 2 + 2 ≤ (c.take (kHeaderSize + (readUint16 c 2).toNat * 4)).length by
        rw [hsize]; unfold kHeaderSize; omega) (c.drop (kHeaderSize + (readUint16 c 2).toNat * 4))
      rw [List.take_append_drop] at happend
      rw [readUint16, ← happend, ← readUint16]
    refine ⟨_, _, ⟨?_, ?_, ?_⟩, (List.take_append_drop (kHeaderSize + (readUint16 c 2).toNat * 4) c).symm⟩
    · omega
    · rw [hbyte, hversion]
    · rw [hsize, hfield]
  · rintro ⟨b, tail, h, rfl⟩
    obtain ⟨-, hbyte, hfield⟩ := h.headerAt_append tail 0
    have hlength := h.length
    refine ⟨?_, ?_, ?_⟩
    · rw [List.length_append]
      omega
    · rw [hbyte, h.version]
    · rw [hfield, List.length_append]
      omega

/-- The loop ends within as many rounds as there are bytes, reads nothing outside of the
packet, and handles the blocks in front of the first place where there is none. -/
theorem parseCompoundPacket_spec (clock : Clock) {rounds : ℕ} (s : RTCPReceiver) (hpos : pos ≤ packet.length)
    (hr : packet.length - pos < rounds) :
    ∃ r blocks rest, RTCPReceiver.parseCompoundPacket clock packet rounds s pos = some r ∧
      r.Within packet.length ∧ packet.drop pos = blocks.flatten ++ rest ∧
        (∀ b ∈ blocks, WellFormedBlock b) ∧ ¬HasBlock rest ∧ r.value.2 = headersFrom pos blocks ∧
          r.value.1 = RTCPReceiver.parseBlocks clock s (pos = 0) (packet.drop pos) := by
  induction rounds generalizing s pos with
  | zero => exact absurd hr (Nat.not_lt_zero _)
  | succ rounds ih =>
    have hsize : RTCPReceiver.toSize (packet.length - pos) = packet.length - pos := by
      rw [RTCPReceiver.toSize, if_pos (by omega)]
      omega
    have hwithin := HeaderAt.within_parse hpos
    have hvalue := HeaderAt.value_parse packet pos
    have hparse := CommonHeader.parse_eq packet pos
    unfold RTCPReceiver.parseCompoundPacket
    by_cases hend : pos = packet.length
    · have hnil : packet.drop pos = [] := List.drop_eq_nil_of_le hend.ge
      have hnone : ¬HasBlock [] := fun h => absurd h.1 (by decide)
      rw [if_pos hend, hnil, RTCPReceiver.parseBlocks, if_pos rfl]
      exact ⟨_, [], [], rfl, within_pure _ _, rfl, List.forall_mem_nil _, hnone, rfl, rfl⟩
    · have hne : packet.drop pos ≠ [] := by
        rw [Ne, List.drop_eq_nil_iff]
        omega
      rw [if_neg hend, hsize]
      by_cases hblock : HasBlock (packet.drop pos)
      · rw [if_pos hblock] at hvalue hparse
        obtain ⟨b, tail, hb, htail⟩ := hasBlock_iff.mp hblock
        obtain ⟨hheader, -⟩ := hb.headerAt_append tail pos
        rw [← htail] at hheader
        rw [hheader] at hvalue hparse
        have hlength := hb.length
        have hdrop : packet.drop (pos + b.length) = tail := by
          rw [← List.drop_drop, htail, List.drop_left]
        have htotal : packet.length - pos = b.length + tail.length := by
          rw [← List.length_drop, htail, List.length_append]
        have hnext : (headerAt pos b).nextPacket = pos + b.length := by
          unfold HeaderAt.nextPacket headerAt
          dsimp only
          omega
        have hview : ((headerAt pos b).view packet).nextPacket = tail := by
          unfold CommonHeader.nextPacket HeaderAt.view
          rw [List.drop_drop, ← hdrop, ← hnext]
          rfl
        have hinside : (headerAt pos b).payload + (headerAt pos b).payloadSize ≤ packet.length := by
          unfold headerAt
          dsimp only
          omega
        have hhandled := RTCPReceiver.value_handleBlockAt s clock packet (headerAt pos b)
        have hpositive : kHeaderSize = 4 := rfl
        obtain ⟨r, blocks, rest, hrun, hr', hsplit, hall, hrest, hblocks, hs⟩ :=
          @ih (pos + b.length) (s.handleBlock clock ((headerAt pos b).view packet)) (by omega) (by omega)
        have hlater : decide (pos + b.length = 0) = false := decide_eq_false (by omega)
        dsimp only
        rw [hvalue]
        dsimp only
        rw [hhandled, hnext, hrun, RTCPReceiver.parseBlocks_of_some hne hparse, hview]
        refine ⟨_, b :: blocks, rest, rfl, ?_, ?_, ?_, hrest, ?_, ?_⟩
        · refine hwithin.bind ?_
          exact (RTCPReceiver.within_handleBlockAt s clock packet hinside).bind (hr'.bind (within_pure _ _))
        · rw [htail, List.flatten_cons, List.append_assoc, ← hsplit, hdrop]
        · exact List.forall_mem_cons.mpr ⟨hb, hall⟩
        · exact congrArg _ hblocks
        · rw [hdrop, hlater] at hs
          exact hs
      · rw [if_neg hblock] at hvalue hparse
        dsimp only
        rw [hvalue, RTCPReceiver.parseBlocks_of_none hne hparse]
        refine ⟨_, [], _, rfl, hwithin.bind (within_pure _ _), rfl, List.forall_mem_nil _, hblock, rfl, ?_⟩
        simp

/-- Over pointers the receiver ends in the state that it has over byte strings. -/
theorem parseCompoundPacket_state (s : RTCPReceiver) (clock : Clock) (packet : Bytes) :
    ∃ r, RTCPReceiver.parseCompoundPacket clock packet (packet.length + 1) s 0 = some r ∧
      r.value.1 = RTCPReceiver.parseBlocks clock s true packet := by
  obtain ⟨r, blocks, rest, hrun, -, -, -, -, -, hs⟩ :=
    @parseCompoundPacket_spec packet 0 clock (packet.length + 1) s (Nat.zero_le _) (by omega)
  exact ⟨r, hrun, hs⟩

/-- For any bytes the loop ends, every place that is read lies in the packet, and the blocks
handled are those of the longest prefix of well-formed blocks, each once and in order. -/
theorem compound_packet_taken_apart (s : RTCPReceiver) (clock : Clock) (packet : Bytes) :
    ∃ r blocks rest,
      RTCPReceiver.parseCompoundPacket clock packet (packet.length + 1) s 0 = some r ∧
        (∀ p ∈ r.places, p < packet.length) ∧ packet = blocks.flatten ++ rest ∧
          (∀ b ∈ blocks, WellFormedBlock b) ∧ (∀ b, WellFormedBlock b → ¬b <+: rest) ∧
            r.value.2 = headersFrom 0 blocks := by
  obtain ⟨r, blocks, rest, hrun, hwithin, hsplit, hall, hrest, hblocks, -⟩ :=
    @parseCompoundPacket_spec packet 0 clock (packet.length + 1) s (Nat.zero_le _) (by omega)
  refine ⟨r, blocks, rest, hrun, hwithin, hsplit, hall, fun b hb => ?_, hblocks⟩
  rintro ⟨tail, rfl⟩
  exact hrest (hasBlock_iff.mpr ⟨b, tail, hb, rfl⟩)

/-- A report is a block of its own, and a cut one behind it is not read. -/
example : ((RTCPReceiver.parseCompoundPacket ⟨0, ⟨0, 0⟩, fun _ => ⟨0, 0⟩⟩
    [128, 201, 0, 1, 0, 0, 0, 7, 128, 200, 0, 6, 0] 14
      { audio := false, registeredSsrcs := [], rtpRtcpModuleObserver := none } 0).map
        fun r => (r.value.2.map HeaderAt.payload, r.places)) =
    some ([4], [0, 1, 2, 3, 8, 9, 10, 11]) := by decide +kernel

end Blocks

section Padding

def HasPaddingBit (b : Bytes) : Prop := byteAt b 0 &&& 0x20 ≠ 0

instance (b : Bytes) : Decidable (HasPaddingBit b) := inferInstanceAs (Decidable (_ ≠ _))

/-- The length of the payload that a header declares. -/
def declaredSize (b : Bytes) : ℕ := 4 * (readUint16 b 2).toNat

/-- Where the bit of the header says so, the last byte of the payload is the length of the
padding. -/
def declaredPadding (b : Bytes) : ℕ :=
  if HasPaddingBit b then (byteAt b (kHeaderSize + declaredSize b - 1)).toNat else 0

/-- What a block needs to be accepted. -/
structure Acceptable (b : Bytes) : Prop where
  block : HasBlock b
  padding : HasPaddingBit b → 1 ≤ declaredPadding b ∧ declaredPadding b ≤ declaredSize b

/-- Blocks are accepted when they are well formed, and their padding is told apart from their
payload. -/
structure CommonHeader.SeesPadding (b : Bytes) : Prop where
  accepts : (CommonHeader.parse b).isSome ↔ Acceptable b
  excluded : ∀ h, CommonHeader.parse b = some h → h.payloadSize + declaredPadding b = declaredSize b
  total : ∀ h, CommonHeader.parse b = some h → h.payloadSize + h.paddingSize = declaredSize b
  next : ∀ h, CommonHeader.parse b = some h → h.nextPacket = b.drop (kHeaderSize + declaredSize b)

variable {b : Bytes}

/-- A header is read if there is a block, and its whole payload is taken. -/
theorem CommonHeader.parse_isSome : (CommonHeader.parse b).isSome ↔ HasBlock b := by
  have hparse := CommonHeader.parse_eq b 0
  rw [List.drop_zero] at hparse
  rw [hparse]
  split <;> simp [*]

theorem CommonHeader.sizes_of_parse {h : CommonHeader} (hparse : CommonHeader.parse b = some h) :
    h.paddingSize = 0 ∧ h.payloadSize = declaredSize b ∧ h.nextPacket = b.drop (kHeaderSize + declaredSize b) := by
  have heq := CommonHeader.parse_eq b 0
  rw [List.drop_zero, hparse] at heq
  split at heq
  · cases heq
    have hsize : (headerAt 0 b).payloadSize = declaredSize b := Nat.mul_comm _ _
    refine ⟨rfl, hsize, ?_⟩
    show (b.drop (0 + kHeaderSize)).drop (0 + (headerAt 0 b).payloadSize) = _
    rw [List.drop_drop, hsize, Nat.zero_add, Nat.zero_add]
  · cases heq

/-- A block with the padding bit is not read as it should be: if its padding is in order, the
payload that is found still contains it, and if not, the block is accepted. -/
theorem CommonHeader.seesPadding_iff (b : Bytes) : SeesPadding b ↔ ¬(HasBlock b ∧ HasPaddingBit b) := by
  constructor
  · rintro h ⟨hblock, hbit⟩
    have hsome := parse_isSome.mpr hblock
    obtain ⟨header, hparse⟩ := Option.isSome_iff_exists.mp hsome
    obtain ⟨hpos, -⟩ := (h.accepts.mp hsome).padding hbit
    have hexcluded := h.excluded header hparse
    rw [(sizes_of_parse hparse).2.1] at hexcluded
    omega
  · intro hnot
    have hnone (hblock : HasBlock b) : ¬HasPaddingBit b := fun hbit => hnot ⟨hblock, hbit⟩
    refine ⟨?_, ?_, ?_, ?_⟩
    · rw [parse_isSome]
      exact ⟨fun hblock => ⟨hblock, fun hbit => absurd hbit (hnone hblock)⟩, fun h => h.block⟩
    · intro h hparse
      have hblock := parse_isSome.mp (Option.isSome_of_eq_some hparse)
      rw [declaredPadding, if_neg (hnone hblock), (sizes_of_parse hparse).2.1, Nat.add_zero]
    · intro h hparse
      obtain ⟨hpadding, hsize, -⟩ := sizes_of_parse hparse
      rw [hpadding, hsize, Nat.add_zero]
    · intro h hparse
      exact (sizes_of_parse hparse).2.2

/-- Four bytes of payload that are all padding are taken for payload. -/
theorem CommonHeader.padded_not_seen : ¬SeesPadding [0xa0, 200, 0, 1, 0, 0, 0, 4] := by
  intro h
  have hexcluded := h.excluded _ rfl
  exact absurd hexcluded (by decide)

end Padding

end Rtcp
end XrtcServer
