import XrtcServer.RtcpPacket

/-! Negative acknowledgements: sequence numbers packed into items of a first number and a
mask of the 16 that follow it, written into as many blocks and datagrams as they need. -/
namespace XrtcServer
namespace Rtcp
open ByteFormat StructLayout

def Nack.kFeedbackMessageType : ℕ := 1
def Nack.kPacketType : UInt8 := 205
def Nack.kNackItemLength : ℕ := 4

structure PackedNack where
  firstPid : UInt16
  bitmask : UInt16
  deriving DecidableEq, Repr

def PackedNack.bytes (item : PackedNack) : Bytes := writeUint16 item.firstPid ++ writeUint16 item.bitmask

structure Nack where
  senderSsrc : UInt32
  mediaSsrc : UInt32
  packed : List PackedNack := []
  packetIds : List UInt16 := []

theorem toNat_shiftRight_one (n : UInt16) : (n >>> 1).toNat = n.toNat / 2 := by
  simp [UInt16.toNat_shiftRight, Nat.shiftRight_eq_div_pow]

theorem Compound.onBufferFull_eq_some {c c' : Compound} :
    c.onBufferFull = some c' ↔ c.packet ≠ [] ∧ c' = { packet := [], ready := c.ready ++ [c.packet] } := by
  rw [onBufferFull]
  split
  · simp [*]
  · simp [*, eq_comm]

namespace Nack

/-- The loop of `Pack` with an item that is still open. -/
def packFrom (item : PackedNack) : List UInt16 → List PackedNack
  | [] => [item]
  | id :: ids =>
    let shift := id - item.firstPid - 1
    if shift ≤ 15 then packFrom { item with bitmask := item.bitmask ||| (1 <<< shift) } ids
    else item :: packFrom ⟨id, 0⟩ ids

def pack : List UInt16 → List PackedNack
  | [] => []
  | id :: ids => packFrom ⟨id, 0⟩ ids

/-- The numbers of a mask, which is shifted until nothing is left of it. -/
def unpackMask (pid nackItem : UInt16) : List UInt16 :=
  if nackItem = 0 then []
  else (if nackItem &&& 1 ≠ 0 then [pid] else []) ++ unpackMask (pid + 1) (nackItem >>> 1)
termination_by nackItem.toNat
decreasing_by
  have hne : nackItem.toNat ≠ 0 := fun h => ‹nackItem ≠ 0› (UInt16.toNat_inj.mp h)
  have hhalf : (nackItem >>> 1).toNat = nackItem.toNat / 2 := toNat_shiftRight_one nackItem
  omega

def unpack (packed : List PackedNack) : List UInt16 :=
  packed.flatMap fun nack => nack.firstPid :: unpackMask (nack.firstPid + 1) nack.bitmask

def setPacketIds (nack : Nack) (nackList : List UInt16) : Nack :=
  { nack with packetIds := nackList, packed := pack nackList }

def createCommonFeedback (nack : Nack) : Bytes := writeUint32 nack.senderSsrc ++ writeUint32 nack.mediaSsrc

/-- A block with some of the items. -/
def block (nack : Nack) (items : List PackedNack) : Bytes :=
  createHeader kFeedbackMessageType kPacketType ((kCommonFeedbackLength + items.length * kNackItemLength) / 4) false ++
    (nack.createCommonFeedback ++ items.flatMap PackedNack.bytes)

/-- How many items go into the next block, with `left` bytes in the buffer. -/
def numNackFields (left remaining : ℕ) : ℕ :=
  min ((left - (kHeaderSize + kCommonFeedbackLength)) / kNackItemLength) remaining

theorem numNackFields_pos {left remaining : ℕ}
    (hleft : kHeaderSize + kCommonFeedbackLength + kNackItemLength ≤ left) (h : 0 < remaining) :
    0 < numNackFields left remaining := by
  simp only [kHeaderSize, kCommonFeedbackLength, kNackItemLength] at hleft
  simp only [numNackFields, kHeaderSize, kCommonFeedbackLength, kNackItemLength]
  omega

/-- The loop of `Create` for the items that are left. -/
def createFrom (nack : Nack) (maxLength : ℕ) (items : List PackedNack) (c : Compound) : Bool × Compound :=
  if items = [] then (true, c)
  else
    let left := maxLength - c.packet.length
    if left < kHeaderSize + kCommonFeedbackLength + kNackItemLength then
      match _hc : c.onBufferFull with
      | none => (false, c)
      | some c' => createFrom nack maxLength items c'
    else
      let n := numNackFields left items.length
      createFrom nack maxLength (items.drop n) { c with packet := c.packet ++ nack.block (items.take n) }
termination_by (items.length, c.packet.length)
decreasing_by
  · obtain ⟨hne, rfl⟩ := Compound.onBufferFull_eq_some.mp ‹_›
    exact Prod.Lex.right _ (List.length_pos_iff.mpr hne)
  · have hpos := List.length_pos_iff.mpr ‹items ≠ []›
    have hn : 0 < numNackFields (maxLength - c.packet.length) items.length := numNackFields_pos (Nat.not_lt.mp ‹_›) hpos
    refine Prod.Lex.left _ _ ?_
    rw [List.length_drop]
    omega

def create (nack : Nack) (maxLength : ℕ) (c : Compound) : Bool × Compound := nack.createFrom maxLength nack.packed c

/-- The items behind the SSRCs. -/
def readItems : ℕ → Bytes → List PackedNack
  | 0, _ => []
  | n+1, b => ⟨readUint16 b 0, readUint16 b 2⟩ :: readItems n (b.drop kNackItemLength)

/-- No result stands for `false`. -/
def parse (packet : CommonHeader) : Option Nack :=
  if packet.payloadSize < kCommonFeedbackLength + kNackItemLength then none
  else
    let packed := readItems ((packet.payloadSize - kCommonFeedbackLength) / kNackItemLength)
      (packet.payload.drop kCommonFeedbackLength)
    some { senderSsrc := readUint32 packet.payload 0, mediaSsrc := readUint32 packet.payload 4,
           packed, packetIds := unpack packed }

/-- The NACK blocks of a datagram, or of a part of one. -/
def nackBlocks (b : Bytes) : Option (List Nack) :=
  if b = [] then some []
  else
    match _h : CommonHeader.parse b with
    | none => none
    | some header => do
      let blocks ← nackBlocks header.nextPacket
      if header.packetType = kPacketType ∧ header.countOrFmt.toNat = kFeedbackMessageType then
        let nack ← parse header
        return nack :: blocks
      else return blocks
termination_by b.length
decreasing_by
  exact CommonHeader.nextPacket_lt ‹_›

section Mask

theorem unpackMask_zero (pid : UInt16) : unpackMask pid 0 = [] := by
  rw [unpackMask, if_pos rfl]

theorem unpackMask_step (pid mask : UInt16) :
    unpackMask pid mask = (if mask &&& 1 ≠ 0 then [pid] else []) ++ unpackMask (pid + 1) (mask >>> 1) := by
  by_cases hzero : mask = 0
  · have hshift : (0 : UInt16) >>> 1 = 0 := rfl
    simp [hzero, hshift, unpackMask_zero]
  · rw [unpackMask, if_neg hzero]

theorem and_one_ne_zero (mask : UInt16) : mask &&& 1 ≠ 0 ↔ mask.toNat % 2 = 1 := by
  have hand : (mask &&& 1).toNat = mask.toNat % 2 := by
    rw [UInt16.toNat_and, UInt16.toNat_one, Nat.and_one_is_mod]
  rw [ne_eq, ← UInt16.toNat_inj, hand, UInt16.toNat_zero]
  omega

/-- A bit above all others is the last number of the mask. -/
theorem unpackMask_set {s : ℕ} {pid mask mask' : UInt16} (hlt : mask.toNat < 2^s)
    (hset : mask'.toNat = mask.toNat + 2^s) :
    unpackMask pid mask' = unpackMask pid mask ++ [pid + UInt16.ofNat s] := by
  induction s generalizing pid mask mask' with
  | zero =>
    have hzero : mask = 0 := UInt16.toNat_inj.mp (by rw [UInt16.toNat_zero]; omega)
    have hone : mask' = 1 := UInt16.toNat_inj.mp (by rw [UInt16.toNat_one]; omega)
    have hand : (1 : UInt16) &&& 1 ≠ 0 := by decide
    have hshift : (1 : UInt16) >>> 1 = 0 := rfl
    rw [hzero, hone, unpackMask_step, if_pos hand, hshift, unpackMask_zero, unpackMask_zero]
    simp
  | succ s ih =>
    have hpow : 2^(s+1) = 2 * 2^s := pow_succ' 2 s
    have hhalf := toNat_shiftRight_one mask
    have hhalf' := toNat_shiftRight_one mask'
    have ih := @ih (pid + 1) (mask >>> 1) (mask' >>> 1) (by omega) (by omega)
    have hbit : mask' &&& 1 ≠ 0 ↔ mask &&& 1 ≠ 0 := by
      rw [and_one_ne_zero, and_one_ne_zero]
      omega
    have hpid : pid + 1 + UInt16.ofNat s = pid + UInt16.ofNat (s + 1) := by
      rw [UInt16.ofNat_add, UInt16.add_assoc, UInt16.add_comm 1]
      rfl
    rw [unpackMask_step pid mask', unpackMask_step pid mask, ih, hpid]
    simp only [hbit, List.append_assoc]

/-- Setting a bit above all others adds its value. -/
theorem toNat_setBit {mask shift : UInt16} (hshift : shift ≤ 15) (hlt : mask.toNat < 2^shift.toNat) :
    (mask ||| (1 <<< shift)).toNat = mask.toNat + 2^shift.toNat := by
  have hle : shift.toNat ≤ 15 := UInt16.le_iff_toNat_le.mp hshift
  have hpow : 2^shift.toNat ≤ 2^15 := Nat.pow_le_pow_right (by decide) hle
  have hone : (1 <<< shift : UInt16).toNat = 2^shift.toNat := by
    rw [UInt16.toNat_shiftLeft, Nat.mod_eq_of_lt (show shift.toNat < 16 by omega), UInt16.toNat_one,
      Nat.one_shiftLeft, Nat.mod_eq_of_lt (by omega)]
  rw [UInt16.toNat_or, hone, Nat.or_comm, ← Nat.mul_one (2^shift.toNat), ← Nat.two_pow_add_eq_or_of_lt hlt 1,
    add_comm]

end Mask

section Pack

/-- A number comes after another one, by less than half of the sequence space. -/
def Ahead (a b : UInt16) : Prop := 1 ≤ (b - a).toNat ∧ (b - a).toNat ≤ 32767

instance (a b : UInt16) : Decidable (Ahead a b) := inferInstanceAs (Decidable (_ ∧ _))

theorem toNat_shift {first last id : UInt16} (hlast : (last - first).toNat ≤ 16) (h : Ahead last id) :
    (id - first - 1).toNat + 1 = (last - first).toNat + (id - last).toNat := by
  obtain ⟨hpos, hhalf⟩ := h
  have hfirst := first.toNat_lt
  have hid := id.toNat_lt
  have hlt := last.toNat_lt
  rw [UInt16.toNat_sub] at hlast hpos hhalf
  rw [UInt16.toNat_sub, UInt16.toNat_sub, UInt16.toNat_sub, UInt16.toNat_sub, UInt16.toNat_one]
  omega

theorem first_add_shift (first id : UInt16) : first + 1 + (id - first - 1) = id := by
  have hfirst := first.toNat_lt
  have hid := id.toNat_lt
  apply UInt16.toNat_inj.mp
  rw [UInt16.toNat_add, UInt16.toNat_add, UInt16.toNat_sub, UInt16.toNat_sub, UInt16.toNat_one]
  omega

theorem toNat_sub_first (first id : UInt16) (h : (id - first - 1).toNat < 32768) :
    (id - first).toNat = (id - first - 1).toNat + 1 := by
  have hfirst := first.toNat_lt
  have hid := id.toNat_lt
  rw [UInt16.toNat_sub, UInt16.toNat_sub, UInt16.toNat_one] at h
  rw [UInt16.toNat_sub, UInt16.toNat_sub, UInt16.toNat_one, UInt16.toNat_sub]
  omega

/-- The open item has the numbers up to `last`, `d` after its first. -/
theorem unpack_packFrom {item : PackedNack} {last : UInt16} {ids : List UInt16}
    (hlast : (last - item.firstPid).toNat ≤ 16) (hmask : item.bitmask.toNat < 2^(last - item.firstPid).toNat)
    (h : (last :: ids).IsChain Ahead) :
    unpack (packFrom item ids) = item.firstPid :: unpackMask (item.firstPid + 1) item.bitmask ++ ids := by
  induction ids generalizing item last with
  | nil => simp [packFrom, unpack]
  | cons id ids ih =>
    obtain ⟨hahead, hchain⟩ := List.isChain_cons_cons.mp h
    rw [packFrom]
    have hshift := toNat_shift hlast hahead
    split
    · rename_i hle
      have hle15 : (id - item.firstPid - 1).toNat ≤ 15 := UInt16.le_iff_toNat_le.mp hle
      have hid := toNat_sub_first item.firstPid id (by omega)
      have hbelow : item.bitmask.toNat < 2^(id - item.firstPid - 1).toNat :=
        lt_of_lt_of_le hmask (Nat.pow_le_pow_right (by decide) (by have := hahead.1; omega))
      have hset := toNat_setBit hle hbelow
      have ih := @ih { item with bitmask := item.bitmask ||| (1 <<< (id - item.firstPid - 1)) } id
        (by simp only; omega) (by simp only; rw [hset, hid, pow_succ]; omega) hchain
      rw [ih, unpackMask_set hbelow hset, UInt16.ofNat_toNat, first_add_shift]
      simp
    · have ih := @ih ⟨id, 0⟩ id (by simp) (by simp) hchain
      have hcons : unpack (item :: packFrom ⟨id, 0⟩ ids) =
          (item.firstPid :: unpackMask (item.firstPid + 1) item.bitmask) ++ unpack (packFrom ⟨id, 0⟩ ids) := by
        simp [unpack]
      rw [hcons, ih, unpackMask_zero]
      rfl

theorem unpack_pack {ids : List UInt16} (h : ids.IsChain Ahead) : unpack (pack ids) = ids := by
  cases ids with
  | nil => rfl
  | cons id ids =>
    have hopen : unpack (packFrom ⟨id, 0⟩ ids) = _ := unpack_packFrom (by simp) (by simp) h
    rw [pack, hopen, unpackMask_zero]
    rfl

end Pack

section Block
variable (nack : Nack) {items : List PackedNack}

theorem items_length (items : List PackedNack) : (items.flatMap PackedNack.bytes).length = items.length * kNackItemLength := by
  induction items with
  | nil => rfl
  | cons item items ih =>
    rw [List.flatMap_cons, List.length_append, ih, List.length_cons]
    simp [PackedNack.bytes, kNackItemLength]
    omega

theorem readItems_add (items : List PackedNack) (n : ℕ) (rest : Bytes) :
    readItems (items.length + n) (items.flatMap PackedNack.bytes ++ rest) = items ++ readItems n rest := by
  induction items with
  | nil => simp
  | cons item items ih =>
    have hdrop : ((item :: items).flatMap PackedNack.bytes ++ rest).drop kNackItemLength =
        items.flatMap PackedNack.bytes ++ rest := by
      have hlen : item.bytes.length = kNackItemLength := by simp [PackedNack.bytes, kNackItemLength]
      rw [List.flatMap_cons, List.append_assoc, ← hlen, List.drop_left]
    rw [List.length_cons, Nat.add_right_comm, readItems, hdrop, ih, List.flatMap_cons, PackedNack.bytes,
      List.append_assoc, List.append_assoc, readUint16_append, readUint16_skip (by simp), writeUint16_length,
      Nat.sub_self, readUint16_append, List.cons_append]

theorem readItems_append (items : List PackedNack) (rest : Bytes) :
    readItems items.length (items.flatMap PackedNack.bytes ++ rest) = items := by
  have h := readItems_add items 0 rest
  rwa [Nat.add_zero, readItems, List.append_nil] at h

theorem readItems_left {n : ℕ} {b : Bytes} (h : n * kNackItemLength ≤ b.length) (rest : Bytes) :
    readItems n (b ++ rest) = readItems n b := by
  induction n generalizing b with
  | zero => rfl
  | succ n ih =>
    rw [Nat.succ_mul] at h
    have hfour : kNackItemLength = 4 := rfl
    rw [readItems, readItems, List.drop_append_of_le_length (by omega), ih (by rw [List.length_drop]; omega)]
    simp only [readUint16, load_append_left (show 0 + 2 ≤ b.length by omega), load_append_left (show 2 + 2 ≤ b.length by omega)]

/-- What is parsed from a block. -/
def received (items : List PackedNack) : Nack := { nack with packed := items, packetIds := unpack items }

/-- The number of items that a block's length field can count. -/
def maxItems : ℕ := 65533

theorem parse_block (hne : items ≠ []) (hlen : items.length ≤ maxItems) (rest : Bytes) :
    ∃ header, CommonHeader.parse (nack.block items ++ rest) = some header ∧ header.packetType = kPacketType ∧
      header.countOrFmt.toNat = kFeedbackMessageType ∧ parse header = some (nack.received items) ∧
      header.nextPacket = rest := by
  have hpos := List.length_pos_iff.mpr hne
  have hbody : (nack.createCommonFeedback ++ items.flatMap PackedNack.bytes).length =
      4 * ((kCommonFeedbackLength + items.length * kNackItemLength) / 4) := by
    rw [List.length_append, items_length]
    simp only [createCommonFeedback, List.length_append, writeUint32_length, kCommonFeedbackLength, kNackItemLength]
    omega
  have hfield : (kCommonFeedbackLength + items.length * kNackItemLength) / 4 < 2^16 := by
    simp only [kCommonFeedbackLength, kNackItemLength, maxItems] at hlen ⊢
    omega
  have hparse := @parse_createHeader kFeedbackMessageType kPacketType _ false (by decide) hfield _ hbody rest
  rw [← List.append_assoc] at hparse
  refine ⟨_, hparse, rfl, rfl, ?_, ?_⟩
  · have hsize : (nack.createCommonFeedback ++ items.flatMap PackedNack.bytes).length = 8 + items.length * 4 := by
      rw [List.length_append, items_length]
      rfl
    have hcount : (8 + items.length * 4 - kCommonFeedbackLength) / kNackItemLength = items.length := by
      simp only [kCommonFeedbackLength, kNackItemLength]
      omega
    have hdrop : (nack.createCommonFeedback ++ items.flatMap PackedNack.bytes ++ rest).drop kCommonFeedbackLength =
        items.flatMap PackedNack.bytes ++ rest := by
      have hlen : nack.createCommonFeedback.length = kCommonFeedbackLength := rfl
      rw [List.append_assoc, ← hlen, List.drop_left]
    rw [parse, if_neg (by rw [hsize]; simp only [kCommonFeedbackLength, kNackItemLength]; omega)]
    simp only [hsize, hcount, hdrop, readItems_append, received, Option.some.injEq, mk.injEq, and_true]
    refine ⟨?_, ?_⟩
    · rw [createCommonFeedback, List.append_assoc, List.append_assoc, readUint32_append]
    · rw [createCommonFeedback, List.append_assoc, List.append_assoc, readUint32_skip (by simp), writeUint32_length,
        Nat.sub_self, readUint32_append]
  · rw [CommonHeader.nextPacket, Nat.zero_add, List.drop_left]

theorem nackBlocks_nil : nackBlocks [] = some [] := by
  rw [nackBlocks, if_pos rfl]

theorem block_ne_nil (items : List PackedNack) (rest : Bytes) : nack.block items ++ rest ≠ [] := by
  simp [block, createHeader]

theorem nackBlocks_block (hne : items ≠ []) (hlen : items.length ≤ maxItems) (rest : Bytes) :
    nackBlocks (nack.block items ++ rest) = (nackBlocks rest).map (nack.received items :: ·) := by
  obtain ⟨header, hparse, htype, hfmt, hnack, hnext⟩ := parse_block nack hne hlen rest
  rw [nackBlocks, if_neg (nack.block_ne_nil items rest)]
  split
  · rename_i hnone
    rw [hnone] at hparse
    cases hparse
  · rename_i header' hsome
    obtain rfl := Option.some.inj (hsome.symm.trans hparse)
    rw [hnext]
    cases nackBlocks rest <;> simp [htype, hfmt, hnack]

end Block

section Create
variable (nack : Nack) {maxLength : ℕ}

/-- What one datagram gets of the items. -/
def piece (items : List PackedNack) : Bytes := if items = [] then [] else nack.block items

theorem nackBlocks_piece {items : List PackedNack} (hlen : items.length ≤ maxItems) :
    nackBlocks (nack.piece items) = some (if items = [] then [] else [nack.received items]) := by
  rw [piece]
  split
  · exact nackBlocks_nil
  · have h := nackBlocks_block nack ‹_› hlen []
    rwa [List.append_nil, nackBlocks_nil] at h

theorem block_length (items : List PackedNack) : (nack.block items).length =
    kHeaderSize + kCommonFeedbackLength + items.length * kNackItemLength := by
  rw [block, List.length_append, createHeader_length, List.length_append, items_length]
  simp [createCommonFeedback, kCommonFeedbackLength]
  omega

/-- The datagrams of `Create`: what was there before and the first piece, then the other
pieces. -/
structure Writes (maxLength : ℕ) (items : List PackedNack) (c c' : Compound) (first : List PackedNack)
    (rest : List (List PackedNack)) : Prop where
  datagrams : c'.datagrams = c.ready ++ (c.packet ++ nack.piece first) :: rest.map nack.piece
  items : first ++ rest.flatten = items
  fits : ∀ p ∈ (c.packet ++ nack.piece first) :: rest.map nack.piece, p.length ≤ maxLength
  bounds : ∀ part ∈ first :: rest, part.length * kNackItemLength + 12 ≤ maxLength
  full : maxLength - c.packet.length < 16 → first = []

variable {nack} in
/-- A full buffer goes out as it is. -/
theorem Writes.of_bufferFull {items first : List PackedNack} {rest : List (List PackedNack)} {c c₁ c' : Compound}
    (h : nack.Writes maxLength items c₁ c' first rest) (hmax : 16 ≤ maxLength) (hc : c.packet.length ≤ maxLength)
    (hready : c₁.ready = c.ready ++ [c.packet]) (hpacket : c₁.packet = []) :
    nack.Writes maxLength items c c' [] (first :: rest) := by
  have hpiece : nack.piece [] = [] := rfl
  refine ⟨?_, ?_, ?_, ?_, fun _ => rfl⟩
  · rw [h.datagrams, hready, hpacket]
    simp [hpiece]
  · simpa using h.items
  · have hfits := h.fits
    rw [hpacket] at hfits
    simp only [List.nil_append] at hfits
    simpa [hpiece, hc] using hfits
  · refine List.forall_mem_cons.mpr ⟨?_, h.bounds⟩
    simp
    omega

variable {nack} in
/-- The items of a block come first. -/
theorem Writes.of_block {items : List PackedNack} {rest : List (List PackedNack)} {c c' : Compound} {n : ℕ}
    (h : nack.Writes maxLength (items.drop n) { c with packet := c.packet ++ nack.block (items.take n) } c' [] rest)
    (hne : items.take n ≠ []) (hroom : ¬ maxLength - c.packet.length < 16)
    (hbound : (items.take n).length * kNackItemLength + 12 ≤ maxLength) :
    nack.Writes maxLength items c c' (items.take n) rest := by
  have hpiece : nack.piece [] = [] := rfl
  have hpiece_take : nack.piece (items.take n) = nack.block (items.take n) := if_neg hne
  refine ⟨?_, ?_, ?_, ?_, fun h => absurd h hroom⟩
  · rw [h.datagrams, hpiece, hpiece_take, List.append_nil]
  · have hitems := h.items
    rw [List.nil_append] at hitems
    rw [hitems, List.take_append_drop]
  · have hfits := h.fits
    rwa [hpiece, List.append_nil, ← hpiece_take] at hfits
  · exact List.forall_mem_cons.mpr ⟨hbound, fun part hpart => h.bounds part (by simp [hpart])⟩

theorem createFrom_writes (hmax : 16 ≤ maxLength) (items : List PackedNack) (c : Compound)
    (hc : c.packet.length ≤ maxLength) :
    ∃ c' first rest, nack.createFrom maxLength items c = (true, c') ∧
      nack.Writes maxLength items c c' first rest := by
  have hsizes : kHeaderSize + kCommonFeedbackLength + kNackItemLength = 16 := rfl
  have hheaders : kHeaderSize + kCommonFeedbackLength = 12 := rfl
  have hfour : kNackItemLength = 4 := rfl
  have hpiece : nack.piece [] = [] := rfl
  induction items, c using createFrom.induct nack maxLength with
  | case1 c =>
    refine ⟨c, [], [], by rw [createFrom, if_pos rfl], ?_⟩
    refine ⟨by simp [Compound.datagrams, hpiece], rfl, by simpa [hpiece] using hc, by simp; omega, fun _ => rfl⟩
  | case2 items c hne left hfull hnone =>
    -- an empty buffer has room for a block
    have hempty : c.packet = [] := by
      by_contra hpacket
      rw [Compound.onBufferFull, if_neg hpacket] at hnone
      cases hnone
    simp only [left, hempty, List.length_nil] at hfull
    omega
  | case3 items c hne left hfull c' hsome ih =>
    obtain ⟨-, rfl⟩ := Compound.onBufferFull_eq_some.mp hsome
    obtain ⟨c', first, rest, hcreate, hwrites⟩ := ih (Nat.zero_le _)
    refine ⟨c', [], first :: rest, ?_, ?_⟩
    · rw [createFrom, if_neg hne, if_pos hfull]
      split
      · rename_i hnone
        rw [hsome] at hnone
        cases hnone
      · rename_i c'' hsome'
        obtain rfl := Option.some.inj (hsome.symm.trans hsome')
        exact hcreate
    · exact hwrites.of_bufferFull hmax hc rfl rfl
  | case4 items c hne left hroom n ih =>
    have hn : n ≤ items.length := Nat.min_le_right _ _
    have hn' : n * 4 + 12 ≤ left := by
      have hle : n ≤ (left - (kHeaderSize + kCommonFeedbackLength)) / kNackItemLength := Nat.min_le_left _ _
      rw [hheaders, hfour] at hle
      omega
    have htake : (items.take n).length = n := List.length_take_of_le hn
    have hpos : 0 < n := numNackFields_pos (Nat.not_lt.mp hroom) (List.length_pos_iff.mpr hne)
    have htake_ne : items.take n ≠ [] := List.length_pos_iff.mp (by omega)
    have hblock := nack.block_length (items.take n)
    rw [htake, hheaders] at hblock
    have hlen : (c.packet ++ nack.block (items.take n)).length = c.packet.length + (12 + n * 4) := by
      rw [List.length_append, hblock, hfour]
    have hroom' : c.packet.length + left = maxLength := Nat.add_sub_cancel' hc
    obtain ⟨c', first, rest, hcreate, hwrites⟩ := ih (by
      change (c.packet ++ nack.block (items.take n)).length ≤ maxLength
      omega)
    -- either nothing is left or the buffer is full now
    have hfirst : first = [] := by
      by_cases hall : n = items.length
      · have hitems := hwrites.items
        rw [hall, List.drop_length] at hitems
        exact (List.append_eq_nil_iff.mp hitems).1
      · refine hwrites.full ?_
        have hexact : n = (left - (kHeaderSize + kCommonFeedbackLength)) / kNackItemLength := by
          simp only [n, numNackFields] at hall ⊢
          omega
        rw [hheaders, hfour] at hexact
        change maxLength - (c.packet ++ nack.block (items.take n)).length < 16
        omega
    subst hfirst
    refine ⟨c', items.take n, rest, ?_, ?_⟩
    · rw [createFrom, if_neg hne, if_neg hroom]
      exact hcreate
    · refine hwrites.of_block htake_ne hroom ?_
      rw [htake, hfour]
      omega

/-- The datagrams that `Create` adds to behind what is in the buffer: none is too long, and
the blocks in them carry the two SSRCs and give back the list. -/
def Recovers (nack : Nack) (ids : List UInt16) (maxLength : ℕ) (c : Compound) : Prop :=
  ∃ c' first rest blocks, (nack.setPacketIds ids).create maxLength c = (true, c') ∧
    c'.datagrams = c.ready ++ (c.packet ++ first) :: rest ∧
    (∀ p ∈ (c.packet ++ first) :: rest, p.length ≤ maxLength) ∧
    (first :: rest).mapM nackBlocks = some blocks ∧
    (∀ block ∈ blocks.flatten, block.senderSsrc = nack.senderSsrc ∧ block.mediaSsrc = nack.mediaSsrc) ∧
    blocks.flatten.flatMap Nack.packetIds = ids

/-- The blocks that a reader finds in the pieces. -/
theorem nackBlocks_pieces {parts : List (List PackedNack)} (h : ∀ part ∈ parts, part.length ≤ maxItems) :
    ∃ blocks, (parts.map nack.piece).mapM nackBlocks = some blocks ∧
      (∀ block ∈ blocks.flatten, block.senderSsrc = nack.senderSsrc ∧ block.mediaSsrc = nack.mediaSsrc) ∧
      blocks.flatten.flatMap Nack.packetIds = unpack parts.flatten := by
  induction parts with
  | nil => exact ⟨[], rfl, by simp, rfl⟩
  | cons part parts ih =>
    obtain ⟨blocks, hblocks, hssrcs, hids⟩ := ih fun p hp => h p (by simp [hp])
    have hpiece := nackBlocks_piece nack (h part (by simp))
    refine ⟨(if part = [] then [] else [nack.received part]) :: blocks, ?_, ?_, ?_⟩
    · simp [List.mapM_cons, hpiece, hblocks]
    · intro block hblock
      rw [List.flatten_cons] at hblock
      rcases List.mem_append.mp hblock with hblock | hblock
      · split at hblock
        · cases hblock
        · rw [List.mem_singleton.mp hblock]
          exact ⟨rfl, rfl⟩
      · exact hssrcs block hblock
    · have hpart : (if part = [] then [] else [nack.received part]).flatMap Nack.packetIds = unpack part := by
        split
        · simp [*, unpack]
        · simp [received]
      rw [List.flatten_cons, List.flatMap_append, hpart, hids, List.flatten_cons, unpack, unpack, unpack,
        List.flatMap_append]

/-- A list of numbers that go forward survives the blocks, as long as the length field of a
block can count what goes into it. -/
theorem recovers {ids : List UInt16} (hids : ids.IsChain Ahead) (hmax : 16 ≤ maxLength) {c : Compound}
    (hc : c.packet.length ≤ maxLength) (hsize : maxLength < 262148 ∨ (pack ids).length ≤ maxItems) :
    nack.Recovers ids maxLength c := by
  obtain ⟨c', first, rest, hcreate, hwrites⟩ :=
    createFrom_writes (nack.setPacketIds ids) hmax (pack ids) c hc
  have hitems : (first :: rest).flatten = pack ids := hwrites.items
  have hparts : ∀ part ∈ first :: rest, part.length ≤ maxItems := by
    intro part hpart
    rcases hsize with hsize | hsize
    · have hbound := hwrites.bounds part hpart
      simp only [kNackItemLength, maxItems] at hbound ⊢
      omega
    · refine Nat.le_trans ?_ hsize
      rw [← hitems]
      exact (List.sublist_flatten_of_mem hpart).length_le
  obtain ⟨blocks, hblocks, hssrcs, hpacket⟩ := nackBlocks_pieces (nack.setPacketIds ids) hparts
  refine ⟨c', _, _, blocks, hcreate, hwrites.datagrams, hwrites.fits, hblocks, hssrcs, ?_⟩
  rw [hpacket, hitems, unpack_pack hids]

/-- Numbers around the wrap of the sequence space, behind a block of another kind. -/
theorem recovers_wrapped : ({ senderSsrc := 1, mediaSsrc := 2 } : Nack).Recovers [65530, 65535, 3, 40] 20
    { packet := [0x80, 201, 0, 1, 0, 0, 0, 1] } :=
  recovers _ (by decide) (by decide) (by decide) (.inl (by decide))

end Create

section TooMany

/-- So many numbers, each too far from the one before to share its item. -/
def every17 : ℕ → UInt16 → List UInt16
  | 0, _ => []
  | n+1, id => id :: every17 n (id + 17)

theorem add_17_sub (id : UInt16) : id + 17 - id = 17 := by
  rw [UInt16.add_comm, UInt16.add_sub_cancel]

theorem every17_ahead (n : ℕ) (id : UInt16) : (every17 n id).IsChain Ahead := by
  induction n generalizing id with
  | zero => exact .nil
  | succ n ih =>
    cases n with
    | zero => exact .singleton id
    | succ n =>
      have hahead : Ahead id (id + 17) := by
        rw [Ahead, add_17_sub]
        decide
      exact List.isChain_cons_cons.mpr ⟨hahead, ih (id + 17)⟩

theorem packFrom_every17 (n : ℕ) (id : UInt16) : (packFrom ⟨id, 0⟩ (every17 n (id + 17))).length = n + 1 := by
  induction n generalizing id with
  | zero => rfl
  | succ n ih =>
    have hshift : ¬ id + 17 - id - 1 ≤ 15 := by
      rw [add_17_sub]
      decide
    rw [every17, packFrom, if_neg hshift, List.length_cons, ih]

theorem every17_length_pack (n : ℕ) : (pack (every17 (n + 1) 0)).length = n + 1 := packFrom_every17 n 0

/-- A block whose length field has come round to zero is no NACK block. -/
theorem nackBlocks_overflow (nack : Nack) {items : List PackedNack} (h : items.length = maxItems + 1) :
    nackBlocks (nack.block items) = none := by
  have hlength : toBE 2 ((kCommonFeedbackLength + items.length * kNackItemLength) / 4) = toBE 2 0 := by
    rw [h]
    rfl
  have hparse := @parse_createHeader kFeedbackMessageType kPacketType 0 false (by decide) (by decide) [] rfl
    (nack.createCommonFeedback ++ items.flatMap PackedNack.bytes)
  have hblock : nack.block items = createHeader kFeedbackMessageType kPacketType 0 false ++
      ([] ++ (nack.createCommonFeedback ++ items.flatMap PackedNack.bytes)) := by
    rw [block, createHeader, hlength]
    rfl
  rw [← hblock] at hparse
  rw [nackBlocks, if_neg (by simpa using nack.block_ne_nil items [])]
  split
  · rfl
  · rename_i header hsome
    obtain rfl := Option.some.inj (hsome.symm.trans hparse)
    simp [parse, kCommonFeedbackLength, kFeedbackMessageType]

/-- Items that fit an empty buffer go into one block. -/
theorem createFrom_once (nack : Nack) {items : List PackedNack} (hne : items ≠ []) {maxLength : ℕ}
    (hroom : 12 + items.length * 4 ≤ maxLength) :
    nack.createFrom maxLength items {} = (true, { packet := nack.block items }) := by
  have hpos := List.length_pos_iff.mpr hne
  have hn : numNackFields (maxLength - 0) items.length = items.length := by
    simp only [numNackFields, kHeaderSize, kCommonFeedbackLength, kNackItemLength]
    omega
  have hfull : ¬ maxLength - 0 < kHeaderSize + kCommonFeedbackLength + kNackItemLength := by
    simp only [kHeaderSize, kCommonFeedbackLength, kNackItemLength]
    omega
  rw [createFrom, if_neg hne]
  simp only [List.length_nil, if_neg hfull, hn, List.drop_length, List.take_length, List.nil_append]
  rw [createFrom, if_pos rfl]

theorem every17_not_recovered :
    (every17 65534 0).IsChain Ahead ∧
      ¬ ({ senderSsrc := 1, mediaSsrc := 2 } : Nack).Recovers (every17 65534 0) 262148 {} := by
  refine ⟨every17_ahead _ _, ?_⟩
  rintro ⟨c', first, rest, blocks, hcreate, hdatagrams, -, hblocks, -⟩
  have hlen : (pack (every17 65534 0)).length = maxItems + 1 := every17_length_pack 65533
  have hne : pack (every17 65534 0) ≠ [] := List.length_pos_iff.mp (by omega)
  have honce := createFrom_once (({ senderSsrc := 1, mediaSsrc := 2 } : Nack).setPacketIds (every17 65534 0)) hne
    (show 12 + (pack (every17 65534 0)).length * 4 ≤ 262148 by rw [hlen]; decide)
  obtain ⟨-, rfl⟩ := Prod.mk.inj (honce.symm.trans hcreate)
  obtain ⟨hfirst, -⟩ := List.cons.inj hdatagrams
  rw [← List.nil_append first, ← hfirst, List.mapM_cons, nackBlocks_overflow _ hlen] at hblocks
  cases hblocks

end TooMany

end Nack

end Rtcp
end XrtcServer
