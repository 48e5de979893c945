import XrtcServer.RtpPacket
import XrtcServer.Runs

/-! What the sizes and the extension entries of an RTP packet say about its buffer, over any calls
on one object. -/
namespace XrtcServer
namespace Rtp
open ByteFormat StructLayout
open XrtcServer.Rtcp (byteAt)

/-- The entry for an element. -/
def place (e : Element) (info : ExtensionInfo) : ExtensionInfo := { info with offset := UInt16.ofNat e.start, length := e.length }

/-- The entries after a list of elements, up to the first whose place is more than an entry holds. -/
def record : List ExtensionInfo → List Element → List ExtensionInfo
  | infos, [] => infos
  | infos, e :: es => if 65536 ≤ e.start then updateExtensionInfo e.id id infos else record (updateExtensionInfo e.id (place e) infos) es

/-- The first element whose place is more than an entry holds has an id that was seen before. -/
def Addressable : List UInt8 → List Element → Prop
  | _, [] => True
  | seen, e :: es => if 65536 ≤ e.start then e.id ∈ seen else Addressable (e.id :: seen) es

section Entries
variable {key : UInt8} {f : ExtensionInfo → ExtensionInfo} {infos : List ExtensionInfo} {info : ExtensionInfo}

theorem mem_updateExtensionInfo (h : info ∈ updateExtensionInfo key f infos) : info ∈ infos ∨ ∃ old, info = f old := by
  induction infos with
  | nil => exact .inr ⟨_, List.mem_singleton.mp h⟩
  | cons first infos ih =>
    rw [updateExtensionInfo] at h
    split at h
    · rcases List.mem_cons.mp h with rfl | hmem
      · exact .inr ⟨first, rfl⟩
      · exact .inl (List.mem_cons_of_mem _ hmem)
    · rcases List.mem_cons.mp h with rfl | hmem
      · exact .inl List.mem_cons_self
      · rcases ih hmem with hmem | hold
        · exact .inl (List.mem_cons_of_mem _ hmem)
        · exact .inr hold

/-- The ids of the entries are those before and the new one. -/
theorem exists_id_updateExtensionInfo (hf : ∀ info, (f info).id = info.id) (j : UInt8) :
    (∃ info ∈ updateExtensionInfo key f infos, info.id = j) ↔ j = key ∨ ∃ info ∈ infos, info.id = j := by
  induction infos with
  | nil => simp [updateExtensionInfo, hf, eq_comm]
  | cons first infos ih =>
    rw [updateExtensionInfo]
    split
    · rename_i hfirst
      simp only [List.mem_cons, exists_eq_or_imp, hf, hfirst]
      constructor
      · exact .inr
      · rintro (rfl | h)
        · exact .inl rfl
        · exact h
    · simp only [List.mem_cons, exists_eq_or_imp, ih]
      exact or_left_comm

theorem updateExtensionInfo_id_of_mem (h : ∃ info ∈ infos, info.id = key) : updateExtensionInfo key id infos = infos := by
  induction infos with
  | nil =>
    obtain ⟨info, hinfo, -⟩ := h
    cases hinfo
  | cons first infos ih =>
    rw [updateExtensionInfo]
    split
    · rfl
    · rename_i hfirst
      obtain ⟨info, hinfo, hid⟩ := h
      rcases List.mem_cons.mp hinfo with rfl | hmem
      · exact absurd hid hfirst
      · rw [ih ⟨info, hmem, hid⟩]

theorem updateExtensionInfo_id_of_not_mem (h : ¬ ∃ info ∈ infos, info.id = key) :
    ({ id := key } : ExtensionInfo) ∈ updateExtensionInfo key id infos := by
  induction infos with
  | nil => exact List.mem_singleton.mpr rfl
  | cons first infos ih =>
    rw [updateExtensionInfo]
    split
    · rename_i hfirst
      exact absurd ⟨first, List.mem_cons_self, hfirst⟩ h
    · exact List.mem_cons_of_mem _ (ih fun ⟨info, hinfo, hid⟩ => h ⟨info, List.mem_cons_of_mem _ hinfo, hid⟩)

theorem updateExtensionInfo_ne_nil : updateExtensionInfo key f infos ≠ [] := by
  cases infos with
  | nil => exact List.cons_ne_nil _ _
  | cons first infos =>
    rw [updateExtensionInfo]
    split
    · exact List.cons_ne_nil _ _
    · exact List.cons_ne_nil _ _

theorem record_ne_nil (es : List Element) (h : infos ≠ []) : record infos es ≠ [] := by
  induction es generalizing infos with
  | nil => exact h
  | cons e es ih =>
    rw [record]
    split
    · exact updateExtensionInfo_ne_nil
    · exact ih updateExtensionInfo_ne_nil

theorem record_eq_nil_iff {es : List Element} : record [] es = [] ↔ es = [] := by
  cases es with
  | nil => exact iff_of_true rfl rfl
  | cons e es =>
    refine iff_of_false ?_ (List.cons_ne_nil _ _)
    rw [record]
    split
    · exact updateExtensionInfo_ne_nil
    · exact record_ne_nil es updateExtensionInfo_ne_nil

/-- An entry between two places of the packet. -/
def Between (lo hi : ℕ) (info : ExtensionInfo) : Prop := lo ≤ info.offset.toNat ∧ info.offset.toNat + info.length.toNat ≤ hi

/-- All entries are between two places that the elements are between exactly if the elements can
be addressed. -/
theorem record_between_iff {lo hi : ℕ} (hlo : 0 < lo) {es : List Element} {seen : List UInt8}
    (hes : ∀ e ∈ es, lo ≤ e.start ∧ e.start + e.length.toNat ≤ hi) (hinfos : ∀ info ∈ infos, Between lo hi info)
    (hseen : ∀ j, j ∈ seen ↔ ∃ info ∈ infos, info.id = j) : (∀ info ∈ record infos es, Between lo hi info) ↔ Addressable seen es := by
  induction es generalizing infos seen with
  | nil => exact iff_of_true hinfos trivial
  | cons e es ih =>
    rw [record, Addressable]
    split
    · rw [hseen]
      constructor
      · intro hall
        by_contra hnot
        have hbetween := hall _ (updateExtensionInfo_id_of_not_mem hnot)
        have hzero : lo ≤ (0 : UInt16).toNat := hbetween.1
        rw [UInt16.toNat_zero] at hzero
        omega
      · intro hmem
        rw [updateExtensionInfo_id_of_mem hmem]
        exact hinfos
    · rename_i hstart
      refine ih (fun e' he' => hes e' (List.mem_cons_of_mem _ he')) ?_ ?_
      · intro info hinfo
        rcases mem_updateExtensionInfo hinfo with hold | ⟨old, rfl⟩
        · exact hinfos info hold
        · have hoffset : (place e old).offset.toNat = e.start := by
            rw [place, UInt16.toNat_ofNat', Nat.mod_eq_of_lt (by omega)]
          obtain ⟨hge, hle⟩ := hes e List.mem_cons_self
          refine ⟨hge.trans_eq hoffset.symm, ?_⟩
          rw [hoffset]
          exact hle
      · intro j
        rw [List.mem_cons, hseen, exists_id_updateExtensionInfo (f := place e) fun _ => rfl]

end Entries

namespace Extension
variable {x : Extension} {buffer : Bytes}

theorem headerLength_pos : 1 ≤ x.headerLength := by
  rw [headerLength]
  split <;> decide

theorem parse_snd (rounds pos : ℕ) (infos : List ExtensionInfo) :
    (x.parse buffer rounds pos infos).2 = record infos (x.elements buffer rounds pos) := by
  induction rounds generalizing pos infos with
  | zero => rfl
  | succ rounds ih =>
    rw [parse, elements]
    split
    · rfl
    · split
      · exact ih _ _
      · dsimp only
        split
        · rfl
        · rw [record]
          split
          · rfl
          · exact ih _ _

/-- The rounds that an extension gets are enough: with more of them nothing is read further. -/
theorem parse_rounds {rounds pos : ℕ} (h : x.capacity ≤ pos + rounds) (infos : List ExtensionInfo) :
    x.parse buffer (rounds + 1) pos infos = x.parse buffer rounds pos infos := by
  have hheader := x.headerLength_pos
  induction rounds generalizing pos infos with
  | zero => exact if_pos (by omega)
  | succ rounds ih =>
    rw [parse.eq_2 x buffer pos infos (rounds + 1), parse.eq_2 x buffer pos infos rounds, ih (by omega)]
    split
    · rfl
    · split
      · rfl
      · dsimp only
        rw [ih (by omega)]

theorem elements_between (rounds pos : ℕ) :
    ∀ e ∈ x.elements buffer rounds pos, x.offset + 1 ≤ e.start ∧ e.start + e.length.toNat ≤ x.offset + x.capacity := by
  induction rounds generalizing pos with
  | zero =>
    rintro e ⟨⟩
  | succ rounds ih =>
    rw [elements]
    split
    · rintro e ⟨⟩
    · split
      · exact ih _
      · dsimp only
        split
        · rintro e ⟨⟩
        · rename_i hends
          have hheader := x.headerLength_pos
          have hstart : (x.elementAt buffer pos).start = x.offset + pos + x.headerLength := by
            rw [elementAt]
            split
            · rfl
            · rfl
          have hroom : ¬ pos + x.headerLength + (x.elementAt buffer pos).length.toNat > x.capacity := by
            intro hgt
            rw [ends, Bool.or_eq_true, decide_eq_true_eq] at hends
            exact hends (.inr hgt)
          intro e he
          rcases List.mem_cons.mp he with rfl | he
          · rw [hstart]
            omega
          · exact ih _ e he

end Extension

/-- Where the list of contributing sources ends. -/
def csrcEnd (buffer : Bytes) : ℕ := kFixedHeaderSize + (byteAt buffer 0 &&& 0x0f).toNat * 4

/-- A header of version 2 with its contributing sources. -/
def HeaderFits (buffer : Bytes) : Prop :=
  kFixedHeaderSize ≤ buffer.length ∧ byteAt buffer 0 >>> 6 = kRtpVersion ∧ csrcEnd buffer ≤ buffer.length

/-- Where the payload starts, and the header extension if there is one that is read. -/
def extensionOf (buffer : Bytes) : Option (ℕ × Option Extension) :=
  if byteAt buffer 0 &&& 0x10 ≠ 0 then RtpPacket.extensionAt buffer (csrcEnd buffer) else some (csrcEnd buffer, none)

def elementsOf (buffer : Bytes) : List Element :=
  match extensionOf buffer with
  | some (_, some x) => x.elements buffer x.capacity 0
  | _ => []

/-- The extension fits, and the last byte of a padded packet is the number of bytes that end it. -/
def PaddingFits (buffer : Bytes) : Prop :=
  ∃ start x, extensionOf buffer = some (start, x) ∧ (byteAt buffer 0 &&& 0x20 ≠ 0 → start < buffer.length →
    byteAt buffer (buffer.length - 1) ≠ 0 ∧ start + (byteAt buffer (buffer.length - 1)).toNat ≤ buffer.length)

section Extensions
variable {buffer : Bytes} {start : ℕ} {x : Option Extension}

/-- A header extension lies between the contributing sources and the payload. -/
theorem extensionAt_place {offset : ℕ} (h : RtpPacket.extensionAt buffer offset = some (start, x)) :
    start ≤ buffer.length ∧ ∀ y ∈ x, y.offset = offset + 4 ∧ y.offset + y.capacity = start := by
  rw [RtpPacket.extensionAt] at h
  dsimp only at h
  split at h
  · cases h
  · split at h
    · cases h
    · rename_i hle
      split at h
      · obtain ⟨rfl, rfl⟩ := Prod.mk.inj (Option.some.inj h)
        refine ⟨Nat.le_of_not_gt hle, ?_⟩
        rintro y ⟨⟩
      · obtain ⟨rfl, rfl⟩ := Prod.mk.inj (Option.some.inj h)
        refine ⟨Nat.le_of_not_gt hle, ?_⟩
        rintro y ⟨⟩
        exact ⟨rfl, rfl⟩

theorem extensionOf_le (hfits : HeaderFits buffer) (h : extensionOf buffer = some (start, x)) : start ≤ buffer.length := by
  rw [extensionOf] at h
  split at h
  · exact (extensionAt_place h).1
  · obtain ⟨rfl, -⟩ := Prod.mk.inj (Option.some.inj h)
    exact hfits.2.2

/-- The elements lie between the fixed header and the payload. -/
theorem elementsOf_between (h : extensionOf buffer = some (start, x)) :
    ∀ e ∈ elementsOf buffer, kFixedHeaderSize + 5 ≤ e.start ∧ e.start + e.length.toNat ≤ start := by
  intro e he
  rw [elementsOf, h] at he
  cases x with
  | none => cases he
  | some y =>
    have hplace : y.offset = csrcEnd buffer + 4 ∧ y.offset + y.capacity = start := by
      rw [extensionOf] at h
      split at h
      · exact (extensionAt_place h).2 y rfl
      · cases h
    have hbetween := y.elements_between y.capacity 0 e he
    rw [csrcEnd] at hplace
    omega

end Extensions

namespace RtpPacket

section ParseBuffer
variable {p : RtpPacket} {buffer : Bytes}

/-- The last byte of a padded packet is the number of bytes that end it. -/
def EndFits (p : RtpPacket) (buffer : Bytes) (hasPadding : Bool) : Prop :=
  hasPadding = true → p.payloadOffset < buffer.length →
    byteAt buffer (buffer.length - 1) ≠ 0 ∧ p.payloadOffset + (byteAt buffer (buffer.length - 1)).toNat ≤ buffer.length

theorem parsePadding_of_fits {hasPadding : Bool} (hle : p.payloadOffset ≤ buffer.length) (h : p.EndFits buffer hasPadding) :
    ∃ paddingSize < 256, p.payloadOffset + paddingSize ≤ buffer.length ∧ p.parsePadding buffer hasPadding =
      ({ p with paddingSize, payloadSize := buffer.length - p.payloadOffset - paddingSize }, true) := by
  by_cases hpadded : (hasPadding && decide (p.payloadOffset < buffer.length)) = true
  · have hboth := hpadded
    rw [Bool.and_eq_true, decide_eq_true_eq] at hboth
    obtain ⟨hne, hroom⟩ := h hboth.1 hboth.2
    refine ⟨_, UInt8.toNat_lt _, hroom, ?_⟩
    have hpositive : ¬ (byteAt buffer (buffer.length - 1)).toNat = 0 := fun hzero => hne (UInt8.toNat_inj.mp hzero)
    rw [parsePadding, hpadded]
    simp [hpositive, hroom]
  · rw [Bool.not_eq_true] at hpadded
    refine ⟨0, by decide, hle, ?_⟩
    rw [parsePadding, hpadded]
    simp [hle]

theorem parsePadding_of_not_fits {hasPadding : Bool} (h : ¬ p.EndFits buffer hasPadding) :
    (p.parsePadding buffer hasPadding).2 = false ∧ (p.parsePadding buffer hasPadding).1.extensionEntries = p.extensionEntries ∧
      (p.parsePadding buffer hasPadding).1.buffer = p.buffer := by
  rw [EndFits, Classical.not_imp, Classical.not_imp] at h
  obtain ⟨hpadding, hlt, hnot⟩ := h
  have hpadded : (hasPadding && decide (p.payloadOffset < buffer.length)) = true := by
    rw [hpadding, decide_eq_true hlt]
    rfl
  rw [parsePadding, hpadded]
  by_cases hzero : byteAt buffer (buffer.length - 1) = 0
  · simp [hzero]
  · have hpositive : ¬ (byteAt buffer (buffer.length - 1)).toNat = 0 := fun h => hzero (UInt8.toNat_inj.mp h)
    have hroom : buffer.length < p.payloadOffset + (byteAt buffer (buffer.length - 1)).toNat := by
      by_contra hle
      exact hnot ⟨hzero, Nat.le_of_not_lt hle⟩
    simp [hpositive, hroom]

/-- A buffer without a header that fits does not get to the entries. -/
theorem parseBuffer_of_not_fits (h : ¬ HeaderFits buffer) : (p.parseBuffer buffer).2 = false ∧
    (p.parseBuffer buffer).1.extensionEntries = p.extensionEntries ∧ (p.parseBuffer buffer).1.buffer = p.buffer := by
  rw [parseBuffer]
  dsimp only
  split
  · exact ⟨rfl, rfl, rfl⟩
  · split
    · exact ⟨rfl, rfl, rfl⟩
    · split
      · exact ⟨rfl, rfl, rfl⟩
      · rename_i hsize hversion hcsrc
        exact absurd ⟨Nat.le_of_not_gt hsize, Classical.not_not.mp hversion, Nat.le_of_not_gt hcsrc⟩ h

/-- The packet when its header is read. -/
def withHeader (p : RtpPacket) (buffer : Bytes) : RtpPacket :=
  { p with
    marker := byteAt buffer 1 &&& 0x80 ≠ 0
    payloadType := byteAt buffer 1 &&& 0x7f
    sequenceNumber := Rtcp.readUint16 buffer 2
    timestamp := Rtcp.readUint32 buffer 4
    ssrc := Rtcp.readUint32 buffer 8
    payloadOffset := csrcEnd buffer
    extensionsSize := 0
    extensionEntries := [] }

/-- With a header that fits, the extension comes next. -/
theorem parseBuffer_of_fits (h : HeaderFits buffer) : p.parseBuffer buffer =
    match if byteAt buffer 0 &&& 0x10 ≠ 0 then (p.withHeader buffer).parseExtension buffer else some (p.withHeader buffer) with
    | none => (p.withHeader buffer, false)
    | some p => p.parsePadding buffer (byteAt buffer 0 &&& 0x20 ≠ 0) := by
  obtain ⟨hsize, hversion, hcsrc⟩ := h
  rw [parseBuffer, if_neg (Nat.not_lt.mpr hsize), if_neg (fun hne => hne hversion)]
  dsimp only
  rw [csrcEnd] at hcsrc
  rw [if_neg (Nat.not_lt.mpr hcsrc)]
  rfl

/-- The extension is read into the entries and moves the payload. -/
theorem readExtension (p : RtpPacket) (buffer : Bytes) :
    (if byteAt buffer 0 &&& 0x10 ≠ 0 then (p.withHeader buffer).parseExtension buffer else some (p.withHeader buffer)) =
      (extensionOf buffer).map fun found =>
        let read := match found.2 with
          | none => (0, [])
          | some x => x.parse buffer x.capacity 0 []
        { p.withHeader buffer with payloadOffset := found.1, extensionsSize := read.1, extensionEntries := read.2 } := by
  rw [extensionOf]
  split
  · rw [parseExtension]
    have hoffset : (p.withHeader buffer).payloadOffset = csrcEnd buffer := rfl
    rw [hoffset]
    cases extensionAt buffer (csrcEnd buffer) with
    | none => rfl
    | some found =>
      obtain ⟨start, x⟩ := found
      cases x with
      | none => rfl
      | some x => rfl
  · rfl

/-- A buffer whose header fits is read into the packet: its entries are those of its elements, and
it is accepted if its padding fits. -/
theorem parseBuffer_of_header (h : HeaderFits buffer) :
    (PaddingFits buffer → ∃ p' start x, p.parseBuffer buffer = (p', true) ∧ extensionOf buffer = some (start, x) ∧
      p'.payloadOffset = start ∧ start + p'.payloadSize + p'.paddingSize = buffer.length ∧ p'.paddingSize < 256 ∧
        p'.extensionEntries = record [] (elementsOf buffer)) ∧
      (¬ PaddingFits buffer → (p.parseBuffer buffer).2 = false ∧
        (p.parseBuffer buffer).1.extensionEntries = record [] (elementsOf buffer) ∧ (p.parseBuffer buffer).1.buffer = p.buffer) := by
  rw [parseBuffer_of_fits h, readExtension]
  cases hx : extensionOf buffer with
  | none =>
    have hnone : elementsOf buffer = [] := by
      rw [elementsOf, hx]
    refine ⟨?_, fun _ => ⟨rfl, ?_, rfl⟩⟩
    · rintro ⟨start, x, hsome, -⟩
      rw [hx] at hsome
      cases hsome
    · rw [hnone]
      rfl
  | some found =>
    obtain ⟨start, x⟩ := found
    have hle := extensionOf_le h hx
    have hentries : (match x with
        | none => (0, [])
        | some x => x.parse buffer x.capacity 0 []).2 = record [] (elementsOf buffer) := by
      rw [elementsOf, hx]
      cases x with
      | none => rfl
      | some x => exact x.parse_snd x.capacity 0 []
    have hiff : PaddingFits buffer ↔ (byteAt buffer 0 &&& 0x20 ≠ 0 → start < buffer.length →
        byteAt buffer (buffer.length - 1) ≠ 0 ∧ start + (byteAt buffer (buffer.length - 1)).toNat ≤ buffer.length) := by
      constructor
      · rintro ⟨start', x', hsome, hfits⟩
        rw [hx] at hsome
        cases hsome
        exact hfits
      · exact fun hfits => ⟨start, x, hx, hfits⟩
    rw [hiff, Option.map_some]
    dsimp only
    generalize hread : (match x with
        | none => (0, [])
        | some x => x.parse buffer x.capacity 0 []) = read at hentries
    refine ⟨fun hfits => ?_, fun hnot => ?_⟩
    · have hend : EndFits { p.withHeader buffer with payloadOffset := start, extensionsSize := read.1, extensionEntries := read.2 } buffer
          (byteAt buffer 0 &&& 0x20 ≠ 0) := fun hbit => hfits (of_decide_eq_true hbit)
      obtain ⟨paddingSize, hlt, hroom, heq⟩ := parsePadding_of_fits hle hend
      rw [heq]
      refine ⟨_, start, x, rfl, rfl, rfl, ?_, hlt, hentries⟩
      dsimp only at hroom ⊢
      omega
    · have hend : ¬ EndFits { p.withHeader buffer with payloadOffset := start, extensionsSize := read.1, extensionEntries := read.2 } buffer
          (byteAt buffer 0 &&& 0x20 ≠ 0) := fun hend => hnot fun hbit => hend (decide_eq_true hbit)
      obtain ⟨hfalse, hentries', hbuffer⟩ := parsePadding_of_not_fits hend
      exact ⟨hfalse, hentries'.trans hentries, hbuffer⟩

end ParseBuffer

/-- The sizes add up to that of the buffer, and the entries lie between the fixed header and the
payload, with views inside the buffer. -/
structure Consistent (p : RtpPacket) : Prop where
  length : p.buffer.data.length = p.size
  entries : ∀ info ∈ p.extensionEntries, Between kFixedHeaderSize p.payloadOffset info
  views : ∀ info ∈ p.extensionEntries, info.offset.toNat + info.length.toNat ≤ p.buffer.data.length

/-- A packet that was cleared, without any extension. -/
structure Blank (p p' : RtpPacket) (fill : ℕ → UInt8) : Prop where
  cleared : p' = { p.clear fill with extensionsSize := p'.extensionsSize, extensionEntries := p'.extensionEntries }
  bare : ∀ key, p'.findExtensionInfo key = none

/-- After the call the packet is consistent, and blank if the call was a failed `Parse`. -/
structure Sane (p : RtpPacket) (e : Event) : Prop where
  consistent : (p.step e).Consistent
  blank : ∀ buffer capacity isSize, e.call = .parse buffer capacity isSize → (p.parse buffer capacity e.fill).2 = false →
    p.Blank (p.step e) e.fill

/-- `Clear` and a failed `Parse` find or leave no entries, an accepted packet has only elements that
can be addressed, and the size of the payload is set without padding and without cutting off
an extension. -/
def Keeps (p : RtpPacket) (e : Event) : Prop :=
  match e.call with
  | .clear => p.extensionEntries = []
  | .parse buffer _ _ =>
    (¬ HeaderFits buffer → p.extensionEntries = []) ∧ (HeaderFits buffer → ¬ PaddingFits buffer → elementsOf buffer = []) ∧
      (HeaderFits buffer → PaddingFits buffer → Addressable [] (elementsOf buffer))
  | .setPayloadSize bytesSize => p.payloadEnd bytesSize ≤ p.buffer.capacity → p.paddingSize = 0 ∧
      ∀ info ∈ p.extensionEntries, info.offset.toNat + info.length.toNat ≤ p.payloadEnd bytesSize
  | .allocatePayload payloadSize => p.paddingSize = 0 ∧ (p.payloadEnd payloadSize ≤ p.buffer.capacity →
      ∀ info ∈ p.extensionEntries, info.offset.toNat + info.length.toNat ≤ p.payloadEnd payloadSize)
  | _ => True

/-- `Consistent` with what holds of the sizes themselves. -/
structure Sound (p : RtpPacket) : Prop extends Consistent p where
  room : p.payloadOffset ≤ p.buffer.capacity
  isSize : p.payloadOffset < 2^64
  padding : p.paddingSize < 256
  elements : ∀ info ∈ p.extensionEntries, kFixedHeaderSize < info.offset.toNat

section Calls
variable {p : RtpPacket} {fill : ℕ → UInt8}

theorem length_clear (p : RtpPacket) (fill : ℕ → UInt8) : (p.clear fill).buffer.data.length = kFixedHeaderSize := by
  rw [clear, CopyOnWriteBuffer.length_writeAt, CopyOnWriteBuffer.length_setSize]

theorem not_mem_clear (h : p.extensionEntries = []) (info : ExtensionInfo) : info ∉ (p.clear fill).extensionEntries := by
  rw [show (p.clear fill).extensionEntries = [] from h]
  exact List.not_mem_nil

/-- A cleared packet is consistent if it has no entries. -/
theorem sound_clear (h : p.extensionEntries = []) : (p.clear fill).Sound where
  length := length_clear p fill
  entries := fun info hinfo => absurd hinfo (not_mem_clear h info)
  views := fun info hinfo => absurd hinfo (not_mem_clear h info)
  room := le_max_right _ _
  isSize := show kFixedHeaderSize < 2^64 by decide
  padding := show 0 < 256 by decide
  elements := fun info hinfo => absurd hinfo (not_mem_clear h info)

/-- No entry fits into a packet that has a fixed header only. -/
theorem entries_eq_nil (h : (p.clear fill).Consistent) (helements : ∀ info ∈ p.extensionEntries, kFixedHeaderSize < info.offset.toNat) :
    p.extensionEntries = [] := by
  refine List.eq_nil_iff_forall_not_mem.mpr fun info hinfo => ?_
  have hbetween := (h.entries info hinfo).2
  have hlt := helements info hinfo
  have hoffset : (p.clear fill).payloadOffset = kFixedHeaderSize := rfl
  rw [hoffset] at hbetween
  omega

/-- A packet with other bytes of the same number in its buffer, and other header fields. -/
theorem Sound.header (h : p.Sound) {p' : RtpPacket} (hlength : p'.buffer.data.length = p.buffer.data.length)
    (hcapacity : p'.buffer.capacity = p.buffer.capacity) (hoffset : p'.payloadOffset = p.payloadOffset)
    (hpayload : p'.payloadSize = p.payloadSize) (hpadding : p'.paddingSize = p.paddingSize)
    (hentries : p'.extensionEntries = p.extensionEntries) : p'.Sound where
  length := by
    rw [hlength, size, hoffset, hpayload, hpadding]
    exact h.length
  entries := by
    rw [hentries, hoffset]
    exact h.entries
  views := by
    rw [hentries, hlength]
    exact h.views
  room := by
    rw [hoffset, hcapacity]
    exact h.room
  isSize := by
    rw [hoffset]
    exact h.isSize
  padding := by
    rw [hpadding]
    exact h.padding
  elements := by
    rw [hentries]
    exact h.elements

theorem length_setPayloadSize {bytesSize : UInt64} (hle : p.payloadEnd bytesSize ≤ p.buffer.capacity) :
    (p.setPayloadSize bytesSize fill).buffer.data.length = p.payloadEnd bytesSize := by
  rw [setPayloadSize, if_neg (Nat.not_lt.mpr hle)]
  exact CopyOnWriteBuffer.length_setSize _ _ _

/-- The padding that is not in the buffer any more makes the sizes too large. -/
theorem padding_of_consistent (hpadding : p.paddingSize < 256) {bytesSize : UInt64} (hle : p.payloadEnd bytesSize ≤ p.buffer.capacity)
    (hc : (p.setPayloadSize bytesSize fill).Consistent) : p.paddingSize = 0 := by
  have hsizes := hc.length
  rw [length_setPayloadSize hle, size, setPayloadSize, if_neg (Nat.not_lt.mpr hle), payloadEnd] at hsizes
  dsimp only at hsizes
  omega

/-- Setting the size of the payload keeps the packet consistent exactly if there is no padding and
all entries end in the buffer. -/
theorem consistent_setPayloadSize_iff (h : p.Sound) (bytesSize : UInt64) :
    (p.setPayloadSize bytesSize fill).Consistent ↔ (p.payloadEnd bytesSize ≤ p.buffer.capacity → p.paddingSize = 0 ∧
      ∀ info ∈ p.extensionEntries, info.offset.toNat + info.length.toNat ≤ p.payloadEnd bytesSize) := by
  by_cases hle : p.payloadEnd bytesSize ≤ p.buffer.capacity
  · have heq : p.setPayloadSize bytesSize fill =
        { p with payloadSize := bytesSize.toNat, buffer := p.buffer.setSize (p.payloadEnd bytesSize) fill } :=
      if_neg (Nat.not_lt.mpr hle)
    have hlength : (p.setPayloadSize bytesSize fill).buffer.data.length = p.payloadEnd bytesSize := length_setPayloadSize hle
    rw [imp_iff_right hle]
    constructor
    · intro hc
      have hviews := hc.views
      rw [hlength, heq] at hviews
      exact ⟨padding_of_consistent h.padding hle hc, hviews⟩
    · rintro ⟨hzero, hviews⟩
      refine ⟨?_, ?_, ?_⟩
      · rw [hlength, heq, size, payloadEnd]
        dsimp only
        rw [hzero, Nat.add_zero]
      · rw [heq]
        exact h.entries
      · rw [hlength, heq]
        exact hviews
  · have heq : p.setPayloadSize bytesSize fill = p := if_pos (Nat.lt_of_not_le hle)
    rw [heq]
    exact iff_of_true h.toConsistent fun h => absurd h hle

theorem sound_setPayloadSize (h : p.Sound) {bytesSize : UInt64} (hc : (p.setPayloadSize bytesSize fill).Consistent) :
    (p.setPayloadSize bytesSize fill).Sound := by
  refine ⟨hc, ?_, ?_, ?_, ?_⟩
  all_goals rw [setPayloadSize]; split
  · exact h.room
  · exact h.room.trans (le_max_left _ _)
  · exact h.isSize
  · exact h.isSize
  · exact h.padding
  · exact h.padding
  · exact h.elements
  · exact h.elements

theorem payloadEnd_zero (h : p.Sound) : p.payloadEnd 0 = p.payloadOffset := by
  rw [payloadEnd, UInt64.toNat_zero, Nat.add_zero, Nat.mod_eq_of_lt h.isSize]

/-- The first of the two calls takes away the payload. -/
theorem setPayloadSize_zero (h : p.Sound) :
    p.setPayloadSize 0 fill = { p with payloadSize := 0, buffer := p.buffer.setSize p.payloadOffset fill } ∧
      (p.buffer.setSize p.payloadOffset fill).capacity = p.buffer.capacity := by
  have hroom := h.room
  rw [setPayloadSize, payloadEnd_zero h, if_neg (Nat.not_lt.mpr hroom)]
  exact ⟨rfl, Nat.max_eq_left hroom⟩

/-- Without padding it leaves the entries in the buffer. -/
theorem sound_setPayloadSize_zero (h : p.Sound) (hzero : p.paddingSize = 0) : (p.setPayloadSize 0 fill).Sound := by
  refine sound_setPayloadSize h ((consistent_setPayloadSize_iff h 0).mpr fun _ => ⟨hzero, fun info hinfo => ?_⟩)
  rw [payloadEnd_zero h]
  exact (h.entries info hinfo).2

theorem consistent_allocatePayload_iff (h : p.Sound) (payloadSize : UInt64) :
    (p.allocatePayload payloadSize fill).Consistent ↔ p.paddingSize = 0 ∧ (p.payloadEnd payloadSize ≤ p.buffer.capacity →
      ∀ info ∈ p.extensionEntries, info.offset.toNat + info.length.toNat ≤ p.payloadEnd payloadSize) := by
  obtain ⟨heq, hcapacity⟩ := @setPayloadSize_zero p fill h
  have hend : (p.setPayloadSize 0 fill).payloadEnd payloadSize = p.payloadEnd payloadSize := by
    rw [heq]
    rfl
  have hroom : (p.setPayloadSize 0 fill).buffer.capacity = p.buffer.capacity := by
    rw [heq]
    exact hcapacity
  have hpadding : (p.setPayloadSize 0 fill).paddingSize = p.paddingSize := by
    rw [heq]
  have hentries : (p.setPayloadSize 0 fill).extensionEntries = p.extensionEntries := by
    rw [heq]
  have hsecond : p.paddingSize = 0 → ((p.allocatePayload payloadSize fill).Consistent ↔
      (p.payloadEnd payloadSize ≤ p.buffer.capacity →
        ∀ info ∈ p.extensionEntries, info.offset.toNat + info.length.toNat ≤ p.payloadEnd payloadSize)) := by
    intro hzero
    rw [allocatePayload, consistent_setPayloadSize_iff (sound_setPayloadSize_zero h hzero), hend, hroom, hpadding, hentries]
    simp only [hzero, true_and]
  refine ⟨fun hc => ?_, fun ⟨hzero, hviews⟩ => (hsecond hzero).mpr hviews⟩
  have hzero : p.paddingSize = 0 := by
    by_cases hle : p.payloadEnd payloadSize ≤ p.buffer.capacity
    · rw [← hpadding]
      refine padding_of_consistent ?_ ?_ hc
      · rw [hpadding]
        exact h.padding
      · rw [hend, hroom]
        exact hle
    · have hsame : p.allocatePayload payloadSize fill = p.setPayloadSize 0 fill := by
        rw [allocatePayload, setPayloadSize, hend, hroom, if_pos (Nat.lt_of_not_le hle)]
      rw [hsame] at hc
      refine padding_of_consistent h.padding ?_ hc
      rw [payloadEnd_zero h]
      exact h.room
  exact ⟨hzero, (hsecond hzero).mp hc⟩

theorem sound_allocatePayload (h : p.Sound) {payloadSize : UInt64} (hc : (p.allocatePayload payloadSize fill).Consistent) :
    (p.allocatePayload payloadSize fill).Sound := by
  obtain ⟨hzero, -⟩ := (consistent_allocatePayload_iff h payloadSize).mp hc
  exact sound_setPayloadSize (sound_setPayloadSize_zero h hzero) hc

/-- `Clear` after a part of a packet was read. -/
theorem clear_eq {p' : RtpPacket} (hbuffer : p'.buffer = p.buffer) : p'.clear fill =
    { p.clear fill with extensionsSize := (p'.clear fill).extensionsSize, extensionEntries := (p'.clear fill).extensionEntries } := by
  rw [clear, clear, hbuffer]

end Calls

section Parse
variable {p : RtpPacket} {buffer : Bytes} {capacity : ℕ} {isSize : buffer.length < 2^64} {fill : ℕ → UInt8}

theorem entries_eq_nil_iff (p : RtpPacket) : (∀ key, p.findExtensionInfo key = none) ↔ p.extensionEntries = [] := by
  constructor
  · intro hnone
    refine List.eq_nil_iff_forall_not_mem.mpr fun info hinfo => ?_
    exact List.find?_eq_none.mp (hnone info.id) info hinfo (decide_eq_true rfl)
  · intro hnil key
    rw [findExtensionInfo, hnil, List.find?_nil]

theorem parse_of_failed (hfalse : (p.parseBuffer buffer).2 = false) :
    p.parse buffer capacity fill = ((p.parseBuffer buffer).1.clear fill, false) := by
  rw [parse]
  split
  · rename_i heq
    rw [heq] at hfalse
    cases hfalse
  · rename_i heq
    rw [heq]

/-- A failed `Parse` is right exactly if it leaves no entries. -/
theorem sane_of_failed (hfalse : (p.parseBuffer buffer).2 = false) (hbuffer : (p.parseBuffer buffer).1.buffer = p.buffer) :
    p.Sane ⟨.parse buffer capacity isSize, fill⟩ ↔ (p.parseBuffer buffer).1.extensionEntries = [] := by
  have hparse := @parse_of_failed p buffer capacity fill hfalse
  have hstep : p.step ⟨.parse buffer capacity isSize, fill⟩ = (p.parseBuffer buffer).1.clear fill := congrArg Prod.fst hparse
  constructor
  · intro hsane
    have hblank := hsane.blank buffer capacity isSize rfl (congrArg Prod.snd hparse)
    have hnil := (entries_eq_nil_iff _).mp hblank.bare
    rw [hstep] at hnil
    exact hnil
  · intro hnil
    refine ⟨?_, ?_⟩
    · rw [hstep]
      exact (sound_clear hnil).toConsistent
    · rintro buffer' capacity' isSize' - -
      rw [hstep]
      exact ⟨clear_eq hbuffer, (entries_eq_nil_iff _).mpr hnil⟩

/-- An accepted packet is consistent exactly if its elements can be addressed. -/
theorem sane_of_accepted (hheader : HeaderFits buffer) (hpadding : PaddingFits buffer) :
    (p.Sane ⟨.parse buffer capacity isSize, fill⟩ ↔ Addressable [] (elementsOf buffer)) ∧
      (Addressable [] (elementsOf buffer) → (p.step ⟨.parse buffer capacity isSize, fill⟩).Sound) := by
  obtain ⟨p', start, x, hparsed, hx, hoffset, hsizes, hlt, hentries⟩ := (parseBuffer_of_header hheader).1 hpadding
  have hparse : p.parse buffer capacity fill = ({ p' with buffer := ⟨buffer, max capacity buffer.length, le_max_right _ _⟩ }, true) := by
    rw [parse, hparsed]
  have hstep : p.step ⟨.parse buffer capacity isSize, fill⟩ = { p' with buffer := ⟨buffer, max capacity buffer.length, le_max_right _ _⟩ } :=
    congrArg Prod.fst hparse
  have hbetween {lo : ℕ} (hpos : 0 < lo) (hlo : lo ≤ kFixedHeaderSize + 5) :
      (∀ info ∈ p'.extensionEntries, Between lo start info) ↔ Addressable [] (elementsOf buffer) := by
    rw [hentries]
    refine record_between_iff hpos (fun e he => ?_) (fun info hinfo => by cases hinfo) fun j => ?_
    · have hplace := elementsOf_between hx e he
      exact ⟨hlo.trans hplace.1, hplace.2⟩
    · simp
  have hsound (haddressable : Addressable [] (elementsOf buffer)) : (p.step ⟨.parse buffer capacity isSize, fill⟩).Sound := by
    have hall := (hbetween (by decide : 0 < kFixedHeaderSize + 5) le_rfl).mpr haddressable
    have hwhole : (start + p'.payloadSize + p'.paddingSize) % 2^64 = buffer.length := by
      rw [hsizes, Nat.mod_eq_of_lt isSize]
    rw [hstep]
    refine ⟨⟨?_, ?_, ?_⟩, ?_, ?_, hlt, ?_⟩
    · rw [size]
      dsimp only
      rw [hoffset, hwhole]
    · intro info hinfo
      have hinfo := hall info hinfo
      dsimp only
      rw [hoffset]
      exact ⟨(Nat.le_add_right _ _).trans hinfo.1, hinfo.2⟩
    · intro info hinfo
      have hinfo := (hall info hinfo).2
      dsimp only
      omega
    · dsimp only
      omega
    · dsimp only
      omega
    · intro info hinfo
      have hinfo := (hall info hinfo).1
      omega
  refine ⟨⟨fun hsane => ?_, fun haddressable => ⟨(hsound haddressable).toConsistent, ?_⟩⟩, hsound⟩
  · have hall := hsane.consistent.entries
    rw [hstep] at hall
    dsimp only at hall
    rw [hoffset] at hall
    exact (hbetween (by decide) (by decide)).mp hall
  · rintro buffer' capacity' isSize' heq hfalse
    obtain ⟨rfl, rfl⟩ := Call.parse.inj heq
    rw [hparse] at hfalse
    cases hfalse

theorem sound_of_failed (hfalse : (p.parseBuffer buffer).2 = false) (hnil : (p.parseBuffer buffer).1.extensionEntries = []) :
    (p.step ⟨.parse buffer capacity isSize, fill⟩).Sound := by
  have hstep : p.step ⟨.parse buffer capacity isSize, fill⟩ = (p.parseBuffer buffer).1.clear fill :=
    congrArg Prod.fst (parse_of_failed hfalse)
  rw [hstep]
  exact sound_clear hnil

theorem sane_parse_iff : p.Sane ⟨.parse buffer capacity isSize, fill⟩ ↔ p.Keeps ⟨.parse buffer capacity isSize, fill⟩ := by
  by_cases hheader : HeaderFits buffer
  · by_cases hpadding : PaddingFits buffer
    · rw [(sane_of_accepted hheader hpadding).1]
      exact ⟨fun h => ⟨fun hnot => absurd hheader hnot, fun _ hnot => absurd hpadding hnot, fun _ _ => h⟩, fun h => h.2.2 hheader hpadding⟩
    · obtain ⟨hfalse, hentries, hbuffer⟩ := (parseBuffer_of_header hheader).2 hpadding
      rw [sane_of_failed hfalse hbuffer, hentries, record_eq_nil_iff]
      exact ⟨fun h => ⟨fun hnot => absurd hheader hnot, fun _ _ => h, fun _ hfits => absurd hfits hpadding⟩, fun h => h.2.1 hheader hpadding⟩
  · obtain ⟨hfalse, hentries, hbuffer⟩ := parseBuffer_of_not_fits hheader
    rw [sane_of_failed hfalse hbuffer, hentries]
    exact ⟨fun h => ⟨fun _ => h, fun hfits => absurd hfits hheader, fun hfits => absurd hfits hheader⟩, fun h => h.1 hheader⟩

end Parse

section Steps
variable {p : RtpPacket} {e : Event}

theorem sound_make (capacity : ℕ) (fill : ℕ → UInt8) : (make capacity fill).Sound := sound_clear rfl

/-- The calls that set one field of the header. -/
theorem Sound.setHeader (h : p.Sound) : (∀ markerBit, (p.setMarker markerBit).Sound) ∧ (∀ payloadType, (p.setPayloadType payloadType).Sound) ∧
    (∀ seqNo, (p.setSequenceNumber seqNo).Sound) ∧ (∀ ts, (p.setTimestamp ts).Sound) ∧ ∀ ssrc, (p.setSsrc ssrc).Sound := by
  have hbytes (offset : ℕ) (bytes : Bytes) := p.buffer.writeBytes_sizes offset bytes
  refine ⟨fun markerBit => ?_, fun payloadType => ?_, fun seqNo => ?_, fun ts => ?_, fun ssrc => ?_⟩
  · exact h.header (CopyOnWriteBuffer.length_writeAt _ _ _) rfl rfl rfl rfl rfl
  · exact h.header (CopyOnWriteBuffer.length_writeAt _ _ _) rfl rfl rfl rfl rfl
  · exact h.header (hbytes 2 _).1 (hbytes 2 _).2 rfl rfl rfl rfl
  · exact h.header (hbytes 4 _).1 (hbytes 4 _).2 rfl rfl rfl rfl
  · exact h.header (hbytes 8 _).1 (hbytes 8 _).2 rfl rfl rfl rfl

/-- A call that is no `Parse` is right exactly if the packet is consistent after it. -/
theorem sane_iff_consistent (hcall : ∀ buffer capacity isSize, e.call ≠ .parse buffer capacity isSize) :
    p.Sane e ↔ (p.step e).Consistent :=
  ⟨Sane.consistent, fun hc => ⟨hc, fun buffer capacity isSize heq => absurd heq (hcall buffer capacity isSize)⟩⟩

theorem Sound.sane_iff_keeps (h : p.Sound) (e : Event) : p.Sane e ↔ p.Keeps e := by
  obtain ⟨hmarker, htype, hseq, hts, hssrc⟩ := h.setHeader
  obtain ⟨call, fill⟩ := e
  cases call with
  | parse buffer capacity isSize => exact sane_parse_iff
  | construct capacity =>
    rw [sane_iff_consistent (by rintro buffer capacity isSize ⟨⟩)]
    exact iff_of_true (sound_make capacity fill).toConsistent trivial
  | clear =>
    rw [sane_iff_consistent (by rintro buffer capacity isSize ⟨⟩)]
    exact ⟨fun hc => entries_eq_nil hc h.elements, fun hnil => (sound_clear hnil).toConsistent⟩
  | setMarker markerBit =>
    rw [sane_iff_consistent (by rintro buffer capacity isSize ⟨⟩)]
    exact iff_of_true (hmarker markerBit).toConsistent trivial
  | setPayloadType payloadType =>
    rw [sane_iff_consistent (by rintro buffer capacity isSize ⟨⟩)]
    exact iff_of_true (htype payloadType).toConsistent trivial
  | setSequenceNumber seqNo =>
    rw [sane_iff_consistent (by rintro buffer capacity isSize ⟨⟩)]
    exact iff_of_true (hseq seqNo).toConsistent trivial
  | setTimestamp ts =>
    rw [sane_iff_consistent (by rintro buffer capacity isSize ⟨⟩)]
    exact iff_of_true (hts ts).toConsistent trivial
  | setSsrc ssrc =>
    rw [sane_iff_consistent (by rintro buffer capacity isSize ⟨⟩)]
    exact iff_of_true (hssrc ssrc).toConsistent trivial
  | setPayloadSize bytesSize =>
    rw [sane_iff_consistent (by rintro buffer capacity isSize ⟨⟩)]
    exact consistent_setPayloadSize_iff h bytesSize
  | allocatePayload payloadSize =>
    rw [sane_iff_consistent (by rintro buffer capacity isSize ⟨⟩)]
    exact consistent_allocatePayload_iff h payloadSize

theorem Sound.step (h : p.Sound) (hkeeps : p.Keeps e) : (p.step e).Sound := by
  obtain ⟨hmarker, htype, hseq, hts, hssrc⟩ := h.setHeader
  have hsane := (h.sane_iff_keeps e).mpr hkeeps
  obtain ⟨call, fill⟩ := e
  cases call with
  | parse buffer capacity isSize =>
    obtain ⟨hbare, hnone, haddressable⟩ := hkeeps
    by_cases hheader : HeaderFits buffer
    · by_cases hpadding : PaddingFits buffer
      · exact (sane_of_accepted hheader hpadding).2 (haddressable hheader hpadding)
      · obtain ⟨hfalse, hentries, -⟩ := (parseBuffer_of_header hheader).2 hpadding
        exact sound_of_failed hfalse (hentries.trans (record_eq_nil_iff.mpr (hnone hheader hpadding)))
    · obtain ⟨hfalse, hentries, -⟩ := parseBuffer_of_not_fits hheader
      exact sound_of_failed hfalse (hentries.trans (hbare hheader))
  | construct capacity => exact sound_make capacity fill
  | clear => exact sound_clear hkeeps
  | setMarker markerBit => exact hmarker markerBit
  | setPayloadType payloadType => exact htype payloadType
  | setSequenceNumber seqNo => exact hseq seqNo
  | setTimestamp ts => exact hts ts
  | setSsrc ssrc => exact hssrc ssrc
  | setPayloadSize bytesSize => exact sound_setPayloadSize h hsane.consistent
  | allocatePayload payloadSize => exact sound_allocatePayload h hsane.consistent

end Steps

/-- Exactly the runs in which all calls meet the condition have a consistent packet after every
call, and a blank one after every failed `Parse`. -/
theorem along_sane_iff (capacity : ℕ) (fill : ℕ → UInt8) (es : List Event) :
    Runs.Along step Sane (make capacity fill) es ↔ Runs.Along step Keeps (make capacity fill) es := by
  have hstep : ∀ p e, Sound p → Keeps p e → Sound (step p e) := fun _ _ h hkeeps => h.step hkeeps
  have hiff : ∀ p e, Sound p → (Sane p e ↔ Keeps p e) := fun _ e h => h.sane_iff_keeps e
  exact Runs.along_iff hstep hiff (sound_make capacity fill) es

/-- A padded packet whose last byte is zero, with an element of id 1. -/
def zeroPadding : Bytes := [0xb0, 96, 0, 1, 0, 0, 0, 2, 0, 0, 0, 3, 0xbe, 0xde, 0, 1, 0x10, 7, 0, 0, 0]

theorem zeroPadding_not_sane : ¬ Runs.Along step Sane (make kDefaultRtpCapacity fun _ => 0) [⟨.parse zeroPadding 1500 (by decide), fun _ => 0⟩] := by
  rintro ⟨hsane, -⟩
  have hfalse : ((make kDefaultRtpCapacity fun _ => 0).parse zeroPadding 1500 fun _ => 0).2 = false := by decide +kernel
  have hnone := (hsane.blank zeroPadding 1500 _ rfl hfalse).bare 1
  have hfound : (((make kDefaultRtpCapacity fun _ => 0).parse zeroPadding 1500 fun _ => 0).1.findExtensionInfo 1).isSome = true := by
    decide +kernel
  rw [Option.isSome_iff_ne_none] at hfound
  exact hfound hnone

end RtpPacket

end Rtp
end XrtcServer
