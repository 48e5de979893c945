import XrtcServer.RtpPacketReuse
import XrtcServer.RtpHeaderExtensionMap
import Mathlib.Data.List.Forall2

/-! Elements of header extensions as they are sent, and what a packet with them finds for the types of a
session. -/
namespace XrtcServer
namespace Rtp
open ByteFormat StructLayout
open XrtcServer.Rtcp (byteAt readUint16 writeUint16 readUint16_skip readUint16_append writeUint16_length)

/-- An element with its id and its data. -/
structure SentElement where
  id : UInt8
  data : Bytes

namespace SentElement

/-- In the one-byte form the length is sent less one, beside an id of four bits. -/
def bytes (oneByte : Bool) (e : SentElement) : Bytes :=
  if oneByte then (e.id <<< 4 ||| UInt8.ofNat (e.data.length - 1)) :: e.data
  else e.id :: UInt8.ofNat e.data.length :: e.data

/-- The ids and lengths of the form. -/
def Valid (oneByte : Bool) (e : SentElement) : Prop :=
  if oneByte then 1 ≤ e.id.toNat ∧ e.id.toNat ≤ 14 ∧ 1 ≤ e.data.length ∧ e.data.length ≤ 16
  else e.id ≠ 0 ∧ e.data.length ≤ 255

instance (oneByte : Bool) (e : SentElement) : Decidable (e.Valid oneByte) := by
  unfold Valid
  infer_instance

end SentElement

/-- Bytes of zero may stand between the elements. -/
inductive Item
  | padding
  | element (e : SentElement)

def Item.bytes (oneByte : Bool) : Item → Bytes
  | padding => [0]
  | element e => e.bytes oneByte

def block (oneByte : Bool) (items : List Item) : Bytes := items.flatMap (Item.bytes oneByte)

/-- The elements that a reader comes to: not one without data that ends the extension. -/
def kept : List Item → List SentElement
  | [] => []
  | .padding :: items => kept items
  | .element e :: items => if items = [] ∧ e.data = [] then [] else e :: kept items

/-- An element that was read has the id and the data of one that was sent. -/
structure Shows (buffer : Bytes) (read : Element) (sent : SentElement) : Prop where
  id : read.id = sent.id
  data : load buffer read.start read.length.toNat = sent.data

section Reading
variable {oneByte : Bool} {e : SentElement} {items : List Item} {x : Extension} {buffer : Bytes}

theorem byteAt_eq_head (buffer : Bytes) (pos : ℕ) : byteAt buffer pos = (buffer.drop pos).headD 0 := by
  simp [byteAt, List.getD_eq_getElem?_getD, List.head?_drop, List.headD_eq_head?_getD]

/-- The first byte of the one-byte form taken apart. -/
theorem oneByte_header (h : e.Valid true) :
    let byte := e.id <<< 4 ||| UInt8.ofNat (e.data.length - 1)
    byte ≠ 0 ∧ byte >>> 4 = e.id ∧ ((1 : UInt8) + (byte &&& 0xf)).toNat = e.data.length := by
  obtain ⟨hmin, hmax, hpos, hle⟩ := h
  have hall : ∀ id < 15, ∀ n < 16, 1 ≤ id → UInt8.ofNat id <<< 4 ||| UInt8.ofNat n ≠ 0 ∧
      (UInt8.ofNat id <<< 4 ||| UInt8.ofNat n) >>> 4 = UInt8.ofNat id ∧
      ((1 : UInt8) + ((UInt8.ofNat id <<< 4 ||| UInt8.ofNat n) &&& 0xf)).toNat = n + 1 := by decide
  have hbyte := hall e.id.toNat (by omega) (e.data.length - 1) (by omega) hmin
  rw [UInt8.ofNat_toNat] at hbyte
  exact ⟨hbyte.1, hbyte.2.1, by rw [hbyte.2.2]; omega⟩

theorem bytes_length (oneByte : Bool) (e : SentElement) :
    (e.bytes oneByte).length = (if oneByte then 1 else 2) + e.data.length := by
  cases oneByte <;> simp [SentElement.bytes] <;> omega

/-- An element at a position is read with its id and its data. -/
theorem elementAt_sent {pos : ℕ} {rest : Bytes} (h : e.Valid x.oneByte)
    (hbuffer : buffer.drop (x.offset + pos) = e.bytes x.oneByte ++ rest) :
    byteAt buffer (x.offset + pos) ≠ 0 ∧ Shows buffer (x.elementAt buffer pos) e ∧
      (x.elementAt buffer pos).length.toNat = e.data.length ∧
      (x.oneByte = true → (x.elementAt buffer pos).id ≠ kOneByteHeaderExtensionReservedId ∧
        (x.elementAt buffer pos).id ≠ 0) := by
  obtain ⟨oneByte, offset, capacity⟩ := x
  dsimp only at h hbuffer ⊢
  have hfirst := byteAt_eq_head buffer (offset + pos)
  cases oneByte with
  | true =>
    obtain ⟨hne, hid, hlength⟩ := oneByte_header h
    rw [SentElement.bytes, if_pos rfl] at hbuffer
    generalize e.id <<< 4 ||| UInt8.ofNat (e.data.length - 1) = byte at hne hid hlength hbuffer
    rw [hbuffer] at hfirst
    have hbyte : byteAt buffer (offset + pos) = byte := hfirst
    have hdata : load buffer (offset + pos + 1) e.data.length = e.data := by
      rw [load, ← List.drop_drop, hbuffer]
      simp
    have helement : Extension.elementAt ⟨true, offset, capacity⟩ buffer pos =
        ⟨byte >>> 4, offset + pos + 1, 1 + (byte &&& 0xf)⟩ := by
      rw [Extension.elementAt, hbyte]
      rfl
    rw [hbyte, helement]
    refine ⟨hne, ⟨hid, ?_⟩, hlength, fun _ => ?_⟩
    · rw [hlength, hdata]
    · obtain ⟨hmin, hmax, -⟩ := h
      have hreserved : e.id ≠ kOneByteHeaderExtensionReservedId := by
        rintro heq
        rw [heq] at hmax
        exact absurd hmax (by decide)
      have hzero : e.id ≠ 0 := by
        rintro heq
        rw [heq] at hmin
        exact absurd hmin (by decide)
      rw [hid]
      exact ⟨hreserved, hzero⟩
  | false =>
    obtain ⟨hid, hle⟩ := h
    rw [SentElement.bytes, if_neg (by decide)] at hbuffer
    rw [hbuffer] at hfirst
    have hbyte : byteAt buffer (offset + pos) = e.id := hfirst
    have hsecond : byteAt buffer (offset + pos + 1) = UInt8.ofNat e.data.length := by
      rw [byteAt_eq_head, ← List.drop_drop, hbuffer]
      rfl
    have hlength : (UInt8.ofNat e.data.length).toNat = e.data.length := by
      rw [UInt8.toNat_ofNat', Nat.mod_eq_of_lt (by omega)]
    have hdata : load buffer (offset + pos + 2) e.data.length = e.data := by
      rw [load, ← List.drop_drop, hbuffer]
      simp
    have helement : Extension.elementAt ⟨false, offset, capacity⟩ buffer pos =
        ⟨e.id, offset + pos + 2, UInt8.ofNat e.data.length⟩ := by
      rw [Extension.elementAt, hbyte, hsecond]
      rfl
    rw [hbyte, helement]
    exact ⟨hid, ⟨rfl, by rw [hlength, hdata]⟩, hlength, fun hform => absurd hform (by decide)⟩

/-- Every item takes room, and an element with its data more than a padding byte. -/
theorem block_eq_nil (h : block oneByte items = []) : items = [] := by
  cases items with
  | nil => rfl
  | cons item items =>
    have hnil : item.bytes oneByte = [] := (List.append_eq_nil_iff.mp h).1
    cases item with
    | padding => cases hnil
    | element e => cases oneByte <;> cases hnil

/-- In a single byte there is no element. -/
theorem kept_of_short (hvalid : ∀ e, .element e ∈ items → e.Valid oneByte) (h : (block oneByte items).length ≤ 1) :
    kept items = [] := by
  induction items with
  | nil => rfl
  | cons item items ih =>
    rw [block, List.flatMap_cons, List.length_append] at h
    cases item with
    | padding =>
      exact ih (fun e he => hvalid e (List.mem_cons_of_mem _ he)) (by rw [block]; omega)
    | element e =>
      have hlength := bytes_length oneByte e
      have hfirst := hvalid e List.mem_cons_self
      rw [Item.bytes, hlength] at h
      cases oneByte with
      | true =>
        obtain ⟨-, -, hpos, -⟩ := hfirst
        simp only [if_true] at h
        omega
      | false =>
        simp only [Bool.false_eq_true, if_false] at h
        omega

/-- The elements that are read of a block are those that were sent, each with its data. -/
theorem elements_block {pos rounds : ℕ} {rest : Bytes} (hvalid : ∀ e, .element e ∈ items → e.Valid x.oneByte)
    (hbuffer : buffer.drop (x.offset + pos) = block x.oneByte items ++ rest)
    (hcapacity : x.capacity = pos + (block x.oneByte items).length) (hrounds : (block x.oneByte items).length ≤ rounds) :
    List.Forall₂ (Shows buffer) (x.elements buffer rounds pos) (kept items) := by
  induction items generalizing pos rounds with
  | nil =>
    have hnone : x.elements buffer rounds pos = [] := by
      cases rounds with
      | zero => rfl
      | succ rounds => exact if_pos (by rw [hcapacity, block]; simp)
    rw [hnone]
    exact .nil
  | cons item items ih =>
    have hitems : ∀ e, .element e ∈ items → e.Valid x.oneByte := fun e he => hvalid e (List.mem_cons_of_mem _ he)
    have hheader : x.headerLength = if x.oneByte then 1 else 2 := rfl
    rw [block, List.flatMap_cons, List.append_assoc] at hbuffer
    rw [block, List.flatMap_cons, List.length_append] at hcapacity hrounds
    have hnext := congrArg (List.drop (item.bytes x.oneByte).length) hbuffer
    rw [List.drop_drop, List.drop_left, Nat.add_assoc] at hnext
    cases rounds with
    | zero =>
      have hnil : block x.oneByte (item :: items) = [] := List.length_eq_zero_iff.mp (by
        rw [block, List.flatMap_cons, List.length_append]
        omega)
      cases block_eq_nil hnil
    | succ rounds =>
      rw [Extension.elements]
      cases item with
      | padding =>
        rw [show (Item.padding.bytes x.oneByte).length = 1 from rfl] at hcapacity hrounds hnext
        have hzero : byteAt buffer (x.offset + pos) = 0 := by
          rw [byteAt_eq_head, hbuffer]
          rfl
        rw [if_pos hzero]
        split
        · next hroom =>
          rw [kept, kept_of_short hitems (by rw [block]; split at hheader <;> omega)]
          exact .nil
        · exact ih hitems hnext (by rw [hcapacity, block]; omega) (by rw [block]; omega)
      | element e =>
        obtain ⟨hne, hshows, hlength, hid⟩ := elementAt_sent (hvalid e List.mem_cons_self) hbuffer
        have hbytes : ((Item.element e).bytes x.oneByte).length = x.headerLength + e.data.length := by
          rw [Item.bytes, bytes_length, hheader]
        rw [hbytes] at hcapacity hrounds hnext
        rw [if_neg hne]
        split
        · next hroom =>
          have hdata : e.data = [] := List.length_eq_zero_iff.mp (by omega)
          have hlast : items = [] :=
            @block_eq_nil x.oneByte items (List.length_eq_zero_iff.mp (by rw [block]; omega))
          rw [kept, if_pos ⟨hlast, hdata⟩]
          exact .nil
        · next hroom =>
          have hkept : kept (.element e :: items) = e :: kept items := by
            rw [kept, if_neg]
            rintro ⟨rfl, hdata⟩
            rw [hdata] at hcapacity
            simp at hcapacity
            omega
          have hends : x.ends pos (x.elementAt buffer pos) = false := by
            have hfits : ¬pos + x.headerLength + e.data.length > x.capacity := by omega
            rw [Extension.ends, hlength, decide_eq_false hfits, Bool.or_false]
            cases hform : x.oneByte with
            | true => simp [hid hform]
            | false => rfl
          dsimp only
          rw [hkept, hends, if_neg (by decide), hlength]
          rw [← Nat.add_assoc pos] at hnext
          have hpos := x.headerLength_pos
          exact .cons hshows (ih hitems hnext (by rw [hcapacity, block]; omega) (by rw [block]; omega))

end Reading

section Entries
variable {k : UInt8}

/-- The entry that an element leaves. -/
def entryOf (e : Element) : ExtensionInfo := ⟨e.id, e.length, UInt16.ofNat e.start⟩

theorem find_update (e : Element) (infos : List ExtensionInfo) :
    (updateExtensionInfo e.id (place e) infos).find? (fun info => info.id = k) =
      if e.id = k then some (entryOf e) else infos.find? fun info => info.id = k := by
  induction infos with
  | nil =>
    rw [updateExtensionInfo, List.find?_singleton]
    by_cases hk : e.id = k <;> simp [place, entryOf, hk]
  | cons info infos ih =>
    rw [updateExtensionInfo]
    by_cases hid : info.id = e.id
    · rw [if_pos hid]
      by_cases hk : e.id = k
      · simp [place, entryOf, hid, hk]
      · simp [place, hid, hk]
    · rw [if_neg hid]
      by_cases hk : info.id = k
      · have hne : e.id ≠ k := fun heq => hid (hk.trans heq.symm)
        simp [hk, hne]
      · simp [hk, ih]

/-- An id is looked up: its last element has the entry. -/
theorem find_record {es : List Element} (h : ∀ e ∈ es, e.start < 65536) (infos : List ExtensionInfo) :
    (record infos es).find? (fun info => info.id = k) =
      ((es.reverse.find? fun e => e.id = k).map entryOf).or (infos.find? fun info => info.id = k) := by
  induction es generalizing infos with
  | nil => rfl
  | cons e es ih =>
    have hstart : ¬65536 ≤ e.start := by
      have := h e List.mem_cons_self
      omega
    rw [record, if_neg hstart, ih (fun e' he' => h e' (List.mem_cons_of_mem e he')), find_update, List.reverse_cons,
      List.find?_append, List.find?_singleton]
    cases hfound : es.reverse.find? (fun e => e.id = k) with
    | some last => rfl
    | none => by_cases hk : e.id = k <;> simp [hk]

/-- Lists that are related item by item find related items. -/
theorem find_rel {buffer : Bytes} {es : List Element} {sents : List SentElement}
    (h : List.Forall₂ (Shows buffer) es sents) :
    Option.Rel (Shows buffer) (es.find? fun e => e.id = k) (sents.find? fun sent => sent.id = k) := by
  induction h with
  | nil => exact .none
  | @cons e sent es sents hshows _ ih =>
    rw [List.find?_cons, List.find?_cons, hshows.id]
    by_cases hk : sent.id = k
    · simpa [hk] using Option.Rel.some hshows
    · simpa [hk] using ih

end Entries

/-- A header that says that an extension follows and no padding. -/
structure Extends (header : Bytes) : Prop where
  version : byteAt header 0 >>> 6 = kRtpVersion
  padding : byteAt header 0 &&& 0x20 = 0
  extension : byteAt header 0 &&& 0x10 ≠ 0
  length : header.length = csrcEnd header

/-- A packet with a header extension. -/
structure Extended where
  header : Bytes
  profile : UInt16
  items : List Item
  payload : Bytes

namespace Extended

def oneByte (s : Extended) : Bool := s.profile = kOneByteExtensionProfileId

def block (s : Extended) : Bytes := Rtp.block s.oneByte s.items

def bytes (s : Extended) : Bytes :=
  s.header ++ (writeUint16 s.profile ++ (writeUint16 (UInt16.ofNat (s.block.length / 4)) ++ (s.block ++ s.payload)))

/-- The extension is of one of the two forms, and the packet one that a datagram holds. -/
structure Valid (s : Extended) : Prop where
  header : Extends s.header
  profile : s.profile = kOneByteExtensionProfileId ∨
    s.profile &&& kTwobyteExtensionProfileIdAppBitsFilter = kTwoByteExtensionProfileId
  elements : ∀ e, .element e ∈ s.items → e.Valid s.oneByte
  words : s.block.length % 4 = 0
  length : s.bytes.length < 65536

variable {s : Extended}

/-- Where the reader finds the extension. -/
def extension (s : Extended) : Extension := ⟨s.oneByte, s.header.length + 4, s.block.length⟩

theorem bytes_length : s.bytes.length = s.header.length + 4 + s.block.length + s.payload.length := by
  simp [bytes]
  omega

theorem drop_extension : s.bytes.drop (s.header.length + 4) = s.block ++ s.payload := by
  rw [bytes, ← List.drop_drop, List.drop_left, ← List.append_assoc]
  exact List.drop_left' (by simp)

theorem Valid.header_length (h : s.Valid) : kFixedHeaderSize ≤ s.header.length := by
  rw [h.header.length, csrcEnd]
  omega

theorem Valid.first (h : s.Valid) : byteAt s.bytes 0 = byteAt s.header 0 := by
  have hlength := h.header_length
  have hfixed : kFixedHeaderSize = 12 := rfl
  rw [byteAt, byteAt, List.getD_eq_getElem?_getD, List.getD_eq_getElem?_getD, bytes,
    List.getElem?_append_left (by omega)]

theorem Valid.csrcEnd_eq (h : s.Valid) : csrcEnd s.bytes = s.header.length := by
  rw [csrcEnd, h.first, ← csrcEnd, ← h.header.length]

theorem Valid.extensionOf (h : s.Valid) :
    extensionOf s.bytes = some (s.header.length + 4 + s.block.length, some s.extension) := by
  have hlength := @bytes_length s
  have hbound := h.length
  have hwords := h.words
  have hprofile : readUint16 s.bytes s.header.length = s.profile := by
    rw [bytes, readUint16_skip le_rfl, Nat.sub_self, readUint16_append]
  have hcapacity : (readUint16 s.bytes (s.header.length + 2)).toNat * 4 = s.block.length := by
    rw [bytes, readUint16_skip (Nat.le_add_right _ _), Nat.add_sub_cancel_left,
      readUint16_skip (by rw [writeUint16_length]), writeUint16_length, Nat.sub_self, readUint16_append,
      UInt16.toNat_ofNat', Nat.mod_eq_of_lt (by omega)]
    omega
  have hknown : ¬(s.profile ≠ kOneByteExtensionProfileId ∧
      s.profile &&& kTwobyteExtensionProfileIdAppBitsFilter ≠ kTwoByteExtensionProfileId) :=
    fun hneither => h.profile.elim hneither.1 hneither.2
  rw [Rtp.extensionOf, h.first, if_pos h.header.extension, h.csrcEnd_eq, RtpPacket.extensionAt]
  dsimp only
  rw [hprofile, hcapacity, if_neg (by omega), if_neg (by omega), if_neg hknown]
  rfl

/-- The elements that are read are those that were sent. -/
theorem Valid.elementsOf (h : s.Valid) : List.Forall₂ (Shows s.bytes) (elementsOf s.bytes) (kept s.items) := by
  rw [Rtp.elementsOf, h.extensionOf]
  exact elements_block h.elements drop_extension (Nat.zero_add _).symm le_rfl

theorem Valid.starts (h : s.Valid) : ∀ e ∈ Rtp.elementsOf s.bytes, e.start < 65536 := by
  intro e he
  have hlength := @bytes_length s
  have hbound := h.length
  rw [Rtp.elementsOf, h.extensionOf] at he
  have hbetween := (Extension.elements_between _ _ e he).2
  change e.start + e.length.toNat ≤ s.header.length + 4 + s.block.length at hbetween
  omega

/-- The packet is accepted, with the entries of its elements and its payload. -/
theorem Valid.parse (h : s.Valid) (reader : RtpPacket) (capacity : ℕ) (fill : ℕ → UInt8) :
    ∃ q, reader.parse s.bytes capacity fill = (q, true) ∧ q.buffer.data = s.bytes ∧
      q.extensionEntries = record [] (Rtp.elementsOf s.bytes) ∧
      load q.buffer.data q.payloadOffset q.payloadSize = s.payload := by
  have hlength := @bytes_length s
  have hheader := h.header_length
  have hfits : HeaderFits s.bytes := ⟨by omega, by rw [h.first]; exact h.header.version, by rw [h.csrcEnd_eq]; omega⟩
  have hpadding : decide (byteAt s.bytes 0 &&& 0x20 ≠ 0) = false := by
    rw [h.first, h.header.padding]
    rfl
  have hentries := @Extension.parse_snd s.extension s.bytes s.extension.capacity 0 []
  rw [RtpPacket.parse, RtpPacket.parseBuffer_of_fits hfits, RtpPacket.readExtension, h.extensionOf, hpadding]
  dsimp only [Option.map_some]
  generalize s.extension.parse s.bytes s.extension.capacity 0 [] = read at hentries
  rw [RtpPacket.parsePadding]
  simp only [Bool.false_and, Bool.false_eq_true, if_false, Nat.add_zero, Nat.sub_zero]
  rw [if_neg (by omega)]
  refine ⟨_, rfl, rfl, ?_, ?_⟩
  · rw [Rtp.elementsOf, h.extensionOf]
    exact hentries
  · have hdrop : s.bytes.drop (s.header.length + 4 + s.block.length) = s.payload := by
      rw [← List.drop_drop, drop_extension, List.drop_left]
    dsimp only
    rw [load, hdrop, List.take_of_length_le (by omega)]

/-- What a type finds whose id is known: the data of the last element with it. -/
def found (s : Extended) (id : UInt8) : Option Bytes :=
  if id = 0 then none else ((kept s.items).reverse.find? fun e => e.id = id).map SentElement.data

theorem Valid.find (h : s.Valid) {q : RtpPacket} (hdata : q.buffer.data = s.bytes)
    (hentries : q.extensionEntries = record [] (Rtp.elementsOf s.bytes)) {τ : Type} (getId : τ → UInt8) (type : τ) :
    q.findExtension getId type = (s.found (getId type)).getD [] ∧
      q.hasExtension getId type = (s.found (getId type)).isSome := by
  rw [RtpPacket.findExtension, RtpPacket.hasExtension, found, RtpPacket.findExtensionInfo, hentries, hdata,
    find_record h.starts, List.find?_nil, Option.or_none]
  generalize getId type = id
  by_cases hzero : id = 0
  · rw [if_pos hzero, if_pos hzero, if_pos hzero]
    exact ⟨rfl, rfl⟩
  · rw [if_neg hzero, if_neg hzero, if_neg hzero]
    have hrel := @find_rel id _ _ _ (List.rel_reverse h.elementsOf)
    cases hfound : (Rtp.elementsOf s.bytes).reverse.find? (fun e => e.id = id) with
    | none =>
      rw [hfound] at hrel
      cases hsent : (kept s.items).reverse.find? (fun e => e.id = id) with
      | none => exact ⟨rfl, rfl⟩
      | some sent =>
        rw [hsent] at hrel
        cases hrel
    | some e =>
      rw [hfound] at hrel
      cases hsent : (kept s.items).reverse.find? (fun e => e.id = id) with
      | none =>
        rw [hsent] at hrel
        cases hrel
      | some sent =>
        rw [hsent] at hrel
        have hstart := h.starts e (List.mem_reverse.mp (List.mem_of_find?_eq_some hfound))
        obtain ⟨-, hshown⟩ : Shows s.bytes e sent := by
          cases hrel with
          | some hshows => exact hshows
        refine ⟨?_, rfl⟩
        rw [Option.map_some, Option.map_some, Option.getD_some, ← hshown, entryOf]
        dsimp only
        rw [UInt16.toNat_ofNat', Nat.mod_eq_of_lt hstart]

end Extended
end Rtp
end XrtcServer
