import XrtcServer.Stun

/-! The attribute grammar that `StunMessage::read` really accepts, and the
type-length-value grammar it is meant to accept. The first is looser: it has its
own rules for a value without padding, for the length of PRIORITY and for a
skipped length that wraps in sixteen bits. -/
namespace XrtcServer
namespace Stun
open ByteFormat

/-- The stored form of a type-length-value attribute, if its type is stored. -/
def storedAttribute (t : Tlv) : Option StunAttribute :=
  match getAttributeValueType t.type with
  | .byteString => some ⟨t.type, t.value.length, .byteString t.value⟩
  | .uint32 => some ⟨t.type, t.value.length, .uint32 (beNat t.value)⟩
  | .unknown => none

/-- One attribute as the reader takes it: the bytes, what is stored, the bytes
left, and whether a rule was used that the type-length-value grammar lacks. -/
inductive AcceptedAttribute : Bytes → Option StunAttribute → Bytes → Bool → Prop
  | string {type : ℕ} {value padding rest : Bytes} :
      getAttributeValueType type = .byteString → value.length < 65536 →
      padding.length = padLength value.length →
      AcceptedAttribute (toBE 2 type ++ (toBE 2 value.length ++ (value ++ (padding ++ rest))))
        (some ⟨type, value.length, .byteString value⟩) rest false
  | unpadded {type : ℕ} {value rest : Bytes} :
      getAttributeValueType type = .byteString → value.length < 65536 →
      rest.length < padLength value.length →
      AcceptedAttribute (toBE 2 type ++ (toBE 2 value.length ++ (value ++ rest)))
        (some ⟨type, value.length, .byteString value⟩) rest true
  | priority {length : ℕ} {value rest : Bytes} :
      length < 65536 → value.length = 4 →
      AcceptedAttribute (toBE 2 stunAttrPriority ++ (toBE 2 length ++ (value ++ rest)))
        (some ⟨stunAttrPriority, 4, .uint32 (beNat value)⟩) rest (decide (length ≠ 4))
  | skipped {type length : ℕ} {value rest : Bytes} :
      getAttributeValueType type = .unknown → type < 65536 → length < 65533 →
      value.length = length + padLength length →
      AcceptedAttribute (toBE 2 type ++ (toBE 2 length ++ (value ++ rest))) none rest false
  | wrapped {type length : ℕ} {rest : Bytes} :
      getAttributeValueType type = .unknown → type < 65536 → 65533 ≤ length → length < 65536 →
      AcceptedAttribute (toBE 2 type ++ (toBE 2 length ++ rest)) none rest true

/-- A whole attribute section, what is stored of it, and whether some attribute
used a rule that the type-length-value grammar lacks. -/
inductive AcceptedBody : Bytes → List StunAttribute → Bool → Prop
  | done : AcceptedBody [] [] false
  | more {body rest : Bytes} {attr : Option StunAttribute} {attrs : List StunAttribute}
      {relaxed relaxed' : Bool} :
      AcceptedAttribute body attr rest relaxed → AcceptedBody rest attrs relaxed' →
      AcceptedBody body (attr.toList ++ attrs) (relaxed || relaxed')

theorem valueType_byteString {type : ℕ} :
    getAttributeValueType type = .byteString ↔
      type = stunAttrUsername ∨ type = stunAttrMessageIntegrity := by
  unfold getAttributeValueType
  split_ifs <;> simp_all

theorem valueType_uint32 {type : ℕ} :
    getAttributeValueType type = .uint32 ↔ type = stunAttrPriority := by
  unfold getAttributeValueType
  split_ifs with h₁ h₂ h₃ <;> simp_all [stunAttrUsername,stunAttrMessageIntegrity,stunAttrPriority]

theorem type_lt_of_byteString {type : ℕ} (h : getAttributeValueType type = .byteString) :
    type < 65536 := by
  rcases valueType_byteString.mp h with rfl | rfl <;> decide

@[simp] theorem valueType_priority : getAttributeValueType stunAttrPriority = .uint32 :=
  valueType_uint32.mpr rfl

theorem skipLength_of_lt {length : ℕ} (h : length < 65533) :
    skipLength length = length + padLength length := by
  unfold skipLength padLength
  split_ifs <;> omega

theorem skipLength_of_ge {length : ℕ} (h : 65533 ≤ length) (h' : length < 65536) :
    skipLength length = 0 := by
  unfold skipLength
  split_ifs <;> omega

theorem consumePadding_padded {length : ℕ} {padding rest : Bytes}
    (h : padding.length = padLength length) : consumePadding length (padding ++ rest) = rest := by
  unfold consumePadding
  by_cases hz : length % 4 = 0
  · have hp : padding = [] := List.eq_nil_of_length_eq_zero (by simp [h, padLength, hz])
    simp [hp, hz]
  · have hc : consume (4 - length % 4) (padding ++ rest) = some rest :=
      consume_eq_some.mpr ⟨padding, rfl, by simp [h, padLength, hz]⟩
    rw [if_pos (by omega), hc, Option.getD_some]

theorem consumePadding_short {length : ℕ} {buf : Bytes} (h : buf.length < padLength length) :
    consumePadding length buf = buf := by
  unfold consumePadding
  by_cases hz : length % 4 = 0
  · simp [hz]
  · have hc : consume (4 - length % 4) buf = none :=
      consume_eq_none.mpr (by simpa [padLength, hz] using h)
    rw [if_pos (by omega), hc, Option.getD_none]

/-- What follows a value either starts with its padding or is too short for it. -/
theorem consumePadding_cases (length : ℕ) (buf : Bytes) :
    (∃ padding, buf = padding ++ consumePadding length buf ∧
      padding.length = padLength length) ∨
    (buf.length < padLength length ∧ consumePadding length buf = buf) := by
  by_cases h : buf.length < padLength length
  · exact Or.inr ⟨h, consumePadding_short h⟩
  · left
    have hsplit : buf = buf.take (padLength length) ++ buf.drop (padLength length) :=
      (List.take_append_drop _ _).symm
    have hlen : (buf.take (padLength length)).length = padLength length := by
      rw [List.length_take]; omega
    refine ⟨buf.take (padLength length), ?_, hlen⟩
    conv_lhs => rw [hsplit]
    conv_rhs => rw [hsplit, consumePadding_padded hlen]
    simp

theorem readAttribute_header {type length : ℕ} (ht : type < 65536) (hl : length < 65536)
    (tail : Bytes) :
    readAttribute (toBE 2 type ++ (toBE 2 length ++ tail)) =
      match createAttribute type length with
      | none => (consume (skipLength length) tail).map fun buf => (none, buf)
      | some attr => (attr.read tail).map fun p => (some p.1, p.2) := by
  unfold readAttribute
  rw [readUInt_toBE (by simpa using ht)]
  simp only [Option.bind_eq_bind, Option.bind_some]
  rw [readUInt_toBE (by simpa using hl)]
  simp only [Option.bind_some]
  cases createAttribute type length with
  | none => cases consume (skipLength length) tail <;> rfl
  | some attr => cases h : attr.read tail <;> simp [h]

/-- Every accepted attribute is taken by the loop body, as the grammar says. -/
theorem AcceptedAttribute.readAttribute {body rest : Bytes} {attr : Option StunAttribute}
    {relaxed : Bool} (h : AcceptedAttribute body attr rest relaxed) :
    readAttribute body = some (attr, rest) := by
  cases h with
  | @string type value padding rest ht hl hp =>
    rw [readAttribute_header (type_lt_of_byteString ht) hl]
    simp [createAttribute, ht, StunAttribute.read, consumePadding_padded hp]
  | @unpadded type value rest ht hl hp =>
    rw [readAttribute_header (type_lt_of_byteString ht) hl]
    simp [createAttribute, ht, StunAttribute.read, consumePadding_short hp]
  | @priority length value rest hl hv =>
    have hr : readUInt 4 (value ++ rest) = some (beNat value, rest) := by
      rw [readUInt_eq_some, ← hv, toBE_beNat]
      exact ⟨rfl, beNat_lt value⟩
    rw [readAttribute_header (by decide) hl]
    simp [createAttribute, StunAttribute.read, hr]
  | @skipped type length value rest ht htb hl hv =>
    have hc : consume (skipLength length) (value ++ rest) = some rest :=
      consume_eq_some.mpr ⟨value, rfl, by rw [hv, skipLength_of_lt hl]⟩
    rw [readAttribute_header htb (by omega)]
    simp [createAttribute, ht, hc]
  | @wrapped type length rest ht htb hl hl' =>
    have hc : consume (skipLength length) rest = some rest :=
      consume_eq_some.mpr ⟨[], rfl, by rw [skipLength_of_ge hl hl']; rfl⟩
    rw [readAttribute_header htb hl']
    simp [createAttribute, ht, hc]

/-- Whatever the loop body takes is an attribute of the grammar. -/
theorem accepted_of_readAttribute {body rest : Bytes} {attr : Option StunAttribute}
    (h : readAttribute body = some (attr, rest)) :
    ∃ relaxed, AcceptedAttribute body attr rest relaxed := by
  have hh := h
  unfold readAttribute at hh
  simp only [Option.bind_eq_bind, Option.bind_eq_some_iff, Prod.exists] at hh
  obtain ⟨type, buf₁, h₁, length, buf₂, h₂, -⟩ := hh
  obtain ⟨rfl, ht⟩ := readUInt_eq_some.mp h₁
  obtain ⟨rfl, hl⟩ := readUInt_eq_some.mp h₂
  norm_num at ht hl
  rw [readAttribute_header ht hl] at h
  unfold createAttribute at h
  cases hv : getAttributeValueType type with
  | byteString =>
    simp only [hv, StunAttribute.read, Option.bind_eq_bind, Option.map_eq_some_iff,
      Option.bind_eq_some_iff, Prod.exists, Option.some.injEq, Prod.mk.injEq] at h
    obtain ⟨a, b, ⟨value, tail, hr, rfl, rfl⟩, rfl, rfl⟩ := h
    obtain ⟨rfl, hlen⟩ := readBytes_eq_some.mp hr
    subst hlen
    rcases consumePadding_cases value.length tail with ⟨padding, htail, hp⟩ | ⟨hshort, hsame⟩
    · refine ⟨false, ?_⟩
      generalize consumePadding value.length tail = rest at htail ⊢
      subst htail
      exact .string hv hl hp
    · rw [hsame]
      exact ⟨true, .unpadded hv hl hshort⟩
  | uint32 =>
    obtain rfl := valueType_uint32.mp hv
    simp only [hv, StunAttribute.read, Option.bind_eq_bind, Option.map_eq_some_iff,
      Option.bind_eq_some_iff, Prod.exists, Option.some.injEq, Prod.mk.injEq, ne_eq,
      not_true_eq_false, if_false] at h
    obtain ⟨a, b, ⟨bits, tail, hr, rfl, rfl⟩, rfl, rfl⟩ := h
    obtain ⟨rfl, hbits⟩ := readUInt_eq_some.mp hr
    have hb : beNat (toBE 4 bits) = bits := beNat_toBE_of_lt hbits
    have ha : AcceptedAttribute (toBE 2 stunAttrPriority ++ (toBE 2 length ++ (toBE 4 bits ++ tail)))
        (some ⟨stunAttrPriority, 4, .uint32 (beNat (toBE 4 bits))⟩) tail (decide (length ≠ 4)) :=
      .priority hl (toBE_length 4 bits)
    rw [hb] at ha
    exact ⟨_, ha⟩
  | unknown =>
    simp only [hv, Option.map_eq_some_iff, Prod.mk.injEq] at h
    obtain ⟨tail, hc, rfl, rfl⟩ := h
    obtain ⟨value, rfl, hlen⟩ := consume_eq_some.mp hc
    by_cases hw : length < 65533
    · exact ⟨false, .skipped hv ht hw (by rw [hlen, skipLength_of_lt hw])⟩
    · have hz : value = [] := by
        apply List.eq_nil_of_length_eq_zero
        rw [hlen, skipLength_of_ge (by omega) hl]
      subst hz
      exact ⟨true, .wrapped hv ht (by omega) hl⟩

theorem AcceptedAttribute.length_le {body rest : Bytes} {attr : Option StunAttribute}
    {relaxed : Bool} (h : AcceptedAttribute body attr rest relaxed) :
    rest.length + 4 ≤ body.length := by
  cases h <;> simp <;> omega

/-- The attribute loop, with enough fuel, returns exactly what the grammar stores. -/
theorem readAttributes_eq_some {fuel : ℕ} {body : Bytes} {attrs : List StunAttribute}
    (hf : body.length ≤ fuel) :
    readAttributes fuel body = some attrs ↔ ∃ relaxed, AcceptedBody body attrs relaxed := by
  induction fuel generalizing body attrs with
  | zero =>
    have hb : body = [] := List.eq_nil_of_length_eq_zero (by omega)
    subst hb
    constructor
    · intro h
      obtain rfl : [] = attrs := by simpa [readAttributes] using h
      exact ⟨false, .done⟩
    · rintro ⟨relaxed, h⟩
      cases h with
      | done => rfl
      | more ha _ => have := ha.length_le; simp at this
  | succ fuel ih =>
    cases body with
    | nil =>
      constructor
      · intro h
        obtain rfl : [] = attrs := by simpa [readAttributes] using h
        exact ⟨false, .done⟩
      · rintro ⟨relaxed, h⟩
        cases h with
        | done => rfl
        | more ha _ => have := ha.length_le; simp at this
    | cons b bs =>
      simp only [readAttributes, Option.bind_eq_bind, Option.bind_eq_some_iff, Prod.exists,
        Option.some.injEq]
      constructor
      · rintro ⟨attr, rest, hr, attrs', hrs, rfl⟩
        obtain ⟨relaxed, ha⟩ := accepted_of_readAttribute hr
        have hlen := ha.length_le
        obtain ⟨relaxed', hb⟩ := (ih (by simp at hf hlen; omega)).mp hrs
        exact ⟨_, .more ha hb⟩
      · rintro ⟨relaxed, h⟩
        cases h with
        | @more _ rest attr attrs' r r' ha hb =>
          have hlen := ha.length_le
          exact ⟨attr, rest, ha.readAttribute, attrs',
            (ih (by simp at hf hlen; omega)).mpr ⟨r', hb⟩, rfl⟩

/-- The attribute header decides, with the number of bytes after it, whether the
reader needs one of its own rules. -/
def relaxes (type length tailLength : ℕ) : Bool :=
  match getAttributeValueType type with
  | .byteString => tailLength < length + padLength length
  | .uint32 => length ≠ 4
  | .unknown => 65533 ≤ length

theorem AcceptedAttribute.relaxed_eq {body rest : Bytes} {attr : Option StunAttribute}
    {relaxed : Bool} (h : AcceptedAttribute body attr rest relaxed) :
    ∃ type length tail, body = toBE 2 type ++ (toBE 2 length ++ tail) ∧ type < 65536 ∧
      length < 65536 ∧ relaxed = relaxes type length tail.length := by
  cases h with
  | string ht hl hp =>
    refine ⟨_, _, _, rfl, type_lt_of_byteString ht, hl, ?_⟩
    simp [relaxes, ht, hp]
  | unpadded ht hl hp =>
    refine ⟨_, _, _, rfl, type_lt_of_byteString ht, hl, ?_⟩
    simpa [relaxes, ht] using hp
  | priority hl hv => exact ⟨_, _, _, rfl, by decide, hl, by simp [relaxes]⟩
  | skipped ht htb hl hv =>
    refine ⟨_, _, _, rfl, htb, by omega, ?_⟩
    simpa [relaxes, ht] using hl
  | wrapped ht htb hl hl' =>
    refine ⟨_, _, _, rfl, htb, hl', ?_⟩
    simpa [relaxes, ht] using hl

theorem header_inj {type type' length length' : ℕ} {tail tail' : Bytes} (ht : type < 65536)
    (ht' : type' < 65536) (hl : length < 65536) (hl' : length' < 65536)
    (h : toBE 2 type ++ (toBE 2 length ++ tail) = toBE 2 type' ++ (toBE 2 length' ++ tail')) :
    type = type' ∧ length = length' ∧ tail = tail' := by
  have h₁ := readUInt_toBE (k := 2) ht (toBE 2 length ++ tail)
  rw [h, readUInt_toBE (k := 2) ht'] at h₁
  obtain ⟨rfl, h₂⟩ : type' = type ∧ toBE 2 length' ++ tail' = toBE 2 length ++ tail := by
    simpa using h₁
  have h₃ := readUInt_toBE (k := 2) hl tail
  rw [← h₂, readUInt_toBE (k := 2) hl'] at h₃
  obtain ⟨rfl, rfl⟩ : length' = length ∧ tail' = tail := by simpa using h₃
  exact ⟨rfl, rfl, rfl⟩

theorem AcceptedAttribute.deterministic {body rest rest' : Bytes}
    {attr attr' : Option StunAttribute} {r r' : Bool} (h : AcceptedAttribute body attr rest r)
    (h' : AcceptedAttribute body attr' rest' r') : attr = attr' ∧ rest = rest' ∧ r = r' := by
  have hread := h.readAttribute.symm.trans h'.readAttribute
  obtain ⟨type, length, tail, rfl, ht, hl, rfl⟩ := h.relaxed_eq
  obtain ⟨type', length', tail', heq, ht', hl', rfl⟩ := h'.relaxed_eq
  obtain ⟨rfl, rfl, rfl⟩ := header_inj ht ht' hl hl' heq
  obtain ⟨rfl, rfl⟩ : attr = attr' ∧ rest = rest' := by simpa using hread
  exact ⟨rfl, rfl, rfl⟩

theorem AcceptedBody.deterministic {body : Bytes} {attrs attrs' : List StunAttribute} {r r' : Bool}
    (h : AcceptedBody body attrs r) (h' : AcceptedBody body attrs' r') : attrs = attrs' ∧ r = r' := by
  induction h generalizing attrs' r' with
  | done =>
    cases h' with
    | done => exact ⟨rfl, rfl⟩
    | more ha _ => have := ha.length_le; simp at this
  | more ha _ ih =>
    cases h' with
    | done => have := ha.length_le; simp at this
    | more ha' hb' =>
      obtain ⟨rfl, rfl, rfl⟩ := ha.deterministic ha'
      obtain ⟨rfl, rfl⟩ := ih hb'
      exact ⟨rfl, rfl⟩

/-- Without the reader's own rules the accepted bodies are the padded
type-length-value sequences whose PRIORITY attributes have four bytes. -/
theorem tlvs_of_acceptedBody {body : Bytes} {attrs : List StunAttribute} {relaxed : Bool}
    (h : AcceptedBody body attrs relaxed) (hr : relaxed = false) :
    ∃ ts, body = encodeAll ts ∧ attrs = ts.filterMap storedAttribute ∧
      ∀ t ∈ ts, t.type = stunAttrPriority → t.value.length = 4 := by
  induction h with
  | done => exact ⟨[], rfl, rfl, by simp⟩
  | @more body rest attr attrs r r' ha _ ih =>
    obtain ⟨rfl, rfl⟩ := Bool.or_eq_false_iff.mp hr
    obtain ⟨ts, rfl, rfl, hpri⟩ := ih rfl
    obtain ⟨t, rfl, rfl, hfour⟩ : ∃ t : Tlv, body = t.encode ++ encodeAll ts ∧
        attr = storedAttribute t ∧ (t.type = stunAttrPriority → t.value.length = 4) := by
      generalize hr0 : false = relaxed at ha
      cases ha with
      | @string type value padding _ ht hl hp =>
        refine ⟨⟨type, value, padding, type_lt_of_byteString ht, hl, hp⟩, ?_, ?_, ?_⟩
        · simp [Tlv.encode]
        · simp [storedAttribute, ht]
        · rintro (rfl : type = stunAttrPriority)
          simp at ht
      | unpadded => cases hr0
      | @priority length value _ hl hv =>
        have hlen : length = 4 := by simpa using hr0
        subst hlen
        refine ⟨⟨stunAttrPriority, value, [], by decide, by omega, by simp [hv, padLength]⟩, ?_, ?_, ?_⟩
        · simp [Tlv.encode, hv]
        · simp [storedAttribute, hv]
        · exact fun _ => hv
      | @skipped type length value _ ht htb hl hv =>
        refine ⟨⟨type, value.take length, value.drop length, htb, ?_, ?_⟩, ?_, ?_, ?_⟩
        · simp; omega
        · simp [hv]
        · simp only [Tlv.encode, List.length_take, List.take_append_drop, List.append_assoc]
          rw [Nat.min_eq_left (by omega)]
        · simp [storedAttribute, ht]
        · rintro (rfl : type = stunAttrPriority)
          simp at ht
      | wrapped => cases hr0
    refine ⟨t :: ts, rfl, ?_, ?_⟩
    · cases hs : storedAttribute t <;> simp [hs]
    · intro t' ht'
      rcases List.mem_cons.mp ht' with rfl | hmem
      · exact hfour
      · exact hpri t' hmem

theorem acceptedAttribute_of_tlv (t : Tlv) (rest : Bytes)
    (hpri : t.type = stunAttrPriority → t.value.length = 4) (hlen : t.value.length < 65533) :
    AcceptedAttribute (t.encode ++ rest) (storedAttribute t) rest false := by
  obtain ⟨type, value, padding, htb, hlb, hp⟩ := t
  simp only [Tlv.encode, List.append_assoc, storedAttribute]
  cases hv : getAttributeValueType type with
  | byteString => exact .string hv hlb hp
  | uint32 =>
    obtain rfl := valueType_uint32.mp hv
    have hfour : value.length = 4 := hpri rfl
    have hnil : padding = [] := List.eq_nil_of_length_eq_zero (by simp [hp, hfour, padLength])
    subst hnil
    have h : AcceptedAttribute (toBE 2 stunAttrPriority ++ (toBE 2 4 ++ (value ++ rest)))
        (some ⟨stunAttrPriority, 4, .uint32 (beNat value)⟩) rest (decide (4 ≠ 4)) :=
      .priority (by decide) hfour
    simpa [hfour] using h
  | unknown =>
    have h : AcceptedAttribute
        (toBE 2 type ++ (toBE 2 value.length ++ ((value ++ padding) ++ rest))) none rest false :=
      .skipped hv htb hlen (by simp [hp])
    simpa using h

theorem acceptedBody_of_tlvs (ts : List Tlv)
    (hpri : ∀ t ∈ ts, t.type = stunAttrPriority → t.value.length = 4)
    (hlen : (encodeAll ts).length < 65536) :
    AcceptedBody (encodeAll ts) (ts.filterMap storedAttribute) false := by
  induction ts with
  | nil => exact .done
  | cons t ts ih =>
    have hle : t.value.length + 4 + (encodeAll ts).length ≤ (encodeAll (t :: ts)).length := by
      simp [Tlv.encode]; omega
    have ha := acceptedAttribute_of_tlv t (encodeAll ts) (hpri t (by simp)) (by omega)
    have hb := ih (fun t' h => hpri t' (by simp [h])) (by omega)
    have hall := AcceptedBody.more ha hb
    cases hs : storedAttribute t <;> simpa [hs] using hall

end Stun
end XrtcServer
