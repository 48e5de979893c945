import XrtcServer.StunGrammar

/-! `StunMessage::read` against the message format: exactly on which byte strings
the reader accepts what the format allows and stores what the format says. -/
namespace XrtcServer
namespace Stun
open ByteFormat

/-- The byte string is a header followed by the given attribute sequence. -/
structure WellFormed (data : Bytes) (ts : List Tlv) : Prop where
  size : stunHeaderSize ≤ data.length
  topBits : (data.headD 0).toNat < 64
  lengthField : beNat ((data.drop 2).take 2) + stunHeaderSize = data.length
  body : data.drop stunHeaderSize = encodeAll ts
  priority : ∀ t ∈ ts, t.type = stunAttrPriority → t.value.length = 4

/-- The reader accepts the well-formed strings only and all of them, and stores
the attributes of the stored types in order. -/
def ReadMeetsFormat (data : Bytes) : Prop :=
  ((StunMessage.read data).isSome ↔ ∃ ts, WellFormed data ts) ∧
  ∀ msg ts, StunMessage.read data = some msg → WellFormed data ts →
    msg.attrs = ts.filterMap storedAttribute

/-- When size and length field fit and the reader can walk the body, the tested
bit 0x0800 of the type is set exactly if one of the two top bits is set or the
walk needs a rule that the format lacks. -/
def ReadHoldsWhen (data : Bytes) : Prop :=
  stunHeaderSize ≤ data.length → beNat ((data.drop 2).take 2) + stunHeaderSize = data.length →
  ∀ attrs relaxed, AcceptedBody (data.drop stunHeaderSize) attrs relaxed →
    (beNat (data.take 2) &&& 0x0800 ≠ 0 ↔ 64 ≤ (data.headD 0).toNat ∨ relaxed = true)

theorem read_of_short {data : Bytes} (h : data.length < stunHeaderSize) :
    StunMessage.read data = none := by
  simp only [StunMessage.read, Option.bind_eq_bind]
  cases h₁ : readUInt 2 data with
  | none => rfl
  | some p =>
    obtain ⟨rfl, -⟩ := readUInt_eq_some.mp h₁
    by_cases hb : p.1 &&& 0x0800 ≠ 0
    · simp [hb]
    · cases h₂ : readUInt 2 p.2 with
      | none => simp [h₂]
      | some q =>
        obtain ⟨hq, -⟩ := readUInt_eq_some.mp h₂
        cases h₃ : readBytes stunMagicCookieLength q.2 with
        | none => simp [h₂, h₃]
        | some r =>
          obtain ⟨hr, hc⟩ := readBytes_eq_some.mp h₃
          have h₄ : readBytes stunTransactionIdLength r.2 = none := by
            rw [readBytes_eq_none]
            simp [hq, hr, hc, stunHeaderSize, stunMagicCookieLength] at h
            simp only [stunTransactionIdLength]
            omega
          simp [h₂, h₃, h₄]

theorem read_of_size {data : Bytes} (h : stunHeaderSize ≤ data.length) :
    StunMessage.read data =
      if beNat (data.take 2) &&& 0x0800 ≠ 0 then none
      else if (data.drop stunHeaderSize).length ≠ beNat ((data.drop 2).take 2) then none
      else (readAttributes (data.drop stunHeaderSize).length (data.drop stunHeaderSize)).map
        fun attrs => {
          type := beNat (data.take 2)
          length := beNat ((data.drop 2).take 2)
          transactionId :=
            if beNat ((data.drop 4).take 4) ≠ stunMagicCookie
            then (data.drop 4).take 4 ++ (data.drop 8).take 12 else (data.drop 8).take 12
          attrs
          buffer := data } := by
  have hsize : 20 ≤ data.length := h
  have h₁ : readUInt 2 data = some (beNat (data.take 2), data.drop 2) := by
    simp [readUInt, readBytes]; omega
  have h₂ : readUInt 2 (data.drop 2) = some (beNat ((data.drop 2).take 2), data.drop 4) := by
    simp [readUInt, readBytes]; omega
  have h₃ : readBytes 4 (data.drop 4) = some ((data.drop 4).take 4, data.drop 8) := by
    simp [readBytes]; omega
  have h₄ : readBytes 12 (data.drop 8) =
      some ((data.drop 8).take 12, data.drop stunHeaderSize) := by
    simp [readBytes, stunHeaderSize]; omega
  simp only [StunMessage.read, stunMagicCookieLength, stunTransactionIdLength, h₁, h₂, h₃, h₄,
    Option.bind_eq_bind, Option.bind_some]
  by_cases hb : beNat (data.take 2) &&& 0x0800 ≠ 0
  · simp [hb]
  · rw [if_neg hb, if_neg hb]
    by_cases hl : (data.drop stunHeaderSize).length ≠ beNat ((data.drop 2).take 2)
    · rw [if_pos hl, if_pos hl]
      rfl
    · rw [if_neg hl, if_neg hl]
      cases readAttributes (data.drop stunHeaderSize).length (data.drop stunHeaderSize) <;> rfl

/-- The reader succeeds on the strings whose header fits and whose body it can walk. -/
theorem read_isSome_iff (data : Bytes) :
    (StunMessage.read data).isSome ↔
      stunHeaderSize ≤ data.length ∧ ¬(beNat (data.take 2) &&& 0x0800 ≠ 0) ∧
      beNat ((data.drop 2).take 2) + stunHeaderSize = data.length ∧
      ∃ attrs relaxed, AcceptedBody (data.drop stunHeaderSize) attrs relaxed := by
  by_cases hs : stunHeaderSize ≤ data.length
  · rw [read_of_size hs]
    have hlen : (data.drop stunHeaderSize).length = beNat ((data.drop 2).take 2) ↔
        beNat ((data.drop 2).take 2) + stunHeaderSize = data.length := by
      rw [List.length_drop]; omega
    by_cases hb : beNat (data.take 2) &&& 0x0800 ≠ 0
    · simp [hb]
    · by_cases hl : (data.drop stunHeaderSize).length = beNat ((data.drop 2).take 2)
      · rw [if_neg hb, if_neg (not_not.mpr hl), Option.isSome_map, Option.isSome_iff_exists]
        simp only [readAttributes_eq_some (le_refl _)]
        exact ⟨fun h => ⟨hs, hb, hlen.mp hl, h⟩, fun h => h.2.2.2⟩
      · rw [if_neg hb, if_pos hl]
        simp only [Option.isSome_none, Bool.false_eq_true, false_iff]
        rintro ⟨-, -, h, -⟩
        exact hl (hlen.mpr h)
  · rw [read_of_short (by omega)]
    simp [hs]

theorem acceptedBody_of_read {data : Bytes} {msg : StunMessage}
    (h : StunMessage.read data = some msg) :
    ∃ relaxed, AcceptedBody (data.drop stunHeaderSize) msg.attrs relaxed := by
  have hs : stunHeaderSize ≤ data.length := ((read_isSome_iff data).mp (by simp [h])).1
  rw [read_of_size hs] at h
  by_cases hb : beNat (data.take 2) &&& 0x0800 ≠ 0
  · simp [hb] at h
  · by_cases hl : (data.drop stunHeaderSize).length ≠ beNat ((data.drop 2).take 2)
    · rw [if_neg hb, if_pos hl] at h
      cases h
    · rw [if_neg hb, if_neg hl] at h
      obtain ⟨attrs, ha, rfl⟩ := Option.map_eq_some_iff.mp h
      exact (readAttributes_eq_some (le_refl _)).mp ha

/-- A length field that fits bounds the attribute section by sixteen bits. -/
theorem drop_header_length_lt {data : Bytes}
    (hl : beNat ((data.drop 2).take 2) + stunHeaderSize = data.length) :
    (data.drop stunHeaderSize).length < 65536 := by
  have hb := beNat_lt ((data.drop 2).take 2)
  have hp : 256^((data.drop 2).take 2).length ≤ 256^2 :=
    Nat.pow_le_pow_right (by omega) (by simp)
  rw [List.length_drop]
  omega

/-- A walkable body is well formed when its header is and the walk used no rule of
the reader's own. -/
theorem wellFormed_iff {data : Bytes} {attrs : List StunAttribute} {relaxed : Bool}
    (hs : stunHeaderSize ≤ data.length)
    (hl : beNat ((data.drop 2).take 2) + stunHeaderSize = data.length)
    (hb : AcceptedBody (data.drop stunHeaderSize) attrs relaxed) :
    (∃ ts, WellFormed data ts) ↔ ¬(64 ≤ (data.headD 0).toNat ∨ relaxed = true) := by
  constructor
  · rintro ⟨ts, h⟩
    have hstrict := acceptedBody_of_tlvs ts h.priority (h.body ▸ drop_header_length_lt hl)
    rw [← h.body] at hstrict
    have hr := (hb.deterministic hstrict).2
    have ht := h.topBits
    rintro (hh | hh)
    · omega
    · simp [hr] at hh
  · intro h
    obtain ⟨htop, hr⟩ := not_or.mp h
    obtain ⟨ts, hbody, -, hpri⟩ := tlvs_of_acceptedBody hb (by simpa using hr)
    exact ⟨ts, hs, by omega, hl, hbody, hpri⟩

theorem acceptedBody_of_wellFormed {data : Bytes} {ts : List Tlv} (h : WellFormed data ts) :
    AcceptedBody (data.drop stunHeaderSize) (ts.filterMap storedAttribute) false := by
  rw [h.body]
  exact acceptedBody_of_tlvs ts h.priority (h.body ▸ drop_header_length_lt h.lengthField)

theorem attrs_of_wellFormed {data : Bytes} {ts : List Tlv} {msg : StunMessage}
    (hr : StunMessage.read data = some msg) (h : WellFormed data ts) :
    msg.attrs = ts.filterMap storedAttribute := by
  obtain ⟨relaxed, hb⟩ := acceptedBody_of_read hr
  exact (hb.deterministic (acceptedBody_of_wellFormed h)).1

/-- The reader meets the format exactly where its type test and its own rules agree. -/
theorem read_meets_format_iff (data : Bytes) : ReadMeetsFormat data ↔ ReadHoldsWhen data := by
  have hattrs : ∀ msg ts, StunMessage.read data = some msg → WellFormed data ts →
      msg.attrs = ts.filterMap storedAttribute := fun _ _ => attrs_of_wellFormed
  constructor
  · rintro ⟨hiff, -⟩ hs hl attrs relaxed hb
    rw [wellFormed_iff hs hl hb, read_isSome_iff] at hiff
    have hsome : (stunHeaderSize ≤ data.length ∧ ¬(beNat (data.take 2) &&& 0x0800 ≠ 0) ∧
        beNat ((data.drop 2).take 2) + stunHeaderSize = data.length ∧
        ∃ attrs relaxed, AcceptedBody (data.drop stunHeaderSize) attrs relaxed) ↔
        ¬(beNat (data.take 2) &&& 0x0800 ≠ 0) :=
      ⟨fun h => h.2.1, fun h => ⟨hs, h, hl, attrs, relaxed, hb⟩⟩
    exact not_iff_not.mp (hsome.symm.trans hiff)
  · intro hcond
    refine ⟨?_, hattrs⟩
    rw [read_isSome_iff]
    constructor
    · rintro ⟨hs, hbit, hl, attrs, relaxed, hb⟩
      exact (wellFormed_iff hs hl hb).mpr ((hcond hs hl attrs relaxed hb).not.mp hbit)
    · rintro ⟨ts, h⟩
      have hb := acceptedBody_of_wellFormed h
      refine ⟨h.size, ?_, h.lengthField, _, _, hb⟩
      intro hbit
      have hrule := (hcond h.size h.lengthField _ _ hb).mp hbit
      exact (wellFormed_iff h.size h.lengthField hb).mp ⟨ts, h⟩ hrule

/-- A datagram with the two top bits 10, as RTP and RTCP have them. -/
def rtpLikeHeader : Bytes :=
  [0x80, 0x01, 0, 0, 0x21, 0x12, 0xA4, 0x42, 0, 0, 0, 0, 0, 0, 0, 0, 0, 0, 0, 0]

theorem read_accepts_rtpLikeHeader : ¬ReadMeetsFormat rtpLikeHeader := by
  rintro ⟨hiff, -⟩
  have hsome : (StunMessage.read rtpLikeHeader).isSome := by decide
  obtain ⟨ts, h⟩ := hiff.mp hsome
  exact absurd h.topBits (by decide)

end Stun
end XrtcServer
