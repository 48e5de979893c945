import XrtcServer.StunRead

/-! FINGERPRINT and MESSAGE-INTEGRITY validation of `ice/stun.cpp`, with the walk
that looks for MESSAGE-INTEGRITY and the positions at which the reader finds the
attributes it stores. -/
namespace XrtcServer
namespace Stun
open ByteFormat

/-- `rtc::GetBE16` at a position of the datagram. -/
def getBE16 (data : Bytes) (pos : ℕ) : ℕ := beNat ((data.drop pos).take 2)

/-- `rtc::GetBE32` at a position of the datagram. -/
def getBE32 (data : Bytes) (pos : ℕ) : ℕ := beNat ((data.drop pos).take 4)

def kCrc32Polynomial : UInt32 := 0xEDB88320

/-- One entry of the CRC table: eight shifts of the index. -/
def crc32Table (i : UInt32) : UInt32 :=
  (fun c : UInt32 => if c &&& 1 ≠ 0 then kCrc32Polynomial ^^^ (c >>> 1) else c >>> 1)^[8] i

/-- The loop body of `UpdateCrc32`. -/
def crc32Step (c : UInt32) (u : UInt8) : UInt32 :=
  crc32Table ((c ^^^ u.toUInt32) &&& 0xFF) ^^^ (c >>> 8)

def updateCrc32 (start : UInt32) (buf : Bytes) : UInt32 :=
  buf.foldl crc32Step (start ^^^ 0xFFFFFFFF) ^^^ 0xFFFFFFFF

def computeCrc32 (buf : Bytes) : UInt32 := updateCrc32 0 buf

/-- The checksum of four parts from the states between them, each a short evaluation. -/
theorem computeCrc32_four {p₁ p₂ p₃ p₄ : Bytes} {c₁ c₂ c₃ c₄ : UInt32}
    (h₁ : p₁.foldl crc32Step 0xFFFFFFFF = c₁) (h₂ : p₂.foldl crc32Step c₁ = c₂)
    (h₃ : p₃.foldl crc32Step c₂ = c₃) (h₄ : p₄.foldl crc32Step c₃ = c₄) :
    computeCrc32 (p₁ ++ p₂ ++ p₃ ++ p₄) = c₄ ^^^ 0xFFFFFFFF := by
  have hstart : (0 : UInt32) ^^^ 0xFFFFFFFF = 0xFFFFFFFF := by decide
  simp only [computeCrc32, updateCrc32, List.foldl_append, hstart, h₁, h₂, h₃, h₄]

def validateFingerprint (data : Bytes) : Bool :=
  if data.length % 4 ≠ 0 ∨ data.length < stunHeaderSize + 8 then false
  else if getBE32 data 4 ≠ stunMagicCookie then false
  else if getBE16 data (data.length - 8) ≠ stunAttrFingerprint ∨
      getBE16 data (data.length - 8 + 2) ≠ 4 then false
  else getBE32 data (data.length - 8 + 4) ^^^ stunFingerprintXorValue =
    (computeCrc32 (data.take (data.length - 8))).toNat

/-- `StunMessage::IntegrityStatus` as validation sets it. -/
inductive IntegrityStatus
  | noIntegrity | integrityOk | integrityBad
  deriving DecidableEq, Repr

/-- The scan for the first attribute of a type: declared lengths, each rounded up
to a multiple of four. Every round moves at least four bytes. -/
def findAttribute (miAttrType : ℕ) (data : Bytes) : ℕ → ℕ → Option ℕ
  | 0, _ => none
  | fuel+1, pos =>
    if pos + stunAttributeHeaderSize ≤ data.length then
      if getBE16 data pos = miAttrType then some pos
      else
        let attrLength := getBE16 data (pos + 2)
        let pos := pos + (stunAttributeHeaderSize + attrLength)
        findAttribute miAttrType data fuel
          (if attrLength % 4 ≠ 0 then pos + (4 - attrLength % 4) else pos)
    else none

/-- The bytes before MESSAGE-INTEGRITY, the length field rewritten when bytes
follow the attribute. -/
def hashInput (data : Bytes) (miPos miAttrSize : ℕ) : Bytes :=
  let tempData := data.take miPos
  let extraPos := miPos + stunAttributeHeaderSize + miAttrSize
  if data.length > extraPos then
    let extraSize := data.length - extraPos
    tempData.take 2 ++ toBE 2 (data.length - extraSize - stunHeaderSize) ++ tempData.drop 4
  else tempData

/-- The `n` bytes of memory from a position of the datagram on; what lies behind
the datagram is not under the program's control. -/
def readMemory (data : Bytes) (beyond : ℕ → UInt8) (pos n : ℕ) : Bytes :=
  (List.range n).map fun i => data[pos + i]?.getD (beyond (pos + i - data.length))

section Validation
variable (hmac : Bytes → Bytes → Bytes) (beyond : ℕ → UInt8)

def validateMessageIntegrityOfType (miAttrType miAttrSize : ℕ) (data password : Bytes) : Bool :=
  if data.length % 4 ≠ 0 ∨ data.length < stunHeaderSize then false
  else if getBE16 data 2 + stunHeaderSize ≠ data.length then false
  else match findAttribute miAttrType data data.length stunHeaderSize with
    | none => false
    | some miPos =>
      let digest := hmac password (hashInput data miPos miAttrSize)
      if digest.length ≠ stunMessageIntegritySize then false
      else readMemory data beyond (miPos + stunAttributeHeaderSize) miAttrSize = digest

def StunMessage.validateMessageIntegrity (msg : StunMessage) (password : Bytes) :
    IntegrityStatus :=
  if (msg.getByteString stunAttrMessageIntegrity).isSome then
    if validateMessageIntegrityOfType hmac beyond stunAttrMessageIntegrity
        stunMessageIntegritySize msg.buffer password
    then .integrityOk else .integrityBad
  else .noIntegrity

end Validation

/-- From the first position the walk over declared lengths arrives at the second,
which holds the first attribute of the given type. -/
inductive WalkFinds (type : ℕ) (data : Bytes) : ℕ → ℕ → Prop
  | found {pos : ℕ} : pos + 4 ≤ data.length → getBE16 data pos = type →
      WalkFinds type data pos pos
  | skip {pos p : ℕ} : pos + 4 ≤ data.length → getBE16 data pos ≠ type →
      WalkFinds type data
        (pos + 4 + (getBE16 data (pos+2) + padLength (getBE16 data (pos+2)))) p →
      WalkFinds type data pos p

/-- The first attribute of a type, by the declared lengths of those before it. -/
def FirstAttribute (type : ℕ) (data : Bytes) (p : ℕ) : Prop :=
  WalkFinds type data stunHeaderSize p

/-- The position after an attribute, as the source writes it. -/
theorem next_position (pos n : ℕ) :
    (if n % 4 ≠ 0 then pos + (stunAttributeHeaderSize + n) + (4 - n % 4)
      else pos + (stunAttributeHeaderSize + n)) = pos + 4 + (n + padLength n) := by
  unfold padLength stunAttributeHeaderSize
  split_ifs <;> omega

theorem findAttribute_eq_some {type fuel pos p : ℕ} {data : Bytes}
    (hf : data.length < pos + 4 + fuel) :
    findAttribute type data fuel pos = some p ↔ WalkFinds type data pos p := by
  induction fuel generalizing pos with
  | zero =>
    refine ⟨fun h => by simp [findAttribute] at h, fun h => ?_⟩
    cases h <;> omega
  | succ fuel ih =>
    simp only [findAttribute]
    by_cases hin : pos + stunAttributeHeaderSize ≤ data.length
    · rw [if_pos hin]
      by_cases ht : getBE16 data pos = type
      · rw [if_pos ht]
        refine ⟨fun h => ?_, fun h => ?_⟩
        · obtain rfl : pos = p := by simpa using h
          exact .found hin ht
        · cases h with
          | found _ _ => rfl
          | skip _ hne _ => exact absurd ht hne
      · rw [if_neg ht, next_position, ih (by omega)]
        refine ⟨fun h => .skip hin ht h, fun h => ?_⟩
        cases h with
        | found _ he => exact absurd he ht
        | skip _ _ h => exact h
    · rw [if_neg hin]
      refine ⟨fun h => by simp at h, fun h => ?_⟩
      simp only [stunAttributeHeaderSize] at hin
      cases h <;> omega

theorem WalkFinds.bounds {type pos p : ℕ} {data : Bytes} (h : WalkFinds type data pos p) :
    pos ≤ p ∧ p + 4 ≤ data.length ∧ getBE16 data p = type := by
  induction h with
  | found hin ht => exact ⟨le_refl _, hin, ht⟩
  | skip _ _ _ ih => exact ⟨by omega, ih.2⟩

theorem firstAttribute_unique {type p q : ℕ} {data : Bytes} (hp : FirstAttribute type data p)
    (hq : FirstAttribute type data q) : p = q := by
  have h₁ := (findAttribute_eq_some (show data.length < stunHeaderSize + 4 + data.length by omega)).mpr hp
  have h₂ := (findAttribute_eq_some (show data.length < stunHeaderSize + 4 + data.length by omega)).mpr hq
  exact Option.some.inj (h₁.symm.trans h₂)

theorem readMemory_inside {data : Bytes} {beyond : ℕ → UInt8} {pos n : ℕ}
    (h : pos + n ≤ data.length) :
    readMemory data beyond pos n = (data.drop pos).take n := by
  apply List.ext_getElem?
  intro i
  by_cases hi : i < n
  · have hlt : pos + i < data.length := by omega
    simp [readMemory, hi, hlt]
  · simp [readMemory, hi]

/-- The bytes of a datagram before a position, its length field set so that the
message ends behind an attribute of 20 bytes there. -/
def prefixEndingAt (data : Bytes) (p : ℕ) : Bytes :=
  data.take 2 ++ toBE 2 (p + 4) ++ (data.take p).drop 4

/-- The digest input is the prefix that ends at the attribute, whether or not the
length field had to be rewritten. -/
theorem hashInput_inside {data : Bytes} {p : ℕ} (hp : stunHeaderSize ≤ p)
    (hin : p + 24 ≤ data.length) (hl : getBE16 data 2 + stunHeaderSize = data.length) :
    hashInput data p stunMessageIntegritySize = prefixEndingAt data p := by
  simp only [stunHeaderSize] at hp hl
  have htake : (data.take p).take 2 = data.take 2 := by rw [List.take_take]; congr 1; omega
  by_cases hgt : data.length > p + stunAttributeHeaderSize + stunMessageIntegritySize
  · have hlen : data.length - (data.length - (p + stunAttributeHeaderSize +
        stunMessageIntegritySize)) - stunHeaderSize = p + 4 := by
      simp only [stunAttributeHeaderSize, stunMessageIntegritySize, stunHeaderSize] at hgt ⊢
      omega
    simp only [hashInput, hgt, if_true, htake, hlen, prefixEndingAt]
  · have hlen : p + 4 = getBE16 data 2 := by
      simp only [stunAttributeHeaderSize, stunMessageIntegritySize] at hgt
      omega
    have htwo : ((data.drop 2).take 2).length = 2 := by
      rw [List.length_take, List.length_drop]; omega
    have hfield : toBE 2 (p + 4) = (data.drop 2).take 2 := by
      have hb := toBE_beNat ((data.drop 2).take 2)
      rw [htwo] at hb
      rw [hlen, getBE16, hb]
    have hfour : data.take 2 ++ (data.drop 2).take 2 = (data.take p).take 4 := by
      rw [← List.take_add, List.take_take]; congr 1; omega
    simp only [hashInput, hgt, if_false, prefixEndingAt]
    rw [hfield, hfour, List.take_append_drop]

/-- The reader's walk for the first stored attribute of a type, together with the
bytes from its header on. -/
def locateAttribute (type : ℕ) : ℕ → Bytes → Option (StunAttribute × Bytes)
  | _, [] => none
  | 0, _ :: _ => none
  | fuel+1, b :: bs =>
    match readAttribute (b :: bs) with
    | none => none
    | some (some attr, rest) =>
      if attr.type = type then some (attr, b :: bs) else locateAttribute type fuel rest
    | some (none, rest) => locateAttribute type fuel rest

theorem locateAttribute_fst {type fuel : ℕ} {body : Bytes} {attrs : List StunAttribute}
    (h : readAttributes fuel body = some attrs) :
    (locateAttribute type fuel body).map Prod.fst = attrs.find? fun attr => attr.type = type := by
  induction fuel generalizing body attrs with
  | zero =>
    cases body with
    | nil =>
      obtain rfl : [] = attrs := by simpa [readAttributes] using h
      rfl
    | cons b bs => simp [readAttributes] at h
  | succ fuel ih =>
    cases body with
    | nil =>
      obtain rfl : [] = attrs := by simpa [readAttributes] using h
      rfl
    | cons b bs =>
      simp only [readAttributes, Option.bind_eq_bind, Option.bind_eq_some_iff, Prod.exists,
        Option.some.injEq] at h
      obtain ⟨attr, rest, hr, attrs', hrs, rfl⟩ := h
      simp only [locateAttribute, hr]
      cases attr with
      | none => simpa using ih hrs
      | some attr =>
        by_cases ht : attr.type = type
        · simp [ht]
        · simp [ht, ih hrs]

/-- The first stored attribute of a type in a datagram and the bytes from its header on. -/
def firstStored (type : ℕ) (data : Bytes) : Option (StunAttribute × Bytes) :=
  locateAttribute type (data.drop stunHeaderSize).length (data.drop stunHeaderSize)

/-- Where the reader finds an attribute of the type, its value ends by the position. -/
def ValueEndsBy (type : ℕ) (data : Bytes) (p : ℕ) : Prop :=
  ∀ attr tail, firstStored type data = some (attr, tail) →
    data.length - tail.length + stunAttributeHeaderSize + attr.length ≤ p

/-- The lookups in a read message return the attributes whose positions are bounded. -/
theorem getAttribute_eq_firstStored {data : Bytes} {msg : StunMessage} (type : ℕ)
    (h : StunMessage.read data = some msg) :
    msg.getAttribute type = (firstStored type data).map Prod.fst := by
  have hb := acceptedBody_of_read h
  rw [StunMessage.getAttribute, firstStored, locateAttribute_fst]
  exact (readAttributes_eq_some (le_refl _)).mpr hb

end Stun
end XrtcServer
