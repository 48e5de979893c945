import XrtcServer.StunAuthentication
import XrtcServer.StunWrite

/-! A message to which a digest and a checksum are added last is written so that both are
found valid again. -/
namespace XrtcServer
namespace Stun
open ByteFormat

/-- A new message after some calls of `add_attribute`. -/
def withAttributes (type : ℕ) (transactionId : Bytes) (attrs : List NewAttribute) : StunMessage :=
  attrs.foldl (fun msg attr => msg.addAttribute attr.build) { type, transactionId }

/-- Digest and checksum are added, in this order. -/
def StunMessage.protect (hmac : Bytes → Bytes → Bytes) (msg : StunMessage) (password : Bytes) : StunMessage :=
  (msg.addMessageIntegrity hmac password).2.addFingerprint.2

/-- What is written passes both validations. -/
def Protected (hmac : Bytes → Bytes → Bytes) (beyond : ℕ → UInt8) (msg : StunMessage) (password : Bytes) : Prop :=
  ∃ bytes msg', (msg.protect hmac password).write = some bytes ∧ validateFingerprint bytes = true ∧
    StunMessage.read bytes = some msg' ∧ msg'.validateMessageIntegrity hmac beyond password = .integrityOk

section Fields

theorem getBE16_append {n : ℕ} (h : n < 65536) (pre rest : Bytes) :
    getBE16 (pre ++ (toBE 2 n ++ rest)) pre.length = n := by
  have hlt : n < 256^2 := h
  have htake := @List.take_left _ (toBE 2 n) rest
  rw [toBE_length] at htake
  rw [getBE16, List.drop_left, htake, beNat_toBE_of_lt hlt]

theorem getBE32_append {n : ℕ} (h : n < 256^4) (pre rest : Bytes) :
    getBE32 (pre ++ (toBE 4 n ++ rest)) pre.length = n := by
  have htake := @List.take_left _ (toBE 4 n) rest
  rw [toBE_length] at htake
  rw [getBE32, List.drop_left, htake, beNat_toBE_of_lt h]

theorem encode_append (t : Tlv) (rest : Bytes) : t.encode ++ rest =
    toBE 2 t.type ++ (toBE 2 t.value.length ++ (t.value ++ (t.padding ++ rest))) := by
  simp [Tlv.encode]

theorem getBE16_type (pre : Bytes) (t : Tlv) (rest : Bytes) : getBE16 (pre ++ (t.encode ++ rest)) pre.length = t.type := by
  rw [encode_append]
  exact getBE16_append t.typeBound _ _

theorem getBE16_length (pre : Bytes) (t : Tlv) (rest : Bytes) :
    getBE16 (pre ++ (t.encode ++ rest)) (pre.length + 2) = t.value.length := by
  have h := getBE16_append t.lengthBound (pre ++ toBE 2 t.type) (t.value ++ (t.padding ++ rest))
  rw [List.length_append, toBE_length, List.append_assoc] at h
  rwa [encode_append]

/-- The walk goes over the attributes of other types. -/
theorem walkFinds_append {type : ℕ} {ts : List Tlv} (h : ∀ t ∈ ts, t.type ≠ type) (pre : Bytes) {t : Tlv}
    (ht : t.type = type) (rest : Bytes) :
    WalkFinds type (pre ++ (encodeAll ts ++ (t.encode ++ rest))) pre.length (pre.length + (encodeAll ts).length) := by
  induction ts generalizing pre with
  | nil =>
    refine .found ?_ ((getBE16_type pre t rest).trans ht)
    simp [encode_length]
    omega
  | cons u ts ih =>
    obtain ⟨hu, hts⟩ := List.forall_mem_cons.mp h
    have ih := ih hts (pre ++ u.encode)
    have hnext : (pre ++ u.encode).length = pre.length + 4 + (u.value.length + padLength u.value.length) := by
      rw [List.length_append, encode_length]
      omega
    have hall : pre.length + (encodeAll (u :: ts)).length = (pre ++ u.encode).length + (encodeAll ts).length := by
      rw [encodeAll_cons, List.length_append, List.length_append]
      omega
    rw [hall, encodeAll_cons, List.append_assoc u.encode]
    refine .skip ?_ (fun heq => hu (heq.symm.trans (getBE16_type pre u _)).symm) ?_
    · simp [encode_length]
      omega
    · rw [getBE16_length, ← hnext]
      rwa [List.append_assoc] at ih

end Fields

section Adding
variable {type : ℕ} {transactionId bytes : Bytes} {attrs : List NewAttribute}

theorem withAttributes_header : (withAttributes type transactionId attrs).type = type ∧
    (withAttributes type transactionId attrs).transactionId = transactionId := by
  induction attrs using List.reverseRecOn with
  | nil => exact ⟨rfl, rfl⟩
  | append_singleton attrs attr ih =>
    rw [withAttributes, List.foldl_append]
    exact ih

theorem withAttributes_attrs : (withAttributes type transactionId attrs).attrs = attrs.map NewAttribute.build := by
  induction attrs using List.reverseRecOn with
  | nil => rfl
  | append_singleton attrs attr ih =>
    rw [List.map_append, ← ih, withAttributes, List.foldl_append]
    rfl

theorem writeAttributes_cons {attr : StunAttribute} {attrs : List StunAttribute} {body : Bytes}
    (h : writeAttributes (attr :: attrs) = some body) : ∃ value rest, attr.write = some value ∧
      writeAttributes attrs = some rest ∧ body = toBE 2 attr.type ++ (toBE 2 attr.length ++ (value ++ rest)) := by
  simp only [writeAttributes, Option.bind_eq_bind, Option.bind_eq_some_iff, Option.some.injEq] at h
  obtain ⟨value, hvalue, rest, hrest, hbody⟩ := h
  exact ⟨value, rest, hvalue, hrest, hbody.symm⟩

/-- Attributes that are written within sixteen bits are padded values. -/
theorem renders_written {body : Bytes} (h : writeAttributes (attrs.map NewAttribute.build) = some body)
    (hlt : body.length < 65536) : ∃ ts, List.Forall₂ Renders (attrs.map NewAttribute.build) ts := by
  induction attrs generalizing body with
  | nil => exact ⟨[], .nil⟩
  | cons attr attrs ih =>
    obtain ⟨value, rest, hvalue, hrest, rfl⟩ := writeAttributes_cons h
    simp only [List.length_append, toBE_length] at hlt
    obtain ⟨t, ht⟩ := attr.renders hvalue (by omega)
    obtain ⟨ts, hts⟩ := ih hrest (by omega)
    exact ⟨t :: ts, .cons ht hts⟩

/-- The length field adds up, in sixteen bits. -/
theorem holds_added {ts : List Tlv} (h : List.Forall₂ Renders (attrs.map NewAttribute.build) ts) :
    Holds (withAttributes type transactionId attrs) ts := by
  induction attrs using List.reverseRecOn generalizing ts with
  | nil =>
    cases h
    exact ⟨.nil, rfl⟩
  | append_singleton attrs attr ih =>
    rw [List.map_append] at h
    have hlen := h.length_eq
    obtain ⟨us, t, rfl⟩ : ∃ us t, ts = us ++ [t] := by
      rcases List.eq_nil_or_concat' ts with rfl | ⟨us, t, rfl⟩
      · simp at hlen
      · exact ⟨us, t, rfl⟩
    have hsize : (attrs.map NewAttribute.build).length = us.length := by simpa using hlen
    have htake := List.forall₂_take (attrs.map NewAttribute.build).length h
    have hdrop := List.forall₂_drop (attrs.map NewAttribute.build).length h
    rw [List.take_left, hsize, List.take_left] at htake
    rw [List.drop_left, hsize, List.drop_left] at hdrop
    cases hdrop with
    | cons hr _ =>
      rw [withAttributes, List.foldl_append]
      exact (ih htake).addAttribute hr

/-- A message that can be written within sixteen bits. -/
structure Written (type : ℕ) (transactionId : Bytes) (attrs : List NewAttribute) (bytes : Bytes) : Prop where
  id_length : transactionId.length = stunTransactionIdLength
  write_eq : (withAttributes type transactionId attrs).write = some bytes
  size_le : bytes.length ≤ stunHeaderSize + 65535

theorem writeHeader_length {msg : StunMessage} (h : msg.transactionId.length = stunTransactionIdLength) :
    msg.writeHeader.length = stunHeaderSize := by
  simp [StunMessage.writeHeader, h, stunHeaderSize, stunTransactionIdLength]

theorem Written.holds (h : Written type transactionId attrs bytes) :
    ∃ ts, List.Forall₂ Renders (attrs.map NewAttribute.build) ts ∧ Holds (withAttributes type transactionId attrs) ts ∧
      bytes = (withAttributes type transactionId attrs).writeHeader ++ encodeAll ts ∧
      bytes.length = stunHeaderSize + (encodeAll ts).length := by
  have hwrite := h.write_eq
  have hhead := writeHeader_length (withAttributes_header.2 ▸ h.id_length :
    (withAttributes type transactionId attrs).transactionId.length = stunTransactionIdLength)
  rw [StunMessage.write, Option.map_eq_some_iff] at hwrite
  obtain ⟨body, hbody, heq⟩ := hwrite
  have hsize := h.size_le
  rw [← heq, List.length_append, hhead] at hsize
  rw [withAttributes_attrs] at hbody
  obtain ⟨ts, hts⟩ := renders_written hbody (by omega)
  rw [writeAttributes_eq hts, Option.some.injEq] at hbody
  subst hbody
  refine ⟨ts, hts, holds_added hts, heq.symm, ?_⟩
  rw [← heq, List.length_append, hhead]

/-- The length field of a message counts the bytes of its body, in fours. -/
theorem Written.length_eq (h : Written type transactionId attrs bytes) :
    (withAttributes type transactionId attrs).length + stunHeaderSize = bytes.length ∧
      (withAttributes type transactionId attrs).length % 4 = 0 := by
  obtain ⟨ts, -, hholds, -, hlen⟩ := h.holds
  have hsize := h.size_le
  have hmod := encodeAll_length_mod ts
  rw [hholds.length_eq, Nat.mod_eq_of_lt (by omega)]
  omega

end Adding

section Checksum
variable {msg : StunMessage} {ts : List Tlv}

theorem addFingerprint_header (h : Holds msg ts) : msg.addFingerprint.2.writeHeader = msg.forCrc32.writeHeader := by
  rw [h.addFingerprint_eq]
  rfl

theorem xor_fingerprint (crc : UInt32) :
    (crc ^^^ UInt32.ofNat stunFingerprintXorValue).toNat ^^^ stunFingerprintXorValue = crc.toNat := by
  have hvalue : (UInt32.ofNat stunFingerprintXorValue).toNat = stunFingerprintXorValue := by decide
  rw [UInt32.toNat_xor, hvalue, Nat.xor_assoc, Nat.xor_self, Nat.xor_zero]

/-- The cookie stands behind type and length. -/
theorem getBE32_header (msg : StunMessage) (rest : Bytes) : getBE32 (msg.writeHeader ++ rest) 4 = stunMagicCookie := by
  have h := getBE32_append (by decide : stunMagicCookie < 256^4) (toBE 2 msg.type ++ toBE 2 msg.length)
    (msg.transactionId ++ rest)
  rw [List.length_append, toBE_length, toBE_length] at h
  rw [StunMessage.writeHeader, List.append_assoc, List.append_assoc, List.append_assoc]
  rwa [List.append_assoc] at h

theorem getBE16_header {msg : StunMessage} (h : msg.length < 65536) (rest : Bytes) :
    getBE16 (msg.writeHeader ++ rest) 2 = msg.length := by
  have hfield := getBE16_append h (toBE 2 msg.type) (toBE 4 stunMagicCookie ++ (msg.transactionId ++ rest))
  rw [toBE_length] at hfield
  rwa [StunMessage.writeHeader, List.append_assoc, List.append_assoc, List.append_assoc]

/-- A checksum that is added last is found valid. -/
theorem validateFingerprint_added (h : Holds msg ts)
    (hid : msg.addFingerprint.2.transactionId.length = stunTransactionIdLength) :
    validateFingerprint (msg.addFingerprint.2.writeHeader ++ encodeAll (ts ++ [fingerprintTlv (msg.checksum ts)])) =
      true := by
  have hhead := addFingerprint_header h
  have hlen : msg.addFingerprint.2.writeHeader.length = stunHeaderSize := writeHeader_length hid
  have hmod := encodeAll_length_mod ts
  have hfp : (fingerprintTlv (msg.checksum ts)).encode.length = 8 := fingerprintTlv_length _
  have hcookie := getBE32_header msg.addFingerprint.2 (encodeAll ts ++ (fingerprintTlv (msg.checksum ts)).encode)
  rw [encodeAll_append, encodeAll_singleton]
  rw [← List.append_assoc] at hcookie ⊢
  generalize hpre : msg.addFingerprint.2.writeHeader ++ encodeAll ts = pre at hcookie ⊢
  have hprelen : pre.length = stunHeaderSize + (encodeAll ts).length := by
    rw [← hpre, List.length_append, hlen]
  have hcrc : computeCrc32 pre ^^^ UInt32.ofNat stunFingerprintXorValue = msg.checksum ts := by
    rw [StunMessage.checksum, ← hhead, hpre]
  have htotal : (pre ++ (fingerprintTlv (msg.checksum ts)).encode).length - 8 = pre.length := by
    rw [List.length_append, hfp]
    omega
  have htype := getBE16_type pre (fingerprintTlv (msg.checksum ts)) []
  have hsize := getBE16_length pre (fingerprintTlv (msg.checksum ts)) []
  have hvalue := getBE32_append (msg.checksum ts).toNat_lt (pre ++ (toBE 2 stunAttrFingerprint ++ toBE 2 4)) []
  rw [List.append_nil] at htype hsize hvalue
  have hbytes : pre ++ (toBE 2 stunAttrFingerprint ++ toBE 2 4) ++ toBE 4 (msg.checksum ts).toNat =
      pre ++ (fingerprintTlv (msg.checksum ts)).encode := by
    simp [fingerprintTlv, wordTlv, Tlv.encode]
  have hpos : (pre ++ (toBE 2 stunAttrFingerprint ++ toBE 2 4)).length = pre.length + 4 := by simp
  rw [hbytes, hpos] at hvalue
  have hfour : (fingerprintTlv (msg.checksum ts)).value.length = 4 := toBE_length 4 _
  rw [validateFingerprint, if_neg, if_neg (not_not_intro hcookie), htotal, if_neg, hvalue, List.take_left, ← hcrc,
    xor_fingerprint]
  · exact decide_eq_true rfl
  · rw [htype, hsize, hfour]
    exact fun h => h.elim (fun h => h rfl) (fun h => h rfl)
  · rw [List.length_append, hfp, hprelen]
    simp only [stunHeaderSize]
    omega

end Checksum

section Integrity
variable {hmac : Bytes → Bytes → Bytes} {beyond : ℕ → UInt8} {msg : StunMessage} {password : Bytes} {ts : List Tlv}

theorem addMessageIntegrity_header (h : Holds msg ts) :
    (msg.addMessageIntegrity hmac password).2.writeHeader = msg.forHmac.writeHeader ∧
      (msg.addMessageIntegrity hmac password).2.type = msg.type ∧
      (msg.addMessageIntegrity hmac password).2.transactionId = msg.transactionId := by
  rw [h.addMessageIntegrity_eq]
  split <;> exact ⟨rfl, rfl, rfl⟩

theorem storedAttribute_type {t : Tlv} {attr : StunAttribute} (h : storedAttribute t = some attr) :
    attr.type = t.type := by
  rw [storedAttribute] at h
  split at h
  · rw [← Option.some.inj h]
  · rw [← Option.some.inj h]
  · cases h

/-- The digest is the first stored attribute of its type. -/
theorem find_integrity (hmi : ∀ t ∈ ts, t.type ≠ stunAttrMessageIntegrity) (digest : Bytes) (us : List Tlv) :
    ((ts ++ [integrityTlv digest] ++ us).filterMap storedAttribute).find? (fun attr =>
      attr.type = stunAttrMessageIntegrity) =
        some ⟨stunAttrMessageIntegrity, (integrityTlv digest).value.length, .byteString (integrityTlv digest).value⟩ := by
  have hstored : storedAttribute (integrityTlv digest) =
      some ⟨stunAttrMessageIntegrity, (integrityTlv digest).value.length, .byteString (integrityTlv digest).value⟩ := rfl
  have hnone : (ts.filterMap storedAttribute).find? (fun attr => attr.type = stunAttrMessageIntegrity) = none := by
    rw [List.find?_eq_none]
    intro attr hattr
    obtain ⟨t, ht, hs⟩ := List.mem_filterMap.mp hattr
    simpa [storedAttribute_type hs] using hmi t ht
  rw [List.append_assoc, List.filterMap_append, List.find?_append, hnone, List.singleton_append, List.filterMap_cons,
    hstored]
  simp

/-- The bytes that the digest covers, from the bytes of the whole message. -/
theorem prefixEndingAt_written {msg' : StunMessage} (htype : msg'.type = msg.type)
    (hid : msg'.transactionId = msg.transactionId) (hlen : msg.transactionId.length = stunTransactionIdLength)
    (rest : Bytes) (hforHmac : msg.forHmac.length = (encodeAll ts).length + 24) :
    prefixEndingAt (msg'.writeHeader ++ (encodeAll ts ++ rest)) (stunHeaderSize + (encodeAll ts).length) =
      msg.forHmac.writeHeader ++ encodeAll ts := by
  have hhead : msg'.writeHeader.length = stunHeaderSize := writeHeader_length (hid ▸ hlen)
  have hfront : (msg'.writeHeader ++ (encodeAll ts ++ rest)).take (stunHeaderSize + (encodeAll ts).length) =
      msg'.writeHeader ++ encodeAll ts := by
    rw [← hhead, ← List.length_append, ← List.append_assoc, List.take_left]
  have htwo : (msg'.writeHeader ++ (encodeAll ts ++ rest)).take 2 = toBE 2 msg'.type := by
    rw [StunMessage.writeHeader, List.append_assoc]
    have htake := @List.take_left _ (toBE 2 msg'.type) (toBE 2 msg'.length ++ (toBE 4 stunMagicCookie ++
      msg'.transactionId) ++ (encodeAll ts ++ rest))
    rwa [toBE_length] at htake
  have hdrop : (msg'.writeHeader ++ encodeAll ts).drop 4 =
      toBE 4 stunMagicCookie ++ (msg'.transactionId ++ encodeAll ts) := by
    have hdrop := @List.drop_left _ (toBE 2 msg'.type ++ toBE 2 msg'.length)
      (toBE 4 stunMagicCookie ++ (msg'.transactionId ++ encodeAll ts))
    rw [List.length_append, toBE_length, toBE_length] at hdrop
    simpa [StunMessage.writeHeader] using hdrop
  have hfield : stunHeaderSize + (encodeAll ts).length + 4 = msg.forHmac.length := by
    rw [hforHmac, stunHeaderSize]
    omega
  have hsame : msg.forHmac.type = msg.type ∧ msg.forHmac.transactionId = msg.transactionId := ⟨rfl, rfl⟩
  rw [prefixEndingAt, hfront, htwo, hdrop, hfield, StunMessage.writeHeader, hsame.1, hsame.2, htype, hid]
  simp

/-- The digest's attribute is behind the attributes that were there before. -/
theorem encodeAll_signed (ts us : List Tlv) (digest : Bytes) :
    encodeAll (ts ++ [integrityTlv digest] ++ us) = encodeAll ts ++ ((integrityTlv digest).encode ++ encodeAll us) := by
  rw [encodeAll_append, encodeAll_append, encodeAll_singleton, List.append_assoc]

/-- The digest stands in the message behind the header of its attribute. -/
theorem digest_written {head digest : Bytes} (hhead : head.length = stunHeaderSize)
    (hdigest : digest.length = stunMessageIntegritySize) (us : List Tlv) :
    ((head ++ encodeAll (ts ++ [integrityTlv digest] ++ us)).drop
      (stunHeaderSize + (encodeAll ts).length + stunAttributeHeaderSize)).take stunMessageIntegritySize = digest := by
  have hvalue := integrityTlv_value hdigest
  have hfront : (head ++ (encodeAll ts ++ (toBE 2 stunAttrMessageIntegrity ++
      toBE 2 (integrityTlv digest).value.length))).length =
        stunHeaderSize + (encodeAll ts).length + stunAttributeHeaderSize := by
    simp [hhead, stunAttributeHeaderSize]
    omega
  have hsplit : head ++ encodeAll (ts ++ [integrityTlv digest] ++ us) =
      (head ++ (encodeAll ts ++ (toBE 2 stunAttrMessageIntegrity ++ toBE 2 (integrityTlv digest).value.length))) ++
        ((integrityTlv digest).value ++ ((integrityTlv digest).padding ++ encodeAll us)) := by
    rw [encodeAll_signed, encode_append]
    simp [stringTlv]
  rw [hsplit, ← hfront, List.drop_left, hvalue, ← hdigest, List.take_left]

/-- What digest and checksum ask of a message and of the attributes it has. -/
structure Protectable (hmac : Bytes → Bytes → Bytes) (msg : StunMessage) (password : Bytes) (ts : List Tlv) : Prop where
  holds : Holds msg ts
  type_lt : msg.type < 65536
  type_bit : msg.type &&& 0x0800 = 0
  id_length : msg.transactionId.length = stunTransactionIdLength
  no_integrity : ∀ t ∈ ts, t.type ≠ stunAttrMessageIntegrity
  priority : ∀ t ∈ ts, t.type = stunAttrPriority → t.value.length = 4
  room : (encodeAll ts).length + 32 ≤ 65535
  digest_length : (hmac password (msg.forHmac.writeHeader ++ encodeAll ts)).length = stunMessageIntegritySize

variable (hp : Protectable hmac msg password ts)

/-- The digest of a message. -/
def StunMessage.digest (hmac : Bytes → Bytes → Bytes) (msg : StunMessage) (password : Bytes) (ts : List Tlv) : Bytes :=
  hmac password (msg.forHmac.writeHeader ++ encodeAll ts)

include hp

theorem Protectable.forHmac_length : msg.forHmac.length = (encodeAll ts).length + 24 := by
  have hadded : Holds msg.forHmac (ts ++ [integrityTlv (List.replicate stunMessageIntegritySize 48)]) :=
    hp.holds.addAttribute (renders_byteString (by decide) _)
  have hroom := hp.room
  rw [hadded.length_eq, encodeAll_append, encodeAll_singleton, List.length_append,
    integrityTlv_length List.length_replicate]
  simp only [stunAttributeHeaderSize, stunMessageIntegritySize]
  omega

/-- The digest is found at its place and compared with the same digest. -/
theorem Protectable.validate_written {msg' : StunMessage} (htype : msg'.type = msg.type)
    (hid : msg'.transactionId = msg.transactionId) {us : List Tlv}
    (hlen : msg'.length = (encodeAll (ts ++ [integrityTlv (msg.digest hmac password ts)] ++ us)).length)
    (hlt : msg'.length < 65536) :
    validateMessageIntegrityOfType hmac beyond stunAttrMessageIntegrity stunMessageIntegritySize
      (msg'.writeHeader ++ encodeAll (ts ++ [integrityTlv (msg.digest hmac password ts)] ++ us)) password = true := by
  have hdigest : (msg.digest hmac password ts).length = stunMessageIntegritySize := hp.digest_length
  generalize hd : msg.digest hmac password ts = digest at hlen hdigest ⊢
  have hhead : msg'.writeHeader.length = stunHeaderSize := writeHeader_length (hid ▸ hp.id_length)
  have hmod := encodeAll_length_mod (ts ++ [integrityTlv digest] ++ us)
  have hfield := getBE16_header hlt (encodeAll (ts ++ [integrityTlv digest] ++ us))
  have hwalk := walkFinds_append hp.no_integrity msg'.writeHeader
    (rfl : (integrityTlv digest).type = stunAttrMessageIntegrity) (encodeAll us)
  have hprefix := prefixEndingAt_written htype hid hp.id_length ((integrityTlv digest).encode ++ encodeAll us)
    hp.forHmac_length
  rw [← encodeAll_signed] at hwalk hprefix
  rw [hhead] at hwalk
  have htotal : (msg'.writeHeader ++ encodeAll (ts ++ [integrityTlv digest] ++ us)).length =
      stunHeaderSize + msg'.length := by
    rw [List.length_append, hhead, hlen]
  have hinside : stunHeaderSize + (encodeAll ts).length + 24 ≤
      (msg'.writeHeader ++ encodeAll (ts ++ [integrityTlv digest] ++ us)).length := by
    have henc : (integrityTlv digest).encode.length = 24 := integrityTlv_length hdigest
    rw [htotal, hlen, encodeAll_signed, List.length_append, List.length_append]
    omega
  have hmem : ((msg'.writeHeader ++ encodeAll (ts ++ [integrityTlv digest] ++ us)).drop _).take _ = digest :=
    digest_written hhead hdigest us
  have hfuel (data : Bytes) : data.length < stunHeaderSize + 4 + data.length := by omega
  have hfind := (findAttribute_eq_some (hfuel _)).mpr hwalk
  have hhash := hashInput_inside (Nat.le_add_right _ _) hinside (by rw [hfield, htotal]; omega)
  rw [validateMessageIntegrityOfType, if_neg (by rw [htotal, hlen]; simp only [stunHeaderSize]; omega),
    if_neg (by rw [hfield, htotal]; omega), hfind]
  simp only [hhash, hprefix, if_neg (not_not_intro hp.digest_length)]
  refine decide_eq_true ?_
  rw [readMemory_inside (by simpa only [stunAttributeHeaderSize, stunMessageIntegritySize] using hinside), hmem]
  exact hd.symm

/-- What is protected passes both validations. -/
theorem Protectable.protected (beyond : ℕ → UInt8) : Protected hmac beyond msg password := by
  have hdigest : (msg.digest hmac password ts).length = stunMessageIntegritySize := hp.digest_length
  have hsigned : Holds (msg.addMessageIntegrity hmac password).2 (ts ++ [integrityTlv (msg.digest hmac password ts)]) :=
    hp.holds.addMessageIntegrity hp.digest_length
  obtain ⟨-, htype, hid⟩ := @addMessageIntegrity_header hmac msg password ts hp.holds
  have heq := hsigned.addFingerprint_eq
  have htype' : (msg.protect hmac password).type = msg.type := by
    rw [StunMessage.protect, heq]
    exact htype
  have hid' : (msg.protect hmac password).transactionId = msg.transactionId := by
    rw [StunMessage.protect, heq]
    exact hid
  have hvalid (us : List Tlv) := @Protectable.validate_written hmac beyond msg password ts hp
    (msg.protect hmac password) htype' hid' us
  have hholds : Holds (msg.protect hmac password) _ := hsigned.addFingerprint
  have hfingerprint : validateFingerprint ((msg.protect hmac password).writeHeader ++ _) = true :=
    validateFingerprint_added hsigned (show (msg.protect hmac password).transactionId.length = _ from
      hid' ▸ hp.id_length)
  generalize msg.digest hmac password ts = digest at hdigest hsigned hholds hfingerprint hvalid
  generalize (msg.addMessageIntegrity hmac password).2.checksum (ts ++ [integrityTlv digest]) = checksum
    at hholds hfingerprint
  have hroom := hp.room
  have hsize : (encodeAll (ts ++ [integrityTlv digest] ++ [fingerprintTlv checksum])).length =
      (encodeAll ts).length + 32 := by
    have henc : (integrityTlv digest).encode.length = 24 := integrityTlv_length hdigest
    have hfp : (fingerprintTlv checksum).encode.length = 8 := fingerprintTlv_length checksum
    rw [encodeAll_signed, encodeAll_singleton, List.length_append, List.length_append, henc, hfp]
  have hlen : (msg.protect hmac password).length =
      (encodeAll (ts ++ [integrityTlv digest] ++ [fingerprintTlv checksum])).length := by
    rw [hholds.length_eq]
    exact Nat.mod_eq_of_lt (by omega)
  have hpri : ∀ t ∈ ts ++ [integrityTlv digest] ++ [fingerprintTlv checksum],
      t.type = stunAttrPriority → t.value.length = 4 := by
    intro t ht htype
    rcases List.mem_append.mp ht with ht | ht
    · rcases List.mem_append.mp ht with ht | ht
      · exact hp.priority t ht htype
      · rw [List.mem_singleton.mp ht] at htype
        cases htype
    · rw [List.mem_singleton.mp ht] at htype
      cases htype
  have hread := read_written (htype' ▸ hp.type_lt) (htype' ▸ hp.type_bit) (hid' ▸ hp.id_length) hlen (by omega) hpri
  refine ⟨_, _, hholds.write, hfingerprint, hread, ?_⟩
  have hfind := find_integrity hp.no_integrity digest [fingerprintTlv checksum]
  rw [StunMessage.validateMessageIntegrity, StunMessage.getByteString, StunMessage.getAttribute, hfind]
  exact (if_pos rfl).trans (if_pos (hvalid _ hlen (by omega)))

end Integrity

/-- The type is one that the reader accepts, the added attributes are what the reader takes
attributes of their types for, and the digest is still to come. -/
structure Readable (type : ℕ) (attrs : List NewAttribute) : Prop where
  type_lt : type < 65536
  type_bit : type &&& 0x0800 = 0
  no_integrity : ∀ attr ∈ attrs, attr.build.type ≠ stunAttrMessageIntegrity
  priority : ∀ attr ∈ attrs, attr.build.type = stunAttrPriority → attr.build.length = 4

theorem forall_of_renders {P : ℕ → ℕ → Prop} {attrs : List StunAttribute} {ts : List Tlv}
    (h : List.Forall₂ Renders attrs ts) (hall : ∀ attr ∈ attrs, P attr.type attr.length) :
    ∀ t ∈ ts, P t.type t.value.length := by
  induction h with
  | nil => simp
  | cons hr _ ih =>
    obtain ⟨hfirst, hrest⟩ := List.forall_mem_cons.mp hall
    rw [hr.type_eq, hr.length_eq] at hfirst
    exact List.forall_mem_cons.mpr ⟨hfirst, ih hrest⟩

/-- The length field of a message is right whatever is added, and a digest and a checksum
that are added last are found valid, by a reader with the same password. -/
theorem length_and_protection (hmac : Bytes → Bytes → Bytes) (beyond : ℕ → UInt8)
    (hhmac : ∀ password data, (hmac password data).length = stunMessageIntegritySize) {type : ℕ}
    {transactionId bytes : Bytes} {attrs : List NewAttribute} (h : Written type transactionId attrs bytes) :
    ((withAttributes type transactionId attrs).length + stunHeaderSize = bytes.length ∧
      (withAttributes type transactionId attrs).length % 4 = 0) ∧
    (Readable type attrs → bytes.length + 32 ≤ stunHeaderSize + 65535 →
      ∀ password, Protected hmac beyond (withAttributes type transactionId attrs) password) := by
  refine ⟨h.length_eq, fun hread hroom password => ?_⟩
  obtain ⟨ts, hts, hholds, -, hlen⟩ := h.holds
  obtain ⟨htype, hid⟩ := @withAttributes_header type transactionId attrs
  have hno : ∀ t ∈ ts, t.type ≠ stunAttrMessageIntegrity := by
    refine forall_of_renders (P := fun type _ => type ≠ stunAttrMessageIntegrity) hts ?_
    exact List.forall_mem_map.mpr hread.no_integrity
  have hpri : ∀ t ∈ ts, t.type = stunAttrPriority → t.value.length = 4 := by
    refine forall_of_renders (P := fun type length => type = stunAttrPriority → length = 4) hts ?_
    exact List.forall_mem_map.mpr hread.priority
  have hprotectable : Protectable hmac (withAttributes type transactionId attrs) password ts :=
    ⟨hholds, by rw [htype]; exact hread.type_lt, by rw [htype]; exact hread.type_bit, by rw [hid]; exact h.id_length,
      hno, hpri, by omega, hhmac _ _⟩
  exact hprotectable.protected beyond

section Examples

def exampleId : Bytes := [1, 2, 3, 4, 5, 6, 7, 8, 9, 10, 11, 12]

/-- A digest function, for examples. -/
def constantHmac : Bytes → Bytes → Bytes := fun _ _ => List.replicate stunMessageIntegritySize 0

/-- What a connectivity check has before its digest. -/
def checkAttributes : List NewAttribute :=
  [.byteString 0x0006 [97, 58, 98], .uint64 0x8029 5, .byteString 0x0025 [], .uint32 0x0024 1845501695]

theorem check_protected : (withAttributes stunBindingRequest exampleId checkAttributes).length = 32 ∧
    Protected constantHmac (fun _ => 0) (withAttributes stunBindingRequest exampleId checkAttributes) [112, 119] := by
  have hwritten : Written stunBindingRequest exampleId checkAttributes _ := ⟨rfl, rfl, by decide⟩
  obtain ⟨⟨hlen, -⟩, hprotected⟩ :=
    length_and_protection constantHmac (fun _ => 0) (fun _ _ => List.length_replicate) hwritten
  exact ⟨Nat.add_right_cancel (hlen.trans (by decide)),
    hprotected ⟨by decide, by decide, by decide, by decide⟩ (by decide) _⟩

/-- An IPv6 address is not written, eight bytes of a priority are not read, and a digest that
was added before is compared instead. -/
theorem not_every_sequence_protected :
    (withAttributes stunBindingResponse exampleId
      [.xorAddress 0x0020 ⟨.v6 ⟨List.replicate 16 0, rfl⟩, 7⟩]).write = none ∧
    ¬ Protected constantHmac (fun _ => 0) (withAttributes stunBindingRequest exampleId
      [.byteString 0x0024 [0, 0, 0, 1, 0, 0, 255, 0]]) [] ∧
    ¬ Protected constantHmac (fun _ => 0) (withAttributes stunBindingRequest exampleId
      [.byteString 0x0008 (List.replicate 20 1)]) [] := by
  refine ⟨rfl, ?_, ?_⟩
  · rintro ⟨bytes, msg', hwrite, -, hread, -⟩
    have hnone : (((withAttributes stunBindingRequest exampleId
        [.byteString 0x0024 [0, 0, 0, 1, 0, 0, 255, 0]]).protect constantHmac []).write.bind
          StunMessage.read).isNone = true := by decide +kernel
    rw [hwrite, Option.bind_some, hread] at hnone
    cases hnone
  · rintro ⟨bytes, msg', hwrite, -, hread, hok⟩
    have hbad : ((((withAttributes stunBindingRequest exampleId
        [.byteString 0x0008 (List.replicate 20 1)]).protect constantHmac []).write.bind StunMessage.read).any
          fun msg => msg.validateMessageIntegrity constantHmac (fun _ => 0) [] = .integrityOk) = false := by
      decide +kernel
    rw [hwrite, Option.bind_some, hread, Option.any_some, hok] at hbad
    cases hbad

end Examples

end Stun
end XrtcServer
