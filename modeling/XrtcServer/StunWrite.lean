import Mathlib.Data.List.Forall2
import XrtcServer.StunIntegrity

/-! How STUN messages are put together and written: attributes are added one by one, the
length field is kept along the way, and digest and checksum are taken of what is written
so far. -/
namespace XrtcServer
namespace Stun
open ByteFormat

def stunAddressIpv4 : ℕ := 1
def stunAddressIpv6 : ℕ := 2

def writePadding (length : ℕ) : Bytes := if 0 < length % 4 then List.replicate (4 - length % 4) 0 else []

/-- The family, the port and the address. No result stands for `false`. -/
def writeAddress (ip : IpAddress) (port : UInt16) : Option Bytes :=
  match ip with
  | .unspecified => none
  | .v4 addr => some ([0, UInt8.ofNat stunAddressIpv4] ++ toBE 2 port.toNat ++ toBE 4 addr.toNat)
  | .v6 addr => some ([0, UInt8.ofNat stunAddressIpv6] ++ toBE 2 port.toNat ++ addr.1)

/-- Only an IPv4 address is combined with the cookie. -/
def getXoredIp (ip : IpAddress) : IpAddress :=
  match ip with
  | .v4 addr => .v4 (addr ^^^ UInt32.ofNat stunMagicCookie)
  | .v6 _ => .unspecified
  | .unspecified => .unspecified

def StunAttribute.write (attr : StunAttribute) : Option Bytes :=
  match attr.value with
  | .byteString bytes => some (bytes.take attr.length ++ writePadding attr.length)
  | .uint32 bits => some (toBE 4 bits)
  | .uint64 bits => some (toBE 8 bits)
  | .errorCode cls number reason => some (toBE 4 (cls <<< 8 ||| number) ++ reason ++ writePadding attr.length)
  | .address addr => writeAddress addr.ip addr.port
  | .xorAddress addr => writeAddress (getXoredIp addr.ip) (addr.port ^^^ UInt16.ofNat (stunMagicCookie >>> 16))

def writeAttributes : List StunAttribute → Option Bytes
  | [] => some []
  | attr :: attrs => do
    let value ← attr.write
    let rest ← writeAttributes attrs
    some (toBE 2 attr.type ++ (toBE 2 attr.length ++ (value ++ rest)))

namespace StunMessage

def writeHeader (msg : StunMessage) : Bytes :=
  toBE 2 msg.type ++ (toBE 2 msg.length ++ (toBE 4 stunMagicCookie ++ msg.transactionId))

def write (msg : StunMessage) : Option Bytes := (writeAttributes msg.attrs).map (msg.writeHeader ++ ·)

/-- The length has sixteen bits. -/
def addAttribute (msg : StunMessage) (attr : StunAttribute) : StunMessage :=
  let attrLen := if attr.length % 4 ≠ 0 then attr.length + (4 - attr.length % 4) else attr.length
  { msg with length := (msg.length + (attrLen + stunAttributeHeaderSize)) % 65536, attrs := msg.attrs ++ [attr] }

end StunMessage

/-- An attribute of a byte string. Bytes that the sixteen bits of the length cannot reach
are never read. -/
def byteStringAttribute (type : ℕ) (str : Bytes) : StunAttribute :=
  ⟨type, str.length % 65536, .byteString (str.take (str.length % 65536))⟩

def uint32Attribute (type : ℕ) (value : UInt32) : StunAttribute := ⟨type, 4, .uint32 value.toNat⟩

def uint64Attribute (type : ℕ) (value : UInt64) : StunAttribute := ⟨type, 8, .uint64 value.toNat⟩

def addressSize (ip : IpAddress) : ℕ :=
  match ip with
  | .unspecified => 0
  | .v4 _ => 8
  | .v6 _ => 20

def addressAttribute (type : ℕ) (addr : SocketAddress) : StunAttribute := ⟨type, addressSize addr.ip, .address addr⟩

def xorAddressAttribute (type : ℕ) (addr : SocketAddress) : StunAttribute :=
  ⟨type, addressSize addr.ip, .xorAddress addr⟩

/-- An error attribute whose code and reason are set. Class and number have eight bits. -/
def errorCodeAttribute (code : ℕ) (reason : Bytes) : StunAttribute :=
  ⟨stunAttrErrorCode, (4 + reason.length) % 65536, .errorCode (code / 100 % 256) (code % 100) reason⟩

/-- The attributes that can be constructed, of any type. -/
inductive NewAttribute
  | byteString (type : UInt16) (str : Bytes)
  | uint32 (type : UInt16) (value : UInt32)
  | uint64 (type : UInt16) (value : UInt64)
  | address (type : UInt16) (addr : SocketAddress)
  | xorAddress (type : UInt16) (addr : SocketAddress)
  | errorCode (code : ℕ) (reason : Bytes)

def NewAttribute.build : NewAttribute → StunAttribute
  | byteString type str => byteStringAttribute type.toNat str
  | uint32 type value => uint32Attribute type.toNat value
  | uint64 type value => uint64Attribute type.toNat value
  | address type addr => addressAttribute type.toNat addr
  | xorAddress type addr => xorAddressAttribute type.toNat addr
  | errorCode code reason => errorCodeAttribute code reason

section Digest
variable (hmac : Bytes → Bytes → Bytes)

namespace StunMessage

/-- The digest takes the place of a row of '0's. -/
def addMessageIntegrity (msg : StunMessage) (password : Bytes) : Bool × StunMessage :=
  let added := msg.addAttribute (byteStringAttribute stunAttrMessageIntegrity
    (List.replicate stunMessageIntegritySize 48))
  match added.write with
  | none => (false, added)
  | some buf =>
    let msgLenForHmac := buf.length - stunAttributeHeaderSize - stunMessageIntegritySize
    let digest := hmac password (buf.take msgLenForHmac)
    if digest.length ≠ stunMessageIntegritySize then (false, added)
    else (true, { added with attrs := msg.attrs ++ [byteStringAttribute stunAttrMessageIntegrity digest] })

def addFingerprint (msg : StunMessage) : Bool × StunMessage :=
  let added := msg.addAttribute (uint32Attribute stunAttrFingerprint 0)
  match added.write with
  | none => (false, added)
  | some buf =>
    let msgLenForCrc32 := buf.length - stunAttributeHeaderSize - 4
    let crc32 := computeCrc32 (buf.take msgLenForCrc32)
    (true, { added with attrs := msg.attrs ++
      [uint32Attribute stunAttrFingerprint (crc32 ^^^ UInt32.ofNat stunFingerprintXorValue)] })

end StunMessage

end Digest

/-- An attribute that is written as a padded value behind its type and length. -/
structure Renders (attr : StunAttribute) (t : Tlv) : Prop where
  type_eq : attr.type = t.type
  length_eq : attr.length = t.value.length
  write_eq : attr.write = some (t.value ++ t.padding)

/-- The attributes of a message, and its length as far as sixteen bits can hold it. -/
structure Holds (msg : StunMessage) (ts : List Tlv) : Prop where
  attrs : List.Forall₂ Renders msg.attrs ts
  length_eq : msg.length = (encodeAll ts).length % 65536

section Rendering

theorem writePadding_eq (n : ℕ) : writePadding n = List.replicate (padLength n) 0 := by
  rw [writePadding, padLength]
  by_cases h : n % 4 = 0
  · rw [if_neg (by omega), if_pos h]
    rfl
  · rw [if_pos (by omega), if_neg h]

@[simp] theorem writePadding_length (n : ℕ) : (writePadding n).length = padLength n := by
  rw [writePadding_eq, List.length_replicate]

theorem padLength_of_mod {n : ℕ} (h : n % 4 = 0) : padLength n = 0 := if_pos h

theorem encode_length (t : Tlv) : t.encode.length = 4 + (t.value.length + padLength t.value.length) := by
  rw [Tlv.encode, List.length_append, List.length_append, List.length_append, toBE_length, toBE_length, t.padded]
  omega

/-- A byte string of at most sixteen bits' length. -/
def stringTlv (type : ℕ) (h : type < 65536) (str : Bytes) : Tlv where
  type := type
  value := str.take (str.length % 65536)
  padding := writePadding (str.length % 65536)
  typeBound := h
  lengthBound := by
    rw [List.length_take]
    omega
  padded := by
    rw [writePadding_length, List.length_take, Nat.min_eq_left (Nat.mod_le _ _)]

theorem renders_byteString {type : ℕ} (h : type < 65536) (str : Bytes) :
    Renders (byteStringAttribute type str) (stringTlv type h str) where
  type_eq := rfl
  length_eq := by
    rw [stringTlv, List.length_take, Nat.min_eq_left (Nat.mod_le _ _)]
    rfl
  write_eq := by
    rw [StunAttribute.write, byteStringAttribute, stringTlv]
    simp only [List.take_take, Nat.min_self]

/-- A value that needs no padding. -/
def wordTlv (type : ℕ) (h : type < 65536) (value : Bytes) (hlt : value.length < 65536) (hmod : value.length % 4 = 0) :
    Tlv where
  type := type
  value := value
  padding := []
  typeBound := h
  lengthBound := hlt
  padded := (padLength_of_mod hmod).symm

theorem renders_uint32 {type : ℕ} (h : type < 65536) (value : UInt32) :
    Renders (uint32Attribute type value) (wordTlv type h (toBE 4 value.toNat) (by simp) (by simp)) where
  type_eq := rfl
  length_eq := by simp [uint32Attribute, wordTlv]
  write_eq := by simp [StunAttribute.write, uint32Attribute, wordTlv]

theorem renders_uint64 {type : ℕ} (h : type < 65536) (value : UInt64) :
    Renders (uint64Attribute type value) (wordTlv type h (toBE 8 value.toNat) (by simp) (by simp)) where
  type_eq := rfl
  length_eq := by simp [uint64Attribute, wordTlv]
  write_eq := by simp [StunAttribute.write, uint64Attribute, wordTlv]

/-- The code and the reason of an error that fits the length field. -/
def errorTlv (code : ℕ) (reason : Bytes) (h : 4 + reason.length < 65536) : Tlv where
  type := stunAttrErrorCode
  value := toBE 4 ((code / 100 % 256) <<< 8 ||| code % 100) ++ reason
  padding := writePadding (4 + reason.length)
  typeBound := by decide
  lengthBound := by simpa using h
  padded := by simp

theorem renders_errorCode (code : ℕ) {reason : Bytes} (h : 4 + reason.length < 65536) :
    Renders (errorCodeAttribute code reason) (errorTlv code reason h) where
  type_eq := rfl
  length_eq := by
    rw [errorCodeAttribute, errorTlv, Nat.mod_eq_of_lt h]
    simp
  write_eq := by
    rw [StunAttribute.write, errorCodeAttribute, errorTlv, Nat.mod_eq_of_lt h]

theorem writeAddress_length {ip : IpAddress} {port : UInt16} {bytes : Bytes} (h : writeAddress ip port = some bytes) :
    bytes.length = addressSize ip := by
  cases ip with
  | unspecified => cases h
  | v4 addr =>
    obtain rfl := Option.some.inj h
    simp [addressSize]
  | v6 addr =>
    obtain rfl := Option.some.inj h
    simp [addressSize, addr.2]

theorem addressSize_mod (ip : IpAddress) : addressSize ip % 4 = 0 := by
  cases ip <;> simp [addressSize]

theorem addressSize_lt (ip : IpAddress) : addressSize ip < 65536 := by
  cases ip <;> simp [addressSize]

theorem renders_of_write {attr : StunAttribute} {bytes : Bytes} (htype : attr.type < 65536)
    (hwrite : attr.write = some bytes) (hlen : attr.length = bytes.length) (hlt : bytes.length < 65536)
    (hmod : bytes.length % 4 = 0) : Renders attr (wordTlv attr.type htype bytes hlt hmod) where
  type_eq := rfl
  length_eq := hlen
  write_eq := by simpa [wordTlv] using hwrite

theorem xoredSize {ip : IpAddress} {port : UInt16} {bytes : Bytes} (h : writeAddress (getXoredIp ip) port = some bytes) :
    bytes.length = addressSize ip := by
  cases ip with
  | unspecified => cases h
  | v4 addr =>
    have hlen := @writeAddress_length (.v4 (addr ^^^ UInt32.ofNat stunMagicCookie)) port bytes h
    exact hlen
  | v6 addr => cases h

/-- What is written of an attribute, if anything, is a padded value as long as it fits. -/
theorem NewAttribute.renders (a : NewAttribute) {bytes : Bytes} (hwrite : a.build.write = some bytes)
    (hlt : bytes.length < 65536) : ∃ t, Renders a.build t := by
  cases a with
  | byteString type str => exact ⟨_, renders_byteString type.toNat_lt str⟩
  | uint32 type value => exact ⟨_, renders_uint32 type.toNat_lt value⟩
  | uint64 type value => exact ⟨_, renders_uint64 type.toNat_lt value⟩
  | address type addr =>
    have hlen := writeAddress_length hwrite
    have hmod := hlen ▸ addressSize_mod addr.ip
    exact ⟨_, renders_of_write type.toNat_lt hwrite hlen.symm hlt hmod⟩
  | xorAddress type addr =>
    have hlen := xoredSize hwrite
    have hmod := hlen ▸ addressSize_mod addr.ip
    exact ⟨_, renders_of_write type.toNat_lt hwrite hlen.symm hlt hmod⟩
  | errorCode code reason =>
    have hfit : 4 + reason.length < 65536 := by
      obtain rfl := Option.some.inj hwrite
      simp at hlt
      omega
    exact ⟨_, renders_errorCode code hfit⟩

end Rendering

section Messages
variable {msg : StunMessage} {ts : List Tlv}

theorem writeAttributes_eq {attrs : List StunAttribute} (h : List.Forall₂ Renders attrs ts) :
    writeAttributes attrs = some (encodeAll ts) := by
  induction h with
  | nil => rfl
  | @cons attr t attrs ts hr _ ih =>
    simp only [writeAttributes, hr.write_eq, ih, Option.bind_eq_bind, Option.bind_some]
    simp [Tlv.encode, hr.type_eq, hr.length_eq]

theorem Holds.write (h : Holds msg ts) : msg.write = some (msg.writeHeader ++ encodeAll ts) := by
  rw [StunMessage.write, writeAttributes_eq h.attrs]
  rfl

theorem encodeAll_append (ts us : List Tlv) : encodeAll (ts ++ us) = encodeAll ts ++ encodeAll us :=
  List.flatMap_append

theorem encodeAll_length_mod (ts : List Tlv) : (encodeAll ts).length % 4 = 0 := by
  induction ts with
  | nil => rfl
  | cons t ts ih =>
    have hpad := add_padLength_mod t.value.length
    rw [encodeAll_cons, List.length_append, encode_length]
    omega

/-- An attribute is added with its padding. -/
theorem Holds.addAttribute (h : Holds msg ts) {attr : StunAttribute} {t : Tlv} (hr : Renders attr t) :
    Holds (msg.addAttribute attr) (ts ++ [t]) where
  attrs := List.rel_append h.attrs (List.Forall₂.cons hr .nil)
  length_eq := by
    have hround : (if attr.length % 4 ≠ 0 then attr.length + (4 - attr.length % 4) else attr.length) =
        t.value.length + padLength t.value.length := by
      rw [hr.length_eq, padLength]
      split_ifs <;> omega
    rw [encodeAll_append, List.length_append, encodeAll_cons, List.length_append, encode_length]
    simp only [StunMessage.addAttribute, hround, h.length_eq, encodeAll_nil, List.length_nil, stunAttributeHeaderSize]
    omega

/-- Another value of the same length does not change what the message is like. -/
theorem Holds.replaceLast (h : Holds msg ts) {attr attr' : StunAttribute} {t t' : Tlv} (hr : Renders attr t)
    (hr' : Renders attr' t') (hlen : t.value.length = t'.value.length) :
    Holds { msg.addAttribute attr with attrs := msg.attrs ++ [attr'] } (ts ++ [t']) where
  attrs := List.rel_append h.attrs (List.Forall₂.cons hr' .nil)
  length_eq := by
    have hadded := (h.addAttribute hr).length_eq
    rw [encodeAll_append, List.length_append, encodeAll_cons, List.length_append, encode_length, hlen,
      ← encode_length, ← List.length_append, ← encodeAll_cons, ← List.length_append, ← encodeAll_append] at hadded
    exact hadded

theorem take_front {front back : Bytes} {j k : ℕ} (h : back.length = j + k) :
    (front ++ back).take ((front ++ back).length - j - k) = front := by
  have hlen : (front ++ back).length - j - k = front.length := by
    rw [List.length_append]
    omega
  rw [hlen, List.take_left]

/-- The digest attribute. -/
abbrev integrityTlv (digest : Bytes) : Tlv := stringTlv stunAttrMessageIntegrity (by decide) digest

/-- The checksum attribute. -/
abbrev fingerprintTlv (value : UInt32) : Tlv :=
  wordTlv stunAttrFingerprint (by decide) (toBE 4 value.toNat) (by simp) (by simp)

theorem integrityTlv_value {digest : Bytes} (h : digest.length = stunMessageIntegritySize) :
    (integrityTlv digest).value = digest := by
  have hsize : digest.length % 65536 = digest.length := by
    rw [h]
    rfl
  simp only [integrityTlv, stringTlv, hsize, List.take_length]

theorem integrityTlv_length {digest : Bytes} (h : digest.length = stunMessageIntegritySize) :
    (integrityTlv digest).encode.length = stunAttributeHeaderSize + stunMessageIntegritySize := by
  rw [encode_length, integrityTlv_value h, h]
  rfl

theorem fingerprintTlv_length (value : UInt32) :
    (fingerprintTlv value).encode.length = stunAttributeHeaderSize + 4 := by
  rw [encode_length]
  simp [wordTlv, padLength, stunAttributeHeaderSize]

/-- The message whose digest is taken: its length counts the digest. -/
def StunMessage.forHmac (msg : StunMessage) : StunMessage :=
  msg.addAttribute (byteStringAttribute stunAttrMessageIntegrity (List.replicate stunMessageIntegritySize 48))

/-- The message whose checksum is taken: its length counts the checksum. -/
def StunMessage.forCrc32 (msg : StunMessage) : StunMessage := msg.addAttribute (uint32Attribute stunAttrFingerprint 0)

theorem encodeAll_singleton (t : Tlv) : encodeAll [t] = t.encode := List.append_nil _

/-- The digest is that of the header and the attributes so far. -/
theorem Holds.addMessageIntegrity_eq (h : Holds msg ts) (hmac : Bytes → Bytes → Bytes) (password : Bytes) :
    msg.addMessageIntegrity hmac password =
      if (hmac password (msg.forHmac.writeHeader ++ encodeAll ts)).length ≠ stunMessageIntegritySize then
        (false, msg.forHmac)
      else (true, { msg.forHmac with attrs := msg.attrs ++ [byteStringAttribute stunAttrMessageIntegrity
        (hmac password (msg.forHmac.writeHeader ++ encodeAll ts))] }) := by
  have hadded : Holds msg.forHmac (ts ++ [integrityTlv (List.replicate stunMessageIntegritySize 48)]) :=
    h.addAttribute (renders_byteString (by decide) _)
  have hfront := @take_front (msg.forHmac.writeHeader ++ encodeAll ts) _ _ _
    (integrityTlv_length (List.length_replicate (a := (48 : UInt8))))
  have hwrite := hadded.write
  rw [encodeAll_append, encodeAll_singleton, ← List.append_assoc] at hwrite
  rw [StunMessage.forHmac] at hwrite hfront ⊢
  simp only [StunMessage.addMessageIntegrity, hwrite, hfront]

theorem Holds.addMessageIntegrity_fails (h : Holds msg ts) {hmac : Bytes → Bytes → Bytes} {password : Bytes}
    (hsize : (hmac password (msg.forHmac.writeHeader ++ encodeAll ts)).length ≠ stunMessageIntegritySize) :
    Holds (msg.addMessageIntegrity hmac password).2
      (ts ++ [integrityTlv (List.replicate stunMessageIntegritySize 48)]) := by
  rw [h.addMessageIntegrity_eq, if_pos hsize]
  exact h.addAttribute (renders_byteString (by decide) _)

theorem Holds.addMessageIntegrity (h : Holds msg ts) {hmac : Bytes → Bytes → Bytes} {password : Bytes}
    (hsize : (hmac password (msg.forHmac.writeHeader ++ encodeAll ts)).length = stunMessageIntegritySize) :
    Holds (msg.addMessageIntegrity hmac password).2
      (ts ++ [integrityTlv (hmac password (msg.forHmac.writeHeader ++ encodeAll ts))]) := by
  have hzeros : (List.replicate stunMessageIntegritySize 48 : Bytes).length = stunMessageIntegritySize :=
    List.length_replicate
  have hlen := (congrArg List.length (integrityTlv_value hzeros)).trans
    (hzeros.trans (hsize.symm.trans (congrArg List.length (integrityTlv_value hsize)).symm))
  rw [h.addMessageIntegrity_eq, if_neg (not_not_intro hsize)]
  exact h.replaceLast (renders_byteString _ _) (renders_byteString _ _) hlen

/-- The checksum that is added. -/
def StunMessage.checksum (msg : StunMessage) (ts : List Tlv) : UInt32 :=
  computeCrc32 (msg.forCrc32.writeHeader ++ encodeAll ts) ^^^ UInt32.ofNat stunFingerprintXorValue

/-- The checksum is that of the header and the attributes so far. -/
theorem Holds.addFingerprint_eq (h : Holds msg ts) : msg.addFingerprint = (true, { msg.forCrc32 with
    attrs := msg.attrs ++ [uint32Attribute stunAttrFingerprint (msg.checksum ts)] }) := by
  have hadded : Holds msg.forCrc32 (ts ++ [fingerprintTlv 0]) := h.addAttribute (renders_uint32 (by decide) 0)
  have hfront := @take_front (msg.forCrc32.writeHeader ++ encodeAll ts) _ _ _ (fingerprintTlv_length 0)
  have hwrite := hadded.write
  rw [encodeAll_append, encodeAll_singleton, ← List.append_assoc] at hwrite
  rw [StunMessage.checksum]
  rw [StunMessage.forCrc32] at hwrite hfront ⊢
  simp only [StunMessage.addFingerprint, hwrite, hfront]

theorem Holds.addFingerprint (h : Holds msg ts) :
    Holds msg.addFingerprint.2 (ts ++ [fingerprintTlv (msg.checksum ts)]) := by
  have hlen (value : UInt32) : (fingerprintTlv value).value.length = 4 := toBE_length 4 _
  rw [h.addFingerprint_eq]
  exact h.replaceLast (renders_uint32 (by decide) 0) (renders_uint32 (by decide) _) ((hlen 0).trans (hlen _).symm)

end Messages

section Reading
variable {msg : StunMessage} {ts : List Tlv}

/-- A written message is read with those of its attributes that are stored. -/
theorem read_written (htype : msg.type < 65536) (hbit : msg.type &&& 0x0800 = 0)
    (hid : msg.transactionId.length = stunTransactionIdLength) (hlen : msg.length = (encodeAll ts).length)
    (hlt : (encodeAll ts).length < 65536) (hpri : ∀ t ∈ ts, t.type = stunAttrPriority → t.value.length = 4) :
    StunMessage.read (msg.writeHeader ++ encodeAll ts) =
      some { type := msg.type, length := msg.length, transactionId := msg.transactionId,
             attrs := ts.filterMap storedAttribute, buffer := msg.writeHeader ++ encodeAll ts } := by
  have hfits : msg.length < 256^2 := by omega
  have hcookie : readBytes stunMagicCookieLength (toBE 4 stunMagicCookie ++ (msg.transactionId ++ encodeAll ts)) =
      some (toBE 4 stunMagicCookie, msg.transactionId ++ encodeAll ts) := by
    rw [readBytes_eq_some]
    exact ⟨rfl, by simp [stunMagicCookieLength]⟩
  have hread : readBytes stunTransactionIdLength (msg.transactionId ++ encodeAll ts) =
      some (msg.transactionId, encodeAll ts) := by
    rw [← hid, readBytes_append]
  have hvalue : beNat (toBE 4 stunMagicCookie) = stunMagicCookie := beNat_toBE_of_lt (by decide)
  have hattrs : readAttributes (encodeAll ts).length (encodeAll ts) = some (ts.filterMap storedAttribute) :=
    (readAttributes_eq_some (le_refl _)).mpr ⟨false, acceptedBody_of_tlvs ts hpri hlt⟩
  rw [hlen] at hfits ⊢
  simp only [StunMessage.read, StunMessage.writeHeader, List.append_assoc, hlen,
    readUInt_toBE (show msg.type < 256^2 from htype), readUInt_toBE hfits, hcookie, hread, hvalue,
    Option.bind_eq_bind, Option.bind_some, hbit, ne_eq, not_true_eq_false, if_false, hattrs]

end Reading

end Stun
end XrtcServer
