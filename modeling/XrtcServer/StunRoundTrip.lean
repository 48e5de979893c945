import Mathlib.Algebra.Order.BigOperators.Group.List
import XrtcServer.StunWrite

/-! What of a composed STUN message is read back from the bytes that are written of it. -/
namespace XrtcServer
namespace Stun
open ByteFormat

/-- What a message is composed of. -/
inductive Part
  | username (str : Bytes)
  | priority (value : UInt32)
  | useCandidate
  | iceControlled (tiebreaker : UInt64)
  | xorMappedAddress (addr : UInt32) (port : UInt16)
  | errorCode (code : ℕ) (range : 300 ≤ code ∧ code ≤ 699) (reason : Bytes)
  | messageIntegrity (password : Bytes)
  | fingerprint

namespace Part

/-- The bytes of the value, as the caller gives it. -/
def size : Part → ℕ
  | username str => str.length
  | priority _ => 4
  | useCandidate => 0
  | iceControlled _ => 8
  | xorMappedAddress _ _ => 8
  | errorCode _ _ reason => 4 + reason.length
  | messageIntegrity _ => stunMessageIntegritySize
  | fingerprint => 4

def username? : Part → Option Bytes
  | username str => some str
  | priority _ | useCandidate | iceControlled _ | xorMappedAddress _ _ | errorCode _ _ _ | messageIntegrity _
  | fingerprint => none

def priority? : Part → Option UInt32
  | priority value => some value
  | username _ | useCandidate | iceControlled _ | xorMappedAddress _ _ | errorCode _ _ _ | messageIntegrity _
  | fingerprint => none

def errorCode? : Part → Option ℕ
  | errorCode code _ _ => some code
  | username _ | priority _ | useCandidate | iceControlled _ | xorMappedAddress _ _ | messageIntegrity _
  | fingerprint => none

/-- One step of composing a message. -/
def addTo (hmac : Bytes → Bytes → Bytes) (msg : StunMessage) : Part → StunMessage
  | username str => msg.addAttribute (byteStringAttribute stunAttrUsername str)
  | priority value => msg.addAttribute (uint32Attribute stunAttrPriority value)
  | useCandidate => msg.addAttribute ⟨stunAttrUseCandidate, 0, .byteString []⟩
  | iceControlled tiebreaker => msg.addAttribute (uint64Attribute stunAttrIceControlled tiebreaker)
  | xorMappedAddress addr port => msg.addAttribute (xorAddressAttribute stunAttrXorMappedAddress ⟨.v4 addr, port⟩)
  | errorCode code _ reason => msg.addAttribute (errorCodeAttribute code reason)
  | messageIntegrity password => (msg.addMessageIntegrity hmac password).2
  | fingerprint => msg.addFingerprint.2

end Part

/-- The bytes of the attributes, with their headers and paddings. -/
def bodySize (parts : List Part) : ℕ := (parts.map fun p => 4 + (p.size + padLength p.size)).sum

/-- A message that the server composes. -/
structure Composition where
  type : ℕ
  transactionId : Bytes
  parts : List Part
  type_mem : type ∈ [stunBindingRequest, stunBindingResponse, stunBindingErrorResponse]
  id_length : transactionId.length = stunTransactionIdLength
  size_le : bodySize parts ≤ 65535

namespace Composition

def message (hmac : Bytes → Bytes → Bytes) (c : Composition) : StunMessage :=
  c.parts.foldl (Part.addTo hmac) { type := c.type, transactionId := c.transactionId }

def username (c : Composition) : Option Bytes := c.parts.findSome? Part.username?
def priority (c : Composition) : Option UInt32 := c.parts.findSome? Part.priority?

/-- The code of the first error, and a global failure without one. -/
def errorCodeValue (c : Composition) : ℕ := (c.parts.findSome? Part.errorCode?).getD stunErrorGlobalFailure

/-- Type, transaction id, user name, priority and error code of a message are those that
were composed. -/
structure ReadsAs (c : Composition) (msg : StunMessage) : Prop where
  type_eq : msg.type = c.type
  id_eq : msg.transactionId = c.transactionId
  username_eq : msg.getByteString stunAttrUsername = c.username
  priority_eq : msg.getUInt32 stunAttrPriority = c.priority.map UInt32.toNat
  errorCode_eq : msg.getErrorCodeValue = c.errorCodeValue

end Composition

/-- What the reader keeps of a part. -/
inductive Keeps : Part → Option StunAttribute → Prop
  | username (str : Bytes) :
      Keeps (.username str) (some ⟨stunAttrUsername, str.length, .byteString str⟩)
  | priority (value : UInt32) : Keeps (.priority value) (some ⟨stunAttrPriority, 4, .uint32 value.toNat⟩)
  | integrity (password digest : Bytes) :
      Keeps (.messageIntegrity password) (some ⟨stunAttrMessageIntegrity, digest.length, .byteString digest⟩)
  | useCandidate : Keeps .useCandidate none
  | iceControlled (tiebreaker : UInt64) : Keeps (.iceControlled tiebreaker) none
  | xorMappedAddress (addr : UInt32) (port : UInt16) : Keeps (.xorMappedAddress addr port) none
  | errorCode (code : ℕ) (range : 300 ≤ code ∧ code ≤ 699) (reason : Bytes) : Keeps (.errorCode code range reason) none
  | fingerprint : Keeps .fingerprint none

/-- A part and the bytes that are written for it. -/
structure Shows (p : Part) (t : Tlv) : Prop where
  keeps : Keeps p (storedAttribute t)
  size_eq : t.value.length = p.size
  priority : t.type = stunAttrPriority → t.value.length = 4

section Composing
variable {hmac : Bytes → Bytes → Bytes} {msg : StunMessage} {ts : List Tlv}

/-- Adding a part keeps the header and writes one more value. -/
structure Adds (p : Part) (msg msg' : StunMessage) (ts : List Tlv) (t : Tlv) : Prop where
  type_eq : msg'.type = msg.type
  id_eq : msg'.transactionId = msg.transactionId
  holds : Holds msg' (ts ++ [t])
  shows : Shows p t

theorem adds_attribute (h : Holds msg ts) {p : Part} {attr : StunAttribute} {t : Tlv} (hr : Renders attr t)
    (hs : Shows p t) : Adds p msg (msg.addAttribute attr) ts t :=
  ⟨rfl, rfl, h.addAttribute hr, hs⟩

theorem shows_integrity (password : Bytes) {digest : Bytes} (h : digest.length = stunMessageIntegritySize) :
    Shows (.messageIntegrity password) (integrityTlv digest) where
  keeps := .integrity password _
  size_eq := by
    rw [integrityTlv_value h, h]
    rfl
  priority := by
    intro htype
    cases htype

theorem adds_integrity (h : Holds msg ts) (password : Bytes) :
    ∃ t, Adds (.messageIntegrity password) msg (msg.addMessageIntegrity hmac password).2 ts t := by
  by_cases hsize : (hmac password (msg.forHmac.writeHeader ++ encodeAll ts)).length = stunMessageIntegritySize
  · have heq := h.addMessageIntegrity_eq hmac password
    rw [if_neg (not_not_intro hsize)] at heq
    refine ⟨_, ?_, ?_, h.addMessageIntegrity hsize, shows_integrity password hsize⟩
    · rw [heq]
      rfl
    · rw [heq]
      rfl
  · have heq := h.addMessageIntegrity_eq hmac password
    rw [if_pos hsize] at heq
    refine ⟨_, ?_, ?_, h.addMessageIntegrity_fails hsize, shows_integrity password List.length_replicate⟩
    · rw [heq]
      rfl
    · rw [heq]
      rfl

theorem adds_fingerprint (h : Holds msg ts) : ∃ t, Adds .fingerprint msg msg.addFingerprint.2 ts t := by
  have heq := h.addFingerprint_eq
  refine ⟨_, ?_, ?_, h.addFingerprint, .fingerprint, toBE_length 4 _, ?_⟩
  · rw [heq]
    rfl
  · rw [heq]
    rfl
  · intro htype
    cases htype

/-- Every part adds its own bytes. -/
theorem adds_part (h : Holds msg ts) (p : Part) (hlt : p.size < 65536) : ∃ t, Adds p msg (p.addTo hmac msg) ts t := by
  cases p with
  | username str =>
    have hmod : str.length % 65536 = str.length := Nat.mod_eq_of_lt hlt
    refine ⟨_, adds_attribute h (renders_byteString (by decide) str) ⟨?_, ?_, ?_⟩⟩
    · simp only [stringTlv, hmod, List.take_length]
      exact .username str
    · simp only [stringTlv, hmod, List.take_length]
      rfl
    · intro htype
      cases htype
  | priority value =>
    refine ⟨_, adds_attribute h (renders_uint32 (by decide) value) ⟨?_, toBE_length 4 _, fun _ => toBE_length 4 _⟩⟩
    have hvalue : beNat (toBE 4 value.toNat) = value.toNat := beNat_toBE_of_lt value.toNat_lt
    have hstored : storedAttribute (wordTlv stunAttrPriority (by decide) (toBE 4 value.toNat) (by simp) (by simp)) =
        some ⟨stunAttrPriority, 4, .uint32 value.toNat⟩ := by
      simp [storedAttribute, wordTlv, hvalue]
    rw [hstored]
    exact .priority value
  | useCandidate =>
    have hr : Renders ⟨stunAttrUseCandidate, 0, .byteString []⟩ (stringTlv stunAttrUseCandidate (by decide) []) :=
      renders_byteString (by decide) []
    exact ⟨_, adds_attribute h hr ⟨.useCandidate, rfl, fun htype => by cases htype⟩⟩
  | iceControlled tiebreaker =>
    refine ⟨_, adds_attribute h (renders_uint64 (by decide) tiebreaker) ⟨.iceControlled _, toBE_length 8 _, ?_⟩⟩
    intro htype
    cases htype
  | xorMappedAddress addr port =>
    have hwrite : (xorAddressAttribute stunAttrXorMappedAddress ⟨.v4 addr, port⟩).write = some _ := rfl
    have hlen := xoredSize (show writeAddress (getXoredIp (.v4 addr)) _ = some _ from hwrite)
    have htype : stunAttrXorMappedAddress < 65536 := by decide
    refine ⟨_, adds_attribute h (renders_of_write htype hwrite hlen.symm (hlen ▸ addressSize_lt _)
      (hlen ▸ addressSize_mod _)) ⟨.xorMappedAddress _ _, hlen, ?_⟩⟩
    intro htype
    cases htype
  | errorCode code range reason =>
    refine ⟨_, adds_attribute h (renders_errorCode code hlt) ⟨.errorCode _ _ _, by simp [errorTlv, Part.size], ?_⟩⟩
    intro htype
    cases htype
  | messageIntegrity password => exact adds_integrity h password
  | fingerprint => exact adds_fingerprint h

/-- A run of parts from a message on. -/
theorem shows_run (h : Holds msg ts) (parts : List Part) (hlt : ∀ p ∈ parts, p.size < 65536) :
    let msg' := parts.foldl (Part.addTo hmac) msg
    msg'.type = msg.type ∧ msg'.transactionId = msg.transactionId ∧
      ∃ us, List.Forall₂ Shows parts us ∧ Holds msg' (ts ++ us) := by
  induction parts generalizing msg ts with
  | nil => exact ⟨rfl, rfl, [], .nil, by rwa [List.append_nil]⟩
  | cons p parts ih =>
    obtain ⟨t, ha⟩ := @adds_part hmac msg ts h p (hlt p List.mem_cons_self)
    obtain ⟨htype, hid, us, hus, hholds⟩ := ih ha.holds fun q hq => hlt q (List.mem_cons_of_mem _ hq)
    refine ⟨htype.trans ha.type_eq, hid.trans ha.id_eq, t :: us, .cons ha.shows hus, ?_⟩
    rw [List.append_assoc] at hholds
    exact hholds

theorem encodeAll_shows {parts : List Part} (h : List.Forall₂ Shows parts ts) :
    (encodeAll ts).length = bodySize parts := by
  induction h with
  | nil => rfl
  | @cons p t parts ts hs _ ih =>
    rw [encodeAll_cons, List.length_append, encode_length, ih, hs.size_eq]
    rfl

end Composing

section Lookups
variable {parts : List Part} {ts : List Tlv}

/-- The first stored attribute of a type comes from the first part that is kept as such. -/
theorem find_stored {α : Type} {type : ℕ} {pick : Part → Option α} {build : α → StunAttribute}
    (hpick : ∀ p stored, Keeps p stored → stored.filter (·.type = type) = (pick p).map build)
    (h : List.Forall₂ Shows parts ts) :
    (ts.filterMap storedAttribute).find? (fun attr => attr.type = type) = (parts.findSome? pick).map build := by
  induction h with
  | nil => rfl
  | @cons p t parts ts hs _ ih =>
    have hp := hpick p _ hs.keeps
    rw [List.filterMap_cons, List.findSome?_cons]
    cases hstored : storedAttribute t with
    | none =>
      rw [hstored, Option.filter_none, eq_comm, Option.map_eq_none_iff] at hp
      simpa only [hp] using ih
    | some attr =>
      rw [hstored, Option.filter_some] at hp
      by_cases htype : attr.type = type
      · rw [if_pos (by simpa using htype), eq_comm, Option.map_eq_some_iff] at hp
        obtain ⟨value, hvalue, rfl⟩ := hp
        simp [hvalue, htype]
      · rw [if_neg (by simpa using htype), eq_comm, Option.map_eq_none_iff] at hp
        simpa [hp, htype] using ih

theorem find_username (h : List.Forall₂ Shows parts ts) :
    (ts.filterMap storedAttribute).find? (fun attr => attr.type = stunAttrUsername) =
      (parts.findSome? Part.username?).map fun str => ⟨stunAttrUsername, str.length, .byteString str⟩ := by
  refine find_stored (fun p stored hkeeps => ?_) h
  cases hkeeps <;> rfl

theorem find_priority (h : List.Forall₂ Shows parts ts) :
    (ts.filterMap storedAttribute).find? (fun attr => attr.type = stunAttrPriority) =
      (parts.findSome? Part.priority?).map fun value => ⟨stunAttrPriority, 4, .uint32 value.toNat⟩ := by
  refine find_stored (fun p stored hkeeps => ?_) h
  cases hkeeps <;> rfl

/-- No error code is stored. -/
theorem find_errorCode (h : List.Forall₂ Shows parts ts) :
    (ts.filterMap storedAttribute).find? (fun attr => attr.type = stunAttrErrorCode) = none := by
  have hnone := @find_stored parts ts StunAttribute stunAttrErrorCode (fun _ => none) id
    (fun p stored hkeeps => by cases hkeeps <;> rfl) h
  rw [hnone, List.findSome?_eq_none_iff.mpr fun _ _ => rfl]
  rfl

theorem shows_priority (h : List.Forall₂ Shows parts ts) : ∀ t ∈ ts, t.type = stunAttrPriority → t.value.length = 4 := by
  induction h with
  | nil => simp
  | cons hs _ ih => exact List.forall_mem_cons.mpr ⟨hs.priority, ih⟩

end Lookups

section Reading
variable (hmac : Bytes → Bytes → Bytes) (c : Composition)

theorem size_le_bodySize {p : Part} {parts : List Part} (h : p ∈ parts) : p.size + 4 ≤ bodySize parts := by
  have hle := List.le_sum_of_mem (List.mem_map_of_mem (f := fun p : Part => 4 + (p.size + padLength p.size)) h)
  rw [bodySize]
  omega

theorem type_of_mem {type : ℕ} (h : type ∈ [stunBindingRequest, stunBindingResponse, stunBindingErrorResponse]) :
    type < 65536 ∧ type &&& 0x0800 = 0 := by
  revert type
  decide

/-- A composed message is written, and all of it but the error code is read back. -/
theorem Composition.read_message : ∃ bytes msg, (c.message hmac).write = some bytes ∧
    StunMessage.read bytes = some msg ∧ msg.type = c.type ∧ msg.transactionId = c.transactionId ∧
    msg.getByteString stunAttrUsername = c.username ∧
    msg.getUInt32 stunAttrPriority = c.priority.map UInt32.toNat ∧
    msg.getErrorCodeValue = stunErrorGlobalFailure := by
  have hstart : Holds { type := c.type, transactionId := c.transactionId } [] := ⟨.nil, rfl⟩
  have hsizes : ∀ p ∈ c.parts, p.size < 65536 := by
    intro p hp
    have hle := size_le_bodySize hp
    have hbody := c.size_le
    omega
  obtain ⟨htype, hid, ts, hts, hholds⟩ := @shows_run hmac _ _ hstart c.parts hsizes
  obtain ⟨hlt, hbit⟩ := type_of_mem c.type_mem
  have hbody := c.size_le
  have hlength := encodeAll_shows hts
  rw [List.nil_append] at hholds
  have hlen : (c.message hmac).length = (encodeAll ts).length := by
    have heq : (c.message hmac).length = _ := hholds.length_eq
    rw [heq, Nat.mod_eq_of_lt (by omega)]
  have hpri := shows_priority hts
  have htype' : (c.message hmac).type = c.type := htype
  have hid' : (c.message hmac).transactionId = c.transactionId := hid
  have hread := @read_written (c.message hmac) ts (htype' ▸ hlt) (htype' ▸ hbit) (hid' ▸ c.id_length) hlen
    (by omega) hpri
  refine ⟨_, _, hholds.write, hread, htype', hid', ?_, ?_, ?_⟩
  · rw [StunMessage.getByteString, StunMessage.getAttribute, find_username hts, Composition.username]
    cases c.parts.findSome? Part.username? <;> rfl
  · rw [StunMessage.getUInt32, StunMessage.getAttribute, find_priority hts, Composition.priority]
    cases c.parts.findSome? Part.priority? <;> rfl
  · rw [StunMessage.getErrorCodeValue, StunMessage.getAttribute, find_errorCode hts]

/-- A composed message is read back as it was exactly when its error code is a global
failure, which is what the reader says when it knows no code: it stores no error code. -/
theorem read_write_iff : (∃ bytes msg, (c.message hmac).write = some bytes ∧ StunMessage.read bytes = some msg ∧
    c.ReadsAs msg) ↔ c.errorCodeValue = stunErrorGlobalFailure := by
  obtain ⟨bytes, msg, hwrite, hread, htype, hid, hname, hpri, hcode⟩ := c.read_message hmac
  constructor
  · rintro ⟨bytes', msg', hwrite', hread', hreads⟩
    obtain rfl := Option.some.inj (hwrite.symm.trans hwrite')
    obtain rfl := Option.some.inj (hread.symm.trans hread')
    exact hreads.errorCode_eq.symm.trans hcode
  · intro h
    exact ⟨bytes, msg, hwrite, hread, htype, hid, hname, hpri, hcode.trans h.symm⟩

end Reading

/-- What `UDPPort::send_binding_error_response` sends to a request that it cannot use. -/
def badRequestResponse : Composition where
  type := stunBindingErrorResponse
  transactionId := [1, 2, 3, 4, 5, 6, 7, 8, 9, 10, 11, 12]
  parts := [.errorCode 400 (by decide) [66, 97, 100, 32, 114, 101, 113, 117, 101, 115, 116], .fingerprint]
  type_mem := by decide
  id_length := rfl
  size_le := by decide

/-- It is read as an error 600. -/
theorem badRequest_read_otherwise : ¬ ∃ bytes msg,
    (badRequestResponse.message fun _ _ => []).write = some bytes ∧ StunMessage.read bytes = some msg ∧
      badRequestResponse.ReadsAs msg := by
  rintro ⟨bytes, msg, hwrite, hread, hreads⟩
  obtain ⟨bytes', msg', hwrite', hread', -, -, -, -, hglobal⟩ := badRequestResponse.read_message fun _ _ => []
  obtain rfl := Option.some.inj (hwrite.symm.trans hwrite')
  obtain rfl := Option.some.inj (hread.symm.trans hread')
  have hcode := hreads.errorCode_eq
  rw [hglobal] at hcode
  exact absurd hcode (by decide)

end Stun
end XrtcServer
