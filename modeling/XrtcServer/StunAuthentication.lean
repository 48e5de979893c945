import XrtcServer.StunIntegrity

/-! Which STUN datagrams `UDPPort::get_stun_message` and
`IceConnection::on_read_packet` act on, and exactly when what they act on is
covered by the message digest. The digest function and the memory behind the
datagram are parameters. -/
namespace XrtcServer
namespace Stun
open ByteFormat

def stunErrorReasonBadRequest : String := "Bad request"
def stunErrorReasonUnauthorized : String := "Unauthorized"
def stunErrorReasonServerError : String := "Server error"

structure IceParameters where
  iceUfrag : Bytes
  icePwd : Bytes
  deriving DecidableEq, Repr

/-- `rtc::split`. -/
def split (delimiter : UInt8) : Bytes → List Bytes
  | [] => [[]]
  | b :: bs =>
    if b = delimiter then [] :: split delimiter bs
    else (split delimiter bs).modifyHead (b :: ·)

/-- The local and the remote part of USERNAME, when it has exactly two parts. -/
def parseStunUsername (msg : StunMessage) : Option (Bytes × Bytes) :=
  match msg.getByteString stunAttrUsername with
  | none => none
  | some username =>
    match split 58 username with
    | [localUfrag, remoteUfrag] => some (localUfrag, remoteUfrag)
    | _ => none

/-- What `get_stun_message` does: it returns false, it returns true after it sent an
error response and has no message, or it returns true with a message. -/
inductive StunMessageResult
  | notStun
  | errorSent (code : ℕ) (reason : String)
  | message (msg : StunMessage) (remoteUfrag : Bytes)
  deriving DecidableEq

/-- What `IceConnection::on_read_packet` does with a datagram. -/
inductive PacketAction
  | signalReadPacket
  | errorSent (code : ℕ) (reason : String)
  | handleBindingRequest (msg : StunMessage)
  | checkResponse (msg : StunMessage)
  | ignored
  deriving DecidableEq

section Receive
variable (hmac : Bytes → Bytes → Bytes) (beyond : ℕ → UInt8)

/-- The branch of `get_stun_message` for a binding request. -/
def checkBindingRequest (params : IceParameters) (msg : StunMessage) : StunMessageResult :=
  if (msg.getByteString stunAttrUsername).isNone ∨
      (msg.getByteString stunAttrMessageIntegrity).isNone then
    .errorSent stunErrorBadRequest stunErrorReasonBadRequest
  else match parseStunUsername msg with
    | none => .errorSent stunErrorUnauthorized stunErrorReasonUnauthorized
    | some (localUfrag, remoteUfrag) =>
      if localUfrag ≠ params.iceUfrag then
        .errorSent stunErrorUnauthorized stunErrorReasonUnauthorized
      else if msg.validateMessageIntegrity hmac beyond params.icePwd ≠ .integrityOk then
        .errorSent stunErrorUnauthorized stunErrorReasonUnauthorized
      else .message msg remoteUfrag

def getStunMessage (params : IceParameters) (data : Bytes) : StunMessageResult :=
  if ¬validateFingerprint data then .notStun
  else match StunMessage.read data with
    | none => .notStun
    | some msg =>
      if msg.type = stunBindingRequest then checkBindingRequest hmac beyond params msg
      else .message msg []

/-- The connection's own user name and password for its peer are `remote`. -/
def onReadPacket (params remote : IceParameters) (data : Bytes) : PacketAction :=
  match getStunMessage hmac beyond params data with
  | .notStun => .signalReadPacket
  | .errorSent code reason => .errorSent code reason
  | .message msg remoteUfrag =>
    if msg.type = stunBindingRequest then
      if remoteUfrag ≠ remote.iceUfrag then
        .errorSent stunErrorUnauthorized stunErrorReasonUnauthorized
      else .handleBindingRequest msg
    else if msg.type = stunBindingResponse ∨ msg.type = stunBindingErrorResponse then
      if msg.validateMessageIntegrity hmac beyond remote.icePwd = .integrityOk then
        .checkResponse msg
      else .ignored
    else .ignored

/-- The first MESSAGE-INTEGRITY of the datagram is at the position, has 20 bytes
inside the datagram and holds the digest of the bytes before it. -/
structure Authenticated (password data : Bytes) (p : ℕ) : Prop where
  first : FirstAttribute stunAttrMessageIntegrity data p
  declared : getBE16 data (p+2) = 20
  inside : p + 24 ≤ data.length
  digest : (data.drop (p+4)).take 20 = hmac password (prefixEndingAt data p)

/-- Requests and responses are acted on only when authenticated, and of a request
only what the digest covers. -/
def ActsOnAuthenticated (params remote : IceParameters) (data : Bytes) : Prop :=
  (∀ msg remoteUfrag, getStunMessage hmac beyond params data = .message msg remoteUfrag →
    msg.type = stunBindingRequest →
    ∃ p, Authenticated hmac params.icePwd data p ∧
      (msg.getByteString stunAttrUsername = some (params.iceUfrag ++ 58 :: remoteUfrag) ∧
        58 ∉ params.iceUfrag ∧ 58 ∉ remoteUfrag) ∧
      ValueEndsBy stunAttrUsername data p ∧ ValueEndsBy stunAttrPriority data p) ∧
  (∀ msg, onReadPacket hmac beyond params remote data = .checkResponse msg →
    ∃ p, Authenticated hmac remote.icePwd data p)

/-- MESSAGE-INTEGRITY declares 20 bytes and ends inside the datagram. -/
def DigestFits (data : Bytes) (p : ℕ) : Prop :=
  getBE16 data (p+2) = 20 ∧ p + 24 ≤ data.length

/-- A datagram that the fingerprint, the parser, the user name and the digest
comparison let through has a digest that fits, and a request has its USERNAME and
PRIORITY before it. -/
def LaidOutForDigest (params remote : IceParameters) (data : Bytes) : Prop :=
  ∀ msg p, validateFingerprint data → StunMessage.read data = some msg →
    FirstAttribute stunAttrMessageIntegrity data p →
    (msg.type = stunBindingRequest →
      (parseStunUsername msg).map Prod.fst = some params.iceUfrag →
      msg.validateMessageIntegrity hmac beyond params.icePwd = .integrityOk →
      DigestFits data p ∧ ValueEndsBy stunAttrUsername data p ∧
        ValueEndsBy stunAttrPriority data p) ∧
    (msg.type = stunBindingResponse ∨ msg.type = stunBindingErrorResponse →
      msg.validateMessageIntegrity hmac beyond remote.icePwd = .integrityOk →
      DigestFits data p)

end Receive

theorem split_ne_nil (delimiter : UInt8) (bs : Bytes) : split delimiter bs ≠ [] := by
  induction bs with
  | nil => simp [split]
  | cons b bs ih => by_cases h : b = delimiter <;> simp [split, h, ih]

/-- A byte that is no delimiter belongs to the first field. -/
theorem split_cons_of_ne {delimiter b : UInt8} {bs first : Bytes} {rest : List Bytes} (hb : b ≠ delimiter)
    (h : split delimiter (b :: bs) = first :: rest) :
    ∃ first', first = b :: first' ∧ split delimiter bs = first' :: rest := by
  cases hs : split delimiter bs with
  | nil => exact absurd hs (split_ne_nil delimiter bs)
  | cons first' rest' =>
    simp only [split, hb, if_false, hs, List.modifyHead_cons, List.cons.injEq] at h
    obtain ⟨rfl, rfl⟩ := h
    exact ⟨first', rfl, rfl⟩

theorem split_eq_singleton {delimiter : UInt8} {bs field : Bytes}
    (h : split delimiter bs = [field]) : bs = field ∧ delimiter ∉ field := by
  induction bs generalizing field with
  | nil =>
    obtain rfl : [] = field := by simpa [split] using h
    simp
  | cons b bs ih =>
    by_cases hb : b = delimiter
    · simp [split, hb, split_ne_nil] at h
    · obtain ⟨first, rfl, hs⟩ := split_cons_of_ne hb h
      obtain ⟨rfl, hn⟩ := ih hs
      simp [hn, Ne.symm hb]

/-- Two fields mean one delimiter between them. -/
theorem split_eq_pair {delimiter : UInt8} {bs left right : Bytes}
    (h : split delimiter bs = [left, right]) :
    bs = left ++ delimiter :: right ∧ delimiter ∉ left ∧ delimiter ∉ right := by
  induction bs generalizing left with
  | nil => simp [split] at h
  | cons b bs ih =>
    by_cases hb : b = delimiter
    · simp only [split, hb, if_true, List.cons.injEq] at h
      obtain ⟨rfl, hr⟩ := h
      obtain ⟨rfl, hn⟩ := split_eq_singleton hr
      simp [hb, hn]
    · obtain ⟨first, rfl, hs⟩ := split_cons_of_ne hb h
      obtain ⟨rfl, hl, hr⟩ := ih hs
      simp [hl, hr, Ne.symm hb]

theorem username_of_parse {msg : StunMessage} {localUfrag remoteUfrag : Bytes}
    (h : parseStunUsername msg = some (localUfrag, remoteUfrag)) :
    msg.getByteString stunAttrUsername = some (localUfrag ++ 58 :: remoteUfrag) ∧
      58 ∉ localUfrag ∧ 58 ∉ remoteUfrag := by
  unfold parseStunUsername at h
  cases hu : msg.getByteString stunAttrUsername with
  | none => simp [hu] at h
  | some username =>
    simp only [hu] at h
    split at h
    · rename_i l r hs
      obtain ⟨rfl, rfl⟩ : l = localUfrag ∧ r = remoteUfrag := by simpa using h
      obtain ⟨rfl, hl, hr⟩ := split_eq_pair hs
      exact ⟨rfl, hl, hr⟩
    · simp at h

section Receive
variable {hmac : Bytes → Bytes → Bytes} {beyond : ℕ → UInt8} {params remote : IceParameters}

theorem read_buffer {data : Bytes} {msg : StunMessage} (h : StunMessage.read data = some msg) :
    msg.buffer = data := by
  have hs : (StunMessage.read data).isSome := by simp [h]
  obtain ⟨hsize, hbit, hlen, -⟩ := (read_isSome_iff data).mp hs
  rw [read_of_size hsize, if_neg hbit, if_neg (by rw [List.length_drop]; omega)] at h
  obtain ⟨attrs, -, rfl⟩ := Option.map_eq_some_iff.mp h
  rfl

/-- A successful validation has found the first MESSAGE-INTEGRITY and compared the
twenty bytes behind its header with the digest. -/
theorem validate_ok {data password : Bytes} {msg : StunMessage}
    (hr : StunMessage.read data = some msg)
    (h : msg.validateMessageIntegrity hmac beyond password = .integrityOk) :
    ∃ p, FirstAttribute stunAttrMessageIntegrity data p ∧
      getBE16 data 2 + stunHeaderSize = data.length ∧
      readMemory data beyond (p+4) 20 =
        hmac password (hashInput data p stunMessageIntegritySize) := by
  unfold StunMessage.validateMessageIntegrity at h
  rw [read_buffer hr] at h
  split_ifs at h with hsome hvalid
  unfold validateMessageIntegrityOfType at hvalid
  split_ifs at hvalid with hsize hlen
  cases hf : findAttribute stunAttrMessageIntegrity data data.length stunHeaderSize with
  | none => simp [hf] at hvalid
  | some p =>
    simp only [hf] at hvalid
    split_ifs at hvalid with hd
    exact ⟨p, (findAttribute_eq_some (by omega)).mp hf, not_not.mp hlen,
      of_decide_eq_true hvalid⟩

/-- After a successful validation only the layout is left to ask for. -/
theorem authenticated_iff {data password : Bytes} {msg : StunMessage} {p : ℕ}
    (hr : StunMessage.read data = some msg)
    (h : msg.validateMessageIntegrity hmac beyond password = .integrityOk)
    (hp : FirstAttribute stunAttrMessageIntegrity data p) :
    Authenticated hmac password data p ↔ DigestFits data p := by
  obtain ⟨q, hq, hlen, hmem⟩ := validate_ok hr h
  obtain rfl := firstAttribute_unique hp hq
  refine ⟨fun ha => ⟨ha.declared, ha.inside⟩, fun hfit => ⟨hp, hfit.1, hfit.2, ?_⟩⟩
  rw [readMemory_inside (by have := hfit.2; omega), hashInput_inside hp.bounds.1 hfit.2 hlen] at hmem
  exact hmem

theorem validate_isSome {password : Bytes} {msg : StunMessage}
    (h : msg.validateMessageIntegrity hmac beyond password = .integrityOk) :
    (msg.getByteString stunAttrMessageIntegrity).isSome := by
  unfold StunMessage.validateMessageIntegrity at h
  by_contra hn
  simp [hn] at h

theorem checkBindingRequest_eq_message {msg msg' : StunMessage} {remoteUfrag : Bytes} :
    checkBindingRequest hmac beyond params msg = .message msg' remoteUfrag ↔
      msg = msg' ∧ parseStunUsername msg = some (params.iceUfrag, remoteUfrag) ∧
      msg.validateMessageIntegrity hmac beyond params.icePwd = .integrityOk := by
  refine ⟨fun h => ?_, fun ⟨he, hp, hv⟩ => ?_⟩
  · cases hp : parseStunUsername msg with
    | none =>
      simp only [checkBindingRequest, hp] at h
      split_ifs at h
    | some parts =>
      obtain ⟨localUfrag, remoteUfrag'⟩ := parts
      simp only [checkBindingRequest, hp] at h
      split_ifs at h with hattrs hlocal hv
      obtain ⟨rfl, rfl⟩ : msg = msg' ∧ remoteUfrag' = remoteUfrag := by simpa using h
      rw [not_not.mp hlocal]
      exact ⟨rfl, rfl, not_not.mp hv⟩
  · subst he
    have hu := (username_of_parse hp).1
    have hm := validate_isSome hv
    simp only [checkBindingRequest, hp]
    rw [if_neg (by simp [hu, Option.isSome_iff_ne_none.mp hm])]
    simp [hv]

/-- `get_stun_message` returns the requests that pass every check. -/
theorem getStunMessage_request {data : Bytes} {msg : StunMessage} {remoteUfrag : Bytes}
    (ht : msg.type = stunBindingRequest) :
    getStunMessage hmac beyond params data = .message msg remoteUfrag ↔
      validateFingerprint data ∧ StunMessage.read data = some msg ∧
      parseStunUsername msg = some (params.iceUfrag, remoteUfrag) ∧
      msg.validateMessageIntegrity hmac beyond params.icePwd = .integrityOk := by
  unfold getStunMessage
  by_cases hf : validateFingerprint data = true
  · cases hr : StunMessage.read data with
    | none => simp [hf]
    | some m =>
      by_cases hm : m.type = stunBindingRequest
      · simp only [hf, not_true_eq_false, if_false, hm, if_true, checkBindingRequest_eq_message,
          true_and, Option.some.injEq]
        refine ⟨fun ⟨he, h⟩ => ⟨he, he ▸ h⟩, fun ⟨he, h⟩ => ⟨he, he ▸ h⟩⟩
      · have hne : m ≠ msg := fun he => hm (he ▸ ht)
        simp [hf, hm, hne]
  · simp [hf]

/-- Messages of other types pass without an integrity check. -/
theorem getStunMessage_other {data : Bytes} {msg : StunMessage} {remoteUfrag : Bytes}
    (ht : msg.type ≠ stunBindingRequest) :
    getStunMessage hmac beyond params data = .message msg remoteUfrag ↔
      validateFingerprint data ∧ StunMessage.read data = some msg ∧ remoteUfrag = [] := by
  unfold getStunMessage
  by_cases hf : validateFingerprint data = true
  · cases hr : StunMessage.read data with
    | none => simp [hf]
    | some m =>
      by_cases hm : m.type = stunBindingRequest
      · have hne : m ≠ msg := fun he => ht (he ▸ hm)
        simp [hf, hm, hne, checkBindingRequest_eq_message]
      · simp [hf, hm, eq_comm]
  · simp [hf]

theorem onReadPacket_checkResponse {data : Bytes} {msg : StunMessage} :
    onReadPacket hmac beyond params remote data = .checkResponse msg ↔
      validateFingerprint data ∧ StunMessage.read data = some msg ∧
      (msg.type = stunBindingResponse ∨ msg.type = stunBindingErrorResponse) ∧
      msg.validateMessageIntegrity hmac beyond remote.icePwd = .integrityOk := by
  have hreq : ∀ t, t = stunBindingResponse ∨ t = stunBindingErrorResponse →
      t ≠ stunBindingRequest := by
    rintro t (rfl | rfl) <;> decide
  refine ⟨fun h => ?_, fun ⟨hf, hr, ht, hv⟩ => ?_⟩
  · unfold onReadPacket at h
    cases hg : getStunMessage hmac beyond params data with
    | notStun => simp [hg] at h
    | errorSent code reason => simp [hg] at h
    | message m remoteUfrag =>
      simp only [hg] at h
      split_ifs at h with h₁ h₂ h₃ h₄
      obtain rfl : m = msg := by simpa using h
      obtain ⟨hf, hr, -⟩ := (getStunMessage_other h₁).mp hg
      exact ⟨hf, hr, h₃, h₄⟩
  · have hne := hreq _ ht
    have hg : getStunMessage hmac beyond params data = .message msg [] :=
      (getStunMessage_other hne).mpr ⟨hf, hr, rfl⟩
    simp only [onReadPacket, hg]
    rw [if_neg hne, if_pos ht, if_pos hv]

/-- What is acted on is authenticated exactly where the datagrams that the checks let
through are laid out for the digest. -/
theorem acts_on_authenticated_iff (hmac : Bytes → Bytes → Bytes) (beyond : ℕ → UInt8)
    (params remote : IceParameters) (data : Bytes) :
    ActsOnAuthenticated hmac beyond params remote data ↔
      LaidOutForDigest hmac beyond params remote data := by
  constructor
  · intro ⟨hreq, hresp⟩ msg p hf hr hp
    refine ⟨fun ht hlocal hv => ?_, fun ht hv => ?_⟩
    · obtain ⟨pair, hpair, hfst⟩ := Option.map_eq_some_iff.mp hlocal
      have hparse : parseStunUsername msg = some (params.iceUfrag, pair.2) := by
        rw [hpair, ← hfst]
      obtain ⟨q, ha, -, hu, hpri⟩ :=
        hreq msg pair.2 ((getStunMessage_request ht).mpr ⟨hf, hr, hparse, hv⟩) ht
      obtain rfl := firstAttribute_unique hp ha.first
      exact ⟨(authenticated_iff hr hv hp).mp ha, hu, hpri⟩
    · obtain ⟨q, ha⟩ := hresp msg (onReadPacket_checkResponse.mpr ⟨hf, hr, ht, hv⟩)
      obtain rfl := firstAttribute_unique hp ha.first
      exact (authenticated_iff hr hv hp).mp ha
  · intro h
    refine ⟨fun msg remoteUfrag hg ht => ?_, fun msg hc => ?_⟩
    · obtain ⟨hf, hr, hparse, hv⟩ := (getStunMessage_request ht).mp hg
      obtain ⟨p, hp, -⟩ := validate_ok hr hv
      obtain ⟨hfit, hu, hpri⟩ := (h msg p hf hr hp).1 ht (by simp [hparse]) hv
      exact ⟨p, (authenticated_iff hr hv hp).mpr hfit, username_of_parse hparse, hu, hpri⟩
    · obtain ⟨hf, hr, ht, hv⟩ := onReadPacket_checkResponse.mp hc
      obtain ⟨p, hp, -⟩ := validate_ok hr hv
      exact ⟨p, (authenticated_iff hr hv hp).mpr ((h msg p hf hr hp).2 ht hv)⟩

end Receive

/-- A binding request whose PRIORITY stands behind MESSAGE-INTEGRITY. -/
def latePriorityRequest : Bytes :=
  [0, 1, 0, 56, 33, 18, 164, 66, 1, 2, 3, 4, 5, 6, 7, 8, 9, 10, 11, 12,
    0, 6, 0, 9, 97, 98, 99, 100, 58, 119, 120, 121, 122, 0, 0, 0,
    0, 8, 0, 20, 205, 225, 30, 178, 51, 186, 41, 34, 23, 255, 244, 28, 191, 186, 49, 168, 19, 8,
    120, 118, 0, 36, 0, 4, 110, 127, 30, 255, 128, 40, 0, 4, 174, 127, 84, 144]

def lateParameters : IceParameters where
  iceUfrag := [97, 98, 99, 100]
  icePwd := [48, 49, 50, 51, 52, 53, 54, 55, 56, 57, 97, 98, 99, 100, 101, 102, 103, 104, 105, 106,
    107, 108]

/-- HMAC-SHA1 at the one input that the request needs. -/
def lateHmac (password data : Bytes) : Bytes :=
  if password = lateParameters.icePwd ∧ data = prefixEndingAt latePriorityRequest 36 then
    [205, 225, 30, 178, 51, 186, 41, 34, 23, 255, 244, 28, 191, 186, 49, 168, 19, 8, 120, 118]
  else []

def latePriorityMessage : StunMessage where
  type := stunBindingRequest
  length := 56
  transactionId := [1, 2, 3, 4, 5, 6, 7, 8, 9, 10, 11, 12]
  attrs := [
    ⟨stunAttrUsername, 9, .byteString [97, 98, 99, 100, 58, 119, 120, 121, 122]⟩,
    ⟨stunAttrMessageIntegrity, 20, .byteString ((latePriorityRequest.drop 40).take 20)⟩,
    ⟨stunAttrPriority, 4, .uint32 1853824767⟩]
  buffer := latePriorityRequest

theorem fingerprint_latePriority : validateFingerprint latePriorityRequest = true := by
  have hcrc : computeCrc32 (latePriorityRequest.take 68) = 0x02d4fe21 ^^^ 0xFFFFFFFF := by
    have hparts : latePriorityRequest.take 68 = latePriorityRequest.take 17 ++
        (latePriorityRequest.drop 17).take 17 ++ (latePriorityRequest.drop 34).take 17 ++
        (latePriorityRequest.drop 51).take 17 := by decide +kernel
    rw [hparts]
    exact computeCrc32_four (show _ = 0xf3318525 by decide +kernel)
      (show _ = 0xc9670a8f by decide +kernel) (show _ = 0x9738b391 by decide +kernel)
      (by decide +kernel)
  have hlen : latePriorityRequest.length - 8 = 68 := by decide
  simp only [validateFingerprint, hlen, hcrc]
  decide +kernel

theorem acts_on_latePriority :
    ¬ActsOnAuthenticated lateHmac (fun _ => 0) lateParameters ⟨[119, 120, 121, 122], []⟩
      latePriorityRequest := by
  rintro ⟨hreq, -⟩
  have hg : getStunMessage lateHmac (fun _ => 0) lateParameters latePriorityRequest =
      .message latePriorityMessage [119, 120, 121, 122] := by
    rw [getStunMessage_request rfl]
    exact ⟨fingerprint_latePriority, by decide +kernel, by decide +kernel, by decide +kernel⟩
  obtain ⟨p, ha, -, -, hpri⟩ := hreq _ _ hg rfl
  have hp : FirstAttribute stunAttrMessageIntegrity latePriorityRequest 36 :=
    (findAttribute_eq_some (show latePriorityRequest.length < 20 + 4 + 76 by decide)).mp (by decide +kernel)
  obtain rfl := firstAttribute_unique hp ha.first
  have hloc : firstStored stunAttrPriority latePriorityRequest =
      some (⟨stunAttrPriority, 4, .uint32 1853824767⟩,
        latePriorityRequest.drop 60) := by decide +kernel
  exact absurd (hpri _ _ hloc) (by decide)

end Stun
end XrtcServer
