import XrtcServer.ByteFormat

/-! STUN messages as `ice/stun.cpp` builds and reads them. A message is read from
a byte cursor; attribute values are kept with the type and length fields the
source stores beside them. -/
namespace XrtcServer
namespace Stun
open ByteFormat

def stunHeaderSize : ℕ := 20
def stunAttributeHeaderSize : ℕ := 4
def stunMagicCookieLength : ℕ := 4
def stunTransactionIdLength : ℕ := 12
def stunMagicCookie : ℕ := 0x2112A442
def stunMessageIntegritySize : ℕ := 20
def stunTypeMask : ℕ := 0x0110
def stunFingerprintXorValue : ℕ := 0x5354554e

def stunBindingRequest : ℕ := 0x0001
def stunBindingResponse : ℕ := 0x0101
def stunBindingErrorResponse : ℕ := 0x0111

def stunAttrUsername : ℕ := 0x0006
def stunAttrMessageIntegrity : ℕ := 0x0008
def stunAttrErrorCode : ℕ := 0x0009
def stunAttrXorMappedAddress : ℕ := 0x0020
def stunAttrPriority : ℕ := 0x0024
def stunAttrUseCandidate : ℕ := 0x0025
def stunAttrFingerprint : ℕ := 0x8028
def stunAttrIceControlled : ℕ := 0x8029

def stunErrorBadRequest : ℕ := 400
def stunErrorUnauthorized : ℕ := 401
def stunErrorUnknownAttribute : ℕ := 420
def stunErrorServerError : ℕ := 500
def stunErrorGlobalFailure : ℕ := 600

/-- `StunAttributeValueType`. -/
inductive ValueType
  | unknown | uint32 | byteString
  deriving DecidableEq, Repr

/-- An address in host byte order, without one for `AF_UNSPEC`. -/
inductive IpAddress
  | unspecified
  | v4 (addr : UInt32)
  | v6 (addr : { bytes : Bytes // bytes.length = 16 })
  deriving DecidableEq, Repr

structure SocketAddress where
  ip : IpAddress
  port : UInt16
  deriving DecidableEq, Repr

/-- What the subclass of an attribute stores beside its type and length. -/
inductive StunValue
  | byteString (bytes : Bytes)
  | uint32 (bits : ℕ)
  | errorCode (cls number : ℕ) (reason : Bytes)
  | uint64 (bits : ℕ)
  | address (address : SocketAddress)
  | xorAddress (address : SocketAddress)
  deriving DecidableEq, Repr

structure StunAttribute where
  type : ℕ
  length : ℕ
  value : StunValue
  deriving DecidableEq, Repr

structure StunMessage where
  type : ℕ := 0
  length : ℕ := 0
  transactionId : Bytes := List.replicate 12 48
  attrs : List StunAttribute := []
  buffer : Bytes := []
  deriving DecidableEq, Repr

def getAttributeValueType (type : ℕ) : ValueType :=
  if type = stunAttrUsername then .byteString
  else if type = stunAttrMessageIntegrity then .byteString
  else if type = stunAttrPriority then .uint32
  else .unknown

/-- `StunAttribute::create`: a 32-bit attribute takes its own size, not the one
on the wire. -/
def createAttribute (type length : ℕ) : Option StunAttribute :=
  match getAttributeValueType type with
  | .byteString => some ⟨type, length, .byteString []⟩
  | .uint32 => some ⟨type, 4, .uint32 0⟩
  | .unknown => none

/-- The failure of the last `Consume` is ignored, and then nothing is consumed. -/
def consumePadding (length : ℕ) (buf : Bytes) : Bytes :=
  if 0 < length % 4 then (consume (4 - length % 4) buf).getD buf else buf

def StunAttribute.read (attr : StunAttribute) (buf : Bytes) : Option (StunAttribute × Bytes) :=
  match attr.value with
  | .byteString _ => do
    let (bytes, buf) ← readBytes attr.length buf
    some ({ attr with value := .byteString bytes }, consumePadding attr.length buf)
  | .uint32 _ => do
    if attr.length ≠ 4 then none
    let (bits, buf) ← readUInt 4 buf
    some ({ attr with value := .uint32 bits }, buf)
  | .errorCode _ _ _ => do
    if attr.length < 4 then none
    let (val, buf) ← readUInt 4 buf
    let (reason, buf) ← readBytes (attr.length - 4) buf
    some ({ attr with value := .errorCode (val / 256 % 8) (val % 256) reason },
      consumePadding attr.length buf)
  | .uint64 _ => do
    if attr.length ≠ 8 then none
    let (bits, buf) ← readUInt 8 buf
    some ({ attr with value := .uint64 bits }, buf)
  | .address _ => some (attr, buf)
  | .xorAddress _ => some (attr, buf)

/-- The length of a skipped attribute with its padding, computed in the 16-bit
variable that holds the length. -/
def skipLength (attrLength : ℕ) : ℕ :=
  if attrLength % 4 ≠ 0 then (attrLength + (4 - attrLength % 4)) % 65536 else attrLength

/-- One round of the attribute loop of `StunMessage::read`. -/
def readAttribute (buf : Bytes) : Option (Option StunAttribute × Bytes) := do
  let (attrType, buf) ← readUInt 2 buf
  let (attrLength, buf) ← readUInt 2 buf
  match createAttribute attrType attrLength with
  | none =>
    let buf ← consume (skipLength attrLength) buf
    some (none, buf)
  | some attr =>
    let (attr, buf) ← attr.read buf
    some (some attr, buf)

/-- The attribute loop. Each round consumes at least the four header bytes, so
the length of the buffer is enough fuel. -/
def readAttributes : ℕ → Bytes → Option (List StunAttribute)
  | _, [] => some []
  | 0, _ :: _ => none
  | fuel+1, b :: bs => do
    let (attr, rest) ← readAttribute (b :: bs)
    let attrs ← readAttributes fuel rest
    some (attr.toList ++ attrs)

def StunMessage.read (data : Bytes) : Option StunMessage := do
  let (type, buf) ← readUInt 2 data
  if type &&& 0x0800 ≠ 0 then none
  let (length, buf) ← readUInt 2 buf
  let (magicCookie, buf) ← readBytes stunMagicCookieLength buf
  let (transactionId, buf) ← readBytes stunTransactionIdLength buf
  let transactionId :=
    if beNat magicCookie ≠ stunMagicCookie then magicCookie ++ transactionId else transactionId
  if buf.length ≠ length then none
  let attrs ← readAttributes buf.length buf
  some { type, length, transactionId, attrs, buffer := data }

def StunMessage.getAttribute (msg : StunMessage) (type : ℕ) : Option StunAttribute :=
  msg.attrs.find? fun attr => attr.type = type

def StunMessage.getByteString (msg : StunMessage) (type : ℕ) : Option Bytes :=
  match msg.getAttribute type with
  | some ⟨_, _, .byteString bytes⟩ => some bytes
  | _ => none

def StunMessage.getUInt32 (msg : StunMessage) (type : ℕ) : Option ℕ :=
  match msg.getAttribute type with
  | some ⟨_, _, .uint32 bits⟩ => some bits
  | _ => none

/-- `get_error_code_value`: without an ERROR-CODE attribute the answer is a
global failure. -/
def StunMessage.getErrorCodeValue (msg : StunMessage) : ℕ :=
  match msg.getAttribute stunAttrErrorCode with
  | some ⟨_, _, .errorCode cls number _⟩ => cls * 100 + number
  | _ => stunErrorGlobalFailure

def isStunRequestType (reqType : ℕ) : Bool := reqType &&& stunTypeMask = 0

def getStunSuccessResponse (reqType : ℕ) : ℤ :=
  if isStunRequestType reqType then ((reqType ||| 0x100 : ℕ) : ℤ) else -1

def getStunErrorResponse (reqType : ℕ) : ℤ :=
  if isStunRequestType reqType then ((reqType ||| 0x110 : ℕ) : ℤ) else -1

theorem getStunSuccessResponse_request :
    getStunSuccessResponse stunBindingRequest = stunBindingResponse := by decide

theorem getStunErrorResponse_request :
    getStunErrorResponse stunBindingRequest = stunBindingErrorResponse := by decide

end Stun
end XrtcServer
