import XrtcServer.ByteFormat
import Mathlib.Data.Int.Notation

/-! The two SRTP sessions of a transport over libsrtp. -/
namespace XrtcServer
namespace Srtp
open ByteFormat

structure CryptoPolicy where
  cipherKeyLen : ℕ
  authTagLen : ℕ
  deriving DecidableEq, Repr

inductive SsrcType
  | anyInbound | anyOutbound
  deriving DecidableEq, Repr

structure SrtpPolicy where
  ssrcType : SsrcType
  rtp : CryptoPolicy
  rtcp : CryptoPolicy
  key : Bytes
  deriving DecidableEq, Repr

/-- The library. A context works under the policy that it was created with or last updated
to, whatever packets it protects and unprotects. -/
structure Libsrtp (κ : Type) where
  policyForRtp : ℤ → Option CryptoPolicy
  policyForRtcp : ℤ → Option CryptoPolicy
  /-- Whether the initialisation succeeds that follows so many others. -/
  init : ℕ → Bool
  create : SrtpPolicy → Option κ
  update : κ → SrtpPolicy → κ × Bool
  protect : κ → Bytes → κ × Option Bytes
  protectRtcp : κ → Bytes → κ × Option Bytes
  unprotect : κ → Bytes → κ × Option Bytes
  unprotectRtcp : κ → Bytes → κ × Option Bytes
  policyOf : κ → SrtpPolicy
  policyOf_create : ∀ p k, create p = some k → policyOf k = p
  policyOf_update : ∀ k p, (update k p).2 = true → policyOf (update k p).1 = p
  policyOf_protect : ∀ k data, policyOf (protect k data).1 = policyOf k
  policyOf_protectRtcp : ∀ k data, policyOf (protectRtcp k data).1 = policyOf k
  policyOf_unprotect : ∀ k data, policyOf (unprotect k data).1 = policyOf k
  policyOf_unprotectRtcp : ∀ k data, policyOf (unprotectRtcp k data).1 = policyOf k

structure SrtpSession (κ : Type) where
  session : Option κ := none
  inited : Bool := false
  rtpAuthTagLen : ℕ := 0
  rtcpAuthTagLen : ℕ := 0

/-- `gLibsrtpUsageCount` belongs to the process. `inits` counts the initialisations. -/
structure Usage where
  gLibsrtpUsageCount : ℕ := 0
  inits : ℕ := 0

namespace Usage
variable {κ : Type} (L : Libsrtp κ) (u : Usage)

def incrementLibsrtpUsageCountAndMaybeInit : Usage × Bool :=
  if u.gLibsrtpUsageCount = 0 then
    if L.init u.inits then ({ gLibsrtpUsageCount := 1, inits := u.inits + 1 }, true)
    else ({ u with inits := u.inits + 1 }, false)
  else ({ u with gLibsrtpUsageCount := u.gLibsrtpUsageCount + 1 }, true)

/-- What the destructor of a session does. -/
def release (session : Option (SrtpSession κ)) : Usage :=
  match session with
  | none => u
  | some r => if r.inited then { u with gLibsrtpUsageCount := u.gLibsrtpUsageCount - 1 } else u

end Usage

namespace SrtpSession
variable {κ : Type} (L : Libsrtp κ) (r : SrtpSession κ)

def doSetKey (ssrcType : SsrcType) (cs : ℤ) (key : Bytes) : SrtpSession κ × Bool :=
  match L.policyForRtp cs, L.policyForRtcp cs with
  | some rtp, some rtcp =>
    if key.length ≠ rtp.cipherKeyLen then (r, false)
    else
      let policy : SrtpPolicy := { ssrcType, rtp, rtcp, key }
      match r.session with
      | none =>
        match L.create policy with
        | none => (r, false)
        | some k =>
          ({ r with session := some k, rtpAuthTagLen := rtp.authTagLen
                    rtcpAuthTagLen := rtcp.authTagLen }, true)
      | some k =>
        let updated := L.update k policy
        if updated.2 then
          ({ r with session := some updated.1, rtpAuthTagLen := rtp.authTagLen
                    rtcpAuthTagLen := rtcp.authTagLen }, true)
        else ({ r with session := some updated.1 }, false)
  | _, _ => (r, false)

def setKey (u : Usage) (ssrcType : SsrcType) (cs : ℤ) (key : Bytes) :
    Usage × SrtpSession κ × Bool :=
  if r.session.isSome then (u, r, false)
  else
    let acquired := u.incrementLibsrtpUsageCountAndMaybeInit L
    if acquired.2 then (acquired.1, { r with inited := true }.doSetKey L ssrcType cs key)
    else (acquired.1, r, false)

def updateKey (ssrcType : SsrcType) (cs : ℤ) (key : Bytes) : SrtpSession κ × Bool :=
  if r.session.isNone then (r, false) else r.doSetKey L ssrcType cs key

def setSend (u : Usage) (cs : ℤ) (key : Bytes) : Usage × SrtpSession κ × Bool :=
  r.setKey L u .anyOutbound cs key

def updateSend (cs : ℤ) (key : Bytes) : SrtpSession κ × Bool := r.updateKey L .anyOutbound cs key

def setRecv (u : Usage) (cs : ℤ) (key : Bytes) : Usage × SrtpSession κ × Bool :=
  r.setKey L u .anyInbound cs key

def updateRecv (cs : ℤ) (key : Bytes) : SrtpSession κ × Bool := r.updateKey L .anyInbound cs key

/-- A call of the library on the context of the session, none without a context. -/
def call (f : κ → Bytes → κ × Option Bytes) (data : Bytes) : SrtpSession κ × Option Bytes :=
  match r.session with
  | none => (r, none)
  | some k => ({ r with session := some (f k data).1 }, (f k data).2)

def unprotectRtp (data : Bytes) : SrtpSession κ × Option Bytes := r.call L.unprotect data

def unprotectRtcp (data : Bytes) : SrtpSession κ × Option Bytes := r.call L.unprotectRtcp data

def protectRtp (data : Bytes) (maxLen : ℕ) : SrtpSession κ × Option Bytes :=
  if maxLen < data.length + r.rtpAuthTagLen then (r, none) else r.call L.protect data

/-- The length is checked with the tag of the RTP packets here too. -/
def protectRtcp (data : Bytes) (maxLen : ℕ) : SrtpSession κ × Option Bytes :=
  if maxLen < data.length + r.rtpAuthTagLen + 4 then (r, none) else r.call L.protectRtcp data

/-- The lengths of both tags, left at zero without a context. -/
def authTagLen : ℕ × ℕ :=
  if r.session.isSome then (r.rtpAuthTagLen, r.rtcpAuthTagLen) else (0, 0)

end SrtpSession

structure SrtpTransport (κ : Type) where
  rtcpMuxEnabled : Bool
  sendSession : Option (SrtpSession κ) := none
  recvSession : Option (SrtpSession κ) := none
  usage : Usage := {}

namespace SrtpTransport
variable {κ : Type} (L : Libsrtp κ) (t : SrtpTransport κ)

def isSrtpActive : Bool := t.sendSession.isSome && t.recvSession.isSome

def resetParams : SrtpTransport κ :=
  { t with
    sendSession := none
    recvSession := none
    usage := (t.usage.release t.sendSession).release t.recvSession }

def createSrtpSession : SrtpTransport κ :=
  { t.resetParams with sendSession := some {}, recvSession := some {} }

/-- The sending side of `set_rtp_params`. -/
def installSend (newSession : Bool) (cs : ℤ) (key : Bytes) : SrtpTransport κ × Bool :=
  match t.sendSession with
  | none => (t, false)
  | some r =>
    if newSession then
      let result := r.setSend L t.usage cs key
      ({ t with usage := result.1, sendSession := some result.2.1 }, result.2.2)
    else
      let result := r.updateSend L cs key
      ({ t with sendSession := some result.1 }, result.2)

/-- The receiving side of `set_rtp_params`. -/
def installRecv (newSession : Bool) (cs : ℤ) (key : Bytes) : SrtpTransport κ × Bool :=
  match t.recvSession with
  | none => (t, false)
  | some r =>
    if newSession then
      let result := r.setRecv L t.usage cs key
      ({ t with usage := result.1, recvSession := some result.2.1 }, result.2.2)
    else
      let result := r.updateRecv L cs key
      ({ t with recvSession := some result.1 }, result.2)

def setRtpParams (sendCs : ℤ) (sendKey : Bytes) (recvCs : ℤ) (recvKey : Bytes) :
    SrtpTransport κ × Bool :=
  let newSession := t.sendSession.isNone
  let t := if newSession then t.createSrtpSession else t
  let sent := t.installSend L newSession sendCs sendKey
  if sent.2 then
    let received := sent.1.installRecv L newSession recvCs recvKey
    if received.2 then (received.1, true) else (received.1.resetParams, false)
  else (sent.1.resetParams, false)

/-- The receiving session unprotects, if the transport is active. -/
def unprotectWith (unprotect : SrtpSession κ → Bytes → SrtpSession κ × Option Bytes) (data : Bytes) :
    SrtpTransport κ × Option Bytes :=
  match t.sendSession, t.recvSession with
  | some _, some r => ({ t with recvSession := some (unprotect r data).1 }, (unprotect r data).2)
  | _, _ => (t, none)

def unprotectRtp (data : Bytes) : SrtpTransport κ × Option Bytes :=
  t.unprotectWith (fun r data => r.unprotectRtp L data) data

def unprotectRtcp (data : Bytes) : SrtpTransport κ × Option Bytes :=
  t.unprotectWith (fun r data => r.unprotectRtcp L data) data

def getSendAuthTagLen : ℕ × ℕ :=
  match t.sendSession with
  | none => (0, 0)
  | some r => r.authTagLen

/-- The sending session protects, if the transport is active. -/
def protectWith (protect : SrtpSession κ → SrtpSession κ × Option Bytes) :
    SrtpTransport κ × Option Bytes :=
  match t.sendSession, t.recvSession with
  | some r, some _ => ({ t with sendSession := some (protect r).1 }, (protect r).2)
  | _, _ => (t, none)

def protectRtp (data : Bytes) (maxLen : ℕ) : SrtpTransport κ × Option Bytes :=
  t.protectWith fun r => r.protectRtp L data maxLen

def protectRtcp (data : Bytes) (maxLen : ℕ) : SrtpTransport κ × Option Bytes :=
  t.protectWith fun r => r.protectRtcp L data maxLen

end SrtpTransport
end Srtp
end XrtcServer
