import XrtcServer.ByteFormat

/-! The DTLS transport over one ICE channel, with the SSL stream that it owns. A signal runs
its slots at once, so every method is a function of the transport and of the object that
listens to it. -/
namespace XrtcServer
namespace Dtls
open ByteFormat

def kDtlsRecordHeaderLen : ℕ := 13
def kMaxPendingPackets : ℕ := 2
def kMinRtpPacketLen : ℕ := 12

def isDtlsPacket (buf : Bytes) : Bool :=
  buf.length ≥ kDtlsRecordHeaderLen && buf.getD 0 0 > 19 && buf.getD 0 0 < 64

def isDtlsClientHelloPacket (buf : Bytes) : Bool :=
  isDtlsPacket buf && buf.length > 17 && buf.getD 0 0 = 22 && buf.getD 13 0 = 1

def isRtpPacket (buf : Bytes) : Bool :=
  buf.length ≥ kMinRtpPacketLen && buf.getD 0 0 &&& 0xC0 = 0x80

/-- The length that the header of a record declares for its body. -/
def recordLen (data : Bytes) : ℕ := (data.getD 11 0).toNat <<< 8 ||| (data.getD 12 0).toNat

/-- The loop of `_handle_dtls_packet` over what is left of a datagram. -/
def recordsComplete (data : Bytes) : Bool :=
  if data = [] then true
  else if data.length < kDtlsRecordHeaderLen then false
  else if recordLen data + kDtlsRecordHeaderLen > data.length then false
  else recordsComplete (data.drop (kDtlsRecordHeaderLen + recordLen data))
termination_by data.length
decreasing_by
  have hpos : 0 < data.length := List.length_pos_iff.mpr ‹_›
  rw [List.length_drop, kDtlsRecordHeaderLen]
  omega

inductive DtlsTransportState
  | new | connecting | connected | closed | failed
  deriving DecidableEq, Repr

/-- An SSL stream and the packets that wait in the `StreamInterfaceChannel` below it. -/
structure Stream (σ : Type) where
  ssl : σ
  packets : List Bytes := []

/-- `BufferQueue::WriteBack`: a packet that finds the queue full is lost. -/
def Stream.writeBack {σ : Type} (s : Stream σ) (data : Bytes) : Stream σ :=
  if s.packets.length = kMaxPendingPackets then s else { s with packets := s.packets ++ [data] }

/-- What the stream signals: which events, and the error of a close. -/
structure SslEvent where
  seOpen : Bool := false
  seRead : Bool := false
  seClose : Bool := false
  error : ℤ := 0
  deriving DecidableEq, Repr

inductive StreamResult
  | success | eos | error | block
  deriving DecidableEq, Repr

inductive SslPeerCertificateDigestError
  | unknownAlgorithm | invalidLength | verificationFailed
  deriving DecidableEq, Repr

/-- The SSL stream adapter. Its calls take it from one state to another, together with the
packets below it, and some of them signal. A task is what the adapter runs by itself, at a
timeout or because it was posted. An adapter does one handshake, whose secrets decide
the keying material; and a successful read takes some of what waits to be read. -/
structure SslAdapter (σ η τ : Type) where
  /-- The stream that is created after so many others, as a DTLS 1.2 server with this
  certificate. -/
  create : ℕ → Option ℕ → Option σ
  setPeerCertificateDigest :
    Stream σ → Bytes → Bytes → Stream σ × Option SslPeerCertificateDigestError
  setDtlsSrtpCryptoSuites : Stream σ → List ℤ → Stream σ × Bool
  startSsl : Stream σ → Stream σ × ℤ × List SslEvent
  onReadable : Stream σ → Stream σ × List SslEvent
  read : Stream σ → Stream σ × StreamResult
  runTask : τ → Stream σ → Stream σ × List SslEvent
  getDtlsSrtpCryptoSuite : σ → Option ℤ
  exportKeyingMaterial : σ → Bytes → Option Bytes → ℕ → Option Bytes
  handshake : σ → Option η
  keyingMaterial : η → Bytes → Option Bytes → ℕ → Bytes
  pending : σ → ℕ
  handshake_setPeerCertificateDigest : ∀ s alg digest h, handshake s.ssl = some h →
    handshake (setPeerCertificateDigest s alg digest).1.ssl = some h
  handshake_setDtlsSrtpCryptoSuites : ∀ s suites h, handshake s.ssl = some h →
    handshake (setDtlsSrtpCryptoSuites s suites).1.ssl = some h
  handshake_startSsl : ∀ s h, handshake s.ssl = some h →
    handshake (startSsl s).1.ssl = some h
  handshake_onReadable : ∀ s h, handshake s.ssl = some h →
    handshake (onReadable s).1.ssl = some h
  handshake_read : ∀ s h, handshake s.ssl = some h → handshake (read s).1.ssl = some h
  handshake_runTask : ∀ t s h, handshake s.ssl = some h →
    handshake (runTask t s).1.ssl = some h
  exported : ∀ s label context len material,
    exportKeyingMaterial s label context len = some material →
      ∃ h, handshake s = some h ∧ keyingMaterial h label context len = material
  pending_read : ∀ s, (read s).2 = .success → pending (read s).1.ssl < pending s.ssl

/-- `created` counts the SSL streams so far; the last two fields are flags of the ICE channel. -/
structure DtlsTransport (σ : Type) where
  dtlsState : DtlsTransportState := .new
  receiving : Bool := false
  writable : Bool := false
  dtls : Option (Stream σ) := none
  cachedClientHello : Bytes := []
  localCertificate : Option ℕ := none
  remoteFingerprintValue : Bytes := []
  remoteFingerprintAlg : Bytes := []
  dtlsActive : Bool := false
  srtpCiphers : List ℤ := []
  created : ℕ := 0
  iceWritable : Bool := false
  iceReceiving : Bool := false

/-- The calls of `_setup_dtls` on the new SSL stream, and whether all of them succeeded. -/
def DtlsTransport.configure {σ η τ : Type} (A : SslAdapter σ η τ) (t : DtlsTransport σ) (ssl : σ) :
    Stream σ × Bool :=
  let verified : Stream σ × Bool :=
    if t.remoteFingerprintValue.length > 0 then
      let call := A.setPeerCertificateDigest ⟨ssl, []⟩ t.remoteFingerprintAlg t.remoteFingerprintValue
      (call.1, call.2.isNone)
    else (⟨ssl, []⟩, true)
  if !verified.2 || t.srtpCiphers = [] then verified
  else A.setDtlsSrtpCryptoSuites verified.1 t.srtpCiphers

/-- The slots of a listener, for the signals of the transport that anybody listens to. -/
structure Slots (σ ℓ : Type) where
  onDtlsState : DtlsTransport σ → DtlsTransportState → ℓ → ℓ
  onReceivingState : DtlsTransport σ → ℓ → ℓ
  onReadPacket : DtlsTransport σ → Bytes → ℤ → ℓ → ℓ

/-- A transport and the state of its listener. -/
structure Attached (σ ℓ : Type) where
  transport : DtlsTransport σ
  listener : ℓ

namespace Attached
variable {σ η τ ℓ : Type} (A : SslAdapter σ η τ) (slots : Slots σ ℓ)

def setStream (x : Attached σ ℓ) (s : Stream σ) : Attached σ ℓ :=
  { x with transport := { x.transport with dtls := some s } }

def setDtlsState (x : Attached σ ℓ) (state : DtlsTransportState) : Attached σ ℓ :=
  if x.transport.dtlsState = state then x
  else
    let transport := { x.transport with dtlsState := state }
    { transport, listener := slots.onDtlsState transport state x.listener }

def setWritableState (x : Attached σ ℓ) (writable : Bool) : Attached σ ℓ :=
  { x with transport := { x.transport with writable } }

def setReceiving (x : Attached σ ℓ) (receiving : Bool) : Attached σ ℓ :=
  if x.transport.receiving = receiving then x
  else
    let transport := { x.transport with receiving }
    { transport, listener := slots.onReceivingState transport x.listener }

/-- The reads of `_on_dtls_event`, at most so many. -/
def readLoop : ℕ → Attached σ ℓ → Attached σ ℓ
  | 0, x => x
  | n+1, x =>
    match x.transport.dtls with
    | none => x
    | some s =>
      let x := x.setStream (A.read s).1
      match (A.read s).2 with
      | .success => readLoop n x
      | .eos => (x.setWritableState false).setDtlsState slots .closed
      | .error => (x.setWritableState false).setDtlsState slots .failed
      | .block => x

/-- All reads up to the first that does not succeed. -/
def readAll (x : Attached σ ℓ) : Attached σ ℓ :=
  match x.transport.dtls with
  | none => x
  | some s => x.readLoop A slots (A.pending s.ssl + 1)

/-- The reads stop by themselves: more of them would change nothing. -/
theorem readLoop_stops {n m : ℕ} {x : Attached σ ℓ} {s : Stream σ} (hs : x.transport.dtls = some s)
    (hn : A.pending s.ssl < n) (hm : A.pending s.ssl < m) :
    x.readLoop A slots n = x.readLoop A slots m := by
  induction n generalizing m x s with
  | zero => exact absurd hn (Nat.not_lt_zero _)
  | succ n ih =>
    cases m with
    | zero => exact absurd hm (Nat.not_lt_zero _)
    | succ m =>
      simp only [readLoop, hs]
      cases hresult : (A.read s).2 with
      | success =>
        have hless := A.pending_read s hresult
        exact ih (s := (A.read s).1) rfl (by omega) (by omega)
      | eos => rfl
      | error => rfl
      | block => rfl

theorem readAll_eq {n : ℕ} {x : Attached σ ℓ} {s : Stream σ} (hs : x.transport.dtls = some s)
    (hn : A.pending s.ssl < n) : x.readAll A slots = x.readLoop A slots n := by
  unfold readAll
  rw [hs]
  exact readLoop_stops A slots hs (Nat.lt_succ_self _) hn

def onDtlsEvent (x : Attached σ ℓ) (e : SslEvent) : Attached σ ℓ :=
  let x := if e.seOpen then (x.setWritableState true).setDtlsState slots .connected else x
  let x := if e.seRead then x.readAll A slots else x
  if e.seClose then
    (x.setWritableState false).setDtlsState slots (if e.error = 0 then .closed else .failed)
  else x

/-- A call of the SSL stream returns its new state, after it signalled. -/
def afterCall (x : Attached σ ℓ) (s : Stream σ) (events : List SslEvent) : Attached σ ℓ :=
  events.foldl (onDtlsEvent A slots) (x.setStream s)

/-- `_handle_dtls_packet`: whether the datagram went to the SSL stream. It is not called
without one. -/
def handleDtlsPacket (x : Attached σ ℓ) (data : Bytes) : Attached σ ℓ × Bool :=
  if recordsComplete data then
    match x.transport.dtls with
    | none => (x, true)
    | some s =>
      let call := A.onReadable (s.writeBack data)
      (x.afterCall A slots call.1 call.2, true)
  else (x, false)

/-- The part of `_maybe_start_dtls` after the start: the cached ClientHello is handled now. -/
def replayClientHello (x : Attached σ ℓ) : Attached σ ℓ :=
  if x.transport.cachedClientHello.length > 0 then
    let result := x.handleDtlsPacket A slots x.transport.cachedClientHello
    let x := if result.2 then result.1 else result.1.setDtlsState slots .failed
    { x with transport := { x.transport with cachedClientHello := [] } }
  else x

def maybeStartDtls (x : Attached σ ℓ) : Attached σ ℓ :=
  match x.transport.dtls, x.transport.iceWritable with
  | some s, true =>
    let call := A.startSsl s
    let x := x.afterCall A slots call.1 call.2.2
    if call.2.1 ≠ 0 then x.setDtlsState slots .failed
    else (x.setDtlsState slots .connecting).replayClientHello A slots
  | _, _ => x

def setupDtls (x : Attached σ ℓ) : Attached σ ℓ × Bool :=
  let t := x.transport
  match A.create t.created t.localCertificate with
  | none => ({ x with transport := { t with dtls := none, created := t.created + 1 } }, false)
  | some ssl =>
    let configured := t.configure A ssl
    let x : Attached σ ℓ :=
      { x with transport := { t with dtls := some configured.1, created := t.created + 1 } }
    if configured.2 then (x.maybeStartDtls A slots, true) else (x, false)

def setLocalCertificate (x : Attached σ ℓ) (cert : Option ℕ) : Attached σ ℓ × Bool :=
  if x.transport.dtlsActive then (x, cert = x.transport.localCertificate)
  else
    match cert with
    | none => (x, true)
    | some _ =>
      ({ x with transport := { x.transport with localCertificate := cert, dtlsActive := true } }, true)

/-- The part of `set_remote_fingerprint` that starts DTLS anew. -/
def restartDtls (x : Attached σ ℓ) : Attached σ ℓ × Bool :=
  let x :=
    match x.transport.dtls with
    | none => x
    | some _ =>
      let x := { x with transport := { x.transport with dtls := none } }
      (x.setDtlsState slots .new).setWritableState false
  let result := x.setupDtls A slots
  if result.2 then result else (result.1.setDtlsState slots .failed, false)

def setRemoteFingerprint (x : Attached σ ℓ) (digestAlg digest : Bytes) : Attached σ ℓ × Bool :=
  let t := x.transport
  if t.dtlsActive && t.remoteFingerprintValue = digest && digestAlg ≠ [] then (x, true)
  else if digestAlg = [] then ({ x with transport := { t with dtlsActive := false } }, false)
  else if !t.dtlsActive then (x, false)
  else
    let fingerprintChange := t.remoteFingerprintValue.length > 0
    let x := { x with transport :=
      { t with remoteFingerprintValue := digest, remoteFingerprintAlg := digestAlg } }
    if fingerprintChange then x.restartDtls A slots
    else
      match t.dtls with
      | none => x.restartDtls A slots
      | some s =>
        let call := A.setPeerCertificateDigest s digestAlg digest
        let x := x.setStream call.1
        match call.2 with
        | none => (x, true)
        | some err => (x.setDtlsState slots .failed, err = .verificationFailed)

def onReadPacket (x : Attached σ ℓ) (buf : Bytes) (ts : ℤ) : Attached σ ℓ :=
  match x.transport.dtlsState with
  | .new =>
    if isDtlsClientHelloPacket buf then
      let x := { x with transport := { x.transport with cachedClientHello := buf } }
      if x.transport.dtls.isNone && x.transport.localCertificate.isSome then (x.setupDtls A slots).1
      else x
    else x
  | .connecting => if isDtlsPacket buf then (x.handleDtlsPacket A slots buf).1 else x
  | .connected =>
    if isDtlsPacket buf then (x.handleDtlsPacket A slots buf).1
    else if isRtpPacket buf then
      { x with listener := slots.onReadPacket x.transport buf ts x.listener }
    else x
  | _ => x

/-- `_on_writable_state`, at a change of the channel's flag. -/
def onWritableState (x : Attached σ ℓ) (writable : Bool) : Attached σ ℓ :=
  let x := { x with transport := { x.transport with iceWritable := writable } }
  if !x.transport.dtlsActive then x.setWritableState writable
  else
    match x.transport.dtlsState with
    | .new => x.maybeStartDtls A slots
    | .connected => x.setWritableState writable
    | _ => x

def onReceivingState (x : Attached σ ℓ) (receiving : Bool) : Attached σ ℓ :=
  let x := { x with transport := { x.transport with iceReceiving := receiving } }
  x.setReceiving slots receiving

/-- The SSL stream runs a task. -/
def onTask (x : Attached σ ℓ) (task : τ) : Attached σ ℓ :=
  match x.transport.dtls with
  | none => x
  | some s =>
    let call := A.runTask task s
    x.afterCall A slots call.1 call.2

end Attached

namespace DtlsTransport
variable {σ η τ : Type} (A : SslAdapter σ η τ) (t : DtlsTransport σ)

def getSrtpCryptoSuite : Option ℤ :=
  if t.dtlsState ≠ .connected then none
  else t.dtls.bind fun s => A.getDtlsSrtpCryptoSuite s.ssl

def exportKeyingMaterial (label : Bytes) (context : Option Bytes) (len : ℕ) : Option Bytes :=
  t.dtls.bind fun s => A.exportKeyingMaterial s.ssl label context len

end DtlsTransport
end Dtls
end XrtcServer
