import XrtcServer.DtlsTransport
import XrtcServer.SrtpTransport

/-! The DTLS-SRTP transport, which listens to a DTLS transport, keys the SRTP sessions after
a handshake and passes unprotected packets up. -/
namespace XrtcServer
namespace Srtp
open ByteFormat Dtls

inductive RtpPacketType
  | rtp | rtcp | unknown
  deriving DecidableEq, Repr

def kRtpVersion : ℕ := 2
def kMinRtcpPacketLen : ℕ := 4

def hasCorrectRtpVersion (packet : Bytes) : Bool := (packet.getD 0 0).toNat >>> 6 = kRtpVersion

def payloadTypeIsReservedForRtcp (payloadType : UInt8) : Bool := 64 ≤ payloadType && payloadType < 96

/-- The two tests of `rtp_utils`, which differ in the length and in the payload type. -/
def isRtpPacket (packet : Bytes) : Bool :=
  packet.length ≥ kMinRtpPacketLen && hasCorrectRtpVersion packet &&
    !payloadTypeIsReservedForRtcp (packet.getD 1 0 &&& 0x7F)

def isRtcpPacket (packet : Bytes) : Bool :=
  packet.length ≥ kMinRtcpPacketLen && hasCorrectRtpVersion packet &&
    payloadTypeIsReservedForRtcp (packet.getD 1 0 &&& 0x7F)

def inferRtpPacketType (packet : Bytes) : RtpPacketType :=
  if isRtpPacket packet then .rtp
  else if isRtcpPacket packet then .rtcp
  else .unknown

/-- `rtc::GetSrtpKeyAndSaltLengths`. -/
def getSrtpKeyAndSaltLengths (cryptoSuite : ℤ) : Option (ℕ × ℕ) :=
  if cryptoSuite = 1 ∨ cryptoSuite = 2 then some (16, 14)
  else if cryptoSuite = 7 then some (16, 12)
  else if cryptoSuite = 8 then some (32, 12)
  else none

def kDtlsSrtpExporterLabel : Bytes := "EXTRACTOR-dtls_srtp".toUTF8.toList

/-- The exported bytes are the two keys and then the two salts, each time the client's first. -/
def clientWriteKey (dtlsBuffer : Bytes) (keyLen saltLen : ℕ) : Bytes :=
  dtlsBuffer.take keyLen ++ (dtlsBuffer.drop (2 * keyLen)).take saltLen

def serverWriteKey (dtlsBuffer : Bytes) (keyLen saltLen : ℕ) : Bytes :=
  (dtlsBuffer.drop keyLen).take keyLen ++ (dtlsBuffer.drop (2 * keyLen + saltLen)).take saltLen

/-- A packet that is passed up, `signal_rtp_packet_received` or
`signal_rtcp_packet_received`. -/
structure PassedUp where
  rtcp : Bool
  packet : Bytes
  ts : ℤ
  deriving DecidableEq, Repr

/-- `rtcpDtlsWritable` is null or the flag of the RTCP transport. -/
structure DtlsSrtpTransport (κ : Type) extends SrtpTransport κ where
  rtcpDtlsWritable : Option Bool := none
  passedUp : List PassedUp := []

namespace DtlsSrtpTransport
variable {σ η τ κ : Type} (A : SslAdapter σ η τ) (L : Libsrtp κ)
variable (d : DtlsSrtpTransport κ)

/-- What the two handlers of received packets have in common. -/
def onPacketReceived (rtcp : Bool) (result : SrtpTransport κ × Option Bytes) (ts : ℤ) :
    DtlsSrtpTransport κ :=
  if d.isSrtpActive then
    match result.2 with
    | none => { d with toSrtpTransport := result.1 }
    | some packet =>
      { d with toSrtpTransport := result.1, passedUp := d.passedUp ++ [⟨rtcp, packet, ts⟩] }
  else d

def onRtpPacketReceived (packet : Bytes) (ts : ℤ) : DtlsSrtpTransport κ :=
  d.onPacketReceived false (d.toSrtpTransport.unprotectRtp L packet) ts

def onRtcpPacketReceived (packet : Bytes) (ts : ℤ) : DtlsSrtpTransport κ :=
  d.onPacketReceived true (d.toSrtpTransport.unprotectRtcp L packet) ts

def onReadPacket (data : Bytes) (ts : ℤ) : DtlsSrtpTransport κ :=
  match inferRtpPacketType data with
  | .unknown => d
  | .rtcp => d.onRtcpPacketReceived L data ts
  | .rtp => d.onRtpPacketReceived L data ts

def isDtlsWritable (dtls : DtlsTransport σ) : Bool :=
  let rtcpTransport := if d.rtcpMuxEnabled then none else d.rtcpDtlsWritable
  dtls.writable && rtcpTransport.getD true

/-- The crypto suite, the sending key and the receiving key: the server sends. -/
def extractParams (dtls : DtlsTransport σ) : Option (ℤ × Bytes × Bytes) :=
  if !dtls.dtlsActive then none
  else
    match dtls.getSrtpCryptoSuite A with
    | none => none
    | some selectedCryptoSuite =>
      match getSrtpKeyAndSaltLengths selectedCryptoSuite with
      | none => none
      | some (keyLen, saltLen) =>
        match dtls.exportKeyingMaterial A kDtlsSrtpExporterLabel none (keyLen * 2 + saltLen * 2) with
        | none => none
        | some dtlsBuffer =>
          some (selectedCryptoSuite, serverWriteKey dtlsBuffer keyLen saltLen,
            clientWriteKey dtlsBuffer keyLen saltLen)

def setupDtlsSrtp (dtls : DtlsTransport σ) : DtlsSrtpTransport κ :=
  match extractParams A dtls with
  | none => d
  | some (cs, sendKey, recvKey) =>
    { d with toSrtpTransport := (d.toSrtpTransport.setRtpParams L cs sendKey cs recvKey).1 }

def maybeSetupDtlsSrtp (dtls : DtlsTransport σ) : DtlsSrtpTransport κ :=
  if d.isSrtpActive || !d.isDtlsWritable dtls then d else d.setupDtlsSrtp A L dtls

def onDtlsState (dtls : DtlsTransport σ) (state : DtlsTransportState) : DtlsSrtpTransport κ :=
  if state ≠ .connected then { d with toSrtpTransport := d.toSrtpTransport.resetParams }
  else d.maybeSetupDtlsSrtp A L dtls

def setDtlsTransports (dtls : DtlsTransport σ) (rtcpDtlsWritable : Option Bool) :
    DtlsSrtpTransport κ :=
  { d with rtcpDtlsWritable }.maybeSetupDtlsSrtp A L dtls

def slots : Slots σ (DtlsSrtpTransport κ) where
  onDtlsState dtls state d := d.onDtlsState A L dtls state
  onReceivingState _ d := d
  onReadPacket _ data ts d := d.onReadPacket L data ts

/-- What goes to the DTLS transport to be sent, if anything. -/
def sendWith (result : SrtpTransport κ × Option Bytes) : DtlsSrtpTransport κ × Option Bytes :=
  if d.isSrtpActive then ({ d with toSrtpTransport := result.1 }, result.2) else (d, none)

def sendRtp (buf : Bytes) : DtlsSrtpTransport κ × Option Bytes :=
  d.sendWith (d.toSrtpTransport.protectRtp L buf (buf.length + d.getSendAuthTagLen.1))

def sendRtcp (buf : Bytes) : DtlsSrtpTransport κ × Option Bytes :=
  d.sendWith (d.toSrtpTransport.protectRtcp L buf (buf.length + d.getSendAuthTagLen.1 + 4))

end DtlsSrtpTransport

/-- A DTLS transport and the DTLS-SRTP transport that listens to it. -/
abbrev Channel (σ κ : Type) := Attached σ (DtlsSrtpTransport κ)

/-- What happens to a channel. The tasks of the SSL stream bring the events of the handshake,
closes and errors, as far as no packet does. -/
inductive Event (τ : Type)
  | task (task : τ)
  | packet (data : Bytes) (ts : ℤ)
  | setRemoteFingerprint (digestAlg digest : Bytes)
  | setLocalCertificate (cert : Option ℕ)
  | iceWritable (writable : Bool)
  | iceReceiving (receiving : Bool)
  | rtcpDtlsWritable (writable : Option Bool)
  | usage (usage : Usage)
  | sendRtp (buf : Bytes)
  | sendRtcp (buf : Bytes)

namespace Channel
variable {σ η τ κ : Type} (A : SslAdapter σ η τ) (L : Libsrtp κ)

/-- `TransportController::set_local_description` for one transport. -/
def start (srtpCiphers : List ℤ) (cert : Option ℕ) (usage : Usage) (rtcpDtlsWritable : Option Bool) :
    Channel σ κ :=
  let x : Channel σ κ := { transport := { srtpCiphers }, listener := { rtcpMuxEnabled := true, usage } }
  let x := (x.setLocalCertificate cert).1
  { x with listener := x.listener.setDtlsTransports A L x.transport rtcpDtlsWritable }

def step (x : Channel σ κ) (e : Event τ) : Channel σ κ :=
  let slots := DtlsSrtpTransport.slots A L
  match e with
  | .task task => x.onTask A slots task
  | .packet data ts => x.onReadPacket A slots data ts
  | .setRemoteFingerprint digestAlg digest => (x.setRemoteFingerprint A slots digestAlg digest).1
  | .setLocalCertificate cert => (x.setLocalCertificate cert).1
  | .iceWritable writable => x.onWritableState A slots writable
  | .iceReceiving receiving => x.onReceivingState slots receiving
  | .rtcpDtlsWritable rtcpDtlsWritable => { x with listener := { x.listener with rtcpDtlsWritable } }
  | .usage usage => { x with listener := { x.listener with usage } }
  | .sendRtp buf => { x with listener := (x.listener.sendRtp L buf).1 }
  | .sendRtcp buf => { x with listener := (x.listener.sendRtcp L buf).1 }

end Channel
end Srtp
end XrtcServer
