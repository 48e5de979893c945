import XrtcServer.DtlsTransport

/-! A rule for what every method of a DTLS transport keeps: it is enough to look at the changes
of the state, at the receiving flag and at the packets that are passed on. -/
namespace XrtcServer
namespace Dtls
open ByteFormat

/-- A property of a transport and its listener that each signal keeps, and every change that
leaves the state alone. -/
structure Rule {σ ℓ : Type} (slots : Slots σ ℓ) (P : Attached σ ℓ → Prop) : Prop where
  setDtlsState : ∀ x state, P x → P (x.setDtlsState slots state)
  setReceiving : ∀ x receiving, P x → P (x.setReceiving slots receiving)
  passOn : ∀ x buf ts, P x → P { x with listener := slots.onReadPacket x.transport buf ts x.listener }
  beside : ∀ x (t : DtlsTransport σ), t.dtlsState = x.transport.dtlsState → P x →
    P { x with transport := t }

namespace Rule
variable {σ η τ ℓ : Type} {A : SslAdapter σ η τ} {slots : Slots σ ℓ} {P : Attached σ ℓ → Prop}
variable (h : Rule slots P) {x : Attached σ ℓ} (hx : P x)
include h hx

theorem setWritableState (writable : Bool) : P (x.setWritableState writable) :=
  h.beside x _ rfl hx

theorem setStream (s : Stream σ) : P (x.setStream s) := h.beside x _ rfl hx

theorem readLoop (n : ℕ) : P (x.readLoop A slots n) := by
  induction n generalizing x with
  | zero => exact hx
  | succ n ih =>
    unfold Attached.readLoop
    cases x.transport.dtls with
    | none => exact hx
    | some s =>
      have hread := h.setStream hx (A.read s).1
      dsimp only
      cases (A.read s).2 with
      | success => exact ih hread
      | eos => exact h.setDtlsState _ _ (h.setWritableState hread false)
      | error => exact h.setDtlsState _ _ (h.setWritableState hread false)
      | block => exact hread

theorem readAll : P (x.readAll A slots) := by
  unfold Attached.readAll
  cases x.transport.dtls with
  | none => exact hx
  | some s => exact h.readLoop hx _

theorem onDtlsEvent (e : SslEvent) : P (x.onDtlsEvent A slots e) := by
  have hopen : P (if e.seOpen then (x.setWritableState true).setDtlsState slots .connected else x) := by
    split
    · exact h.setDtlsState _ _ (h.setWritableState hx true)
    · exact hx
  have hread : ∀ y, P y → P (if e.seRead then y.readAll A slots else y) := by
    intro y hy
    split
    · exact h.readAll hy
    · exact hy
  unfold Attached.onDtlsEvent
  dsimp only
  split
  · exact h.setDtlsState _ _ (h.setWritableState (hread _ hopen) false)
  · exact hread _ hopen

theorem afterCall (s : Stream σ) (events : List SslEvent) : P (x.afterCall A slots s events) := by
  have hfold : ∀ y, P y → P (events.foldl (Attached.onDtlsEvent A slots) y) := by
    induction events with
    | nil => exact fun y hy => hy
    | cons e events ih => exact fun y hy => ih _ (h.onDtlsEvent hy e)
  exact hfold _ (h.setStream hx s)

theorem handleDtlsPacket (data : Bytes) : P (x.handleDtlsPacket A slots data).1 := by
  unfold Attached.handleDtlsPacket
  split
  · cases x.transport.dtls with
    | none => exact hx
    | some s => exact h.afterCall hx _ _
  · exact hx

theorem replayClientHello : P (x.replayClientHello A slots) := by
  have hhello := h.handleDtlsPacket (A := A) hx x.transport.cachedClientHello
  have hhandled : ∀ y, P y → ∀ handled : Bool,
      P (if handled then y else y.setDtlsState slots .failed) := by
    intro y hy handled
    cases handled with
    | true => exact hy
    | false => exact h.setDtlsState _ _ hy
  unfold Attached.replayClientHello
  split
  · exact h.beside _ _ rfl (hhandled _ hhello _)
  · exact hx

theorem maybeStartDtls : P (x.maybeStartDtls A slots) := by
  unfold Attached.maybeStartDtls
  split
  · rename_i s _ _
    have hstart := h.afterCall (A := A) hx (A.startSsl s).1 (A.startSsl s).2.2
    dsimp only
    split
    · exact h.setDtlsState _ _ hstart
    · exact h.replayClientHello (h.setDtlsState _ _ hstart)
  · exact hx

theorem setupDtls : P (x.setupDtls A slots).1 := by
  unfold Attached.setupDtls
  dsimp only
  cases A.create x.transport.created x.transport.localCertificate with
  | none => exact h.beside _ _ rfl hx
  | some ssl =>
    have hset : P { x with transport := { x.transport with
        dtls := some (x.transport.configure A ssl).1, created := x.transport.created + 1 } } :=
      h.beside _ _ rfl hx
    dsimp only
    split
    · exact h.maybeStartDtls hset
    · exact hset

theorem restartDtls : P (x.restartDtls A slots).1 := by
  have hsetup : ∀ y, P y → P (if (y.setupDtls A slots).2 then y.setupDtls A slots
      else ((y.setupDtls A slots).1.setDtlsState slots .failed, false)).1 := by
    intro y hy
    have hset := h.setupDtls (A := A) hy
    split
    · exact hset
    · exact h.setDtlsState _ _ hset
  unfold Attached.restartDtls
  cases x.transport.dtls with
  | none => exact hsetup x hx
  | some s =>
    have hnone : P { x with transport := { x.transport with dtls := none } } := h.beside _ _ rfl hx
    exact hsetup _ (h.setWritableState (h.setDtlsState _ .new hnone) false)

theorem setRemoteFingerprint (digestAlg digest : Bytes) :
    P (x.setRemoteFingerprint A slots digestAlg digest).1 := by
  have hset : P { x with transport := { x.transport with
      remoteFingerprintValue := digest, remoteFingerprintAlg := digestAlg } } := h.beside _ _ rfl hx
  unfold Attached.setRemoteFingerprint
  dsimp only
  split_ifs
  · exact hx
  · exact h.beside _ _ rfl hx
  · exact hx
  · exact h.restartDtls hset
  · split
    · exact h.restartDtls hset
    · rename_i s _
      have hcall := h.setStream hset (A.setPeerCertificateDigest s digestAlg digest).1
      cases (A.setPeerCertificateDigest s digestAlg digest).2 with
      | none => exact hcall
      | some err => exact h.setDtlsState _ _ hcall

theorem onReadPacket (buf : Bytes) (ts : ℤ) : P (x.onReadPacket A slots buf ts) := by
  have hcached : P { x with transport := { x.transport with cachedClientHello := buf } } :=
    h.beside _ _ rfl hx
  unfold Attached.onReadPacket
  cases x.transport.dtlsState with
  | new =>
    dsimp only
    split_ifs
    · exact h.setupDtls hcached
    · exact hcached
    · exact hx
  | connecting =>
    dsimp only
    split
    · exact h.handleDtlsPacket hx buf
    · exact hx
  | connected =>
    dsimp only
    split_ifs
    · exact h.handleDtlsPacket hx buf
    · exact h.passOn x buf ts hx
    · exact hx
  | closed => exact hx
  | failed => exact hx

theorem onWritableState (writable : Bool) : P (x.onWritableState A slots writable) := by
  have hflag : P { x with transport := { x.transport with iceWritable := writable } } :=
    h.beside _ _ rfl hx
  unfold Attached.onWritableState
  dsimp only
  split
  · exact h.setWritableState hflag writable
  · split
    · exact h.maybeStartDtls hflag
    · exact h.setWritableState hflag writable
    · exact hflag

theorem onReceivingState (receiving : Bool) : P (x.onReceivingState slots receiving) :=
  h.setReceiving _ receiving (h.beside _ _ rfl hx)

theorem onTask (task : τ) : P (x.onTask A slots task) := by
  unfold Attached.onTask
  cases x.transport.dtls with
  | none => exact hx
  | some s => exact h.afterCall hx _ _

end Rule
end Dtls
end XrtcServer
