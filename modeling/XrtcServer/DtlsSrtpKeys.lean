import XrtcServer.DtlsSrtpTransport
import XrtcServer.Runs

/-! The SRTP sessions of a channel live in the connected state only and under the keys of
the current handshake, and only what they unprotect is passed up. -/
namespace XrtcServer
namespace Srtp
open ByteFormat Dtls

section Sessions
variable {κ : Type} (L : Libsrtp κ)

/-- There is a session, and its context works under a policy of this kind with this key. -/
def Keyed (session : Option (SrtpSession κ)) (ssrcType : SsrcType) (key : Bytes) : Prop :=
  ∃ r k, session = some r ∧ r.session = some k ∧
    (L.policyOf k).ssrcType = ssrcType ∧ (L.policyOf k).key = key

variable {L} {ssrcType : SsrcType} {cs : ℤ} {key data : Bytes}

/-- A key that is accepted puts a context under a policy of its suite into the session. -/
theorem doSetKey_accepted {r : SrtpSession κ} (h : (r.doSetKey L ssrcType cs key).2 = true) :
    ∃ rtp rtcp k, L.policyForRtp cs = some rtp ∧ L.policyForRtcp cs = some rtcp ∧
      L.policyOf k = { ssrcType, rtp, rtcp, key } ∧ (r.doSetKey L ssrcType cs key).1 =
        { r with session := some k, rtpAuthTagLen := rtp.authTagLen, rtcpAuthTagLen := rtcp.authTagLen } := by
  unfold SrtpSession.doSetKey at h ⊢
  cases hrtp : L.policyForRtp cs with
  | none => simp [hrtp] at h
  | some rtp =>
    cases hrtcp : L.policyForRtcp cs with
    | none => simp [hrtp, hrtcp] at h
    | some rtcp =>
      simp only [hrtp, hrtcp] at h ⊢
      by_cases hlen : key.length ≠ rtp.cipherKeyLen
      · simp [hlen] at h
      · rw [if_neg hlen] at h ⊢
        cases hsession : r.session with
        | none =>
          simp only [hsession] at h ⊢
          cases hcreate : L.create { ssrcType, rtp, rtcp, key } with
          | none => simp [hcreate] at h
          | some k => exact ⟨rtp, rtcp, k, rfl, rfl, L.policyOf_create _ k hcreate, rfl⟩
        | some k =>
          simp only [hsession] at h ⊢
          by_cases hupdate : (L.update k { ssrcType, rtp, rtcp, key }).2 = true
          · rw [if_pos hupdate]
            exact ⟨rtp, rtcp, _, rfl, rfl, L.policyOf_update k _ hupdate, rfl⟩
          · simp [hupdate] at h

variable (L) in
/-- There is a session, and it is one that accepted this key. -/
def TookKey (session : Option (SrtpSession κ)) (ssrcType : SsrcType) (cs : ℤ) (key : Bytes) : Prop :=
  ∃ r : SrtpSession κ, (r.doSetKey L ssrcType cs key).2 = true ∧
    session = some (r.doSetKey L ssrcType cs key).1

theorem TookKey.keyed {session : Option (SrtpSession κ)} (h : TookKey L session ssrcType cs key) :
    Keyed L session ssrcType key := by
  obtain ⟨r, haccepted, rfl⟩ := h
  obtain ⟨rtp, rtcp, k, -, -, hpolicy, hr⟩ := doSetKey_accepted haccepted
  exact ⟨_, k, rfl, by rw [hr], by rw [hpolicy], by rw [hpolicy]⟩

theorem tookKey_setKey {r : SrtpSession κ} {u : Usage}
    (h : (r.setKey L u ssrcType cs key).2.2 = true) :
    TookKey L (some (r.setKey L u ssrcType cs key).2.1) ssrcType cs key := by
  unfold SrtpSession.setKey at h ⊢
  dsimp only at h ⊢
  split_ifs at h ⊢ with hsession hacquired
  exact ⟨_, h, rfl⟩

theorem tookKey_updateKey {r : SrtpSession κ} (h : (r.updateKey L ssrcType cs key).2 = true) :
    TookKey L (some (r.updateKey L ssrcType cs key).1) ssrcType cs key := by
  unfold SrtpSession.updateKey at h ⊢
  split_ifs at h ⊢
  exact ⟨_, h, rfl⟩

theorem keyed_call {f : κ → Bytes → κ × Option Bytes}
    (hf : ∀ k data, L.policyOf (f k data).1 = L.policyOf k) {r : SrtpSession κ}
    (h : Keyed L (some r) ssrcType key) : Keyed L (some (r.call f data).1) ssrcType key := by
  obtain ⟨_, k, hr, hk, htype, hkey⟩ := h
  obtain rfl := Option.some.inj hr
  refine ⟨_, (f k data).1, rfl, by simp [SrtpSession.call, hk], ?_, ?_⟩
  · rw [hf, htype]
  · rw [hf, hkey]

end Sessions

section Transport
variable {κ : Type} {L : Libsrtp κ} (t : SrtpTransport κ) (newSession : Bool) (cs : ℤ) (key : Bytes)

theorem tookKey_installSend (h : (t.installSend L newSession cs key).2 = true) :
    TookKey L (t.installSend L newSession cs key).1.sendSession .anyOutbound cs key := by
  unfold SrtpTransport.installSend at h ⊢
  cases hsend : t.sendSession with
  | none => simp [hsend] at h
  | some r =>
    simp only [hsend] at h ⊢
    cases newSession with
    | false => exact tookKey_updateKey h
    | true => exact tookKey_setKey h

theorem tookKey_installRecv (h : (t.installRecv L newSession cs key).2 = true) :
    TookKey L (t.installRecv L newSession cs key).1.recvSession .anyInbound cs key := by
  unfold SrtpTransport.installRecv at h ⊢
  cases hrecv : t.recvSession with
  | none => simp [hrecv] at h
  | some r =>
    simp only [hrecv] at h ⊢
    cases newSession with
    | false => exact tookKey_updateKey h
    | true => exact tookKey_setKey h

theorem sendSession_installRecv :
    (t.installRecv L newSession cs key).1.sendSession = t.sendSession := by
  unfold SrtpTransport.installRecv
  cases t.recvSession with
  | none => rfl
  | some r => cases newSession <;> rfl

section With
variable {t} {ssrcType : SsrcType} {key : Bytes}

/-- What an active transport unprotects is what its receiving session does. -/
theorem unprotectWith_active {r s : SrtpSession κ} (hs : t.sendSession = some s)
    (hr : t.recvSession = some r) (f : SrtpSession κ → Bytes → SrtpSession κ × Option Bytes)
    (data : Bytes) :
    t.unprotectWith f data = ({ t with recvSession := some (f r data).1 }, (f r data).2) := by
  simp [SrtpTransport.unprotectWith, hs, hr]

theorem protectWith_active {r s : SrtpSession κ} (hs : t.sendSession = some s)
    (hr : t.recvSession = some r) (f : SrtpSession κ → SrtpSession κ × Option Bytes) :
    t.protectWith f = ({ t with sendSession := some (f s).1 }, (f s).2) := by
  simp [SrtpTransport.protectWith, hs, hr]

end With

variable (L) in
/-- Both sessions took the keys of the call, or there is none. -/
theorem setRtpParams_tookKey (sendCs : ℤ) (sendKey : Bytes) (recvCs : ℤ) (recvKey : Bytes) :
    let result := t.setRtpParams L sendCs sendKey recvCs recvKey
    (result.2 = true ∧ TookKey L result.1.sendSession .anyOutbound sendCs sendKey ∧
        TookKey L result.1.recvSession .anyInbound recvCs recvKey) ∨
      (result.2 = false ∧ result.1.sendSession = none ∧ result.1.recvSession = none) := by
  unfold SrtpTransport.setRtpParams
  dsimp only
  generalize (if t.sendSession.isNone = true then t.createSrtpSession else t) = u
  split_ifs with hsend hrecv
  · refine Or.inl ⟨rfl, ?_, tookKey_installRecv _ _ _ _ hrecv⟩
    rw [sendSession_installRecv]
    exact tookKey_installSend _ _ _ _ hsend
  · exact Or.inr ⟨rfl, rfl, rfl⟩
  · exact Or.inr ⟨rfl, rfl, rfl⟩

variable (L) in
/-- Both sessions work under the keys of the call, or there is none. -/
theorem setRtpParams_installs (sendCs : ℤ) (sendKey : Bytes) (recvCs : ℤ) (recvKey : Bytes) :
    let result := t.setRtpParams L sendCs sendKey recvCs recvKey
    (result.2 = true ∧ Keyed L result.1.sendSession .anyOutbound sendKey ∧
        Keyed L result.1.recvSession .anyInbound recvKey) ∨
      (result.2 = false ∧ result.1.sendSession = none ∧ result.1.recvSession = none) := by
  rcases setRtpParams_tookKey L t sendCs sendKey recvCs recvKey with h | h
  · exact Or.inl ⟨h.1, h.2.1.keyed, h.2.2.keyed⟩
  · exact Or.inr h

end Transport

/-- Neither session exists. -/
def SrtpTransport.Bare {κ : Type} (t : SrtpTransport κ) : Prop :=
  t.sendSession = none ∧ t.recvSession = none

section Handshake
variable {σ η τ κ : Type} (A : SslAdapter σ η τ) (L : Libsrtp κ)

/-- Both sessions work under the keys that the handshake of this SSL stream decides: the
server's key to send and the client's key to receive. -/
def KeyedFrom (dtls : Option (Stream σ)) (t : SrtpTransport κ) : Prop :=
  ∃ s h cs keyLen saltLen, dtls = some s ∧ A.handshake s.ssl = some h ∧
    getSrtpKeyAndSaltLengths cs = some (keyLen, saltLen) ∧
    let material := A.keyingMaterial h kDtlsSrtpExporterLabel none (keyLen * 2 + saltLen * 2)
    Keyed L t.sendSession .anyOutbound (serverWriteKey material keyLen saltLen) ∧
    Keyed L t.recvSession .anyInbound (clientWriteKey material keyLen saltLen)

/-- There are no sessions, or the transport is connected and they have the keys of its
handshake. -/
def Settled (dtls : DtlsTransport σ) (d : DtlsSrtpTransport κ) : Prop :=
  d.Bare ∨ dtls.dtlsState = .connected ∧ KeyedFrom A L dtls.dtls d.toSrtpTransport

variable {A L} {dtls : DtlsTransport σ} {d : DtlsSrtpTransport κ}

theorem extractParams_eq_some {cs : ℤ} {sendKey recvKey : Bytes}
    (h : DtlsSrtpTransport.extractParams A dtls = some (cs, sendKey, recvKey)) :
    dtls.dtlsState = .connected ∧ ∃ s hs keyLen saltLen, dtls.dtls = some s ∧
      A.handshake s.ssl = some hs ∧ getSrtpKeyAndSaltLengths cs = some (keyLen, saltLen) ∧
      let material := A.keyingMaterial hs kDtlsSrtpExporterLabel none (keyLen * 2 + saltLen * 2)
      sendKey = serverWriteKey material keyLen saltLen ∧
        recvKey = clientWriteKey material keyLen saltLen := by
  unfold DtlsSrtpTransport.extractParams at h
  split at h
  · exact absurd h (by simp)
  · cases hsuite : dtls.getSrtpCryptoSuite A with
    | none => simp [hsuite] at h
    | some suite =>
      cases hlen : getSrtpKeyAndSaltLengths suite with
      | none => simp [hsuite, hlen] at h
      | some lens =>
        obtain ⟨keyLen, saltLen⟩ := lens
        cases hexport : dtls.exportKeyingMaterial A kDtlsSrtpExporterLabel none
            (keyLen * 2 + saltLen * 2) with
        | none => simp [hsuite, hlen, hexport] at h
        | some material =>
          simp only [hsuite, hlen, hexport, Option.some.injEq, Prod.mk.injEq] at h
          obtain ⟨rfl, rfl, rfl⟩ := h
          have hstate : dtls.dtlsState = .connected := by
            by_contra hne
            simp [DtlsTransport.getSrtpCryptoSuite, hne] at hsuite
          have ⟨s, hs, hexported⟩ := Option.bind_eq_some_iff.mp hexport
          have ⟨hs', hshake, hmaterial⟩ := A.exported _ _ _ _ _ hexported
          exact ⟨hstate, s, hs', keyLen, saltLen, hs, hshake, hlen,
            by rw [hmaterial], by rw [hmaterial]⟩

theorem settled_maybeSetup (h : d.Bare) : Settled A L dtls (d.maybeSetupDtlsSrtp A L dtls) := by
  unfold DtlsSrtpTransport.maybeSetupDtlsSrtp
  split
  · exact Or.inl h
  · unfold DtlsSrtpTransport.setupDtlsSrtp
    cases hparams : DtlsSrtpTransport.extractParams A dtls with
    | none => exact Or.inl h
    | some params =>
      obtain ⟨cs, sendKey, recvKey⟩ := params
      have ⟨hstate, s, hs, keyLen, saltLen, hdtls, hshake, hlen, hsend, hrecv⟩ :=
        extractParams_eq_some hparams
      rcases setRtpParams_installs L d.toSrtpTransport cs sendKey cs recvKey with h' | h'
      · exact Or.inr ⟨hstate, s, hs, cs, keyLen, saltLen, hdtls, hshake, hlen,
          hsend ▸ h'.2.1, hrecv ▸ h'.2.2⟩
      · exact Or.inl h'.2

theorem passedUp_maybeSetup :
    (d.maybeSetupDtlsSrtp A L dtls).passedUp = d.passedUp := by
  unfold DtlsSrtpTransport.maybeSetupDtlsSrtp DtlsSrtpTransport.setupDtlsSrtp
  split
  · rfl
  · cases DtlsSrtpTransport.extractParams A dtls <;> rfl

end Handshake

namespace Channel
variable {σ η τ κ : Type} (A : SslAdapter σ η τ) (L : Libsrtp κ)

/-- The invariant of a channel whose packets up to here were passed up as in the log. -/
structure Sound (log : List PassedUp) (x : Channel σ κ) : Prop where
  stream : x.transport.dtlsState = .connected → x.transport.dtls.isSome
  settled : Settled A L x.transport x.listener
  passed : x.listener.passedUp = log

/-- The same of a channel that has an SSL stream. -/
structure Live (log : List PassedUp) (x : Channel σ κ) : Prop extends Sound A L log x where
  some : x.transport.dtls.isSome

variable {A L} {log : List PassedUp} {x : Channel σ κ}

theorem Sound.bare (h : Sound A L log x) (hstate : x.transport.dtlsState ≠ .connected) :
    x.listener.Bare := by
  rcases h.settled with hbare | hkeyed
  · exact hbare
  · exact absurd hkeyed.1 hstate

/-- Leaving the connected state drops the sessions, so the SSL stream may go too. -/
theorem Sound.leave (h : Sound A L log x) {state : DtlsTransportState} (hstate : state ≠ .connected)
    (dtls : Option (Stream σ)) :
    Sound A L log (Attached.setDtlsState (DtlsSrtpTransport.slots A L)
      { x with transport := { x.transport with dtls } } state) := by
  unfold Attached.setDtlsState
  by_cases hold : x.transport.dtlsState = state
  · have hne : x.transport.dtlsState ≠ .connected := by rw [hold]; exact hstate
    rw [if_pos hold]
    exact ⟨fun hc => absurd hc hne, Or.inl (h.bare hne), h.passed⟩
  · have hslot : (DtlsSrtpTransport.slots A L).onDtlsState
        { x.transport with dtls, dtlsState := state } state x.listener =
          { x.listener with toSrtpTransport := x.listener.resetParams } := if_pos hstate
    rw [if_neg hold]
    dsimp only
    rw [hslot]
    exact ⟨fun hc => absurd hc hstate, Or.inl ⟨rfl, rfl⟩, h.passed⟩

theorem Sound.connect (h : Sound A L log x) (hsome : x.transport.dtls.isSome) :
    Sound A L log (x.setDtlsState (DtlsSrtpTransport.slots A L) .connected) := by
  unfold Attached.setDtlsState
  split
  · exact h
  · rename_i hne
    have hbare := h.bare hne
    exact ⟨fun _ => hsome, settled_maybeSetup hbare, passedUp_maybeSetup.trans h.passed⟩

theorem dtls_setDtlsState (slots : Slots σ (DtlsSrtpTransport κ)) (state : DtlsTransportState) :
    (x.setDtlsState slots state).transport.dtls = x.transport.dtls := by
  unfold Attached.setDtlsState
  split <;> rfl

theorem Live.setDtlsState (h : Live A L log x) (state : DtlsTransportState) :
    Live A L log (x.setDtlsState (DtlsSrtpTransport.slots A L) state) := by
  have hsome : (x.setDtlsState (DtlsSrtpTransport.slots A L) state).transport.dtls.isSome := by
    rw [dtls_setDtlsState]
    exact h.some
  by_cases hstate : state = .connected
  · subst hstate
    exact ⟨h.toSound.connect h.some, hsome⟩
  · exact ⟨h.toSound.leave hstate x.transport.dtls, hsome⟩

theorem Sound.setWritableState (h : Sound A L log x) (writable : Bool) :
    Sound A L log (x.setWritableState writable) := ⟨h.stream, h.settled, h.passed⟩

theorem Live.setWritableState (h : Live A L log x) (writable : Bool) :
    Live A L log (x.setWritableState writable) := ⟨h.toSound.setWritableState writable, h.some⟩

/-- A call of the SSL stream keeps the secrets of its handshake. -/
theorem Sound.setStream (h : Sound A L log x) {s s' : Stream σ} (hs : x.transport.dtls = some s)
    (hkeeps : ∀ secrets, A.handshake s.ssl = some secrets → A.handshake s'.ssl = some secrets) :
    Live A L log (x.setStream s') := by
  refine ⟨⟨fun _ => rfl, ?_, h.passed⟩, rfl⟩
  rcases h.settled with hbare | ⟨hstate, s₀, secrets, cs, keyLen, saltLen, hs₀, hshake, hkeys⟩
  · exact Or.inl hbare
  · obtain rfl : s = s₀ := Option.some.inj (hs.symm.trans hs₀)
    exact Or.inr ⟨hstate, s', secrets, cs, keyLen, saltLen, rfl, hkeeps secrets hshake, hkeys⟩

theorem Live.readLoop (n : ℕ) (h : Live A L log x) :
    Live A L log (x.readLoop A (DtlsSrtpTransport.slots A L) n) := by
  induction n generalizing x with
  | zero => exact h
  | succ n ih =>
    unfold Attached.readLoop
    cases hs : x.transport.dtls with
    | none => exact h
    | some s =>
      have hread : Live A L log (x.setStream (A.read s).1) :=
        h.toSound.setStream hs fun secrets => A.handshake_read s secrets
      dsimp only
      cases (A.read s).2 with
      | success => exact ih hread
      | eos => exact (hread.setWritableState false).setDtlsState .closed
      | error => exact (hread.setWritableState false).setDtlsState .failed
      | block => exact hread

theorem Live.readAll (h : Live A L log x) :
    Live A L log (x.readAll A (DtlsSrtpTransport.slots A L)) := by
  unfold Attached.readAll
  cases x.transport.dtls with
  | none => exact h
  | some s => exact h.readLoop _

theorem Live.onDtlsEvent (h : Live A L log x) (e : SslEvent) :
    Live A L log (x.onDtlsEvent A (DtlsSrtpTransport.slots A L) e) := by
  have hopen : Live A L log (if e.seOpen then (x.setWritableState true).setDtlsState
      (DtlsSrtpTransport.slots A L) .connected else x) := by
    split
    · exact (h.setWritableState true).setDtlsState .connected
    · exact h
  have hread : ∀ y : Channel σ κ, Live A L log y →
      Live A L log (if e.seRead then y.readAll A (DtlsSrtpTransport.slots A L) else y) := by
    intro y hy
    split
    · exact hy.readAll
    · exact hy
  unfold Attached.onDtlsEvent
  dsimp only
  split
  · exact ((hread _ hopen).setWritableState false).setDtlsState _
  · exact hread _ hopen

theorem Sound.afterCall (h : Sound A L log x) {s s' : Stream σ} (hs : x.transport.dtls = some s)
    (hkeeps : ∀ secrets, A.handshake s.ssl = some secrets → A.handshake s'.ssl = some secrets)
    (events : List SslEvent) :
    Live A L log (x.afterCall A (DtlsSrtpTransport.slots A L) s' events) := by
  have hfold : ∀ y : Channel σ κ, Live A L log y →
      Live A L log (events.foldl (Attached.onDtlsEvent A (DtlsSrtpTransport.slots A L)) y) := by
    induction events with
    | nil => exact fun y hy => hy
    | cons e events ih => exact fun y hy => ih _ (hy.onDtlsEvent e)
  exact hfold _ (h.setStream hs hkeeps)

theorem Sound.handleDtlsPacket (h : Sound A L log x) (data : Bytes) :
    Sound A L log (x.handleDtlsPacket A (DtlsSrtpTransport.slots A L) data).1 := by
  unfold Attached.handleDtlsPacket
  split
  · cases hs : x.transport.dtls with
    | none => exact h
    | some s =>
      have hwrite : (s.writeBack data).ssl = s.ssl := by
        unfold Stream.writeBack
        split <;> rfl
      have hkeeps : ∀ secrets, A.handshake s.ssl = some secrets →
          A.handshake (A.onReadable (s.writeBack data)).1.ssl = some secrets := by
        intro secrets hshake
        apply A.handshake_onReadable
        rw [hwrite, hshake]
      exact (h.afterCall hs hkeeps _).toSound
  · exact h

theorem Sound.replayClientHello (h : Sound A L log x) :
    Sound A L log (x.replayClientHello A (DtlsSrtpTransport.slots A L)) := by
  unfold Attached.replayClientHello
  split
  · have hhello := h.handleDtlsPacket x.transport.cachedClientHello
    have hhandled : ∀ y : Channel σ κ, Sound A L log y → ∀ handled : Bool,
        Sound A L log
          (if handled then y else y.setDtlsState (DtlsSrtpTransport.slots A L) .failed) := by
      intro y hy handled
      cases handled with
      | true => exact hy
      | false => exact hy.leave (by decide) y.transport.dtls
    have hdone := hhandled _ hhello (x.handleDtlsPacket A (DtlsSrtpTransport.slots A L)
      x.transport.cachedClientHello).2
    exact ⟨hdone.stream, hdone.settled, hdone.passed⟩
  · exact h

theorem Sound.maybeStartDtls (h : Sound A L log x) :
    Sound A L log (x.maybeStartDtls A (DtlsSrtpTransport.slots A L)) := by
  unfold Attached.maybeStartDtls
  split
  · rename_i s hs _
    have hstart := h.afterCall hs (A.handshake_startSsl s) (A.startSsl s).2.2
    dsimp only
    split
    · exact (hstart.setDtlsState .failed).toSound
    · exact (hstart.setDtlsState .connecting).toSound.replayClientHello
  · exact h

/-- A new SSL stream, or none, where the transport is not connected. -/
theorem Sound.replace (h : Sound A L log x) (hstate : x.transport.dtlsState ≠ .connected)
    (dtls : Option (Stream σ)) (created : ℕ) :
    Sound A L log { x with transport := { x.transport with dtls, created } } :=
  ⟨fun hc => absurd hc hstate, Or.inl (h.bare hstate), h.passed⟩

theorem Sound.setupDtls (h : Sound A L log x) (hstate : x.transport.dtlsState ≠ .connected) :
    Sound A L log (x.setupDtls A (DtlsSrtpTransport.slots A L)).1 := by
  unfold Attached.setupDtls
  dsimp only
  cases A.create x.transport.created x.transport.localCertificate with
  | none => exact h.replace hstate none _
  | some ssl =>
    have hset := h.replace hstate (some (x.transport.configure A ssl).1) (x.transport.created + 1)
    dsimp only
    split
    · exact hset.maybeStartDtls
    · exact hset

theorem dtlsState_leave (slots : Slots σ (DtlsSrtpTransport κ)) (state : DtlsTransportState) :
    (x.setDtlsState slots state).transport.dtlsState = state := by
  unfold Attached.setDtlsState
  split
  · assumption
  · rfl

theorem Sound.restartDtls (h : Sound A L log x) :
    Sound A L log (x.restartDtls A (DtlsSrtpTransport.slots A L)).1 := by
  have hsetup : ∀ y : Channel σ κ, Sound A L log y → y.transport.dtlsState ≠ .connected →
      Sound A L log (if (y.setupDtls A (DtlsSrtpTransport.slots A L)).2
        then y.setupDtls A (DtlsSrtpTransport.slots A L)
        else ((y.setupDtls A (DtlsSrtpTransport.slots A L)).1.setDtlsState
          (DtlsSrtpTransport.slots A L) .failed, false)).1 := by
    intro y hy hstate
    have hset := hy.setupDtls hstate
    split
    · exact hset
    · exact hset.leave (by decide) (y.setupDtls A (DtlsSrtpTransport.slots A L)).1.transport.dtls
  unfold Attached.restartDtls
  cases hs : x.transport.dtls with
  | none => exact hsetup x h fun hc => by simpa [hs] using h.stream hc
  | some s =>
    apply hsetup
    · exact (h.leave (by decide) none).setWritableState false
    · rw [Attached.setWritableState, dtlsState_leave]
      decide

theorem Sound.setRemoteFingerprint (h : Sound A L log x) (digestAlg digest : Bytes) :
    Sound A L log (x.setRemoteFingerprint A (DtlsSrtpTransport.slots A L) digestAlg digest).1 := by
  have hset : Sound A L log { x with transport := { x.transport with
      remoteFingerprintValue := digest, remoteFingerprintAlg := digestAlg } } :=
    ⟨h.stream, h.settled, h.passed⟩
  unfold Attached.setRemoteFingerprint
  dsimp only
  split_ifs
  · exact h
  · exact ⟨h.stream, h.settled, h.passed⟩
  · exact h
  · exact hset.restartDtls
  · split
    · exact hset.restartDtls
    · rename_i s hs
      have hcall := hset.setStream hs fun secrets =>
        A.handshake_setPeerCertificateDigest s digestAlg digest secrets
      cases (A.setPeerCertificateDigest s digestAlg digest).2 with
      | none => exact hcall.toSound
      | some err => exact (hcall.setDtlsState .failed).toSound

theorem Sound.setLocalCertificate (h : Sound A L log x) (cert : Option ℕ) :
    Sound A L log (x.setLocalCertificate cert).1 := by
  unfold Attached.setLocalCertificate
  split
  · exact h
  · cases cert with
    | none => exact h
    | some c => exact ⟨h.stream, h.settled, h.passed⟩

theorem Sound.onWritableState (h : Sound A L log x) (writable : Bool) :
    Sound A L log (x.onWritableState A (DtlsSrtpTransport.slots A L) writable) := by
  have hset : Sound A L log { x with transport := { x.transport with iceWritable := writable } } :=
    ⟨h.stream, h.settled, h.passed⟩
  unfold Attached.onWritableState
  dsimp only
  split
  · exact hset.setWritableState writable
  · split
    · exact hset.maybeStartDtls
    · exact hset.setWritableState writable
    · exact hset

theorem Sound.onReceivingState (h : Sound A L log x) (receiving : Bool) :
    Sound A L log (x.onReceivingState (DtlsSrtpTransport.slots A L) receiving) := by
  unfold Attached.onReceivingState Attached.setReceiving
  dsimp only
  split <;> exact ⟨h.stream, h.settled, h.passed⟩

theorem Sound.onTask (h : Sound A L log x) (task : τ) :
    Sound A L log (x.onTask A (DtlsSrtpTransport.slots A L) task) := by
  unfold Attached.onTask
  cases hs : x.transport.dtls with
  | none => exact h
  | some s => exact (h.afterCall hs (A.handshake_runTask task s) _).toSound

/-- Exchanging the sessions for ones that are keyed the same keeps a channel sound. -/
theorem Sound.exchange (h : Sound A L log x) {u : SrtpTransport κ}
    (hbare : x.listener.Bare → u.Bare)
    (hsend : ∀ key, Keyed L x.listener.sendSession .anyOutbound key →
      Keyed L u.sendSession .anyOutbound key)
    (hrecv : ∀ key, Keyed L x.listener.recvSession .anyInbound key →
      Keyed L u.recvSession .anyInbound key) (passedUp : List PassedUp) :
    Sound A L passedUp { x with listener := { x.listener with toSrtpTransport := u, passedUp } } := by
  refine ⟨h.stream, ?_, rfl⟩
  rcases h.settled with hb | ⟨hstate, s, secrets, cs, keyLen, saltLen, hs, hshake, hlen, hkeys⟩
  · exact Or.inl (hbare hb)
  · exact Or.inr ⟨hstate, s, secrets, cs, keyLen, saltLen, hs, hshake, hlen,
      hsend _ hkeys.1, hrecv _ hkeys.2⟩

/-- Unprotecting gave the packet, with the receiving session of an active transport. -/
def PassedBy (L : Libsrtp κ) (t : SrtpTransport κ) (data : Bytes) (p : PassedUp) : Prop :=
  t.isSrtpActive ∧ ∃ r, t.recvSession = some r ∧
    if p.rtcp then inferRtpPacketType data = .rtcp ∧ (r.unprotectRtcp L data).2 = some p.packet
    else inferRtpPacketType data = .rtp ∧ (r.unprotectRtp L data).2 = some p.packet

theorem Sound.onPacketReceived (h : Sound A L log x) (rtcp : Bool)
    {f : SrtpSession κ → Bytes → SrtpSession κ × Option Bytes}
    (hf : ∀ r key data, Keyed L (some r) .anyInbound key → Keyed L (some (f r data).1) .anyInbound key)
    (data : Bytes) (ts : ℤ) :
    let result := x.listener.toSrtpTransport.unprotectWith f data
    ∃ new, Sound A L (log ++ new) ⟨x.transport, x.listener.onPacketReceived rtcp result ts⟩ ∧
      ∀ p ∈ new, p.rtcp = rtcp ∧ p.ts = ts ∧ x.listener.isSrtpActive ∧
        ∃ r, x.listener.recvSession = some r ∧ (f r data).2 = some p.packet := by
  intro result
  unfold DtlsSrtpTransport.onPacketReceived
  by_cases hactive : x.listener.isSrtpActive = true
  · have ⟨hsend, hrecv⟩ := Bool.and_eq_true_iff.mp hactive
    have ⟨s, hs⟩ := Option.isSome_iff_exists.mp hsend
    have ⟨r, hr⟩ := Option.isSome_iff_exists.mp hrecv
    have hresult : result = _ := unprotectWith_active hs hr f data
    have hkept : ∀ log', Sound A L log' ⟨x.transport,
        { x.listener with recvSession := some (f r data).1, passedUp := log' }⟩ := by
      apply h.exchange
      · exact fun hb => absurd hb.1 (by simp [hs])
      · exact fun key hkey => hkey
      · exact fun key hkey => hf r key data (hr ▸ hkey)
    rw [if_pos hactive, hresult]
    dsimp only
    cases hout : (f r data).2 with
    | none => exact ⟨[], by simpa [h.passed] using hkept x.listener.passedUp, by simp⟩
    | some packet =>
      refine ⟨[⟨rtcp, packet, ts⟩], ?_, ?_⟩
      · have hlog := hkept (x.listener.passedUp ++ [⟨rtcp, packet, ts⟩])
        rwa [h.passed] at hlog ⊢
      · intro p hp
        obtain rfl := List.mem_singleton.mp hp
        exact ⟨rfl, rfl, hactive, r, hr, hout⟩
  · rw [if_neg hactive]
    exact ⟨[], by simpa using h, by simp⟩

theorem Sound.sendWith (h : Sound A L log x)
    {f : SrtpSession κ → SrtpSession κ × Option Bytes}
    (hf : ∀ r key, Keyed L (some r) .anyOutbound key → Keyed L (some (f r).1) .anyOutbound key) :
    Sound A L log
      ⟨x.transport, (x.listener.sendWith (x.listener.toSrtpTransport.protectWith f)).1⟩ := by
  unfold DtlsSrtpTransport.sendWith
  by_cases hactive : x.listener.isSrtpActive = true
  · have ⟨hsend, hrecv⟩ := Bool.and_eq_true_iff.mp hactive
    have ⟨s, hs⟩ := Option.isSome_iff_exists.mp hsend
    have ⟨r, hr⟩ := Option.isSome_iff_exists.mp hrecv
    have hkept : Sound A L x.listener.passedUp ⟨x.transport,
        { x.listener with sendSession := some (f s).1 }⟩ := by
      apply h.exchange
      · exact fun hb => absurd hb.1 (by simp [hs])
      · exact fun key hkey => hf s key (hs ▸ hkey)
      · exact fun key hkey => hkey
    rw [if_pos hactive, protectWith_active hs hr]
    exact h.passed ▸ hkept
  · rw [if_neg hactive]
    exact h

theorem Sound.onReadPacket (h : Sound A L log x) (data : Bytes) (ts : ℤ) :
    ∃ new, Sound A L (log ++ new) (x.onReadPacket A (DtlsSrtpTransport.slots A L) data ts) ∧
      ∀ p ∈ new, p.ts = ts ∧ PassedBy L x.listener.toSrtpTransport data p := by
  have hquiet : ∀ y : Channel σ κ, Sound A L log y →
      ∃ new, Sound A L (log ++ new) y ∧ ∀ p ∈ new, p.ts = ts ∧
        PassedBy L x.listener.toSrtpTransport data p :=
    fun y hy => ⟨[], by simpa using hy, by simp⟩
  have hhello : Sound A L log { x with transport := { x.transport with cachedClientHello := data } } :=
    ⟨h.stream, h.settled, h.passed⟩
  unfold Attached.onReadPacket
  cases hstate : x.transport.dtlsState with
  | new =>
    dsimp only
    split_ifs
    · exact hquiet _ (hhello.setupDtls (by simp [hstate]))
    · exact hquiet _ hhello
    · exact hquiet _ h
  | connecting =>
    dsimp only
    split
    · exact hquiet _ (h.handleDtlsPacket data)
    · exact hquiet _ h
  | connected =>
    dsimp only
    split_ifs
    · exact hquiet _ (h.handleDtlsPacket data)
    · show ∃ new, Sound A L (log ++ new) ⟨x.transport, x.listener.onReadPacket L data ts⟩ ∧ _
      unfold DtlsSrtpTransport.onReadPacket
      cases htype : inferRtpPacketType data with
      | unknown => exact hquiet _ h
      | rtcp =>
        have ⟨new, hsound, hnew⟩ := h.onPacketReceived true (f := fun r data => r.unprotectRtcp L data)
          (fun r key data => keyed_call L.policyOf_unprotectRtcp) data ts
        refine ⟨new, hsound, fun p hp => ?_⟩
        have ⟨hrtcp, hts, hactive, r, hr, hout⟩ := hnew p hp
        exact ⟨hts, hactive, r, hr, by rw [if_pos hrtcp]; exact ⟨htype, hout⟩⟩
      | rtp =>
        have ⟨new, hsound, hnew⟩ := h.onPacketReceived false (f := fun r data => r.unprotectRtp L data)
          (fun r key data => keyed_call L.policyOf_unprotect) data ts
        refine ⟨new, hsound, fun p hp => ?_⟩
        have ⟨hrtcp, hts, hactive, r, hr, hout⟩ := hnew p hp
        exact ⟨hts, hactive, r, hr, by rw [if_neg (by simp [hrtcp])]; exact ⟨htype, hout⟩⟩
    · exact hquiet _ h
  | closed => exact hquiet _ h
  | failed => exact hquiet _ h

theorem keyed_protectRtp {r : SrtpSession κ} {key : Bytes} (data : Bytes) (maxLen : ℕ)
    (h : Keyed L (some r) .anyOutbound key) :
    Keyed L (some (r.protectRtp L data maxLen).1) .anyOutbound key := by
  unfold SrtpSession.protectRtp
  split
  · exact h
  · exact keyed_call L.policyOf_protect h

theorem keyed_protectRtcp {r : SrtpSession κ} {key : Bytes} (data : Bytes) (maxLen : ℕ)
    (h : Keyed L (some r) .anyOutbound key) :
    Keyed L (some (r.protectRtcp L data maxLen).1) .anyOutbound key := by
  unfold SrtpSession.protectRtcp
  split
  · exact h
  · exact keyed_call L.policyOf_protectRtcp h

/-- Every event keeps a channel sound, and only a received packet adds to the log. -/
theorem Sound.step (h : Sound A L log x) (e : Event τ) :
    ∃ new, Sound A L (log ++ new) (step A L x e) ∧
      ∀ p ∈ new, ∃ data, e = .packet data p.ts ∧ PassedBy L x.listener.toSrtpTransport data p := by
  have hquiet : ∀ y : Channel σ κ, Sound A L log y → ∃ new, Sound A L (log ++ new) y ∧
      ∀ p ∈ new, ∃ data, e = .packet data p.ts ∧ PassedBy L x.listener.toSrtpTransport data p :=
    fun y hy => ⟨[], by simpa using hy, by simp⟩
  cases e with
  | task task => exact hquiet _ (h.onTask task)
  | packet data ts =>
    have ⟨new, hsound, hnew⟩ := h.onReadPacket data ts
    refine ⟨new, hsound, fun p hp => ⟨data, ?_, (hnew p hp).2⟩⟩
    rw [(hnew p hp).1]
  | setRemoteFingerprint digestAlg digest => exact hquiet _ (h.setRemoteFingerprint digestAlg digest)
  | setLocalCertificate cert => exact hquiet _ (h.setLocalCertificate cert)
  | iceWritable writable => exact hquiet _ (h.onWritableState writable)
  | iceReceiving receiving => exact hquiet _ (h.onReceivingState receiving)
  | rtcpDtlsWritable writable => exact hquiet _ ⟨h.stream, h.settled, h.passed⟩
  | usage usage => exact hquiet _ ⟨h.stream, h.settled, h.passed⟩
  | sendRtp buf => exact hquiet _ (h.sendWith fun r key => keyed_protectRtp buf _)
  | sendRtcp buf => exact hquiet _ (h.sendWith fun r key => keyed_protectRtcp buf _)

theorem sound_start (srtpCiphers : List ℤ) (cert : Option ℕ) (usage : Usage)
    (rtcpDtlsWritable : Option Bool) : Sound A L [] (start A L srtpCiphers cert usage rtcpDtlsWritable) := by
  have hnew : Sound A L [] (⟨{ srtpCiphers }, { rtcpMuxEnabled := true, usage }⟩ : Channel σ κ) :=
    ⟨fun hc => by simp at hc, Or.inl ⟨rfl, rfl⟩, rfl⟩
  have hcert := hnew.setLocalCertificate cert
  have hstate : ((⟨{ srtpCiphers }, { rtcpMuxEnabled := true, usage }⟩ : Channel σ κ).setLocalCertificate
      cert).1.transport.dtlsState ≠ .connected := by
    cases cert <;> simp [Attached.setLocalCertificate]
  exact ⟨hcert.stream, settled_maybeSetup (hcert.bare hstate),
    passedUp_maybeSetup.trans hcert.passed⟩

theorem Sound.run (h : Sound A L log x) (es : List (Event τ)) :
    ∃ log', Sound A L log' (Runs.run (Channel.step A L) x es) := by
  induction es generalizing log x with
  | nil => exact ⟨log, h⟩
  | cons e es ih =>
    have ⟨new, hsound, _⟩ := h.step e
    exact ih hsound

variable (A L) in
/-- In every state of every run the sessions exist only while the transport is connected, and
then under the keys of its current handshake; installing keys gives both sessions or none;
and what the next event passes up was unprotected by the receiving session. -/
theorem sessions_follow_handshake (srtpCiphers : List ℤ) (cert : Option ℕ) (usage : Usage)
    (rtcpDtlsWritable : Option Bool) (es : List (Event τ)) :
    let x := Runs.run (step A L) (start A L srtpCiphers cert usage rtcpDtlsWritable) es
    let t := x.listener.toSrtpTransport
    (t.sendSession.isSome ∨ t.recvSession.isSome →
      x.transport.dtlsState = .connected ∧ KeyedFrom A L x.transport.dtls t) ∧
    (∀ sendCs sendKey recvCs recvKey,
      let result := t.setRtpParams L sendCs sendKey recvCs recvKey
      (result.2 = true ∧ Keyed L result.1.sendSession .anyOutbound sendKey ∧
          Keyed L result.1.recvSession .anyInbound recvKey) ∨
        (result.2 = false ∧ result.1.sendSession = none ∧ result.1.recvSession = none)) ∧
    ∀ e, ∃ new, (step A L x e).listener.passedUp = x.listener.passedUp ++ new ∧
      ∀ p ∈ new, ∃ data, e = .packet data p.ts ∧ PassedBy L t data p := by
  intro x t
  have ⟨log, hsound⟩ :=
    (sound_start (A := A) (L := L) srtpCiphers cert usage rtcpDtlsWritable).run es
  refine ⟨fun hactive => ?_, setRtpParams_installs L t, fun e => ?_⟩
  · rcases hsound.settled with hbare | hkeyed
    · simp [t, x, hbare.1, hbare.2] at hactive
    · exact hkeyed
  · have ⟨new, hstep, hnew⟩ := hsound.step e
    exact ⟨new, hstep.passed.trans (congrArg (· ++ new) hsound.passed.symm), hnew⟩

end Channel

/-- An SSL stream whose one task completes the handshake, with keys of zeros. -/
def plainAdapter : SslAdapter Bool Unit Unit where
  create _ _ := some false
  setPeerCertificateDigest s _ _ := (s, none)
  setDtlsSrtpCryptoSuites s _ := (s, true)
  startSsl s := (s, 0, [])
  onReadable s := (s, [])
  read s := (s, .block)
  runTask _ s := ({ s with ssl := true }, [{ seOpen := true, seRead := true }])
  getDtlsSrtpCryptoSuite s := if s then some 1 else none
  exportKeyingMaterial s _ _ len := if s then some (List.replicate len 0) else none
  handshake s := if s then some () else none
  keyingMaterial _ _ _ len := List.replicate len 0
  pending _ := 0
  handshake_setPeerCertificateDigest _ _ _ _ h := h
  handshake_setDtlsSrtpCryptoSuites _ _ _ h := h
  handshake_startSsl _ _ h := h
  handshake_onReadable _ _ h := h
  handshake_read _ _ h := h
  handshake_runTask _ _ _ _ := rfl
  exported s _ _ len material h := by
    cases s with
    | false => simp at h
    | true => exact ⟨(), rfl, by simpa using h⟩
  pending_read _ h := by simp at h

/-- A library that leaves packets as they are. -/
def plainLibsrtp : Libsrtp SrtpPolicy where
  policyForRtp _ := some ⟨30, 10⟩
  policyForRtcp _ := some ⟨30, 10⟩
  init _ := true
  create p := some p
  update _ p := (p, true)
  protect k data := (k, some data)
  protectRtcp k data := (k, some data)
  unprotect k data := (k, some data)
  unprotectRtcp k data := (k, some data)
  policyOf k := k
  policyOf_create _ _ h := (Option.some.inj h).symm
  policyOf_update _ _ _ := rfl
  policyOf_protect _ _ := rfl
  policyOf_protectRtcp _ _ := rfl
  policyOf_unprotect _ _ := rfl
  policyOf_unprotectRtcp _ _ := rfl

/-- After the handshake an RTP packet is passed up, after a new fingerprint it is not. -/
example :
    let packet : Bytes := [0x80, 0, 0, 1, 0, 0, 0, 0, 0, 0, 0, 0]
    let start := Channel.start plainAdapter plainLibsrtp [1] (some 0) {} none
    let run := Runs.run (Channel.step plainAdapter plainLibsrtp)
    let keyed := run start [.setRemoteFingerprint [1] [1], .iceWritable true, .task (), .packet packet 5]
    let again := run keyed [.setRemoteFingerprint [1] [2], .packet packet 6]
    keyed.listener.passedUp = [⟨false, packet, 5⟩] ∧ keyed.listener.isSrtpActive = true ∧
      again.listener.passedUp = [⟨false, packet, 5⟩] ∧ again.listener.isSrtpActive = false := by
  decide +kernel

end Srtp
end XrtcServer
