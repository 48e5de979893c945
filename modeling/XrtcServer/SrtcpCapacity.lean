import XrtcServer.DtlsRules
import XrtcServer.DtlsSrtpKeys

/-! The room that `send_rtcp` makes for a protected packet, against what the library appends.
The room is measured with the tag of the RTP packets, so it is enough where the RTCP tag of the
suite is not longer. -/
namespace XrtcServer
namespace Srtp
open ByteFormat Dtls

section Tags
variable {κ : Type} {L : Libsrtp κ} {cs : ℤ} {r : SrtpSession κ} {k : κ}

/-- The context of a session works under a policy for this suite, and the session knows the
lengths of its tags. -/
structure Tagged (L : Libsrtp κ) (cs : ℤ) (r : SrtpSession κ) (k : κ) : Prop where
  context : r.session = some k
  rtp : L.policyForRtp cs = some (L.policyOf k).rtp
  rtcp : L.policyForRtcp cs = some (L.policyOf k).rtcp
  rtpTag : r.rtpAuthTagLen = (L.policyOf k).rtp.authTagLen
  rtcpTag : r.rtcpAuthTagLen = (L.policyOf k).rtcp.authTagLen

theorem tagged_doSetKey {ssrcType : SsrcType} {key : Bytes}
    (h : (r.doSetKey L ssrcType cs key).2 = true) :
    ∃ k, Tagged L cs (r.doSetKey L ssrcType cs key).1 k := by
  obtain ⟨rtp, rtcp, k, hrtp, hrtcp, hpolicy, hr⟩ := doSetKey_accepted h
  refine ⟨k, ?_⟩
  rw [hr]
  exact ⟨rfl, by rw [hpolicy, hrtp], by rw [hpolicy, hrtcp], by rw [hpolicy], by rw [hpolicy]⟩

theorem Tagged.call (h : Tagged L cs r k) {f : κ → Bytes → κ × Option Bytes}
    (hf : ∀ k data, L.policyOf (f k data).1 = L.policyOf k) (data : Bytes) :
    Tagged L cs (r.call f data).1 (f k data).1 ∧ (r.call f data).2 = (f k data).2 := by
  have hcall : r.call f data = ({ r with session := some (f k data).1 }, (f k data).2) := by
    rw [SrtpSession.call, h.context]
  rw [hcall]
  exact ⟨⟨rfl, by rw [hf, h.rtp], by rw [hf, h.rtcp], by rw [hf, h.rtpTag], by rw [hf, h.rtcpTag]⟩, rfl⟩

variable (L) in
/-- The session is tagged if there is one. -/
def IfAnyTagged (session : Option (SrtpSession κ)) : Prop :=
  ∀ r, session = some r → ∃ cs k, Tagged L cs r k

theorem ifAnyTagged_none : IfAnyTagged L none := fun _ h => by cases h

/-- Every suite whose policies are accepted. -/
theorem TookKey.tagged {session : Option (SrtpSession κ)} {ssrcType : SsrcType} {key : Bytes}
    (h : TookKey L session ssrcType cs key) : ∃ r k, session = some r ∧ Tagged L cs r k := by
  obtain ⟨r, haccepted, rfl⟩ := h
  obtain ⟨k, hk⟩ := tagged_doSetKey haccepted
  exact ⟨_, k, rfl, hk⟩

end Tags

section Capacity
variable {κ : Type} (d : DtlsSrtpTransport κ)

/-- The capacity of the buffer that `send_rtcp` makes for a packet. -/
def DtlsSrtpTransport.rtcpCapacity (buf : Bytes) : ℕ := buf.length + d.getSendAuthTagLen.1 + 4

theorem sendRtcp_eq (L : Libsrtp κ) (buf : Bytes) : d.sendRtcp L buf =
    d.sendWith (d.toSrtpTransport.protectRtcp L buf (d.rtcpCapacity buf)) := rfl

end Capacity

section Send
variable {κ : Type} {L : Libsrtp κ} {cs : ℤ} {r : SrtpSession κ} {k : κ} {d : DtlsSrtpTransport κ}

theorem rtcpCapacity_eq (hsend : d.sendSession = some r) (h : Tagged L cs r k) (buf : Bytes) :
    d.rtcpCapacity buf = buf.length + (L.policyOf k).rtp.authTagLen + 4 := by
  have htags : r.authTagLen = (r.rtpAuthTagLen, r.rtcpAuthTagLen) := by
    rw [SrtpSession.authTagLen, h.context]
    rfl
  rw [DtlsSrtpTransport.rtcpCapacity, SrtpTransport.getSendAuthTagLen, hsend]
  dsimp only
  rw [htags, h.rtpTag]

/-- The check of `protect_rtcp` asks for just what `send_rtcp` has made room for, so the
library is called. -/
theorem sendRtcp_calls (hactive : d.isSrtpActive = true) (hsend : d.sendSession = some r)
    (h : Tagged L cs r k) (buf : Bytes) : (d.sendRtcp L buf).2 = (L.protectRtcp k buf).2 := by
  have hroom : ¬ d.rtcpCapacity buf < buf.length + r.rtpAuthTagLen + 4 := by
    rw [rtcpCapacity_eq hsend h, h.rtpTag]
    exact lt_irrefl _
  have hcall : r.protectRtcp L buf (d.rtcpCapacity buf) = r.call L.protectRtcp buf := by
    rw [SrtpSession.protectRtcp, if_neg hroom]
  obtain ⟨-, hrecv⟩ := Bool.and_eq_true_iff.mp hactive
  obtain ⟨q, hq⟩ := Option.isSome_iff_exists.mp hrecv
  rw [sendRtcp_eq, DtlsSrtpTransport.sendWith, if_pos hactive, SrtpTransport.protectRtcp,
    protectWith_active hsend hq, hcall]
  exact (h.call L.policyOf_protectRtcp buf).2

/-- Every packet reaches the library, with room for what it appends just when the RTCP tag is
not longer than the RTP tag. -/
structure RoomIff (L : Libsrtp κ) (d : DtlsSrtpTransport κ) (cs : ℤ) (k : κ) : Prop where
  rtp : L.policyForRtp cs = some (L.policyOf k).rtp
  rtcp : L.policyForRtcp cs = some (L.policyOf k).rtcp
  calls : ∀ buf, (d.sendRtcp L buf).2 = (L.protectRtcp k buf).2
  capacity : ∀ buf : Bytes, buf.length + (L.policyOf k).rtcp.authTagLen + 4 ≤ d.rtcpCapacity buf ↔
    (L.policyOf k).rtcp.authTagLen ≤ (L.policyOf k).rtp.authTagLen
  written : ∀ buf out, (d.sendRtcp L buf).2 = some out → (out.length ≤ d.rtcpCapacity buf ↔
    (L.policyOf k).rtcp.authTagLen ≤ (L.policyOf k).rtp.authTagLen)

theorem Tagged.roomIff (h : Tagged L cs r k) (hactive : d.isSrtpActive = true)
    (hsend : d.sendSession = some r) (happends : ∀ k data out, (L.protectRtcp k data).2 = some out →
      out.length = data.length + (L.policyOf k).rtcp.authTagLen + 4) : RoomIff L d cs k where
  rtp := h.rtp
  rtcp := h.rtcp
  calls := sendRtcp_calls hactive hsend h
  capacity buf := by
    rw [rtcpCapacity_eq hsend h]
    omega
  written buf out hout := by
    have hlen := happends k buf out (sendRtcp_calls hactive hsend h buf ▸ hout)
    rw [rtcpCapacity_eq hsend h]
    omega

end Send

namespace Channel
variable {σ η τ κ : Type} {A : SslAdapter σ η τ} {L : Libsrtp κ} {x : Channel σ κ}

variable (L) in
def SendsTagged (x : Channel σ κ) : Prop := IfAnyTagged L x.listener.sendSession

theorem tagged_maybeSetup {d : DtlsSrtpTransport κ} (dtls : DtlsTransport σ)
    (h : IfAnyTagged L d.sendSession) : IfAnyTagged L (d.maybeSetupDtlsSrtp A L dtls).sendSession := by
  unfold DtlsSrtpTransport.maybeSetupDtlsSrtp
  split
  · exact h
  · unfold DtlsSrtpTransport.setupDtlsSrtp
    cases DtlsSrtpTransport.extractParams A dtls with
    | none => exact h
    | some params =>
      obtain ⟨cs, sendKey, recvKey⟩ := params
      rcases setRtpParams_tookKey L d.toSrtpTransport cs sendKey cs recvKey with hset | hset
      · obtain ⟨r, k, hr, hk⟩ := hset.2.1.tagged
        intro r' hr'
        obtain rfl := Option.some.inj (hr.symm.trans hr')
        exact ⟨cs, k, hk⟩
      · dsimp only
        rw [hset.2.1]
        exact ifAnyTagged_none

theorem sendSession_onReadPacket (d : DtlsSrtpTransport κ) (data : Bytes) (ts : ℤ) :
    (d.onReadPacket L data ts).sendSession = d.sendSession := by
  have hwith : ∀ f : SrtpSession κ → Bytes → SrtpSession κ × Option Bytes,
      (d.toSrtpTransport.unprotectWith f data).1.sendSession = d.sendSession := by
    intro f
    unfold SrtpTransport.unprotectWith
    split <;> rfl
  have hreceived : ∀ (rtcp : Bool) (f : SrtpSession κ → Bytes → SrtpSession κ × Option Bytes),
      (d.onPacketReceived rtcp (d.toSrtpTransport.unprotectWith f data) ts).sendSession =
        d.sendSession := by
    intro rtcp f
    unfold DtlsSrtpTransport.onPacketReceived
    split
    · cases (d.toSrtpTransport.unprotectWith f data).2 with
      | none => exact hwith f
      | some packet => exact hwith f
    · rfl
  unfold DtlsSrtpTransport.onReadPacket
  cases inferRtpPacketType data with
  | unknown => rfl
  | rtcp => exact hreceived true _
  | rtp => exact hreceived false _

variable (A L) in
theorem rule_tagged : Rule (DtlsSrtpTransport.slots A L) (SendsTagged (σ := σ) L) where
  setDtlsState x state h := by
    unfold Attached.setDtlsState
    split
    · exact h
    · show IfAnyTagged L (x.listener.onDtlsState A L _ state).sendSession
      unfold DtlsSrtpTransport.onDtlsState
      split
      · exact ifAnyTagged_none
      · exact tagged_maybeSetup _ h
  setReceiving x receiving h := by
    unfold Attached.setReceiving
    split <;> exact h
  passOn x buf ts h := by
    show IfAnyTagged L (x.listener.onReadPacket L buf ts).sendSession
    rwa [sendSession_onReadPacket]
  beside _ _ _ h := h

/-- Protecting a packet keeps the suite of the sending session. -/
theorem tagged_sendWith {d : DtlsSrtpTransport κ} (h : IfAnyTagged L d.sendSession)
    {f : SrtpSession κ → SrtpSession κ × Option Bytes}
    (hf : ∀ r cs k, Tagged L cs r k → ∃ k', Tagged L cs (f r).1 k') :
    IfAnyTagged L (d.sendWith (d.toSrtpTransport.protectWith f)).1.sendSession := by
  have hprotect : IfAnyTagged L (d.toSrtpTransport.protectWith f).1.sendSession := by
    unfold SrtpTransport.protectWith
    split
    · rename_i r _ hsend _
      intro r' hr
      obtain rfl := Option.some.inj hr
      obtain ⟨cs, k, hk⟩ := h r hsend
      exact ⟨cs, hf r cs k hk⟩
    · exact h
  unfold DtlsSrtpTransport.sendWith
  split
  · exact hprotect
  · exact h

theorem SendsTagged.setLocalCertificate (h : SendsTagged L x) (cert : Option ℕ) :
    SendsTagged L (x.setLocalCertificate cert).1 := by
  unfold Attached.setLocalCertificate
  split
  · exact h
  · split <;> exact h

theorem SendsTagged.step (h : SendsTagged L x) (e : Event τ) : SendsTagged L (step A L x e) := by
  have hrule := rule_tagged A L
  cases e with
  | task task => exact hrule.onTask h task
  | packet data ts => exact hrule.onReadPacket h data ts
  | setRemoteFingerprint digestAlg digest => exact hrule.setRemoteFingerprint h digestAlg digest
  | setLocalCertificate cert => exact h.setLocalCertificate cert
  | iceWritable writable => exact hrule.onWritableState h writable
  | iceReceiving receiving => exact hrule.onReceivingState h receiving
  | rtcpDtlsWritable writable => exact h
  | usage usage => exact h
  | sendRtp buf =>
    apply tagged_sendWith h
    intro r cs k hk
    unfold SrtpSession.protectRtp
    split
    · exact ⟨k, hk⟩
    · exact ⟨_, (hk.call L.policyOf_protect buf).1⟩
  | sendRtcp buf =>
    apply tagged_sendWith h
    intro r cs k hk
    unfold SrtpSession.protectRtcp
    split
    · exact ⟨k, hk⟩
    · exact ⟨_, (hk.call L.policyOf_protectRtcp buf).1⟩

theorem sendsTagged_run (srtpCiphers : List ℤ) (cert : Option ℕ) (usage : Usage)
    (rtcpDtlsWritable : Option Bool) (es : List (Event τ)) :
    SendsTagged L (Runs.run (step A L) (start A L srtpCiphers cert usage rtcpDtlsWritable) es) := by
  have hrun : ∀ y : Channel σ κ, SendsTagged L y → SendsTagged L (Runs.run (step A L) y es) := by
    induction es with
    | nil => exact fun y hy => hy
    | cons e es ih => exact fun y hy => ih _ (hy.step e)
  have hnew : SendsTagged L
      { transport := { srtpCiphers }, listener := { rtcpMuxEnabled := true, usage } : Channel σ κ } :=
    ifAnyTagged_none
  exact hrun _ (tagged_maybeSetup _ (hnew.setLocalCertificate cert))

/-- Whatever suite is accepted, and in every run, the buffer of a protected RTCP packet holds
what the library appends just when the RTCP tag of the suite is not longer than its RTP tag. -/
theorem rtcpCapacity_iff (A : SslAdapter σ η τ) (L : Libsrtp κ)
    (happends : ∀ k data out, (L.protectRtcp k data).2 = some out →
      out.length = data.length + (L.policyOf k).rtcp.authTagLen + 4) :
    (∀ (d : DtlsSrtpTransport κ) (cs : ℤ) (sendKey : Bytes) (recvCs : ℤ) (recvKey : Bytes),
      let result := d.toSrtpTransport.setRtpParams L cs sendKey recvCs recvKey
      result.2 = true → ∃ k, RoomIff L { d with toSrtpTransport := result.1 } cs k) ∧
    ∀ (srtpCiphers : List ℤ) (cert : Option ℕ) (usage : Usage) (rtcpDtlsWritable : Option Bool)
      (es : List (Event τ)),
      let d := (Runs.run (step A L) (start A L srtpCiphers cert usage rtcpDtlsWritable) es).listener
      d.isSrtpActive = true → ∃ cs k, RoomIff L d cs k := by
  constructor
  · intro d cs sendKey recvCs recvKey result haccepted
    rcases setRtpParams_tookKey L d.toSrtpTransport cs sendKey recvCs recvKey with hset | hset
    · obtain ⟨r, k, hr, hk⟩ := hset.2.1.tagged
      obtain ⟨q, -, hq, -⟩ := hset.2.2.tagged
      have hactive : result.1.isSrtpActive = true := by
        rw [SrtpTransport.isSrtpActive, hr, hq]
        rfl
      exact ⟨k, hk.roomIff (d := { d with toSrtpTransport := result.1 }) hactive hr happends⟩
    · exact absurd (hset.1.symm.trans haccepted) Bool.false_ne_true
  · intro srtpCiphers cert usage rtcpDtlsWritable es d hactive
    obtain ⟨r, hsend⟩ := Option.isSome_iff_exists.mp (Bool.and_eq_true_iff.mp hactive).1
    obtain ⟨cs, k, hk⟩ := sendsTagged_run (A := A) srtpCiphers cert usage rtcpDtlsWritable es r hsend
    exact ⟨cs, k, hk.roomIff hactive hsend happends⟩

/-- The policies of AES_CM_128 with the tags of HMAC_SHA1_80 and HMAC_SHA1_32, whose RTCP tags
have the same length, and the trailer of an RTCP packet. -/
def suiteLibsrtp : Libsrtp SrtpPolicy :=
  { plainLibsrtp with
    policyForRtp := fun cs => if cs = 1 then some ⟨30, 10⟩ else if cs = 2 then some ⟨30, 4⟩ else none
    policyForRtcp := fun cs => if cs = 1 ∨ cs = 2 then some ⟨30, 10⟩ else none
    protect := fun k data => (k, some (data ++ List.replicate k.rtp.authTagLen 0))
    protectRtcp := fun k data => (k, some (data ++ List.replicate (k.rtcp.authTagLen + 4) 0))
    policyOf_protect := fun _ _ => rfl
    policyOf_protectRtcp := fun _ _ => rfl }

theorem suiteLibsrtp_appends (k : SrtpPolicy) (data out : Bytes)
    (h : (suiteLibsrtp.protectRtcp k data).2 = some out) :
    out.length = data.length + (suiteLibsrtp.policyOf k).rtcp.authTagLen + 4 := by
  obtain rfl := Option.some.inj h
  simp [suiteLibsrtp, plainLibsrtp, Nat.add_assoc]

/-- With tags of one length there is room. -/
theorem rtcpCapacity_iff_suites :
    let t : SrtpTransport SrtpPolicy := { rtcpMuxEnabled := true }
    let result := t.setRtpParams suiteLibsrtp 1 (List.replicate 30 0) 1 (List.replicate 30 0)
    ∃ k, RoomIff suiteLibsrtp { result.1 with } 1 k :=
  (rtcpCapacity_iff plainAdapter suiteLibsrtp suiteLibsrtp_appends).1 { rtcpMuxEnabled := true } 1
    (List.replicate 30 0) 1 (List.replicate 30 0) (by decide)

/-- With the short RTP tag the trailer of an RTCP packet is six bytes too long. -/
theorem rtcp_overflows :
    let t : SrtpTransport SrtpPolicy := { rtcpMuxEnabled := true }
    let result := t.setRtpParams suiteLibsrtp 2 (List.replicate 30 0) 2 (List.replicate 30 0)
    let d : DtlsSrtpTransport SrtpPolicy := { result.1 with }
    let buf : Bytes := [0x80, 201, 0, 1, 0, 0, 0, 1]
    result.2 = true ∧ suiteLibsrtp.policyForRtcp 2 = some ⟨30, 10⟩ ∧ d.rtcpCapacity buf = 16 ∧
      d.rtcpCapacity buf < buf.length + 10 + 4 ∧
      (d.sendRtcp suiteLibsrtp buf).2.map List.length = some 22 := by
  decide

end Channel
end Srtp
end XrtcServer
