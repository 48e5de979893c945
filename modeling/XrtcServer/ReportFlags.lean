import XrtcServer.RtcpSender

/-! Which flags a call of `SendRTCP` leaves behind. A call that is refused before the first
frame leaves its own flag, and a later call builds what the refused one was asked for. -/
namespace XrtcServer
namespace Rtcp
namespace RTCPSender
variable {s : RTCPSender} {call : Call}

section Builders

@[simp] theorem reportFlags_build (type : UInt32) :
    (s.build call type).1.reportFlags = s.reportFlags := by
  unfold build
  split_ifs <;> rfl

/-- A builder builds packets of its own type. -/
theorem type_of_mem_build {type : UInt32} {p : Built} (hp : p ∈ (s.build call type).2) :
    p.type = type := by
  unfold build at hp
  split_ifs at hp with hsr hrr hnack
  · rw [List.mem_singleton.mp hp, hsr]
    rfl
  · rw [List.mem_singleton.mp hp, hrr]
    rfl
  · rw [List.mem_singleton.mp hp, hnack]
    rfl
  · cases hp

variable (s call) in
theorem nack_mem_build : ∃ p ∈ (s.build call kRtcpNack).2, p.type = kRtcpNack :=
  ⟨_, List.mem_singleton.mpr rfl, rfl⟩

/-- The loop erases the flags that it goes through. -/
theorem reportFlags_buildFlags {flags : List ReportFlag} (hs : s.reportFlags = flags)
    (hvolatile : ∀ flag ∈ flags, flag.isVolatile = true) :
    (buildFlags call flags s).1.reportFlags = [] := by
  induction flags generalizing s with
  | nil => exact hs
  | cons flag flags ih =>
    have hflag : flag.isVolatile = true := hvolatile flag (by simp)
    have hrest : ∀ f ∈ flags, f.isVolatile = true := fun f hf => hvolatile f (by simp [hf])
    simp only [buildFlags, hflag, if_true]
    apply ih _ hrest
    rw [reportFlags_build, hs, List.erase_cons_head]

theorem mem_buildFlags {flags : List ReportFlag} {p : Built}
    (hp : p ∈ (buildFlags call flags s).2) : ∃ flag ∈ flags, p.type = flag.type := by
  induction flags generalizing s with
  | nil => cases hp
  | cons flag flags ih =>
    rcases List.mem_append.mp hp with hfirst | hrest
    · exact ⟨flag, by simp, type_of_mem_build hfirst⟩
    · have ⟨f, hf, htype⟩ := ih hrest
      exact ⟨f, by simp [hf], htype⟩

theorem nack_mem_buildFlags {flags : List ReportFlag} {flag : ReportFlag} (hmem : flag ∈ flags)
    (htype : flag.type = kRtcpNack) : ∃ p ∈ (buildFlags call flags s).2, p.type = kRtcpNack := by
  induction flags generalizing s with
  | nil => cases hmem
  | cons f flags ih =>
    rcases List.mem_cons.mp hmem with hfirst | hrest
    · subst hfirst
      have ⟨p, hp, hnack⟩ := nack_mem_build (if flag.isVolatile then
        { s with reportFlags := s.reportFlags.erase flag } else s) call
      exact ⟨p, List.mem_append.mpr (Or.inl (htype ▸ hp)), hnack⟩
    · exact (ih hrest).imp fun p hp => ⟨List.mem_append.mpr (Or.inr hp.1), hp.2⟩

end Builders

section Calls

/-- The report that the sending status implies. -/
def reportType (s : RTCPSender) : UInt32 := if s.sending then kRtcpSr else kRtcpRr

theorem reportFlags_setFlag_nil (hs : s.reportFlags = []) (type : UInt32) :
    (s.setFlag type).reportFlags = [⟨type, true⟩] := by simp [setFlag, hs]

theorem consumeFlag_single {type : UInt32} (hs : s.reportFlags = [⟨type, true⟩]) (t : UInt32)
    (forced : Bool) : s.consumeFlag t forced =
      if type = t then ({ s with reportFlags := [] }, true) else (s, false) := by
  unfold consumeFlag
  by_cases htype : type = t <;> simp [hs, htype]

variable (call) in
/-- The flags that are gone through when one was set before. -/
theorem reportFlags_prepareReport {type : UInt32} (hs : s.reportFlags = [⟨type, true⟩]) :
    (∀ flag ∈ (s.prepareReport call).reportFlags,
      flag.isVolatile = true ∧ (flag.type = type ∨ flag.type = s.reportType)) ∧
    (type ≠ kRtcpReport → ∃ flag ∈ (s.prepareReport call).reportFlags, flag.type = type) := by
  have hprepared : (s.prepareReport call).reportFlags =
      ((s.consumeFlag kRtcpReport false).1.setFlag s.reportType).reportFlags := by
    have hsending : (s.consumeFlag kRtcpReport false).1.sending = s.sending := by
      rw [consumeFlag_single hs]
      split <;> rfl
    unfold prepareReport reportType
    dsimp only
    rw [hsending]
    rfl
  rw [hprepared, consumeFlag_single hs]
  by_cases htype : type = kRtcpReport
  · rw [if_pos htype, reportFlags_setFlag_nil rfl]
    exact ⟨by simp, fun hne => absurd htype hne⟩
  · rw [if_neg htype, setFlag, hs]
    by_cases hsame : type = s.reportType
    · simp [hs, hsame]
    · simp only [hsame, List.any_cons, List.any_nil, decide_false, Bool.false_or, Bool.false_eq_true,
        if_false, List.mem_orderedInsert]
      simp

variable (call) in
/-- What a call builds that is not returned from early. -/
theorem prepareAndBuild_single {type : UInt32} (hs : s.reportFlags = [⟨type, true⟩]) :
    (s.prepareAndBuild call).1.reportFlags = [] ∧
    (∀ p ∈ (s.prepareAndBuild call).2, p.type = type ∨ p.type = s.reportType) ∧
    (type = kRtcpNack → ∃ p ∈ (s.prepareAndBuild call).2, p.type = kRtcpNack) := by
  have ⟨hflags, hasked⟩ := reportFlags_prepareReport call hs
  refine ⟨?_, fun p hp => ?_, fun hnack => ?_⟩
  · exact reportFlags_buildFlags rfl fun flag hflag => (hflags flag hflag).1
  · have ⟨flag, hflag, htype⟩ := mem_buildFlags hp
    rw [htype]
    exact (hflags flag hflag).2
  · have ⟨flag, hflag, htype⟩ := hasked (by rw [hnack]; decide)
    exact nack_mem_buildFlags hflag (htype.trans hnack)

/-- The call is refused: it is for something else than a sender report, which has to go with it
and cannot be built. -/
def Refused (s : RTCPSender) (call : Call) : Prop :=
  s.lastFrameCaptureTime = none ∧ s.sending = true ∧ s.mode = .compound ∧
    call.packetType ≠ kRtcpSr ∧ call.packetType ≠ kRtcpReport

variable (call) in
/-- The three ways of a call that finds no flags. -/
theorem sendRTCP_cases (hs : s.reportFlags = []) :
    (Refused s call ∧ (s.sendRTCP call).1.reportFlags = [⟨call.packetType, true⟩]) ∨
    (¬Refused s call ∧ call.packetType ≠ kRtcpNack ∧ (s.sendRTCP call).1.reportFlags = [] ∧
      (s.sendRTCP call).2.1 = []) ∨
    (¬Refused s call ∧ (s.sendRTCP call).1.reportFlags = [] ∧
      (∀ p ∈ (s.sendRTCP call).2.1, p.type = call.packetType ∨ p.type = s.reportType) ∧
      (call.packetType = kRtcpNack → ∃ p ∈ (s.sendRTCP call).2.1, p.type = kRtcpNack)) := by
  have hset : (s.setFlag call.packetType).reportFlags = [⟨call.packetType, true⟩] :=
    reportFlags_setFlag_nil hs _
  have hfields : (s.setFlag call.packetType).lastFrameCaptureTime = s.lastFrameCaptureTime ∧
      (s.setFlag call.packetType).sending = s.sending ∧ (s.setFlag call.packetType).mode = s.mode ∧
      (s.setFlag call.packetType).reportType = s.reportType := by
    unfold setFlag
    split <;> exact ⟨rfl, rfl, rfl, rfl⟩
  have hbuilds := prepareAndBuild_single call hset
  rw [hfields.2.2.2] at hbuilds
  unfold sendRTCP computeCompoundRTCPPacket Refused
  dsimp only
  rw [hfields.1]
  cases hcapture : s.lastFrameCaptureTime with
  | some t => exact Or.inr (Or.inr ⟨by simp, hbuilds⟩)
  | none =>
    rw [consumeFlag_single hset]
    by_cases hsr : call.packetType = kRtcpSr
    · refine Or.inr (Or.inl ⟨by simp [hsr], by rw [hsr]; decide, ?_⟩)
      simp [hsr, allVolatileFlagsConsumed, consumeFlag]
    · rw [if_neg hsr, consumeFlag_single hset]
      by_cases hreport : call.packetType = kRtcpReport
      · refine Or.inr (Or.inl ⟨by simp [hreport], by rw [hreport]; decide, ?_⟩)
        simp [hreport, allVolatileFlagsConsumed]
      · rw [if_neg hreport]
        dsimp only
        rw [hfields.2.1, hfields.2.2.1]
        by_cases hrefused : s.sending = true ∧ s.mode = .compound
        · left
          simp [hrefused.1, hrefused.2, hsr, hreport, hset]
        · right; right
          have hnot : ¬((s.sending && decide (s.mode = .compound)) = true) := by simpa using hrefused
          simp only [Bool.or_self, Bool.false_and, Bool.false_eq_true, if_false, Option.isNone_none,
            if_true, hnot]
          exact ⟨fun h => hrefused ⟨h.2.1, h.2.2.1⟩, hbuilds⟩

/-- A call leaves no volatile flag, and builds what it was asked for and the implied report;
a NACK only from a list that is not empty. -/
def Clean (s : RTCPSender) (e : Event) : Prop :=
  match e with
  | .sendRTCP call =>
    (∀ flag ∈ (s.sendRTCP call).1.reportFlags, flag.isVolatile = false) ∧
    ∀ p ∈ (s.sendRTCP call).2.1, (p.type = call.packetType ∨ p.type = s.reportType) ∧
      (p.type = kRtcpNack → call.nackList ≠ [])
  | _ => True

/-- A NACK comes with a list, and the call is not refused. -/
def Allowed (s : RTCPSender) (e : Event) : Prop :=
  match e with
  | .sendRTCP call =>
    (call.packetType = kRtcpNack → call.nackList ≠ []) ∧ ¬Refused s call
  | _ => True

/-- Between calls there are no flags. -/
theorem clean_iff (hs : s.reportFlags = []) (e : Event) : Clean s e ↔ Allowed s e := by
  cases e with
  | sendRTCP call =>
    simp only [Clean, Allowed]
    rcases sendRTCP_cases call hs with ⟨hrefused, hflags⟩ | ⟨hnot, hnack, hflags, hbuilt⟩ |
      ⟨hnot, hflags, hbuilt, hnack⟩
    · simp [hflags, hrefused]
    · simp [hflags, hbuilt, hnot, hnack]
    · constructor
      · intro hclean
        refine ⟨fun htype => ?_, hnot⟩
        have ⟨p, hp, hptype⟩ := hnack htype
        exact (hclean.2 p hp).2 hptype
      · intro hallowed
        refine ⟨by simp [hflags], fun p hp => ⟨hbuilt p hp, fun hptype => ?_⟩⟩
        rcases hbuilt p hp with hasked | hreport
        · exact hallowed.1 (hasked ▸ hptype)
        · rw [hptype] at hreport
          unfold reportType at hreport
          split at hreport <;> exact absurd hreport (by decide)
  | setSendingStatus sending => exact Iff.rfl
  | setRTCPStatus mode now => exact Iff.rfl
  | setLastRtpTimestamp rtpTimestamp lastFrameCaptureTime now => exact Iff.rfl

theorem reportFlags_step (hs : s.reportFlags = []) {e : Event} (he : Allowed s e) :
    (s.step e).reportFlags = [] := by
  cases e with
  | sendRTCP call =>
    rcases sendRTCP_cases call hs with ⟨hrefused, _⟩ | ⟨_, _, hflags, _⟩ | ⟨_, hflags, _⟩
    · exact absurd hrefused he.2
    · exact hflags
    · exact hflags
  | setSendingStatus sending => exact hs
  | setRTCPStatus mode now =>
    simp only [step, setRTCPStatus]
    split_ifs <;> exact hs
  | setLastRtpTimestamp rtpTimestamp lastFrameCaptureTime now => exact hs

/-- Every call of a run is clean exactly if every call of it is allowed. -/
theorem clean_run_iff (localSsrc remoteSsrc : UInt32) (clockRate reportInterval : ℤ) (es : List Event) :
    Runs.Along step Clean { localSsrc, remoteSsrc, clockRate, reportInterval } es ↔
      Runs.Along step Allowed { localSsrc, remoteSsrc, clockRate, reportInterval } es :=
  @Runs.along_iff _ _ step (fun s => s.reportFlags = []) Allowed Clean
    (fun _ _ hs he => reportFlags_step hs he) (fun _ e hs => clean_iff hs e) _ rfl es

/-- A sender of a video stream. -/
def videoSender : RTCPSender :=
  { localSsrc := 1, remoteSsrc := 2, clockRate := 90000, reportInterval := 1000000 }

/-- It is asked for a NACK before its first frame, and has a frame then. -/
def earlyNack : List Event :=
  [.setRTCPStatus .compound 0, .setSendingStatus true,
   .sendRTCP { packetType := kRtcpNack, nackList := [5] }, .setLastRtpTimestamp 0 none 0]

/-- The NACK is refused but its flag stays, and the next report comes with an empty NACK. -/
theorem refused_nack_built_later :
    ¬Runs.Along step Clean videoSender earlyNack ∧
      ((Runs.run step videoSender earlyNack).sendRTCP { packetType := kRtcpReport }).2.1.map
        Built.type = [kRtcpSr, kRtcpNack] := by
  refine ⟨fun hclean => ?_, by decide +kernel⟩
  have hleft : (⟨kRtcpNack, true⟩ : ReportFlag) ∈
      (((videoSender.step (.setRTCPStatus .compound 0)).step (.setSendingStatus true)).sendRTCP
        { packetType := kRtcpNack, nackList := [5] }).1.reportFlags := by decide +kernel
  exact absurd (hclean.2.2.1.1 _ hleft) (by decide)

end Calls

end RTCPSender
end Rtcp
end XrtcServer
