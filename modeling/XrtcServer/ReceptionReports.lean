import XrtcServer.ReceptionCount

/-! What the report blocks of a receive stream say: the fraction lost since the report before, the
loss in all, and the jitter. -/
namespace XrtcServer
namespace Rtp
open XrtcServer.Rtcp (ReportBlock)

namespace StreamStatistician
variable {env : ReceiveEnvironment} {s s' : StreamStatistician} {packet : RtpPacketReceived} {n nowMs : ℤ}

section Blocks

/-- The packets lost as they go into a report, with the offset that they have then. -/
def packetsLost (s : StreamStatistician) : ℤ := max 0 (toInt32 (s.cumulativeLoss + s.cumulativeLossRtcpOffset))

/-- A block that is made of the statistics. -/
structure Reports (s : StreamStatistician) (block : ReportBlock) (s' : StreamStatistician) : Prop where
  received : s.receivedRtpPacket = true
  ssrc : block.sourceSsrc = s.ssrc
  fractionLost : block.fractionLost = s.fractionLost
  packetsLost : block.packetsLost = min 0x7fffff s.packetsLost
  jitter : block.jitter = UInt32.ofNat (s.jitterQ4 / 16).toNat
  seqNum : block.extendedHighSeqNum = UInt32.ofNat (s.receivedSeqMax % 2^32).toNat
  after : ∃ capped, s' = { s with
    cumulativeLossRtcpOffset :=
      if toInt32 (s.cumulativeLoss + s.cumulativeLossRtcpOffset) < 0 then toInt32 (-s.cumulativeLoss)
      else s.cumulativeLossRtcpOffset
    cumulativeLossIsCapped := capped
    lastReportCumulativeLoss := s.cumulativeLoss
    lastReportSeqMax := s.receivedSeqMax }

theorem clampedLoss_spec (s : StreamStatistician) : ∃ capped, s.clampedLoss = (min 0x7fffff s.packetsLost, { s with
    cumulativeLossRtcpOffset :=
      if toInt32 (s.cumulativeLoss + s.cumulativeLossRtcpOffset) < 0 then toInt32 (-s.cumulativeLoss)
      else s.cumulativeLossRtcpOffset
    cumulativeLossIsCapped := capped }) := by
  rw [clampedLoss, packetsLost]
  generalize toInt32 (s.cumulativeLoss + s.cumulativeLossRtcpOffset) = lost
  by_cases hneg : lost < 0
  · rw [if_pos hneg, if_pos hneg, max_eq_left hneg.le]
    exact ⟨_, rfl⟩
  · rw [if_neg hneg, if_neg hneg, max_eq_right (by omega)]
    by_cases hcap : lost > 0x7fffff
    · exact ⟨true, by rw [min_eq_left hcap.lt.le]; exact if_pos hcap⟩
    · exact ⟨_, by rw [min_eq_right (by omega)]; exact if_neg hcap⟩

theorem reportBlock_packetsLost (s : StreamStatistician) {lost : ℤ} (h : -8388608 ≤ lost ∧ lost < 8388608) :
    (s.reportBlock lost).packetsLost = lost := by
  rw [reportBlock, ReportBlock.setCumulativeLost]
  dsimp only
  rw [dif_neg (by omega)]

theorem reportBlock_rest (s : StreamStatistician) (lost : ℤ) : (s.reportBlock lost).sourceSsrc = s.ssrc ∧
    (s.reportBlock lost).fractionLost = s.fractionLost := by
  rw [reportBlock, ReportBlock.setCumulativeLost]
  dsimp only
  split <;> exact ⟨rfl, rfl⟩

theorem reports_of_append {block : ReportBlock} (h : s.maybeAppendReportBlockAndReset nowMs = (some block, s')) :
    s.Reports block s' := by
  rw [maybeAppendReportBlockAndReset] at h
  split at h
  · cases h
  split at h
  · cases h
  rename_i hreceived
  obtain ⟨capped, heq⟩ := clampedLoss_spec s
  rw [heq] at h
  cases h
  have hrange : -8388608 ≤ min 0x7fffff s.packetsLost ∧ min 0x7fffff s.packetsLost < 8388608 := by
    have hnonneg : 0 ≤ s.packetsLost := le_max_left _ _
    omega
  obtain ⟨hssrc, hfraction⟩ := reportBlock_rest { s with
    cumulativeLossRtcpOffset :=
      if toInt32 (s.cumulativeLoss + s.cumulativeLossRtcpOffset) < 0 then toInt32 (-s.cumulativeLoss)
      else s.cumulativeLossRtcpOffset
    cumulativeLossIsCapped := capped } (min 0x7fffff s.packetsLost)
  exact ⟨by simpa using hreceived, hssrc, hfraction, reportBlock_packetsLost _ hrange, rfl, rfl, capped, rfl⟩

end Blocks

section Fraction
variable {mark : StreamStatistician} {count : ℕ}

theorem toInt32_toInt32_sub (a b : ℤ) : toInt32 (toInt32 a - toInt32 b) = toInt32 (a - b) :=
  Int.bmod_sub_bmod.trans Int.sub_bmod_bmod

/-- What has happened since a report was made. Only a restart begins a new part of the stream. -/
structure Since (mark : StreamStatistician) (count : ℕ) (s : StreamStatistician) : Prop where
  sound : s.Sound
  begun : s.Begun
  parts : mark.spans.length ≤ s.spans.length
  loss : s.lastReportCumulativeLoss = mark.cumulativeLoss
  received : s.received = mark.received + UInt32.ofNat count
  postponed : s.postponed ≤ mark.postponed + count
  same : s.spans.length = mark.spans.length → s.lastReportSeqMax = mark.receivedSeqMax ∧
    mark.receivedSeqMax ≤ s.receivedSeqMax ∧
    expected s.spans = expected mark.spans + (s.receivedSeqMax - mark.receivedSeqMax)

theorem postponed_nonneg (s : StreamStatistician) : 0 ≤ s.postponed := by
  rw [StreamStatistician.postponed]
  split <;> decide

theorem postponed_le (s : StreamStatistician) : s.postponed ≤ 1 := by
  rw [StreamStatistician.postponed]
  split <;> decide

theorem expected_modifyHead {spans : List (ℤ × ℤ)} {first last : ℤ} {rest : List (ℤ × ℤ)}
    (h : spans = (first, last) :: rest) (n : ℤ) :
    expected (spans.modifyHead fun span => (span.1, n)) = expected spans + (n - last) := by
  rw [h, List.modifyHead_cons, expected_cons, expected_cons]
  omega

theorem counted_lastReport (s : StreamStatistician) (packet : RtpPacketReceived) (nowMs : ℤ) :
    (s.counted packet nowMs).lastReportCumulativeLoss = s.lastReportCumulativeLoss ∧
      (s.counted packet nowMs).lastReportSeqMax = s.lastReportSeqMax := by
  rw [counted, countPostponed]
  split <;> exact ⟨rfl, rfl⟩

theorem Since.counts (h : Since mark count s) (hcounts : Counts env s packet nowMs s') : Since mark (count + 1) s' := by
  obtain ⟨hsound, hbegun⟩ := h.sound.counts hcounts
  have hreceived : s'.received = mark.received + UInt32.ofNat (count + 1) := by
    rw [received_counts hcounts, h.received, UInt32.ofNat_add, UInt32.add_assoc]
    rfl
  have hpostponed : s'.postponed ≤ mark.postponed + (count + 1 : ℕ) := by
    have hle := postponed_le s'
    have hnonneg := postponed_nonneg mark
    omega
  obtain ⟨hspans, hmax, -, -⟩ := counted_same s packet nowMs
  obtain ⟨hloss, hseqMax⟩ := counted_lastReport s packet nowMs
  have hparts := h.parts
  cases hcounts with
  | first hnone =>
    rw [h.begun.receivedRtpPacket] at hnone
    cases hnone
  | restart hsome hnext =>
    refine ⟨hsound, hbegun, ?_, ?_, hreceived, hpostponed, ?_⟩
    · rw [updateInOrder_eq]
      simp only [List.length_modifyHead, List.length_cons, hspans]
      omega
    · rw [updateInOrder_eq]
      exact hloss.trans h.loss
    · rw [updateInOrder_eq]
      simp only [List.length_modifyHead, List.length_cons, hspans]
      omega
  | jump hsome hfar =>
    refine ⟨hsound, hbegun, hspans ▸ hparts, hloss.trans h.loss, hreceived, hpostponed, ?_⟩
    dsimp only
    rw [hspans, hseqMax, hmax]
    exact h.same
  | ahead hsome hnear hlt =>
    obtain ⟨first, rest, hhead⟩ := h.begun.head
    refine ⟨hsound, hbegun, ?_, ?_, hreceived, hpostponed, ?_⟩
    · rw [updateInOrder_eq]
      dsimp only
      rw [List.length_modifyHead, hspans]
      exact hparts
    · rw [updateInOrder_eq]
      exact hloss.trans h.loss
    · rw [updateInOrder_eq]
      dsimp only
      rw [List.length_modifyHead, hspans, hseqMax, expected_modifyHead hhead]
      intro hlength
      obtain ⟨hlast, hle, heq⟩ := h.same hlength
      exact ⟨hlast, by omega, by omega⟩
  | late hsome hnear hle retransmitted =>
    refine ⟨hsound, hbegun, hspans ▸ hparts, hloss.trans h.loss, hreceived, hpostponed, ?_⟩
    dsimp only
    rw [hspans, hseqMax, hmax]
    exact h.same

/-- No report is made. -/
def Event.isReport : Event → Bool
  | .report _ => true
  | _ => false

theorem Since.of_same (h : Since mark count s) (hsound : s'.Sound) (hbegun : s'.Begun)
    (hsame : s'.spans = s.spans ∧ s'.receivedSeqMax = s.receivedSeqMax ∧
      s'.lastReportCumulativeLoss = s.lastReportCumulativeLoss ∧ s'.lastReportSeqMax = s.lastReportSeqMax ∧
      s'.received = s.received ∧ s'.postponed = s.postponed) : Since mark count s' := by
  obtain ⟨hspans, hmax, hloss, hseqMax, hreceived, hpostponed⟩ := hsame
  refine ⟨hsound, hbegun, hspans ▸ h.parts, hloss.trans h.loss, hreceived.trans h.received, hpostponed ▸ h.postponed, ?_⟩
  rw [hspans, hmax, hseqMax]
  exact h.same

theorem Since.run {es : List Event} (h : Since mark count s) (hquiet : ∀ e ∈ es, e.isReport = false)
    (hrun : run env s es = .ok s') : Since mark (count + (packets es).length) s' := by
  induction es generalizing s count with
  | nil =>
    cases hrun
    exact h
  | cons e es ih =>
    obtain ⟨t, hstep, hrest⟩ := ExceptFolds.foldlM_cons_eq_ok hrun
    have hquiet' : ∀ e' ∈ es, e'.isReport = false := fun e' he' => hquiet e' (List.mem_cons_of_mem e he')
    cases e with
    | packet packet nowMs =>
      have hlength : count + (packets (.packet packet nowMs :: es)).length = count + 1 + (packets es).length := by
        rw [Nat.add_assoc, Nat.add_comm 1]
        rfl
      rw [hlength]
      exact ih (h.counts (counts_of_updateCounters hstep)) hquiet' hrest
    | report nowMs => cases hquiet _ List.mem_cons_self
    | setMaxReorderingThreshold threshold =>
      have hsound := h.sound.step hstep
      cases hstep
      have hbegun : ({ s with maxReorderingThreshold := threshold } : StreamStatistician).Begun :=
        h.begun.of_same ⟨rfl, rfl, rfl, rfl⟩
      exact ih (h.of_same hsound hbegun ⟨rfl, rfl, rfl, rfl, rfl, rfl⟩) hquiet' hrest
    | enableRetransmitDetection enable =>
      have hsound := h.sound.step hstep
      cases hstep
      have hbegun : ({ s with enableRetransmitDetection := enable } : StreamStatistician).Begun :=
        h.begun.of_same ⟨rfl, rfl, rfl, rfl⟩
      exact ih (h.of_same hsound hbegun ⟨rfl, rfl, rfl, rfl, rfl, rfl⟩) hquiet' hrest

theorem Reports.since {block : ReportBlock} (hsound : s.Sound) (h : s.Reports block s') : Since s' 0 s' := by
  have hbegun := hsound.begun h.received
  obtain ⟨capped, rfl⟩ := h.after
  have hbegun' : ({ s with
    cumulativeLossRtcpOffset :=
      if toInt32 (s.cumulativeLoss + s.cumulativeLossRtcpOffset) < 0 then toInt32 (-s.cumulativeLoss)
      else s.cumulativeLossRtcpOffset
    cumulativeLossIsCapped := capped
    lastReportCumulativeLoss := s.cumulativeLoss
    lastReportSeqMax := s.receivedSeqMax } : StreamStatistician).Begun := hbegun.of_same ⟨rfl, rfl, rfl, rfl⟩
  exact ⟨⟨hsound.balanced, .inr hbegun'⟩, hbegun', le_rfl, rfl, (UInt32.add_zero _).symm, by omega,
    fun _ => ⟨rfl, le_rfl, by omega⟩⟩

end Fraction

section LossInAll

/-- The losses that the reports of a run were made of. -/
def reportedLosses (env : ReceiveEnvironment) : StreamStatistician → List Event → List ℤ
  | _, [] => []
  | s, e :: es =>
    match step env s e with
    | .error _ => []
    | .ok t =>
      match e with
      | .report nowMs =>
        if (s.maybeAppendReportBlockAndReset nowMs).1.isSome then s.cumulativeLoss :: reportedLosses env t es
        else reportedLosses env t es
      | _ => reportedLosses env t es

theorem reportedLosses_cons {e : Event} {es : List Event} (hstep : step env s e = .ok s') (hquiet : e.isReport = false) :
    reportedLosses env s (e :: es) = reportedLosses env s' es := by
  rw [reportedLosses, hstep]
  cases e with
  | report nowMs => cases hquiet
  | packet packet nowMs => rfl
  | setMaxReorderingThreshold threshold => rfl
  | enableRetransmitDetection enable => rfl

theorem counted_offset (s : StreamStatistician) (packet : RtpPacketReceived) (nowMs : ℤ) :
    (s.counted packet nowMs).cumulativeLossRtcpOffset = s.cumulativeLossRtcpOffset := by
  rw [counted, countPostponed]
  split <;> rfl

theorem counts_offset (h : Counts env s packet nowMs s') : s'.cumulativeLossRtcpOffset = s.cumulativeLossRtcpOffset := by
  have hcounted := counted_offset s packet nowMs
  cases h with
  | first hnone =>
    rw [updateInOrder_eq]
    rfl
  | restart hsome hnext =>
    rw [updateInOrder_eq]
    exact hcounted
  | jump hsome hfar => exact hcounted
  | ahead hsome hnear hlt =>
    rw [updateInOrder_eq]
    exact hcounted
  | late hsome hnear hle retransmitted => exact hcounted

/-- The bound under which the sum of a loss and an offset does not overflow. -/
def Moderate (loss : ℤ) : Prop := -2^30 < loss ∧ loss < 2^30

/-- The offset of a report, where the one before keeps the losses above the lowest from being negative. -/
theorem offset_report {low loss offset : ℤ} (hlow : Moderate low) (hloss : Moderate loss) (hle : low ≤ 0)
    (hoffset : offset = -low) : (if toInt32 (loss + offset) < 0 then toInt32 (-loss) else offset) = -min low loss := by
  rw [Moderate] at hlow hloss
  have hsum : toInt32 (loss + offset) = loss - low := by
    rw [toInt32_eq_self (by omega) (by omega)]
    omega
  rw [hsum]
  split
  · rw [toInt32_eq_self (by omega) (by omega), min_eq_right (by omega)]
  · rw [min_eq_left (by omega), hoffset]

theorem append_of_isSome (h : (s.maybeAppendReportBlockAndReset nowMs).1.isSome) :
    ∃ block, s.maybeAppendReportBlockAndReset nowMs = (some block, (s.maybeAppendReportBlockAndReset nowMs).2) := by
  obtain ⟨block, hblock⟩ := Option.isSome_iff_exists.mp h
  exact ⟨block, Prod.ext hblock rfl⟩

theorem same_of_not_append (h : ¬ (s.maybeAppendReportBlockAndReset nowMs).1.isSome) :
    (s.maybeAppendReportBlockAndReset nowMs).2 = s := by
  rw [maybeAppendReportBlockAndReset] at h ⊢
  split
  · rfl
  split
  · rfl
  · rename_i htime hreceived
    rw [if_neg htime, if_neg hreceived] at h
    exact absurd rfl h

theorem offset_run {es : List Event} {low : ℤ} (hlow : Moderate low) (hle : low ≤ 0)
    (hoffset : s.cumulativeLossRtcpOffset = -low) (hmoderate : ∀ loss ∈ reportedLosses env s es, Moderate loss)
    (hrun : run env s es = .ok s') : s'.cumulativeLossRtcpOffset = -(reportedLosses env s es).foldl min low := by
  induction es generalizing s low with
  | nil =>
    cases hrun
    exact hoffset
  | cons e es ih =>
    obtain ⟨t, hstep, hrest⟩ := ExceptFolds.foldlM_cons_eq_ok hrun
    cases e with
    | packet packet nowMs =>
      rw [reportedLosses_cons hstep rfl] at hmoderate ⊢
      exact ih hlow hle ((counts_offset (counts_of_updateCounters hstep)).trans hoffset) hmoderate hrest
    | report nowMs =>
      rw [reportedLosses, hstep] at hmoderate ⊢
      cases hstep
      dsimp only at hmoderate ⊢
      split at hmoderate
      · rename_i hsome
        obtain ⟨block, happend⟩ := append_of_isSome hsome
        obtain ⟨capped, hafter⟩ := (reports_of_append happend).after
        have hloss := hmoderate _ List.mem_cons_self
        rw [if_pos hsome, List.foldl_cons]
        refine ih ?_ ((min_le_left _ _).trans hle) ?_ (fun loss h => hmoderate loss (List.mem_cons_of_mem _ h)) hrest
        · rw [Moderate] at hlow hloss ⊢
          omega
        · rw [hafter]
          exact offset_report hlow hloss hle hoffset
      · rename_i hnone
        rw [if_neg hnone]
        rw [same_of_not_append hnone] at hmoderate hrest ⊢
        exact ih hlow hle hoffset hmoderate hrest
    | setMaxReorderingThreshold threshold =>
      rw [reportedLosses_cons hstep rfl] at hmoderate ⊢
      cases hstep
      exact ih hlow hle hoffset hmoderate hrest
    | enableRetransmitDetection enable =>
      rw [reportedLosses_cons hstep rfl] at hmoderate ⊢
      cases hstep
      exact ih hlow hle hoffset hmoderate hrest

theorem foldl_min_le (losses : List ℤ) (low : ℤ) (hlow : Moderate low) (hle : low ≤ 0)
    (hmoderate : ∀ loss ∈ losses, Moderate loss) : Moderate (losses.foldl min low) ∧ losses.foldl min low ≤ 0 := by
  induction losses generalizing low with
  | nil => exact ⟨hlow, hle⟩
  | cons loss losses ih =>
    have hloss := hmoderate loss List.mem_cons_self
    refine ih (min low loss) ?_ ((min_le_left _ _).trans hle) fun l hl => hmoderate l (List.mem_cons_of_mem _ hl)
    rw [Moderate] at hlow hloss ⊢
    omega

/-- The loss that a report carries is the rise above the lowest loss that it or a report before was
made of, none for the beginning, as far as three bytes hold it. -/
theorem packetsLost_run {ssrc : UInt32} {threshold : ℤ} {es : List Event} {block : ReportBlock}
    (hrun : run env (create ssrc threshold) es = .ok s)
    (hmoderate : ∀ loss ∈ s.cumulativeLoss :: reportedLosses env (create ssrc threshold) es, Moderate loss)
    (hreport : s.maybeAppendReportBlockAndReset nowMs = (some block, s')) :
    0 ≤ block.packetsLost ∧ block.packetsLost = min 0x7fffff (s.cumulativeLoss -
      min ((reportedLosses env (create ssrc threshold) es).foldl min 0) s.cumulativeLoss) := by
  have hzero : Moderate 0 := ⟨by decide, by decide⟩
  have hloss := hmoderate _ List.mem_cons_self
  have hothers := fun loss h => hmoderate loss (List.mem_cons_of_mem s.cumulativeLoss h)
  have hoffset := offset_run hzero le_rfl rfl hothers hrun
  obtain ⟨hlow, hle⟩ := foldl_min_le _ 0 hzero le_rfl hothers
  generalize (reportedLosses env (create ssrc threshold) es).foldl min 0 = low at *
  rw [Moderate] at hlow hloss
  have hsum : toInt32 (s.cumulativeLoss + s.cumulativeLossRtcpOffset) = s.cumulativeLoss - low := by
    rw [toInt32_eq_self (by omega) (by omega)]
    omega
  rw [(reports_of_append hreport).packetsLost, packetsLost, hsum]
  omega

/-- A packet that came twice, and then a gap of two. -/
theorem packetsLost_run_duplicate : ∃ s s' block,
    run closestEnvironment (create 7 5) [arrival 100, arrival 100, .report 0, arrival 103] = .ok s ∧
      s.maybeAppendReportBlockAndReset 0 = (some block, s') ∧ block.packetsLost = min 0x7fffff (1 - min (-1) 1) := by
  obtain ⟨s, s', block, hrun, hreport, hloss, hlosses⟩ : ∃ s s' block,
      run closestEnvironment (create 7 5) [arrival 100, arrival 100, .report 0, arrival 103] = .ok s ∧
        s.maybeAppendReportBlockAndReset 0 = (some block, s') ∧ s.cumulativeLoss = 1 ∧
        reportedLosses closestEnvironment (create 7 5) [arrival 100, arrival 100, .report 0, arrival 103] = [-1] :=
    ⟨_, _, _, rfl, rfl, rfl, rfl⟩
  have hmoderate : ∀ loss ∈ s.cumulativeLoss :: reportedLosses closestEnvironment (create 7 5)
      [arrival 100, arrival 100, .report 0, arrival 103], Moderate loss := by
    rw [hloss, hlosses]
    simp [Moderate]
  have hresult := (packetsLost_run hrun hmoderate hreport).2
  rw [hloss, hlosses] at hresult
  exact ⟨s, s', block, hrun, hreport, hresult⟩

end LossInAll

section Jitter

/-- The most that the jitter can be, in sixteenths. -/
def jitterLimit : ℤ := 16 * 449999

theorem timeDiffSamples_range (s : StreamStatistician) (packet : RtpPacketReceived) (nowMs : ℤ) :
    0 ≤ s.timeDiffSamples packet nowMs ∨ s.timeDiffSamples packet nowMs = -2^31 := by
  have hwrapped : ∀ diff : ℤ, -2^31 ≤ diff → diff < 2^31 → 0 ≤ toInt32 |diff| ∨ toInt32 |diff| = -2^31 := by
    intro diff hlow hhigh
    have hnonneg := abs_nonneg diff
    by_cases hleast : diff = -2^31
    · right
      rw [hleast]
      rfl
    · left
      rw [toInt32_eq_self (by omega) (abs_lt.mpr ⟨by omega, hhigh⟩)]
      exact hnonneg
  exact hwrapped _ (Int.le_bmod (by decide)) (Int.bmod_lt (by decide))

/-- The jitter moves by a sixteenth of the way to the difference, and no step of it overflows. -/
theorem jitterQ4_updateJitter_eq (hjitter : 0 ≤ s.jitterQ4 ∧ s.jitterQ4 ≤ jitterLimit)
    (hsmall : s.timeDiffSamples packet nowMs < 450000) :
    (s.updateJitter packet nowMs).jitterQ4 = (15 * s.jitterQ4 + 16 * max 0 (s.timeDiffSamples packet nowMs) + 8) / 16 := by
  rw [jitterLimit] at hjitter
  have hscaled : toInt32 (s.timeDiffSamples packet nowMs * 16) = 16 * max 0 (s.timeDiffSamples packet nowMs) := by
    cases timeDiffSamples_range s packet nowMs with
    | inl hnonneg =>
      rw [toInt32_eq_self (by omega) (by omega)]
      omega
    | inr hleast =>
      rw [hleast]
      rfl
  rw [jitterQ4_updateJitter, if_pos hsmall, hscaled]
  obtain ⟨d, hd⟩ : ∃ d, max 0 (s.timeDiffSamples packet nowMs) = d := ⟨_, rfl⟩
  have hrange : 0 ≤ d ∧ d < 450000 := by omega
  rw [hd, toInt32_eq_self (a := 16 * d - s.jitterQ4) (by omega) (by omega), toInt32_eq_self (by omega) (by omega)]
  have hmoved : s.jitterQ4 + (16 * d - s.jitterQ4 + 8) / 16 = (15 * s.jitterQ4 + 16 * d + 8) / 16 := by omega
  rw [hmoved]
  exact Int.emod_eq_of_lt (by omega) (by omega)

theorem jitterAfter_eq (s : StreamStatistician) (packet : RtpPacketReceived) (nowMs : ℤ)
    (hjitter : 0 ≤ s.jitterQ4 ∧ s.jitterQ4 ≤ jitterLimit) :
    s.jitterAfter packet nowMs = s.jitterQ4 ∨ s.timeDiffSamples packet nowMs < 450000 ∧
      s.jitterAfter packet nowMs = (15 * s.jitterQ4 + 16 * max 0 (s.timeDiffSamples packet nowMs) + 8) / 16 := by
  rw [jitterAfter]
  split
  · by_cases hsmall : s.timeDiffSamples packet nowMs < 450000
    · exact .inr ⟨hsmall, jitterQ4_updateJitter_eq hjitter hsmall⟩
    · rw [jitterQ4_updateJitter, if_neg hsmall]
      exact .inl rfl
  · exact .inl rfl

/-- What the jitter depends on. -/
theorem counted_jitter (s : StreamStatistician) (packet : RtpPacketReceived) (nowMs : ℤ) :
    (s.counted packet nowMs).jitterQ4 = s.jitterQ4 ∧
      (s.counted packet nowMs).lastReceiveTimeMs = s.lastReceiveTimeMs ∧
      (s.counted packet nowMs).lastReceivedTimestamp = s.lastReceivedTimestamp := by
  rw [counted, countPostponed]
  split <;> exact ⟨rfl, rfl, rfl⟩

theorem jitter_inOrder (s : StreamStatistician) {t : StreamStatistician} {sequenceNumber : ℤ}
    (hjitter : 0 ≤ s.jitterQ4 ∧ s.jitterQ4 ≤ jitterLimit)
    (hsame : t.jitterQ4 = s.jitterQ4 ∧ t.lastReceiveTimeMs = s.lastReceiveTimeMs ∧
      t.lastReceivedTimestamp = s.lastReceivedTimestamp) :
    (t.updateInOrder packet sequenceNumber nowMs).jitterQ4 = s.jitterQ4 ∨ s.timeDiffSamples packet nowMs < 450000 ∧
      (t.updateInOrder packet sequenceNumber nowMs).jitterQ4 =
        (15 * s.jitterQ4 + 16 * max 0 (s.timeDiffSamples packet nowMs) + 8) / 16 := by
  obtain ⟨hq4, htime, hstamp⟩ := hsame
  have hsamples : t.timeDiffSamples packet nowMs = s.timeDiffSamples packet nowMs := by
    rw [timeDiffSamples, timeDiffSamples, htime, hstamp]
  rw [updateInOrder_eq, ← hsamples, ← hq4]
  exact jitterAfter_eq t packet nowMs (hq4 ▸ hjitter)

theorem jitter_counts (hjitter : 0 ≤ s.jitterQ4 ∧ s.jitterQ4 ≤ jitterLimit) (h : Counts env s packet nowMs s') :
    s'.jitterQ4 = s.jitterQ4 ∨ s.timeDiffSamples packet nowMs < 450000 ∧
      s'.jitterQ4 = (15 * s.jitterQ4 + 16 * max 0 (s.timeDiffSamples packet nowMs) + 8) / 16 := by
  have hsame := counted_jitter s packet nowMs
  cases h with
  | first hnone => exact jitter_inOrder s hjitter ⟨rfl, rfl, rfl⟩
  | restart hsome hnext => exact jitter_inOrder s hjitter hsame
  | jump hsome hfar => exact .inl hsame.1
  | ahead hsome hnear hlt => exact jitter_inOrder s hjitter hsame
  | late hsome hnear hle retransmitted => exact .inl hsame.1

theorem jitter_step {e : Event} (hjitter : 0 ≤ s.jitterQ4 ∧ s.jitterQ4 ≤ jitterLimit) (hstep : step env s e = .ok s') :
    0 ≤ s'.jitterQ4 ∧ s'.jitterQ4 ≤ jitterLimit := by
  cases e with
  | packet packet nowMs =>
    rw [jitterLimit] at hjitter ⊢
    cases jitter_counts hjitter (counts_of_updateCounters hstep) with
    | inl hsame => omega
    | inr hmoved => omega
  | report nowMs =>
    cases hstep
    obtain ⟨offset, capped, loss, seqMax, heq⟩ := report_eq s nowMs
    rw [heq]
    exact hjitter
  | setMaxReorderingThreshold threshold =>
    cases hstep
    exact hjitter
  | enableRetransmitDetection enable =>
    cases hstep
    exact hjitter

/-- In every run the jitter stays below the difference from which a packet is not looked at, and a
packet leaves it or moves it as RFC 3550 has it, without an overflow of 32 bits. -/
theorem jitter_run {ssrc : UInt32} {threshold : ℤ} {es : List Event} (hrun : run env (create ssrc threshold) es = .ok s) :
    (0 ≤ s.jitterQ4 ∧ s.jitterQ4 ≤ 16 * 449999) ∧ ∀ packet nowMs s', s.updateCounters env packet nowMs = .ok s' →
      s'.jitterQ4 = s.jitterQ4 ∨ s.timeDiffSamples packet nowMs < 450000 ∧
        s'.jitterQ4 = (15 * s.jitterQ4 + 16 * max 0 (s.timeDiffSamples packet nowMs) + 8) / 16 := by
  have hjitter : 0 ≤ s.jitterQ4 ∧ s.jitterQ4 ≤ jitterLimit :=
    ExceptFolds.invariant_of_ok (I := fun s => 0 ≤ s.jitterQ4 ∧ s.jitterQ4 ≤ jitterLimit)
      (fun _ _ _ _ hstep h => jitter_step h hstep) ⟨le_rfl, Int.mul_nonneg (by decide) (by decide)⟩ hrun
  exact ⟨hjitter, fun packet nowMs s' h => jitter_counts hjitter (counts_of_updateCounters h)⟩

/-- The second packet is 1600 samples away from the first one, and came at the same time. -/
theorem jitter_run_once : ∃ s, run closestEnvironment (create 7 5)
    [arrival 100, .packet { ssrc := 7, sequenceNumber := 101, timestamp := 1600 } 0] = .ok s ∧
      s.jitterQ4 = 1600 ∧ 0 ≤ s.jitterQ4 ∧ s.jitterQ4 ≤ 16 * 449999 := by
  obtain ⟨s, hrun, hjitter⟩ : ∃ s, run closestEnvironment (create 7 5)
      [arrival 100, .packet { ssrc := 7, sequenceNumber := 101, timestamp := 1600 } 0] = .ok s ∧ s.jitterQ4 = 1600 :=
    ⟨_, rfl, rfl⟩
  exact ⟨s, hrun, hjitter, (jitter_run hrun).1⟩

end Jitter

end StreamStatistician
end Rtp
end XrtcServer
