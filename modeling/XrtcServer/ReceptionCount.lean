import XrtcServer.ReceiveStatistics
import Mathlib.Algebra.BigOperators.Group.List.Basic
import Mathlib.Data.Finset.Card
import Mathlib.Order.Interval.Finset.Nat
import Mathlib.Algebra.Order.Group.Unbundled.Int

/-! The loss that a receive stream counts, against the packets that were expected and came. -/
namespace XrtcServer
namespace Rtp

theorem toInt32_congr {a b : ℤ} (h : (a - b) % 2^32 = 0) : toInt32 a = toInt32 b :=
  Int.bmod_eq_bmod_iff_bmod_sub_eq_zero.mpr (Int.bmod_eq_zero_of_dvd (Int.dvd_of_emod_eq_zero h))

theorem toInt32_toInt32_add (a b : ℤ) : toInt32 (toInt32 a + b) = toInt32 (a + b) := Int.bmod_add_bmod

theorem toInt32_eq_self {a : ℤ} (h : -2^31 ≤ a) (h' : a < 2^31) : toInt32 a = a :=
  Int.bmod_eq_of_le (by simpa using h) (by simpa using h')

/-- How many packets the parts of a stream have. -/
def expected (spans : List (ℤ × ℤ)) : ℤ := (spans.map fun span => span.2 - span.1 + 1).sum

theorem expected_cons (span : ℤ × ℤ) (spans : List (ℤ × ℤ)) :
    expected (span :: spans) = span.2 - span.1 + 1 + expected spans := by
  rw [expected, List.map_cons, List.sum_cons]
  rfl

namespace StreamStatistician
variable {env : ReceiveEnvironment} {s s' : StreamStatistician} {packet : RtpPacketReceived} {n nowMs : ℤ}

def received (s : StreamStatistician) : UInt32 := s.receiveCounters.transmitted.packets

/-- A packet that jumped is not counted as received yet. -/
def postponed (s : StreamStatistician) : ℤ := if s.receivedSeqOutOfOrder.isSome then 1 else 0

/-- The loss is what was expected and did not come, in 32 bits. -/
def Balanced (s : StreamStatistician) : Prop :=
  s.cumulativeLoss = toInt32 (expected s.spans - s.received.toNat + s.postponed)

/-- The newest part of the stream ends with the highest number, and the oldest one begins with the
first number. -/
structure Begun (s : StreamStatistician) : Prop where
  first_nonneg : 0 ≤ s.receivedSeqFirst
  max_nonneg : 0 ≤ s.receivedSeqMax
  unwrapper : s.seqUnwrapper = some s.receivedSeqMax
  head : ∃ first rest, s.spans = (first, s.receivedSeqMax) :: rest
  oldest : (s.spans.map Prod.fst).getLast? = some s.receivedSeqFirst
  ordered : ∀ span ∈ s.spans, span.1 ≤ span.2

/-- Nothing has come. -/
structure Fresh (s : StreamStatistician) : Prop where
  first_eq : s.receivedSeqFirst = -1
  unwrapper : s.seqUnwrapper = none
  spans : s.spans = []
  outOfOrder : s.receivedSeqOutOfOrder = none
  received : s.received = 0

structure Sound (s : StreamStatistician) : Prop where
  balanced : s.Balanced
  phase : s.Fresh ∨ s.Begun

section Balance

theorem Balanced.countReceived (h : s.Balanced) (packet : RtpPacketReceived) (nowMs : ℤ) :
    (s.countReceived packet nowMs).Balanced := by
  have hcount : (s.received + 1).toNat = (s.received.toNat + 1) % 2^32 := UInt32.toNat_add _ _
  calc toInt32 (s.cumulativeLoss - 1)
      = toInt32 (expected s.spans - s.received.toNat + s.postponed + -1) := by
        rw [h, sub_eq_add_neg, toInt32_toInt32_add]
    _ = toInt32 (expected s.spans - (s.received + 1).toNat + s.postponed) := by
        rw [hcount]
        exact toInt32_congr (by omega)

theorem countPostponed_postponed : s.countPostponed.postponed = 0 := by
  rw [countPostponed]
  split
  · rfl
  · rename_i hnone
    exact if_neg hnone

theorem Balanced.countPostponed (h : s.Balanced) : s.countPostponed.Balanced := by
  rw [Balanced, countPostponed_postponed, StreamStatistician.countPostponed]
  split
  · rename_i hsome
    rw [Balanced, postponed, if_pos hsome] at h
    calc toInt32 (s.cumulativeLoss - 1)
        = toInt32 (expected s.spans - s.received.toNat + 1 + -1) := by
          rw [h, sub_eq_add_neg, toInt32_toInt32_add]
      _ = toInt32 (expected s.spans - s.received.toNat + 0) := congrArg toInt32 (by omega)
  · rename_i hnone
    rw [Balanced, postponed, if_neg hnone] at h
    exact h

theorem Balanced.updateInOrder (h : s.Balanced) (hhead : ∃ first rest, s.spans = (first, s.receivedSeqMax) :: rest)
    (packet : RtpPacketReceived) (n nowMs : ℤ) : (s.updateInOrder packet n nowMs).Balanced := by
  obtain ⟨first, rest, hspans⟩ := hhead
  rw [Balanced, hspans, expected_cons] at h
  rw [updateInOrder_eq, Balanced]
  simp only [hspans, List.modifyHead_cons, expected_cons, h, toInt32_toInt32_add]
  exact congrArg toInt32 (by simp only [postponed, received]; omega)

end Balance

section Steps

theorem Begun.receivedRtpPacket (h : s.Begun) : s.receivedRtpPacket = true := decide_eq_true h.first_nonneg

theorem Fresh.receivedRtpPacket (h : s.Fresh) : s.receivedRtpPacket = false := by
  refine decide_eq_false ?_
  rw [h.first_eq]
  decide

theorem begun_updateInOrder {first : ℤ} {rest : List (ℤ × ℤ)} (hspans : s.spans = (first, s.receivedSeqMax) :: rest)
    (hfirst : 0 ≤ s.receivedSeqFirst) (hn : 0 ≤ n) (hle : first ≤ n) (hrest : ∀ span ∈ rest, span.1 ≤ span.2)
    (holdest : (s.spans.map Prod.fst).getLast? = some s.receivedSeqFirst) : (s.updateInOrder packet n nowMs).Begun := by
  rw [updateInOrder_eq, hspans, List.modifyHead_cons]
  refine ⟨hfirst, hn, rfl, ⟨first, rest, rfl⟩, ?_, ?_⟩
  · rw [hspans] at holdest
    exact holdest
  · intro span hspan
    cases List.mem_cons.mp hspan with
    | inl heq => exact heq ▸ hle
    | inr hmem => exact hrest span hmem

theorem extended_nonneg (h : s.Fresh ∨ s.Begun) (packet : RtpPacketReceived) : 0 ≤ s.extended env packet := by
  rw [extended]
  cases h with
  | inl hfresh =>
    rw [hfresh.unwrapper, env.unwrap_first]
    omega
  | inr hbegun =>
    rw [hbegun.unwrapper]
    exact env.unwrap_nonneg _ _ hbegun.max_nonneg

/-- What the counters of a packet do not change. -/
theorem counted_same (s : StreamStatistician) (packet : RtpPacketReceived) (nowMs : ℤ) :
    (s.counted packet nowMs).spans = s.spans ∧ (s.counted packet nowMs).receivedSeqMax = s.receivedSeqMax ∧
      (s.counted packet nowMs).receivedSeqFirst = s.receivedSeqFirst ∧
      (s.counted packet nowMs).seqUnwrapper = s.seqUnwrapper := by
  rw [counted, countPostponed]
  split <;> exact ⟨rfl, rfl, rfl, rfl⟩

theorem Begun.of_same (h : s.Begun) (hsame : s'.spans = s.spans ∧ s'.receivedSeqMax = s.receivedSeqMax ∧
    s'.receivedSeqFirst = s.receivedSeqFirst ∧ s'.seqUnwrapper = s.seqUnwrapper) : s'.Begun := by
  obtain ⟨hspans, hmax, hfirst, hunwrapper⟩ := hsame
  constructor
  · exact hfirst ▸ h.first_nonneg
  · exact hmax ▸ h.max_nonneg
  · rw [hunwrapper, hmax, h.unwrapper]
  · rw [hspans, hmax]
    exact h.head
  · rw [hspans, hfirst]
    exact h.oldest
  · rw [hspans]
    exact h.ordered

theorem Sound.begun (h : s.Sound) (hsome : s.receivedRtpPacket = true) : s.Begun :=
  h.phase.resolve_left fun hfresh => by simp [hfresh.receivedRtpPacket] at hsome

theorem Sound.counts (h : s.Sound) (hcounts : Counts env s packet nowMs s') : s'.Sound ∧ s'.Begun := by
  have hn : 0 ≤ s.extended env packet := extended_nonneg h.phase packet
  have hcounted := (h.balanced.countReceived packet nowMs).countPostponed
  obtain ⟨hspans, hmax, hfirst, hunwrapper⟩ := counted_same s packet nowMs
  cases hcounts with
  | first hnone =>
    have hfresh : s.Fresh := h.phase.resolve_right fun hbegun => by simp [hbegun.receivedRtpPacket] at hnone
    have hstarted : (s.started packet (s.extended env packet) nowMs).Balanced := by
      have hbalanced := h.balanced.countReceived packet nowMs
      have hempty : (s.countReceived packet nowMs).spans = [] := hfresh.spans
      rw [Balanced, hempty] at hbalanced
      rw [Balanced, started]
      dsimp only
      rw [hbalanced, expected_cons]
      exact congrArg toInt32 (by simp only [expected, received, postponed, List.map_nil, List.sum_nil]; omega)
    have hbegun : ((s.started packet (s.extended env packet) nowMs).updateInOrder packet
        (s.extended env packet) nowMs).Begun := begun_updateInOrder rfl hn hn le_rfl (by simp) rfl
    exact ⟨⟨hstarted.updateInOrder ⟨_, _, rfl⟩ _ _ _, .inr hbegun⟩, hbegun⟩
  | restart hsome hnext =>
    have hbegun := h.begun hsome
    have hoff : (s.extended env packet - 2) - (s.extended env packet - 1) + 1 = 0 := by omega
    have hbalanced : ({ s.counted packet nowMs with
        lastReportSeqMax := s.extended env packet - 2
        receivedSeqMax := s.extended env packet - 2
        spans := (s.extended env packet - 1, s.extended env packet - 2) :: (s.counted packet nowMs).spans } :
          StreamStatistician).Balanced := by
      rw [Balanced, expected_cons, hoff, zero_add]
      exact hcounted
    refine ⟨⟨hbalanced.updateInOrder ⟨_, _, rfl⟩ _ _ _, .inr ?_⟩, ?_⟩
    all_goals
      refine begun_updateInOrder rfl (hfirst ▸ hbegun.first_nonneg) hn (by omega) (hspans ▸ hbegun.ordered) ?_
      simp only [hspans, hfirst, List.map_cons, List.getLast?_cons, hbegun.oldest, Option.getD_some]
  | jump hsome hfar =>
    have hbegun := (h.begun hsome).of_same (counted_same s packet nowMs)
    have hpostponed : (s.counted packet nowMs).postponed = 0 := countPostponed_postponed
    refine ⟨⟨?_, .inr (hbegun.of_same ⟨rfl, rfl, rfl, rfl⟩)⟩, hbegun.of_same ⟨rfl, rfl, rfl, rfl⟩⟩
    have hloss : (s.counted packet nowMs).cumulativeLoss =
        toInt32 (expected (s.counted packet nowMs).spans - (s.counted packet nowMs).received.toNat) := by
      rw [← add_zero (_ - _), ← hpostponed]
      exact hcounted
    rw [Balanced, hloss, toInt32_toInt32_add]
    rfl
  | ahead hsome hnear hlt =>
    have hbegun := (h.begun hsome).of_same (counted_same s packet nowMs)
    obtain ⟨first, rest, hhead⟩ := hbegun.head
    have hle : first ≤ (s.counted packet nowMs).receivedSeqMax := hbegun.ordered (first, _) (by simp [hhead])
    have hlast : ((s.counted packet nowMs).updateInOrder packet (s.extended env packet) nowMs).Begun :=
      begun_updateInOrder hhead hbegun.first_nonneg hn (by omega) (fun span hspan => hbegun.ordered span (by simp [hhead, hspan])) hbegun.oldest
    exact ⟨⟨hcounted.updateInOrder hbegun.head _ _ _, .inr hlast⟩, hlast⟩
  | late hsome hnear hle retransmitted =>
    have hbegun := (h.begun hsome).of_same (counted_same s packet nowMs)
    exact ⟨⟨hcounted, .inr (hbegun.of_same ⟨rfl, rfl, rfl, rfl⟩)⟩, hbegun.of_same ⟨rfl, rfl, rfl, rfl⟩⟩

theorem clampedLoss_eq (s : StreamStatistician) : ∃ lost offset capped,
    s.clampedLoss = (lost, { s with cumulativeLossRtcpOffset := offset, cumulativeLossIsCapped := capped }) := by
  rw [clampedLoss]
  dsimp only
  split <;> split <;> exact ⟨_, _, _, rfl⟩

/-- A report changes what is known of reports only. -/
theorem report_eq (s : StreamStatistician) (nowMs : ℤ) :
    ∃ offset capped loss seqMax, (s.maybeAppendReportBlockAndReset nowMs).2 =
      { s with cumulativeLossRtcpOffset := offset, cumulativeLossIsCapped := capped
               lastReportCumulativeLoss := loss, lastReportSeqMax := seqMax } := by
  rw [maybeAppendReportBlockAndReset]
  split
  · exact ⟨_, _, _, _, rfl⟩
  split
  · exact ⟨_, _, _, _, rfl⟩
  obtain ⟨lost, offset, capped, heq⟩ := clampedLoss_eq s
  rw [heq]
  exact ⟨_, _, _, _, rfl⟩

theorem Sound.step {e : Event} (h : s.Sound) (hstep : step env s e = .ok s') : s'.Sound := by
  cases e with
  | packet packet nowMs => exact (h.counts (counts_of_updateCounters hstep)).1
  | report nowMs =>
    cases hstep
    obtain ⟨offset, capped, loss, seqMax, heq⟩ := report_eq s nowMs
    rw [heq]
    refine ⟨h.balanced, h.phase.imp (fun hfresh => ?_) fun hbegun => hbegun.of_same ⟨rfl, rfl, rfl, rfl⟩⟩
    exact ⟨hfresh.first_eq, hfresh.unwrapper, hfresh.spans, hfresh.outOfOrder, hfresh.received⟩
  | setMaxReorderingThreshold threshold =>
    cases hstep
    refine ⟨h.balanced, h.phase.imp (fun hfresh => ?_) fun hbegun => hbegun.of_same ⟨rfl, rfl, rfl, rfl⟩⟩
    exact ⟨hfresh.first_eq, hfresh.unwrapper, hfresh.spans, hfresh.outOfOrder, hfresh.received⟩
  | enableRetransmitDetection enable =>
    cases hstep
    refine ⟨h.balanced, h.phase.imp (fun hfresh => ?_) fun hbegun => hbegun.of_same ⟨rfl, rfl, rfl, rfl⟩⟩
    exact ⟨hfresh.first_eq, hfresh.unwrapper, hfresh.spans, hfresh.outOfOrder, hfresh.received⟩

theorem sound_create (ssrc : UInt32) (threshold : ℤ) : (create ssrc threshold).Sound :=
  ⟨rfl, .inl ⟨rfl, rfl, rfl, rfl, rfl⟩⟩

theorem Sound.run {es : List Event} (h : s.Sound) (hrun : run env s es = .ok s') : s'.Sound :=
  ExceptFolds.invariant_of_ok (I := Sound) (fun _ _ _ _ hstep hsound => hsound.step hstep) h hrun

end Steps

section Counting

theorem received_counts (h : Counts env s packet nowMs s') : s'.received = s.received + 1 := by
  have hcounted : (s.counted packet nowMs).received = s.received + 1 := by
    rw [received, counted, countPostponed_receiveCounters]
    rfl
  cases h with
  | first hnone =>
    rw [updateInOrder_eq]
    rfl
  | restart hsome hnext =>
    rw [updateInOrder_eq]
    exact hcounted
  | jump hsome hfar => exact hcounted
  | ahead hsome hnear hlt =>
    rw [updateInOrder_eq]
    exact hcounted
  | late hsome hnear hle retransmitted => exact hcounted

theorem received_step {e : Event} (hstep : step env s e = .ok s') :
    s'.received = s.received + UInt32.ofNat (packets [e]).length := by
  cases e with
  | packet packet nowMs => exact received_counts (counts_of_updateCounters hstep)
  | report nowMs =>
    cases hstep
    obtain ⟨offset, capped, loss, seqMax, heq⟩ := report_eq s nowMs
    rw [heq]
    exact (UInt32.add_zero _).symm
  | setMaxReorderingThreshold threshold =>
    cases hstep
    exact (UInt32.add_zero _).symm
  | enableRetransmitDetection enable =>
    cases hstep
    exact (UInt32.add_zero _).symm

theorem received_run {es : List Event} (hrun : run env s es = .ok s') :
    s'.received = s.received + UInt32.ofNat (packets es).length := by
  induction es generalizing s with
  | nil =>
    cases hrun
    exact (UInt32.add_zero _).symm
  | cons e es ih =>
    obtain ⟨t, hstep, hrest⟩ := ExceptFolds.foldlM_cons_eq_ok hrun
    have hsplit : packets (e :: es) = packets [e] ++ packets es := List.filterMap_append (l := [e])
    rw [ih hrest, received_step hstep, hsplit, List.length_append, UInt32.ofNat_add, UInt32.add_assoc]

/-- In every run the loss is the packets that the parts of the stream have less those that came, a
postponed one left out. -/
theorem cumulativeLoss_run {ssrc : UInt32} {threshold : ℤ} {es : List Event}
    (hrun : run env (create ssrc threshold) es = .ok s) :
    s.cumulativeLoss = toInt32 (expected s.spans - (packets es).length + s.postponed) ∧
      (∀ span ∈ s.spans, span.1 ≤ span.2) ∧
      (s.receivedRtpPacket = true → (s.spans.map Prod.fst).getLast? = some s.receivedSeqFirst ∧
        (s.spans.map Prod.snd).head? = some s.receivedSeqMax) := by
  have hsound := (sound_create ssrc threshold).run hrun
  have hreceived : s.received = 0 + UInt32.ofNat ((packets es).length) := received_run hrun
  rw [UInt32.zero_add] at hreceived
  refine ⟨?_, ?_, fun hsome => ?_⟩
  · rw [hsound.balanced, hreceived, UInt32.toNat_ofNat']
    exact toInt32_congr (by omega)
  · cases hsound.phase with
    | inl hfresh => simp [hfresh.spans]
    | inr hbegun => exact hbegun.ordered
  · have hbegun := hsound.begun hsome
    obtain ⟨first, rest, hhead⟩ := hbegun.head
    exact ⟨hbegun.oldest, by rw [hhead]; rfl⟩

/-- The environment of an example, with the deviation in whole numbers. -/
def closestEnvironment : ReceiveEnvironment :=
  { SequenceNumberUnwrapper.closest with deviationsMs := fun jitter khz => (Nat.sqrt (4 * jitter) / khz : ℕ) }

def arrival (sequenceNumber : UInt16) : Event := .packet { ssrc := 7, sequenceNumber } 0

/-- The stream is started again at 50000. -/
theorem cumulativeLoss_run_restarted :
    ∃ s, run closestEnvironment (create 7 5) ([100, 103, 50000, 50001].map arrival) = .ok s ∧
      s.cumulativeLoss = toInt32 (expected s.spans - 4 + s.postponed) ∧
      s.spans = [(50000, 50001), (100, 103)] ∧ s.cumulativeLoss = 2 := by
  obtain ⟨s, hrun, hspans, hloss⟩ : ∃ s, run closestEnvironment (create 7 5) ([100, 103, 50000, 50001].map arrival) = .ok s ∧
      s.spans = [(50000, 50001), (100, 103)] ∧ s.cumulativeLoss = 2 := ⟨_, rfl, rfl, rfl⟩
  exact ⟨s, hrun, (cumulativeLoss_run hrun).1, hspans, hloss⟩

end Counting

section Reordering
variable {threshold : ℤ} {first top : ℕ}

/-- No number is further from the highest one before it than the threshold. -/
def WithinReach (threshold : ℤ) : ℕ → List ℕ → Prop
  | _, [] => True
  | top, n :: ns => |(n : ℤ) - top| ≤ threshold ∧ WithinReach threshold (max top n) ns

/-- A stream that has not been restarted, and in which nothing jumped. -/
structure Straight (threshold : ℤ) (first top : ℕ) (s : StreamStatistician) : Prop where
  sound : s.Sound
  begun : s.Begun
  spans : s.spans = [((first : ℤ), (top : ℤ))]
  outOfOrder : s.receivedSeqOutOfOrder = none
  threshold_eq : s.maxReorderingThreshold = threshold

theorem Straight.max_eq (h : Straight threshold first top s) : s.receivedSeqMax = top := by
  obtain ⟨first', rest, hhead⟩ := h.begun.head
  rw [h.spans] at hhead
  exact (congrArg Prod.snd (List.cons.inj hhead).1).symm

/-- The number that is closest to the highest one is the number of the packet. -/
theorem Straight.extended_eq {n : ℕ} (h : Straight threshold first top s) (hthreshold : threshold < 32768)
    (hnear : |(n : ℤ) - top| ≤ threshold) (hseq : packet.sequenceNumber = UInt16.ofNat n) :
    s.extended env packet = n := by
  have htop : (0 : ℤ) ≤ top := Int.natCast_nonneg top
  have hmod := env.unwrap_mod top packet.sequenceNumber htop
  have hvalue : packet.sequenceNumber.toNat = n % 65536 := by
    rw [hseq]
    exact UInt16.toNat_ofNat'
  rw [abs_le] at hnear
  rw [extended, h.begun.unwrapper, h.max_eq]
  cases env.unwrap_near top packet.sequenceNumber htop <;> omega

theorem counted_outOfOrder (s : StreamStatistician) (packet : RtpPacketReceived) (nowMs : ℤ) :
    (s.counted packet nowMs).receivedSeqOutOfOrder = none := by
  rw [counted, countPostponed]
  split
  · rfl
  · rename_i hnone
    simpa using hnone

theorem counted_threshold (s : StreamStatistician) (packet : RtpPacketReceived) (nowMs : ℤ) :
    (s.counted packet nowMs).maxReorderingThreshold = s.maxReorderingThreshold := countPostponed_maxReorderingThreshold _

theorem Straight.counts {n : ℕ} (h : Straight threshold first top s) (hthreshold : threshold < 32768)
    (hnear : |(n : ℤ) - top| ≤ threshold) (hseq : packet.sequenceNumber = UInt16.ofNat n)
    (hcounts : Counts env s packet nowMs s') : Straight threshold first (max top n) s' := by
  obtain ⟨hsound, hbegun⟩ := h.sound.counts hcounts
  have heq : s.extended env packet = n := h.extended_eq hthreshold hnear hseq
  have hspans : (s.counted packet nowMs).spans = [((first : ℤ), (top : ℤ))] := (counted_same s packet nowMs).1.trans h.spans
  have hkept := (counted_threshold s packet nowMs).trans h.threshold_eq
  cases hcounts with
  | first hnone =>
    rw [h.begun.receivedRtpPacket] at hnone
    cases hnone
  | restart hsome hnext =>
    rw [h.outOfOrder] at hnext
    cases hnext
  | jump hsome hfar =>
    rw [heq, h.max_eq, h.threshold_eq] at hfar
    exact absurd hnear (not_le.mpr hfar)
  | ahead hsome hnear' hlt =>
    rw [heq, h.max_eq] at hlt
    have hmax : max top n = n := max_eq_right (by omega)
    refine ⟨hsound, hbegun, ?_, ?_, ?_⟩
    · rw [updateInOrder_eq, hmax]
      dsimp only
      rw [hspans, heq]
      rfl
    · rw [updateInOrder_eq]
      exact counted_outOfOrder s packet nowMs
    · rw [updateInOrder_eq]
      exact hkept
  | late hsome hnear' hle retransmitted =>
    rw [heq, h.max_eq] at hle
    have hmax : max top n = top := max_eq_left (by omega)
    rw [hmax]
    exact ⟨hsound, hbegun, hspans, counted_outOfOrder s packet nowMs, hkept⟩

/-- The first packet of a stream. -/
theorem straight_first {n : ℕ} (hsound : s.Sound) (hfresh : s.Fresh) (hn : n < 65536)
    (hthreshold : s.maxReorderingThreshold = threshold) (hseq : packet.sequenceNumber = UInt16.ofNat n)
    (hcounts : Counts env s packet nowMs s') : Straight threshold n n s' := by
  obtain ⟨hsound', hbegun'⟩ := hsound.counts hcounts
  have hnone := hfresh.receivedRtpPacket
  have heq : s.extended env packet = n := by
    rw [extended, hfresh.unwrapper, env.unwrap_first, hseq, UInt16.toNat_ofNat']
    omega
  cases hcounts with
  | first hnone =>
    refine ⟨hsound', hbegun', ?_, ?_, ?_⟩
    · rw [updateInOrder_eq, heq]
      rfl
    · rw [updateInOrder_eq]
      exact hfresh.outOfOrder
    · rw [updateInOrder_eq]
      exact hthreshold
  | restart hsome | jump hsome | ahead hsome | late hsome =>
    rw [hnone] at hsome
    cases hsome

/-- The threshold is set when the stream begins. -/
def Event.keepsThreshold : Event → Bool
  | .setMaxReorderingThreshold _ => false
  | _ => true

theorem Straight.of_other {e : Event} (h : Straight threshold first top s) (hother : packets [e] = [])
    (hkeeps : e.keepsThreshold) (hstep : step env s e = .ok s') : Straight threshold first top s' := by
  have hsound := h.sound.step hstep
  cases e with
  | packet packet nowMs => cases hother
  | report nowMs =>
    cases hstep
    obtain ⟨offset, capped, loss, seqMax, heq⟩ := report_eq s nowMs
    rw [heq] at hsound ⊢
    exact ⟨hsound, h.begun.of_same ⟨rfl, rfl, rfl, rfl⟩, h.spans, h.outOfOrder, h.threshold_eq⟩
  | setMaxReorderingThreshold threshold => cases hkeeps
  | enableRetransmitDetection enable =>
    cases hstep
    exact ⟨hsound, h.begun.of_same ⟨rfl, rfl, rfl, rfl⟩, h.spans, h.outOfOrder, h.threshold_eq⟩

theorem Straight.run {es : List Event} {ns : List ℕ} (h : Straight threshold first top s) (hthreshold : threshold < 32768)
    (hreach : WithinReach threshold top ns) (hkeeps : ∀ e ∈ es, e.keepsThreshold)
    (hseq : (packets es).map RtpPacketReceived.sequenceNumber = ns.map UInt16.ofNat) (hrun : run env s es = .ok s') :
    Straight threshold first (ns.foldl max top) s' := by
  induction es generalizing s top ns with
  | nil =>
    cases hrun
    obtain rfl : ns = [] := List.map_eq_nil_iff.mp hseq.symm
    exact h
  | cons e es ih =>
    obtain ⟨t, hstep, hrest⟩ := ExceptFolds.foldlM_cons_eq_ok hrun
    have hkeeps' : ∀ e' ∈ es, e'.keepsThreshold := fun e' he' => hkeeps e' (List.mem_cons_of_mem e he')
    cases e with
    | packet packet nowMs =>
      cases ns with
      | nil => cases hseq
      | cons n ns =>
        obtain ⟨hfirst, hseq'⟩ := List.cons.inj hseq
        have hnext := h.counts hthreshold hreach.1 hfirst (counts_of_updateCounters hstep)
        have hlater : Straight threshold first (ns.foldl max (max top n)) s' := ih hnext hreach.2 hkeeps' hseq' hrest
        exact hlater
    | report nowMs => exact ih (h.of_other rfl rfl hstep) hreach hkeeps' hseq hrest
    | setMaxReorderingThreshold threshold => cases hkeeps _ List.mem_cons_self
    | enableRetransmitDetection enable => exact ih (h.of_other rfl rfl hstep) hreach hkeeps' hseq hrest

theorem straight_run {es : List Event} {n : ℕ} {ns : List ℕ} (hsound : s.Sound) (hfresh : s.Fresh)
    (hinit : s.maxReorderingThreshold = threshold) (hthreshold : threshold < 32768)
    (hkeeps : ∀ e ∈ es, e.keepsThreshold) (hn : n < 65536) (hreach : WithinReach threshold n ns)
    (hseq : (packets es).map RtpPacketReceived.sequenceNumber = (n :: ns).map UInt16.ofNat)
    (hrun : run env s es = .ok s') : Straight threshold n (ns.foldl max n) s' := by
  induction es generalizing s with
  | nil => cases hseq
  | cons e es ih =>
    obtain ⟨t, hstep, hrest⟩ := ExceptFolds.foldlM_cons_eq_ok hrun
    have hkeeps' : ∀ e' ∈ es, e'.keepsThreshold := fun e' he' => hkeeps e' (List.mem_cons_of_mem e he')
    cases e with
    | packet packet nowMs =>
      obtain ⟨hfirst, hseq'⟩ := List.cons.inj hseq
      have hbegin := straight_first hsound hfresh hn hinit hfirst (counts_of_updateCounters hstep)
      exact hbegin.run hthreshold hreach hkeeps' hseq' hrest
    | report nowMs =>
      have hsound' := hsound.step hstep
      cases hstep
      obtain ⟨offset, capped, loss, seqMax, heq⟩ := report_eq s nowMs
      rw [heq] at hsound' hrest
      obtain ⟨hfirst, hunwrapper, hspans, hout, hreceived⟩ := hfresh
      exact ih hsound' ⟨hfirst, hunwrapper, hspans, hout, hreceived⟩ hinit hkeeps' hseq hrest
    | setMaxReorderingThreshold threshold => cases hkeeps _ List.mem_cons_self
    | enableRetransmitDetection enable =>
      have hsound' := hsound.step hstep
      cases hstep
      obtain ⟨hfirst, hunwrapper, hspans, hout, hreceived⟩ := hfresh
      exact ih hsound' ⟨hfirst, hunwrapper, hspans, hout, hreceived⟩ hinit hkeeps' hseq hrest

theorem le_foldl_max (ns : List ℕ) (top : ℕ) : top ≤ ns.foldl max top ∧ ∀ n ∈ ns, n ≤ ns.foldl max top := by
  induction ns generalizing top with
  | nil => exact ⟨le_rfl, by simp⟩
  | cons n ns ih =>
    obtain ⟨hmax, hall⟩ := ih (max top n)
    refine ⟨(le_max_left _ _).trans hmax, fun m hm => ?_⟩
    cases List.mem_cons.mp hm with
    | inl heq =>
      rw [heq]
      exact (le_max_right top n).trans hmax
    | inr hmem => exact hall m hmem

/-- The numbers of an interval that are not in a list without duplicates are as many as it has more. -/
theorem card_missing {ns : List ℕ} {first last : ℕ} (hnodup : ns.Nodup) (hns : ∀ n ∈ ns, first ≤ n ∧ n ≤ last) :
    ((Finset.Icc first last).filter (· ∉ ns)).card + ns.length = last + 1 - first := by
  have hsub : ns.toFinset ⊆ Finset.Icc first last := fun n hn => Finset.mem_Icc.mpr (hns n (List.mem_toFinset.mp hn))
  have hfilter : (Finset.Icc first last).filter (· ∉ ns) = Finset.Icc first last \ ns.toFinset := by
    ext n
    simp
  rw [hfilter, ← List.toFinset_card_of_nodup hnodup, Finset.card_sdiff_add_card_eq_card hsub, Nat.card_Icc]

/-- Packets come out of order and are lost, and their 16 bits wrap. While none comes twice, and none is
from before the first one or further from the highest one than the threshold, the loss is the number
of those between the first and the highest one that have not come. -/
theorem cumulativeLoss_missing {ssrc : UInt32} {es : List Event} {n : ℕ} {ns : List ℕ} (hthreshold : threshold < 32768)
    (hkeeps : ∀ e ∈ es, e.keepsThreshold) (hn : n < 65536) (hreach : WithinReach threshold n ns)
    (hseq : (packets es).map RtpPacketReceived.sequenceNumber = (n :: ns).map UInt16.ofNat)
    (hrun : run env (create ssrc threshold) es = .ok s) :
    s.receivedSeqMax = ns.foldl max n ∧
      s.cumulativeLoss = toInt32 (((ns.foldl max n : ℕ) : ℤ) - n + 1 - (n :: ns).length) ∧
      ((n :: ns).Nodup → (∀ m ∈ ns, n ≤ m) → ns.foldl max n < n + 2^31 - 1 →
        s.cumulativeLoss = ((Finset.Icc n (ns.foldl max n)).filter (· ∉ n :: ns)).card) := by
  have hstraight := straight_run (sound_create ssrc threshold) ⟨rfl, rfl, rfl, rfl, rfl⟩ rfl hthreshold hkeeps hn
    hreach hseq hrun
  have hlength : (packets es).length = (n :: ns).length := by
    rw [← List.length_map (f := RtpPacketReceived.sequenceNumber), hseq, List.length_map]
  have hloss := (cumulativeLoss_run hrun).1
  have hpostponed : s.postponed = 0 := by
    rw [postponed, hstraight.outOfOrder]
    rfl
  have hexpected : expected s.spans = ((ns.foldl max n : ℕ) : ℤ) - n + 1 := by
    rw [hstraight.spans, expected_cons]
    exact add_zero _
  rw [hexpected, hlength, hpostponed, add_zero] at hloss
  refine ⟨hstraight.max_eq, hloss, fun hnodup hfirst hsmall => ?_⟩
  obtain ⟨hle, hall⟩ := le_foldl_max ns n
  have hcard : ((Finset.Icc n (ns.foldl max n)).filter (· ∉ n :: ns)).card + (n :: ns).length = ns.foldl max n + 1 - n := by
    refine card_missing hnodup fun m hm => ?_
    cases List.mem_cons.mp hm with
    | inl heq => exact ⟨heq.ge, heq ▸ hle⟩
    | inr hmem => exact ⟨hfirst m hmem, hall m hmem⟩
  rw [hloss, toInt32_eq_self] <;> omega

/-- Of the four packets from 65534 on, the third one is lost, and the second one is late. -/
theorem cumulativeLoss_missing_wrapped :
    ∃ s, run closestEnvironment (create 7 5) ([65534, 1, 65535].map arrival) = .ok s ∧
      s.cumulativeLoss = ((Finset.Icc 65534 65537).filter (· ∉ [65534, 65537, 65535])).card := by
  obtain ⟨s, hrun⟩ : ∃ s, run closestEnvironment (create 7 5) ([65534, 1, 65535].map arrival) = .ok s := ⟨_, rfl⟩
  have hkeeps : ∀ e ∈ [65534, 1, 65535].map arrival, e.keepsThreshold := by
    rintro e he
    obtain ⟨n, -, rfl⟩ := List.mem_map.mp he
    rfl
  have hreach : WithinReach 5 65534 [65537, 65535] := ⟨by decide, by decide, trivial⟩
  exact ⟨s, hrun, (cumulativeLoss_missing (by decide) hkeeps (by decide) hreach rfl hrun).2.2 (by decide) (by decide) (by decide)⟩

end Reordering

end StreamStatistician
end Rtp
end XrtcServer
