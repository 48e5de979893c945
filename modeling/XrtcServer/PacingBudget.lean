import XrtcServer.PacingThroughput
import XrtcServer.QueueTimes

/-! The budget that a call of the pacer sets by its target rate. The rate in kilobits and the
bytes of half a second are computed in `int`; a large and old queue asks for more. -/
namespace XrtcServer
namespace Pacing
open RoundRobinPacketQueue (Consistent)

namespace IntervalBudget
variable {b : IntervalBudget}

/-- The rest is within the largest budget on both sides. -/
structure Bounded (b : IntervalBudget) : Prop where
  nonneg : 0 ≤ b.maxBytesInBudget
  debt : -b.maxBytesInBudget ≤ b.remaining
  rest : b.remaining ≤ b.maxBytesInBudget

theorem remaining_increaseBudget_le (b : IntervalBudget) (elapsedTime : ℤ) :
    (b.increaseBudget elapsedTime).remaining ≤ b.maxBytesInBudget := by
  unfold IntervalBudget.increaseBudget
  split
  · exact min_le_right _ _
  · exact min_le_right _ _

theorem bounded_setTargetBitrateKbps {target : ℤ}
    (h : 0 ≤ (b.setTargetBitrateKbps target).maxBytesInBudget) :
    (b.setTargetBitrateKbps target).Bounded where
  nonneg := h
  debt := by
    rw [remaining_setTargetBitrateKbps]
    exact le_min (le_max_left _ _) (by omega)
  rest := by
    rw [remaining_setTargetBitrateKbps]
    exact min_le_right _ _

theorem Bounded.increaseBudget (h : b.Bounded) {elapsedTime : ℤ}
    (hbytes : 0 ≤ (elapsedTime * b.targetBitrateKbps).tdiv 8) :
    (b.increaseBudget elapsedTime).Bounded := by
  have hneg := neg_nonpos.mpr h.nonneg
  refine ⟨?_, ?_, ?_⟩
  · rw [maxBytesInBudget_increaseBudget]
    exact h.nonneg
  · rw [maxBytesInBudget_increaseBudget]
    exact le_remaining_increaseBudget hneg h.debt hbytes (hneg.trans h.nonneg)
  · rw [maxBytesInBudget_increaseBudget]
    exact b.remaining_increaseBudget_le elapsedTime

theorem Bounded.useBudget (h : b.Bounded) (bytes : ℕ) : (b.useBudget bytes).Bounded where
  nonneg := h.nonneg
  debt := le_max_right _ _
  rest := by
    have hused := sub_le_self b.remaining (Int.natCast_nonneg bytes)
    exact max_le (hused.trans h.rest) ((neg_nonpos.mpr h.nonneg).trans h.nonneg)

/-- No largest budget is larger than an `int` allows. -/
theorem maxBytesInBudget_setTargetBitrateKbps_lt (b : IntervalBudget) (target : ℤ) :
    (b.setTargetBitrateKbps target).maxBytesInBudget < 268435456 := by
  have hint : toInt (target * kWindowMs) < 2147483648 := by
    unfold toInt
    rw [Int.bmod_def]
    omega
  show (toInt (target * kWindowMs)).tdiv 8 < _
  rcases le_total 0 (toInt (target * kWindowMs)) with h | h
  · rw [Int.tdiv_eq_ediv_of_nonneg h]
    omega
  · have hbytes := PacingController.tdiv_eight_le (toInt (target * kWindowMs))
    omega

end IntervalBudget

namespace PacingController
variable {c : PacingController} {now : ℤ}

/-- What the call set by its target rate and what it leaves: the bytes of half a second, a rest
within them, and a packet sent after a millisecond at 8 kbps if no debt is left. -/
structure BudgetOfRate (c : PacingController) (now : ℤ) : Prop where
  largest : (c.targetBudget now).maxBytesInBudget = kbps (c.targetRateAt now) * kWindowMs / 8
  target : (c.targetBudget now).Bounded
  kept : (c.processPackets now).mediaBudget.Bounded
  sends : c.packetQueue.Consistent → c.packetQueue.empty = false →
    1000 ≤ now - c.lastProcessTime → 8 ≤ kbps (c.targetRateAt now) →
      (0 ≤ c.mediaBudget.remaining ∨ -c.mediaBudget.remaining <
        ms (paidTime c.lastProcessTime now) * kbps (c.targetRateAt now) / 8) →
        c.sent.length < (c.processPackets now).sent.length

/-- How long the packets in the queue have waited on average. -/
def meanWait (q : RoundRobinPacketQueue) (now : ℤ) : ℤ :=
  (q.queueTimeSum + (now - q.lastTimeUpdated) * q.sizePackets) / q.sizePackets

/-- Neither the pacing rate nor the rate that drains the queue is above 4294967.5 kbps. -/
structure Moderate (c : PacingController) (now : ℤ) : Prop where
  pacingBitrate : c.pacingBitrate < 4294967500
  queue : c.drainLargeQueue = true →
    c.packetQueue.size * 8000000 <
      4294967500 * max 1000 (c.queueTimeLimit - meanWait c.packetQueue now)

theorem averageQueueTime_updateQueueTime (q : RoundRobinPacketQueue) (now : ℤ) :
    (q.updateQueueTime now).averageQueueTime = meanWait q now := by
  unfold RoundRobinPacketQueue.averageQueueTime meanWait RoundRobinPacketQueue.empty
  rw [RoundRobinPacketQueue.sizePackets_updateQueueTime,
    RoundRobinPacketQueue.queueTimeSum_updateQueueTime]
  split
  · rename_i h
    rw [of_decide_eq_true h, Nat.cast_zero, Int.ediv_zero]
  · rfl

theorem size_updateQueueTime (q : RoundRobinPacketQueue) (now : ℤ) :
    (q.updateQueueTime now).size = q.size := by
  unfold RoundRobinPacketQueue.updateQueueTime
  split <;> rfl

theorem fits_iff (rate : ℕ) : kbps rate * kWindowMs < 2147483648 ↔ rate < 4294967500 := by
  unfold kbps kWindowMs
  omega

/-- The target rate is moderate exactly if both of its rates are. -/
theorem targetRateAt_lt_iff : c.targetRateAt now < 4294967500 ↔ c.Moderate now := by
  have hneed : { c with
      packetQueue := c.packetQueue.updateQueueTime now, lastProcessTime := now }.minRateNeed <
        4294967500 ↔ c.packetQueue.size * 8000000 <
          4294967500 * max 1000 (c.queueTimeLimit - meanWait c.packetQueue now) := by
    unfold minRateNeed
    dsimp only
    rw [size_updateQueueTime, averageQueueTime_updateQueueTime, Nat.div_lt_iff_lt_mul (by omega)]
    omega
  unfold targetRateAt targetRate
  rw [size_updateQueueTime]
  constructor
  · intro h
    split at h
    · obtain ⟨hrate, hqueue⟩ := max_lt_iff.mp h
      exact ⟨hrate, fun _ => hneed.mp hqueue⟩
    · rename_i hs
      refine ⟨h, fun hd => ?_⟩
      have hsize : c.packetQueue.size = 0 := by
        by_contra hne
        exact hs ⟨Nat.pos_of_ne_zero hne, hd⟩
      rw [hsize]
      omega
  · intro h
    split
    · rename_i hs
      exact max_lt h.pacingBitrate (hneed.mpr (h.queue hs.2))
    · exact h.pacingBitrate

theorem maxBytesInBudget_targetBudget (c : PacingController) (now : ℤ) :
    (c.targetBudget now).maxBytesInBudget =
      (toInt (toInt (kbps (c.targetRateAt now)) * kWindowMs)).tdiv 8 := by
  unfold targetBudget IntervalBudget.setTargetBitrateKbps
  dsimp only

theorem bounded_sendPackets (h : c.mediaBudget.Bounded) (now : ℤ) (rounds : ℕ) :
    (c.sendPackets now rounds).mediaBudget.Bounded := by
  induction rounds generalizing c with
  | zero => exact h
  | succ rounds ih =>
    unfold sendPackets
    split
    · exact h
    · exact ih (h.useBudget _)

theorem length_sent_sendPackets (c : PacingController) (now : ℤ) (rounds : ℕ) :
    c.sent.length ≤ (c.sendPackets now rounds).sent.length := by
  induction rounds generalizing c with
  | zero => exact le_rfl
  | succ rounds ih =>
    unfold sendPackets
    split
    · exact le_rfl
    · refine le_trans ?_ (ih _)
      simp [onPacketSent]

/-- With something left of the budget the loop sends the next packet. -/
theorem sendPackets_sends (hq : c.packetQueue.Consistent) (hne : c.packetQueue.empty = false)
    (hpos : 0 < c.mediaBudget.remaining) (now : ℤ) :
    c.sent.length < (c.sendPackets now c.packetQueue.sizePackets).sent.length := by
  have hsize : c.packetQueue.sizePackets ≠ 0 := of_decide_eq_false hne
  have hqueued : c.packetQueue.queued ≠ [] := by
    intro hnil
    rw [hq.sizePackets, hnil] at hsize
    exact hsize rfl
  obtain ⟨packet, packetQueue, hpop, -⟩ := hq.pop hqueued
  have hpending : c.getPendingPacket = some (packet, packetQueue) := by
    unfold getPendingPacket IntervalBudget.bytesRemaining
    rw [if_neg (by rw [hne]; exact Bool.false_ne_true), if_neg (by omega), hpop]
  obtain ⟨rounds, hrounds⟩ := Nat.exists_eq_succ_of_ne_zero hsize
  rw [hrounds, sendPackets, hpending]
  refine lt_of_lt_of_le ?_ (length_sent_sendPackets _ _ _)
  simp [onPacketSent]

theorem sendPackets_of_remaining_le (h : c.mediaBudget.remaining ≤ 0) (now : ℤ) (rounds : ℕ) :
    c.sendPackets now rounds = c := by
  have hnone : c.getPendingPacket = none := by
    unfold getPendingPacket IntervalBudget.bytesRemaining
    rw [if_pos (show (max 0 c.mediaBudget.remaining).toNat ≤ 0 by omega), ite_self]
  cases rounds with
  | zero => rfl
  | succ rounds => rw [sendPackets, hnone]

section Moderate

theorem Moderate.fits (h : c.Moderate now) :
    kbps (c.targetRateAt now) * kWindowMs < 2147483648 :=
  (fits_iff _).mpr (targetRateAt_lt_iff.mpr h)

theorem Moderate.maxBytesInBudget (h : c.Moderate now) :
    (c.targetBudget now).maxBytesInBudget = kbps (c.targetRateAt now) * kWindowMs / 8 := by
  unfold targetBudget
  rw [toInt_of_fits h.fits,
    IntervalBudget.maxBytesInBudget_setTargetBitrateKbps _ (Int.natCast_nonneg _) h.fits]

theorem Moderate.bounded (h : c.Moderate now) : (c.targetBudget now).Bounded := by
  refine IntervalBudget.bounded_setTargetBitrateKbps ?_
  show 0 ≤ (c.targetBudget now).maxBytesInBudget
  rw [h.maxBytesInBudget]
  unfold kWindowMs
  omega

/-- The bytes that the call adds. -/
theorem Moderate.bytes (h : c.Moderate now) (hlt : c.lastProcessTime < now) :
    (ms (paidTime c.lastProcessTime now) * (c.targetBudget now).targetBitrateKbps).tdiv 8 =
      ms (paidTime c.lastProcessTime now) * kbps (c.targetRateAt now) / 8 := by
  unfold targetBudget
  rw [IntervalBudget.targetBitrateKbps_setTargetBitrateKbps, toInt_of_fits h.fits,
    Int.tdiv_eq_ediv_of_nonneg]
  exact mul_nonneg (ms_nonneg (paidTime_nonneg hlt.le)) (Int.natCast_nonneg _)

theorem Moderate.kept (h : c.Moderate now) (hlt : c.lastProcessTime < now) :
    (c.processPackets now).mediaBudget.Bounded := by
  have hproduct := mul_nonneg (ms_nonneg (paidTime_nonneg hlt.le))
    (Int.natCast_nonneg (kbps (c.targetRateAt now)))
  have hbounded : ((c.targetBudget now).increaseBudget
      (ms (paidTime c.lastProcessTime now))).Bounded :=
    h.bounded.increaseBudget (by rw [h.bytes hlt]; omega)
  unfold processPackets
  refine bounded_sendPackets ?_ _ _
  rw [updateBudget_after hlt]
  dsimp only
  exact hbounded

/-- A millisecond at 8 kbps pays for a byte, and no call for more than half a second. -/
theorem bytes_between (h : 1000 ≤ now - c.lastProcessTime) {rate : ℕ} (hrate : 8 ≤ rate) :
    1 ≤ ms (paidTime c.lastProcessTime now) * rate / 8 ∧
      ms (paidTime c.lastProcessTime now) * rate / 8 ≤ rate * kWindowMs / 8 := by
  have hpaid : 1000 ≤ paidTime c.lastProcessTime now := le_min h (by decide)
  have hlow : (1 : ℤ) ≤ ms (paidTime c.lastProcessTime now) := ms_mono (by decide) hpaid
  have hhigh : ms (paidTime c.lastProcessTime now) ≤ 30 :=
    ms_mono (le_trans (by decide) hpaid) (min_le_right _ _)
  have h₁ := mul_le_mul_of_nonneg_right hlow (Int.natCast_nonneg rate)
  have h₂ := mul_le_mul_of_nonneg_right hhigh (Int.natCast_nonneg rate)
  unfold kWindowMs
  omega

theorem Moderate.sends (h : c.Moderate now) (hq : c.packetQueue.Consistent)
    (hne : c.packetQueue.empty = false) (helapsed : 1000 ≤ now - c.lastProcessTime)
    (hrate : 8 ≤ kbps (c.targetRateAt now))
    (hdebt : 0 ≤ c.mediaBudget.remaining ∨ -c.mediaBudget.remaining <
      ms (paidTime c.lastProcessTime now) * kbps (c.targetRateAt now) / 8) :
    c.sent.length < (c.processPackets now).sent.length := by
  have hlt : c.lastProcessTime < now := by omega
  obtain ⟨hone, hmost⟩ := bytes_between helapsed hrate
  have htarget : (c.targetBudget now).targetBitrateKbps = toInt (kbps (c.targetRateAt now)) := by
    unfold targetBudget
    exact IntervalBudget.targetBitrateKbps_setTargetBitrateKbps _ _
  have hbytes := h.bytes hlt
  rw [htarget] at hbytes
  rw [← h.maxBytesInBudget, ← hbytes] at hmost
  rw [← hbytes] at hone hdebt
  have hnonneg := h.bounded.nonneg
  have hpaid := IntervalBudget.min_add_le_remaining_increaseBudget hnonneg
    ((neg_le_neg hmost).trans (by omega)) hmost
  have hpos : 0 < ((c.targetBudget now).increaseBudget
      (ms (paidTime c.lastProcessTime now))).remaining :=
    lt_of_lt_of_le (by omega) hpaid
  have hupdate := updateBudget_after hlt
  have hqueue : (c.updateBudget now).packetQueue = c.packetQueue.updateQueueTime now := by rw [hupdate]
  have hsent : (c.updateBudget now).sent = c.sent := by rw [hupdate]
  have hbudget : (c.updateBudget now).mediaBudget =
      (c.targetBudget now).increaseBudget (ms (paidTime c.lastProcessTime now)) := by rw [hupdate]
  rw [← hbudget] at hpos
  have hsends := sendPackets_sends (by rw [hqueue]; exact hq.updateQueueTime now)
    (by rw [hqueue]; simpa [RoundRobinPacketQueue.empty] using hne) hpos now
  rw [hsent] at hsends
  exact hsends

end Moderate

/-- Both rates are moderate where the budget follows the target rate. -/
theorem BudgetOfRate.moderate (h : c.BudgetOfRate now) : c.Moderate now := by
  rw [← targetRateAt_lt_iff, ← fits_iff]
  have hlargest := h.largest
  have hint := c.mediaBudget.maxBytesInBudget_setTargetBitrateKbps_lt
    (toInt (kbps (c.targetRateAt now)))
  change (c.targetBudget now).maxBytesInBudget < _ at hint
  omega

/-- The budget follows the target rate as long as both rates are moderate, and only so long. -/
theorem budgetOfRate_iff (h : c.lastProcessTime < now) : c.BudgetOfRate now ↔ c.Moderate now :=
  ⟨fun hb => hb.moderate, fun hm => ⟨hm.maxBytesInBudget, hm.bounded, hm.kept h, hm.sends⟩⟩

/-- At 800 kbps after a millisecond. -/
theorem budgetOfRate_moderate :
    ((start 0).setPacingBitrate 800000).BudgetOfRate 1000 ↔
      ((start 0).setPacingBitrate 800000).Moderate 1000 :=
  budgetOfRate_iff (by decide)

/-- Where the largest budget came out as nothing or less, nothing is sent. -/
theorem sent_processPackets_of_nonpos (h : c.lastProcessTime < now)
    (hmax : (c.targetBudget now).maxBytesInBudget ≤ 0) : (c.processPackets now).sent = c.sent := by
  have hupdate := updateBudget_after h
  have hbudget : (c.updateBudget now).mediaBudget =
      (c.targetBudget now).increaseBudget (ms (paidTime c.lastProcessTime now)) := by rw [hupdate]
  have hremaining : (c.updateBudget now).mediaBudget.remaining ≤ 0 := by
    rw [hbudget]
    exact ((c.targetBudget now).remaining_increaseBudget_le _).trans hmax
  unfold processPackets
  rw [sendPackets_of_remaining_le hremaining, hupdate]

/-- Packets of 1200 bytes that come at once. -/
def burst (packets : ℕ) : PacingController :=
  Runs.run step ((start 0).setPacingBitrate 800000)
    (List.replicate packets (.enqueuePacket 0 .kVideo ⟨1, 1200, 0⟩))

/-- All that the pacer looks at in a burst. -/
structure Burst (c : PacingController) (packets : ℕ) : Prop where
  size : c.packetQueue.size = packets * 1200
  sizePackets : c.packetQueue.sizePackets = packets
  queueTimeSum : c.packetQueue.queueTimeSum = 0
  lastTimeUpdated : c.packetQueue.lastTimeUpdated = 0
  lastProcessTime : c.lastProcessTime = 0
  pacingBitrate : c.pacingBitrate = 800000
  drains : c.drainLargeQueue = true
  queueTimeLimit : c.queueTimeLimit = 2000000
  sent : c.sent = []

theorem Burst.enqueuePacket {packets : ℕ} (h : c.Burst packets) :
    (c.enqueuePacket 0 .kVideo ⟨1, 1200, 0⟩).Burst (packets + 1) := by
  obtain ⟨hsum, htime⟩ := RoundRobinPacketQueue.times_push c.packetQueue
    ⟨getPriorityForType .kVideo, 0, c.packetCounter, ⟨1, 1200, 0⟩⟩
  rw [RoundRobinPacketQueue.queueTimeSum_updateQueueTime, h.queueTimeSum, h.lastTimeUpdated] at hsum
  refine ⟨?_, ?_, hsum.trans (by simp), htime, h.lastProcessTime, h.pacingBitrate, h.drains,
    h.queueTimeLimit, h.sent⟩
  · rw [PacingController.enqueuePacket, RoundRobinPacketQueue.size_push, h.size, Nat.add_mul]
    rfl
  · rw [PacingController.enqueuePacket, RoundRobinPacketQueue.sizePackets_push, h.sizePackets]

theorem burst_burst (packets : ℕ) : (burst packets).Burst packets := by
  induction packets with
  | zero => exact ⟨rfl, rfl, rfl, rfl, rfl, rfl, rfl, rfl, rfl⟩
  | succ packets ih =>
    unfold burst
    rw [List.replicate_succ', Runs.run_append]
    exact ih.enqueuePacket

/-- What a burst asks for when it has waited for two seconds. -/
theorem Burst.targetRateAt {packets : ℕ} (h : c.Burst packets) (hp : 100 < packets) :
    c.targetRateAt 2000000 = packets * 9600000 := by
  have hwait : meanWait c.packetQueue 2000000 = 2000000 := by
    unfold meanWait
    rw [h.queueTimeSum, h.lastTimeUpdated, h.sizePackets, zero_add, sub_zero,
      Int.mul_ediv_cancel _ (by omega)]
  unfold PacingController.targetRateAt targetRate minRateNeed
  dsimp only
  rw [averageQueueTime_updateQueueTime, size_updateQueueTime, hwait, h.size, h.queueTimeLimit,
    h.pacingBitrate, h.drains, if_pos ⟨by omega, rfl⟩]
  show max 800000 (packets * 1200 * 8000000 / 1000) = _
  omega

/-- 450 packets that have waited for two seconds: nothing is sent. -/
theorem oldBurst_stalls :
    ¬(burst 450).BudgetOfRate 2000000 ∧ ((burst 450).processPackets 2000000).sent = [] := by
  have h := burst_burst 450
  have hrate : (burst 450).targetRateAt 2000000 = 4320000000 := h.targetRateAt (by decide)
  have hlt : (burst 450).lastProcessTime < 2000000 := by
    rw [h.lastProcessTime]
    decide
  refine ⟨fun hb => absurd (targetRateAt_lt_iff.mpr hb.moderate) (by rw [hrate]; decide), ?_⟩
  rw [sent_processPackets_of_nonpos hlt, h.sent]
  rw [maxBytesInBudget_targetBudget, hrate]
  decide

end PacingController
end Pacing
end XrtcServer
