import XrtcServer.PacingController
import Mathlib.Algebra.Order.Group.MinMax
import Mathlib.Tactic.Linarith

/-! What the pacer sends in a run against what the rates and the times allow. Amounts are
compared in millionths of a bit, which is rate times microseconds. -/
namespace XrtcServer
namespace Pacing
open RoundRobinPacketQueue (mem_queued_push pop_spec)

/-- The clock that a call reads. -/
def Call.now? : Call → Option ℤ
  | .enqueuePacket now _ _ | .processPackets now => some now
  | .setPacingBitrate _ | .setQueueTimeLimit _ => none

/-- The clock never goes back. -/
def InOrder (startTime : ℤ) (calls : List Call) : Prop :=
  (startTime :: calls.filterMap Call.now?).Pairwise (· ≤ ·)

theorem InOrder.enqueuePacket {t now : ℤ} {packetType : RtpPacketMediaType}
    {packet : RtpPacketToSend} {calls : List Call}
    (h : InOrder t (.enqueuePacket now packetType packet :: calls)) : InOrder t calls :=
  h.sublist (List.Sublist.cons_cons _ (List.sublist_cons_self now _))

theorem InOrder.processPackets {t now : ℤ} {calls : List Call}
    (h : InOrder t (.processPackets now :: calls)) : t ≤ now ∧ InOrder now calls := by
  obtain ⟨hle, hrest⟩ := List.pairwise_cons.mp h
  exact ⟨hle now List.mem_cons_self, hrest⟩

/-- The largest of the packets that are enqueued. -/
def largestPacket : List Call → ℕ
  | [] => 0
  | .enqueuePacket _ _ packet :: calls =>
    max (packet.payloadSize + packet.paddingSize) (largestPacket calls)
  | _ :: calls => largestPacket calls

/-- A byte in millionths of a bit. -/
def byte : ℤ := 8000000

namespace PacingController

def sentBytes (c : PacingController) : ℕ := (c.sent.map QueuedPacket.packetSize).sum

/-- The larger of the pacing rate and the rate that drains the queue at that time. -/
def rateAt (c : PacingController) (now : ℤ) : ℕ :=
  max c.pacingBitrate { c with packetQueue := c.packetQueue.updateQueueTime now }.minRateNeed

/-- The time that a call pays for. -/
def paidTime (last now : ℤ) : ℤ := min (now - last) kMaxProcessingInterval

theorem paidTime_nonneg {last now : ℤ} (h : last ≤ now) : 0 ≤ paidTime last now :=
  le_min (sub_nonneg.mpr h) (by decide)

/-- What the calls to process packets allow to send, each by its rate and the time since the
one before. -/
def due : ℤ → PacingController → List Call → ℤ
  | _, _, [] => 0
  | last, c, .processPackets now :: calls =>
    c.rateAt now * paidTime last now + due now (c.processPackets now) calls
  | last, c, call :: calls => due last (c.step call) calls

/-- The target rate of the call gives a budget for any packet. -/
def Fits (largest : ℕ) (c : PacingController) : Call → Prop
  | .processPackets now => c.lastProcessTime < now →
    largest ≤ (c.mediaBudget.setTargetBitrateKbps (toInt (kbps (c.rateAt now)))).maxBytesInBudget
  | _ => True

/-- The rate in whole kilobits and the time in whole milliseconds are not more than they
are. -/
def NotRoundedUp (c : PacingController) : Call → Prop
  | .processPackets now => c.lastProcessTime < now →
    kbps (c.rateAt now) * ms (paidTime c.lastProcessTime now) * 1000000 ≤
      c.rateAt now * paidTime c.lastProcessTime now
  | _ => True

section Budget
variable {c : PacingController} {now : ℤ}

theorem targetRate_updateQueueTime (h : c.drainLargeQueue = true) (now : ℤ) :
    { c with
      packetQueue := c.packetQueue.updateQueueTime now, lastProcessTime := now }.targetRate =
      c.rateAt now := by
  unfold targetRate rateAt
  split
  · rfl
  · rename_i hs
    have hsize : (c.packetQueue.updateQueueTime now).size = 0 := by
      by_contra hne
      exact hs ⟨Nat.pos_of_ne_zero hne, h⟩
    simp [minRateNeed, hsize]

/-- The target rate that a call after some time computes. -/
def targetRateAt (c : PacingController) (now : ℤ) : ℕ :=
  { c with
    packetQueue := c.packetQueue.updateQueueTime now, lastProcessTime := now }.targetRate

/-- The budget as the call sets it by that rate. -/
def targetBudget (c : PacingController) (now : ℤ) : IntervalBudget :=
  c.mediaBudget.setTargetBitrateKbps (toInt (kbps (c.targetRateAt now)))

/-- The new budget of a call after some time. -/
theorem updateBudget_after (h : c.lastProcessTime < now) :
    c.updateBudget now = { c with
      lastProcessTime := now
      packetQueue := c.packetQueue.updateQueueTime now
      mediaBudget := (c.targetBudget now).increaseBudget (ms (paidTime c.lastProcessTime now)) } := by
  have helapsed : min (min (now - c.lastProcessTime) kMaxElapsedTime) kMaxProcessingInterval =
      paidTime c.lastProcessTime now := by
    unfold paidTime kMaxElapsedTime kMaxProcessingInterval
    omega
  unfold updateBudget updateTimeAndGetElapsed
  rw [if_neg h.not_gt]
  dsimp only
  rw [if_pos (by unfold kMaxElapsedTime; omega), updateBudgetWithElapsedTime, helapsed]
  rfl

/-- The same where large queues are drained. -/
theorem updateBudget_of_lt (hd : c.drainLargeQueue = true) (h : c.lastProcessTime < now) :
    c.updateBudget now = { c with
      lastProcessTime := now
      packetQueue := c.packetQueue.updateQueueTime now
      mediaBudget :=
        (c.mediaBudget.setTargetBitrateKbps (toInt (kbps (c.rateAt now)))).increaseBudget
          (ms (paidTime c.lastProcessTime now)) } := by
  rw [updateBudget_after h, targetBudget, targetRateAt, targetRate_updateQueueTime hd]

/-- A call that comes at once has no new budget. -/
theorem updateBudget_of_le (h : now ≤ c.lastProcessTime) : c.updateBudget now = c := by
  unfold updateBudget updateTimeAndGetElapsed
  by_cases hlt : now < c.lastProcessTime
  · rw [if_pos hlt]
    rfl
  · obtain rfl : now = c.lastProcessTime := h.antisymm (not_lt.mp hlt)
    rw [if_neg hlt, sub_self]
    rfl

end Budget

section UpperBound
variable {c : PacingController} {granted : ℤ} {largest : ℕ}

/-- What was sent and what may still be sent are within what was granted, up to a packet. -/
structure Within (c : PacingController) (granted : ℤ) (largest : ℕ) : Prop where
  paid : byte * (c.sentBytes + c.mediaBudget.remaining) ≤ granted
  sent : byte * c.sentBytes ≤ granted + byte * largest
  budget : 0 < c.mediaBudget.remaining → largest ≤ c.mediaBudget.maxBytesInBudget
  sizes : ∀ p ∈ c.packetQueue.queued, p.packetSize ≤ largest
  drains : c.drainLargeQueue = true

theorem tdiv_eight_le (n : ℤ) : 8 * n.tdiv 8 ≤ max n 0 := by
  rcases le_total 0 n with h | h
  · rw [Int.tdiv_eq_ediv_of_nonneg h]
    omega
  · have hneg : n.tdiv 8 ≤ 0 := by
      rw [← neg_neg n, Int.neg_tdiv]
      have := Int.tdiv_nonneg (neg_nonneg.mpr h) (show (0 : ℤ) ≤ 8 by decide)
      omega
    omega

/-- The new bytes are within what is due for the call. -/
theorem credit_le {now : ℤ} (hlt : c.lastProcessTime < now)
    (hc : c.NotRoundedUp (.processPackets now)) :
    byte * (ms (paidTime c.lastProcessTime now) * toInt (kbps (c.rateAt now))).tdiv 8 ≤
      c.rateAt now * paidTime c.lastProcessTime now := by
  have hms := ms_nonneg (paidTime_nonneg hlt.le)
  have hrate : toInt (kbps (c.rateAt now)) ≤ kbps (c.rateAt now) := toInt_le (Int.natCast_nonneg _)
  have hproduct := mul_le_mul_of_nonneg_left hrate hms
  have hnonneg := mul_nonneg (Int.natCast_nonneg (kbps (c.rateAt now))) hms
  have hcredit := tdiv_eight_le (ms (paidTime c.lastProcessTime now) * toInt (kbps (c.rateAt now)))
  have hdue := hc hlt
  unfold byte
  rw [mul_comm (kbps _ : ℤ)] at hdue hnonneg
  omega

theorem Within.updateBudget (h : c.Within granted largest) {now : ℤ}
    (hf : c.Fits largest (.processPackets now)) (hc : c.NotRoundedUp (.processPackets now))
    (hle : c.lastProcessTime ≤ now) :
    (c.updateBudget now).Within (granted + c.rateAt now * paidTime c.lastProcessTime now) largest := by
  rcases hle.eq_or_lt with rfl | hlt
  · rw [updateBudget_of_le le_rfl]
    simpa [paidTime, kMaxProcessingInterval] using h
  · rw [updateBudget_of_lt h.drains hlt]
    have hcredit := credit_le hlt hc
    have hfits := hf hlt
    have hincrease := (c.mediaBudget.setTargetBitrateKbps (toInt (kbps (c.rateAt now)))).increaseBudget_le
      (ms (paidTime c.lastProcessTime now))
    rw [IntervalBudget.targetBitrateKbps_setTargetBitrateKbps,
      IntervalBudget.remaining_setTargetBitrateKbps] at hincrease
    have hdue : 0 ≤ c.rateAt now * paidTime c.lastProcessTime now :=
      mul_nonneg (Int.natCast_nonneg _) (paidTime_nonneg hle)
    have hsent := h.sent
    have hpaid := h.paid
    refine ⟨?_, ?_, fun _ => ?_, fun p hp => h.sizes p (by simpa using hp), h.drains⟩
    · show byte * (c.sentBytes + IntervalBudget.remaining _) ≤ _
      dsimp only
      unfold byte at hcredit hsent hpaid ⊢
      omega
    · show byte * c.sentBytes ≤ _
      omega
    · rw [IntervalBudget.maxBytesInBudget_increaseBudget]
      exact hfits

/-- A packet that is sent is paid from what remains. -/
theorem Within.send (h : c.Within granted largest) {now : ℤ} {packet : QueuedPacket}
    {packetQueue : RoundRobinPacketQueue} (hp : c.getPendingPacket = some (packet, packetQueue)) :
    ({ c with packetQueue, sent := c.sent ++ [packet] }.onPacketSent packet.packetSize now).Within
      granted largest := by
  obtain ⟨hpos, hpop⟩ := getPendingPacket_eq_some hp
  obtain ⟨hmem, hqueued, -⟩ := pop_spec hpop
  have hsize := h.sizes packet hmem
  have hbudget := h.budget hpos
  have hremaining : (c.mediaBudget.useBudget packet.packetSize).remaining =
      c.mediaBudget.remaining - packet.packetSize := max_eq_left (by omega)
  have hbytes : ((c.sent ++ [packet]).map QueuedPacket.packetSize).sum =
      c.sentBytes + packet.packetSize := by simp [sentBytes]
  have hpaid := h.paid
  unfold byte at hpaid
  refine ⟨?_, ?_, fun _ => hbudget, fun p hp => h.sizes p (hqueued p hp), h.drains⟩
  · unfold onPacketSent sentBytes byte
    rw [hremaining, hbytes]
    push_cast
    omega
  · unfold onPacketSent sentBytes byte
    rw [hbytes]
    push_cast
    omega

theorem Within.sendPackets (h : c.Within granted largest) (now : ℤ) (rounds : ℕ) :
    (c.sendPackets now rounds).Within granted largest := by
  induction rounds generalizing c with
  | zero => exact h
  | succ rounds ih =>
    unfold PacingController.sendPackets
    split
    · exact h
    · rename_i hp
      exact ih (h.send hp)

theorem Within.enqueuePacket (h : c.Within granted largest) {packet : RtpPacketToSend}
    (hp : packet.payloadSize + packet.paddingSize ≤ largest) (now : ℤ)
    (packetType : RtpPacketMediaType) :
    (c.enqueuePacket now packetType packet).Within granted largest where
  paid := h.paid
  sent := h.sent
  budget := h.budget
  sizes p hmem := by
    rcases mem_queued_push hmem with rfl | hmem
    · exact hp
    · exact h.sizes p hmem
  drains := h.drains

theorem lastProcessTime_sendPackets {now : ℤ} (h : c.lastProcessTime = now) (rounds : ℕ) :
    (c.sendPackets now rounds).lastProcessTime = now := by
  induction rounds generalizing c with
  | zero => exact h
  | succ rounds ih =>
    unfold PacingController.sendPackets
    split
    · exact h
    · exact ih rfl

theorem lastProcessTime_updateBudget {now : ℤ} (hd : c.drainLargeQueue = true)
    (h : c.lastProcessTime ≤ now) : (c.updateBudget now).lastProcessTime = now := by
  rcases h.eq_or_lt with rfl | hlt
  · rw [updateBudget_of_le le_rfl]
  · rw [updateBudget_of_lt hd hlt]

theorem lastProcessTime_processPackets {now : ℤ} (hd : c.drainLargeQueue = true)
    (h : c.lastProcessTime ≤ now) : (c.processPackets now).lastProcessTime = now :=
  lastProcessTime_sendPackets (lastProcessTime_updateBudget hd h) _

theorem Within.run {calls : List Call} (h : c.Within granted largest)
    (hordered : InOrder c.lastProcessTime calls) (hsize : largestPacket calls ≤ largest)
    (hf : Runs.Along step (Fits largest) c calls) (hr : Runs.Along step NotRoundedUp c calls) :
    (Runs.run step c calls).Within (granted + due c.lastProcessTime c calls) largest := by
  induction calls generalizing c granted with
  | nil => simpa [due] using h
  | cons call calls ih =>
    cases call with
    | enqueuePacket now packetType packet =>
      have hpacket := (le_max_left _ _).trans hsize
      exact ih (h.enqueuePacket hpacket now packetType) hordered.enqueuePacket
        ((le_max_right _ _).trans hsize) hf.2 hr.2
    | processPackets now =>
      obtain ⟨hnow, hrest⟩ := hordered.processPackets
      have hstep : (c.processPackets now).Within
          (granted + c.rateAt now * paidTime c.lastProcessTime now) largest :=
        (h.updateBudget hf.1 hr.1 hnow).sendPackets now _
      have hlast := lastProcessTime_processPackets h.drains hnow
      have hrun := ih hstep (by rw [hlast]; exact hrest) hsize hf.2 hr.2
      rw [hlast, add_assoc] at hrun
      exact hrun
    | setPacingBitrate bitrate => exact ih ⟨h.paid, h.sent, h.budget, h.sizes, h.drains⟩ hordered hsize hf.2 hr.2
    | setQueueTimeLimit limit => exact ih ⟨h.paid, h.sent, h.budget, h.sizes, h.drains⟩ hordered hsize hf.2 hr.2

end UpperBound

instance (largest : ℕ) (c : PacingController) : DecidablePred (c.Fits largest)
  | .processPackets _ => inferInstanceAs (Decidable (_ → _))
  | .enqueuePacket .. | .setPacingBitrate _ | .setQueueTimeLimit _ => instDecidableTrue

instance (c : PacingController) : DecidablePred c.NotRoundedUp
  | .processPackets _ => inferInstanceAs (Decidable (_ → _))
  | .enqueuePacket .. | .setPacingBitrate _ | .setQueueTimeLimit _ => instDecidableTrue

end PacingController
end Pacing
end XrtcServer
