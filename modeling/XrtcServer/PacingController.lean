import XrtcServer.PacketQueueInvariants

/-! The pacer: a byte budget that grows with the time between two calls, and a loop that
sends from the packet queue while the budget lasts. -/
namespace XrtcServer
namespace Pacing

/-- What an `int` of 32 bits keeps of a number. -/
def toInt (n : ℤ) : ℤ := n.bmod 4294967296

/-- A rate in bits per second, to the nearest kilobit. -/
def kbps (rate : ℕ) : ℕ := (rate + 500) / 1000

/-- A duration in microseconds, to the nearest millisecond. -/
def ms (delta : ℤ) : ℤ := (delta + if 0 ≤ delta then 500 else -500).tdiv 1000

theorem toInt_of_lt {n : ℤ} (h₀ : 0 ≤ n) (h : n < 2147483648) : toInt n = n := by
  unfold toInt
  rw [Int.bmod_def]
  omega

theorem toInt_le {n : ℤ} (h : 0 ≤ n) : toInt n ≤ n := by
  unfold toInt
  rw [Int.bmod_def]
  omega

theorem ms_nonneg {delta : ℤ} (h : 0 ≤ delta) : 0 ≤ ms delta := by
  rw [ms, if_pos h]
  exact Int.tdiv_nonneg (by omega) (by decide)

theorem ms_mono {delta delta' : ℤ} (h₀ : 0 ≤ delta) (h : delta ≤ delta') : ms delta ≤ ms delta' := by
  rw [ms, ms, if_pos h₀, if_pos (h₀.trans h), Int.tdiv_eq_ediv_of_nonneg (by omega),
    Int.tdiv_eq_ediv_of_nonneg (by omega)]
  omega

def kWindowMs : ℤ := 500

/-- The budget is in bytes. -/
structure IntervalBudget where
  targetBitrateKbps : ℤ
  maxBytesInBudget : ℤ := 0
  remaining : ℤ := 0
  canBuildUpUnderuse : Bool := false
  deriving DecidableEq, Repr

namespace IntervalBudget

/-- The largest budget is computed in `int`. -/
def setTargetBitrateKbps (b : IntervalBudget) (targetBitrateKbps : ℤ) : IntervalBudget :=
  let maxBytesInBudget := (toInt (targetBitrateKbps * kWindowMs)).tdiv 8
  { b with
    targetBitrateKbps
    maxBytesInBudget
    remaining := min (max (-maxBytesInBudget) b.remaining) maxBytesInBudget }

@[simp] theorem targetBitrateKbps_setTargetBitrateKbps (b : IntervalBudget) (target : ℤ) :
    (b.setTargetBitrateKbps target).targetBitrateKbps = target := rfl

@[simp] theorem canBuildUpUnderuse_setTargetBitrateKbps (b : IntervalBudget) (target : ℤ) :
    (b.setTargetBitrateKbps target).canBuildUpUnderuse = b.canBuildUpUnderuse := rfl

theorem maxBytesInBudget_setTargetBitrateKbps (b : IntervalBudget) {target : ℤ}
    (h₀ : 0 ≤ target) (h : target * kWindowMs < 2147483648) :
    (b.setTargetBitrateKbps target).maxBytesInBudget = target * kWindowMs / 8 := by
  have hproduct : 0 ≤ target * kWindowMs := Int.mul_nonneg h₀ (by decide)
  unfold setTargetBitrateKbps
  dsimp only
  rw [toInt_of_lt hproduct h, Int.tdiv_eq_ediv_of_nonneg hproduct]

theorem remaining_setTargetBitrateKbps (b : IntervalBudget) (target : ℤ) :
    (b.setTargetBitrateKbps target).remaining =
      min (max (-(b.setTargetBitrateKbps target).maxBytesInBudget) b.remaining)
        (b.setTargetBitrateKbps target).maxBytesInBudget := rfl

theorem le_remaining_setTargetBitrateKbps {b : IntervalBudget} {target n : ℤ}
    (h : n ≤ b.remaining) (hmax : n ≤ (b.setTargetBitrateKbps target).maxBytesInBudget) :
    n ≤ (b.setTargetBitrateKbps target).remaining := by
  rw [remaining_setTargetBitrateKbps]
  exact le_min (h.trans (le_max_right _ _)) hmax

/-- A debt is paid off first; what was left of the last budget is lost. -/
def increaseBudget (b : IntervalBudget) (elapsedTime : ℤ) : IntervalBudget :=
  let bytes := (elapsedTime * b.targetBitrateKbps).tdiv 8
  if b.remaining < 0 ∨ b.canBuildUpUnderuse then
    { b with remaining := min (b.remaining + bytes) b.maxBytesInBudget }
  else { b with remaining := min bytes b.maxBytesInBudget }

theorem increaseBudget_le (b : IntervalBudget) (elapsedTime : ℤ) :
    (b.increaseBudget elapsedTime).remaining ≤
      b.remaining + (elapsedTime * b.targetBitrateKbps).tdiv 8 := by
  unfold increaseBudget
  split
  · exact min_le_left _ _
  · rename_i h
    have hremaining : 0 ≤ b.remaining := by
      by_contra hneg
      exact h (Or.inl (not_le.mp hneg))
    exact (min_le_left _ _).trans (by omega)

theorem le_remaining_increaseBudget {b : IntervalBudget} {elapsedTime n : ℤ} (hn : n ≤ 0)
    (h : n ≤ b.remaining) (hbytes : 0 ≤ (elapsedTime * b.targetBitrateKbps).tdiv 8)
    (hmax : n ≤ b.maxBytesInBudget) : n ≤ (b.increaseBudget elapsedTime).remaining := by
  unfold increaseBudget
  split
  · exact le_min (by omega) hmax
  · exact le_min (by omega) hmax

theorem min_add_le_remaining_increaseBudget {b : IntervalBudget} {target elapsedTime : ℤ}
    (hnonneg : 0 ≤ (b.setTargetBitrateKbps target).maxBytesInBudget)
    (hdebt : -(b.setTargetBitrateKbps target).maxBytesInBudget ≤ b.remaining)
    (hmax : (elapsedTime * target).tdiv 8 ≤ (b.setTargetBitrateKbps target).maxBytesInBudget) :
    min b.remaining 0 + (elapsedTime * target).tdiv 8 ≤
      ((b.setTargetBitrateKbps target).increaseBudget elapsedTime).remaining := by
  have hset := remaining_setTargetBitrateKbps b target
  rw [max_eq_right hdebt] at hset
  unfold increaseBudget
  rw [targetBitrateKbps_setTargetBitrateKbps]
  split
  · exact le_min (by omega) (by omega)
  · exact le_min (by omega) (by omega)

@[simp] theorem maxBytesInBudget_increaseBudget (b : IntervalBudget) (elapsedTime : ℤ) :
    (b.increaseBudget elapsedTime).maxBytesInBudget = b.maxBytesInBudget := by
  unfold increaseBudget
  split <;> rfl

@[simp] theorem canBuildUpUnderuse_increaseBudget (b : IntervalBudget) (elapsedTime : ℤ) :
    (b.increaseBudget elapsedTime).canBuildUpUnderuse = b.canBuildUpUnderuse := by
  unfold increaseBudget
  split <;> rfl

def useBudget (b : IntervalBudget) (bytes : ℕ) : IntervalBudget :=
  { b with remaining := max (b.remaining - bytes) (-b.maxBytesInBudget) }

def bytesRemaining (b : IntervalBudget) : ℕ := (max 0 b.remaining).toNat

/-- A new budget. -/
def create (initialTargetBitrateKbps : ℤ) (canBuildUpUnderuse : Bool) : IntervalBudget :=
  setTargetBitrateKbps { targetBitrateKbps := initialTargetBitrateKbps, canBuildUpUnderuse }
    initialTargetBitrateKbps

end IntervalBudget

inductive RtpPacketMediaType
  | kAudio | kVideo | kRetransmission | kForwardErrorCorrection | kPadding
  deriving DecidableEq, Repr

def kFirstPriority : ℤ := 0

/-- A lower value goes first. -/
def getPriorityForType : RtpPacketMediaType → ℤ
  | .kAudio => kFirstPriority + 1
  | .kRetransmission => kFirstPriority + 2
  | .kVideo | .kForwardErrorCorrection => kFirstPriority + 3
  | .kPadding => kFirstPriority + 4

def kMaxElapsedTime : ℤ := 2000000

def kMaxProcessingInterval : ℤ := 30000

def kMaxExpectedQueueLength : ℤ := 2000000

/-- `sent`: what the packet sender was given. -/
structure PacingController where
  packetCounter : ℕ := 0
  lastProcessTime : ℤ
  packetQueue : RoundRobinPacketQueue
  mediaBudget : IntervalBudget := IntervalBudget.create 0 false
  pacingBitrate : ℕ := 0
  drainLargeQueue : Bool := true
  queueTimeLimit : ℤ := kMaxExpectedQueueLength
  sent : List QueuedPacket := []

namespace PacingController

/-- A new pacer. -/
def start (startTime : ℤ) : PacingController where
  lastProcessTime := startTime
  packetQueue := { lastTimeUpdated := startTime }

def enqueuePacket (c : PacingController) (now : ℤ) (packetType : RtpPacketMediaType)
    (packet : RtpPacketToSend) : PacingController :=
  { c with
    packetQueue := c.packetQueue.push ⟨getPriorityForType packetType, now, c.packetCounter, packet⟩
    packetCounter := c.packetCounter + 1 }

def updateTimeAndGetElapsed (c : PacingController) (now : ℤ) : ℤ × PacingController :=
  if now < c.lastProcessTime then (0, c)
  else (min (now - c.lastProcessTime) kMaxElapsedTime, { c with lastProcessTime := now })

/-- The rate that empties the queue before its packets are too old. -/
def minRateNeed (c : PacingController) : ℕ :=
  let avgQueueLeft := max 1000 (c.queueTimeLimit - c.packetQueue.averageQueueTime)
  c.packetQueue.size * 8000000 / avgQueueLeft.toNat

def targetRate (c : PacingController) : ℕ :=
  if 0 < c.packetQueue.size ∧ c.drainLargeQueue then max c.pacingBitrate c.minRateNeed
  else c.pacingBitrate

def updateBudgetWithElapsedTime (c : PacingController) (elapsedTime : ℤ) : PacingController :=
  { c with mediaBudget := c.mediaBudget.increaseBudget (ms (min elapsedTime kMaxProcessingInterval)) }

/-- No packet if the queue is empty or the budget is used up. -/
def getPendingPacket (c : PacingController) : Option (QueuedPacket × RoundRobinPacketQueue) :=
  if c.packetQueue.empty then none
  else if c.mediaBudget.bytesRemaining ≤ 0 then none
  else c.packetQueue.pop

theorem getPendingPacket_eq_some {c : PacingController} {packet : QueuedPacket}
    {packetQueue : RoundRobinPacketQueue} (h : c.getPendingPacket = some (packet, packetQueue)) :
    0 < c.mediaBudget.remaining ∧ c.packetQueue.pop = some (packet, packetQueue) := by
  unfold getPendingPacket IntervalBudget.bytesRemaining at h
  split at h
  · exact nomatch h
  · split at h
    · exact nomatch h
    · exact ⟨by omega, h⟩

def onPacketSent (c : PacingController) (packetSize : ℕ) (sendTime : ℤ) : PacingController :=
  { c with mediaBudget := c.mediaBudget.useBudget packetSize, lastProcessTime := sendTime }

/-- The first half of `ProcessPackets`, up to the new budget. -/
def updateBudget (c : PacingController) (now : ℤ) : PacingController :=
  let (elapsedTime, c) := c.updateTimeAndGetElapsed now
  if 0 < elapsedTime then
    let c := { c with packetQueue := c.packetQueue.updateQueueTime now }
    let c := { c with mediaBudget := c.mediaBudget.setTargetBitrateKbps (toInt (kbps c.targetRate)) }
    c.updateBudgetWithElapsedTime elapsedTime
  else c

/-- The loop of `ProcessPackets`; each round takes a packet from the queue. -/
def sendPackets (c : PacingController) (targetSendTime : ℤ) : ℕ → PacingController
  | 0 => c
  | rounds + 1 =>
    match c.getPendingPacket with
    | none => c
    | some (packet, packetQueue) =>
      sendPackets ({ c with packetQueue, sent := c.sent ++ [packet] }.onPacketSent packet.packetSize
        targetSendTime) targetSendTime rounds

/-- The rounds suffice: the loop ends because nothing is pending. -/
theorem getPendingPacket_sendPackets {c : PacingController} {rounds : ℕ}
    (h : c.packetQueue.sizePackets ≤ rounds) (targetSendTime : ℤ) :
    (c.sendPackets targetSendTime rounds).getPendingPacket = none := by
  induction rounds generalizing c with
  | zero =>
    have hempty : c.packetQueue.empty = true := by simpa [RoundRobinPacketQueue.empty] using h
    exact if_pos hempty
  | succ rounds ih =>
    unfold sendPackets
    split
    · assumption
    · rename_i hp
      obtain ⟨-, -, hsize⟩ := RoundRobinPacketQueue.pop_spec (getPendingPacket_eq_some hp).2
      exact ih (show _ ≤ rounds by dsimp only [onPacketSent]; omega)

def processPackets (c : PacingController) (now : ℤ) : PacingController :=
  let c := c.updateBudget now
  c.sendPackets now c.packetQueue.sizePackets

def setPacingBitrate (c : PacingController) (bitrate : ℕ) : PacingController :=
  { c with pacingBitrate := bitrate }

def setQueueTimeLimit (c : PacingController) (limit : ℤ) : PacingController :=
  { c with queueTimeLimit := limit }

end PacingController

/-- The calls into the pacer, with the time of those that look at the clock. -/
inductive Call
  | enqueuePacket (now : ℤ) (packetType : RtpPacketMediaType) (packet : RtpPacketToSend)
  | processPackets (now : ℤ)
  | setPacingBitrate (bitrate : ℕ)
  | setQueueTimeLimit (limit : ℤ)

namespace PacingController

def step (c : PacingController) : Call → PacingController
  | .enqueuePacket now packetType packet => c.enqueuePacket now packetType packet
  | .processPackets now => c.processPackets now
  | .setPacingBitrate bitrate => c.setPacingBitrate bitrate
  | .setQueueTimeLimit limit => c.setQueueTimeLimit limit

end PacingController
end Pacing
end XrtcServer
