import XrtcServer.PacingRate
import Mathlib.Data.List.Chain

/-! What the pacer sends at least while its queue is never empty: what its calls pay for in
whole milliseconds and whole bytes. -/
namespace XrtcServer
namespace Pacing
open RoundRobinPacketQueue (Consistent mem_queued_push pop_spec)

/-- The calls to process packets. -/
def callTimes (calls : List Call) : List ℤ :=
  calls.filterMap fun
    | .processPackets now => some now
    | _ => none

/-- Two calls at most 30 ms apart. -/
def Near (t t' : ℤ) : Prop := t' - t ≤ kMaxProcessingInterval

/-- The whole bytes that a call pays for at that rate. -/
def credit (rate : ℕ) (t t' : ℤ) : ℤ := ms (t' - t) * kbps rate / 8

/-- What the rate allows between the calls and they do not pay for. -/
def shortfall (rate : ℕ) : List ℤ → ℤ
  | t :: t' :: ts => rate * (t' - t) - byte * credit rate t t' + shortfall rate (t' :: ts)
  | _ => 0

namespace PacingController

/-- The queue is not empty after the call. -/
def Busy (c : PacingController) : Call → Prop
  | .processPackets now => (c.processPackets now).packetQueue.empty = false
  | _ => True

/-- The largest budget of the call fits in an `int`, and the queue does not lose a stream. -/
def Safe (c : PacingController) : Call → Prop
  | .enqueuePacket now packetType packet =>
    c.packetQueue.rekeys ⟨getPriorityForType packetType, now, c.packetCounter, packet⟩ = false
  | .processPackets now => c.lastProcessTime < now → kbps (c.rateAt now) * kWindowMs < 2147483648
  | _ => True

section LowerBound
variable {c : PacingController} {rate largest : ℕ}

/-- The debt of the budget is at most a packet. -/
structure Steady (c : PacingController) (rate largest : ℕ) : Prop where
  consistent : c.packetQueue.Consistent
  debt : -(largest : ℤ) ≤ c.mediaBudget.remaining
  budget : 0 < c.mediaBudget.remaining → largest ≤ c.mediaBudget.maxBytesInBudget
  sizes : ∀ p ∈ c.packetQueue.queued, p.packetSize ≤ largest
  pacingBitrate : c.pacingBitrate = rate
  drains : c.drainLargeQueue = true
  noUnderuse : c.mediaBudget.canBuildUpUnderuse = false

theorem kbps_mono {r r' : ℕ} (h : r ≤ r') : kbps r ≤ kbps r' :=
  Nat.div_le_div_right (Nat.add_le_add_right h 500)

theorem Safe.lt {now : ℤ} (hs : c.Safe (.processPackets now)) (hlt : c.lastProcessTime < now) :
    kbps (c.rateAt now) * kWindowMs < 2147483648 := hs hlt

theorem toInt_of_fits {k : ℕ} (h : k * kWindowMs < 2147483648) : toInt k = k := by
  unfold kWindowMs at h
  exact toInt_of_lt (Int.natCast_nonneg k) (by omega)

/-- The largest budget of a safe call holds any packet. -/
theorem Steady.largest_le (h : c.Steady rate largest) {now : ℤ}
    (hs : c.Safe (.processPackets now)) (hlt : c.lastProcessTime < now)
    (hfit : (largest : ℤ) ≤ kbps rate * kWindowMs / 8) :
    (largest : ℤ) ≤
      (c.mediaBudget.setTargetBitrateKbps (kbps (c.rateAt now))).maxBytesInBudget := by
  have hrate : kbps rate ≤ kbps (c.rateAt now) :=
    kbps_mono (h.pacingBitrate ▸ le_max_left _ _)
  rw [IntervalBudget.maxBytesInBudget_setTargetBitrateKbps _ (Int.natCast_nonneg _) (hs.lt hlt)]
  unfold kWindowMs at hfit ⊢
  omega

theorem Steady.updateBudget (h : c.Steady rate largest) {now : ℤ}
    (hs : c.Safe (.processPackets now)) (hfit : (largest : ℤ) ≤ kbps rate * kWindowMs / 8)
    (hle : c.lastProcessTime ≤ now) : (c.updateBudget now).Steady rate largest := by
  rcases hle.eq_or_lt with rfl | hlt
  · rw [updateBudget_of_le le_rfl]
    exact h
  · rw [updateBudget_of_lt h.drains hlt, toInt_of_fits (hs.lt hlt)]
    have hlargest := h.largest_le hs hlt hfit
    have hbytes : 0 ≤ (ms (paidTime c.lastProcessTime now) * kbps (c.rateAt now)).tdiv 8 :=
      Int.tdiv_nonneg (mul_nonneg (ms_nonneg (paidTime_nonneg hle)) (Int.natCast_nonneg _)) (by decide)
    have hneg : -(largest : ℤ) ≤ 0 := neg_nonpos.mpr (Int.natCast_nonneg _)
    have hdebt := hneg.trans ((Int.natCast_nonneg _).trans hlargest)
    refine ⟨h.consistent.updateQueueTime now, ?_, fun _ => ?_,
      fun p hp => h.sizes p (by simpa using hp), h.pacingBitrate, h.drains, ?_⟩
    · dsimp only
      refine IntervalBudget.le_remaining_increaseBudget hneg
        (IntervalBudget.le_remaining_setTargetBitrateKbps h.debt hdebt) ?_ hdebt
      rw [IntervalBudget.targetBitrateKbps_setTargetBitrateKbps]
      exact hbytes
    · rw [IntervalBudget.maxBytesInBudget_increaseBudget]
      exact hlargest
    · simpa using h.noUnderuse

/-- A call adds at least what it pays for at the pacing rate, to the debt if there is one. -/
theorem Steady.credit_le (h : c.Steady rate largest) {now : ℤ}
    (hs : c.Safe (.processPackets now)) (hfit : (largest : ℤ) ≤ kbps rate * kWindowMs / 8)
    (hle : c.lastProcessTime ≤ now) (hnear : Near c.lastProcessTime now) :
    min c.mediaBudget.remaining 0 + credit rate c.lastProcessTime now ≤
      (c.updateBudget now).mediaBudget.remaining := by
  rcases hle.eq_or_lt with rfl | hlt
  · rw [updateBudget_of_le le_rfl]
    simp [credit, ms]
  · rw [updateBudget_of_lt h.drains hlt, toInt_of_fits (hs.lt hlt)]
    dsimp only
    have hlargest := h.largest_le hs hlt hfit
    have hpaid : paidTime c.lastProcessTime now = now - c.lastProcessTime := min_eq_left hnear
    have hms : ms (now - c.lastProcessTime) ≤ 30 :=
      (ms_mono (sub_nonneg.mpr hle) hnear).trans (by decide)
    have hrate : kbps rate ≤ kbps (c.rateAt now) :=
      kbps_mono (h.pacingBitrate ▸ le_max_left _ _)
    have hnonneg := ms_nonneg (sub_nonneg.mpr hle)
    have hproduct := mul_le_mul_of_nonneg_left (Int.ofNat_le.mpr hrate) hnonneg
    have hbound := mul_le_mul_of_nonneg_right hms (Int.natCast_nonneg (kbps (c.rateAt now)))
    have hbytes : (ms (now - c.lastProcessTime) * kbps (c.rateAt now)).tdiv 8 =
        ms (now - c.lastProcessTime) * kbps (c.rateAt now) / 8 :=
      Int.tdiv_eq_ediv_of_nonneg (mul_nonneg hnonneg (Int.natCast_nonneg _))
    have hcredit : credit rate c.lastProcessTime now ≤
        ms (now - c.lastProcessTime) * kbps (c.rateAt now) / 8 := by
      unfold credit
      omega
    refine (add_le_add_right hcredit _).trans ?_
    rw [hpaid, ← hbytes]
    refine IntervalBudget.min_add_le_remaining_increaseBudget ?_ ?_ ?_
    · exact (Int.natCast_nonneg _).trans hlargest
    · exact ((neg_le_neg hlargest).trans h.debt)
    · rw [hbytes, IntervalBudget.maxBytesInBudget_setTargetBitrateKbps _ (Int.natCast_nonneg _)
        (hs.lt hlt)]
      unfold kWindowMs
      omega

/-- What was sent and what may still be sent. -/
def spent (c : PacingController) : ℤ := c.sentBytes + c.mediaBudget.remaining

theorem Steady.send (h : c.Steady rate largest) (now : ℤ) {packet : QueuedPacket}
    {packetQueue : RoundRobinPacketQueue} (hp : c.getPendingPacket = some (packet, packetQueue)) :
    let c' := { c with packetQueue, sent := c.sent ++ [packet] }.onPacketSent packet.packetSize now
    c'.Steady rate largest ∧ c'.spent = c.spent := by
  obtain ⟨hpos, hpop⟩ := getPendingPacket_eq_some hp
  obtain ⟨hmem, hqueued, -⟩ := pop_spec hpop
  obtain ⟨packet', packetQueue', hpop', -, hcons, -⟩ := h.consistent.pop (List.ne_nil_of_mem hmem)
  obtain ⟨rfl, rfl⟩ := Prod.mk.inj (Option.some.inj (hpop.symm.trans hpop'))
  have hsize := h.sizes packet hmem
  have hbudget := h.budget hpos
  have hremaining : (c.mediaBudget.useBudget packet.packetSize).remaining =
      c.mediaBudget.remaining - packet.packetSize := max_eq_left (by omega)
  refine ⟨⟨hcons, ?_, fun _ => hbudget, fun p hp => h.sizes p (hqueued p hp), h.pacingBitrate,
    h.drains, h.noUnderuse⟩, ?_⟩
  · unfold onPacketSent
    rw [hremaining]
    omega
  · unfold onPacketSent spent sentBytes
    rw [hremaining]
    simp

theorem Steady.sendPackets (h : c.Steady rate largest) (now : ℤ) (rounds : ℕ) :
    (c.sendPackets now rounds).Steady rate largest ∧ (c.sendPackets now rounds).spent = c.spent := by
  induction rounds generalizing c with
  | zero => exact ⟨h, rfl⟩
  | succ rounds ih =>
    unfold PacingController.sendPackets
    split
    · exact ⟨h, rfl⟩
    · rename_i hp
      obtain ⟨hsend, hspent⟩ := h.send now hp
      obtain ⟨hrest, hspent'⟩ := ih hsend
      exact ⟨hrest, hspent'.trans hspent⟩

/-- A queue that is not empty after the call leaves no budget. -/
theorem Steady.remaining_le (h : c.Steady rate largest) (hp : c.getPendingPacket = none)
    (hb : c.packetQueue.empty = false) : c.mediaBudget.remaining ≤ 0 := by
  by_contra hpos
  have hne : c.packetQueue.queued ≠ [] := by
    intro hnil
    rw [RoundRobinPacketQueue.empty, h.consistent.sizePackets, hnil] at hb
    exact absurd hb (by decide)
  obtain ⟨p, q, hpop, -⟩ := h.consistent.pop hne
  unfold getPendingPacket IntervalBudget.bytesRemaining at hp
  rw [if_neg (by rw [hb]; exact Bool.false_ne_true), if_neg (by omega), hpop] at hp
  cases hp

theorem Steady.processPackets (h : c.Steady rate largest) {now : ℤ}
    (hs : c.Safe (.processPackets now)) (hfit : (largest : ℤ) ≤ kbps rate * kWindowMs / 8)
    (hle : c.lastProcessTime ≤ now) :
    (c.processPackets now).Steady rate largest ∧
      (c.processPackets now).spent = (c.updateBudget now).spent :=
  (h.updateBudget hs hfit hle).sendPackets now _

theorem Steady.enqueuePacket (h : c.Steady rate largest) {now : ℤ}
    {packetType : RtpPacketMediaType} {packet : RtpPacketToSend}
    (hs : c.Safe (.enqueuePacket now packetType packet))
    (hp : packet.payloadSize + packet.paddingSize ≤ largest) :
    (c.enqueuePacket now packetType packet).Steady rate largest where
  consistent := h.consistent.push hs
  debt := h.debt
  budget := h.budget
  sizes p hmem := by
    rcases mem_queued_push hmem with rfl | hmem
    · exact hp
    · exact h.sizes p hmem
  pacingBitrate := h.pacingBitrate
  drains := h.drains
  noUnderuse := h.noUnderuse

theorem sentBytes_updateBudget (c : PacingController) (now : ℤ) :
    (c.updateBudget now).sentBytes = c.sentBytes := by
  unfold PacingController.updateBudget updateTimeAndGetElapsed
  by_cases h : now < c.lastProcessTime
  · rw [if_pos h]
    rfl
  · rw [if_neg h]
    dsimp only
    split <;> rfl

/-- The debt stays within a packet in any run at the rate. -/
theorem Steady.run (h : c.Steady rate largest) {calls : List Call}
    (hordered : InOrder c.lastProcessTime calls) (hsize : largestPacket calls ≤ largest)
    (hfixed : ∀ bitrate, Call.setPacingBitrate bitrate ∉ calls)
    (hfit : (largest : ℤ) ≤ kbps rate * kWindowMs / 8) (hs : Runs.Along step Safe c calls) :
    (Runs.run step c calls).Steady rate largest ∧
      (Runs.run step c calls).lastProcessTime = (callTimes calls).getLastD c.lastProcessTime := by
  induction calls generalizing c with
  | nil => exact ⟨h, rfl⟩
  | cons call calls ih =>
    have hrest : ∀ bitrate, Call.setPacingBitrate bitrate ∉ calls :=
      fun bitrate hmem => hfixed bitrate (List.mem_cons_of_mem _ hmem)
    cases call with
    | enqueuePacket now packetType packet =>
      have hpacket := (le_max_left _ _).trans hsize
      exact ih (h.enqueuePacket hs.1 hpacket) hordered.enqueuePacket
        ((le_max_right _ _).trans hsize) hrest hs.2
    | processPackets now =>
      obtain ⟨hle, hordered⟩ := hordered.processPackets
      have hlast := lastProcessTime_processPackets h.drains hle
      obtain ⟨hrun, htime⟩ := ih (h.processPackets hs.1 hfit hle).1 (by rw [hlast]; exact hordered)
        hsize hrest hs.2
      rw [hlast] at htime
      exact ⟨hrun, htime.trans List.getLastD_cons.symm⟩
    | setPacingBitrate bitrate => exact absurd List.mem_cons_self (hfixed bitrate)
    | setQueueTimeLimit limit =>
      exact ih ⟨h.consistent, h.debt, h.budget, h.sizes, h.pacingBitrate, h.drains, h.noUnderuse⟩
        hordered hsize hrest hs.2

/-- What was sent, less the debt. -/
def settled (c : PacingController) : ℤ := c.sentBytes + min c.mediaBudget.remaining 0

/-- While no call leaves the queue empty, the calls send what they pay for. -/
theorem Steady.settles (h : c.Steady rate largest) {calls : List Call}
    (hordered : InOrder c.lastProcessTime calls) (hsize : largestPacket calls ≤ largest)
    (hfixed : ∀ bitrate, Call.setPacingBitrate bitrate ∉ calls)
    (hfit : (largest : ℤ) ≤ kbps rate * kWindowMs / 8)
    (hnear : (c.lastProcessTime :: callTimes calls).IsChain Near)
    (hs : Runs.Along step Safe c calls) (hb : Runs.Along step Busy c calls) :
    byte * c.settled + rate * ((callTimes calls).getLastD c.lastProcessTime - c.lastProcessTime) ≤
      byte * (Runs.run step c calls).settled + shortfall rate (c.lastProcessTime :: callTimes calls) := by
  induction calls generalizing c with
  | nil => simp [callTimes, shortfall]
  | cons call calls ih =>
    have hrest : ∀ bitrate, Call.setPacingBitrate bitrate ∉ calls :=
      fun bitrate hmem => hfixed bitrate (List.mem_cons_of_mem _ hmem)
    cases call with
    | enqueuePacket now packetType packet =>
      have hpacket := (le_max_left _ _).trans hsize
      exact ih (h.enqueuePacket hs.1 hpacket) hordered.enqueuePacket
        ((le_max_right _ _).trans hsize) hrest hnear hs.2 hb.2
    | processPackets now =>
      obtain ⟨hle, hordered⟩ := hordered.processPackets
      obtain ⟨hnow, hnear⟩ := List.isChain_cons_cons.mp hnear
      have hlast := lastProcessTime_processPackets h.drains hle
      obtain ⟨hstep, hspent⟩ := h.processPackets hs.1 hfit hle
      have hend : (c.processPackets now).mediaBudget.remaining ≤ 0 :=
        hstep.remaining_le (getPendingPacket_sendPackets le_rfl now) hb.1
      have hrun := ih hstep (by rw [hlast]; exact hordered) hsize hrest
        (by rw [hlast]; exact hnear) hs.2 hb.2
      have hcredit := h.credit_le hs.1 hfit hle hnow
      have hsettled : c.settled + credit rate c.lastProcessTime now ≤ (c.processPackets now).settled := by
        calc c.settled + credit rate c.lastProcessTime now
            ≤ (c.updateBudget now).spent := by
              unfold settled spent
              rw [sentBytes_updateBudget]
              omega
          _ = (c.processPackets now).spent := hspent.symm
          _ = (c.processPackets now).settled := by
              unfold settled spent
              rw [min_eq_left hend]
      rw [hlast] at hrun
      show byte * c.settled + rate *
          ((now :: callTimes calls).getLastD c.lastProcessTime - c.lastProcessTime) ≤
        byte * (Runs.run step (c.processPackets now) calls).settled +
          (rate * (now - c.lastProcessTime) - byte * credit rate c.lastProcessTime now +
            shortfall rate (now :: callTimes calls))
      rw [List.getLastD_cons]
      unfold byte at hrun ⊢
      linarith
    | setPacingBitrate bitrate => exact absurd List.mem_cons_self (hfixed bitrate)
    | setQueueTimeLimit limit =>
      exact ih ⟨h.consistent, h.debt, h.budget, h.sizes, h.pacingBitrate, h.drains, h.noUnderuse⟩
        hordered hsize hrest hnear hs.2 hb.2

end LowerBound
end PacingController

/-- A run at a fixed rate, and a part of it between two calls. -/
structure Window where
  startTime : ℤ
  rate : ℕ
  before : List Call
  t₀ : ℤ
  between : List Call
  t₁ : ℤ

namespace Window
open PacingController

/-- The calls up to the beginning of the window. -/
def first (w : Window) : List Call := w.before ++ [.processPackets w.t₀]

/-- The calls in the window. -/
def rest (w : Window) : List Call := w.between ++ [.processPackets w.t₁]

def calls (w : Window) : List Call := w.first ++ w.rest

def initial (w : Window) : PacingController := (start w.startTime).setPacingBitrate w.rate

/-- The pacer at the beginning and at the end of the window. -/
def opened (w : Window) : PacingController := Runs.run step w.initial w.first

def closed (w : Window) : PacingController := Runs.run step w.opened w.rest

/-- The pacer sends what the rate allows in the window, less the largest packet and less a
millisecond. -/
def KeepsUp (w : Window) : Prop :=
  0 < w.rate → (∀ bitrate, Call.setPacingBitrate bitrate ∉ w.calls) → InOrder w.startTime w.calls →
    (callTimes w.calls).IsChain Near → largestPacket w.calls ≤ kbps w.rate * kWindowMs / 8 →
      Runs.Along step Busy w.opened w.rest →
        w.rate * (w.t₁ - w.t₀) ≤
          byte * (w.closed.sentBytes - w.opened.sentBytes) + byte * largestPacket w.calls +
            w.rate * 1000

theorem callTimes_append (calls calls' : List Call) :
    callTimes (calls ++ calls') = callTimes calls ++ callTimes calls' := List.filterMap_append

theorem largestPacket_append (calls calls' : List Call) :
    largestPacket (calls ++ calls') = max (largestPacket calls) (largestPacket calls') := by
  induction calls with
  | nil => simp [largestPacket]
  | cons call calls ih =>
    cases call <;> simp [largestPacket, ih, max_assoc]

theorem steady_start (startTime : ℤ) (rate largest : ℕ) :
    ((start startTime).setPacingBitrate rate).Steady rate largest where
  consistent := (PacketFlow.sound_start startTime).consistent
  debt := neg_nonpos.mpr (Int.natCast_nonneg _)
  budget h := absurd h (lt_irrefl 0)
  sizes := nofun
  pacingBitrate := rfl
  drains := rfl
  noUnderuse := rfl

/-- A window keeps up as long as its calls pay for all but a millisecond, and in the whole
run no rate is too large for the budget and the queue loses no stream. -/
theorem keepsUp_of_shortfall_le (w : Window) (hs : Runs.Along step Safe w.initial w.calls)
    (hshort : shortfall w.rate (w.t₀ :: callTimes w.rest) ≤ w.rate * 1000) : w.KeepsUp := by
  intro _ hfixed hordered hnear hfit hb
  obtain ⟨hs₀, hs₁⟩ := (Runs.along_append _ _ _ _ _).mp hs
  have hlargest := largestPacket_append w.first w.rest
  have hfixed₀ (bitrate : ℕ) : Call.setPacingBitrate bitrate ∉ w.first :=
    fun hmem => hfixed bitrate (List.mem_append_left _ hmem)
  have hfixed₁ (bitrate : ℕ) : Call.setPacingBitrate bitrate ∉ w.rest :=
    fun hmem => hfixed bitrate (List.mem_append_right _ hmem)
  have htimes : (callTimes w.first).getLastD w.startTime = w.t₀ := by
    rw [first, callTimes_append]
    exact List.getLastD_concat ..
  have hordered₀ : InOrder w.startTime w.first :=
    hordered.sublist (List.Sublist.cons_cons _ ((List.sublist_append_left _ _).filterMap _))
  have hordered₁ : InOrder w.t₀ w.rest := by
    have hsplit : w.startTime :: (w.calls).filterMap Call.now? =
        (w.startTime :: w.before.filterMap Call.now?) ++ w.t₀ :: w.rest.filterMap Call.now? := by
      simp [calls, first, Call.now?]
    rw [InOrder, hsplit] at hordered
    exact (List.pairwise_append.mp hordered).2.1
  have hnear₁ : (w.t₀ :: callTimes w.rest).IsChain Near := by
    have hsplit : callTimes w.calls = callTimes w.before ++ w.t₀ :: callTimes w.rest := by
      rw [calls, first, callTimes_append, callTimes_append]
      simp [callTimes]
    rw [hsplit] at hnear
    exact hnear.right_of_append
  have hrun := (steady_start w.startTime w.rate (largestPacket w.calls)).run hordered₀
    (by rw [calls, hlargest]; exact le_max_left _ _) hfixed₀ hfit hs₀
  have hopened : w.opened.Steady w.rate (largestPacket w.calls) := hrun.1
  have htime₀ : w.opened.lastProcessTime = w.t₀ := hrun.2.trans htimes
  have htime₁ : (callTimes w.rest).getLastD w.t₀ = w.t₁ := by
    rw [rest, callTimes_append]
    exact List.getLastD_concat ..
  have hsettles := hopened.settles (by rw [htime₀]; exact hordered₁)
    (by rw [calls, hlargest]; exact le_max_right _ _) hfixed₁ hfit
    (by rw [htime₀]; exact hnear₁) hs₁ hb
  rw [htime₀, htime₁] at hsettles
  have hdebt := hopened.debt
  have hclosed : w.closed.settled ≤ w.closed.sentBytes :=
    add_le_of_nonpos_right (min_le_right _ _)
  have hopen : w.opened.sentBytes - largestPacket w.calls ≤ w.opened.settled := by
    unfold settled
    omega
  have hend : byte * (w.opened.sentBytes - largestPacket w.calls) + w.rate * (w.t₁ - w.t₀) ≤
      byte * w.closed.sentBytes + w.rate * 1000 := by
    unfold byte at hsettles ⊢
    change _ ≤ 8000000 * w.closed.settled + _ at hsettles
    linarith
  linarith

/-- Packets of a hundred bytes at 800 kbps, and calls at those times. -/
def hundreds (packets : ℕ) (between : List ℤ) (t₁ : ℤ) : Window where
  startTime := 0
  rate := 800000
  before := List.replicate packets (.enqueuePacket 0 .kVideo ⟨1, 100, 0⟩)
  t₀ := 1000
  between := between.map .processPackets
  t₁

instance (c : PacingController) : DecidablePred c.Busy
  | .processPackets _ => inferInstanceAs (Decidable (_ = _))
  | .enqueuePacket .. | .setPacingBitrate _ | .setQueueTimeLimit _ => instDecidableTrue

instance (c : PacingController) : DecidablePred c.Safe
  | .enqueuePacket .. => inferInstanceAs (Decidable (_ = _))
  | .processPackets _ => inferInstanceAs (Decidable (_ → _))
  | .setPacingBitrate _ | .setQueueTimeLimit _ => instDecidableTrue

instance : DecidableRel Near := fun t t' => inferInstanceAs (Decidable (t' - t ≤ kMaxProcessingInterval))

/-- Calls a millisecond apart. -/
theorem wholeMilliseconds_keepUp :
    let w := hundreds 5 [2000] 4000
    w.rate * (w.t₁ - w.t₀) ≤
      byte * (w.closed.sentBytes - w.opened.sentBytes) + byte * largestPacket w.calls +
        w.rate * 1000 :=
  keepsUp_of_shortfall_le (hundreds 5 [2000] 4000) (by decide +kernel) (by decide +kernel)
    (by decide) (by simp [hundreds, calls, first, rest])
    (by unfold InOrder; decide +kernel) (by decide +kernel) (by decide +kernel) (by decide +kernel)

/-- Calls less than half a millisecond apart send nothing. -/
theorem tooOften_sendNothing :
    ¬(hundreds 5 [1499, 1998, 2497, 2996] 3495).KeepsUp ∧
      (hundreds 5 [1499, 1998, 2497, 2996] 3495).closed.sentBytes =
        (hundreds 5 [1499, 1998, 2497, 2996] 3495).opened.sentBytes := by
  refine ⟨fun h => absurd (h ?_ ?_ ?_ ?_ ?_ ?_) ?_, ?_⟩
  · decide
  · simp [hundreds, calls, first, rest]
  · unfold InOrder
    decide +kernel
  · decide +kernel
  · decide +kernel
  · decide +kernel
  · decide +kernel
  · decide +kernel

end Window
end Pacing
end XrtcServer
