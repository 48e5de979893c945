import Mathlib.Algebra.Order.Ring.Abs
import Mathlib.Data.Rat.Cast.Order
import Mathlib.Tactic.Linarith
import Mathlib.Tactic.NormNum
import XrtcServer.RtcpReceiver
import XrtcServer.RtcpSender

/-! The round trip time from a sender report to the report block that answers it. Times are
counted in units of 2^-32 s, and an NTP time is such a count modulo 2^64. The compact form drops
16 bits at each end. -/
namespace XrtcServer
namespace Rtcp

/-- The reading of an NTP clock after so many units. -/
def NtpTime.ofUnits (n : ℕ) : NtpTime := ⟨UInt32.ofNat (n / 2^32), UInt32.ofNat n⟩

/-- The counters of a stream that `GetFeedbackState` reads. -/
structure StreamDataCounters where
  packets : UInt32 := 0
  payloadBytes : ℕ := 0

/-- `RTCPReceiver::NTP` and what `GetFeedbackState` makes of it. `valid` is `NtpTime::Valid`. -/
def RTCPReceiver.getFeedbackState (valid : NtpTime → Bool) (receiverOnly : Bool)
    (rtpStats rtxRtpStats : StreamDataCounters) (s : RTCPReceiver) : FeedbackState :=
  let state : FeedbackState :=
    if receiverOnly then {}
    else
      { packetsSent := rtpStats.packets + rtxRtpStats.packets
        mediaBytesSent := rtpStats.payloadBytes + rtxRtpStats.payloadBytes }
  let arrival := s.lastReceivedSrNtp.getD ⟨0, 0⟩
  let received := s.remoteSenderNtpTime.getD ⟨0, 0⟩
  if valid arrival then
    { state with
      lastRrNtpSecs := arrival.seconds
      lastRrNtpFrac := arrival.fractions
      remoteSr := (received.seconds &&& 0x0000ffff) <<< 16 + (received.fractions &&& 0xffff0000) >>> 16 }
  else state

section Compact

theorem fractions_shiftRight_lt (t : NtpTime) : t.fractions.toNat >>> 16 < 2^16 := by
  have hlt := t.fractions.toNat_lt
  rw [Nat.shiftRight_eq_div_pow]
  omega

theorem toNat_compactNtp (t : NtpTime) : (compactNtp t).toNat =
    (t.seconds.toNat % 2^16) <<< 16 + t.fractions.toNat >>> 16 := by
  have hseconds : t.seconds.toNat <<< 16 % 2^32 = (t.seconds.toNat % 2^16) <<< 16 := by
    rw [Nat.shiftLeft_eq, Nat.shiftLeft_eq]
    omega
  have hsixteen : (16 : UInt32).toNat % 32 = 16 := rfl
  rw [compactNtp, UInt32.toNat_or, UInt32.toNat_shiftLeft, UInt32.toNat_shiftRight, hsixteen, hseconds,
    Nat.shiftLeft_add_eq_or_of_lt (fractions_shiftRight_lt t)]

/-- The compact form as `GetFeedbackState` and `CreateReportBlocks` compute it. -/
theorem masked_eq_compactNtp (t : NtpTime) :
    (t.seconds &&& 0x0000ffff) <<< 16 + (t.fractions &&& 0xffff0000) >>> 16 = compactNtp t := by
  have hseconds : (t.seconds &&& 0x0000ffff).toNat = t.seconds.toNat % 2^16 := by
    rw [UInt32.toNat_and]
    exact Nat.and_two_pow_sub_one_eq_mod _ 16
  have hfractions : (t.fractions &&& 0xffff0000).toNat >>> 16 = t.fractions.toNat >>> 16 := by
    have hmask : (0xffff0000 : UInt32).toNat >>> 16 = 2^16 - 1 := rfl
    have hlt := fractions_shiftRight_lt t
    rw [UInt32.toNat_and, Nat.shiftRight_and_distrib, hmask, Nat.and_two_pow_sub_one_eq_mod,
      Nat.mod_eq_of_lt hlt]
  have hsixteen : (16 : UInt32).toNat % 32 = 16 := rfl
  have hlt := fractions_shiftRight_lt t
  apply UInt32.toNat_inj.mp
  rw [toNat_compactNtp, UInt32.toNat_add, UInt32.toNat_shiftLeft, UInt32.toNat_shiftRight, hsixteen,
    hseconds, hfractions, Nat.shiftLeft_eq]
  omega

theorem compactNtp_ofUnits (n : ℕ) : compactNtp (.ofUnits n) = UInt32.ofNat (n / 2^16) := by
  apply UInt32.toNat_inj.mp
  rw [toNat_compactNtp, NtpTime.ofUnits, Nat.shiftLeft_eq, Nat.shiftRight_eq_div_pow,
    UInt32.toNat_ofNat', UInt32.toNat_ofNat', UInt32.toNat_ofNat']
  omega

/-- A difference that is at least minus one, and the machine number that holds it. -/
theorem toNat_difference {x : UInt32} {d : ℕ} (h : x + 1 = UInt32.ofNat d) (hd : d ≤ 2^31 + 1) :
    d = 0 ∧ x.toNat = 2^32 - 1 ∨ x.toNat + 1 = d := by
  have hsum := congrArg UInt32.toNat h
  have hlt := x.toNat_lt
  rw [UInt32.toNat_add, UInt32.toNat_ofNat', UInt32.toNat_one] at hsum
  omega

end Compact

section Rounding

theorem divideRoundToNearest_spec (x : ℕ) :
    2 * x ≤ 2 * 65536 * divideRoundToNearest x (1 <<< 16) + 65536 ∧
      2 * 65536 * divideRoundToNearest x (1 <<< 16) ≤ 2 * x + 65536 := by
  have hdivisor : (1 <<< 16 : ℕ) = 65536 := rfl
  rw [divideRoundToNearest, hdivisor]
  split_ifs <;> omega

theorem one_le_compactNtpRttToMs (x : UInt32) : 1 ≤ compactNtpRttToMs x := by
  unfold compactNtpRttToMs
  split
  · exact le_rfl
  · exact le_max_right _ _

/-- An interval that is known up to two compact units is known up to a millisecond. -/
theorem compactNtpRttToMs_near {x : UInt32} {d rtt : ℕ} (h : x + 1 = UInt32.ofNat d)
    (hbelow : rtt < 2^16 * (d + 1)) (habove : 2^16 * d < rtt + 2^16 * 3) (hrtt : rtt ≤ (2^31 - 1) * 2^16) :
    2^32 * compactNtpRttToMs x ≤ 1000 * rtt + 2^32 ∧ 1000 * rtt ≤ 2^32 * compactNtpRttToMs x + 2^32 := by
  have hd : d ≤ 2^31 + 1 := by omega
  have hmax : (0x80000000 : UInt32).toNat = 2^31 := rfl
  unfold compactNtpRttToMs
  rcases toNat_difference h hd with ⟨rfl, hx⟩ | hx
  · rw [if_pos (UInt32.lt_iff_toNat_lt.mpr (by rw [hmax, hx]; norm_num))]
    omega
  · rw [if_neg (fun hlt => absurd (UInt32.lt_iff_toNat_lt.mp hlt) (by rw [hmax]; omega))]
    have hround := divideRoundToNearest_spec (x.toNat * 1000)
    generalize divideRoundToNearest (x.toNat * 1000) (1 <<< 16) = q at hround
    omega

end Rounding

section Exchange

/-- A report block that answers the last sender report says how long it took. -/
theorem createReportBlocks_answers {call : Call} {valid : NtpTime → Bool} {receiverOnly : Bool}
    {rtpStats rtxRtpStats : StreamDataCounters} {s : RTCPReceiver} {received arrival : NtpTime}
    (hreceived : s.remoteSenderNtpTime = some received) (harrival : s.lastReceivedSrNtp = some arrival)
    (hvalid : valid arrival = true) (hnonzero : arrival ≠ ⟨0, 0⟩)
    (hstate : call.feedbackState = s.getFeedbackState valid receiverOnly rtpStats rtxRtpStats)
    {block : ReportBlock} (hblock : block ∈ RTCPSender.createReportBlocks call) :
    block.lastSr = compactNtp received ∧
      block.delaySinceLastSr = compactNtp call.ntpNow - compactNtp arrival := by
  have hsecs : call.feedbackState.lastRrNtpSecs = arrival.seconds := by
    simp [hstate, RTCPReceiver.getFeedbackState, harrival, hvalid]
  have hfrac : call.feedbackState.lastRrNtpFrac = arrival.fractions := by
    simp [hstate, RTCPReceiver.getFeedbackState, harrival, hvalid]
  have hsr : call.feedbackState.remoteSr = compactNtp received := by
    simp [hstate, RTCPReceiver.getFeedbackState, harrival, hreceived, hvalid, ← masked_eq_compactNtp]
  have hset : arrival.seconds ≠ 0 ∨ arrival.fractions ≠ 0 := by
    by_contra hzero
    rw [not_or, not_not, not_not] at hzero
    exact hnonzero (by cases arrival; simp_all)
  unfold RTCPSender.createReportBlocks at hblock
  dsimp only at hblock
  rw [hsecs, hfrac, hsr, masked_eq_compactNtp arrival] at hblock
  split at hblock
  · obtain ⟨b, -, rfl⟩ := List.mem_map.mp hblock
    exact ⟨rfl, rfl⟩
  · rename_i hnot
    rw [not_and_or, not_not] at hnot
    rcases hnot with hempty | hnot
    · rw [hempty] at hblock
      cases hblock
    · exact absurd hset hnot

/-- The report blocks that are built `hold` units after the arrival of a sender report, with
the times of its sender's clock and of the receiver's. -/
def answer (valid : NtpTime → Bool) (receiverOnly : Bool) (rtpStats rtxRtpStats : StreamDataCounters)
    (receiver : RTCPReceiver) (call : Call) (sent arrived hold : ℕ) : List ReportBlock :=
  let receiver := { receiver with
    remoteSenderNtpTime := some (.ofUnits sent)
    lastReceivedSrNtp := some (.ofUnits arrived) }
  RTCPSender.createReportBlocks { call with
    feedbackState := receiver.getFeedbackState valid receiverOnly rtpStats rtxRtpStats
    ntpNow := .ofUnits (arrived + hold) }

/-- The clock of the sender when the answer arrives. -/
def senderClock (clock : Clock) (sent hold rtt : ℕ) : Clock :=
  { clock with convertTimestampToNtpTime := fun _ => .ofUnits (sent + hold + rtt) }

/-- The difference that `HandleReportBlock` takes is that of the compact times on both clocks. -/
theorem difference_add_one (sent arrived hold rtt : ℕ) :
    compactNtp (.ofUnits (sent + hold + rtt)) - compactNtp (.ofUnits sent) -
        (compactNtp (.ofUnits (arrived + hold)) - compactNtp (.ofUnits arrived)) + 1 =
      UInt32.ofNat ((sent + hold + rtt) / 2^16 + arrived / 2^16 + 1 - sent / 2^16 - (arrived + hold) / 2^16) := by
  have hsum : ((sent + hold + rtt) / 2^16 + arrived / 2^16 + 1 - sent / 2^16 - (arrived + hold) / 2^16) +
      (sent / 2^16 + (arrived + hold) / 2^16) = (sent + hold + rtt) / 2^16 + arrived / 2^16 + 1 := by
    omega
  have hcast := congrArg UInt32.ofNat hsum
  rw [UInt32.ofNat_add, UInt32.ofNat_add, UInt32.ofNat_add, UInt32.ofNat_add] at hcast
  simp only [compactNtp_ofUnits]
  grind

/-- The round trip time that is told of an answered sender report is right up to a millisecond,
for any clocks, any hold time and round trips up to 2^31 - 1 compact units. -/
theorem handleReportBlock_answer {valid : NtpTime → Bool}
    (hvalid : ∀ t, valid t = true ↔ t ≠ ⟨0, 0⟩) (receiverOnly : Bool)
    (rtpStats rtxRtpStats : StreamDataCounters) (receiver : RTCPReceiver) (call : Call)
    {sent arrived hold rtt : ℕ} (hsent : compactNtp (.ofUnits sent) ≠ 0)
    (harrived : NtpTime.ofUnits arrived ≠ ⟨0, 0⟩) (hrtt : rtt ≤ (2^31 - 1) * 2^16) (clock : Clock) :
    ∀ block ∈ answer valid receiverOnly rtpStats rtxRtpStats receiver call sent arrived hold,
      (∀ s : RTCPReceiver, s.isRegisteredSsrc block.sourceSsrc = true →
        s.handleReportBlock (senderClock clock sent hold rtt) block =
          { s with lastReceivedRb := some clock.currentTime }.tell
            (.networkInfo (RTCPReceiver.rttMs (senderClock clock sent hold rtt) block) block.packetsLost
              block.fractionLost block.jitter)) ∧
      1 ≤ RTCPReceiver.rttMs (senderClock clock sent hold rtt) block ∧
      |(RTCPReceiver.rttMs (senderClock clock sent hold rtt) block : ℚ) - rtt * 1000 / 2^32| ≤ 1 := by
  intro block hblock
  obtain ⟨hlast, hdelay⟩ := createReportBlocks_answers rfl rfl ((hvalid _).mpr harrived) harrived rfl hblock
  refine ⟨fun s hregistered => ?_, one_le_compactNtpRttToMs _, ?_⟩
  · unfold RTCPReceiver.handleReportBlock
    rw [if_neg (not_not.mpr hregistered), if_pos (by rw [hlast]; exact hsent)]
    rfl
  · have hdiff := difference_add_one sent arrived hold rtt
    have hnear := compactNtpRttToMs_near hdiff (by omega) (by omega) hrtt
    have hrtt : RTCPReceiver.rttMs (senderClock clock sent hold rtt) block = compactNtpRttToMs
        (compactNtp (.ofUnits (sent + hold + rtt)) - compactNtp (.ofUnits sent) -
          (compactNtp (.ofUnits (arrived + hold)) - compactNtp (.ofUnits arrived))) := by
      rw [RTCPReceiver.rttMs, hlast, hdelay]
      rfl
    rw [← hrtt] at hnear
    have hbelow : (2^32 * RTCPReceiver.rttMs (senderClock clock sent hold rtt) block : ℚ) ≤ 1000 * rtt + 2^32 := by
      exact_mod_cast hnear.1
    have habove : (1000 * rtt : ℚ) ≤ 2^32 * RTCPReceiver.rttMs (senderClock clock sent hold rtt) block + 2^32 := by
      exact_mod_cast hnear.2
    rw [abs_le]
    constructor <;> linarith

section Instances

/-- Only the zero time is not valid. -/
def nonzeroValid (t : NtpTime) : Bool := t ≠ ⟨0, 0⟩

def oneBlock : ReportBlock := ⟨5, 0, 0, 0, 0, 0, 0, by decide⟩

def idleReceiver : RTCPReceiver := { audio := false, registeredSsrcs := [5], rtpRtcpModuleObserver := some [] }

def blockCall : Call := { packetType := kRtcpRr, reportBlocks := [oneBlock] }

def stoppedClock : Clock := ⟨0, ⟨0, 0⟩, fun _ => ⟨0, 0⟩⟩

/-- What the receiver answers half a second after a report that was sent at one second. -/
def halfBlock : ReportBlock := { oneBlock with lastSr := 65536, delaySinceLastSr := 32768 }

/-- Half a second, after the receiver has held the report for as long. -/
theorem handleReportBlock_answer_half :
    answer nonzeroValid true {} {} idleReceiver blockCall (2^32) (2^33) (2^31) = [halfBlock] ∧
      |(RTCPReceiver.rttMs (senderClock stoppedClock (2^32) (2^31) (2^31)) halfBlock : ℚ) -
        (2^31 : ℕ) * 1000 / 2^32| ≤ 1 := by
  have hanswer : answer nonzeroValid true {} {} idleReceiver blockCall (2^32) (2^33) (2^31) = [halfBlock] := by rfl
  have hmem : halfBlock ∈ answer nonzeroValid true {} {} idleReceiver blockCall (2^32) (2^33) (2^31) := by
    rw [hanswer]
    exact List.mem_singleton_self _
  have hsent : compactNtp (.ofUnits (2^32)) ≠ 0 := by decide
  have harrived : NtpTime.ofUnits (2^33) ≠ ⟨0, 0⟩ := by decide
  have hrtt : 2^31 ≤ (2^31 - 1) * 2^16 := by norm_num
  obtain ⟨-, -, hnear⟩ := handleReportBlock_answer (fun t => decide_eq_true_iff) true {} {} idleReceiver blockCall
    hsent harrived hrtt stoppedClock halfBlock hmem
  exact ⟨hanswer, hnear⟩

/-- The last unit below 2^31 compact units reads as one millisecond, where the times fall so in
their units; and a report that arrives when the receiver's clock reads zero is not answered. -/
theorem answer_wraps :
    (∃ block ∈ answer nonzeroValid true {} {} idleReceiver blockCall (2^16 + 65535) (2^16) 65535,
      RTCPReceiver.rttMs (senderClock stoppedClock (2^16 + 65535) 65535 (2^47 - 1)) block = 1 ∧
      2^47 - 1 < 2^31 * 2^16 ∧ ¬ |(1 : ℚ) - (2^47 - 1 : ℕ) * 1000 / 2^32| ≤ 1) ∧
    ∀ block ∈ answer nonzeroValid true {} {} idleReceiver blockCall (2^32) 0 (2^31),
      (idleReceiver.handleReportBlock (senderClock stoppedClock (2^32) (2^31) (2^31))
        block).rtpRtcpModuleObserver = some [] := by
  constructor
  · refine ⟨{ oneBlock with lastSr := 1, delaySinceLastSr := 0 }, ?_, by decide, by norm_num, ?_⟩
    · have hanswer : answer nonzeroValid true {} {} idleReceiver blockCall (2^16 + 65535) (2^16) 65535 =
          [{ oneBlock with lastSr := 1, delaySinceLastSr := 0 }] := by rfl
      rw [hanswer]
      exact List.mem_singleton_self _
    · rw [abs_le]
      norm_num
  · have hanswer : answer nonzeroValid true {} {} idleReceiver blockCall (2^32) 0 (2^31) = [oneBlock] := by rfl
    rw [hanswer]
    intro block hblock
    rw [List.mem_singleton.mp hblock]
    rfl

end Instances

end Exchange

end Rtcp
end XrtcServer
