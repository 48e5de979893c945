import XrtcServer.PacketQueueInvariants
import Mathlib.Algebra.Order.BigOperators.Group.List
import Mathlib.Tactic.Linarith

/-! The time that the packets of the queue have waited, which the queue keeps as one sum
through pushes, pops and updates. -/
namespace XrtcServer
namespace Pacing
namespace RoundRobinPacketQueue
variable {q : RoundRobinPacketQueue}

@[simp] theorem lastTimeUpdated_updateQueueTime (q : RoundRobinPacketQueue) (now : ℤ) :
    (q.updateQueueTime now).lastTimeUpdated = now := by
  unfold updateQueueTime
  split
  · rename_i h
    exact h.symm
  · rfl

theorem queueTimeSum_updateQueueTime (q : RoundRobinPacketQueue) (now : ℤ) :
    (q.updateQueueTime now).queueTimeSum =
      q.queueTimeSum + (now - q.lastTimeUpdated) * q.sizePackets := by
  unfold updateQueueTime
  split
  · rename_i h
    rw [h, sub_self, zero_mul, add_zero]
  · rfl

/-- A pushed packet brings the times up to date. -/
theorem times_push (q : RoundRobinPacketQueue) (packet : QueuedPacket) :
    (q.push packet).queueTimeSum = (q.updateQueueTime packet.enqueueTime).queueTimeSum ∧
      (q.push packet).lastTimeUpdated = packet.enqueueTime := by
  have hlast := q.lastTimeUpdated_updateQueueTime packet.enqueueTime
  unfold push account
  dsimp only
  split
  · exact ⟨rfl, hlast⟩
  · split
    · exact ⟨rfl, hlast⟩
    · exact ⟨rfl, hlast⟩

/-- A popped packet takes the time that it waited out of the sum. -/
theorem times_pop {q' : RoundRobinPacketQueue} {packet : QueuedPacket}
    (h : q.pop = some (packet, q')) :
    q'.queueTimeSum = q.queueTimeSum - (q.lastTimeUpdated - packet.enqueueTime) ∧
      q'.lastTimeUpdated = q.lastTimeUpdated := by
  simp only [pop, Option.bind_eq_bind, Option.bind_eq_some_iff, Option.pure_def,
    Option.some.injEq] at h
  obtain ⟨_, -, top, -, it, -, h⟩ := h
  obtain ⟨rfl, rfl⟩ := Prod.mk.inj h
  exact ⟨rfl, rfl⟩

/-- Every packet of the queue has the priority of its stream. -/
def Prioritized (q : RoundRobinPacketQueue) (priorityOf : UInt32 → ℤ) : Prop :=
  ∀ p ∈ q.queued, p.priority = priorityOf p.ssrc

/-- With one priority for each stream no packet asks for a better place. -/
theorem Consistent.rekeys_eq_false (h : q.Consistent) {priorityOf : UInt32 → ℤ}
    (hq : q.Prioritized priorityOf) {packet : QueuedPacket}
    (hp : packet.priority = priorityOf packet.ssrc) : q.rekeys packet = false := by
  cases hit : (q.findStream packet.ssrc).priorityIt with
  | none => simp [rekeys, hit]
  | some it =>
    obtain ⟨top, rest, e, hstream, hfind, -, -, -, hpriority⟩ := h.entry hit
    have htop : top ∈ (q.findStream packet.ssrc).packetQueue := hstream ▸ List.mem_cons_self
    have hssrc : top.ssrc = packet.ssrc := (h.findStream packet.ssrc).ssrcs top htop
    have hmem : top ∈ q.queued :=
      (queued_perm q packet.ssrc).mem_iff.mpr (List.mem_append_left _ htop)
    have hkey : e.key.priority = packet.priority := by
      rw [hpriority, hq top hmem, hssrc, hp]
    simp [rekeys, hit, hfind, hkey]

theorem Prioritized.push {priorityOf : UInt32 → ℤ} (hq : q.Prioritized priorityOf)
    {packet : QueuedPacket} (hp : packet.priority = priorityOf packet.ssrc) :
    (q.push packet).Prioritized priorityOf := by
  intro p hmem
  rcases mem_queued_push hmem with rfl | hmem
  · exact hp
  · exact hq p hmem

end RoundRobinPacketQueue

/-- The calls that change the queue. -/
inductive QueueCall
  | push (packet : QueuedPacket)
  | pop
  | updateQueueTime (now : ℤ)

namespace QueueCall

/-- The time that a call is given. -/
def time? : QueueCall → Option ℤ
  | .push packet => some packet.enqueueTime
  | .pop => none
  | .updateQueueTime now => some now

/-- All packets of a stream have one priority. -/
def OnePriority (calls : List QueueCall) (priorityOf : UInt32 → ℤ) : Prop :=
  ∀ packet, .push packet ∈ calls → packet.priority = priorityOf packet.ssrc

end QueueCall

namespace RoundRobinPacketQueue
open QueueCall (OnePriority)
variable {q : RoundRobinPacketQueue} {call : QueueCall} {calls : List QueueCall}
  {priorityOf : UInt32 → ℤ}

/-- A packet is only asked for where there is one. -/
def step (q : RoundRobinPacketQueue) : QueueCall → RoundRobinPacketQueue
  | .push packet => q.push packet
  | .pop =>
    if q.empty then q
    else
      match q.pop with
      | none => q
      | some (_, q) => q
  | .updateQueueTime now => q.updateQueueTime now

/-- A new queue. -/
def start (startTime : ℤ) : RoundRobinPacketQueue := { lastTimeUpdated := startTime }

/-- What is kept in every run with one priority for each stream. -/
structure Ordered (q : RoundRobinPacketQueue) (priorityOf : UInt32 → ℤ) : Prop where
  consistent : q.Consistent
  prioritized : q.Prioritized priorityOf

theorem ordered_start (startTime : ℤ) (priorityOf : UInt32 → ℤ) :
    (start startTime).Ordered priorityOf where
  consistent := (PacketFlow.sound_start startTime).consistent
  prioritized := nofun

/-- A pop takes a packet that comes next, or there is none. -/
theorem Ordered.step_pop (h : q.Ordered priorityOf) :
    (q.queued = [] ∧ q.step .pop = q) ∨
      ∃ p q', q.pop = some (p, q') ∧ q.step .pop = q' ∧ PacketFlow.ComesNext q p ∧
        q.queued.Perm (p :: q'.queued) ∧ q'.Consistent := by
  have hsize := h.consistent.sizePackets
  by_cases hnil : q.queued = []
  · refine Or.inl ⟨hnil, if_pos ?_⟩
    rw [empty, hsize, hnil]
    rfl
  · obtain ⟨p, q', hpop, hnext, hcons, hperm⟩ := h.consistent.pop hnil
    refine Or.inr ⟨p, q', hpop, ?_, hnext, hperm, hcons⟩
    have hne : ¬q.empty = true := by
      intro hempty
      have hzero : q.sizePackets = 0 := of_decide_eq_true hempty
      exact hnil (List.eq_nil_of_length_eq_zero (hsize.symm.trans hzero))
    unfold step
    rw [if_neg hne, hpop]

theorem Ordered.step (h : q.Ordered priorityOf)
    (hc : ∀ packet, call = .push packet → packet.priority = priorityOf packet.ssrc) :
    (q.step call).Ordered priorityOf := by
  cases call with
  | push packet =>
    have hp := hc packet rfl
    exact ⟨h.consistent.push (h.consistent.rekeys_eq_false h.prioritized hp), h.prioritized.push hp⟩
  | pop =>
    rcases h.step_pop with ⟨-, heq⟩ | ⟨p, q', -, heq, -, hperm, hcons⟩
    · rw [heq]
      exact h
    · rw [heq]
      exact ⟨hcons, fun p' hp' => h.prioritized p' (hperm.mem_iff.mpr (List.mem_cons_of_mem _ hp'))⟩
  | updateQueueTime now =>
    refine ⟨h.consistent.updateQueueTime now, fun p hp => h.prioritized p ?_⟩
    rwa [RoundRobinPacketQueue.step, queued_updateQueueTime] at hp

/-- How long the packets have waited at the last update. -/
def waits (q : RoundRobinPacketQueue) : List ℤ :=
  q.queued.map fun p => q.lastTimeUpdated - p.enqueueTime

/-- The sum is that of the times of the packets in the queue, and the average is their mean in
whole microseconds. -/
structure TimesKept (q : RoundRobinPacketQueue) : Prop where
  sum : q.queueTimeSum = q.waits.sum
  waits_nonneg : ∀ wait ∈ q.waits, 0 ≤ wait
  average : q.averageQueueTime = q.waits.sum / q.waits.length
  average_nonneg : 0 ≤ q.averageQueueTime

/-- The invariant of the times: no packet was enqueued after the last update. -/
structure Timed (q : RoundRobinPacketQueue) (priorityOf : UInt32 → ℤ) : Prop extends
    Ordered q priorityOf where
  sum : q.queueTimeSum = q.waits.sum
  past : ∀ p ∈ q.queued, p.enqueueTime ≤ q.lastTimeUpdated

theorem timed_start (startTime : ℤ) (priorityOf : UInt32 → ℤ) :
    (start startTime).Timed priorityOf where
  toOrdered := ordered_start startTime priorityOf
  sum := rfl
  past := nofun

theorem Timed.timesKept (h : q.Timed priorityOf) : q.TimesKept := by
  have hnonneg : ∀ wait ∈ q.waits, 0 ≤ wait := by
    intro wait hwait
    obtain ⟨p, hp, rfl⟩ := List.mem_map.mp hwait
    exact sub_nonneg.mpr (h.past p hp)
  have hlength : (q.waits.length : ℤ) = q.sizePackets := by
    rw [waits, List.length_map, h.consistent.sizePackets]
  have haverage : q.averageQueueTime = q.waits.sum / q.waits.length := by
    unfold averageQueueTime empty
    split
    · rename_i hempty
      rw [hlength, of_decide_eq_true hempty, Nat.cast_zero, Int.ediv_zero]
    · rw [hlength, h.sum]
  refine ⟨h.sum, hnonneg, haverage, ?_⟩
  rw [haverage]
  exact Int.ediv_nonneg (List.sum_nonneg hnonneg) (Int.natCast_nonneg _)

/-- Time that passes adds to the wait of each packet. -/
theorem sum_waits_add (l : List QueuedPacket) (t t' : ℤ) :
    (l.map fun p => t' - p.enqueueTime).sum =
      (l.map fun p => t - p.enqueueTime).sum + (t' - t) * l.length := by
  induction l with
  | nil => simp
  | cons p l ih =>
    rw [List.map_cons, List.sum_cons, ih, List.map_cons, List.sum_cons, List.length_cons,
      Nat.cast_succ]
    linarith

theorem Timed.updateQueueTime (h : q.Timed priorityOf) {now : ℤ}
    (hnow : ∀ p ∈ q.queued, p.enqueueTime ≤ now) : (q.updateQueueTime now).Timed priorityOf := by
  have hordered : (q.step (.updateQueueTime now)).Ordered priorityOf := h.toOrdered.step nofun
  refine ⟨hordered, ?_, ?_⟩
  · rw [queueTimeSum_updateQueueTime, waits, queued_updateQueueTime,
      lastTimeUpdated_updateQueueTime, sum_waits_add _ q.lastTimeUpdated now,
      h.consistent.sizePackets, h.sum]
    rfl
  · rw [queued_updateQueueTime, lastTimeUpdated_updateQueueTime]
    exact hnow

/-- One call at a time that is not before any packet was enqueued. -/
theorem Timed.step (h : q.Timed priorityOf)
    (hc : ∀ packet, call = .push packet → packet.priority = priorityOf packet.ssrc)
    (hnow : ∀ now, call.time? = some now → ∀ p ∈ q.queued, p.enqueueTime ≤ now) :
    (q.step call).Timed priorityOf := by
  have hordered := h.toOrdered.step hc
  cases call with
  | push packet =>
    have hupdate := h.updateQueueTime (hnow _ rfl)
    have hperm := queued_push (h.consistent.rekeys_eq_false h.prioritized (hc packet rfl))
    obtain ⟨hsum, hlast⟩ := times_push q packet
    refine ⟨hordered, ?_, fun p hp => ?_⟩
    · show (q.push packet).queueTimeSum = (q.push packet).waits.sum
      rw [hsum, hupdate.sum, waits, waits, hlast, (hperm.map _).sum_eq, List.map_cons,
        List.sum_cons, sub_self, zero_add, queued_updateQueueTime, lastTimeUpdated_updateQueueTime]
    · show p.enqueueTime ≤ (q.push packet).lastTimeUpdated
      rw [hlast]
      rcases mem_queued_push hp with rfl | hp
      · exact le_rfl
      · exact hnow _ rfl p hp
  | pop =>
    rcases h.toOrdered.step_pop with ⟨-, heq⟩ | ⟨p, q', hpop, heq, -, hperm, -⟩
    · rw [heq]
      exact h
    · obtain ⟨hsum, hlast⟩ := times_pop hpop
      rw [heq] at hordered ⊢
      refine ⟨hordered, ?_, fun p' hp' => ?_⟩
      · have hwaits := (hperm.map fun p => q.lastTimeUpdated - p.enqueueTime).sum_eq
        rw [List.map_cons, List.sum_cons] at hwaits
        rw [hsum, h.sum, waits, waits, hlast]
        omega
      · rw [hlast]
        exact h.past p' (hperm.mem_iff.mpr (List.mem_cons_of_mem _ hp'))
  | updateQueueTime now => exact h.updateQueueTime (hnow now rfl)

/-- What a step leaves in the queue was there or is pushed. -/
theorem Ordered.mem_queued_step (h : q.Ordered priorityOf) {p : QueuedPacket}
    (hp : p ∈ (q.step call).queued) : p ∈ q.queued ∨ call = .push p := by
  cases call with
  | push packet =>
    rcases mem_queued_push hp with rfl | hp
    · exact Or.inr rfl
    · exact Or.inl hp
  | pop =>
    rcases h.step_pop with ⟨-, heq⟩ | ⟨p', q', -, heq, -, hperm, -⟩
    · exact Or.inl (heq ▸ hp)
    · exact Or.inl (hperm.mem_iff.mpr (List.mem_cons_of_mem _ (heq ▸ hp)))
  | updateQueueTime now => exact Or.inl (by simpa [RoundRobinPacketQueue.step] using hp)

theorem Timed.run (h : q.Timed priorityOf) (hone : OnePriority calls priorityOf)
    (hordered : (calls.filterMap QueueCall.time?).Pairwise (· ≤ ·))
    (hlater : ∀ now ∈ calls.filterMap QueueCall.time?, ∀ p ∈ q.queued, p.enqueueTime ≤ now) :
    (Runs.run RoundRobinPacketQueue.step q calls).Timed priorityOf := by
  induction calls generalizing q with
  | nil => exact h
  | cons call calls ih =>
    have hcall : ∀ packet, call = .push packet → packet.priority = priorityOf packet.ssrc := by
      rintro packet rfl
      exact hone packet List.mem_cons_self
    have hnow : ∀ now, call.time? = some now → ∀ p ∈ q.queued, p.enqueueTime ≤ now := by
      intro now htime
      exact hlater now (List.mem_filterMap.mpr ⟨call, List.mem_cons_self, htime⟩)
    have hsub : List.Sublist (calls.filterMap QueueCall.time?)
        ((call :: calls).filterMap QueueCall.time?) := (List.sublist_cons_self _ _).filterMap _
    refine ih (h.step hcall hnow) (fun packet hp => hone packet (List.mem_cons_of_mem _ hp))
      (hordered.sublist hsub) fun now hmem p hp => ?_
    rcases h.toOrdered.mem_queued_step hp with hp | rfl
    · exact hlater now (hsub.subset hmem) p hp
    · exact (List.pairwise_cons.mp hordered).1 now hmem

/-- In every run at times that do not go back and with one priority for each stream the sum of
the times is kept. -/
theorem timesKept_run (startTime : ℤ) (hone : OnePriority calls priorityOf)
    (hordered : (calls.filterMap QueueCall.time?).Pairwise (· ≤ ·)) :
    (Runs.run step (start startTime) calls).TimesKept :=
  ((timed_start startTime priorityOf).run hone hordered nofun).timesKept

/-- Two streams, an update between the packets and a pop. -/
def twoStreams : List QueueCall :=
  [.push ⟨3, 100, 0, ⟨1, 900, 0⟩⟩, .push ⟨1, 150, 1, ⟨2, 80, 0⟩⟩, .updateQueueTime 400, .pop,
    .push ⟨3, 700, 2, ⟨1, 900, 0⟩⟩]

theorem onePriority_twoStreams : OnePriority twoStreams fun ssrc => if ssrc = 1 then 3 else 1 := by
  intro packet hp
  simp only [twoStreams, List.mem_cons, QueueCall.push.injEq, List.not_mem_nil, or_false,
    reduceCtorEq, false_or] at hp
  rcases hp with rfl | rfl | rfl <;> rfl

theorem timesKept_twoStreams : (Runs.run step (start 0) twoStreams).TimesKept :=
  timesKept_run 0 onePriority_twoStreams (by decide)

example : (Runs.run step (start 0) twoStreams).averageQueueTime = 300 := by decide

end RoundRobinPacketQueue
end Pacing
end XrtcServer
