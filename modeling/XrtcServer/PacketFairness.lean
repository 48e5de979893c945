import XrtcServer.QueueTimes
import XrtcServer.LeastServed

/-! Fairness of the packet queue: it serves the stream that has sent least, and what a stream
has sent is raised when it is far behind. -/
namespace XrtcServer
namespace Pacing
open Containers

theorem StreamPrioKey.size_le {a b : StreamPrioKey} (h : a ≤ b) (hp : a.priority = b.priority) :
    a.size ≤ b.size := by
  rcases Prod.Lex.toLex_le_toLex.mp (show a.toProd ≤ b.toProd from h) with hlt | ⟨-, hle⟩
  · exact absurd hp hlt.ne
  · exact hle

/-- A packet as a service of its stream. -/
def QueuedPacket.service (p : QueuedPacket) : LeastServed.Service UInt32 := ⟨p.ssrc, p.packetSize⟩

namespace RoundRobinPacketQueue
variable {q : RoundRobinPacketQueue} {priority : ℤ}

/-- The bytes that a stream has sent, or is held to have sent. -/
def streamSize (q : RoundRobinPacketQueue) (ssrc : UInt32) : ℕ := (q.findStream ssrc).size

def HasPacket (q : RoundRobinPacketQueue) (ssrc : UInt32) : Prop := ∃ p ∈ q.queued, p.ssrc = ssrc

/-- With one priority for all packets the entries are sorted by the sizes of their streams, and
no stream has sent more than the largest size. -/
structure Keyed (q : RoundRobinPacketQueue) (priority : ℤ) : Prop extends
    Ordered q fun _ => priority where
  keys : ∀ e ∈ q.streamPriorities.entries, e.key.size = q.streamSize e.value
  bounded : ∀ ssrc, q.streamSize ssrc ≤ q.maxSize

theorem keyed_start (startTime : ℤ) (priority : ℤ) : (start startTime).Keyed priority where
  toOrdered := ordered_start startTime _
  keys := nofun
  bounded _ := Nat.zero_le _

theorem streamSize_insert {q q' : RoundRobinPacketQueue} {place : UInt32} {stream : Stream}
    (h : q'.streams = q.streams.insert place stream) (ssrc : UInt32) :
    q'.streamSize ssrc = if ssrc = place then stream.size else q.streamSize ssrc := by
  unfold streamSize findStream
  rw [h]
  split
  · rename_i heq
    rw [heq, AList.lookup_insert]
    rfl
  · rename_i hne
    rw [AList.lookup_insert_ne hne]

theorem maxSize_updateQueueTime (q : RoundRobinPacketQueue) (now : ℤ) :
    (q.updateQueueTime now).maxSize = q.maxSize := by
  unfold updateQueueTime
  split <;> rfl

theorem streamSize_updateQueueTime (q : RoundRobinPacketQueue) (now : ℤ) (ssrc : UInt32) :
    (q.updateQueueTime now).streamSize ssrc = q.streamSize ssrc := by
  unfold updateQueueTime
  split <;> rfl

theorem streamPriorities_updateQueueTime (q : RoundRobinPacketQueue) (now : ℤ) :
    (q.updateQueueTime now).streamPriorities = q.streamPriorities := by
  unfold updateQueueTime
  split <;> rfl

theorem maxSize_push (q : RoundRobinPacketQueue) (packet : QueuedPacket) :
    (q.push packet).maxSize = q.maxSize := by
  have h := q.maxSize_updateQueueTime packet.enqueueTime
  unfold push account
  dsimp only
  split_ifs <;> exact h

/-- A pushed packet does not count before it is popped. -/
theorem streamSize_push {packet : QueuedPacket} (hr : q.rekeys packet = false) (ssrc : UInt32) :
    (q.push packet).streamSize ssrc = q.streamSize ssrc := by
  obtain ⟨it, hstreams⟩ := streams_push hr
  rw [streamSize_insert hstreams]
  split
  · rename_i heq
    rw [heq]
    rfl
  · rfl

theorem Keyed.push (h : q.Keyed priority) {packet : QueuedPacket} (hp : packet.priority = priority) :
    (q.push packet).Keyed priority := by
  have hr := h.consistent.rekeys_eq_false h.prioritized hp
  refine ⟨⟨h.consistent.push hr, h.prioritized.push hp⟩, fun e he => ?_, fun ssrc => ?_⟩
  · rw [streamSize_push hr]
    cases hit : (q.findStream packet.ssrc).priorityIt with
    | none =>
      rw [RoundRobinPacketQueue.push_unscheduled hit] at he
      rcases Multimap.mem_emplace.mp he with rfl | he
      · rfl
      · exact h.keys e he
    | some it =>
      rw [RoundRobinPacketQueue.push_scheduled hit hr, streamPriorities_account] at he
      exact h.keys e he
  · rw [streamSize_push hr, maxSize_push]
    exact h.bounded ssrc

/-- What has packets has an entry with their priority. -/
theorem Keyed.entry_of_hasPacket (h : q.Keyed priority) {ssrc : UInt32} (hp : q.HasPacket ssrc) :
    ∃ e ∈ q.streamPriorities.entries, e.value = ssrc ∧ e.key.priority = priority := by
  obtain ⟨p, hmem, rfl⟩ := hp
  obtain ⟨place, stream, hl, hp⟩ := mem_queued.mp hmem
  have hok := h.consistent.streams place stream hl
  obtain ⟨top, rest, hq⟩ := List.exists_cons_of_ne_nil (List.ne_nil_of_mem hp)
  obtain ⟨e, he, -, hvalue, hpriority⟩ := hok.scheduled top (by rw [hq]; rfl)
  have htop : top ∈ stream.packetQueue := hq ▸ List.mem_cons_self
  exact ⟨e, he, hvalue.trans (hok.ssrcs p hp).symm,
    hpriority.trans (h.prioritized top (mem_queued.mpr ⟨place, stream, hl, htop⟩))⟩

/-- A rescheduled stream has an entry with its size. -/
theorem mem_reschedule {priorities : Multimap StreamPrioKey UInt32} {stream : Stream}
    {e : Entry StreamPrioKey UInt32} (h : e ∈ (reschedule priorities stream).1.entries) :
    e ∈ priorities.entries ∨ e.value = stream.ssrc ∧ e.key.size = stream.size := by
  unfold reschedule at h
  split at h
  · exact Or.inl h
  · rcases Multimap.mem_emplace.mp h with rfl | h
    · exact Or.inr ⟨rfl, rfl⟩
    · exact Or.inl h

/-- A pop serves a stream that has sent least of those with packets. -/
structure Pops (q : RoundRobinPacketQueue) (p : QueuedPacket) (q' : RoundRobinPacketQueue) : Prop
    where
  hasPacket : q.HasPacket p.ssrc
  least : ∀ ssrc, q.HasPacket ssrc → q.streamSize p.ssrc ≤ q.streamSize ssrc
  size : q'.streamSize p.ssrc =
    max (q.streamSize p.ssrc + p.packetSize) (q.maxSize - kMaxLeadingSize)
  others : ∀ ssrc, ssrc ≠ p.ssrc → q'.streamSize ssrc = q.streamSize ssrc
  maxSize : q'.maxSize = max (q'.streamSize p.ssrc) q.maxSize

/-- The stream at the head of the priorities has been sent the least. -/
theorem Keyed.streamSize_le_of_head (h : q.Keyed priority) {e : Entry StreamPrioKey UInt32}
    (hhead : q.streamPriorities.entries.head? = some e) (hhas : q.HasPacket e.value) {ssrc : UInt32}
    (hp : q.HasPacket ssrc) : q.streamSize e.value ≤ q.streamSize ssrc := by
  have he : e ∈ q.streamPriorities.entries := List.mem_of_mem_head? hhead
  obtain ⟨e', he', rfl, hpriority'⟩ := h.entry_of_hasPacket hp
  obtain ⟨e'', he'', hvalue, hpriority⟩ := h.entry_of_hasPacket hhas
  have heq : e = e'' := by
    have h₁ := h.consistent.priorityIt_eq he
    have h₂ := h.consistent.priorityIt_eq he''
    rw [hvalue] at h₂
    exact h.consistent.wellFormed.eq_of_id he he'' (Option.some.inj (h₁.symm.trans h₂))
  subst heq
  have hle := StreamPrioKey.size_le (h.consistent.wellFormed.head_le hhead he') (hpriority.trans hpriority'.symm)
  rwa [h.keys e he, h.keys e' he'] at hle

theorem Keyed.pop (h : q.Keyed priority) {p : QueuedPacket} {q' : RoundRobinPacketQueue}
    (hpop : q.pop = some (p, q')) (hq' : q'.Ordered fun _ => priority) :
    q.Pops p q' ∧ q'.Keyed priority := by
  simp only [RoundRobinPacketQueue.pop, getHighestPriorityStream, Option.bind_eq_bind,
    Option.bind_eq_some_iff, Option.pure_def, Option.some.injEq] at hpop
  obtain ⟨_, ⟨e, hhead, stream, hl, rfl⟩, top, htop, it, hit, hpop⟩ := hpop
  obtain ⟨rfl, hq⟩ := Prod.mk.inj hpop
  have hmem : top ∈ stream.packetQueue := List.mem_of_mem_head? htop
  have he : e ∈ q.streamPriorities.entries := List.mem_of_mem_head? hhead
  have hok := h.consistent.streams e.value stream hl
  have hssrc := hok.ssrcs top hmem
  have hold : q.streamSize top.ssrc = stream.size := by
    rw [streamSize, findStream, hssrc, hl]
    rfl
  have hhas : q.HasPacket top.ssrc := ⟨top, mem_queued.mpr ⟨_, _, hl, hmem⟩, rfl⟩
  have hnew (ssrc : UInt32) : q'.streamSize ssrc = if ssrc = top.ssrc then
      max (q.streamSize top.ssrc + top.packetSize) (q.maxSize - kMaxLeadingSize)
      else q.streamSize ssrc := by
    obtain ⟨stream', hstreams, hsize⟩ : ∃ stream', q'.streams = q.streams.insert e.value stream' ∧
        stream'.size = max (stream.size + top.packetSize) (q.maxSize - kMaxLeadingSize) :=
      ⟨_, congrArg streams hq.symm, rfl⟩
    rw [hold, hssrc, streamSize_insert hstreams, hsize]
  have hmax : q'.maxSize = max (q'.streamSize top.ssrc) q.maxSize := by
    rw [hnew, if_pos rfl, hold, ← hq]
  have hleast (ssrc : UInt32) (hp : q.HasPacket ssrc) : q.streamSize top.ssrc ≤ q.streamSize ssrc := by
    rw [hssrc] at hhas ⊢
    exact h.streamSize_le_of_head hhead hhas hp
  refine ⟨⟨hhas, hleast, (hnew _).trans (if_pos rfl), fun ssrc hne => (hnew _).trans (if_neg hne),
    hmax⟩, hq', fun e' he' => ?_, fun ssrc => ?_⟩
  · rw [← hq] at he'
    rcases mem_reschedule he' with he' | ⟨hvalue, hsize⟩
    · obtain ⟨he', hid⟩ := Multimap.mem_erase.mp he'
      rw [hnew, if_neg, h.keys e' he']
      intro hvalue
      have hit' := h.consistent.priorityIt_eq he'
      rw [hvalue, findStream, hssrc, hl] at hit'
      exact hid (Option.some.inj (hit'.symm.trans hit))
    · rw [hnew, if_pos (hvalue.trans (hok.ssrc.trans hssrc.symm)), hsize, hold]
  · rw [hmax]
    rcases eq_or_ne ssrc top.ssrc with rfl | hne
    · exact le_max_left _ _
    · rw [hnew ssrc, if_neg hne]
      exact (h.bounded ssrc).trans (le_max_right _ _)

/-- The packet that a call takes out. -/
def popped? (q : RoundRobinPacketQueue) : QueueCall → Option QueuedPacket
  | .pop => if q.empty then none else q.pop.map Prod.fst
  | _ => none

/-- The packets that the calls take out. -/
def poppedIn : RoundRobinPacketQueue → List QueueCall → List QueuedPacket
  | _, [] => []
  | q, call :: calls => (q.popped? call).toList ++ poppedIn (q.step call) calls

/-- The bytes that are popped from a stream. -/
def bytesPopped (ssrc : UInt32) (q : RoundRobinPacketQueue) (calls : List QueueCall) : ℕ :=
  (((q.poppedIn calls).filter fun p => p.ssrc = ssrc).map QueuedPacket.packetSize).sum

/-- A stream that has a packet at some point of the window has one throughout. -/
def Backlogged (q : RoundRobinPacketQueue) (window : List QueueCall) : Prop :=
  ∀ s ∈ window.scanl step q, ∀ ssrc, s.HasPacket ssrc →
    ∀ s' ∈ window.scanl step q, s'.HasPacket ssrc

/-- What the streams have sent, as accounts of a server of the least. -/
def accounts (q : RoundRobinPacketQueue) : LeastServed.Accounts UInt32 := ⟨q.streamSize, q.maxSize⟩

section Window
variable {largest : ℕ} {active : Set UInt32} {call : QueueCall} {calls : List QueueCall}

theorem Pops.accounts {p : QueuedPacket} {q' : RoundRobinPacketQueue} (h : q.Pops p q') :
    q'.accounts = LeastServed.serve kMaxLeadingSize q.accounts p.service := by
  have hraised : LeastServed.raised kMaxLeadingSize q.accounts p.service =
      q'.streamSize p.ssrc := h.size.symm
  ext ssrc
  · show q'.streamSize ssrc = Function.update q.streamSize p.ssrc _ ssrc
    rw [hraised]
    rcases eq_or_ne ssrc p.ssrc with rfl | hne
    · rw [Function.update_self]
    · rw [Function.update_of_ne hne, h.others ssrc hne]
  · show q'.maxSize = max _ q.maxSize
    rw [hraised, h.maxSize]

/-- A call serves the stream of the packet that it pops, and no other changes the accounts. -/
theorem Keyed.step (h : q.Keyed priority)
    (hc : ∀ packet, call = .push packet → packet.priority = priority) :
    (q.step call).Keyed priority ∧
      (q.popped? call = none ∧ (q.step call).accounts = q.accounts ∨
        ∃ p ∈ q.queued, q.popped? call = some p ∧ q.Pops p (q.step call)) := by
  have hordered := h.toOrdered.step hc
  cases call with
  | push packet =>
    have hp := hc packet rfl
    have hr := h.consistent.rekeys_eq_false h.prioritized hp
    refine ⟨h.push hp, Or.inl ⟨rfl, ?_⟩⟩
    ext ssrc
    · exact streamSize_push hr ssrc
    · exact maxSize_push q packet
  | pop =>
    rcases h.toOrdered.step_pop with ⟨hnil, heq⟩ | ⟨p, q', hpop, heq, -, hperm, -⟩
    · have hempty : q.empty = true := by
        rw [empty, h.consistent.sizePackets, hnil]
        rfl
      rw [heq]
      exact ⟨h, Or.inl ⟨if_pos hempty, rfl⟩⟩
    · have hmem : p ∈ q.queued := hperm.mem_iff.mpr List.mem_cons_self
      have hne : ¬q.empty = true := by
        rw [empty, h.consistent.sizePackets, decide_eq_true_eq]
        exact fun hzero => List.ne_nil_of_mem hmem (List.eq_nil_of_length_eq_zero hzero)
      rw [heq] at hordered ⊢
      obtain ⟨hpops, hkeyed⟩ := h.pop hpop hordered
      refine ⟨hkeyed, Or.inr ⟨p, hmem, ?_, hpops⟩⟩
      rw [popped?, if_neg hne, hpop]
      rfl
  | updateQueueTime now =>
    refine ⟨⟨hordered, fun e he => ?_, fun ssrc => ?_⟩, Or.inl ⟨rfl, ?_⟩⟩
    · rw [RoundRobinPacketQueue.step, streamPriorities_updateQueueTime] at he
      rw [RoundRobinPacketQueue.step, streamSize_updateQueueTime]
      exact h.keys e he
    · rw [RoundRobinPacketQueue.step, streamSize_updateQueueTime, maxSize_updateQueueTime]
      exact h.bounded ssrc
    · ext ssrc
      · exact streamSize_updateQueueTime q now ssrc
      · exact maxSize_updateQueueTime q now

/-- The packets of the queue are not larger. -/
def Sized (q : RoundRobinPacketQueue) (largest : ℕ) : Prop := ∀ p ∈ q.queued, p.packetSize ≤ largest

theorem Keyed.sized_step (h : q.Keyed priority) (hsized : q.Sized largest)
    (hc : ∀ packet, call = .push packet → packet.packetSize ≤ largest) :
    (q.step call).Sized largest := by
  intro p hp
  rcases h.toOrdered.mem_queued_step hp with hp | rfl
  · exact hsized p hp
  · exact hc p rfl

/-- The packets of all pushes have that priority and are not larger. -/
def Uniform (calls : List QueueCall) (priority : ℤ) (largest : ℕ) : Prop :=
  ∀ packet, .push packet ∈ calls → packet.priority = priority ∧ packet.packetSize ≤ largest

theorem Keyed.run (h : q.Keyed priority) (hsized : q.Sized largest)
    (hcalls : Uniform calls priority largest) :
    (Runs.run RoundRobinPacketQueue.step q calls).Keyed priority ∧
      (Runs.run RoundRobinPacketQueue.step q calls).Sized largest := by
  induction calls generalizing q with
  | nil => exact ⟨h, hsized⟩
  | cons call calls ih =>
    have hcall (packet : QueuedPacket) (heq : call = .push packet) :
        packet.priority = priority ∧ packet.packetSize ≤ largest :=
      hcalls packet (heq ▸ List.mem_cons_self)
    exact ih (h.step fun packet heq => (hcall packet heq).1).1
      (h.sized_step hsized fun packet heq => (hcall packet heq).2)
      fun packet hp => hcalls packet (List.mem_cons_of_mem _ hp)

/-- In a window in which the same streams have packets every pop serves the least of them. -/
theorem Keyed.along (h : q.Keyed priority) (hsized : q.Sized largest)
    (hcalls : Uniform calls priority largest)
    (hactive : ∀ s ∈ calls.scanl RoundRobinPacketQueue.step q, ∀ ssrc,
      s.HasPacket ssrc ↔ ssrc ∈ active) :
    Runs.Along (LeastServed.serve kMaxLeadingSize) (LeastServed.Least active largest) q.accounts
      ((q.poppedIn calls).map QueuedPacket.service) := by
  induction calls generalizing q with
  | nil => trivial
  | cons call calls ih =>
    have hcall (packet : QueuedPacket) (heq : call = .push packet) :
        packet.priority = priority ∧ packet.packetSize ≤ largest :=
      hcalls packet (heq ▸ List.mem_cons_self)
    rw [List.scanl_cons] at hactive
    have hnow := hactive q List.mem_cons_self
    obtain ⟨hkeyed, hpop⟩ := h.step fun packet heq => (hcall packet heq).1
    have hrest := ih hkeyed (h.sized_step hsized fun packet heq => (hcall packet heq).2)
      (fun packet hp => hcalls packet (List.mem_cons_of_mem _ hp))
      fun s hs => hactive s (List.mem_cons_of_mem _ hs)
    rcases hpop with ⟨hnone, haccounts⟩ | ⟨p, hmem, hsome, hpops⟩
    · rw [poppedIn, hnone]
      rw [haccounts] at hrest
      exact hrest
    · rw [poppedIn, hsome]
      rw [hpops.accounts] at hrest
      exact ⟨⟨(hnow _).mp hpops.hasPacket, fun ssrc hssrc => hpops.least ssrc ((hnow ssrc).mpr hssrc),
        hsized p hmem⟩, hrest⟩

theorem bytesPopped_eq (ssrc : UInt32) (q : RoundRobinPacketQueue) (calls : List QueueCall) :
    q.bytesPopped ssrc calls =
      LeastServed.total ssrc ((q.poppedIn calls).map QueuedPacket.service) := by
  unfold bytesPopped LeastServed.total
  rw [List.filter_map, List.map_map]
  rfl

/-- In a window of any run, streams that have packets throughout send the same up to the
lead and two packets. -/
theorem Keyed.bytesPopped_le (h : q.Keyed priority) (hsized : q.Sized largest)
    (hlargest : largest ≤ kMaxLeadingSize) (hcalls : Uniform calls priority largest)
    (hback : q.Backlogged calls) {ssrc ssrc' : UInt32} (hp : q.HasPacket ssrc)
    (hp' : q.HasPacket ssrc') :
    q.bytesPopped ssrc calls ≤ q.bytesPopped ssrc' calls + kMaxLeadingSize + 2 * largest := by
  have hq : q ∈ calls.scanl RoundRobinPacketQueue.step q := by
    cases calls with
    | nil => exact List.mem_cons_self
    | cons call calls =>
      rw [List.scanl_cons]
      exact List.mem_cons_self
  have hactive : ∀ s ∈ calls.scanl RoundRobinPacketQueue.step q, ∀ ssrc,
      s.HasPacket ssrc ↔ ssrc ∈ {ssrc | q.HasPacket ssrc} := fun s hs ssrc =>
    ⟨fun hs' => hback s hs ssrc hs' q hq, fun hq' => hback q hq ssrc hq' s hs⟩
  have halong := h.along hsized hcalls hactive
  rw [bytesPopped_eq, bytesPopped_eq]
  exact LeastServed.total_le (fun ssrc _ => h.bounded ssrc) hlargest halong hp hp'

/-- Fairness in every window of every run of packets of one priority. -/
theorem bytesPopped_near (startTime : ℤ) {before window : List QueueCall}
    (hlargest : largest ≤ kMaxLeadingSize) (hpackets : Uniform (before ++ window) priority largest)
    (hback : (Runs.run step (start startTime) before).Backlogged window) {ssrc ssrc' : UInt32}
    (hp : (Runs.run step (start startTime) before).HasPacket ssrc)
    (hp' : (Runs.run step (start startTime) before).HasPacket ssrc') :
    |((Runs.run step (start startTime) before).bytesPopped ssrc window : ℤ) -
      (Runs.run step (start startTime) before).bytesPopped ssrc' window| ≤
        kMaxLeadingSize + 3 * largest := by
  have hempty : (start startTime).Sized largest := nofun
  obtain ⟨hkeyed, hsized⟩ := (keyed_start startTime priority).run hempty
    fun packet hmem => hpackets packet (List.mem_append_left _ hmem)
  have hwindow : Uniform window priority largest :=
    fun packet hmem => hpackets packet (List.mem_append_right _ hmem)
  have h₁ := hkeyed.bytesPopped_le hsized hlargest hwindow hback hp hp'
  have h₂ := hkeyed.bytesPopped_le hsized hlargest hwindow hback hp' hp
  rw [abs_le]
  omega

instance (q : RoundRobinPacketQueue) : DecidablePred q.HasPacket := fun ssrc =>
  inferInstanceAs (Decidable (∃ p ∈ q.queued, p.ssrc = ssrc))

/-- Large packets of one stream and small ones of another. -/
def largeAndSmall : List QueueCall :=
  (List.range 3).map (fun n => .push ⟨3, 0, n, ⟨1, 1200, 0⟩⟩) ++
    (List.range 6).map fun n => .push ⟨3, 0, n + 3, ⟨2, 100, 0⟩⟩

theorem uniform_largeAndSmall : Uniform (largeAndSmall ++ List.replicate 5 .pop) 3 1200 := by
  intro packet hp
  simp only [largeAndSmall, List.mem_append, List.mem_map, QueueCall.push.injEq, List.mem_replicate,
    reduceCtorEq, and_false, or_false] at hp
  rcases hp with ⟨n, -, rfl⟩ | ⟨n, -, rfl⟩
  · exact ⟨rfl, show 1200 ≤ 1200 by decide⟩
  · exact ⟨rfl, show 100 ≤ 1200 by decide⟩

theorem backlogged_largeAndSmall :
    (Runs.run step (start 0) largeAndSmall).Backlogged (List.replicate 5 .pop) := by
  rintro s hs _ ⟨p, hp, rfl⟩
  revert p
  revert s
  decide +kernel

theorem largeAndSmall_near :
    |((Runs.run step (start 0) largeAndSmall).bytesPopped 1 (List.replicate 5 .pop) : ℤ) -
      (Runs.run step (start 0) largeAndSmall).bytesPopped 2 (List.replicate 5 .pop)| ≤
        kMaxLeadingSize + 3 * (1200 : ℕ) :=
  bytesPopped_near 0 (by decide) uniform_largeAndSmall backlogged_largeAndSmall
    (by decide +kernel) (by decide +kernel)

end Window
end RoundRobinPacketQueue
end Pacing
end XrtcServer
