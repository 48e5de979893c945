import XrtcServer.RoundRobinPacketQueue
import XrtcServer.Runs
import Mathlib.Order.Bounds.Defs
import Mathlib.Algebra.BigOperators.Group.List.Basic
import Mathlib.Algebra.GroupWithZero.Nat

/-! The streams, their priorities and the two sizes agree as long as no packet asks for a
better place than its scheduled stream has, and then packets come out in order. -/
namespace XrtcServer
namespace Pacing
open Containers

namespace RoundRobinPacketQueue

/-- The packets in the queues of all streams. -/
def queued (q : RoundRobinPacketQueue) : List QueuedPacket :=
  q.streams.entries.flatMap fun x => x.2.packetQueue

/-- The entries of a stream in the multimap. -/
def entriesFor (q : RoundRobinPacketQueue) (ssrc : UInt32) : List (Entry StreamPrioKey UInt32) :=
  q.streamPriorities.entries.filter fun e => e.value = ssrc

end RoundRobinPacketQueue

namespace PacketFlow

/-- The packet is one of the best of all, and of those of its stream the first. -/
structure ComesNext (q : RoundRobinPacketQueue) (p : QueuedPacket) : Prop where
  queued : p ∈ q.queued
  minimal : ∀ p' ∈ q.queued, p.priority ≤ p'.priority
  firstIn : ∀ p' ∈ q.queued, p'.ssrc = p.ssrc → p'.priority = p.priority →
    p.enqueueOrder ≤ p'.enqueueOrder

/-- Nothing erased was used, the sizes are the sums over the streams, every packet that
was pushed was popped once or is queued, a stream has one entry with its best priority
exactly if it has packets, and the next packet is a right one. -/
structure Correct (s : PacketFlow) : Prop where
  memory : s.packetQueue.usedErased = false
  sizePackets : s.packetQueue.sizePackets =
    (s.packetQueue.streams.entries.map fun x => x.2.packetQueue.length).sum
  size : s.packetQueue.size =
    (s.packetQueue.streams.entries.map fun x =>
      (x.2.packetQueue.map QueuedPacket.packetSize).sum).sum
  kept : s.pushed.Perm (s.popped ++ s.packetQueue.queued)
  once : (s.popped ++ s.packetQueue.queued).Nodup
  registered : ∀ e ∈ s.packetQueue.streamPriorities.entries,
    ∃ stream, s.packetQueue.streams.lookup e.value = some stream
  idle : ∀ ssrc stream, s.packetQueue.streams.lookup ssrc = some stream →
    stream.packetQueue = [] → s.packetQueue.entriesFor ssrc = []
  scheduled : ∀ ssrc stream, s.packetQueue.streams.lookup ssrc = some stream →
    stream.packetQueue ≠ [] → ∃ e, s.packetQueue.entriesFor ssrc = [e] ∧
      stream.priorityIt = some e.id ∧
        IsLeast {n | ∃ p ∈ stream.packetQueue, p.priority = n} e.key.priority
  pops : s.packetQueue.empty = false →
    ∃ p q, s.packetQueue.pop = some (p, q) ∧ ComesNext s.packetQueue p

/-- No packet is enqueued with a better priority than its scheduled stream has. -/
def NoRekey (s : PacketFlow) : Event → Prop
  | .enqueuePacket priority now packet =>
    s.packetQueue.rekeys ⟨priority, now, s.packetCounter, packet⟩ = false
  | .getPendingPacket => True

end PacketFlow

theorem priority_le_of_key {p p' : QueuedPacket} (h : p.key ≤ p'.key) :
    p.priority ≤ p'.priority := by
  rcases Prod.Lex.toLex_le_toLex.mp h with hlt | ⟨heq, -⟩
  · exact hlt.le
  · exact heq.le

theorem order_le_of_key {p p' : QueuedPacket} (h : p.key ≤ p'.key)
    (hp : p'.priority = p.priority) : p.enqueueOrder ≤ p'.enqueueOrder := by
  rcases Prod.Lex.toLex_le_toLex.mp h with hlt | ⟨-, hle⟩
  · exact absurd hp hlt.ne'
  · exact hle

namespace RoundRobinPacketQueue
variable {q : RoundRobinPacketQueue}

/-- What holds of a stream under its place. -/
structure StreamOk (q : RoundRobinPacketQueue) (place : UInt32) (stream : Stream) : Prop where
  ssrc : stream.ssrc = place
  ssrcs : ∀ p ∈ stream.packetQueue, p.ssrc = place
  sorted : SortedBy QueuedPacket.key stream.packetQueue
  idle : stream.packetQueue = [] → stream.priorityIt = none
  scheduled : ∀ top, stream.packetQueue.head? = some top →
    ∃ e ∈ q.streamPriorities.entries, stream.priorityIt = some e.id ∧ e.value = place ∧
      e.key.priority = top.priority

/-- The invariant of the queue. -/
structure Consistent (q : RoundRobinPacketQueue) : Prop where
  memory : q.usedErased = false
  wellFormed : q.streamPriorities.WellFormed
  sizePackets : q.sizePackets = q.queued.length
  size : q.size = (q.queued.map QueuedPacket.packetSize).sum
  streams : ∀ place stream, q.streams.lookup place = some stream → q.StreamOk place stream
  owned : ∀ e ∈ q.streamPriorities.entries,
    ∃ stream, q.streams.lookup e.value = some stream ∧ stream.priorityIt = some e.id

/-- The packets of the streams but one. -/
def others (q : RoundRobinPacketQueue) (place : UInt32) : List QueuedPacket :=
  (q.streams.erase place).entries.flatMap fun x => x.2.packetQueue

theorem queued_of_lookup {place : UInt32} {stream : Stream}
    (h : q.streams.lookup place = some stream) :
    q.queued.Perm (stream.packetQueue ++ q.others place) := by
  have hmem : (⟨place, stream⟩ : Sigma fun _ : UInt32 => Stream) ∈ q.streams.entries :=
    AList.mem_lookup_iff.mp h
  obtain ⟨stream', l₁, l₂, -, hl, hk⟩ := List.exists_of_kerase (List.mem_keys_of_mem hmem)
  have hmem' : (⟨place, stream'⟩ : Sigma fun _ : UInt32 => Stream) ∈ q.streams.entries := by
    rw [hl]
    exact List.mem_append_right _ List.mem_cons_self
  obtain rfl : stream = stream' :=
    Option.some.inj (h.symm.trans (AList.mem_lookup_iff.mpr hmem'))
  have hperm : q.streams.entries.Perm (⟨place, stream⟩ :: (q.streams.erase place).entries) := by
    show q.streams.entries.Perm (⟨place, stream⟩ :: q.streams.entries.kerase place)
    rw [hk, hl]
    exact List.perm_middle
  exact hperm.flatMap_right _

theorem queued_of_lookup_none {place : UInt32} (h : q.streams.lookup place = none) :
    q.queued = q.others place := by
  have hkeys : place ∉ q.streams.entries.keys := AList.lookup_eq_none.mp h
  show q.streams.entries.flatMap _ = (q.streams.entries.kerase place).flatMap _
  rw [List.kerase_of_notMem_keys hkeys]

/-- A stream that is not there yet has no packets. -/
theorem queued_perm (q : RoundRobinPacketQueue) (place : UInt32) :
    q.queued.Perm ((q.findStream place).packetQueue ++ q.others place) := by
  cases hl : q.streams.lookup place with
  | none => rw [findStream, hl, queued_of_lookup_none hl]; exact List.Perm.refl _
  | some stream => rw [findStream, hl]; exact queued_of_lookup hl

theorem queued_insert {q q' : RoundRobinPacketQueue} {place : UInt32} {stream : Stream}
    (h : q'.streams = q.streams.insert place stream) :
    q'.queued = stream.packetQueue ++ q.others place := by
  rw [queued, h]
  rfl

@[simp] theorem sizePackets_account (q : RoundRobinPacketQueue) (p : QueuedPacket) :
    (q.account p).sizePackets = q.sizePackets + 1 := by
  unfold account updateQueueTime
  split <;> rfl

@[simp] theorem size_account (q : RoundRobinPacketQueue) (p : QueuedPacket) :
    (q.account p).size = q.size + p.packetSize := by
  unfold account updateQueueTime
  split <;> rfl

@[simp] theorem streamPriorities_account (q : RoundRobinPacketQueue) (p : QueuedPacket) :
    (q.account p).streamPriorities = q.streamPriorities := by
  unfold account updateQueueTime
  split <;> rfl

@[simp] theorem usedErased_account (q : RoundRobinPacketQueue) (p : QueuedPacket) :
    (q.account p).usedErased = q.usedErased := by
  unfold account updateQueueTime
  split <;> rfl

theorem lookup_insert_of_ne {q q' : RoundRobinPacketQueue} {place place' : UInt32} {stream : Stream}
    (h : q'.streams = q.streams.insert place stream) (hne : place' ≠ place) :
    q'.streams.lookup place' = q.streams.lookup place' := by
  rw [h, AList.lookup_insert_ne hne]

theorem lookup_insert_self {q q' : RoundRobinPacketQueue} {place : UInt32} {stream : Stream}
    (h : q'.streams = q.streams.insert place stream) :
    q'.streams.lookup place = some stream := by
  rw [h, AList.lookup_insert]

/-- A stream keeps what holds of it when no entry of its own is taken away. -/
theorem StreamOk.mono {q q' : RoundRobinPacketQueue} {place : UInt32} {stream : Stream}
    (h : q.StreamOk place stream) (he : ∀ e ∈ q.streamPriorities.entries, e.value = place →
      e ∈ q'.streamPriorities.entries) : q'.StreamOk place stream where
  ssrc := h.ssrc
  ssrcs := h.ssrcs
  sorted := h.sorted
  idle := h.idle
  scheduled top htop := by
    obtain ⟨e, hmem, hit, hvalue, hpriority⟩ := h.scheduled top htop
    exact ⟨e, he e hmem hvalue, hit, hvalue, hpriority⟩

/-- The stream of a packet, found or new. -/
theorem Consistent.findStream (h : q.Consistent) (place : UInt32) :
    q.StreamOk place (q.findStream place) := by
  unfold RoundRobinPacketQueue.findStream
  cases hl : q.streams.lookup place with
  | none => exact ⟨rfl, nofun, List.Pairwise.nil, fun _ => rfl, nofun⟩
  | some stream => exact h.streams place stream hl

/-- The entry of a scheduled stream. -/
theorem Consistent.entry (h : q.Consistent) {place : UInt32} {it : ℕ}
    (hit : (q.findStream place).priorityIt = some it) :
    ∃ top rest e, (q.findStream place).packetQueue = top :: rest ∧
      q.streamPriorities.find? it = some e ∧ e ∈ q.streamPriorities.entries ∧ e.id = it ∧
        e.value = place ∧ e.key.priority = top.priority := by
  have hok := h.findStream place
  cases hq : (q.findStream place).packetQueue with
  | nil => exact nomatch hit.symm.trans (hok.idle hq)
  | cons top rest =>
    obtain ⟨e, he, hit', hvalue, hpriority⟩ := hok.scheduled top (by rw [hq]; rfl)
    obtain rfl : it = e.id := Option.some.inj (hit.symm.trans hit')
    exact ⟨top, rest, e, rfl, h.wellFormed.find?_of_mem he, he, rfl, hvalue, hpriority⟩

theorem mem_queued {p : QueuedPacket} :
    p ∈ q.queued ↔ ∃ place stream, q.streams.lookup place = some stream ∧ p ∈ stream.packetQueue := by
  unfold queued
  rw [List.mem_flatMap]
  refine ⟨fun ⟨⟨place, stream⟩, hx, hp⟩ => ⟨place, stream, ?_, hp⟩, fun ⟨place, stream, hl, hp⟩ => ?_⟩
  · exact AList.mem_lookup_iff.mpr hx
  · exact ⟨⟨place, stream⟩, AList.mem_lookup_iff.mp hl, hp⟩

/-- A step that replaces one stream and only its entries. -/
theorem Consistent.of_insert {q q' : RoundRobinPacketQueue} (h : q.Consistent) {place : UInt32}
    {stream : Stream} (hstreams : q'.streams = q.streams.insert place stream)
    (hmemory : q'.usedErased = q.usedErased) (hwf : q'.streamPriorities.WellFormed)
    (hsizePackets : q'.sizePackets = q'.queued.length)
    (hsize : q'.size = (q'.queued.map QueuedPacket.packetSize).sum)
    (hok : q'.StreamOk place stream)
    (hkeep : ∀ e ∈ q.streamPriorities.entries, e.value ≠ place → e ∈ q'.streamPriorities.entries)
    (hown : ∀ e ∈ q'.streamPriorities.entries, e.value = place ∧ stream.priorityIt = some e.id ∨
      e.value ≠ place ∧ e ∈ q.streamPriorities.entries) : q'.Consistent where
  memory := hmemory.trans h.memory
  wellFormed := hwf
  sizePackets := hsizePackets
  size := hsize
  streams place' stream' hl := by
    by_cases hp : place' = place
    · subst hp
      obtain rfl := Option.some.inj ((lookup_insert_self hstreams).symm.trans hl)
      exact hok
    · rw [lookup_insert_of_ne hstreams hp] at hl
      exact (h.streams place' stream' hl).mono fun e he hv => hkeep e he (hv ▸ hp)
  owned e he := by
    rcases hown e he with ⟨hv, hit⟩ | ⟨hv, he⟩
    · exact ⟨stream, hv ▸ lookup_insert_self hstreams, hit⟩
    · rw [lookup_insert_of_ne hstreams hv]
      exact h.owned e he

theorem push_unscheduled {packet : QueuedPacket}
    (hit : (q.findStream packet.ssrc).priorityIt = none) :
    q.push packet = { q.account packet with
      streamPriorities := q.streamPriorities.emplace ⟨packet.priority, (q.findStream packet.ssrc).size⟩ packet.ssrc
      streams := q.streams.insert packet.ssrc { (q.findStream packet.ssrc).emplace packet with
        priorityIt := some q.streamPriorities.next } } := by
  unfold push
  rw [if_pos hit]

theorem push_scheduled {packet : QueuedPacket} {it : ℕ}
    (hit : (q.findStream packet.ssrc).priorityIt = some it) (hr : q.rekeys packet = false) :
    q.push packet = { q.account packet with
      streams := q.streams.insert packet.ssrc ((q.findStream packet.ssrc).emplace packet) } := by
  unfold push
  rw [if_neg (by rw [hit]; exact nofun), if_neg (by rw [hr]; exact Bool.false_ne_true)]

/-- The stream that a packet leaves behind when it is pushed without a better place. -/
theorem streams_push {packet : QueuedPacket} (hr : q.rekeys packet = false) :
    ∃ it, (q.push packet).streams = q.streams.insert packet.ssrc
      { (q.findStream packet.ssrc).emplace packet with priorityIt := it } := by
  cases hit : (q.findStream packet.ssrc).priorityIt with
  | none => exact ⟨_, by rw [push_unscheduled hit]⟩
  | some it =>
    refine ⟨some it, ?_⟩
    rw [push_scheduled hit hr, ← hit]
    rfl

/-- A packet comes to the queue of its stream. -/
theorem queued_push {packet : QueuedPacket} (hr : q.rekeys packet = false) :
    (q.push packet).queued.Perm (packet :: q.queued) := by
  obtain ⟨it, hstreams⟩ := streams_push hr
  rw [queued_insert hstreams]
  have hperm := insertBy_perm QueuedPacket.key packet (q.findStream packet.ssrc).packetQueue
  exact (hperm.append_right _).trans ((queued_perm q packet.ssrc).symm.cons packet)

theorem sizePackets_push (q : RoundRobinPacketQueue) (packet : QueuedPacket) :
    (q.push packet).sizePackets = q.sizePackets + 1 := by
  unfold push
  dsimp only
  split_ifs <;> exact sizePackets_account q packet

theorem size_push (q : RoundRobinPacketQueue) (packet : QueuedPacket) :
    (q.push packet).size = q.size + packet.packetSize := by
  unfold push
  dsimp only
  split_ifs <;> exact size_account q packet

/-- A packet that is pushed keeps its stream in order, if the stream gets or keeps an
entry with the best priority. -/
theorem StreamOk.emplace {q q' : RoundRobinPacketQueue} {packet : QueuedPacket} {stream : Stream}
    (h : q.StreamOk packet.ssrc stream) {e : Entry StreamPrioKey UInt32}
    (he : e ∈ q'.streamPriorities.entries) (hvalue : e.value = packet.ssrc)
    (hbest : ∀ p ∈ packet :: stream.packetQueue, e.key.priority ≤ p.priority)
    (hone : ∃ p ∈ packet :: stream.packetQueue, p.priority = e.key.priority) :
    q'.StreamOk packet.ssrc { stream.emplace packet with priorityIt := some e.id } where
  ssrc := h.ssrc
  ssrcs p hp := by
    rcases mem_insertBy.mp hp with rfl | hp
    · rfl
    · exact h.ssrcs p hp
  sorted := h.sorted.insertBy packet
  idle hnil := absurd hnil insertBy_ne_nil
  scheduled top htop := by
    refine ⟨e, he, rfl, hvalue, ?_⟩
    obtain ⟨rest, hrest⟩ := List.head?_eq_some_iff.mp htop
    have hsorted := h.sorted.insertBy packet
    have hmem : ∀ p, p ∈ packet :: stream.packetQueue ↔ p ∈ top :: rest := by
      intro p
      rw [← hrest, List.mem_cons]
      exact mem_insertBy.symm
    obtain ⟨p, hp, hpe⟩ := hone
    have hle : top.key ≤ p.key := by
      rw [show insertBy QueuedPacket.key packet stream.packetQueue = top :: rest from hrest] at hsorted
      exact hsorted.head_le ((hmem p).mp hp)
    apply le_antisymm (hbest top ((hmem top).mpr List.mem_cons_self))
    rw [← hpe]
    exact priority_le_of_key hle

theorem Consistent.sizes_push (h : q.Consistent) {packet : QueuedPacket} (hr : q.rekeys packet = false) :
    (q.push packet).sizePackets = (q.push packet).queued.length ∧
      (q.push packet).size = ((q.push packet).queued.map QueuedPacket.packetSize).sum := by
  have hqueued := queued_push hr
  constructor
  · rw [sizePackets_push, hqueued.length_eq, h.sizePackets, List.length_cons]
  · rw [size_push, (hqueued.map _).sum_eq, h.size, List.map_cons, List.sum_cons, Nat.add_comm]

/-- An entry of a stream is the one that the stream knows. -/
theorem Consistent.priorityIt_eq (h : q.Consistent) {e : Entry StreamPrioKey UInt32}
    (he : e ∈ q.streamPriorities.entries) : (q.findStream e.value).priorityIt = some e.id := by
  obtain ⟨stream, hl, hit⟩ := h.owned e he
  rw [RoundRobinPacketQueue.findStream, hl]
  exact hit

/-- A stream without packets gets an entry with the packet's priority. -/
theorem Consistent.push_unscheduled (h : q.Consistent) {packet : QueuedPacket} (hr : q.rekeys packet = false)
    (hit : (q.findStream packet.ssrc).priorityIt = none) : (q.push packet).Consistent := by
  have hok := h.findStream packet.ssrc
  have ⟨hsizePackets, hsize⟩ := h.sizes_push hr
  have heq := RoundRobinPacketQueue.push_unscheduled hit
  have hnil : (q.findStream packet.ssrc).packetQueue = [] := by
    cases hq : (q.findStream packet.ssrc).packetQueue with
    | nil => rfl
    | cons top rest =>
      obtain ⟨e, -, hit', -⟩ := hok.scheduled top (by rw [hq]; rfl)
      exact nomatch hit.symm.trans hit'
  have hpriorities : (q.push packet).streamPriorities = q.streamPriorities.emplace
      ⟨packet.priority, (q.findStream packet.ssrc).size⟩ packet.ssrc := by rw [heq]
  have hstreams : (q.push packet).streams = q.streams.insert packet.ssrc
      { (q.findStream packet.ssrc).emplace packet with priorityIt := some q.streamPriorities.next } := by
    rw [heq]
  refine h.of_insert hstreams ?_ ?_ hsizePackets hsize ?_ ?_ ?_
  · rw [heq]
    exact usedErased_account q packet
  · rw [hpriorities]
    exact h.wellFormed.emplace _ _
  · have hnew : (⟨q.streamPriorities.next, ⟨packet.priority, (q.findStream packet.ssrc).size⟩,
        packet.ssrc⟩ : Entry StreamPrioKey UInt32) ∈ (q.push packet).streamPriorities.entries := by
      rw [hpriorities]
      exact Multimap.mem_emplace.mpr (Or.inl rfl)
    apply hok.emplace hnew rfl
    · intro p hp
      rw [hnil, List.mem_singleton] at hp
      rw [hp]
    · exact ⟨packet, List.mem_cons_self, rfl⟩
  · intro e he _
    rw [hpriorities]
    exact Multimap.mem_emplace.mpr (Or.inr he)
  · intro e he
    rw [hpriorities, Multimap.mem_emplace] at he
    rcases he with rfl | he
    · exact Or.inl ⟨rfl, rfl⟩
    · refine Or.inr ⟨fun hv => ?_, he⟩
      have hit' := h.priorityIt_eq he
      rw [hv, hit] at hit'
      exact nomatch hit'

/-- A stream with packets keeps its entry, whose priority is still the best. -/
theorem Consistent.push_scheduled (h : q.Consistent) {packet : QueuedPacket} (hr : q.rekeys packet = false)
    {it : ℕ} (hit : (q.findStream packet.ssrc).priorityIt = some it) : (q.push packet).Consistent := by
  have hok := h.findStream packet.ssrc
  have ⟨hsizePackets, hsize⟩ := h.sizes_push hr
  have heq := RoundRobinPacketQueue.push_scheduled hit hr
  obtain ⟨top, rest, e, hq, hfind, he, rfl, hvalue, hpriority⟩ := h.entry hit
  have hnot : e.key.priority ≤ packet.priority := by
    simpa [rekeys, hit, hfind] using hr
  have hpriorities : (q.push packet).streamPriorities = q.streamPriorities := by
    rw [heq]
    exact streamPriorities_account q packet
  have hstreams : (q.push packet).streams = q.streams.insert packet.ssrc
      { (q.findStream packet.ssrc).emplace packet with priorityIt := some e.id } := by
    rw [heq, ← hit]
    rfl
  refine h.of_insert hstreams ?_ ?_ hsizePackets hsize ?_ ?_ ?_
  · rw [heq]
    exact usedErased_account q packet
  · rw [hpriorities]
    exact h.wellFormed
  · apply hok.emplace (hpriorities ▸ he) hvalue
    · intro p hp
      rcases List.mem_cons.mp hp with rfl | hp
      · exact hnot
      · rw [hpriority]
        have hsorted := hok.sorted
        rw [hq] at hp hsorted
        exact priority_le_of_key (hsorted.head_le hp)
    · exact ⟨top, List.mem_cons_of_mem _ (hq ▸ List.mem_cons_self), hpriority.symm⟩
  · intro e' he' _
    rw [hpriorities]
    exact he'
  · intro e' he'
    rw [hpriorities] at he'
    by_cases hv : e'.value = packet.ssrc
    · exact Or.inl ⟨hv, hit.symm.trans (hv ▸ h.priorityIt_eq he')⟩
    · exact Or.inr ⟨hv, he'⟩

theorem Consistent.push (h : q.Consistent) {packet : QueuedPacket} (hr : q.rekeys packet = false) :
    (q.push packet).Consistent := by
  cases hit : (q.findStream packet.ssrc).priorityIt with
  | none => exact h.push_unscheduled hr hit
  | some it => exact h.push_scheduled hr hit

/-- A stream with packets gets a new entry with its best priority, one without gets none. -/
theorem reschedule_spec {priorities : Multimap StreamPrioKey UInt32} (hwf : priorities.WellFormed)
    (stream : Stream) :
    (reschedule priorities stream).1.WellFormed ∧
    (∀ e ∈ priorities.entries, e ∈ (reschedule priorities stream).1.entries) ∧
    (∀ e ∈ (reschedule priorities stream).1.entries, e ∈ priorities.entries ∨
      e.value = stream.ssrc ∧ (reschedule priorities stream).2 = some e.id) ∧
    (stream.packetQueue = [] → (reschedule priorities stream).2 = none) ∧
    ∀ top, stream.packetQueue.head? = some top →
      ∃ e ∈ (reschedule priorities stream).1.entries, (reschedule priorities stream).2 = some e.id ∧
        e.value = stream.ssrc ∧ e.key.priority = top.priority := by
  unfold reschedule
  cases hq : stream.packetQueue with
  | nil => exact ⟨hwf, fun _ he => he, fun _ he => Or.inl he, fun _ => rfl, nofun⟩
  | cons top rest =>
    refine ⟨hwf.emplace _ _, fun e he => Multimap.mem_emplace.mpr (Or.inr he), fun e he => ?_,
      nofun, fun top' htop => ?_⟩
    · rcases Multimap.mem_emplace.mp he with rfl | he
      · exact Or.inr ⟨rfl, rfl⟩
      · exact Or.inl he
    · obtain rfl := Option.some.inj htop
      exact ⟨_, Multimap.mem_emplace.mpr (Or.inl rfl), rfl, rfl, rfl⟩

/-- A nonempty queue has a best stream: its first packet comes next. -/
theorem Consistent.highest (h : q.Consistent) (hne : q.queued ≠ []) :
    ∃ e stream top rest, q.streamPriorities.entries.head? = some e ∧
      q.streams.lookup e.value = some stream ∧ stream.priorityIt = some e.id ∧
        stream.packetQueue = top :: rest ∧ PacketFlow.ComesNext q top := by
  have hentry : ∀ p ∈ q.queued, ∃ place stream top rest e, q.streams.lookup place = some stream ∧
      stream.packetQueue = top :: rest ∧ p ∈ stream.packetQueue ∧
        e ∈ q.streamPriorities.entries ∧ e.value = place ∧ stream.priorityIt = some e.id ∧
          e.key.priority = top.priority ∧ top.key ≤ p.key := by
    intro p hp
    obtain ⟨place, stream, hl, hp⟩ := mem_queued.mp hp
    have hok := h.streams place stream hl
    cases hq : stream.packetQueue with
    | nil =>
      rw [hq] at hp
      exact absurd hp List.not_mem_nil
    | cons top rest =>
      obtain ⟨e, he, hit, hvalue, hpriority⟩ := hok.scheduled top (by rw [hq]; rfl)
      have hsorted := hok.sorted
      rw [hq] at hp hsorted
      exact ⟨place, stream, top, rest, e, hl, hq, hq ▸ hp, he, hvalue, hit, hpriority,
        hsorted.head_le hp⟩
  obtain ⟨p₀, hp₀⟩ := List.exists_mem_of_ne_nil _ hne
  obtain ⟨-, -, -, -, e₀, -, -, -, he₀, -⟩ := hentry p₀ hp₀
  obtain ⟨e, hhead⟩ : ∃ e, q.streamPriorities.entries.head? = some e := by
    cases hentries : q.streamPriorities.entries with
    | nil => exact absurd (hentries ▸ he₀) List.not_mem_nil
    | cons e rest => exact ⟨e, rfl⟩
  have he : e ∈ q.streamPriorities.entries := List.mem_of_mem_head? hhead
  obtain ⟨stream, hl, hit⟩ := h.owned e he
  have hok := h.streams e.value stream hl
  cases hq : stream.packetQueue with
  | nil => exact nomatch hit.symm.trans (hok.idle hq)
  | cons top rest =>
    obtain ⟨e', he', hit', -, hpriority⟩ := hok.scheduled top (by rw [hq]; rfl)
    obtain rfl : e = e' :=
      h.wellFormed.eq_of_id he he' (Option.some.inj (hit.symm.trans hit'))
    have htop : top ∈ stream.packetQueue := hq ▸ List.mem_cons_self
    refine ⟨e, stream, top, rest, hhead, hl, hit, hq, mem_queued.mpr ⟨_, _, hl, htop⟩, ?_, ?_⟩
    · intro p' hp'
      obtain ⟨-, -, top', -, e', -, -, -, he', -, -, hpriority', hkey⟩ := hentry p' hp'
      rw [← hpriority]
      exact (StreamPrioKey.priority_le (h.wellFormed.head_le hhead he')).trans
        (hpriority' ▸ priority_le_of_key hkey)
    · intro p' hp' hssrc hpr
      obtain ⟨place, stream', hl', hmem⟩ := mem_queued.mp hp'
      have hplace : place = e.value := by
        rw [← (h.streams place stream' hl').ssrcs p' hmem, hssrc, hok.ssrcs top htop]
      subst hplace
      obtain rfl := Option.some.inj (hl.symm.trans hl')
      have hsorted := hok.sorted
      rw [hq] at hsorted hmem
      exact order_le_of_key (hsorted.head_le hmem) hpr

/-- A packet comes out of a nonempty queue, and the rest stays in order. -/
theorem Consistent.pop (h : q.Consistent) (hne : q.queued ≠ []) :
    ∃ p q', q.pop = some (p, q') ∧ PacketFlow.ComesNext q p ∧ q'.Consistent ∧
      q.queued.Perm (p :: q'.queued) := by
  obtain ⟨e, stream, top, rest, hhead, hl, hit, hq, hnext⟩ := h.highest hne
  have hok := h.streams e.value stream hl
  set size := max (stream.size + top.packetSize) (q.maxSize - kMaxLeadingSize)
  set stream' : Stream := { stream with size, packetQueue := rest } with hstream'
  set r := reschedule (q.streamPriorities.erase e.id) stream' with hr
  set q' : RoundRobinPacketQueue := { q with
    sizePackets := q.sizePackets - 1
    maxSize := max size q.maxSize
    size := q.size - top.packetSize
    streams := q.streams.insert e.value { stream' with priorityIt := r.2 }
    streamPriorities := r.1
    queueTimeSum := q.queueTimeSum - (q.lastTimeUpdated - top.enqueueTime) } with hq'
  have hpop : q.pop = some (top, q') := by
    simp only [RoundRobinPacketQueue.pop, getHighestPriorityStream, hhead, hl, hit, hq,
      Option.bind_eq_bind, Option.bind_some, Option.pure_def, List.head?_cons, List.tail_cons]
    rfl
  have hstreams : q'.streams = q.streams.insert e.value { stream' with priorityIt := r.2 } := rfl
  have hqueued : q.queued.Perm (top :: q'.queued) := by
    rw [queued_insert hstreams]
    have hperm := queued_of_lookup hl
    rw [hq] at hperm
    exact hperm
  obtain ⟨hwf, hkeep, hnew, hidle, hscheduled⟩ := reschedule_spec (h.wellFormed.erase e.id) stream'
  refine ⟨top, q', hpop, hnext, ?_, hqueued⟩
  refine h.of_insert hstreams rfl hwf ?_ ?_ ?_ ?_ ?_
  · show q.sizePackets - 1 = _
    rw [h.sizePackets, hqueued.length_eq]
    rfl
  · show q.size - top.packetSize = _
    rw [h.size, (hqueued.map _).sum_eq, List.map_cons, List.sum_cons, Nat.add_sub_cancel_left]
  · have hsorted := hok.sorted
    rw [hq] at hsorted
    refine ⟨hok.ssrc, fun p hp => hok.ssrcs p (hq ▸ List.mem_cons_of_mem _ hp), hsorted.tail,
      hidle, fun top' htop => ?_⟩
    obtain ⟨e', he', hit', hvalue, hpriority⟩ := hscheduled top' htop
    exact ⟨e', he', hit', hvalue.trans hok.ssrc, hpriority⟩
  · intro e' he' hv
    exact hkeep e' (Multimap.mem_erase.mpr ⟨he', fun hid => hv (by
      rw [h.wellFormed.eq_of_id he' (List.mem_of_mem_head? hhead) hid])⟩)
  · intro e' he'
    rcases hnew e' he' with he' | ⟨hvalue, hit'⟩
    · obtain ⟨he', hid⟩ := Multimap.mem_erase.mp he'
      refine Or.inr ⟨fun hv => ?_, he'⟩
      obtain ⟨stream'', hl'', hit''⟩ := h.owned e' he'
      rw [hv, hl] at hl''
      obtain rfl := Option.some.inj hl''
      exact hid (Option.some.inj (hit''.symm.trans hit))
    · exact Or.inl ⟨hvalue.trans hok.ssrc, hit'⟩

/-- A packet that asks for a better place erases its stream. -/
theorem queued_push_rekeys {packet : QueuedPacket} (hr : q.rekeys packet = true) :
    (q.push packet).queued = q.others packet.ssrc := by
  have hit : (q.findStream packet.ssrc).priorityIt ≠ none := by
    intro hit
    simp [rekeys, hit] at hr
  have hstreams : (q.push packet).streams = q.streams.erase packet.ssrc := by
    unfold RoundRobinPacketQueue.push
    rw [if_neg hit, if_pos hr]
  rw [queued, hstreams]
  rfl

/-- A packet that asks for a better place takes its stream's packets out of the sums. -/
theorem Consistent.rekey (h : q.Consistent) {packet : QueuedPacket} (hr : q.rekeys packet = true) :
    (q.push packet).sizePackets ≠ (q.push packet).queued.length := by
  have hlength := (queued_perm q packet.ssrc).length_eq
  rw [List.length_append] at hlength
  rw [sizePackets_push, queued_push_rekeys hr, h.sizePackets]
  omega

/-- Whatever its stream, a pushed packet is all that comes in. -/
theorem mem_queued_push {p packet : QueuedPacket} (h : p ∈ (q.push packet).queued) :
    p = packet ∨ p ∈ q.queued := by
  have hemplace (it : Option ℕ) : p ∈ { (q.findStream packet.ssrc).emplace packet with
      priorityIt := it }.packetQueue ++ q.others packet.ssrc → p = packet ∨ p ∈ q.queued := by
    intro hp
    rw [(queued_perm q packet.ssrc).mem_iff, List.mem_append]
    rcases List.mem_append.mp hp with hp | hp
    · exact (mem_insertBy.mp hp).imp_right Or.inl
    · exact Or.inr (Or.inr hp)
  cases hr : q.rekeys packet with
  | false =>
    obtain ⟨it, hstreams⟩ := streams_push hr
    rw [queued_insert hstreams] at h
    exact hemplace it h
  | true =>
    refine Or.inr ?_
    rw [(queued_perm q packet.ssrc).mem_iff]
    exact List.mem_append_right _ (queued_push_rekeys hr ▸ h)

/-- What comes out was queued, and nothing comes in. -/
theorem pop_spec {q' : RoundRobinPacketQueue} {packet : QueuedPacket}
    (h : q.pop = some (packet, q')) :
    packet ∈ q.queued ∧ (∀ p ∈ q'.queued, p ∈ q.queued) ∧ q'.sizePackets = q.sizePackets - 1 := by
  simp only [RoundRobinPacketQueue.pop, getHighestPriorityStream, Option.bind_eq_bind,
    Option.bind_eq_some_iff, Option.pure_def, Option.some.injEq] at h
  obtain ⟨_, ⟨e, -, stream, hl, rfl⟩, top, htop, it, -, h⟩ := h
  obtain ⟨rfl, rfl⟩ := Prod.mk.inj h
  have hperm := queued_of_lookup hl
  have hmem : top ∈ stream.packetQueue := List.mem_of_mem_head? htop
  refine ⟨hperm.mem_iff.mpr (List.mem_append_left _ hmem), fun p hp => ?_, rfl⟩
  rw [queued_insert rfl] at hp
  refine hperm.mem_iff.mpr (List.mem_append.mpr ((List.mem_append.mp hp).imp_left fun hp => ?_))
  exact List.mem_of_mem_tail hp

@[simp] theorem queued_updateQueueTime (q : RoundRobinPacketQueue) (now : ℤ) :
    (q.updateQueueTime now).queued = q.queued := by
  unfold updateQueueTime
  split <;> rfl

@[simp] theorem sizePackets_updateQueueTime (q : RoundRobinPacketQueue) (now : ℤ) :
    (q.updateQueueTime now).sizePackets = q.sizePackets := by
  unfold updateQueueTime
  split <;> rfl

theorem Consistent.updateQueueTime (h : q.Consistent) (now : ℤ) :
    (q.updateQueueTime now).Consistent := by
  unfold RoundRobinPacketQueue.updateQueueTime
  split
  · exact h
  · exact ⟨h.memory, h.wellFormed, h.sizePackets, h.size,
      fun place stream hl => (h.streams place stream hl).mono fun _ he _ => he, h.owned⟩

end RoundRobinPacketQueue

namespace PacketFlow
open RoundRobinPacketQueue (Consistent queued entriesFor mem_queued)
variable {s : PacketFlow}

/-- The invariant of the queue in use. -/
structure Sound (s : PacketFlow) : Prop where
  consistent : s.packetQueue.Consistent
  kept : s.pushed.Perm (s.popped ++ s.packetQueue.queued)
  numbered : (s.pushed.map QueuedPacket.enqueueOrder).Nodup
  bounded : ∀ p ∈ s.pushed, p.enqueueOrder < s.packetCounter

/-- An unused queue. -/
def start (startTime : ℤ) : PacketFlow := { packetQueue := { lastTimeUpdated := startTime } }

theorem sound_start (startTime : ℤ) : (start startTime).Sound where
  consistent := ⟨rfl, Multimap.wellFormed_empty, rfl, rfl, nofun, nofun⟩
  kept := List.Perm.refl _
  numbered := List.nodup_nil
  bounded := nofun

theorem Sound.step (h : s.Sound) {e : Event} (hc : NoRekey s e) : (s.step e).Sound := by
  cases e with
  | enqueuePacket priority now packet =>
    refine ⟨h.consistent.push hc, ?_, ?_, fun p hp => ?_⟩
    · have hqueued := RoundRobinPacketQueue.queued_push hc
      refine (h.kept.append_right _).trans ?_
      rw [List.append_assoc]
      exact ((List.perm_append_singleton _ _).trans hqueued.symm).append_left s.popped
    · show ((s.pushed ++ [_]).map QueuedPacket.enqueueOrder).Nodup
      rw [List.map_append, List.map_singleton]
      refine h.numbered.append (List.nodup_singleton _) ?_
      intro n hn hn'
      obtain ⟨p, hp, rfl⟩ := List.mem_map.mp hn
      exact Nat.ne_of_lt (h.bounded p hp) (List.mem_singleton.mp hn')
    · rcases List.mem_append.mp hp with hp | hp
      · exact Nat.lt_succ_of_lt (h.bounded p hp)
      · rw [List.mem_singleton.mp hp]
        exact Nat.lt_succ_self _
  | getPendingPacket =>
    unfold PacketFlow.step
    by_cases hempty : s.packetQueue.empty = true
    · rw [if_pos hempty]
      exact h
    · rw [if_neg hempty]
      have hne : s.packetQueue.queued ≠ [] := by
        intro hnil
        refine hempty ?_
        rw [RoundRobinPacketQueue.empty, h.consistent.sizePackets, hnil]
        rfl
      obtain ⟨p, q', hpop, -, hcons, hqueued⟩ := h.consistent.pop hne
      rw [hpop]
      refine ⟨hcons, h.kept.trans ?_, h.numbered, h.bounded⟩
      show (s.popped ++ s.packetQueue.queued).Perm (s.popped ++ [p] ++ q'.queued)
      rw [List.append_assoc]
      exact hqueued.append_left _

theorem eq_singleton {α : Type*} {l : List α} {a : α} (hn : l.Nodup) (ha : a ∈ l)
    (hall : ∀ b ∈ l, b = a) : l = [a] :=
  List.perm_singleton.mp ((List.perm_ext_iff_of_nodup hn (List.nodup_singleton a)).mpr fun b =>
    ⟨fun hb => List.mem_singleton.mpr (hall b hb), fun hb => List.mem_singleton.mp hb ▸ ha⟩)

theorem mem_entriesFor {q : RoundRobinPacketQueue} {ssrc : UInt32}
    {e : Entry StreamPrioKey UInt32} :
    e ∈ q.entriesFor ssrc ↔ e ∈ q.streamPriorities.entries ∧ e.value = ssrc := by
  simp [entriesFor]

theorem Sound.correct (h : s.Sound) : s.Correct where
  memory := h.consistent.memory
  sizePackets := by
    rw [h.consistent.sizePackets, queued, List.length_flatMap]
  size := by
    rw [h.consistent.size, queued, List.map_flatMap, List.flatMap, List.sum_flatten, List.map_map]
    rfl
  kept := h.kept
  once := h.kept.nodup_iff.mp h.numbered.of_map
  registered e he := by
    obtain ⟨stream, hl, -⟩ := h.consistent.owned e he
    exact ⟨stream, hl⟩
  idle ssrc stream hl hnil := by
    rw [List.eq_nil_iff_forall_not_mem]
    intro e hmem
    obtain ⟨he, rfl⟩ := mem_entriesFor.mp hmem
    obtain ⟨stream', hl', hit⟩ := h.consistent.owned e he
    obtain rfl := Option.some.inj (hl.symm.trans hl')
    exact nomatch hit.symm.trans ((h.consistent.streams _ _ hl).idle hnil)
  scheduled ssrc stream hl hne := by
    have hok := h.consistent.streams ssrc stream hl
    obtain ⟨top, rest, hq⟩ := List.exists_cons_of_ne_nil hne
    obtain ⟨e, he, hit, hvalue, hpriority⟩ := hok.scheduled top (by rw [hq]; rfl)
    have hsorted := hok.sorted
    rw [hq] at hsorted
    refine ⟨e, eq_singleton ?_ (mem_entriesFor.mpr ⟨he, hvalue⟩) ?_, hit, ?_, ?_⟩
    · exact h.consistent.wellFormed.nodup.of_map.filter _
    · intro e' he'
      obtain ⟨he', hvalue'⟩ := mem_entriesFor.mp he'
      obtain ⟨stream', hl', hit'⟩ := h.consistent.owned e' he'
      rw [hvalue', hl] at hl'
      obtain rfl := Option.some.inj hl'
      exact h.consistent.wellFormed.eq_of_id he' he (Option.some.inj (hit'.symm.trans hit))
    · exact ⟨top, hq ▸ List.mem_cons_self, hpriority.symm⟩
    · rintro n ⟨p, hp, rfl⟩
      rw [hq] at hp
      rw [hpriority]
      exact priority_le_of_key (hsorted.head_le hp)
  pops hempty := by
    have hne : s.packetQueue.queued ≠ [] := by
      intro hnil
      rw [RoundRobinPacketQueue.empty, h.consistent.sizePackets, hnil] at hempty
      exact absurd hempty (by decide)
    obtain ⟨p, q', hpop, hnext, -⟩ := h.consistent.pop hne
    exact ⟨p, q', hpop, hnext⟩

theorem Sound.noRekey (h : s.Sound) {e : Event} (hc : (s.step e).Correct) : NoRekey s e := by
  cases e with
  | enqueuePacket priority now packet =>
    refine Bool.eq_false_iff.mpr fun hr => h.consistent.rekey hr ?_
    rw [queued, List.length_flatMap]
    exact hc.sizePackets
  | getPendingPacket => trivial

theorem Sound.allAfter_correct_iff (h : s.Sound) (es : List Event) :
    Runs.AllAfter PacketFlow.step Correct s es ↔ Runs.Along PacketFlow.step NoRekey s es :=
  Runs.along_iff (fun _ _ h hc => h.step hc)
    (fun _ _ h => ⟨h.noRekey, fun hc => (h.step hc).correct⟩) h es

/-- In every run of pushes and pops the queue is correct after every step, as long as no
packet asks for a better place than its scheduled stream has and only so long. -/
theorem correct_iff (startTime : ℤ) (es : List Event) :
    Runs.AllAfter step Correct (start startTime) es ↔
      Runs.Along step NoRekey (start startTime) es :=
  (sound_start startTime).allAfter_correct_iff es

/-- Two packets of one stream, the second with the better priority. -/
def betterSecond : List Event :=
  [.enqueuePacket 2 0 ⟨1, 1000, 0⟩, .enqueuePacket 1 0 ⟨1, 100, 0⟩]

/-- Both are lost, though the queue still counts them. -/
theorem betterSecond_lost :
    ¬Runs.AllAfter step Correct (start 0) betterSecond ∧
      (Runs.run step (start 0) betterSecond).packetQueue.queued = [] ∧
        (Runs.run step (start 0) betterSecond).packetQueue.sizePackets = 2 := by
  refine ⟨?_, by decide, by decide⟩
  rw [(sound_start 0).allAfter_correct_iff]
  rintro ⟨-, hr, -⟩
  have hkept : RoundRobinPacketQueue.rekeys _ _ = false := hr
  exact absurd hkept (by decide)

end PacketFlow
end Pacing
end XrtcServer
