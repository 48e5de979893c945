import XrtcServer.Multimap
import Mathlib.Data.List.AList
import Mathlib.Data.Prod.Lex

/-! The packet queue of the pacer: one queue for each stream, and the streams with packets
sorted by priority and by the bytes that they have sent. -/
namespace XrtcServer
namespace Pacing
open Containers

/-- What the queue uses of a packet; sizes are in bytes. -/
structure RtpPacketToSend where
  ssrc : UInt32
  payloadSize : ℕ
  paddingSize : ℕ
  deriving DecidableEq, Repr

/-- Times are in microseconds. -/
structure QueuedPacket where
  priority : ℤ
  enqueueTime : ℤ
  enqueueOrder : ℕ
  ownedPacket : RtpPacketToSend
  deriving DecidableEq, Repr

namespace QueuedPacket

def ssrc (p : QueuedPacket) : UInt32 := p.ownedPacket.ssrc

def packetSize (p : QueuedPacket) : ℕ := p.ownedPacket.payloadSize + p.ownedPacket.paddingSize

/-- The order in which a stream's packets come out: a lower key is greater for `operator<`
and so nearer to the top. -/
def key (p : QueuedPacket) : ℤ ×ₗ ℕ := toLex (p.priority, p.enqueueOrder)

end QueuedPacket

structure StreamPrioKey where
  priority : ℤ
  size : ℕ
  deriving DecidableEq, Repr

namespace StreamPrioKey

def toProd (k : StreamPrioKey) : ℤ ×ₗ ℕ := toLex (k.priority, k.size)

theorem toProd_injective : Function.Injective toProd := by
  rintro ⟨p, s⟩ ⟨p', s'⟩ h
  obtain ⟨rfl, rfl⟩ := Prod.mk.inj (toLex.injective h)
  rfl

instance : LinearOrder StreamPrioKey := LinearOrder.lift' toProd toProd_injective

/-- The order is the `operator<` of the source. -/
theorem lt_iff {a b : StreamPrioKey} :
    a < b ↔ if a.priority ≠ b.priority then a.priority < b.priority else a.size < b.size := by
  have hlex : a < b ↔ a.priority < b.priority ∨ a.priority = b.priority ∧ a.size < b.size :=
    Prod.Lex.toLex_lt_toLex
  rw [hlex]
  split
  · rename_i hne
    exact or_iff_left fun h => hne h.1
  · rename_i heq
    rw [not_not.mp heq]
    simp

theorem priority_le {a b : StreamPrioKey} (h : a ≤ b) : a.priority ≤ b.priority := by
  rcases Prod.Lex.toLex_le_toLex.mp (show a.toProd ≤ b.toProd from h) with hlt | ⟨heq, -⟩
  · exact hlt.le
  · exact heq.le

end StreamPrioKey

/-- `priorityIt` is the number of an entry, none at the end of the multimap. -/
structure Stream where
  size : ℕ := 0
  ssrc : UInt32
  packetQueue : List QueuedPacket := []
  priorityIt : Option ℕ := none

/-- The packet goes to the stream's priority queue. -/
def Stream.emplace (stream : Stream) (packet : QueuedPacket) : Stream :=
  { stream with packetQueue := insertBy QueuedPacket.key packet stream.packetQueue }

def kMaxLeadingSize : ℕ := 1400

/-- `usedErased`: the memory of an erased stream was used. -/
structure RoundRobinPacketQueue where
  sizePackets : ℕ := 0
  maxSize : ℕ := kMaxLeadingSize
  size : ℕ := 0
  streams : AList (fun _ : UInt32 => Stream) := ∅
  streamPriorities : Multimap StreamPrioKey UInt32 := {}
  lastTimeUpdated : ℤ
  queueTimeSum : ℤ := 0
  usedErased : Bool := false

namespace RoundRobinPacketQueue

def empty (q : RoundRobinPacketQueue) : Bool := q.sizePackets = 0

def updateQueueTime (q : RoundRobinPacketQueue) (now : ℤ) : RoundRobinPacketQueue :=
  if now = q.lastTimeUpdated then q
  else
    { q with queueTimeSum := q.queueTimeSum + (now - q.lastTimeUpdated) * q.sizePackets, lastTimeUpdated := now }

/-- The sum is not negative as long as no time goes back. -/
def averageQueueTime (q : RoundRobinPacketQueue) : ℤ :=
  if q.empty then 0 else q.queueTimeSum / q.sizePackets

/-- The stream of a packet, a new one for its first packet. -/
def findStream (q : RoundRobinPacketQueue) (ssrc : UInt32) : Stream :=
  (q.streams.lookup ssrc).getD { ssrc }

/-- The packet asks for a better place than its scheduled stream has. -/
def rekeys (q : RoundRobinPacketQueue) (packet : QueuedPacket) : Bool :=
  match (q.findStream packet.ssrc).priorityIt with
  | none => false
  | some it =>
    match q.streamPriorities.find? it with
    | none => false
    | some e => packet.priority < e.key.priority

/-- The end of `Push`: times and sizes. -/
def account (q : RoundRobinPacketQueue) (packet : QueuedPacket) : RoundRobinPacketQueue :=
  let q := q.updateQueueTime packet.enqueueTime
  { q with sizePackets := q.sizePackets + 1, size := q.size + packet.packetSize }

/-- A better priority erases the stream itself, so that its new entry and the packet go
to memory that is no longer a stream. -/
def push (q : RoundRobinPacketQueue) (packet : QueuedPacket) : RoundRobinPacketQueue :=
  let stream := q.findStream packet.ssrc
  let key : StreamPrioKey := ⟨packet.priority, stream.size⟩
  let q' := q.account packet
  if stream.priorityIt = none then
    { q' with
      streamPriorities := q.streamPriorities.emplace key packet.ssrc
      streams := q.streams.insert packet.ssrc { stream.emplace packet with priorityIt := some q.streamPriorities.next } }
  else if q.rekeys packet then
    { q' with
      streamPriorities := q.streamPriorities.emplace key packet.ssrc
      streams := q.streams.erase packet.ssrc
      usedErased := true }
  else { q' with streams := q.streams.insert packet.ssrc (stream.emplace packet) }

/-- The pointer to a stream: its place in the map and what stands there. -/
def getHighestPriorityStream (q : RoundRobinPacketQueue) : Option (UInt32 × Stream) := do
  let e ← q.streamPriorities.entries.head?
  let stream ← q.streams.lookup e.value
  return (e.value, stream)

/-- The new place of a stream after its entry was erased. -/
def reschedule (priorities : Multimap StreamPrioKey UInt32) (stream : Stream) :
    Multimap StreamPrioKey UInt32 × Option ℕ :=
  match stream.packetQueue.head? with
  | none => (priorities, none)
  | some top =>
    (priorities.emplace ⟨top.priority, stream.size⟩ stream.ssrc, some priorities.next)

/-- The packet with what the queue knew of it. Without a result something was used that
is not there. -/
def pop (q : RoundRobinPacketQueue) : Option (QueuedPacket × RoundRobinPacketQueue) := do
  let (place, stream) ← q.getHighestPriorityStream
  let queuedPacket ← stream.packetQueue.head?
  let it ← stream.priorityIt
  let size := max (stream.size + queuedPacket.packetSize) (q.maxSize - kMaxLeadingSize)
  let stream := { stream with size, packetQueue := stream.packetQueue.tail }
  let (streamPriorities, priorityIt) := reschedule (q.streamPriorities.erase it) stream
  return (queuedPacket, { q with
    sizePackets := q.sizePackets - 1
    maxSize := max size q.maxSize
    size := q.size - queuedPacket.packetSize
    streams := q.streams.insert place { stream with priorityIt }
    streamPriorities
    queueTimeSum := q.queueTimeSum - (q.lastTimeUpdated - queuedPacket.enqueueTime) })

end RoundRobinPacketQueue

/-- The queue as the pacing controller uses it, which numbers the packets. What was pushed
and popped is recorded. -/
structure PacketFlow where
  packetQueue : RoundRobinPacketQueue
  packetCounter : ℕ := 0
  pushed : List QueuedPacket := []
  popped : List QueuedPacket := []

/-- A packet is enqueued, or one is asked for. -/
inductive Event
  | enqueuePacket (priority now : ℤ) (packet : RtpPacketToSend)
  | getPendingPacket

namespace PacketFlow

def step (s : PacketFlow) : Event → PacketFlow
  | .enqueuePacket priority now packet =>
    let queued : QueuedPacket := ⟨priority, now, s.packetCounter, packet⟩
    { s with
      packetQueue := s.packetQueue.push queued
      packetCounter := s.packetCounter + 1
      pushed := s.pushed ++ [queued] }
  | .getPendingPacket =>
    if s.packetQueue.empty then s
    else
      match s.packetQueue.pop with
      | none => s
      | some (packet, packetQueue) => { s with packetQueue, popped := s.popped ++ [packet] }

end PacketFlow
end Pacing
end XrtcServer
