import XrtcServer.PacingController

/-! The sender that runs the pacer on a task queue: a delayed task processes packets and posts
the next one, and it is told from the others by the time that it was scheduled for. -/
namespace XrtcServer
namespace Pacing

def kDefaultMinPacketLimit : ℤ := 5000

def PacingController.nextSendTime (c : PacingController) : ℤ :=
  c.lastProcessTime + kDefaultMinPacketLimit

/-- The tasks that the calls post. -/
inductive PostedTask
  | start
  | enqueue (packetType : RtpPacketMediaType) (packet : RtpPacketToSend)
  deriving DecidableEq, Repr

/-- A task that processes packets, with the time that it has captured and its delay. -/
structure DelayedTask where
  scheduledProcessTime : ℤ
  delayMs : ℕ
  deriving DecidableEq, Repr

/-- A time of minus infinity is none. `posted` and `delayed` are the tasks that wait in the
task queue, `ran` the posted ones that have run. -/
structure TaskQueuePacedSender where
  pacingController : PacingController
  nextProcessTime : Option ℤ := none
  holdBackWindow : ℤ
  posted : List PostedTask := []
  delayed : List DelayedTask := []
  ran : List PostedTask := []

/-- The calls, and the tasks that the queue runs in any order. A task that runs reads the clock
for the pacer and once more afterwards. -/
inductive SenderEvent
  | ensureStarted
  | enqueuePacket (packetType : RtpPacketMediaType) (packet : RtpPacketToSend)
  | runPosted (i : ℕ) (processTime now : ℤ)
  | runDelayed (i : ℕ) (processTime now : ℤ)

namespace TaskQueuePacedSender

def create (startTime holdBackWindow : ℤ) : TaskQueuePacedSender where
  pacingController := (PacingController.start startTime).setPacingBitrate 800000
  holdBackWindow

/-- The first half of `MaybeProcessPackets`: only the task that is next processes packets. -/
def processIfScheduled (s : TaskQueuePacedSender) (scheduledProcessTime : Option ℤ)
    (processTime : ℤ) : TaskQueuePacedSender :=
  if scheduledProcessTime = s.nextProcessTime then
    { s with
      nextProcessTime := none
      pacingController := s.pacingController.processPackets processTime }
  else s

/-- The second half: a delayed task where none is scheduled. The delay is given in `uint32_t`. -/
def schedule (s : TaskQueuePacedSender) (now : ℤ) : TaskQueuePacedSender :=
  match s.nextProcessTime with
  | some _ => s
  | none =>
    let nextProcessTime := s.pacingController.nextSendTime
    let timeToNextSend := max (nextProcessTime - now) s.holdBackWindow
    { s with
      nextProcessTime := some nextProcessTime
      delayed := s.delayed ++ [⟨nextProcessTime, (ms timeToNextSend % 4294967296).toNat⟩] }

def maybeProcessPackets (s : TaskQueuePacedSender) (scheduledProcessTime : Option ℤ)
    (processTime now : ℤ) : TaskQueuePacedSender :=
  (s.processIfScheduled scheduledProcessTime processTime).schedule now

def runTask (s : TaskQueuePacedSender) (processTime now : ℤ) : PostedTask → TaskQueuePacedSender
  | .start => s.maybeProcessPackets none processTime now
  | .enqueue packetType packet =>
    { s with
      pacingController := s.pacingController.enqueuePacket processTime packetType packet }

def step (s : TaskQueuePacedSender) : SenderEvent → TaskQueuePacedSender
  | .ensureStarted => { s with posted := s.posted ++ [.start] }
  | .enqueuePacket packetType packet => { s with posted := s.posted ++ [.enqueue packetType packet] }
  | .runPosted i processTime now =>
    match s.posted[i]? with
    | none => s
    | some task =>
      { s with posted := s.posted.eraseIdx i, ran := s.ran ++ [task] }.runTask processTime now task
  | .runDelayed i processTime now =>
    match s.delayed[i]? with
    | none => s
    | some task =>
      { s with delayed := s.delayed.eraseIdx i }.maybeProcessPackets
        (some task.scheduledProcessTime) processTime now

variable {s : TaskQueuePacedSender} {processTime now : ℤ}

/-- The one delayed task is the next. -/
def Pending (s : TaskQueuePacedSender) : Prop :=
  ∃ task, s.delayed = [task] ∧ s.nextProcessTime = some task.scheduledProcessTime

/-- Nothing is scheduled before a start task has run, later one task is. -/
structure Chain (s : TaskQueuePacedSender) : Prop where
  idle : .start ∉ s.ran → s.delayed = [] ∧ s.nextProcessTime = none
  pending : .start ∈ s.ran → s.Pending

/-- What runs a delayed task processes the packets and schedules its one successor. -/
structure Continues (s s' : TaskQueuePacedSender) (processTime : ℤ) : Prop where
  processed : s'.pacingController = s.pacingController.processPackets processTime
  scheduled : ∃ successor, s'.delayed = s.delayed ++ [successor] ∧
    successor.scheduledProcessTime = s'.pacingController.nextSendTime ∧
      s'.nextProcessTime = some successor.scheduledProcessTime

/-- The task that is next continues the chain. -/
theorem maybeProcessPackets_continues (s : TaskQueuePacedSender) (processTime now : ℤ)
    {scheduled : Option ℤ} (h : scheduled = s.nextProcessTime) :
    s.Continues (s.maybeProcessPackets scheduled processTime now) processTime := by
  unfold maybeProcessPackets processIfScheduled
  rw [if_pos h]
  exact ⟨rfl, _, rfl, rfl, rfl⟩

/-- Any other leaves everything as it is. -/
theorem maybeProcessPackets_of_ne {scheduled : Option ℤ} {next : ℤ}
    (hnext : s.nextProcessTime = some next) (h : scheduled ≠ some next) :
    s.maybeProcessPackets scheduled processTime now = s := by
  unfold maybeProcessPackets processIfScheduled schedule
  rw [hnext, if_neg h, hnext]

@[simp] theorem ran_maybeProcessPackets (s : TaskQueuePacedSender) (scheduled : Option ℤ)
    (processTime now : ℤ) : (s.maybeProcessPackets scheduled processTime now).ran = s.ran := by
  unfold maybeProcessPackets processIfScheduled schedule
  split <;> split <;> rfl

/-- The first start task begins the chain, the others find it begun. -/
theorem pending_of_start (h : s.delayed = [] ∧ s.nextProcessTime = none ∨ s.Pending)
    (processTime now : ℤ) : (s.maybeProcessPackets none processTime now).Pending := by
  rcases h with ⟨hdelayed, hnext⟩ | ⟨task, hdelayed, hnext⟩
  · obtain ⟨-, successor, hs, -, hnext'⟩ :=
      s.maybeProcessPackets_continues processTime now hnext.symm
    exact ⟨successor, by rw [hs, hdelayed]; rfl, hnext'⟩
  · rw [maybeProcessPackets_of_ne hnext (by simp)]
    exact ⟨task, hdelayed, hnext⟩

theorem Chain.idle_or_pending (h : s.Chain) :
    s.delayed = [] ∧ s.nextProcessTime = none ∨ s.Pending := by
  by_cases hran : .start ∈ s.ran
  · exact Or.inr (h.pending hran)
  · exact Or.inl (h.idle hran)

theorem step_runDelayed_of_none {i : ℕ} (ht : s.delayed[i]? = none) :
    s.step (.runDelayed i processTime now) = s := by
  unfold TaskQueuePacedSender.step
  dsimp only
  rw [ht]

theorem step_runDelayed_of_some {i : ℕ} {task : DelayedTask} (ht : s.delayed[i]? = some task) :
    s.step (.runDelayed i processTime now) =
      { s with delayed := s.delayed.eraseIdx i }.maybeProcessPackets
        (some task.scheduledProcessTime) processTime now := by
  unfold TaskQueuePacedSender.step
  dsimp only
  rw [ht]

/-- A delayed task that waits is the one, and it continues the chain. -/
theorem Chain.runDelayed (h : s.Chain) {i : ℕ} {task : DelayedTask} (ht : s.delayed[i]? = some task)
    (processTime now : ℤ) :
    { s with delayed := s.delayed.eraseIdx i }.Continues (s.step (.runDelayed i processTime now))
      processTime := by
  have hnext : s.nextProcessTime = some task.scheduledProcessTime := by
    rcases h.idle_or_pending with ⟨hnil, -⟩ | ⟨task', hone, hnext⟩
    · simp [hnil] at ht
    · have hmem := List.mem_of_getElem? ht
      rw [hone, List.mem_singleton] at hmem
      rw [hmem]
      exact hnext
  rw [step_runDelayed_of_some ht]
  exact maybeProcessPackets_continues _ processTime now hnext.symm

theorem Chain.step_runDelayed (h : s.Chain) (i : ℕ) (processTime now : ℤ) :
    (s.step (.runDelayed i processTime now)).Chain := by
  cases ht : s.delayed[i]? with
  | none =>
    rw [step_runDelayed_of_none ht]
    exact h
  | some task =>
    obtain ⟨-, successor, hs, -, hnext⟩ := h.runDelayed ht processTime now
    have hran : (s.step (.runDelayed i processTime now)).ran = s.ran := by
      rw [step_runDelayed_of_some ht]
      exact ran_maybeProcessPackets _ _ _ _
    have hone : s.delayed.eraseIdx i = [] := by
      rcases h.idle_or_pending with ⟨hnil, -⟩ | ⟨task', hone, -⟩
      · rw [hnil]
        rfl
      · obtain ⟨hlt, -⟩ := List.getElem?_eq_some_iff.mp ht
        rw [hone, List.length_singleton, Nat.lt_one_iff] at hlt
        rw [hone, hlt]
        rfl
    have hpending : (s.step (.runDelayed i processTime now)).Pending :=
      ⟨successor, by rw [hs, hone]; rfl, hnext⟩
    refine ⟨fun hnot => ?_, fun _ => hpending⟩
    rw [hran] at hnot
    obtain ⟨hnil, -⟩ := h.idle hnot
    simp [hnil] at ht

theorem Chain.step_runPosted (h : s.Chain) (i : ℕ) (processTime now : ℤ) :
    (s.step (.runPosted i processTime now)).Chain := by
  unfold TaskQueuePacedSender.step
  dsimp only
  split
  · exact h
  · rename_i task _
    cases task with
    | start =>
      refine ⟨fun hnot => absurd (by simp [runTask]) hnot, fun _ => ?_⟩
      exact pending_of_start (s := { s with
        posted := s.posted.eraseIdx i, ran := s.ran ++ [.start] }) h.idle_or_pending processTime now
    | enqueue packetType packet =>
      have hran : PostedTask.start ∈ s.ran ++ [.enqueue packetType packet] ↔ .start ∈ s.ran := by simp
      exact ⟨fun hnot => h.idle fun hs => hnot (hran.mpr hs), fun hs => h.pending (hran.mp hs)⟩

theorem Chain.step (h : s.Chain) (e : SenderEvent) : (s.step e).Chain := by
  cases e with
  | ensureStarted => exact ⟨h.idle, h.pending⟩
  | enqueuePacket packetType packet => exact ⟨h.idle, h.pending⟩
  | runPosted i processTime now => exact h.step_runPosted i processTime now
  | runDelayed i processTime now => exact h.step_runDelayed i processTime now

theorem Chain.run (h : s.Chain) (es : List SenderEvent) :
    (Runs.run TaskQueuePacedSender.step s es).Chain := by
  induction es generalizing s with
  | nil => exact h
  | cons e es ih => exact ih (h.step e)

/-- Two start tasks, and a delayed task that runs before its time. -/
example : (Runs.run TaskQueuePacedSender.step (create 0 1000)
    [.ensureStarted, .ensureStarted, .runPosted 1 100 100, .runPosted 0 200 200,
      .runDelayed 0 4900 4900]).delayed = [⟨9900, 5⟩] := by decide

end TaskQueuePacedSender
end Pacing
end XrtcServer
