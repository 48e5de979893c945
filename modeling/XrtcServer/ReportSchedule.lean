import XrtcServer.ReportFlags
import Mathlib.Data.List.Chain

/-! When a module sends its RTCP: every report plans the next one, and a delayed task is posted for it. -/
namespace XrtcServer
namespace Rtcp
namespace RTCPSender
variable {s : RTCPSender} {call : Call}

/-- The call comes to `PrepareReport`. -/
def prepares (s : RTCPSender) (call : Call) : Bool :=
  let s := s.setFlag call.packetType
  if s.lastFrameCaptureTime.isNone then
    let sr := s.consumeFlag kRtcpSr false
    let report := sr.1.consumeFlag kRtcpReport false
    let s := report.1
    if (sr.2 || report.2) && s.allVolatileFlagsConsumed then false
    else !(s.sending && s.mode = .compound)
  else true

/-- What is left of a sender when its flags, its counts and the time of its next report are not
looked at. -/
def rest (s : RTCPSender) : RTCPSender :=
  { s with reportFlags := [], nackStats := {}, packetTypeCounter := {}, nextTimeToSendRtcp := none }

@[simp] theorem rest_setFlag (type : UInt32) : (s.setFlag type).rest = s.rest := by
  unfold setFlag
  split <;> rfl

@[simp] theorem next_setFlag (type : UInt32) :
    (s.setFlag type).nextTimeToSendRtcp = s.nextTimeToSendRtcp := by
  unfold setFlag
  split <;> rfl

@[simp] theorem rest_consumeFlag (type : UInt32) (forced : Bool) :
    (s.consumeFlag type forced).1.rest = s.rest := by
  unfold consumeFlag
  split
  · rfl
  · split <;> rfl

@[simp] theorem next_consumeFlag (type : UInt32) (forced : Bool) :
    (s.consumeFlag type forced).1.nextTimeToSendRtcp = s.nextTimeToSendRtcp := by
  unfold consumeFlag
  split
  · rfl
  · split <;> rfl

@[simp] theorem rest_build (type : UInt32) : (s.build call type).1.rest = s.rest := by
  unfold build
  split_ifs <;> rfl

@[simp] theorem next_build (type : UInt32) :
    (s.build call type).1.nextTimeToSendRtcp = s.nextTimeToSendRtcp := by
  unfold build
  split_ifs <;> rfl

theorem buildFlags_keeps (flags : List ReportFlag) : (buildFlags call flags s).1.rest = s.rest ∧
    (buildFlags call flags s).1.nextTimeToSendRtcp = s.nextTimeToSendRtcp := by
  induction flags generalizing s with
  | nil => exact ⟨rfl, rfl⟩
  | cons flag flags ih =>
    rw [buildFlags]
    dsimp only
    rw [ih.1, ih.2, rest_build, next_build]
    split <;> exact ⟨rfl, rfl⟩

@[simp] theorem rest_prepareAndBuild : (s.prepareAndBuild call).1.rest = s.rest := by
  have hkeeps := @buildFlags_keeps (s.prepareReport call) call (s.prepareReport call).reportFlags
  refine hkeeps.1.trans ?_
  calc (s.prepareReport call).rest
      = ((s.consumeFlag kRtcpReport false).1.setFlag (if (s.consumeFlag kRtcpReport false).1.sending
          then kRtcpSr else kRtcpRr)).rest := rfl
    _ = s.rest := by rw [rest_setFlag, rest_consumeFlag]

@[simp] theorem next_prepareAndBuild :
    (s.prepareAndBuild call).1.nextTimeToSendRtcp = some (call.now + call.timeToNext) :=
  (@buildFlags_keeps (s.prepareReport call) call (s.prepareReport call).reportFlags).2

/-- A call plans the next report exactly if it comes to prepare one. -/
theorem sendRTCP_plans (s : RTCPSender) (call : Call) : (s.sendRTCP call).1.rest = s.rest ∧
    (s.sendRTCP call).1.nextTimeToSendRtcp =
      if s.prepares call then some (call.now + call.timeToNext) else s.nextTimeToSendRtcp := by
  unfold sendRTCP computeCompoundRTCPPacket prepares
  dsimp only
  split
  · split
    · simp only [rest_setFlag, rest_consumeFlag, next_setFlag, next_consumeFlag, and_self,
        Bool.false_eq_true, if_false]
    · split
      · next hrefused =>
        simp only [hrefused, rest_setFlag, rest_consumeFlag, next_setFlag, next_consumeFlag, Bool.not_true,
          Bool.false_eq_true, if_false, and_self]
      · next hrefused =>
        simp only [hrefused, rest_prepareAndBuild, next_prepareAndBuild, rest_setFlag, rest_consumeFlag,
          Bool.not_false, if_true, and_self]
  · simp only [rest_prepareAndBuild, next_prepareAndBuild, rest_setFlag, if_true, and_self]

/-- Once a frame was sent nothing keeps a call from its report. -/
theorem prepares_of_captured (h : s.lastFrameCaptureTime ≠ none) : s.prepares call = true := by
  have hset : (s.setFlag call.packetType).lastFrameCaptureTime = s.lastFrameCaptureTime := by
    change (s.setFlag call.packetType).rest.lastFrameCaptureTime = s.rest.lastFrameCaptureTime
    rw [rest_setFlag]
  rw [prepares, hset, if_neg (by simpa using h)]

/-- A video stream looks ahead a little for a report that goes before a key frame. -/
def rtcpBeforeKeyFrame : ℤ := 100 * 1000

/-- The time of the next report is set with the status, before any call. -/
def timeToSendRTCPPacket (s : RTCPSender) (audio sendBeforeKeyframe : Bool) (now : ℤ) : Bool :=
  match s.nextTimeToSendRtcp with
  | none => false
  | some next => (if !audio && sendBeforeKeyframe then now + rtcpBeforeKeyFrame else now) ≥ next

end RTCPSender

/-- A task that the thread got with a delay: it runs when it is due, or somewhat off it. -/
structure DelayedTask where
  executeTime : ℤ
  dueTime : ℤ

/-- A report was planned: when, for when, and whether by a task. -/
structure Plan where
  time : ℤ
  next : ℤ
  byTask : Bool

/-- The next report is from half an interval to one and a half after the plan is made. -/
def Plan.InRange (ms : ℤ) (plan : Plan) : Prop :=
  plan.time + ms / 2 * 1000 ≤ plan.next ∧ plan.next ≤ plan.time + ms * 3 / 2 * 1000

/-- A report that a task makes waits for the time that was planned before. -/
def Plan.After (later earlier : Plan) : Prop := later.byTask = true → earlier.next ≤ later.time

/-- The tasks wait in the thread; the plans are kept with the newest first, and the clock is that of the
newest call. -/
structure ModuleRtpRtcpImpl where
  audio : Bool
  sender : RTCPSender
  tasks : List DelayedTask
  plans : List Plan
  clock : ℤ

namespace ModuleRtpRtcpImpl

def delayMillisForDuration (duration : ℤ) : ℤ := (duration + 1000 - 1).tdiv 1000

def scheduleMaybeSendRtcpAtOrAfterTimestamp (s : ModuleRtpRtcpImpl) (executeTime duration now : ℤ) :
    ModuleRtpRtcpImpl :=
  { s with tasks := s.tasks ++ [⟨executeTime, now + delayMillisForDuration duration * 1000⟩] }

/-- A duration of zero, for which nothing is posted, is not drawn. -/
def scheduleNextRtcpSend (s : ModuleRtpRtcpImpl) (duration now : ℤ) : ModuleRtpRtcpImpl :=
  if duration = 0 then s
  else s.scheduleMaybeSendRtcpAtOrAfterTimestamp (now + duration) duration now

/-- What `SetNextRtcpSendEvaluationDuration` does outside of the sender. -/
def plan (s : ModuleRtpRtcpImpl) (duration now : ℤ) (byTask : Bool) : ModuleRtpRtcpImpl :=
  { s with plans := ⟨now, now + duration, byTask⟩ :: s.plans }.scheduleNextRtcpSend duration now

def sendRTCP (s : ModuleRtpRtcpImpl) (call : Call) (byTask : Bool) : ModuleRtpRtcpImpl :=
  let sent := { s with sender := (s.sender.sendRTCP call).1 }
  if s.sender.prepares call then sent.plan call.timeToNext call.now byTask else sent

def maybeSendRTCP (s : ModuleRtpRtcpImpl) (call : Call) : ModuleRtpRtcpImpl :=
  if s.sender.timeToSendRTCPPacket s.audio false call.now then
    s.sendRTCP { call with packetType := kRtcpReport, nackList := [] } true
  else s

def onSendingRtpFrame (s : ModuleRtpRtcpImpl) (rtpTimestamp : UInt32) (captureTimeMs : ℤ)
    (forcedReport : Bool) (call : Call) : ModuleRtpRtcpImpl :=
  let captureTime := if captureTimeMs > 0 then some (captureTimeMs * 1000) else none
  let s := { s with sender := s.sender.setLastRtpTimestamp rtpTimestamp captureTime call.now }
  if s.sender.timeToSendRTCPPacket s.audio forcedReport call.now then
    s.sendRTCP { call with packetType := kRtcpReport, nackList := [] } false
  else s

/-- A task that runs too early is posted once more. -/
def runTask (s : ModuleRtpRtcpImpl) (task : DelayedTask) (call : Call) : ModuleRtpRtcpImpl :=
  if call.now ≥ task.executeTime then s.maybeSendRTCP call
  else s.scheduleMaybeSendRtcpAtOrAfterTimestamp task.executeTime (task.executeTime - call.now) call.now

inductive Action
  | runTask (i : ℕ)
  | sendRTCPReceiveReport
  | sendNack (sequenceNumbers : List UInt16)
  | onSendingRtpFrame (rtpTimestamp : UInt32) (captureTimeMs : ℤ) (forcedReport : Bool)
  | setSendingStatus (sending : Bool)

/-- What is done, and the call with the clock and what is drawn if a report is prepared. -/
structure Event where
  action : Action
  call : Call

def act (s : ModuleRtpRtcpImpl) (call : Call) : Action → ModuleRtpRtcpImpl
  | .runTask i =>
    match s.tasks[i]? with
    | none => s
    | some task => { s with tasks := s.tasks.eraseIdx i }.runTask task call
  | .sendRTCPReceiveReport => s.sendRTCP { call with packetType := kRtcpRr, nackList := [] } false
  | .sendNack sequenceNumbers =>
    s.sendRTCP { call with packetType := kRtcpNack, nackList := sequenceNumbers } false
  | .onSendingRtpFrame rtpTimestamp captureTimeMs forcedReport =>
    s.onSendingRtpFrame rtpTimestamp captureTimeMs forcedReport call
  | .setSendingStatus sending => { s with sender := { s.sender with sending } }

def step (s : ModuleRtpRtcpImpl) (e : Event) : ModuleRtpRtcpImpl :=
  { s.act e.call e.action with clock := e.call.now }

def kDefaultAudioRtcpIntervalMs : ℤ := 5000
def kDefaultVideoRtcpIntervalMs : ℤ := 1000

/-- In milliseconds. -/
def getReportInterval (audio : Bool) (rtcpReportIntervalMs : ℤ) : ℤ :=
  if rtcpReportIntervalMs > 0 then rtcpReportIntervalMs
  else if audio then kDefaultAudioRtcpIntervalMs else kDefaultVideoRtcpIntervalMs

/-- A module when its stream has set the status. -/
def create (audio sending : Bool) (localSsrc remoteSsrc : UInt32) (clockRate rtcpReportIntervalMs now : ℤ) :
    ModuleRtpRtcpImpl :=
  let reportInterval := getReportInterval audio rtcpReportIntervalMs * 1000
  let sender : RTCPSender := { localSsrc, remoteSsrc, clockRate, reportInterval }
  let s : ModuleRtpRtcpImpl :=
    { audio, sender := { sender.setRTCPStatus .compound now with sending }, tasks := [], plans := [], clock := now }
  s.plan (reportInterval / 2) now false

variable {s : ModuleRtpRtcpImpl} {call : Call} {ms now : ℤ}

theorem getReportInterval_pos (audio : Bool) (rtcpReportIntervalMs : ℤ) :
    0 < getReportInterval audio rtcpReportIntervalMs := by
  unfold getReportInterval
  split_ifs <;> simp_all [kDefaultAudioRtcpIntervalMs, kDefaultVideoRtcpIntervalMs]

/-- Delays are rounded up to milliseconds. -/
theorem delay_bounds {duration : ℤ} (h : 0 ≤ duration) :
    duration ≤ delayMillisForDuration duration * 1000 ∧
      delayMillisForDuration duration * 1000 < duration + 1000 := by
  rw [delayMillisForDuration, Int.tdiv_eq_ediv_of_nonneg (by omega)]
  omega

/-- A task is posted that runs at a time, less than a millisecond late by its delay. -/
def Awaits (s : ModuleRtpRtcpImpl) (next : ℤ) : Prop :=
  ∃ task ∈ s.tasks, task.executeTime = next ∧ next ≤ task.dueTime ∧ task.dueTime < next + 1000

theorem awaits_schedule {next : ℤ} (h : now ≤ next) :
    (s.scheduleMaybeSendRtcpAtOrAfterTimestamp next (next - now) now).Awaits next := by
  have ⟨hle, hlt⟩ := delay_bounds (Int.sub_nonneg.mpr h)
  refine ⟨_, List.mem_append_right _ (List.mem_singleton_self _), rfl, ?_, ?_⟩ <;> dsimp only <;> omega

/-- The sender keeps to the newest plan, and it has a task or its time is over. -/
structure Ready (ms now : ℤ) (s : ModuleRtpRtcpImpl) : Prop where
  newest : ∃ plan, s.plans.head? = some plan ∧ s.sender.nextTimeToSendRtcp = some plan.next ∧
    (s.Awaits plan.next ∨ plan.next ≤ now)
  range : ∀ plan ∈ s.plans, plan.InRange ms
  spaced : s.plans.IsChain Plan.After

/-- The newest plan has a task. -/
def Awaiting (s : ModuleRtpRtcpImpl) : Prop := ∀ plan ∈ s.plans.head?, s.Awaits plan.next

/-- What a sender draws for the next report. -/
def Drawn (ms : ℤ) (call : Call) : Prop :=
  0 < call.timeToNext ∧ ms / 2 * 1000 ≤ call.timeToNext ∧ call.timeToNext ≤ ms * 3 / 2 * 1000

theorem plan_eq {duration : ℤ} {byTask : Bool} (h : 0 < duration) :
    s.plan duration now byTask =
      { s with plans := ⟨now, now + duration, byTask⟩ :: s.plans }.scheduleMaybeSendRtcpAtOrAfterTimestamp
        (now + duration) ((now + duration) - now) now := by
  rw [plan, scheduleNextRtcpSend, if_neg h.ne', add_sub_cancel_left]

/-- A call that prepares a report makes a plan with a task, any other leaves the plan. -/
theorem Ready.sendRTCP {byTask : Bool} (h : Ready ms call.now s) (hdrawn : Drawn ms call)
    (hlate : byTask = true → ∀ plan ∈ s.plans.head?, plan.next ≤ call.now) :
    Ready ms call.now (s.sendRTCP call byTask) ∧
      (s.sender.prepares call = true ∨ s.Awaiting → (s.sendRTCP call byTask).Awaiting) := by
  have ⟨plan, hhead, hnext, hawaits⟩ := h.newest
  obtain ⟨-, hplans⟩ := RTCPSender.sendRTCP_plans s.sender call
  unfold ModuleRtpRtcpImpl.sendRTCP
  dsimp only
  cases hprepares : s.sender.prepares call with
  | true =>
    rw [hprepares, if_pos rfl] at hplans
    rw [if_pos rfl, plan_eq hdrawn.1]
    have hdue : call.now ≤ call.now + call.timeToNext := by have := hdrawn.1; omega
    have hnew := @awaits_schedule { s with
      sender := (s.sender.sendRTCP call).1
      plans := ⟨call.now, call.now + call.timeToNext, byTask⟩ :: s.plans } _ _ hdue
    refine ⟨⟨⟨_, rfl, hplans, .inl hnew⟩, ?_, ?_⟩, fun _ plan hplan => ?_⟩
    · intro plan hplan
      rcases List.mem_cons.mp hplan with rfl | hold
      · exact ⟨by dsimp only; have := hdrawn.2.1; omega, by dsimp only; have := hdrawn.2.2; omega⟩
      · exact h.range plan hold
    · refine List.isChain_cons.mpr ⟨fun earlier hearlier hby => ?_, h.spaced⟩
      exact hlate hby earlier hearlier
    · obtain rfl := Option.some.inj hplan
      exact hnew
  | false =>
    rw [hprepares, if_neg (by decide)] at hplans
    rw [if_neg (by decide)]
    refine ⟨⟨⟨plan, hhead, hplans.trans hnext, hawaits⟩, h.range, h.spaced⟩, ?_⟩
    rintro (hfalse | hawaiting)
    · cases hfalse
    · exact hawaiting

theorem lastFrame_sendRTCP {byTask : Bool} :
    (s.sendRTCP call byTask).sender.lastFrameCaptureTime = s.sender.lastFrameCaptureTime := by
  have hrest : (s.sender.sendRTCP call).1.lastFrameCaptureTime = s.sender.lastFrameCaptureTime := by
    change (s.sender.sendRTCP call).1.rest.lastFrameCaptureTime = s.sender.rest.lastFrameCaptureTime
    rw [(RTCPSender.sendRTCP_plans s.sender call).1]
  unfold ModuleRtpRtcpImpl.sendRTCP
  dsimp only
  split
  · unfold plan scheduleNextRtcpSend
    split <;> exact hrest
  · exact hrest

/-- A call that finds it too early leaves a plan for later. -/
theorem lt_of_not_time {plan : Plan} {sendBeforeKeyframe : Bool}
    (hnext : s.sender.nextTimeToSendRtcp = some plan.next)
    (htime : ¬s.sender.timeToSendRTCPPacket s.audio sendBeforeKeyframe now = true) : now < plan.next := by
  have hahead : (0 : ℤ) ≤ RTCPSender.rtcpBeforeKeyFrame := by decide
  rw [RTCPSender.timeToSendRTCPPacket, hnext] at htime
  dsimp only at htime
  split at htime <;> simp at htime <;> omega

theorem le_of_time {plan : Plan} (hnext : s.sender.nextTimeToSendRtcp = some plan.next)
    (htime : s.sender.timeToSendRTCPPacket s.audio false now = true) : plan.next ≤ now := by
  rw [RTCPSender.timeToSendRTCPPacket, hnext] at htime
  simpa using htime

/-- A call that is not made by a task. -/
theorem Ready.answer (h : Ready ms call.now s) (hdrawn : Drawn ms call)
    (hawaiting : s.sender.lastFrameCaptureTime ≠ none → s.sender.prepares call = true ∨ s.Awaiting) :
    Ready ms call.now (s.sendRTCP call false) ∧
      ((s.sendRTCP call false).sender.lastFrameCaptureTime ≠ none → (s.sendRTCP call false).Awaiting) := by
  have ⟨hsent, hfresh⟩ := h.sendRTCP hdrawn fun hfalse : false = true => by cases hfalse
  refine ⟨hsent, fun hframe => hfresh (hawaiting ?_)⟩
  rwa [lastFrame_sendRTCP] at hframe

/-- A task that finds the plan due makes the next one, unless no frame was sent yet. -/
theorem Ready.maybeSendRTCP (h : Ready ms call.now s) (hdrawn : Drawn ms call) :
    Ready ms call.now (s.maybeSendRTCP call) ∧
      ((s.maybeSendRTCP call).sender.lastFrameCaptureTime ≠ none → (s.maybeSendRTCP call).Awaiting) := by
  have ⟨plan, hhead, hnext, hawaits⟩ := h.newest
  unfold ModuleRtpRtcpImpl.maybeSendRTCP
  split
  · next htime =>
    have hlate : ∀ plan' ∈ s.plans.head?, plan'.next ≤ call.now := fun plan' hplan' => by
      obtain rfl := Option.some.inj (hhead.symm.trans hplan')
      exact le_of_time hnext htime
    have ⟨hready, hfresh⟩ := @Ready.sendRTCP s { call with packetType := kRtcpReport, nackList := [] } ms true
      h hdrawn fun _ => hlate
    refine ⟨hready, fun hframe => hfresh (.inl (RTCPSender.prepares_of_captured ?_))⟩
    rwa [lastFrame_sendRTCP] at hframe
  · next htime =>
    refine ⟨h, fun _ plan' hplan' => ?_⟩
    obtain rfl := Option.some.inj (hhead.symm.trans hplan')
    exact hawaits.resolve_right (lt_of_not_time hnext htime).not_ge

/-- Between the calls: once a frame was sent the newest plan has a task. -/
structure Planned (ms : ℤ) (s : ModuleRtpRtcpImpl) : Prop extends Ready ms s.clock s where
  awaiting : s.sender.lastFrameCaptureTime ≠ none → s.Awaiting

theorem Ready.mono {now' : ℤ} (h : Ready ms now s) (hle : now ≤ now') : Ready ms now' s := by
  have ⟨plan, hhead, hnext, hawaits⟩ := h.newest
  exact ⟨⟨plan, hhead, hnext, hawaits.imp_right fun hdue => Int.le_trans hdue hle⟩, h.range, h.spaced⟩

/-- The task that is taken is not the one of the plan, or it is time for the plan. -/
theorem Ready.runTask (h : Ready ms call.now s) (hdrawn : Drawn ms call) {i : ℕ} {task : DelayedTask}
    (hi : s.tasks[i]? = some task) (hawaiting : s.sender.lastFrameCaptureTime ≠ none → s.Awaiting) :
    let t := { s with tasks := s.tasks.eraseIdx i }.runTask task call
    Ready ms call.now t ∧ (t.sender.lastFrameCaptureTime ≠ none → t.Awaiting) := by
  have ⟨plan, hhead, hnext, hawaits⟩ := h.newest
  have hother {next : ℤ} (hne : task.executeTime ≠ next) (hold : s.Awaits next) :
      { s with tasks := s.tasks.eraseIdx i }.Awaits next := by
    obtain ⟨task', hmem, hexecute, hdue⟩ := hold
    obtain ⟨j, hj⟩ := List.mem_iff_getElem?.mp hmem
    refine ⟨task', List.mem_eraseIdx_iff_getElem?.mpr ⟨j, fun hji => hne ?_, hj⟩, hexecute, hdue⟩
    rw [hji, hi] at hj
    rw [Option.some.inj hj, hexecute]
  unfold ModuleRtpRtcpImpl.runTask
  dsimp only
  split
  · next hdue =>
    refine Ready.maybeSendRTCP ⟨⟨plan, hhead, hnext, ?_⟩, h.range, h.spaced⟩ hdrawn
    by_cases htask : task.executeTime = plan.next
    · exact .inr (htask ▸ hdue)
    · exact hawaits.imp_left (hother htask)
  · next hearly =>
    have hposted : ({ s with tasks := s.tasks.eraseIdx i }.scheduleMaybeSendRtcpAtOrAfterTimestamp
        task.executeTime (task.executeTime - call.now) call.now).Awaits task.executeTime :=
      awaits_schedule (by omega)
    have hkept {next : ℤ} (hold : s.Awaits next) :
        ({ s with tasks := s.tasks.eraseIdx i }.scheduleMaybeSendRtcpAtOrAfterTimestamp
          task.executeTime (task.executeTime - call.now) call.now).Awaits next := by
      by_cases htask : task.executeTime = next
      · exact htask ▸ hposted
      · obtain ⟨task', hmem, hbounds⟩ := hother htask hold
        exact ⟨task', List.mem_append_left _ hmem, hbounds⟩
    exact ⟨⟨⟨plan, hhead, hnext, hawaits.imp_left hkept⟩, h.range, h.spaced⟩,
      fun hframe plan' hplan' => hkept (hawaiting hframe plan' hplan')⟩

/-- Time does not go back, and a report that is prepared draws the time of the next. -/
def Allowed (ms : ℤ) (s : ModuleRtpRtcpImpl) (e : Event) : Prop := s.clock ≤ e.call.now ∧ Drawn ms e.call

theorem Ready.planned (h : Ready ms now s) (hawaiting : s.sender.lastFrameCaptureTime ≠ none → s.Awaiting) :
    Planned ms { s with clock := now } := ⟨⟨h.newest, h.range, h.spaced⟩, hawaiting⟩

/-- A frame makes a report due that was missed before the first one. -/
theorem Ready.onSendingRtpFrame (h : Ready ms call.now s) (hdrawn : Drawn ms call) (rtpTimestamp : UInt32)
    (captureTimeMs : ℤ) (forcedReport : Bool) :
    let t := s.onSendingRtpFrame rtpTimestamp captureTimeMs forcedReport call
    Ready ms call.now t ∧ (t.sender.lastFrameCaptureTime ≠ none → t.Awaiting) := by
  have ⟨plan, hhead, hnext, hawaits⟩ := h.newest
  unfold ModuleRtpRtcpImpl.onSendingRtpFrame
  dsimp only
  generalize (if captureTimeMs > 0 then some (captureTimeMs * 1000) else none) = captureTime
  have hcaptured : (s.sender.setLastRtpTimestamp rtpTimestamp captureTime call.now).lastFrameCaptureTime ≠ none :=
    Option.some_ne_none _
  have hset : Ready ms call.now
      { s with sender := s.sender.setLastRtpTimestamp rtpTimestamp captureTime call.now } :=
    ⟨⟨plan, hhead, hnext, hawaits⟩, h.range, h.spaced⟩
  split
  · exact @Ready.answer { s with sender := s.sender.setLastRtpTimestamp rtpTimestamp captureTime call.now }
      { call with packetType := kRtcpReport, nackList := [] } ms hset hdrawn
      fun hframe => .inl (RTCPSender.prepares_of_captured hframe)
  · next htime =>
    refine ⟨hset, fun _ plan' hplan' => ?_⟩
    obtain rfl := Option.some.inj (hhead.symm.trans hplan')
    exact hawaits.resolve_right (lt_of_not_time (s := { s with
      sender := s.sender.setLastRtpTimestamp rtpTimestamp captureTime call.now }) hnext htime).not_ge

theorem Planned.step {e : Event} (h : Planned ms s) (he : Allowed ms s e) : Planned ms (s.step e) := by
  have hready : Ready ms e.call.now s := h.toReady.mono he.1
  obtain ⟨action, call⟩ := e
  suffices h' : Ready ms call.now (s.act call action) ∧
      ((s.act call action).sender.lastFrameCaptureTime ≠ none → (s.act call action).Awaiting) from
    h'.1.planned h'.2
  have hdrawn : Drawn ms call := he.2
  cases action with
  | runTask i =>
    rw [act]
    cases hi : s.tasks[i]? with
    | none => exact ⟨hready, h.awaiting⟩
    | some task => exact hready.runTask hdrawn hi h.awaiting
  | sendRTCPReceiveReport =>
    exact @Ready.answer s { call with packetType := kRtcpRr, nackList := [] } ms hready hdrawn
      fun hframe => .inr (h.awaiting hframe)
  | sendNack sequenceNumbers =>
    exact @Ready.answer s { call with packetType := kRtcpNack, nackList := sequenceNumbers } ms hready hdrawn
      fun hframe => .inr (h.awaiting hframe)
  | onSendingRtpFrame rtpTimestamp captureTimeMs forcedReport =>
    exact hready.onSendingRtpFrame hdrawn rtpTimestamp captureTimeMs forcedReport
  | setSendingStatus sending => exact ⟨⟨hready.newest, hready.range, hready.spaced⟩, h.awaiting⟩

theorem planned_create (audio sending : Bool) (localSsrc remoteSsrc : UInt32)
    (clockRate rtcpReportIntervalMs now : ℤ) : Planned (getReportInterval audio rtcpReportIntervalMs)
      (create audio sending localSsrc remoteSsrc clockRate rtcpReportIntervalMs now) := by
  have hpos := getReportInterval_pos audio rtcpReportIntervalMs
  unfold create
  generalize getReportInterval audio rtcpReportIntervalMs = ms at hpos ⊢
  dsimp only
  rw [plan_eq (by omega)]
  have hawaits (s : ModuleRtpRtcpImpl) := @awaits_schedule s now (now + ms * 1000 / 2) (by omega)
  refine ⟨⟨⟨_, rfl, rfl, .inl (hawaits _)⟩, fun plan hplan => ?_, .singleton _⟩, fun _ plan hplan => ?_⟩
  · obtain rfl := List.mem_singleton.mp hplan
    constructor <;> dsimp only <;> omega
  · obtain rfl := Option.some.inj hplan
    exact hawaits _

/-- In every run a plan is for half an interval to one and a half after it is made, a report that a task
makes does not come before the time that was planned last, and from the first frame on a task waits for the
newest plan, less than a millisecond late by its delay. -/
theorem reports_planned {es : List Event} (audio sending : Bool) (localSsrc remoteSsrc : UInt32)
    (clockRate rtcpReportIntervalMs now : ℤ)
    (h : Runs.Along step (Allowed (getReportInterval audio rtcpReportIntervalMs))
      (create audio sending localSsrc remoteSsrc clockRate rtcpReportIntervalMs now) es) :
    let ms := getReportInterval audio rtcpReportIntervalMs
    let s := Runs.run step (create audio sending localSsrc remoteSsrc clockRate rtcpReportIntervalMs now) es
    (∀ plan ∈ s.plans, plan.time + ms / 2 * 1000 ≤ plan.next ∧ plan.next ≤ plan.time + ms * 3 / 2 * 1000) ∧
      s.plans.IsChain (fun later earlier => later.byTask = true → earlier.next ≤ later.time) ∧
      ∃ plan ∈ s.plans.head?, s.sender.nextTimeToSendRtcp = some plan.next ∧
        (s.sender.lastFrameCaptureTime ≠ none → ∃ task ∈ s.tasks,
          task.executeTime = plan.next ∧ plan.next ≤ task.dueTime ∧ task.dueTime < plan.next + 1000) := by
  have hplanned := Runs.invariant_run (fun s e => Planned.step)
    (planned_create audio sending localSsrc remoteSsrc clockRate rtcpReportIntervalMs now) h
  obtain ⟨plan, hhead, hnext, -⟩ := hplanned.newest
  exact ⟨hplanned.range, hplanned.spaced, plan, hhead, hnext,
    fun hframe => hplanned.awaiting hframe plan hhead⟩

instance : Decidable (Allowed ms s e) := inferInstanceAs (Decidable (_ ∧ _ ∧ _ ∧ _))

/-- A video stream sends a frame, and the task of the first plan runs. -/
def firstReport : List Event :=
  [⟨.onSendingRtpFrame 90000 20 false, { packetType := kRtcpReport, now := 100000, timeToNext := 500000 }⟩,
    ⟨.runTask 0, { packetType := kRtcpReport, now := 500000, timeToNext := 1200000 }⟩]

theorem reports_planned_first :
    ∃ plan ∈ (Runs.run step (create false true 1 2 90000 1000 0) firstReport).plans.head?,
      (Runs.run step (create false true 1 2 90000 1000 0) firstReport).sender.nextTimeToSendRtcp = some plan.next ∧
      ∃ task ∈ (Runs.run step (create false true 1 2 90000 1000 0) firstReport).tasks,
        task.executeTime = plan.next ∧ plan.next ≤ task.dueTime ∧ task.dueTime < plan.next + 1000 := by
  obtain ⟨-, -, plan, hplan, hnext, htask⟩ := reports_planned false true 1 2 90000 1000 0
    (show Runs.Along step (Allowed 1000) (create false true 1 2 90000 1000 0) firstReport by decide)
  exact ⟨plan, hplan, hnext, htask (by decide)⟩

end ModuleRtpRtcpImpl
end Rtcp
end XrtcServer
