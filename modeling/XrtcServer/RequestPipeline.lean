import XrtcServer.RtcServer
import XrtcServer.Relays
import Mathlib.Data.Fintype.Sum
import Mathlib.Tactic.DeriveFintype

/-! The threads that a request goes through: a signaling worker makes a message of it, the server passes
the message to the worker for its stream name, and that worker sends it back as the reply. -/
namespace XrtcServer
namespace Server
open XrtcServer.Stream Relays

inductive Thread (rtcNum signalingNum : ℕ)
  | server
  | rtc (k : Fin rtcNum)
  | signaling (w : Fin signalingNum)
  deriving DecidableEq, Fintype

/-- What a thread meets while it processes a message: whether there is a valid certificate, and what the
peer connection of a new stream does. -/
structure Meets where
  certified : Bool
  outcome : PeerOutcome

instance : Nonempty Meets := ⟨⟨true, {}⟩⟩

/-- A signal or a timer of a stream. -/
inductive Signal
  | connectionState (i : ℕ) (state : PeerConnectionState)
  | iceTimeout (i : ℕ)

def Signal.event : Signal → RtcStreamManager.Event
  | connectionState i state => .connectionState i state
  | iceTimeout i => .iceTimeout i

namespace RtcMsg

/-- The message with what the worker found, as it goes back. -/
def answered (msg : RtcMsg) (ret : ℤ) (answer : String) : RtcMsg :=
  { msg with errNo := if ret ≠ 0 then -1 else msg.errNo, sdp := answer }

/-- What the reply to a message has of it. -/
def asked (msg : RtcMsg) : RtcMsg := { msg with errNo := 0, sdp := "" }

/-- The messages that are answered to a signaling worker. -/
def AnsweredTo (w : ℕ) (msg : RtcMsg) : Bool := (msg.cmdno = cmdnoPush || msg.cmdno = cmdnoPull) && msg.worker = some w

end RtcMsg

/-- `_process_rtc_msg` of a worker: what becomes of its streams, and the reply. -/
def rtcProcess (m : RtcStreamManager) (msg : RtcMsg) (outcome : PeerOutcome) : RtcStreamManager × Option RtcMsg :=
  if msg.cmdno = cmdnoPush then
    let result := m.createPushStream msg outcome
    (result.1, some (RtcMsg.answered msg result.2.1 result.2.2))
  else if msg.cmdno = cmdnoPull then
    let result := m.createPullStream msg outcome
    (result.1, some (RtcMsg.answered msg result.2.1 result.2.2))
  else if msg.cmdno = cmdnoStoppush then (m.stopPush msg.uid.toUInt64 msg.streamName, none)
  else if msg.cmdno = cmdnoStoppull then (m.stopPull msg.uid.toUInt64 msg.streamName, none)
  else (m, none)

namespace Pipeline
variable {rtcNum signalingNum : ℕ}

/-- The worker for a stream name, if there are workers. -/
def getWorker (rtcNum : ℕ) (streamName : String) : Option (Fin rtcNum) :=
  if h : 0 < rtcNum then some ⟨RtcServer.workerIndex rtcNum streamName, Nat.mod_lt _ h⟩ else none

/-- The signaling worker that a message came from, if it names one. -/
def replyTo (signalingNum : ℕ) (msg : RtcMsg) : Option (Fin signalingNum) :=
  msg.worker.bind fun w => if h : w < signalingNum then some ⟨w, h⟩ else none

/-- A signaling worker passes nothing on, it answers on the connection. -/
def serve (thread : Thread rtcNum signalingNum) (meets : Meets) (m : RtcStreamManager) (msg : RtcMsg) :
    RtcStreamManager × Option (Thread rtcNum signalingNum × RtcMsg) :=
  match thread with
  | .server => (m, if meets.certified then (getWorker rtcNum msg.streamName).map fun k => (.rtc k, msg) else none)
  | .rtc _ =>
    let result := rtcProcess m msg meets.outcome
    (result.1, result.2.bind fun reply => (replyTo signalingNum msg).map fun w => (.signaling w, reply))
  | .signaling _ => (m, none)

/-- Only the workers have streams. -/
def act (thread : Thread rtcNum signalingNum) (signal : Signal) (m : RtcStreamManager) : RtcStreamManager :=
  match thread with
  | .rtc _ => m.step signal.event
  | _ => m

def network (rtcNum signalingNum : ℕ) : Network (Thread rtcNum signalingNum) RtcMsg Meets RtcStreamManager Signal where
  entry := .server
  serve := serve
  act := act

abbrev State (rtcNum signalingNum : ℕ) : Type :=
  Relays.State (Thread rtcNum signalingNum) RtcMsg Meets RtcStreamManager Signal

/-- A request that a signaling worker reads from a connection, a signal or a timer of a stream, and the
steps of the threads. -/
inductive Event (rtcNum signalingNum : ℕ)
  | request (w : Fin signalingNum) (conn : ℕ) (fd : ℤ) (root : Root) (logId : UInt32)
  | signal (k : Fin rtcNum) (signal : Signal)
  | processNotify (thread : Thread rtcNum signalingNum) (meets : Meets)
  | pushMsg (thread : Thread rtcNum signalingNum)
  | notify (thread : Thread rtcNum signalingNum)

/-- A request may be refused before a message is made of it. -/
def Event.relayed : Event rtcNum signalingNum →
    Option (Relays.Event (Thread rtcNum signalingNum) RtcMsg Meets Signal)
  | .request w conn fd root logId => (processRequest ⟨w, conn, fd⟩ root logId).map (.begin (.signaling w))
  | .signal k what => some (.act (.rtc k) what)
  | .processNotify thread meets => some (.take thread meets)
  | .pushMsg thread => some (.put thread)
  | .notify thread => some (.announce thread)

def step (s : State rtcNum signalingNum) (e : Event rtcNum signalingNum) : State rtcNum signalingNum :=
  match e.relayed with
  | some e => Relays.step (network rtcNum signalingNum) s e
  | none => s

/-- The threads after `start`. -/
def start (rtcNum signalingNum : ℕ) : State rtcNum signalingNum := Relays.start Meets Signal fun _ => {}

/-- Messages go from the signaling workers down to the server and the workers, and back to the bottom. -/
def rank : Thread rtcNum signalingNum → ℕ
  | .server => 2
  | .rtc _ => 1
  | .signaling _ => 0

/-- What the server passes on of its tasks: the messages that it took with a valid certificate. -/
def passedOn (rtcNum : ℕ) : Task RtcMsg Meets Signal → Option RtcMsg
  | .served meets msg => if meets.certified && decide (0 < rtcNum) then some msg else none
  | _ => none

section Record
variable (s : State rtcNum signalingNum)

/-- The messages in the order in which they came into the queue of the server. -/
def accepted : List RtcMsg := (s.entered .server).map Prod.snd

/-- The messages that the server passed to a worker. -/
def forwarded : List RtcMsg := (s.history .server).filterMap (passedOn rtcNum)

/-- What the streams of a worker go through by a task. -/
def managerEvent : Task RtcMsg Meets Signal → Option RtcStreamManager.Event
  | .begun _ => none
  | .served meets msg => RtcMsg.event msg meets.outcome
  | .acted signal => some signal.event

end Record

/-- How requests get on: they are taken in the order in which they came, each worker carries out those for
its stream names, and the replies for one name come back in that order. Once no thread has anything left
to do none is missing, and the threads come to that in a bounded number of steps, in whatever order. -/
structure Served (s : State rtcNum signalingNum) : Prop where
  taken : Task.messages (s.history .server) <+: accepted s
  carriedOut : ∀ k, Task.messages (s.history (.rtc k)) <+:
    (forwarded s).filter fun msg => getWorker rtcNum msg.streamName = some k
  answered : ∀ w name, ((Task.messages (s.history (.signaling w))).filter fun msg => msg.streamName = name).map RtcMsg.asked <+:
    (((forwarded s).filter fun msg => msg.streamName = name).filter (RtcMsg.AnsweredTo w)).map RtcMsg.asked
  managed : ∀ k, s.work (.rtc k) = Runs.run RtcStreamManager.step {} ((s.history (.rtc k)).filterMap managerEvent)
  settled : Quiet s → Task.messages (s.history .server) = accepted s ∧
    (∀ k, Task.messages (s.history (.rtc k)) =
      (forwarded s).filter fun msg => getWorker rtcNum msg.streamName = some k) ∧
    ∀ w name, ((Task.messages (s.history (.signaling w))).filter fun msg => msg.streamName = name).map RtcMsg.asked =
      (((forwarded s).filter fun msg => msg.streamName = name).filter (RtcMsg.AnsweredTo w)).map RtcMsg.asked
  quiet : (∀ e, ¬Enabled s e) → Quiet s
  bounded : ∀ es, Runs.Along (Relays.step (network rtcNum signalingNum)) Enabled s es → es.length ≤ potential rank s

section Ways
variable {thread : Thread rtcNum signalingNum} {m : RtcStreamManager} {task : Task RtcMsg Meets Signal}
  {p : Thread rtcNum signalingNum × RtcMsg}

/-- A reply is the message that was processed. -/
theorem rtcProcess_asked {msg reply : RtcMsg} {outcome : PeerOutcome} (h : (rtcProcess m msg outcome).2 = some reply) :
    RtcMsg.asked reply = RtcMsg.asked msg := by
  rw [rtcProcess] at h
  split_ifs at h
  · obtain rfl := Option.some.inj h
    rfl
  · obtain rfl := Option.some.inj h
    rfl

theorem isSome_rtcProcess (m : RtcStreamManager) (msg : RtcMsg) (outcome : PeerOutcome) :
    (rtcProcess m msg outcome).2.isSome = (decide (msg.cmdno = cmdnoPush) || decide (msg.cmdno = cmdnoPull)) := by
  rw [rtcProcess]
  split_ifs with hpush hpull
  · simp [hpush]
  · simp [hpull]
  all_goals simp [hpush, hpull]

theorem replyTo_eq_some {msg : RtcMsg} {w : Fin signalingNum} :
    replyTo signalingNum msg = some w ↔ msg.worker = some w.1 := by
  rw [replyTo, Option.bind_eq_some_iff]
  constructor
  · rintro ⟨v, hv, hw⟩
    split at hw
    · obtain rfl := Option.some.inj hw
      exact hv
    · cases hw
  · intro hworker
    exact ⟨w, hworker, by rw [dif_pos w.2]⟩

/-- Where a message goes: to the server, from it to the worker for the stream name, and from a worker back
as the reply to a message that it carried out. -/
theorem sent_cases (hp : p ∈ sent (network rtcNum signalingNum) thread m task) :
    p.1 = .server ∨ (thread = .server ∧ ∃ k, p.1 = .rtc k) ∨
      ∃ k w meets msg, thread = .rtc k ∧ p.1 = .signaling w ∧ task = .served meets msg ∧
        p.2.streamName = msg.streamName := by
  cases task with
  | begun msg =>
    obtain rfl := List.mem_singleton.mp hp
    exact .inl rfl
  | acted signal => cases hp
  | served meets msg =>
    have hserve : (serve thread meets m msg).2 = some p := Option.mem_toList.mp hp
    cases thread with
    | server =>
      rw [serve] at hserve
      dsimp only at hserve
      split at hserve
      · obtain ⟨k, -, rfl⟩ := Option.map_eq_some_iff.mp hserve
        exact .inr (.inl ⟨rfl, k, rfl⟩)
      · cases hserve
    | rtc k =>
      obtain ⟨reply, hreply, hto⟩ := Option.bind_eq_some_iff.mp hserve
      obtain ⟨w, -, rfl⟩ := Option.map_eq_some_iff.mp hto
      have hname : (RtcMsg.asked reply).streamName = (RtcMsg.asked msg).streamName :=
        congrArg RtcMsg.streamName (rtcProcess_asked hreply)
      exact .inr (.inr ⟨k, w, meets, msg, rfl, rfl, rfl, hname⟩)
    | signaling w => cases hserve

/-- Only the server sends messages to a worker. -/
theorem feeds_rtc (k : Fin rtcNum) : (network rtcNum signalingNum).Feeds .server (.rtc k) := by
  intro i m task p hsent hp
  rcases sent_cases hsent with hserver | ⟨hserver, -⟩ | ⟨l, w, meets, msg, -, hsignaling, -⟩
  · rw [hserver] at hp
    cases hp
  · exact hserver
  · rw [hsignaling] at hp
    cases hp

theorem descends : (network rtcNum signalingNum).Descends rank := by
  intro i meets m msg j msg' hserve
  cases i with
  | server =>
    change (if meets.certified then (getWorker rtcNum msg.streamName).map fun k => (Thread.rtc k, msg) else none) = _ at hserve
    split at hserve
    · obtain ⟨k, -, hk⟩ := Option.map_eq_some_iff.mp hserve
      cases hk
      exact Nat.lt_succ_self 1
    · cases hserve
  | rtc k =>
    obtain ⟨reply, -, hto⟩ := Option.bind_eq_some_iff.mp hserve
    obtain ⟨w, -, hw⟩ := Option.map_eq_some_iff.mp hto
    cases hw
    exact Nat.lt_succ_self 0
  | signaling w => cases hserve

/-- The server sends the messages that it took with a certificate to the workers for their names. -/
theorem only_outbox_server (m : RtcStreamManager) (tasks : List (Task RtcMsg Meets Signal)) (k : Fin rtcNum) :
    only (.rtc k) (outbox (network rtcNum signalingNum) .server m tasks) =
      (tasks.filterMap (passedOn rtcNum)).filter fun msg => getWorker rtcNum msg.streamName = some k := by
  have hpos : 0 < rtcNum := Fin.pos k
  induction tasks generalizing m with
  | nil => rfl
  | cons task tasks ih =>
    rw [outbox, only_append, ih]
    cases task with
    | begun msg => rfl
    | acted signal => rfl
    | served meets msg =>
      have hsent : sent (network rtcNum signalingNum) .server m (.served meets msg) =
          (if meets.certified then (getWorker rtcNum msg.streamName).map fun k => (Thread.rtc k, msg)
            else none).toList := rfl
      rw [hsent, List.filterMap_cons, passedOn, decide_eq_true hpos, Bool.and_true]
      cases meets.certified with
      | false => rfl
      | true =>
        cases hworker : getWorker rtcNum msg.streamName with
        | none => simp [hworker, only]
        | some l => by_cases hl : l = k <;> simp [hworker, only, hl]

/-- The replies of a worker to a signaling worker are those to the messages that it carried out. -/
theorem only_outbox_rtc (m : RtcStreamManager) (tasks : List (Task RtcMsg Meets Signal)) (k : Fin rtcNum)
    (w : Fin signalingNum) :
    (only (.signaling w) (outbox (network rtcNum signalingNum) (.rtc k) m tasks)).map RtcMsg.asked =
      ((Task.messages tasks).filter (RtcMsg.AnsweredTo w)).map RtcMsg.asked := by
  induction tasks generalizing m with
  | nil => rfl
  | cons task tasks ih =>
    rw [outbox, only_append, List.map_append, ih]
    cases task with
    | begun msg => rfl
    | acted signal => rfl
    | served meets msg =>
      have hmessages : Task.messages (.served meets msg :: tasks) = msg :: Task.messages tasks := rfl
      have hanswered : RtcMsg.AnsweredTo w msg =
          ((rtcProcess m msg meets.outcome).2.isSome && decide (replyTo signalingNum msg = some w)) := by
        rw [RtcMsg.AnsweredTo, isSome_rtcProcess, decide_eq_decide.mpr replyTo_eq_some]
      have hsent : sent (network rtcNum signalingNum) (.rtc k) m (.served meets msg) =
          ((rtcProcess m msg meets.outcome).2.bind fun reply =>
            (replyTo signalingNum msg).map fun w => (Thread.signaling w, reply)).toList := rfl
      rw [hmessages, List.filter_cons, hanswered, hsent]
      cases hreply : (rtcProcess m msg meets.outcome).2 with
      | none => simp [only]
      | some reply =>
        have hasked := rtcProcess_asked hreply
        cases hto : replyTo signalingNum msg with
        | none => simp [only]
        | some v => by_cases hv : v = w <;> simp [only, hv, hasked]

end Ways

section Progress
variable {s : State rtcNum signalingNum} {r : List RtcMsg → List RtcMsg → Prop}

theorem carriedOut (hr : Carries (network rtcNum signalingNum) (fun _ => {}) s r)
    (h : Sound (network rtcNum signalingNum) (fun _ => {}) s) (k : Fin rtcNum) :
    r (Task.messages (s.history (.rtc k))) ((forwarded s).filter fun msg => getWorker rtcNum msg.streamName = some k) := by
  have hserver := hr.fed h.toLinked (feeds_rtc k)
  rw [only_outbox_server] at hserver
  exact hserver

/-- A message in the queue of a signaling worker was put there by the worker for its stream name. -/
theorem entered_signaling (h : Sound (network rtcNum signalingNum) (fun _ => {}) s) (w : Fin signalingNum) :
    ∀ x ∈ s.entered (.signaling w), ∃ k, x.1 = .rtc k ∧ getWorker rtcNum x.2.streamName = some k := by
  intro x hx
  obtain ⟨task, htask, m, hsent⟩ := exists_of_mem_outbox (h.mem_outbox hx)
  rcases sent_cases hsent with hserver | ⟨-, k, hrtc⟩ | ⟨k, v, meets, msg, hthread, -, rfl, hname⟩
  · cases hserver
  · cases hrtc
  · refine ⟨k, hthread, ?_⟩
    rw [hthread] at htask
    have hmem : msg ∈ Task.messages (s.history (.rtc k)) := List.mem_filterMap.mpr ⟨_, htask, rfl⟩
    have hforwarded := (List.mem_filter.mp ((carriedOut h.carries_begun h k).subset hmem)).2
    rw [hname]
    exact of_decide_eq_true hforwarded

/-- The replies for a stream name come back in the order in which its messages were passed on. -/
theorem answered (hr : Carries (network rtcNum signalingNum) (fun _ => {}) s r)
    (h : Sound (network rtcNum signalingNum) (fun _ => {}) s) (w : Fin signalingNum) (name : String) :
    r (((Task.messages (s.history (.signaling w))).filter fun msg => msg.streamName = name).map RtcMsg.asked)
      ((((forwarded s).filter fun msg => msg.streamName = name).filter (RtcMsg.AnsweredTo w)).map RtcMsg.asked) := by
  refine hr.trans (hr.map RtcMsg.asked (hr.filter _ (hr.taken (.signaling w)))) ?_
  cases hworker : getWorker rtcNum name with
  | none =>
    have hzero : ¬0 < rtcNum := by
      intro hpos
      rw [getWorker, dif_pos hpos] at hworker
      cases hworker
    have hentered : ∀ x ∈ s.entered (.signaling w), False := by
      intro x hx
      obtain ⟨k, -, -⟩ := entered_signaling h w x hx
      exact hzero (Fin.pos k)
    rw [List.eq_nil_iff_forall_not_mem.mpr hentered]
    have hnone : forwarded s = [] := by
      refine List.filterMap_eq_nil_iff.mpr fun task _ => ?_
      cases task <;> simp [passedOn, hzero]
    rw [hnone]
    exact hr.refl []
  | some k =>
    have hnamed := @filter_only _ _ _ (Thread.rtc k) (s.entered (.signaling w))
      (fun msg => decide (msg.streamName = name)) fun x hx hname => by
        obtain ⟨l, hthread, hl⟩ := entered_signaling h w x hx
        rw [of_decide_eq_true hname, hworker] at hl
        rw [hthread, Option.some.inj hl]
    have hcomm (msgs : List RtcMsg) : (msgs.filter fun msg => msg.streamName = name).map RtcMsg.asked =
        (msgs.map RtcMsg.asked).filter fun msg => msg.streamName = name := by
      rw [List.filter_map]
      rfl
    have hsame : (((((forwarded s).filter fun msg => getWorker rtcNum msg.streamName = some k).filter
        (RtcMsg.AnsweredTo w)).map RtcMsg.asked).filter fun msg => msg.streamName = name) =
        (((forwarded s).filter fun msg => msg.streamName = name).filter (RtcMsg.AnsweredTo w)).map RtcMsg.asked := by
      rw [← hcomm, List.filter_filter, List.filter_filter, List.filter_filter]
      refine congrArg (List.map RtcMsg.asked) (List.filter_congr fun msg _ => ?_)
      by_cases hname : msg.streamName = name
      · simp [hname, hworker]
      · simp [hname]
    have hcarried := hr.filter (fun msg => decide (msg.streamName = name))
      (hr.map RtcMsg.asked (hr.filter (RtcMsg.AnsweredTo w) (carriedOut hr h k)))
    have hput := hr.map RtcMsg.asked
      (hr.filter (fun msg => decide (msg.streamName = name)) (hr.put (.rtc k) (.signaling w)))
    rw [hnamed, hcomm (only _ (outbox _ _ _ _)), only_outbox_rtc] at hput
    rw [hsame] at hcarried
    exact hr.trans hput hcarried

end Progress

theorem run_relayed (s : State rtcNum signalingNum) (es : List (Event rtcNum signalingNum)) :
    Runs.run step s es = Runs.run (Relays.step (network rtcNum signalingNum)) s (es.filterMap Event.relayed) := by
  induction es generalizing s with
  | nil => rfl
  | cons e es ih =>
    rw [Runs.run_cons, ih, List.filterMap_cons, step]
    cases e.relayed <;> rfl

end Pipeline
end Server
end XrtcServer
