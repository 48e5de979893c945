import XrtcServer.NotifiedQueue
import XrtcServer.ReplyRouting

/-! The messages that other threads send to the server and to the signaling workers, each one
announced in the pipe of its receiver. The loops are not stopped. -/
namespace XrtcServer

namespace Server
open XrtcServer.Stream

namespace RtcServer

def rtcMsg : ℤ := 1

def pushMsg (s : RtcServer) (sent : Sent) : RtcServer := { s with queue := s.queue ++ [sent] }

def processNotify (s : RtcServer) (msg : ℤ) (certified : Bool) : RtcServer :=
  if msg = rtcMsg then s.processRtcMsg certified else s

/-- What happens beside the messages to the server. -/
def work (s : RtcServer) (e : Event) : RtcServer :=
  match e with
  | .request _ _ _ | .serverMsg _ => s
  | .workerMsg _ _ | .connectionState _ _ _ | .iceTimeout _ _ => s.step e

theorem queue_processRtcMsg (s : RtcServer) (certified : Bool) : (s.processRtcMsg certified).queue = s.queue.tail := by
  rw [processRtcMsg]
  cases hqueue : s.queue with
  | nil => exact hqueue
  | cons sent rest =>
    dsimp only
    split
    · split <;> rfl
    · rfl

theorem queue_work (s : RtcServer) (e : Event) : (s.work e).queue = s.queue := by
  cases e <;> rfl

/-- The server with its queue. -/
def owner : NotifiedQueue.Owner RtcServer Sent ℤ Bool Event where
  queue := queue
  pushMsg := pushMsg
  processNotify := processNotify
  act := work
  message := rtcMsg
  others := []
  message_not_other := List.not_mem_nil
  queue_pushMsg := fun _ _ => rfl
  queue_message := queue_processRtcMsg
  queue_other := fun _ _ _ h => nomatch h
  queue_act := queue_work

end RtcServer
end Server

namespace Signaling
namespace System

/-- The queues of the workers. -/
def qMsgs (s : System) : List (List Request) := s.workers.map SignalingWorker.qMsg

theorem qMsgs_setWorker {s : System} {w : ℕ} {worker worker' : SignalingWorker} (h : s.workers[w]? = some worker)
    (hqueue : worker'.qMsg = worker.qMsg) : (s.setWorker w worker').qMsgs = s.qMsgs :=
  map_setWorker SignalingWorker.qMsg h hqueue

theorem qMsgs_length_le {s : System} {w : ℕ} (hw : s.workers[w]? = none) : s.qMsgs.length ≤ w := by
  rw [qMsgs, List.length_map]
  exact List.getElem?_eq_none_iff.mp hw

theorem getElem?_qMsgs {s : System} {w : ℕ} {worker : SignalingWorker} (hw : s.workers[w]? = some worker) :
    s.qMsgs[w]? = some worker.qMsg := by
  rw [qMsgs, List.getElem?_map, hw]
  rfl

section Queues
variable (s : System)

theorem qMsgs_dispatchNewConn (fd : ℕ) : (s.dispatchNewConn fd).qMsgs = s.qMsgs := by
  rw [dispatchNewConn]
  cases hw : s.workers[s.nextWorkerIndex]? with
  | none => rfl
  | some worker =>
    dsimp only
    split
    · rfl
    · exact @qMsgs_setWorker s _ worker { worker with qConn := worker.qConn ++ [fd] } hw rfl

theorem qMsgs_handleNewConn (w addr : ℕ) : (s.handleNewConn w addr).qMsgs = s.qMsgs := by
  rw [handleNewConn]
  cases hw : s.workers[w]? with
  | none => rfl
  | some worker =>
    dsimp only
    cases worker.qConn with
    | nil => rfl
    | cons fd qConn =>
      dsimp only
      split
      · rfl
      · exact @qMsgs_setWorker s w worker { worker with qConn, conns := (grown worker fd).set fd (some addr) } hw rfl

theorem qMsgs_closeConnection (addr : ℕ) : (s.closeConnection addr).qMsgs = s.qMsgs := by
  rw [closeConnection]
  cases s.heap addr with
  | none => rfl
  | some conn =>
    dsimp only
    cases hw : s.workers[conn.worker]? with
    | none => rfl
    | some worker => exact @qMsgs_setWorker s _ worker { worker with conns := worker.conns.set conn.fd none } hw rfl

theorem qMsgs_finish (addr : ℕ) (ret : ℤ) : (s.finish addr ret).qMsgs = s.qMsgs := by
  rw [finish]
  split
  · exact qMsgs_closeConnection s addr
  · rfl

theorem qMsgs_processRequest (addr : ℕ) (conn : TcpConnection) (root : Server.Root) (logId : UInt32) (notified : Bool) :
    (s.processRequest addr conn root logId notified).qMsgs = s.qMsgs := by
  rw [processRequest]
  cases root.cmdno with
  | none => exact qMsgs_finish s addr _
  | some cmdno =>
    dsimp only
    generalize Server.processRequest ⟨conn.worker, addr, conn.fd⟩ root logId = msg
    cases msg with
    | none => split <;> exact qMsgs_finish _ addr _
    | some msg => split <;> exact qMsgs_finish _ addr _

theorem qMsgs_readQuery (addr : ℕ) (arrival : Arrival) : (s.readQuery addr arrival).qMsgs = s.qMsgs := by
  rw [readQuery]
  split
  · rfl
  · split
    · rfl
    · rfl
    · split
      · rfl
      · cases arrival with
        | more => rfl
        | failed => exact qMsgs_closeConnection s _
        | request root logId notified => exact qMsgs_processRequest s _ _ root logId notified

theorem qMsgs_processTimeout (addr : ℕ) : (s.processTimeout addr).qMsgs = s.qMsgs := by
  rw [processTimeout]
  split
  · exact qMsgs_closeConnection s addr
  · rfl

theorem qMsgs_writeReply (addr written : ℕ) (failed : Bool) : (s.writeReply addr written failed).qMsgs = s.qMsgs := by
  rw [writeReply]
  split
  · rfl
  · split
    · rfl
    · split
      · rfl
      · rfl
      · split
        · rfl
        · dsimp only
          split
          · exact qMsgs_closeConnection _ _
          · rfl

theorem qMsgs_responseServerOffer (conns : List (Option ℕ)) (request : Request) :
    (s.responseServerOffer conns request).qMsgs = s.qMsgs := by
  rw [responseServerOffer]
  split
  · rfl
  · dsimp only
    split
    · rfl
    · split
      · rfl
      · split <;> rfl

/-- The worker takes the first message out of its queue. -/
theorem qMsgs_processRtcMsg (w : ℕ) : (s.processRtcMsg w).qMsgs = s.qMsgs.modify w List.tail := by
  cases hw : s.workers[w]? with
  | none =>
    rw [processRtcMsg, hw, List.modify_eq_self (qMsgs_length_le hw)]
  | some worker =>
    have hget := getElem?_qMsgs hw
    have htail : s.qMsgs.modify w List.tail = s.qMsgs.set w worker.qMsg.tail := by
      rw [List.modify_eq_set_getElem?, hget]
      rfl
    rw [processRtcMsg, hw, htail]
    dsimp only
    cases hq : worker.qMsg with
    | nil =>
      obtain ⟨hlt, hself⟩ := List.getElem?_eq_some_iff.mp hget
      have hnil : s.qMsgs.set w [] = s.qMsgs := by
        rw [← hq, ← hself, List.set_getElem_self]
      exact hnil.symm
    | cons request qMsg =>
      have hpopped : (s.setWorker w { worker with qMsg }).qMsgs = s.qMsgs.set w qMsg := List.map_set
      dsimp only
      split
      · exact (qMsgs_responseServerOffer _ _ _).trans hpopped
      · exact hpopped

end Queues

/-- What happens beside the messages to a worker and the new connections that it is told of. -/
def work (w : ℕ) (s : System) (e : Event) : System :=
  match e with
  | .answer _ _ _ => s
  | .newConn v _ | .rtcMsg v => if v = w then s else s.step e
  | .accept _ | .readable _ _ | .timeout _ | .lose _ | .writable _ _ _ => s.step e

theorem qMsgs_work (w : ℕ) (s : System) (e : Event) :
    (work w s e).qMsgs.length = s.qMsgs.length ∧ (work w s e).qMsgs[w]? = s.qMsgs[w]? := by
  have hsame {s' : System} (h : s'.qMsgs = s.qMsgs) : s'.qMsgs.length = s.qMsgs.length ∧ s'.qMsgs[w]? = s.qMsgs[w]? := by
    rw [h]
    exact ⟨rfl, rfl⟩
  cases e with
  | accept fd => exact hsame (qMsgs_dispatchNewConn s fd)
  | newConn v addr =>
    rw [work]
    split
    · exact ⟨rfl, rfl⟩
    · exact hsame (qMsgs_handleNewConn s v addr)
  | readable addr arrival => exact hsame (qMsgs_readQuery s addr arrival)
  | timeout addr => exact hsame (qMsgs_processTimeout s addr)
  | answer i failed sdp => exact ⟨rfl, rfl⟩
  | lose i => exact ⟨rfl, rfl⟩
  | rtcMsg v =>
    rw [work]
    split
    · exact ⟨rfl, rfl⟩
    · rename_i hv
      rw [step, qMsgs_processRtcMsg]
      exact ⟨List.length_modify _ _ _, List.getElem?_modify_ne _ _ hv⟩
  | writable addr written failed => exact hsame (qMsgs_writeReply s addr written failed)

def pushMsg (w : ℕ) (s : System) (request : Request) : System :=
  match s.workers[w]? with
  | none => s
  | some worker => s.setWorker w { worker with qMsg := worker.qMsg ++ [request] }

theorem qMsgs_pushMsg (w : ℕ) (s : System) (request : Request) :
    (pushMsg w s request).qMsgs = s.qMsgs.modify w (· ++ [request]) := by
  cases hw : s.workers[w]? with
  | none =>
    rw [pushMsg, hw, List.modify_eq_self (qMsgs_length_le hw)]
  | some worker =>
    rw [pushMsg, hw, List.modify_eq_set_getElem?, getElem?_qMsgs hw]
    exact List.map_set

end System

namespace SignalingWorker

def newConn : ℤ := 1
def rtcMsg : ℤ := 2

/-- A new connection gets the address `addr`. -/
def processNotify (w : ℕ) (s : System) (msg : ℤ) (addr : ℕ) : System :=
  if msg = newConn then s.handleNewConn w addr else if msg = rtcMsg then s.processRtcMsg w else s

section Owner
variable {workerNum : ℕ} (w : Fin workerNum)

/-- The system with all of its workers. -/
abbrev Workers (workerNum : ℕ) : Type := { s : System // s.qMsgs.length = workerNum }

def queueOf (s : Workers workerNum) : List Request := s.1.qMsgs[w.1]?.getD []

theorem getElem?_qMsgs (s : Workers workerNum) : s.1.qMsgs[w.1]? = some (queueOf w s) := by
  have hlt : w.1 < s.1.qMsgs.length := s.2.symm ▸ w.2
  rw [queueOf, List.getElem?_eq_getElem hlt]
  rfl

/-- What becomes of the queue of a worker. -/
theorem getD_modify (s : Workers workerNum) (f : List Request → List Request) :
    (s.1.qMsgs.modify w.1 f)[w.1]?.getD [] = f (queueOf w s) := by
  rw [List.getElem?_modify_eq, getElem?_qMsgs w s]
  rfl

theorem length_processNotify (s : Workers workerNum) (msg : ℤ) (addr : ℕ) :
    (processNotify w.1 s.1 msg addr).qMsgs.length = workerNum := by
  rw [processNotify]
  split
  · rw [System.qMsgs_handleNewConn, s.2]
  · split
    · rw [System.qMsgs_processRtcMsg, List.length_modify, s.2]
    · exact s.2

/-- A worker with its queue. It is told of new connections as well. -/
def owner : NotifiedQueue.Owner (Workers workerNum) Request ℤ ℕ System.Event where
  queue := queueOf w
  pushMsg := fun s request => ⟨System.pushMsg w s request, by rw [System.qMsgs_pushMsg, List.length_modify, s.2]⟩
  processNotify := fun s msg addr => ⟨processNotify w s msg addr, length_processNotify w s msg addr⟩
  act := fun s e => ⟨System.work w s e, by rw [(System.qMsgs_work w s.1 e).1, s.2]⟩
  message := rtcMsg
  others := [newConn]
  message_not_other := by decide
  queue_pushMsg := by
    intro s request
    rw [queueOf, System.qMsgs_pushMsg]
    exact getD_modify w s _
  queue_message := by
    intro s addr
    refine Eq.trans ?_ (getD_modify w s List.tail)
    exact congrArg (fun queues : List (List Request) => queues[w.1]?.getD []) (System.qMsgs_processRtcMsg s.1 w.1)
  queue_other := by
    intro s addr code hcode
    obtain rfl := List.mem_singleton.mp hcode
    exact congrArg (fun queues : List (List Request) => queues[w.1]?.getD []) (System.qMsgs_handleNewConn s.1 w.1 addr)
  queue_act := by
    intro s e
    exact congrArg (Option.getD · []) (System.qMsgs_work w s.1 e).2

/-- The system after `init`. -/
def start (workerNum : ℕ) : Workers workerNum :=
  ⟨System.init workerNum, by simp [System.qMsgs, System.init]⟩

theorem queueOf_start : queueOf w (start workerNum) = [] := by
  have hworker : (System.init workerNum).workers[w.1]? = some {} := List.getElem?_replicate_of_lt w.2
  have hqueue : (System.init workerNum).qMsgs[w.1]? = some [] := System.getElem?_qMsgs hworker
  rw [queueOf, start, hqueue]
  rfl

end Owner

/-- However the threads that send messages to the server, and those that send them to one of the
signaling workers, come between each other and the loop of the receiver. -/
theorem messages_delivered (workerNum : ℕ) :
    (∀ es : List (NotifiedQueue.Event Server.Sent ℤ Bool Server.RtcServer.Event ℕ),
      NotifiedQueue.Delivered Server.RtcServer.owner
        (Runs.run (NotifiedQueue.step Server.RtcServer.owner) { owner := Server.RtcServer.init workerNum } es)) ∧
    ∀ (w : Fin workerNum) (es : List (NotifiedQueue.Event Request ℤ ℕ System.Event ℕ)),
      NotifiedQueue.Delivered (owner w) (Runs.run (NotifiedQueue.step (owner w)) { owner := start workerNum } es) :=
  ⟨fun es => NotifiedQueue.delivered_run rfl es, fun w es => NotifiedQueue.delivered_run (queueOf_start w) es⟩

end SignalingWorker
end Signaling
end XrtcServer
