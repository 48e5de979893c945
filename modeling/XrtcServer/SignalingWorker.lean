import Mathlib.Logic.Function.Basic
import XrtcServer.RtcServer
import XrtcServer.Runs

/-! The signaling workers of the server, each with its table of connections, and the messages
between them and the RTC threads. File descriptors and addresses of closed connections are
given out again. What the RTC threads work on is answered in any order, or lost. -/
namespace XrtcServer
namespace Signaling
open XrtcServer.Stream

/-- A message with the number of the request and the number of the connection that sent it.
No code reads the numbers. -/
structure Request where
  msg : RtcMsg
  serial : ℕ
  origin : ℕ

/-- The reply of `_process_request` itself, or that of `_response_server_offer`. -/
inductive Reply
  | result (ret : ℤ)
  | offer (request : Request)

/-- A connection object. Its watchers belong to the event loop of `worker`. No code reads
`number`. -/
structure TcpConnection where
  fd : ℕ
  worker : ℕ
  number : ℕ
  replyList : List Reply := []

/-- The table has addresses, and null for a closed connection. -/
structure SignalingWorker where
  qConn : List ℕ := []
  conns : List (Option ℕ) := []
  qMsg : List Request := []

/-- A push or pull reply that was put into the reply list of a connection. -/
structure Queued where
  request : Request
  connection : ℕ

/-- `inFlight` has the messages that the RTC threads have, `outside` says that a table was used
behind its end or an object after its deletion. `queued`, `created` and `requests` are for
the record. -/
structure System where
  heap : ℕ → Option TcpConnection := fun _ => none
  workers : List SignalingWorker
  nextWorkerIndex : ℕ := 0
  openFds : List ℕ := []
  inFlight : List Request := []
  outside : Bool := false
  created : ℕ := 0
  requests : ℕ := 0
  queued : List Queued := []

/-- What a readable socket leads to: nothing yet, a failure, or a request. `notified` says
that the pipe of the server could be written. -/
inductive Arrival
  | more
  | failed
  | request (root : Server.Root) (logId : UInt32) (notified : Bool)

namespace System

def setWorker (s : System) (w : ℕ) (worker : SignalingWorker) : System := { s with workers := s.workers.set w worker }

/-- The system gives out a descriptor that is not open. -/
def dispatchNewConn (s : System) (fd : ℕ) : System :=
  match s.workers[s.nextWorkerIndex]? with
  | none => s
  | some worker =>
    if fd ∈ s.openFds then s
    else
      { s.setWorker s.nextWorkerIndex { worker with qConn := worker.qConn ++ [fd] } with
        openFds := fd :: s.openFds
        nextWorkerIndex := if s.nextWorkerIndex + 1 ≥ s.workers.length then 0 else s.nextWorkerIndex + 1 }

/-- The allocator gives out an address that is not in use. -/
def handleNewConn (s : System) (w addr : ℕ) : System :=
  match s.workers[w]? with
  | none => s
  | some worker =>
    match worker.qConn with
    | [] => s
    | fd :: qConn =>
      if (s.heap addr).isSome then s
      else
        let conns := if fd > worker.conns.length then
            worker.conns ++ List.replicate (fd * 2 - worker.conns.length) none
          else worker.conns
        { s.setWorker w { worker with qConn, conns := conns.set fd (some addr) } with
          heap := Function.update s.heap addr (some { fd, worker := w, number := s.created })
          created := s.created + 1
          outside := s.outside || decide (conns.length ≤ fd) }

def closeConnection (s : System) (addr : ℕ) : System :=
  match s.heap addr with
  | none => { s with outside := true }
  | some conn =>
    match s.workers[conn.worker]? with
    | none => s
    | some worker =>
      { s.setWorker conn.worker { worker with conns := worker.conns.set conn.fd none } with
        heap := Function.update s.heap addr none
        openFds := s.openFds.erase conn.fd
        outside := s.outside || decide (worker.conns.length ≤ conn.fd) }

def addReply (s : System) (addr : ℕ) (reply : Reply) : System :=
  let conn := (s.heap addr).map fun conn => { conn with replyList := conn.replyList ++ [reply] }
  { s with heap := Function.update s.heap addr conn }

/-- The message goes to the RTC threads. -/
def send (s : System) (msg : RtcMsg) (origin : ℕ) : System :=
  { s with inFlight := s.inFlight ++ [⟨msg, s.requests, origin⟩], requests := s.requests + 1 }

/-- A result that is not zero closes the connection. -/
def finish (s : System) (addr : ℕ) (ret : ℤ) : System := if ret ≠ 0 then s.closeConnection addr else s

/-- Push and pull requests are replied to later. A result of the other requests is queued at
once. -/
def processRequest (s : System) (addr : ℕ) (conn : TcpConnection) (root : Server.Root) (logId : UInt32)
    (notified : Bool) : System :=
  match root.cmdno with
  | none => s.finish addr (-1)
  | some cmdno =>
    let msg := Server.processRequest ⟨conn.worker, addr, conn.fd⟩ root logId
    let s' := match msg with
      | none => s
      | some msg => s.send msg conn.number
    let ret := if msg.isSome && notified then 0 else -1
    if cmdno = Server.cmdnoPush ∨ cmdno = Server.cmdnoPull then s'.finish addr ret
    else (s'.addReply addr (.result ret)).finish addr ret

/-- The entry of the table for a connection whose watcher is called. -/
def entry (s : System) (conn : TcpConnection) : Option (Option ℕ) :=
  match s.workers[conn.worker]? with
  | none => none
  | some worker => worker.conns[conn.fd]?

/-- The watcher of a connection looks the connection up by its descriptor. -/
def readQuery (s : System) (addr : ℕ) (arrival : Arrival) : System :=
  match s.heap addr with
  | none => s
  | some watched =>
    match s.entry watched with
    | none => { s with outside := true }
    | some none => s
    | some (some addr) =>
      match s.heap addr with
      | none => { s with outside := true }
      | some conn =>
        match arrival with
        | .more => s
        | .failed => s.closeConnection addr
        | .request root logId notified => s.processRequest addr conn root logId notified

/-- The timer of a connection has the connection itself. -/
def processTimeout (s : System) (addr : ℕ) : System := if (s.heap addr).isSome then s.closeConnection addr else s

/-- An RTC worker has carried out a message, and sends it back if it came with a worker. -/
def answer (s : System) (i : ℕ) (failed : Bool) (sdp : String) : System :=
  match s.inFlight[i]? with
  | none => s
  | some request =>
    let s := { s with inFlight := s.inFlight.eraseIdx i }
    match request.msg.worker with
    | none => s
    | some w =>
      match s.workers[w]? with
      | none => s
      | some worker =>
        let msg := { request.msg with errNo := if failed then -1 else request.msg.errNo, sdp }
        s.setWorker w { worker with qMsg := worker.qMsg ++ [{ request with msg }] }

/-- A message without a valid certificate is dropped. -/
def lose (s : System) (i : ℕ) : System := { s with inFlight := s.inFlight.eraseIdx i }

/-- The connection is looked for by its descriptor, and must have its address. -/
def responseServerOffer (s : System) (conns : List (Option ℕ)) (request : Request) : System :=
  match request.msg.conn with
  | none => s
  | some addr =>
    let fd := request.msg.fd
    if fd ≤ 0 ∨ conns.length ≤ fd then s
    else if conns[fd.toNat]? ≠ some (some addr) then s
    else
      match s.heap addr with
      | none => { s with outside := true }
      | some conn => { s.addReply addr (.offer request) with queued := s.queued ++ [⟨request, conn.number⟩] }

def processRtcMsg (s : System) (w : ℕ) : System :=
  match s.workers[w]? with
  | none => s
  | some worker =>
    match worker.qMsg with
    | [] => s
    | request :: qMsg =>
      let s := s.setWorker w { worker with qMsg }
      if request.msg.cmdno = Server.cmdnoPush ∨ request.msg.cmdno = Server.cmdnoPull then
        s.responseServerOffer worker.conns request
      else s

/-- So many replies are written in full before the socket is full or fails. -/
def writeReply (s : System) (addr written : ℕ) (failed : Bool) : System :=
  match s.heap addr with
  | none => s
  | some watched =>
    if watched.fd = 0 then s
    else
      match s.entry watched with
      | none => s
      | some none => s
      | some (some addr) =>
        match s.heap addr with
        | none => { s with outside := true }
        | some conn =>
          let conn := { conn with replyList := conn.replyList.drop written }
          let s := { s with heap := Function.update s.heap addr (some conn) }
          if failed then s.closeConnection addr else s

inductive Event
  | accept (fd : ℕ)
  | newConn (w addr : ℕ)
  | readable (addr : ℕ) (arrival : Arrival)
  | timeout (addr : ℕ)
  | answer (i : ℕ) (failed : Bool) (sdp : String)
  | lose (i : ℕ)
  | rtcMsg (w : ℕ)
  | writable (addr written : ℕ) (failed : Bool)

def step (s : System) : Event → System
  | .accept fd => s.dispatchNewConn fd
  | .newConn w addr => s.handleNewConn w addr
  | .readable addr arrival => s.readQuery addr arrival
  | .timeout addr => s.processTimeout addr
  | .answer i failed sdp => s.answer i failed sdp
  | .lose i => s.lose i
  | .rtcMsg w => s.processRtcMsg w
  | .writable addr written failed => s.writeReply addr written failed

/-- The system after `init` with a number of workers. -/
def init (workerNum : ℕ) : System := { workers := List.replicate workerNum {} }

/-- The requests that may still be replied to. -/
def outstanding (s : System) : List Request := s.inFlight ++ s.workers.flatMap SignalingWorker.qMsg

end System

end Signaling
end XrtcServer
