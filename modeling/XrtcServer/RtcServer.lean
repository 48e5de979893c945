import XrtcServer.StunIntegrity
import XrtcServer.RtcStreamManager

/-! The way of a request: parsed by a signaling worker, queued for the server, passed on
to the worker of its stream name, and carried out by that worker's stream manager. The
uid of the request is kept beside each message and each stream, no code reads it. -/
namespace XrtcServer
namespace Server
open XrtcServer.Stream ObjectHeap

def cmdnoPush : ℤ := 1
def cmdnoPull : ℤ := 2
def cmdnoStoppush : ℤ := 4
def cmdnoStoppull : ℤ := 5

/-- What the accessors give for a parsed request, `none` where they throw. The inner
`none` of `dtlsOn` is a null value. -/
structure Root where
  cmdno : Option ℤ
  uid : Option UInt64
  streamName : Option String
  audio : Option ℤ
  video : Option ℤ
  sdp : Option String
  dtlsOn : Option (Option ℤ)

/-- The signaling worker and the connection that a request came by. -/
structure TcpConnection where
  worker : ℕ
  conn : ℕ
  fd : ℤ

def processPush (cmdno : ℤ) (conn : TcpConnection) (root : Root) (logId : UInt32) :
    Option RtcMsg := do
  let uid ← root.uid
  let streamName ← root.streamName
  let audio ← root.audio
  let video ← root.video
  let offer ← root.sdp
  let dtlsOn ← root.dtlsOn
  return { cmdno, uid := uid.toUInt16, streamName, audio, video, dtlsOn := dtlsOn.getD 1, logId,
           worker := conn.worker, conn := conn.conn, fd := conn.fd, sdp := offer }

def processPull (cmdno : ℤ) (conn : TcpConnection) (root : Root) (logId : UInt32) :
    Option RtcMsg := do
  let uid ← root.uid
  let streamName ← root.streamName
  let audio ← root.audio
  let video ← root.video
  let offer ← root.sdp
  return { cmdno, uid := uid.toUInt16, streamName, audio, video, logId, worker := conn.worker,
           conn := conn.conn, fd := conn.fd, sdp := offer }

/-- The two stop requests are read alike. -/
def processStop (cmdno : ℤ) (root : Root) (logId : UInt32) : Option RtcMsg := do
  let uid ← root.uid
  let streamName ← root.streamName
  return { cmdno, uid := uid.toUInt16, streamName, logId }

def processStopPush (cmdno : ℤ) (root : Root) (logId : UInt32) : Option RtcMsg :=
  processStop cmdno root logId

def processStopPull (cmdno : ℤ) (root : Root) (logId : UInt32) : Option RtcMsg :=
  processStop cmdno root logId

/-- The message that a request is turned into. -/
def processRequest (conn : TcpConnection) (root : Root) (logId : UInt32) : Option RtcMsg := do
  let cmdno ← root.cmdno
  if cmdno = cmdnoPush then processPush cmdno conn root logId
  else if cmdno = cmdnoPull then processPull cmdno conn root logId
  else if cmdno = cmdnoStoppush then processStopPush cmdno root logId
  else if cmdno = cmdnoStoppull then processStopPull cmdno root logId
  else none

/-- A message with the uid that stood in its request. -/
structure Sent where
  msg : RtcMsg
  requestedUid : UInt64

/-- What a message makes the stream manager do. -/
def RtcMsg.event (msg : RtcMsg) (outcome : PeerOutcome) : Option RtcStreamManager.Event :=
  if msg.cmdno = cmdnoPush then some (.createPush msg outcome)
  else if msg.cmdno = cmdnoPull then some (.createPull msg outcome)
  else if msg.cmdno = cmdnoStoppush then some (.stopPush msg.uid.toUInt64 msg.streamName)
  else if msg.cmdno = cmdnoStoppull then some (.stopPull msg.uid.toUInt64 msg.streamName)
  else none

/-- `requested` has the uids of the requests that created the streams, by their numbers. -/
structure RtcWorker where
  queue : List Sent := []
  manager : RtcStreamManager := {}
  requested : List UInt64 := []

def RtcWorker.sendRtcMsg (w : RtcWorker) (sent : Sent) : RtcWorker :=
  { w with queue := w.queue ++ [sent] }

/-- The stream manager takes a step; if it creates a stream, the uid is noted. -/
def RtcWorker.act (w : RtcWorker) (sent : Sent) (e : RtcStreamManager.Event) : RtcWorker :=
  let manager := w.manager.step e
  { w with manager, requested := if manager.memory.size = w.manager.memory.size then w.requested else w.requested ++ [sent.requestedUid] }

def RtcWorker.processRtcMsg (w : RtcWorker) (outcome : PeerOutcome) : RtcWorker :=
  match w.queue with
  | [] => w
  | sent :: rest =>
    let w := { w with queue := rest }
    match RtcMsg.event sent.msg outcome with
    | none => w
    | some e => w.act sent e

structure RtcServer where
  queue : List Sent := []
  workers : List RtcWorker

namespace RtcServer

/-- The server after `init` with a number of workers. -/
def init (workerNum : ℕ) : RtcServer := { workers := List.replicate workerNum {} }

/-- The worker for a stream name among so many. -/
def workerIndex (workerNum : ℕ) (streamName : String) : ℕ :=
  (Stun.computeCrc32 streamName.toUTF8.toList).toNat % workerNum

def getWorker (s : RtcServer) (streamName : String) : Option ℕ :=
  if s.workers.length = 0 then none else some (workerIndex s.workers.length streamName)

def modifyWorker (s : RtcServer) (k : ℕ) (f : RtcWorker → RtcWorker) : RtcServer :=
  { s with workers := s.workers.modify k f }

/-- Without a valid certificate the message is lost. -/
def processRtcMsg (s : RtcServer) (certified : Bool) : RtcServer :=
  match s.queue with
  | [] => s
  | sent :: rest =>
    let s := { s with queue := rest }
    if certified then
      match s.getWorker sent.msg.streamName with
      | none => s
      | some k => s.modifyWorker k fun w => w.sendRtcMsg sent
    else s

/-- Requests, notifications of the server and of a worker, and signals and timers of the
streams of a worker. -/
inductive Event
  | request (conn : TcpConnection) (root : Root) (logId : UInt32)
  | serverMsg (certified : Bool)
  | workerMsg (k : ℕ) (outcome : PeerOutcome)
  | connectionState (k i : ℕ) (state : PeerConnectionState)
  | iceTimeout (k i : ℕ)

def step (s : RtcServer) : Event → RtcServer
  | .request conn root logId =>
    match processRequest conn root logId, root.uid with
    | some msg, some uid => { s with queue := s.queue ++ [⟨msg, uid⟩] }
    | _, _ => s
  | .serverMsg certified => s.processRtcMsg certified
  | .workerMsg k outcome => s.modifyWorker k fun w => w.processRtcMsg outcome
  | .connectionState k i state =>
    s.modifyWorker k fun w => { w with manager := w.manager.step (.connectionState i state) }
  | .iceTimeout k i =>
    s.modifyWorker k fun w => { w with manager := w.manager.step (.iceTimeout i) }

end RtcServer
end Server
end XrtcServer
