import XrtcServer.SignalingWorker

/-! What becomes of the replies that are queued on a connection: they are written, or are lost when
the connection is closed. -/
namespace XrtcServer
namespace Signaling
open XrtcServer.Stream

/-- Why a connection is closed. -/
inductive Cause
  | read
  | write
  | timeout
  | request
  deriving DecidableEq

/-- The system with what was queued and written on the connections so far, by their numbers, and
with the connections that were closed. -/
structure Ledger where
  system : System
  queued : List (ℕ × Reply) := []
  written : List (ℕ × Reply) := []
  closed : List (ℕ × Cause) := []

namespace System

/-- The connection that a watcher leads to. -/
def watched (s : System) (addr : ℕ) : Option (ℕ × TcpConnection) :=
  match s.heap addr with
  | none => none
  | some watched =>
    match s.entry watched with
    | some (some b) => (s.heap b).map fun conn => (b, conn)
    | _ => none

/-- No connection is written to whose descriptor is zero. -/
def writing (s : System) (addr : ℕ) : Option (ℕ × TcpConnection) :=
  match s.heap addr with
  | none => none
  | some conn => if conn.fd = 0 then none else s.watched addr

/-- The request has a known command and the fields that this one reads. -/
def Complete (root : Server.Root) : Prop :=
  root.uid.isSome ∧ root.streamName.isSome ∧
    ((root.cmdno = some Server.cmdnoStoppush ∨ root.cmdno = some Server.cmdnoStoppull) ∨
      (root.cmdno = some Server.cmdnoPush ∧ root.dtlsOn.isSome ∨ root.cmdno = some Server.cmdnoPull) ∧
        root.audio.isSome ∧ root.video.isSome ∧ root.sdp.isSome)

instance (root : Server.Root) : Decidable (Complete root) := inferInstanceAs (Decidable (_ ∧ _ ∧ _))

/-- The request cannot be sent on. -/
def Fails (root : Server.Root) (notified : Bool) : Prop := ¬ Complete root ∨ notified = false

instance (root : Server.Root) (notified : Bool) : Decidable (Fails root notified) := inferInstanceAs (Decidable (_ ∨ _))

/-- The request is answered when it is processed. -/
def AnsweredAtOnce (root : Server.Root) : Prop := ∃ cmdno, root.cmdno = some cmdno ∧ cmdno ≠ Server.cmdnoPush ∧ cmdno ≠ Server.cmdnoPull

instance (root : Server.Root) : Decidable (AnsweredAtOnce root) :=
  decidable_of_iff (root.cmdno.any fun cmdno => cmdno ≠ Server.cmdnoPush ∧ cmdno ≠ Server.cmdnoPull) <| by
    simp [AnsweredAtOnce, Option.any_eq_true]

end System

namespace Ledger

/-- The replies that a step queues. -/
def replies (s : System) : System.Event → List (ℕ × Reply)
  | .readable addr (.request root _ notified) =>
    match s.watched addr with
    | none => []
    | some (_, conn) =>
      if System.AnsweredAtOnce root then
        [(conn.number, .result (if System.Fails root notified then -1 else 0))]
      else []
  | .rtcMsg w => ((s.processRtcMsg w).queued.drop s.queued.length).map fun q => (q.connection, .offer q.request)
  | _ => []

/-- The replies that a step writes. -/
def writes (s : System) : System.Event → List (ℕ × Reply)
  | .writable addr written _ =>
    match s.writing addr with
    | none => []
    | some (_, conn) => (conn.replyList.take written).map fun reply => (conn.number, reply)
  | _ => []

/-- The connections that a step closes. -/
def closes (s : System) : System.Event → List (ℕ × Cause)
  | .readable addr .failed => ((s.watched addr).map fun found => (found.2.number, .read)).toList
  | .readable addr (.request root _ notified) =>
    match s.watched addr with
    | none => []
    | some (_, conn) => if System.Fails root notified then [(conn.number, .request)] else []
  | .timeout addr => ((s.heap addr).map fun conn => (conn.number, .timeout)).toList
  | .writable addr _ failed =>
    match s.writing addr with
    | none => []
    | some (_, conn) => if failed then [(conn.number, .write)] else []
  | _ => []

def step (l : Ledger) (e : System.Event) : Ledger where
  system := l.system.step e
  queued := l.queued ++ replies l.system e
  written := l.written ++ writes l.system e
  closed := l.closed ++ closes l.system e

def init (workerNum : ℕ) : Ledger := { system := System.init workerNum }

/-- The entries of one connection. -/
def on (number : ℕ) (items : List (ℕ × Reply)) : List Reply := (items.filter fun item => item.1 = number).map Prod.snd

/-- Every reply of a connection that was closed after a request is written. -/
def Delivered (l : Ledger) : Prop := ∀ number, (number, Cause.request) ∈ l.closed → on number l.queued = on number l.written

/-- A request that fails is not answered at once, and finds no reply that is still to be written. -/
def Orderly (l : Ledger) : System.Event → Prop
  | .readable addr (.request root _ notified) => ∀ b conn, l.system.watched addr = some (b, conn) →
      System.Fails root notified → ¬ System.AnsweredAtOnce root ∧ conn.replyList = []
  | _ => True

section Entries
variable {number number' : ℕ} {items items' : List (ℕ × Reply)} {replies : List Reply}

theorem on_append : on number (items ++ items') = on number items ++ on number items' := by
  rw [on, List.filter_append, List.map_append]
  rfl

theorem on_self : on number (replies.map fun reply => (number, reply)) = replies := by
  have hall : ∀ item ∈ replies.map fun reply => (number, reply), decide (item.1 = number) = true := by
    intro item hitem
    obtain ⟨reply, -, rfl⟩ := List.mem_map.mp hitem
    exact decide_eq_true rfl
  rw [on, List.filter_eq_self.mpr hall, List.map_map]
  exact List.map_id replies

theorem on_eq_nil (h : ∀ item ∈ items, item.1 ≠ number) : on number items = [] := by
  have hnone : ∀ item ∈ items, ¬ decide (item.1 = number) = true := fun item hitem => by simpa using h item hitem
  rw [on, List.filter_eq_nil_iff.mpr hnone, List.map_nil]

theorem on_other (h : number' ≠ number) : on number (replies.map fun reply => (number', reply)) = [] := by
  refine on_eq_nil fun item hitem => ?_
  obtain ⟨reply, -, rfl⟩ := List.mem_map.mp hitem
  exact h

end Entries

/-- What was queued on an open connection is written or still in its list. -/
structure Balanced (l : Ledger) : Prop where
  placed : ∀ addr conn, l.system.heap addr = some conn → conn.number < l.system.created ∧ conn.worker < l.system.workers.length
  apart : ∀ a b x y, l.system.heap a = some x → l.system.heap b = some y → x.number = y.number → a = b
  queued : ∀ item ∈ l.queued, item.1 < l.system.created
  written : ∀ item ∈ l.written, item.1 < l.system.created
  closed : ∀ item ∈ l.closed, item.1 < l.system.created
  opened : ∀ addr conn, l.system.heap addr = some conn →
    on conn.number l.queued = on conn.number l.written ++ conn.replyList ∧ ∀ cause, (conn.number, cause) ∉ l.closed
  delivered : l.Delivered

section Changes
variable {l l' : Ledger} {b : ℕ} {conn : TcpConnection}

/-- Where a connection can be after an address was given another one or none. -/
theorem of_update_eq_some {heap : ℕ → Option TcpConnection} {y : Option TcpConnection} {a : ℕ} {x : TcpConnection}
    (h : Function.update heap b y a = some x) : a = b ∧ y = some x ∨ a ≠ b ∧ heap a = some x := by
  by_cases hab : a = b
  · subst hab
    rw [Function.update_self] at h
    exact .inl ⟨rfl, h⟩
  · rw [Function.update_of_ne hab] at h
    exact .inr ⟨hab, h⟩

/-- A step that only concerns one connection. -/
theorem Balanced.change (h : Balanced l) (y : Option TcpConnection) (rs ws : List Reply) (cs : List Cause) (hconn : l.system.heap b = some conn)
    (hheap : l'.system.heap = Function.update l.system.heap b y) (hcreated : l'.system.created = l.system.created)
    (hworkers : l'.system.workers.length = l.system.workers.length)
    (hq : l'.queued = l.queued ++ rs.map fun reply => (conn.number, reply))
    (hw : l'.written = l.written ++ ws.map fun reply => (conn.number, reply))
    (hc : l'.closed = l.closed ++ cs.map fun cause => (conn.number, cause))
    (hopen : ∀ x, y = some x → x.number = conn.number ∧ x.worker = conn.worker ∧ conn.replyList ++ rs = ws ++ x.replyList ∧ cs = [])
    (hclose : y = none → .request ∈ cs → conn.replyList ++ rs = ws) : Balanced l' := by
  obtain ⟨hplaced, hworker⟩ := h.placed b conn hconn
  obtain ⟨hbalance, hnotclosed⟩ := h.opened b conn hconn
  have hnew {a : ℕ} {x : TcpConnection} (ha : l'.system.heap a = some x) :
      a = b ∧ y = some x ∨ a ≠ b ∧ l.system.heap a = some x :=
    of_update_eq_some (hheap ▸ ha)
  have hitems {α : Type} {items : List (ℕ × α)} {more : List α} (hitems : ∀ item ∈ items, item.1 < l.system.created) :
      ∀ item ∈ items ++ more.map fun x => (conn.number, x), item.1 < l.system.created := by
    intro item hitem
    rcases List.mem_append.mp hitem with hitem | hitem
    · exact hitems item hitem
    · obtain ⟨x, -, rfl⟩ := List.mem_map.mp hitem
      exact hplaced
  have hother {number : ℕ} (hne : conn.number ≠ number) : on number l'.queued = on number l.queued ∧
      on number l'.written = on number l.written := by
    rw [hq, hw, on_append, on_append, on_other hne, on_other hne, List.append_nil, List.append_nil]
    exact ⟨rfl, rfl⟩
  have hself : on conn.number l'.queued = on conn.number l.written ++ (conn.replyList ++ rs) ∧
      on conn.number l'.written = on conn.number l.written ++ ws := by
    rw [hq, hw, on_append, on_append, on_self, on_self, hbalance, List.append_assoc]
    exact ⟨rfl, rfl⟩
  refine ⟨?_, ?_, ?_, ?_, ?_, ?_, ?_⟩
  · intro a x ha
    rw [hcreated, hworkers]
    rcases hnew ha with ⟨rfl, hx⟩ | ⟨-, hold⟩
    · obtain ⟨hnumber, hsame, -⟩ := hopen x hx
      rw [hnumber, hsame]
      exact ⟨hplaced, hworker⟩
    · exact h.placed a x hold
  · intro a a' x x' ha ha' hnumber
    rcases hnew ha with ⟨rfl, hx⟩ | ⟨hab, hold⟩
    · rcases hnew ha' with ⟨rfl, -⟩ | ⟨-, hold'⟩
      · rfl
      · rw [(hopen x hx).1] at hnumber
        exact h.apart a a' conn x' hconn hold' hnumber
    · rcases hnew ha' with ⟨rfl, hx'⟩ | ⟨-, hold'⟩
      · rw [(hopen x' hx').1] at hnumber
        exact h.apart a a' x conn hold hconn hnumber
      · exact h.apart a a' x x' hold hold' hnumber
  · rw [hcreated, hq]
    exact hitems h.queued
  · rw [hcreated, hw]
    exact hitems h.written
  · rw [hcreated, hc]
    exact hitems h.closed
  · intro a x ha
    rcases hnew ha with ⟨rfl, hx⟩ | ⟨hab, hold⟩
    · obtain ⟨hnumber, -, hlist, rfl⟩ := hopen x hx
      rw [hnumber, hself.1, hself.2, hlist, List.append_assoc]
      refine ⟨rfl, fun cause hmem => ?_⟩
      rw [hc, List.map_nil, List.append_nil] at hmem
      exact hnotclosed cause hmem
    · have hne : conn.number ≠ x.number := fun heq => hab (h.apart a b x conn hold hconn heq.symm)
      obtain ⟨hbal, hnot⟩ := h.opened a x hold
      rw [(hother hne).1, (hother hne).2]
      refine ⟨hbal, fun cause hmem => ?_⟩
      rw [hc] at hmem
      rcases List.mem_append.mp hmem with hmem | hmem
      · exact hnot cause hmem
      · obtain ⟨cause', -, heq⟩ := List.mem_map.mp hmem
        exact hne (congrArg Prod.fst heq)
  · intro number hmem
    rw [hc] at hmem
    rcases List.mem_append.mp hmem with hmem | hmem
    · have hne : conn.number ≠ number := by
        rintro rfl
        exact hnotclosed .request hmem
      rw [(hother hne).1, (hother hne).2]
      exact h.delivered number hmem
    · obtain ⟨cause, hcause, heq⟩ := List.mem_map.mp hmem
      obtain ⟨rfl, rfl⟩ := Prod.mk.inj heq
      have hnone : y = none := by
        cases hy : y with
        | none => rfl
        | some x =>
          obtain ⟨-, -, -, rfl⟩ := hopen x hy
          cases hcause
      rw [hself.1, hself.2, hclose hnone hcause]

/-- A new connection has a number that none had before. -/
theorem Balanced.create (h : Balanced l) {y : TcpConnection} (hnumber : y.number = l.system.created)
    (hworker : y.worker < l.system.workers.length) (hlist : y.replyList = [])
    (hheap : l'.system.heap = Function.update l.system.heap b (some y)) (hcreated : l'.system.created = l.system.created + 1)
    (hworkers : l'.system.workers.length = l.system.workers.length) (hq : l'.queued = l.queued) (hw : l'.written = l.written)
    (hc : l'.closed = l.closed) : Balanced l' := by
  have hnone {items : List (ℕ × Reply)} (hitems : ∀ item ∈ items, item.1 < l.system.created) : on y.number items = [] :=
    on_eq_nil fun item hitem => hnumber ▸ (hitems item hitem).ne
  have hnew {a : ℕ} {x : TcpConnection} (ha : l'.system.heap a = some x) : a = b ∧ x = y ∨ l.system.heap a = some x := by
    rw [hheap] at ha
    rcases of_update_eq_some ha with ⟨hab, hx⟩ | ⟨-, hold⟩
    · exact .inl ⟨hab, (Option.some.inj hx).symm⟩
    · exact .inr hold
  refine ⟨?_, ?_, ?_, ?_, ?_, ?_, ?_⟩
  · intro a x ha
    rw [hcreated, hworkers]
    rcases hnew ha with ⟨-, rfl⟩ | hold
    · exact ⟨Nat.lt_succ_of_le hnumber.le, hworker⟩
    · obtain ⟨hlt, hin⟩ := h.placed a x hold
      exact ⟨Nat.lt_succ_of_lt hlt, hin⟩
  · intro a a' x x' ha ha' hsame
    rcases hnew ha with ⟨rfl, rfl⟩ | hold
    · rcases hnew ha' with ⟨rfl, -⟩ | hold'
      · rfl
      · exact absurd (hnumber.symm.trans hsame) (h.placed a' x' hold').1.ne'
    · rcases hnew ha' with ⟨rfl, rfl⟩ | hold'
      · exact absurd (hsame.trans hnumber) (h.placed a x hold).1.ne
      · exact h.apart a a' x x' hold hold' hsame
  · rw [hq, hcreated]
    exact fun item hitem => Nat.lt_succ_of_lt (h.queued item hitem)
  · rw [hw, hcreated]
    exact fun item hitem => Nat.lt_succ_of_lt (h.written item hitem)
  · rw [hc, hcreated]
    exact fun item hitem => Nat.lt_succ_of_lt (h.closed item hitem)
  · intro a x ha
    rw [hq, hw, hc]
    rcases hnew ha with ⟨-, rfl⟩ | hold
    · rw [hnone h.queued, hnone h.written, hlist]
      exact ⟨rfl, fun cause hmem => (h.closed _ hmem).ne hnumber⟩
    · exact h.opened a x hold
  · rw [Delivered, hq, hw, hc]
    exact h.delivered

/-- A step that concerns no connection. -/
theorem Balanced.same (h : Balanced l) (hheap : l'.system.heap = l.system.heap) (hcreated : l'.system.created = l.system.created)
    (hworkers : l'.system.workers.length = l.system.workers.length) (hq : l'.queued = l.queued) (hw : l'.written = l.written)
    (hc : l'.closed = l.closed) : Balanced l' := by
  refine ⟨?_, ?_, ?_, ?_, ?_, ?_, ?_⟩
  · rw [hheap, hcreated, hworkers]
    exact h.placed
  · rw [hheap]
    exact h.apart
  · rw [hq, hcreated]
    exact h.queued
  · rw [hw, hcreated]
    exact h.written
  · rw [hc, hcreated]
    exact h.closed
  · rw [hheap, hq, hw, hc]
    exact h.opened
  · rw [Delivered, hq, hw, hc]
    exact h.delivered

end Changes

/-- The connections of a system, as far as their replies are concerned. -/
structure Untouched (s s' : System) : Prop where
  heap : s'.heap = s.heap
  created : s'.created = s.created
  workers : s'.workers.length = s.workers.length

section Steps
variable {s : System} {l : Ledger} {addr b w : ℕ} {conn : TcpConnection}

theorem Untouched.refl (s : System) : Untouched s s := ⟨rfl, rfl, rfl⟩

theorem length_setWorker (w : ℕ) (worker : SignalingWorker) : (s.setWorker w worker).workers.length = s.workers.length :=
  List.length_set

theorem untouched_dispatchNewConn (s : System) (fd : ℕ) : Untouched s (s.dispatchNewConn fd) := by
  rw [System.dispatchNewConn]
  split
  · exact .refl s
  · split
    · exact .refl s
    · exact ⟨rfl, rfl, length_setWorker _ _⟩

theorem untouched_answer (s : System) (i : ℕ) (failed : Bool) (sdp : String) : Untouched s (s.answer i failed sdp) := by
  rw [System.answer]
  split
  · exact .refl s
  · dsimp only
    split
    · exact ⟨rfl, rfl, rfl⟩
    · split
      · exact ⟨rfl, rfl, rfl⟩
      · exact ⟨rfl, rfl, length_setWorker _ _⟩

/-- A connection whose worker exists leaves the memory when it is closed. -/
theorem closeConnection_heap (hconn : s.heap addr = some conn) (hworker : conn.worker < s.workers.length) :
    (s.closeConnection addr).heap = Function.update s.heap addr none ∧ (s.closeConnection addr).created = s.created ∧
      (s.closeConnection addr).workers.length = s.workers.length := by
  have hw : s.workers[conn.worker]? = some s.workers[conn.worker] := List.getElem?_eq_getElem hworker
  rw [System.closeConnection, hconn]
  dsimp only
  rw [hw]
  exact ⟨rfl, rfl, length_setWorker _ _⟩

theorem addReply_heap (hconn : s.heap addr = some conn) (reply : Reply) :
    (s.addReply addr reply).heap = Function.update s.heap addr (some { conn with replyList := conn.replyList ++ [reply] }) := by
  rw [System.addReply, hconn]
  rfl

theorem heap_of_watched (h : s.watched addr = some (b, conn)) : s.heap b = some conn := by
  rw [System.watched] at h
  split at h
  · cases h
  · split at h
    · obtain ⟨conn', hconn, heq⟩ := Option.map_eq_some_iff.mp h
      obtain ⟨rfl, rfl⟩ := Prod.mk.inj heq
      exact hconn
    · cases h

theorem watched_of_writing (h : s.writing addr = some (b, conn)) : s.watched addr = some (b, conn) := by
  rw [System.writing] at h
  split at h
  · cases h
  · split at h
    · cases h
    · exact h

/-- What a readable socket leads to concerns the connection that is found. -/
theorem readQuery_of_watched (h : s.watched addr = some (b, conn)) (arrival : Arrival) : s.readQuery addr arrival =
    match arrival with
    | .more => s
    | .failed => s.closeConnection b
    | .request root logId notified => s.processRequest b conn root logId notified := by
  rw [System.watched] at h
  rw [System.readQuery]
  split at h
  · cases h
  · rename_i watched hwatched
    split at h
    · rename_i b' hentry
      obtain ⟨conn', hconn, heq⟩ := Option.map_eq_some_iff.mp h
      obtain ⟨rfl, rfl⟩ := Prod.mk.inj heq
      cases arrival <;> simp only [hwatched, hentry, hconn]
    · cases h

theorem readQuery_untouched (h : s.watched addr = none) (arrival : Arrival) : Untouched s (s.readQuery addr arrival) := by
  rw [System.watched] at h
  rw [System.readQuery]
  split
  · exact .refl s
  · rename_i watched hwatched
    rw [hwatched] at h
    dsimp only at h
    split
    · exact ⟨rfl, rfl, rfl⟩
    · exact .refl s
    · rename_i b hentry
      rw [hentry] at h
      dsimp only at h
      rw [Option.map_eq_none_iff] at h
      rw [h]
      exact ⟨rfl, rfl, rfl⟩

/-- What is written goes to the connection that is found. -/
theorem writeReply_of_writing (h : s.writing addr = some (b, conn)) (written : ℕ) (failed : Bool) :
    s.writeReply addr written failed =
      if failed then
        { s with heap := Function.update s.heap b (some { conn with replyList := conn.replyList.drop written }) }.closeConnection b
      else { s with heap := Function.update s.heap b (some { conn with replyList := conn.replyList.drop written }) } := by
  have hwatched := watched_of_writing h
  rw [System.writing] at h
  rw [System.watched] at hwatched
  rw [System.writeReply]
  split at h
  · cases h
  · rename_i watched hheap
    simp only [hheap] at hwatched ⊢
    split at h
    · cases h
    · rename_i hfd
      rw [if_neg hfd]
      split at hwatched
      · rename_i b' hentry
        obtain ⟨conn', hconn, heq⟩ := Option.map_eq_some_iff.mp hwatched
        obtain ⟨rfl, rfl⟩ := Prod.mk.inj heq
        simp only [hentry, hconn]
      · cases hwatched

theorem writeReply_untouched (h : s.writing addr = none) (written : ℕ) (failed : Bool) :
    Untouched s (s.writeReply addr written failed) := by
  rw [System.writing] at h
  rw [System.writeReply]
  split
  · exact .refl s
  · rename_i watched hheap
    rw [hheap] at h
    dsimp only at h
    split
    · exact .refl s
    · rename_i hfd
      rw [if_neg hfd, System.watched, hheap] at h
      dsimp only at h
      split
      · exact .refl s
      · exact .refl s
      · rename_i b hentry
        rw [hentry] at h
        dsimp only at h
        rw [Option.map_eq_none_iff] at h
        rw [h]
        exact ⟨rfl, rfl, rfl⟩

theorem isSome_processPush (cmdno : ℤ) (conn : Server.TcpConnection) (root : Server.Root) (logId : UInt32) :
    (Server.processPush cmdno conn root logId).isSome ↔ root.uid.isSome ∧ root.streamName.isSome ∧
      root.dtlsOn.isSome ∧ root.audio.isSome ∧ root.video.isSome ∧ root.sdp.isSome := by
  obtain ⟨c, uid, streamName, audio, video, sdp, dtlsOn⟩ := root
  rw [Server.processPush]
  cases uid <;> cases streamName <;> cases audio <;> cases video <;> cases sdp <;> cases dtlsOn <;> simp

theorem isSome_processPull (cmdno : ℤ) (conn : Server.TcpConnection) (root : Server.Root) (logId : UInt32) :
    (Server.processPull cmdno conn root logId).isSome ↔ root.uid.isSome ∧ root.streamName.isSome ∧
      root.audio.isSome ∧ root.video.isSome ∧ root.sdp.isSome := by
  obtain ⟨c, uid, streamName, audio, video, sdp, dtlsOn⟩ := root
  rw [Server.processPull]
  cases uid <;> cases streamName <;> cases audio <;> cases video <;> cases sdp <;> simp

theorem isSome_processStop (cmdno : ℤ) (root : Server.Root) (logId : UInt32) :
    (Server.processStop cmdno root logId).isSome ↔ root.uid.isSome ∧ root.streamName.isSome := by
  obtain ⟨c, uid, streamName, audio, video, sdp, dtlsOn⟩ := root
  rw [Server.processStop]
  cases uid <;> cases streamName <;> simp

/-- A message is made of the requests that are complete. -/
theorem isSome_processRequest (conn : Server.TcpConnection) (root : Server.Root) (logId : UInt32) :
    (Server.processRequest conn root logId).isSome ↔ System.Complete root := by
  rw [System.Complete, Server.processRequest]
  cases hcmdno : root.cmdno with
  | none => simp
  | some cmdno =>
    simp only [Option.bind_eq_bind, Option.bind_some, Option.some.injEq]
    by_cases hpush : cmdno = Server.cmdnoPush
    · subst hpush
      rw [if_pos rfl, isSome_processPush]
      simp [Server.cmdnoPush, Server.cmdnoPull, Server.cmdnoStoppush, Server.cmdnoStoppull]
    · by_cases hpull : cmdno = Server.cmdnoPull
      · subst hpull
        rw [if_neg hpush, if_pos rfl, isSome_processPull]
        simp [Server.cmdnoPush, Server.cmdnoPull, Server.cmdnoStoppush, Server.cmdnoStoppull]
      · rw [if_neg hpush, if_neg hpull, Server.processStopPush, Server.processStopPull]
        by_cases hstop : cmdno = Server.cmdnoStoppush
        · rw [if_pos hstop, isSome_processStop]
          simp [hstop]
        · by_cases hstop' : cmdno = Server.cmdnoStoppull
          · rw [if_neg hstop, if_pos hstop', isSome_processStop]
            simp [hstop']
          · rw [if_neg hstop, if_neg hstop']
            simp [hpush, hpull, hstop, hstop']

/-- A request is sent on, answered, and closes the connection if it fails. -/
theorem processRequest_eq (s : System) (b : ℕ) (conn : TcpConnection) (root : Server.Root) (logId : UInt32) (notified : Bool) :
    ∃ s', Untouched s s' ∧ s.processRequest b conn root logId notified =
      if System.Fails root notified then
        (if System.AnsweredAtOnce root then s'.addReply b (.result (-1)) else s').closeConnection b
      else if System.AnsweredAtOnce root then s'.addReply b (.result 0) else s' := by
  rw [System.processRequest]
  cases hcmdno : root.cmdno with
  | none =>
    have hfails : System.Fails root notified := by
      simp [System.Fails, System.Complete, hcmdno]
    have hnot : ¬ System.AnsweredAtOnce root := by
      rintro ⟨cmdno, hsome, -⟩
      rw [hcmdno] at hsome
      cases hsome
    refine ⟨s, .refl s, ?_⟩
    rw [if_pos hfails, if_neg hnot]
    rfl
  | some cmdno =>
    have hanswered : System.AnsweredAtOnce root ↔ ¬ (cmdno = Server.cmdnoPush ∨ cmdno = Server.cmdnoPull) := by
      rw [System.AnsweredAtOnce, hcmdno, not_or]
      simp
    have hsent (msg : Option RtcMsg) : Untouched s (msg.elim s fun msg => s.send msg conn.number) := by
      cases msg <;> exact ⟨rfl, rfl, rfl⟩
    dsimp only
    generalize hmsg : Server.processRequest ⟨conn.worker, b, conn.fd⟩ root logId = msg
    have hfails : System.Fails root notified ↔ ¬ (msg.isSome && notified) = true := by
      rw [System.Fails, ← isSome_processRequest ⟨conn.worker, b, conn.fd⟩ root logId, hmsg]
      cases msg <;> cases notified <;> simp
    refine ⟨_, hsent msg, ?_⟩
    rw [System.finish, System.finish]
    by_cases hlater : cmdno = Server.cmdnoPush ∨ cmdno = Server.cmdnoPull
    · have hnot : ¬ System.AnsweredAtOnce root := fun h => hanswered.mp h hlater
      by_cases hok : (msg.isSome && notified) = true
      · have hpass : ¬ System.Fails root notified := fun h => hfails.mp h hok
        cases msg with
        | none => cases hok
        | some msg =>
          obtain rfl : notified = true := hok
          simp [hlater, hnot, hpass]
      · simp only [if_pos hlater, if_neg hnot, if_neg hok, if_pos (hfails.mpr hok)]
        cases msg <;> rfl
    · have hyes := hanswered.mpr hlater
      by_cases hok : (msg.isSome && notified) = true
      · have hpass : ¬ System.Fails root notified := fun h => hfails.mp h hok
        cases msg with
        | none => cases hok
        | some msg =>
          obtain rfl : notified = true := hok
          simp [hlater, hyes, hpass]
      · simp only [if_neg hlater, if_pos hyes, if_neg hok, if_pos (hfails.mpr hok)]
        cases msg <;> rfl

/-- An offer goes to the connection that is found, if one is. -/
theorem responseServerOffer_cases (s : System) (conns : List (Option ℕ)) (request : Request) :
    Untouched s (s.responseServerOffer conns request) ∧ (s.responseServerOffer conns request).queued = s.queued ∨
    ∃ addr conn, s.heap addr = some conn ∧ s.responseServerOffer conns request =
      { s.addReply addr (.offer request) with queued := s.queued ++ [⟨request, conn.number⟩] } := by
  rw [System.responseServerOffer]
  split
  · exact .inl ⟨.refl s, rfl⟩
  · rename_i addr _
    dsimp only
    split
    · exact .inl ⟨.refl s, rfl⟩
    · split
      · exact .inl ⟨.refl s, rfl⟩
      · split
        · exact .inl ⟨⟨rfl, rfl, rfl⟩, rfl⟩
        · rename_i conn hconn
          exact .inr ⟨addr, conn, hconn, rfl⟩

theorem processRtcMsg_cases (s : System) (w : ℕ) :
    Untouched s (s.processRtcMsg w) ∧ (s.processRtcMsg w).queued = s.queued ∨
    ∃ s' addr conn request, Untouched s s' ∧ s'.queued = s.queued ∧ s'.heap addr = some conn ∧ s.processRtcMsg w =
      { s'.addReply addr (.offer request) with queued := s'.queued ++ [⟨request, conn.number⟩] } := by
  rw [System.processRtcMsg]
  split
  · exact .inl ⟨.refl s, rfl⟩
  · rename_i worker _
    split
    · exact .inl ⟨.refl s, rfl⟩
    · rename_i request qMsg _
      have htaken : Untouched s (s.setWorker w { worker with qMsg }) := ⟨rfl, rfl, length_setWorker w _⟩
      dsimp only
      split
      · rcases responseServerOffer_cases (s.setWorker w { worker with qMsg }) worker.conns request with ⟨hs, hqueued⟩ | ⟨addr, conn, hconn, hoffer⟩
        · exact .inl ⟨⟨hs.heap, hs.created, hs.workers.trans htaken.workers⟩, hqueued⟩
        · exact .inr ⟨_, addr, conn, request, htaken, rfl, hconn, hoffer⟩
      · exact .inl ⟨htaken, rfl⟩

theorem Balanced.untouched (h : Balanced l) (hs : Untouched l.system s) {l' : Ledger} (hl : l'.system = s) (hq : l'.queued = l.queued)
    (hw : l'.written = l.written) (hc : l'.closed = l.closed) : Balanced l' := by
  subst hl
  exact h.same hs.heap hs.created hs.workers hq hw hc

/-- A connection that fails is closed, whatever is in its list. -/
theorem Balanced.close (h : Balanced l) (hconn : l.system.heap b = some conn) {cause : Cause} (hcause : cause ≠ .request) {l' : Ledger}
    (hl : l'.system = l.system.closeConnection b) (hq : l'.queued = l.queued) (hw : l'.written = l.written)
    (hc : l'.closed = l.closed ++ [(conn.number, cause)]) : Balanced l' := by
  obtain ⟨hheap, hcreated, hworkers⟩ := closeConnection_heap hconn (h.placed b conn hconn).2
  refine h.change none [] [] [cause] hconn ?_ ?_ ?_ ?_ ?_ ?_ ?_ ?_
  · rw [hl, hheap]
  · rw [hl, hcreated]
  · rw [hl, hworkers]
  · rw [hq, List.map_nil, List.append_nil]
  · rw [hw, List.map_nil, List.append_nil]
  · exact hc
  · rintro x ⟨⟩
  · intro _ hmem
    exact absurd (List.mem_singleton.mp hmem).symm hcause

/-- A request keeps the balance if it is orderly. -/
theorem Balanced.request (h : Balanced l) {root : Server.Root} {logId : UInt32} {notified : Bool}
    (ho : l.Orderly (.readable addr (.request root logId notified))) : Balanced (l.step (.readable addr (.request root logId notified))) := by
  cases hwatched : l.system.watched addr with
  | none =>
    refine h.untouched (readQuery_untouched hwatched (.request root logId notified)) rfl ?_ ?_ ?_
    · simp [step, replies, hwatched]
    · simp [step, writes]
    · simp [step, closes, hwatched]
  | some found =>
    obtain ⟨b, conn⟩ := found
    have hconn := heap_of_watched hwatched
    obtain ⟨s', hs', hprocess⟩ := processRequest_eq l.system b conn root logId notified
    have hstep : (l.step (.readable addr (.request root logId notified))).system = _ :=
      (readQuery_of_watched hwatched (.request root logId notified)).trans hprocess
    have hconn' : s'.heap b = some conn := by
      rw [hs'.heap, hconn]
    have hworker : conn.worker < s'.workers.length := by
      rw [hs'.workers]
      exact (h.placed b conn hconn).2
    by_cases hfails : System.Fails root notified
    · obtain ⟨hlater, hempty⟩ := ho b conn hwatched hfails
      rw [if_pos hfails, if_neg hlater] at hstep
      obtain ⟨hheap, hcreated, hworkers⟩ := closeConnection_heap hconn' hworker
      refine h.change none [] [] [.request] hconn ?_ ?_ ?_ ?_ ?_ ?_ ?_ ?_
      · rw [hstep, hheap, hs'.heap]
      · rw [hstep, hcreated, hs'.created]
      · rw [hstep, hworkers, hs'.workers]
      · simp [step, replies, hwatched, hlater]
      · simp [step, writes]
      · simp [step, closes, hwatched, hfails]
      · rintro x ⟨⟩
      · rw [hempty]
        exact fun _ _ => rfl
    · rw [if_neg hfails] at hstep
      by_cases hyes : System.AnsweredAtOnce root
      · rw [if_pos hyes] at hstep
        refine h.change (some { conn with replyList := conn.replyList ++ [.result 0] }) [.result 0] [] [] hconn
          ?_ ?_ ?_ ?_ ?_ ?_ ?_ ?_
        · rw [hstep, addReply_heap hconn', hs'.heap]
        · rw [hstep, ← hs'.created]
          rfl
        · rw [hstep, ← hs'.workers]
          rfl
        · simp [step, replies, hwatched, hyes, hfails]
        · simp [step, writes]
        · simp [step, closes, hwatched, hfails]
        · rintro x ⟨⟩
          exact ⟨rfl, rfl, rfl, rfl⟩
        · rintro ⟨⟩
      · rw [if_neg hyes] at hstep
        refine h.untouched hs' hstep ?_ ?_ ?_
        · simp [step, replies, hwatched, hyes]
        · simp [step, writes]
        · simp [step, closes, hwatched, hfails]

/-- What is read may be a part of a request, or fail. -/
theorem Balanced.readable (h : Balanced l) {arrival : Arrival} (ho : l.Orderly (.readable addr arrival)) :
    Balanced (l.step (.readable addr arrival)) := by
  cases arrival with
  | request root logId notified => exact h.request ho
  | more =>
    have hsame : Untouched l.system (l.system.readQuery addr .more) := by
      cases hwatched : l.system.watched addr with
      | none => exact readQuery_untouched hwatched .more
      | some found =>
        rw [readQuery_of_watched hwatched .more]
        exact .refl _
    refine h.untouched hsame rfl ?_ ?_ ?_
    · simp [step, replies]
    · simp [step, writes]
    · simp [step, closes]
  | failed =>
    cases hwatched : l.system.watched addr with
    | none =>
      refine h.untouched (readQuery_untouched hwatched .failed) rfl ?_ ?_ ?_
      · simp [step, replies]
      · simp [step, writes]
      · simp [step, closes, hwatched]
    | some found =>
      obtain ⟨b, conn⟩ := found
      have hread : (Cause.read) ≠ .request := by
        rintro ⟨⟩
      refine h.close (heap_of_watched hwatched) hread (readQuery_of_watched hwatched .failed) ?_ ?_ ?_
      · simp [step, replies]
      · simp [step, writes]
      · simp [step, closes, hwatched]

theorem Balanced.timeout (h : Balanced l) : Balanced (l.step (.timeout addr)) := by
  cases hconn : l.system.heap addr with
  | none =>
    have hsame : l.system.processTimeout addr = l.system := by
      rw [System.processTimeout, hconn]
      rfl
    refine h.untouched (.refl _) hsame ?_ ?_ ?_
    · simp [step, replies]
    · simp [step, writes]
    · simp [step, closes, hconn]
  | some conn =>
    have hclose : l.system.processTimeout addr = l.system.closeConnection addr := by
      rw [System.processTimeout, hconn]
      rfl
    have htimeout : (Cause.timeout) ≠ .request := by
      rintro ⟨⟩
    refine h.close hconn htimeout hclose ?_ ?_ ?_
    · simp [step, replies]
    · simp [step, writes]
    · simp [step, closes, hconn]

/-- What is written leaves the list, and what is left is lost if the socket fails. -/
theorem Balanced.writable (h : Balanced l) {written : ℕ} {failed : Bool} : Balanced (l.step (.writable addr written failed)) := by
  cases hwriting : l.system.writing addr with
  | none =>
    refine h.untouched (writeReply_untouched hwriting written failed) rfl ?_ ?_ ?_
    · simp [step, replies]
    · simp [step, writes, hwriting]
    · simp [step, closes, hwriting]
  | some found =>
    obtain ⟨b, conn⟩ := found
    have hconn := heap_of_watched (watched_of_writing hwriting)
    have hstep : (l.step (.writable addr written failed)).system = _ := writeReply_of_writing hwriting written failed
    cases failed with
    | false =>
      refine h.change (some { conn with replyList := conn.replyList.drop written }) [] (conn.replyList.take written) [] hconn
        ?_ ?_ ?_ ?_ ?_ ?_ ?_ ?_
      · rw [hstep]
        rfl
      · rw [hstep]
        rfl
      · rw [hstep]
        rfl
      · simp [step, replies]
      · simp [step, writes, hwriting]
      · simp [step, closes, hwriting]
      · rintro x ⟨⟩
        refine ⟨rfl, rfl, ?_, rfl⟩
        rw [List.append_nil, List.take_append_drop]
      · rintro ⟨⟩
    | true =>
      let conn' : TcpConnection := { conn with replyList := conn.replyList.drop written }
      let s : System := { l.system with heap := Function.update l.system.heap b (some conn') }
      have hconn' : s.heap b = some conn' := Function.update_self _ _ _
      obtain ⟨hheap, hcreated, hworkers⟩ := closeConnection_heap hconn' (h.placed b conn hconn).2
      refine h.change none [] (conn.replyList.take written) [.write] hconn ?_ ?_ ?_ ?_ ?_ ?_ ?_ ?_
      · rw [hstep, if_pos rfl]
        exact hheap.trans (Function.update_idem _ _ _)
      · rw [hstep, if_pos rfl]
        exact hcreated
      · rw [hstep, if_pos rfl]
        exact hworkers
      · simp [step, replies]
      · simp [step, writes, hwriting]
      · simp [step, closes, hwriting]
      · rintro x ⟨⟩
      · intro _ hmem
        cases List.mem_singleton.mp hmem

/-- The reply to a push or pull request is queued on the connection that is found. -/
theorem Balanced.rtcMsg (h : Balanced l) : Balanced (l.step (.rtcMsg w)) := by
  rcases processRtcMsg_cases l.system w with ⟨hs, hqueued⟩ | ⟨s, addr, conn, request, hs, hqueued, hconn, hstep⟩
  · refine h.untouched hs rfl ?_ ?_ ?_
    · rw [step, replies, hqueued, List.drop_length, List.map_nil, List.append_nil]
    · simp [step, writes]
    · simp [step, closes]
  · refine h.change (some { conn with replyList := conn.replyList ++ [.offer request] }) [.offer request] [] []
      (hs.heap ▸ hconn) ?_ ?_ ?_ ?_ ?_ ?_ ?_ ?_
    · rw [← hs.heap]
      exact (congrArg System.heap hstep).trans (addReply_heap hconn _)
    · rw [step, System.step, hstep]
      exact hs.created
    · rw [step, System.step, hstep]
      exact hs.workers
    · rw [step, replies, hstep]
      simp [hqueued]
    · simp [step, writes]
    · simp [step, closes]
    · rintro x ⟨⟩
      exact ⟨rfl, rfl, rfl, rfl⟩
    · rintro ⟨⟩

/-- Only a free address and a descriptor that waits make a new connection. -/
theorem Balanced.newConn (h : Balanced l) : Balanced (l.step (.newConn w addr)) := by
  have hsame (hs' : l.system.handleNewConn w addr = l.system) : Balanced (l.step (.newConn w addr)) := by
    refine h.untouched (.refl _) hs' ?_ ?_ ?_
    · simp [step, replies]
    · simp [step, writes]
    · simp [step, closes]
  cases hworker : l.system.workers[w]? with
  | none =>
    refine hsame ?_
    rw [System.handleNewConn, hworker]
  | some worker =>
    cases hq : worker.qConn with
    | nil =>
      refine hsame ?_
      rw [System.handleNewConn, hworker]
      dsimp only
      rw [hq]
    | cons fd qConn =>
      cases hheap : l.system.heap addr with
      | some conn =>
        refine hsame ?_
        rw [System.handleNewConn, hworker]
        dsimp only
        rw [hq, hheap]
        rfl
      | none =>
        have hstep : (l.step (.newConn w addr)).system.heap =
            Function.update l.system.heap addr (some { fd, worker := w, number := l.system.created }) ∧
              (l.step (.newConn w addr)).system.created = l.system.created + 1 ∧
              (l.step (.newConn w addr)).system.workers.length = l.system.workers.length := by
          rw [step, System.step, System.handleNewConn, hworker]
          dsimp only
          rw [hq, hheap]
          exact ⟨rfl, rfl, length_setWorker _ _⟩
        obtain ⟨hnewheap, hcreated, hworkers⟩ := hstep
        obtain ⟨hw, -⟩ := List.getElem?_eq_some_iff.mp hworker
        exact h.create rfl hw rfl hnewheap hcreated hworkers (List.append_nil _) (List.append_nil _) (List.append_nil _)

theorem balanced_init (workerNum : ℕ) : Balanced (init workerNum) where
  placed := by
    rintro addr conn ⟨⟩
  apart := by
    rintro a b x y ⟨⟩
  queued := by
    rintro item ⟨⟩
  written := by
    rintro item ⟨⟩
  closed := by
    rintro item ⟨⟩
  opened := by
    rintro addr conn ⟨⟩
  delivered := by
    rintro number ⟨⟩

theorem Balanced.step (h : Balanced l) {e : System.Event} (ho : l.Orderly e) : Balanced (l.step e) := by
  have hsame {e : System.Event} (hs : Untouched l.system (l.system.step e)) (hq : replies l.system e = []) (hw : writes l.system e = [])
      (hc : closes l.system e = []) : Balanced (l.step e) := by
    refine h.untouched hs rfl ?_ ?_ ?_
    · rw [Ledger.step, hq, List.append_nil]
    · rw [Ledger.step, hw, List.append_nil]
    · rw [Ledger.step, hc, List.append_nil]
  cases e with
  | accept fd => exact hsame (untouched_dispatchNewConn l.system fd) rfl rfl rfl
  | newConn w addr => exact h.newConn
  | readable addr arrival => exact h.readable ho
  | timeout addr => exact h.timeout
  | answer i failed sdp => exact hsame (untouched_answer l.system i failed sdp) rfl rfl rfl
  | lose i => exact hsame ⟨rfl, rfl, rfl⟩ rfl rfl rfl
  | rtcMsg w => exact h.rtcMsg
  | writable addr written failed => exact h.writable

/-- A request that is not orderly closes its connection over a reply that is not written. -/
theorem Balanced.orderly_of_delivered (h : Balanced l) {e : System.Event} (hd : (l.step e).Delivered) : l.Orderly e := by
  unfold Orderly
  split
  · rename_i addr root logId notified
    intro b conn hwatched hfails
    obtain ⟨hbalance, -⟩ := h.opened b conn (heap_of_watched hwatched)
    have hclosed : (conn.number, Cause.request) ∈ (l.step (.readable addr (.request root logId notified))).closed := by
      simp [Ledger.step, closes, hwatched, hfails]
    have heq := hd conn.number hclosed
    rw [Ledger.step] at heq
    simp only [replies, writes, hwatched, hfails, if_true, List.append_nil] at heq
    rw [on_append, hbalance, List.append_assoc, List.append_right_eq_self, List.append_eq_nil_iff] at heq
    obtain ⟨hempty, hnone⟩ := heq
    refine ⟨fun hyes => ?_, hempty⟩
    rw [if_pos hyes] at hnone
    simp [on] at hnone
  · trivial

end Steps

/-- The connections that are closed after a request have their replies written in exactly the
runs where a failing request has no answer of its own and finds none that is pending. -/
theorem allAfter_delivered_iff (workerNum : ℕ) (es : List System.Event) :
    Runs.AllAfter step Delivered (init workerNum) es ↔ Runs.Along step Orderly (init workerNum) es := by
  have hstep : ∀ l e, Balanced l → Orderly l e → Balanced (step l e) := fun _ _ h ho => h.step ho
  have hiff : ∀ l e, Balanced l → (Delivered (step l e) ↔ Orderly l e) :=
    fun _ _ h => ⟨h.orderly_of_delivered, fun ho => (h.step ho).delivered⟩
  exact Runs.along_iff hstep hiff (balanced_init workerNum) es

/-- A request with an unknown command, on the connection at address 8 with descriptor 5. -/
def unknownCommand : List System.Event :=
  let root : Server.Root := ⟨some 7, none, none, none, none, none, none⟩
  [.accept 5, .newConn 0 8, .readable 8 (.request root 1 true)]

theorem unknownCommand_not_delivered : ¬ Runs.AllAfter step Delivered (init 1) unknownCommand := by
  rintro ⟨-, -, hdelivered, -⟩
  have hqueued : on 0 (Runs.run step (init 1) unknownCommand).queued = [.result (-1)] := rfl
  have hwritten : on 0 (Runs.run step (init 1) unknownCommand).written = [] := rfl
  have hclosed : (0, Cause.request) ∈ (Runs.run step (init 1) unknownCommand).closed := List.mem_singleton.mpr rfl
  have heq : on 0 (Runs.run step (init 1) unknownCommand).queued = on 0 (Runs.run step (init 1) unknownCommand).written :=
    hdelivered 0 hclosed
  rw [hqueued, hwritten] at heq
  cases heq

end Ledger

end Signaling
end XrtcServer
