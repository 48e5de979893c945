import XrtcServer.Relays
import XrtcServer.ReplyRouting
import Mathlib.Data.Fintype.Sum
import Mathlib.Data.Int.CardIntervalMod
import Mathlib.Tactic.DeriveFintype

/-! The threads that a new connection goes through: it waits at the listening socket, the server accepts
it and gives it to the next signaling worker, and that worker puts it into its table. -/
namespace XrtcServer
namespace Signaling
open Relays

/-- The items for which it is the turn of `w`, if the first has the number `k`. -/
def inTurn {α : Type*} (n w : ℕ) : ℕ → List α → List α
  | _, [] => []
  | k, x :: xs => if k % n = w then x :: inTurn n w (k + 1) xs else inTurn n w (k + 1) xs

section Turns
variable {α : Type*} {n w : ℕ}

theorem length_inTurn_add (hw : w < n) (k : ℕ) (xs : List α) :
    (inTurn n w k xs).length + Nat.count (· ≡ w [MOD n]) k = Nat.count (· ≡ w [MOD n]) (k + xs.length) := by
  induction xs generalizing k with
  | nil => simp [inTurn]
  | cons x xs ih =>
    have hrest := ih (k + 1)
    have hturn : k ≡ w [MOD n] ↔ k % n = w := by rw [Nat.ModEq, Nat.mod_eq_of_lt hw]
    rw [Nat.count_succ, Nat.add_right_comm, Nat.add_assoc] at hrest
    rw [inTurn, List.length_cons, ← hrest]
    split_ifs with h hmod hmod
    · rw [List.length_cons]
      omega
    · exact absurd (hturn.mpr h) hmod
    · exact absurd (hturn.mp hmod) h
    · omega

/-- The shares of two of them differ by one at most. -/
theorem length_inTurn (hw : w < n) (xs : List α) :
    (inTurn n w 0 xs).length = xs.length / n + if w < xs.length % n then 1 else 0 := by
  have hcount := length_inTurn_add hw 0 xs
  rw [Nat.count_zero, Nat.add_zero, Nat.zero_add, Nat.count_modEq_card _ (Nat.zero_lt_of_lt hw), Nat.mod_eq_of_lt hw] at hcount
  exact hcount

theorem next_mod (hn : 0 < n) (k : ℕ) : (if k % n + 1 ≥ n then 0 else k % n + 1) = (k + 1) % n := by
  have hlt := Nat.mod_lt k hn
  rw [← Nat.mod_add_mod k n 1]
  split_ifs with hlast
  · have heq : k % n + 1 = n := Nat.le_antisymm hlt hlast
    rw [heq, Nat.mod_self]
  · exact (Nat.mod_eq_of_lt (Nat.lt_of_not_le hlast)).symm

end Turns

namespace Dispatch

inductive Thread (workerNum : ℕ)
  | socket
  | server
  | worker (w : Fin workerNum)
  deriving DecidableEq, Fintype

/-- A connection has a descriptor once it is accepted. No code reads the number. -/
structure Conn where
  number : ℕ
  fd : ℤ := -1

/-- What a thread meets while it takes a connection: the result of `accept`, or the address of the new
connection object. -/
structure Meets where
  cfd : ℤ
  addr : ℕ

instance : Nonempty Meets := ⟨⟨-1, 0⟩⟩

/-- The server has the index, a worker the table. -/
structure Work where
  nextWorkerIndex : ℕ := 0
  worker : SignalingWorker := {}

/-- What becomes of the table of a worker. -/
inductive TableEvent
  | newConn (fd : ℤ) (addr : ℕ)
  | close (fd : ℕ)

end Dispatch

namespace SignalingWorker
open Dispatch

/-- `_handle_new_conn`, as far as the table goes. -/
def handleNewConn (worker : SignalingWorker) (fd : ℤ) (addr : ℕ) : SignalingWorker :=
  if fd < 0 then worker else { worker with conns := (System.grown worker fd.toNat).set fd.toNat (some addr) }

def tableStep (worker : SignalingWorker) : TableEvent → SignalingWorker
  | .newConn fd addr => worker.handleNewConn fd addr
  | .close fd => { worker with conns := worker.conns.set fd none }

end SignalingWorker

namespace Dispatch
variable {workerNum : ℕ}

/-- The next index, and the worker at the index. With no workers `at` throws. -/
def dispatchNewConn (workerNum index : ℕ) : ℕ × Option (Fin workerNum) :=
  (if index + 1 ≥ workerNum then 0 else index + 1, if h : index < workerNum then some ⟨index, h⟩ else none)

/-- A worker passes nothing on. -/
def serve (thread : Thread workerNum) (meets : Meets) (work : Work) (conn : Conn) :
    Work × Option (Thread workerNum × Conn) :=
  match thread with
  | .socket => (work, none)
  | .server =>
    if meets.cfd = -1 then (work, none)
    else
      let result := dispatchNewConn workerNum work.nextWorkerIndex
      ({ work with nextWorkerIndex := result.1 }, result.2.map fun w => (.worker w, { conn with fd := meets.cfd }))
  | .worker _ => ({ work with worker := work.worker.handleNewConn conn.fd meets.addr }, none)

/-- A worker closes a connection. -/
def act (thread : Thread workerNum) (fd : ℕ) (work : Work) : Work :=
  match thread with
  | .worker _ => { work with worker := work.worker.tableStep (.close fd) }
  | _ => work

def network (workerNum : ℕ) : Network (Thread workerNum) Conn Meets Work ℕ where
  entry := .server
  serve := serve
  act := act

abbrev State (workerNum : ℕ) : Type := Relays.State (Thread workerNum) Conn Meets Work ℕ

/-- A client connects, a worker closes a connection and deletes its object, and the steps of the threads. -/
inductive Event (workerNum : ℕ)
  | connect (number : ℕ)
  | close (w : Fin workerNum) (fd addr : ℕ)
  | take (thread : Thread workerNum) (meets : Meets)
  | produce (thread : Thread workerNum)
  | notify (thread : Thread workerNum)

def Event.relayed : Event workerNum → Relays.Event (Thread workerNum) Conn Meets ℕ
  | .connect number => .begin .socket { number }
  | .close w fd _ => .act (.worker w) fd
  | .take thread meets => .take thread meets
  | .produce thread => .put thread
  | .notify thread => .announce thread

def step (s : State workerNum) (e : Event workerNum) : State workerNum := Relays.step (network workerNum) s e.relayed

/-- The threads after `start`. -/
def start (workerNum : ℕ) : State workerNum := Relays.start Meets ℕ fun _ => {}

/-- Connections go from the socket to the server, and from it to the workers. -/
def rank : Thread workerNum → ℕ
  | .server => 1
  | _ => 0

/-- What the server hands out of its tasks: the connections that it took with a descriptor. -/
def handedOut : Task Conn Meets ℕ → Option Conn
  | .served meets conn => if meets.cfd = -1 then none else some { conn with fd := meets.cfd }
  | _ => none

section Record
variable (s : State workerNum)

/-- The connections in the order in which they came to the listening socket. -/
def arrived : List Conn := (s.entered .server).map Prod.snd

/-- The connections that the server accepted, with their descriptors. -/
def accepted : List Conn := (s.history .server).filterMap handedOut

/-- What the table of a worker goes through by a task. -/
def tableEvent : Task Conn Meets ℕ → Option TableEvent
  | .begun _ => none
  | .served meets conn => some (.newConn conn.fd meets.addr)
  | .acted fd => some (.close fd)

end Record

/-- How connections get on: they are accepted in the order in which they came, and each worker takes every
`workerNum`-th of them in that order, with a table that these and its own closing make up. Once no thread
has anything left to do none is missing, no worker has more than its share, and the threads come to that
in a bounded number of steps, in whatever order. -/
structure Dispatched (s : State workerNum) : Prop where
  taken : Task.messages (s.history .server) <+: arrived s
  handled : ∀ w : Fin workerNum, Task.messages (s.history (.worker w)) <+: inTurn workerNum w 0 (accepted s)
  tables : ∀ w, (s.work (.worker w)).worker =
    Runs.run SignalingWorker.tableStep {} ((s.history (.worker w)).filterMap tableEvent)
  settled : Quiet s → Task.messages (s.history .server) = arrived s ∧
    ∀ w : Fin workerNum, Task.messages (s.history (.worker w)) = inTurn workerNum w 0 (accepted s) ∧
      (Task.messages (s.history (.worker w))).length =
        (accepted s).length / workerNum + if w.1 < (accepted s).length % workerNum then 1 else 0
  quiet : (∀ e, ¬Enabled s e) → Quiet s
  bounded : ∀ es, Runs.Along (Relays.step (network workerNum)) Enabled s es → es.length ≤ potential rank s

section Ways
variable {thread : Thread workerNum} {p : Thread workerNum × Conn}

theorem serve_failed {meets : Meets} (hfailed : meets.cfd = -1) (work : Work) (conn : Conn) :
    serve (.server : Thread workerNum) meets work conn = (work, none) := by rw [serve, if_pos hfailed]

theorem serve_accepted {meets : Meets} (hcfd : meets.cfd ≠ -1) {work : Work} {v : Fin workerNum}
    (hv : work.nextWorkerIndex = v.1) (conn : Conn) : serve .server meets work conn =
      ({ work with nextWorkerIndex := if v.1 + 1 ≥ workerNum then 0 else v.1 + 1 },
        some (.worker v, { conn with fd := meets.cfd })) := by
  rw [serve, if_neg hcfd, dispatchNewConn, hv, dif_pos v.2]
  rfl

/-- Where a connection goes: to the server, or from it to a worker. -/
theorem sent_cases {work : Work} {task : Task Conn Meets ℕ} (hp : p ∈ sent (network workerNum) thread work task) :
    p.1 = .server ∨ thread = .server := by
  cases task with
  | begun conn =>
    obtain rfl := List.mem_singleton.mp hp
    exact .inl rfl
  | acted fd => cases hp
  | served meets conn =>
    have hserve : (serve thread meets work conn).2 = some p := Option.mem_toList.mp hp
    cases thread with
    | socket => cases hserve
    | server => exact .inr rfl
    | worker w => cases hserve

/-- Only the server sends connections to a worker. -/
theorem feeds_worker (w : Fin workerNum) : (network workerNum).Feeds .server (.worker w) := by
  intro i work task p hsent hp
  rcases sent_cases hsent with hserver | hserver
  · rw [hserver] at hp
    cases hp
  · exact hserver

theorem descends : (network workerNum).Descends rank := by
  intro i meets work conn j conn' hserve
  cases i with
  | socket => cases hserve
  | server =>
    change (serve Thread.server meets work conn).2 = some (j, conn') at hserve
    rw [serve] at hserve
    split at hserve
    · cases hserve
    · obtain ⟨w, -, hw⟩ := Option.map_eq_some_iff.mp hserve
      cases hw
      exact Nat.zero_lt_one
  | worker w => cases hserve

/-- The server hands out what it accepts to one worker after the other. -/
theorem only_outbox_server (w : Fin workerNum) {work : Work} {k : ℕ} (hwork : work.nextWorkerIndex = k % workerNum)
    (tasks : List (Task Conn Meets ℕ)) :
    only (.worker w) (outbox (network workerNum) .server work tasks) = inTurn workerNum w k (tasks.filterMap handedOut) := by
  have hpos : 0 < workerNum := Fin.pos w
  induction tasks generalizing work k with
  | nil => rfl
  | cons task tasks ih =>
    rw [outbox, only_append, List.filterMap_cons]
    cases task with
    | begun conn => exact ih hwork
    | acted fd => exact ih hwork
    | served meets conn =>
      by_cases hfailed : meets.cfd = -1
      · have hsame : serve (.server : Thread workerNum) meets work conn = (work, none) := serve_failed hfailed work conn
        have hsent : sent (network workerNum) .server work (.served meets conn) = [] :=
          congrArg (fun result => result.2.toList) hsame
        have hperform : perform (network workerNum) .server work (.served meets conn) = work := congrArg Prod.fst hsame
        rw [hsent, hperform, handedOut, if_pos hfailed, ih hwork]
        rfl
      · have hserve := serve_accepted hfailed (v := ⟨k % workerNum, Nat.mod_lt k hpos⟩) hwork conn
        have hsent : sent (network workerNum) .server work (.served meets conn) =
            [(.worker ⟨k % workerNum, Nat.mod_lt k hpos⟩, { conn with fd := meets.cfd })] :=
          congrArg (fun result => result.2.toList) hserve
        have hindex : (perform (network workerNum) .server work (.served meets conn)).nextWorkerIndex = (k + 1) % workerNum :=
          (congrArg (fun result => result.1.nextWorkerIndex) hserve).trans (next_mod hpos k)
        have hturn : (Thread.worker ⟨k % workerNum, Nat.mod_lt k hpos⟩ = Thread.worker w) ↔ k % workerNum = w := by
          rw [Thread.worker.injEq, Fin.ext_iff]
        rw [hsent, handedOut, if_neg hfailed, only_singleton, inTurn, ih hindex]
        by_cases h : k % workerNum = w
        · rw [if_pos (hturn.mpr h), if_pos h]
          rfl
        · rw [if_neg fun hw => h (hturn.mp hw), if_neg h]
          rfl

end Ways

section Progress
variable {s : State workerNum} {r : List Conn → List Conn → Prop}

theorem handled (hr : Carries (network workerNum) (fun _ => {}) s r) (h : Sound (network workerNum) (fun _ => {}) s)
    (w : Fin workerNum) : r (Task.messages (s.history (.worker w))) (inTurn workerNum w 0 (accepted s)) := by
  have hserver := hr.fed h.toLinked (feeds_worker w)
  rw [only_outbox_server w (Nat.zero_mod workerNum).symm] at hserver
  exact hserver

/-- The table of a worker goes through what its connections and its own closing make of it. -/
theorem work_worker (work : Work) (tasks : List (Task Conn Meets ℕ)) (w : Fin workerNum) :
    (tasks.foldl (perform (network workerNum) (.worker w)) work).worker =
      Runs.run SignalingWorker.tableStep work.worker (tasks.filterMap tableEvent) := by
  induction tasks generalizing work with
  | nil => rfl
  | cons task tasks ih =>
    rw [List.foldl_cons, ih, List.filterMap_cons]
    cases task with
    | begun conn => rfl
    | served meets conn => rfl
    | acted fd => rfl

end Progress

theorem run_relayed (s : State workerNum) (es : List (Event workerNum)) :
    Runs.run step s es = Runs.run (Relays.step (network workerNum)) s (es.map Event.relayed) := by
  rw [Runs.run, Runs.run, List.foldl_map]
  rfl

/-- However the clients, the server and the workers come between each other. -/
theorem connections_dispatched (es : List (Event workerNum)) : Dispatched (Runs.run step (start workerNum) es) := by
  have h := @sound_run _ _ _ _ _ _ (network workerNum) (fun _ => {}) _ (es.map Event.relayed)
  rw [run_relayed, start]
  generalize Runs.run (Relays.step (network workerNum)) _ _ = s at h
  have hbegun := h.carries_begun
  exact {
    taken := hbegun.taken .server
    handled := handled hbegun h
    tables := fun w => (congrArg Work.worker (h.work (.worker w))).trans (work_worker _ _ w)
    settled := fun hquiet =>
      have heq := h.carries_eq hquiet
      ⟨heq.taken .server, fun w => ⟨handled heq h w, (congrArg List.length (handled heq h w)).trans (length_inTurn w.2 _)⟩⟩
    quiet := quiet_iff.mpr
    bounded := fun es hes => Nat.le_of_add_right_le (h.length_le descends hes) }

/-! The same connections in the system whose server puts a connection into the queue as it accepts it. -/

/-- The connections that are queued for a worker or about to be. -/
def waiting (s : State workerNum) (w : Fin workerNum) : List Conn :=
  s.queue (.worker w) ++ (s.hand .server).heldFor (.worker w)

/-- A thread is not busy and has a notification. -/
def ready (s : State workerNum) (thread : Thread workerNum) : Bool :=
  match s.hand thread, s.pipe thread with
  | .idle, _ + 1 => true
  | _, _ => false

/-- What the system does as a thread takes a step, if anything. -/
def atomic (s : State workerNum) : Event workerNum → List System.Event
  | .take .server meets => if ready s .server && meets.cfd ≠ -1 then [.accept meets.cfd.toNat] else []
  | .take (.worker w) meets => if ready s (.worker w) then [.newConn w meets.addr] else []
  | .close w _ addr =>
    match s.hand (.worker w) with
    | .idle => [.timeout addr]
    | _ => []
  | _ => []

/-- The threads, and the system beside them. -/
def pairStep (p : State workerNum × System) (e : Event workerNum) : State workerNum × System :=
  (step p.1 e, Runs.run System.step p.2 (atomic p.1 e))

/-- The system gives out descriptors that are not open, the allocator addresses that are not in use, and a
connection that is closed is there. -/
def Given (p : State workerNum × System) : Event workerNum → Prop
  | .take .server meets => meets.cfd = -1 ∨ (0 ≤ meets.cfd ∧ meets.cfd.toNat ∉ p.2.openFds)
  | .take (.worker _) meets => p.2.heap meets.addr = none
  | .close w fd addr => ∃ conn ∈ p.2.heap addr, conn.worker = w ∧ conn.fd = fd
  | _ => True

/-- The workers have the same tables, and the same connections wait for them. -/
structure Matches (s : State workerNum) (t : System) : Prop where
  length : t.workers.length = workerNum
  workers : ∀ w : Fin workerNum, t.workers[w.1]? =
    some { (s.work (.worker w)).worker with qConn := (waiting s w).map fun conn => conn.fd.toNat }
  index : t.nextWorkerIndex = (s.work .server).nextWorkerIndex
  inside : (s.work .server).nextWorkerIndex = 0 ∨ (s.work .server).nextWorkerIndex < workerNum
  fds : ∀ w, ∀ conn ∈ waiting s w, 0 ≤ conn.fd

/-- What the system does in a run of the threads. -/
def atomics : State workerNum → List (Event workerNum) → List System.Event
  | _, [] => []
  | s, e :: es => atomic s e ++ atomics (step s e) es

section Refinement
variable {s s' : State workerNum} {t : System}

theorem ready_iff {thread : Thread workerNum} : ready s thread = true ↔ s.hand thread = .idle ∧ 0 < s.pipe thread := by
  rw [ready]
  split
  · next hidle hpipe => simp [hidle, hpipe]
  · next hno =>
    refine ⟨fun h => Bool.noConfusion h, ?_⟩
    rintro ⟨hidle, hpos⟩
    obtain ⟨pipe, hpipe⟩ := Nat.exists_eq_succ_of_ne_zero (Nat.pos_iff_ne_zero.mp hpos)
    exact (hno pipe hidle hpipe).elim

theorem Matches.same (h : Matches s t) (hwaiting : ∀ w, waiting s' w = waiting s w) (hwork : s'.work = s.work) :
    Matches s' t where
  length := h.length
  workers := by
    intro w
    rw [hwaiting, hwork]
    exact h.workers w
  index := by rw [hwork, h.index]
  inside := by
    rw [hwork]
    exact h.inside
  fds := by
    intro w
    rw [hwaiting]
    exact h.fds w

theorem waiting_does {thread : Thread workerNum} (hne : thread ≠ .server) (task : Task Conn Meets ℕ) (w : Fin workerNum) :
    waiting (s.does (network workerNum) thread task) w = waiting s w := by
  rw [waiting, waiting, State.does]
  dsimp only
  rw [Function.update_of_ne (Ne.symm hne)]

theorem waiting_put (h : Sound (network workerNum) (fun _ => {}) s) (thread : Thread workerNum) (w : Fin workerNum) :
    waiting (put s thread) w = waiting s w := by
  cases hhand : s.hand thread with
  | idle => rw [put, hhand]
  | announcing j => rw [put, hhand]
  | holding j conn =>
    rw [put, hhand, waiting, waiting]
    dsimp only
    by_cases hthread : thread = .server
    · subst hthread
      rw [hhand, Function.update_self, heldFor_announcing, heldFor_holding, List.append_nil]
      by_cases hj : j = .worker w
      · rw [hj, Function.update_self, if_pos rfl]
      · rw [Function.update_of_ne (Ne.symm hj), if_neg hj, List.append_nil]
    · have hheld := h.heldFor_eq_nil (feeds_worker w) hthread
      have hj : j ≠ .worker w := by
        rintro rfl
        rw [hhand, heldFor_holding, if_pos rfl] at hheld
        cases hheld
      rw [Function.update_of_ne (Ne.symm hthread), Function.update_of_ne (Ne.symm hj)]

theorem waiting_announce (thread : Thread workerNum) (w : Fin workerNum) :
    waiting (announce s thread) w = waiting s w := by
  cases hhand : s.hand thread with
  | idle => rw [announce, hhand]
  | holding j conn => rw [announce, hhand]
  | announcing j =>
    rw [announce, hhand, waiting, waiting]
    dsimp only
    by_cases hthread : thread = .server
    · subst hthread
      rw [hhand, Function.update_self, heldFor_announcing, heldFor_idle]
    · rw [Function.update_of_ne (Ne.symm hthread)]

theorem work_put (thread : Thread workerNum) : (put s thread).work = s.work := by
  rw [put]
  split <;> rfl

theorem work_announce (thread : Thread workerNum) : (announce s thread).work = s.work := by
  rw [announce]
  split <;> rfl

theorem waiting_server (hidle : s.hand .server = .idle) (task : Task Conn Meets ℕ) (w : Fin workerNum) :
    waiting (s.does (network workerNum) .server task) w =
      waiting s w ++ only (.worker w) (sent (network workerNum) .server (s.work .server) task) := by
  rw [waiting, waiting, State.does, hidle]
  dsimp only
  rw [Function.update_self, heldFor_ofSent, toList_head_sent, heldFor_idle, List.append_nil]

theorem work_does_worker (thread : Thread workerNum) (w : Fin workerNum) (task : Task Conn Meets ℕ)
    (hne : thread ≠ .worker w) : (s.does (network workerNum) thread task).work (.worker w) = s.work (.worker w) :=
  Function.update_of_ne (Ne.symm hne) _ _

theorem work_does (thread : Thread workerNum) (task : Task Conn Meets ℕ) :
    (s.does (network workerNum) thread task).work thread = perform (network workerNum) thread (s.work thread) task :=
  Function.update_self _ _ _

theorem system_dispatchNewConn {v fd : ℕ} {worker : SignalingWorker} (hnext : t.nextWorkerIndex = v)
    (hworker : t.workers[v]? = some worker) (hopen : fd ∉ t.openFds) : t.dispatchNewConn fd =
      { t.setWorker v { worker with qConn := worker.qConn ++ [fd] } with
        openFds := fd :: t.openFds
        nextWorkerIndex := if v + 1 ≥ t.workers.length then 0 else v + 1 } := by
  simp only [System.dispatchNewConn, hnext, hworker, if_neg hopen]

/-- The system queues the connection at once, the server holds it first. -/
theorem Matches.accept (h : Matches s t) (hidle : s.hand .server = .idle) {meets : Meets} (hcfd : 0 ≤ meets.cfd)
    (hopen : meets.cfd.toNat ∉ t.openFds) (conn : Conn) :
    Matches (s.does (network workerNum) .server (.served meets conn)) (t.dispatchNewConn meets.cfd.toNat) := by
  have hne : meets.cfd ≠ -1 := by omega
  by_cases hlt : (s.work .server).nextWorkerIndex < workerNum
  · obtain ⟨v, hv⟩ : ∃ v : Fin workerNum, (s.work .server).nextWorkerIndex = v.1 := ⟨⟨_, hlt⟩, rfl⟩
    have hserve := serve_accepted hne hv conn
    have hsent : sent (network workerNum) .server (s.work .server) (.served meets conn) =
        [(.worker v, { conn with fd := meets.cfd })] := congrArg (fun result => result.2.toList) hserve
    have hindex : ((s.does (network workerNum) .server (.served meets conn)).work .server).nextWorkerIndex =
        if v.1 + 1 ≥ workerNum then 0 else v.1 + 1 := by
      rw [work_does]
      exact congrArg (fun result => result.1.nextWorkerIndex) hserve
    have hsystem := system_dispatchNewConn (h.index.trans hv) (h.workers v) hopen
    refine { length := ?_, workers := fun w => ?_, index := ?_, inside := ?_, fds := fun w => ?_ }
    · rw [hsystem]
      exact List.length_set.trans h.length
    · rw [hsystem, System.setWorker, work_does_worker .server w _ (by simp), waiting_server hidle, hsent, only_singleton]
      dsimp only
      by_cases hw : v = w
      · subst hw
        rw [if_pos rfl, List.map_append]
        exact List.getElem?_set_self (h.length ▸ v.2)
      · have hthread : Thread.worker v ≠ Thread.worker w := fun heq => hw (Thread.worker.inj heq)
        rw [if_neg hthread, List.append_nil, List.getElem?_set_ne fun heq => hw (Fin.ext heq)]
        exact h.workers w
    · rw [hsystem, hindex, h.length]
    · rw [hindex]
      split_ifs with hlast
      · exact .inl rfl
      · exact .inr (Nat.lt_of_not_le hlast)
    · rw [waiting_server hidle, hsent, only_singleton]
      intro conn' hconn'
      rcases List.mem_append.mp hconn' with hold | hnew
      · exact h.fds w conn' hold
      · split_ifs at hnew
        · obtain rfl := List.mem_singleton.mp hnew
          exact hcfd
        · cases hnew
  · obtain ⟨hzero, rfl⟩ : (s.work .server).nextWorkerIndex = 0 ∧ workerNum = 0 := by
      have hinside := h.inside
      omega
    have hnone : t.workers[t.nextWorkerIndex]? = none := List.getElem?_eq_none (h.length.trans_le (Nat.zero_le _))
    have hsame : t.dispatchNewConn meets.cfd.toNat = t := by rw [System.dispatchNewConn, hnone]
    have hindex : ((s.does (network 0) .server (.served meets conn)).work .server).nextWorkerIndex = 0 := by
      have hserve : (serve (.server : Thread 0) meets (s.work .server) conn).1.nextWorkerIndex = 0 := by
        rw [serve, if_neg hne, dispatchNewConn]
        dsimp only
        rw [if_pos (Nat.zero_le _)]
      rw [work_does]
      exact hserve
    rw [hsame]
    exact {
      length := h.length
      workers := fun w => w.elim0
      index := by rw [hindex, h.index, hzero]
      inside := .inl hindex
      fds := fun w => w.elim0 }

/-- A worker takes the connection that is the first in its queue. -/
theorem Matches.newConn (h : Matches s t) {w : Fin workerNum} {conn : Conn} {queue : List Conn} {pipe : Thread workerNum → ℕ}
    (hqueue : s.queue (.worker w) = conn :: queue) {meets : Meets} (hfree : t.heap meets.addr = none) :
    Matches ({ s with pipe, queue := Function.update s.queue (.worker w) queue }.does (network workerNum) (.worker w)
      (.served meets conn)) (t.handleNewConn w meets.addr) := by
  have hwaiting : waiting s w = conn :: (queue ++ (s.hand .server).heldFor (.worker w)) := by
    rw [waiting, hqueue, List.cons_append]
  have hfd : 0 ≤ conn.fd := h.fds w conn (by rw [hwaiting]; exact List.mem_cons_self)
  have hworker := h.workers w
  rw [hwaiting, List.map_cons] at hworker
  have hsystem := System.handleNewConn_eq hworker rfl hfree
  have hlt : w.1 < t.workers.length := h.length ▸ w.2
  refine { length := ?_, workers := fun v => ?_, index := ?_, inside := h.inside, fds := fun v => ?_ }
  · rw [hsystem]
    exact List.length_set.trans h.length
  · rw [hsystem, waiting_does (by simp)]
    by_cases hv : v = w
    · subst hv
      have hwork := @work_does _ { s with pipe, queue := Function.update s.queue (.worker v) queue } (.worker v)
        (.served meets conn)
      have hserve : perform (network workerNum) (.worker v) (s.work (.worker v)) (.served meets conn) =
          { s.work (.worker v) with worker := (s.work (.worker v)).worker.handleNewConn conn.fd meets.addr } := rfl
      rw [hwork, hserve, SignalingWorker.handleNewConn, if_neg (Int.not_lt.mpr hfd), waiting]
      dsimp only
      rw [Function.update_self]
      exact List.getElem?_set_self hlt
    · have hthread : Thread.worker v ≠ Thread.worker w := fun heq => hv (Thread.worker.inj heq)
      have hval : w.1 ≠ v.1 := fun heq => hv (Fin.ext heq.symm)
      rw [work_does_worker (.worker w) v _ (Ne.symm hthread), waiting]
      dsimp only
      rw [Function.update_of_ne hthread]
      exact (List.getElem?_set_ne hval).trans (h.workers v)
  · rw [hsystem]
    exact h.index
  · rw [waiting_does (by simp)]
    intro conn' hconn'
    by_cases hv : v = w
    · subst hv
      rw [waiting] at hconn'
      dsimp only at hconn'
      rw [Function.update_self] at hconn'
      exact h.fds v conn' (by rw [hwaiting]; exact List.mem_cons_of_mem conn hconn')
    · rw [waiting] at hconn'
      dsimp only at hconn'
      rw [Function.update_of_ne fun heq => hv (Thread.worker.inj heq)] at hconn'
      exact h.fds v conn' hconn'

theorem Matches.close (h : Matches s t) {w : Fin workerNum} {fd addr : ℕ} {conn : TcpConnection}
    (hconn : t.heap addr = some conn) (hw : conn.worker = w.1) (hfd : conn.fd = fd) :
    Matches (s.does (network workerNum) (.worker w) (.acted fd)) (t.processTimeout addr) := by
  subst hfd
  have hclose : t.processTimeout addr = t.closeConnection addr := by
    rw [System.processTimeout, hconn]
    rfl
  have hworker := h.workers w
  have hworkers : (t.processTimeout addr).workers = t.workers.set w.1
      { (s.work (.worker w)).worker with
        qConn := (waiting s w).map fun conn => conn.fd.toNat
        conns := (s.work (.worker w)).worker.conns.set conn.fd none } := by
    rw [hclose]
    simp only [System.closeConnection, hconn, hw, hworker]
    rfl
  have hindex : (t.processTimeout addr).nextWorkerIndex = t.nextWorkerIndex := by
    rw [hclose]
    simp only [System.closeConnection, hconn, hw, hworker]
    rfl
  refine { length := ?_, workers := fun v => ?_, index := hindex.trans h.index, inside := h.inside, fds := fun v => ?_ }
  · rw [hworkers, List.length_set, h.length]
  · rw [hworkers, waiting_does (by simp)]
    by_cases hv : v = w
    · subst hv
      rw [work_does]
      exact List.getElem?_set_self (h.length ▸ v.2)
    · rw [work_does_worker (.worker w) v _ fun heq => hv (Thread.worker.inj heq).symm,
        List.getElem?_set_ne fun heq => hv (Fin.ext heq.symm)]
      exact h.workers v
  · rw [waiting_does (by simp)]
    exact h.fds v

/-- A task that leaves the work of its thread, and for which nothing is sent to a worker. -/
theorem Matches.unchanged (h : Matches s t) {thread : Thread workerNum} {task : Task Conn Meets ℕ}
    (hwaiting : ∀ w, waiting (s.does (network workerNum) thread task) w = waiting s w)
    (hperform : perform (network workerNum) thread (s.work thread) task = s.work thread) :
    Matches (s.does (network workerNum) thread task) t := by
  refine h.same hwaiting ?_
  rw [State.does, hperform]
  exact Function.update_eq_self thread s.work

/-- What another thread has to take does not count. -/
theorem Matches.popped (h : Matches s t) {thread : Thread workerNum} (hne : ∀ w, thread ≠ .worker w)
    (pipe : Thread workerNum → ℕ) (queue : List Conn) :
    Matches { s with pipe, queue := Function.update s.queue thread queue } t := by
  refine h.same (fun w => ?_) rfl
  rw [waiting, waiting]
  dsimp only
  rw [Function.update_of_ne (Ne.symm (hne w))]

theorem Matches.take (h : Matches s t) (hs : Sound (network workerNum) (fun _ => {}) s) {thread : Thread workerNum}
    {meets : Meets} (hgiven : Given (s, t) (.take thread meets)) :
    Matches (Relays.take (network workerNum) s thread meets) (Runs.run System.step t (atomic s (.take thread meets))) := by
  rcases hs.take_cases thread meets with ⟨hsame, hnot⟩ | ⟨pipe, conn, queue, hidle, hpipe, hqueue, htake⟩
  · have hready : ready s thread = false := Bool.eq_false_iff.mpr fun hready => hnot (ready_iff.mp hready)
    rw [hsame]
    cases thread <;> simpa [atomic, hready] using h
  · have hready : ready s thread = true := ready_iff.mpr ⟨hidle, hpipe ▸ Nat.succ_pos pipe⟩
    rw [htake]
    cases thread with
    | socket => exact (h.popped (by simp) _ _).unchanged (waiting_does (by simp) _) rfl
    | server =>
      have hpopped := @Matches.popped _ s t h .server (by simp) (Function.update s.pipe .server pipe) queue
      rcases hgiven with hfailed | ⟨hcfd, hopen⟩
      · have hserve : serve (.server : Thread workerNum) meets (s.work .server) conn = _ := serve_failed hfailed _ conn
        have hnone : atomic s (.take .server meets) = [] := by simp [atomic, hfailed]
        rw [hnone]
        refine hpopped.unchanged (fun w => ?_) (congrArg Prod.fst hserve)
        have hsent : sent (network workerNum) .server (s.work .server) (.served meets conn) = [] :=
          congrArg (fun result => result.2.toList) hserve
        exact (waiting_server hidle _ w).trans (by rw [hsent]; exact List.append_nil _)
      · have hne : meets.cfd ≠ -1 := by omega
        have hone : atomic s (.take .server meets) = [.accept meets.cfd.toNat] := by simp [atomic, hready, hne]
        rw [hone]
        exact hpopped.accept hidle hcfd hopen conn
    | worker w =>
      have hone : atomic s (.take (.worker w) meets) = [.newConn w meets.addr] := by simp [atomic, hready]
      rw [hone]
      exact h.newConn hqueue hgiven

theorem Matches.step (h : Matches s t) (hs : Sound (network workerNum) (fun _ => {}) s) {e : Event workerNum}
    (hgiven : Given (s, t) e) : Matches (Dispatch.step s e) (Runs.run System.step t (atomic s e)) := by
  cases e with
  | connect number =>
    rw [Dispatch.step, Event.relayed, Relays.step]
    split
    · exact h.unchanged (waiting_does (by simp) _) rfl
    · exact h
  | close w fd addr =>
    obtain ⟨conn, hconn, hw, hfd⟩ := hgiven
    rw [Dispatch.step, Event.relayed, Relays.step, atomic]
    split
    · next hidle =>
      rw [hidle]
      exact h.close hconn hw hfd
    · next hbusy =>
      split
      · next hidle => exact (hbusy hidle).elim
      · exact h
  | take thread meets => exact h.take hs hgiven
  | produce thread => exact h.same (waiting_put hs thread) (work_put thread)
  | notify thread => exact h.same (waiting_announce thread) (work_announce thread)

theorem matches_start : Matches (start workerNum) (System.init workerNum) where
  length := List.length_replicate
  workers := fun w => List.getElem?_replicate_of_lt w.2
  index := rfl
  inside := .inl rfl
  fds := fun _ _ hconn => (List.not_mem_nil hconn).elim

/-- However the threads come between each other, the system does the same without them. -/
theorem dispatch_refines (es : List (Event workerNum))
    (hgiven : Runs.Along pairStep Given (start workerNum, System.init workerNum) es) :
    Matches (Runs.run step (start workerNum) es)
      (Runs.run System.step (System.init workerNum) (atomics (start workerNum) es)) := by
  have h := @matches_start workerNum
  have hs : Sound (network workerNum) (fun _ => {}) (start workerNum) := sound_start
  revert h hs hgiven
  generalize start workerNum = s, System.init workerNum = t
  intro hgiven h hs
  induction es generalizing s t with
  | nil => exact h
  | cons e es ih =>
    rw [atomics, Runs.run_cons, Runs.run_append]
    exact ih _ _ hgiven.2 (h.step hs hgiven.1) (hs.step e.relayed)

/-- A connection that the first of two workers takes and closes. -/
def oneConnection : List (Event 2) :=
  [.connect 0, .produce .socket, .notify .socket, .take .server ⟨5, 0⟩, .produce .server, .notify .server,
    .take (.worker 0) ⟨-1, 7⟩, .close 0 5 7]

theorem dispatch_refines_one : Matches (Runs.run step (start 2) oneConnection)
    (Runs.run System.step (System.init 2) (atomics (start 2) oneConnection)) :=
  dispatch_refines oneConnection ⟨trivial, trivial, trivial, .inr ⟨by decide, by decide⟩, trivial, trivial, rfl,
    ⟨{ fd := 5, worker := 0, number := 0 }, rfl, rfl, rfl⟩, trivial⟩

end Refinement

end Dispatch
end Signaling
end XrtcServer
