import Mathlib.Data.List.Count
import XrtcServer.SignalingWorker

/-! Where the replies of the RTC threads go: to the connection that asked, as long as no
connection is given both the descriptor and the address of one that is still waited for. -/
namespace XrtcServer
namespace Signaling
open XrtcServer.Stream

namespace System

/-- The address that a worker has for a descriptor. -/
def lookup (s : System) (w f : ℕ) : Option ℕ := (s.workers[w]?.bind fun worker => worker.conns[f]?).join

/-- The size of the table of a worker. -/
def tableSize (s : System) (w : ℕ) : ℕ := (s.workers[w]?.map fun worker => worker.conns.length).getD 0

/-- Descriptor, worker and number of the connection at an address. -/
def key (s : System) (addr : ℕ) : Option (ℕ × ℕ × ℕ) :=
  (s.heap addr).map fun conn => (conn.fd, conn.worker, conn.number)

/-- The numbers of the requests that are under way or replied to. -/
def serials (s : System) : List ℕ :=
  s.inFlight.map Request.serial ++ s.workers.flatMap (fun worker => worker.qMsg.map Request.serial) ++
    s.queued.map (·.request.serial)

/-- The tables have live connections of theirs, and room for all. -/
structure Tabled (s : System) : Prop where
  table : ∀ {w f addr}, s.lookup w f = some addr → ∃ number, s.key addr = some (f, w, number)
  room : ∀ {addr f w number}, s.key addr = some (f, w, number) → f < s.tableSize w
  inside : s.outside = false

/-- As long as the connection at a request's address can still be found, it is the one that
sent the request. -/
def Identifies (s : System) (request : Request) : Prop :=
  ∀ w addr (fd : ℕ) k, request.msg.worker = some w → request.msg.conn = some addr → request.msg.fd = fd →
    s.lookup w fd = some addr → s.key addr = some k → k.2.2 = request.origin

structure Tracked (s : System) : Prop where
  identifies : ∀ request ∈ s.outstanding, s.Identifies request
  placed : ∀ w (worker : SignalingWorker), s.workers[w]? = some worker → ∀ request ∈ worker.qMsg,
    request.msg.worker = some w

/-- No number occurs twice, and those to come do not occur. -/
def Numbered (s : System) : Prop := ∀ n, s.serials.count n ≤ if n < s.requests then 1 else 0

/-- Every reply was queued on the connection that sent the request, and none is in the list of
another connection. -/
structure Routed (s : System) : Prop where
  origin : ∀ q ∈ s.queued, q.connection = q.request.origin
  held : ∀ addr conn, s.heap addr = some conn → ∀ request, .offer request ∈ conn.replyList → request.origin = conn.number

structure Sound (s : System) : Prop extends Tabled s, Tracked s, Routed s where
  numbered : s.Numbered

/-- No new connection gets the descriptor and the address of a connection of the same worker
with a request that is outstanding, and no descriptor is the size of the table. -/
def FreshHandle (s : System) : Event → Prop
  | .newConn w addr => ∀ (worker : SignalingWorker) fd, s.workers[w]? = some worker → worker.qConn.head? = some fd → s.heap addr = none →
      fd ≠ worker.conns.length ∧ ∀ request ∈ s.outstanding,
        ¬ (request.msg.worker = some w ∧ request.msg.conn = some addr ∧ request.msg.fd = fd)
  | .accept _ | .readable _ _ | .timeout _ | .answer _ _ _ | .lose _ | .rtcMsg _ | .writable _ _ _ => True

section Workers
variable {s : System} {w : ℕ} {worker worker' : SignalingWorker}

theorem getElem?_setWorker (h : s.workers[w]? = some worker) (v : ℕ) :
    (s.setWorker w worker').workers[v]? = if v = w then some worker' else s.workers[v]? := by
  obtain ⟨hlt, -⟩ := List.getElem?_eq_some_iff.mp h
  rw [setWorker, List.getElem?_set]
  by_cases hv : w = v
  · subst hv
    simp [hlt]
  · rw [if_neg hv, if_neg (Ne.symm hv)]

theorem lookup_setWorker (h : s.workers[w]? = some worker) (v f : ℕ) :
    (s.setWorker w worker').lookup v f = if v = w then worker'.conns[f]?.join else s.lookup v f := by
  rw [lookup, getElem?_setWorker h]
  split
  · rfl
  · rfl

theorem tableSize_setWorker (h : s.workers[w]? = some worker) (v : ℕ) :
    (s.setWorker w worker').tableSize v = if v = w then worker'.conns.length else s.tableSize v := by
  rw [tableSize, getElem?_setWorker h]
  split
  · rfl
  · rfl

theorem lookup_worker (h : s.workers[w]? = some worker) (f : ℕ) : s.lookup w f = worker.conns[f]?.join := by
  rw [lookup, h]
  rfl

theorem tableSize_worker (h : s.workers[w]? = some worker) : s.tableSize w = worker.conns.length := by
  rw [tableSize, h]
  rfl

theorem getElem?_set_join {l : List (Option ℕ)} {i : ℕ} (h : i < l.length) (x : Option ℕ) (j : ℕ) :
    (l.set i x)[j]?.join = if j = i then x else l[j]?.join := by
  rw [List.getElem?_set]
  by_cases hj : i = j
  · subst hj
    rw [if_pos rfl, if_pos h, if_pos rfl]
    rfl
  · rw [if_neg hj, if_neg (Ne.symm hj)]

/-- A worker whose table has another entry in one place. -/
theorem lookup_setConn {conns : List (Option ℕ)} {fd : ℕ} {x : Option ℕ} (h : s.workers[w]? = some worker)
    (hfd : fd < conns.length) (hold : ∀ i : ℕ, conns[i]?.join = worker.conns[i]?.join)
    (hconns : worker'.conns = conns.set fd x) (v f : ℕ) :
    (s.setWorker w worker').lookup v f = if v = w ∧ f = fd then x else s.lookup v f := by
  rw [lookup_setWorker h, hconns, getElem?_set_join hfd, hold]
  by_cases hv : v = w
  · rw [if_pos hv, hv, lookup_worker h]
    simp
  · rw [if_neg hv, if_neg fun h => hv h.1]

/-- A worker in a list of workers, exchanged for another one. -/
theorem count_flatMap_set {α : Type} {l : List α} {x : α} (h : l[w]? = some x) (y : α) (g : α → List ℕ) (n : ℕ) :
    ((l.set w y).flatMap g).count n + (g x).count n = (l.flatMap g).count n + (g y).count n := by
  induction l generalizing w with
  | nil => cases h
  | cons z l ih =>
    cases w with
    | zero =>
      obtain rfl : z = x := by simpa using h
      simp only [List.set_cons_zero, List.flatMap_cons, List.count_append]
      omega
    | succ w =>
      have ih := ih (by simpa using h)
      simp only [List.set_cons_succ, List.flatMap_cons, List.count_append]
      omega

theorem mem_flatMap_set {l : List SignalingWorker} {request : Request}
    (h : request ∈ (l.set w worker').flatMap SignalingWorker.qMsg) :
    request ∈ worker'.qMsg ∨ request ∈ l.flatMap SignalingWorker.qMsg := by
  obtain ⟨x, hx, hmem⟩ := List.mem_flatMap.mp h
  rcases List.mem_or_eq_of_mem_set hx with hx | rfl
  · exact .inr (List.mem_flatMap.mpr ⟨x, hx, hmem⟩)
  · exact .inl hmem

/-- What is not changed in a worker is not changed in the list of workers. -/
theorem map_setWorker {β : Type} (g : SignalingWorker → β) (h : s.workers[w]? = some worker) (hg : g worker' = g worker) :
    (s.setWorker w worker').workers.map g = s.workers.map g := by
  obtain ⟨hlt, hget⟩ := List.getElem?_eq_some_iff.mp h
  rw [setWorker, List.map_set, hg, ← hget, ← List.map_set, List.set_getElem_self]

theorem mem_outstanding_worker (h : s.workers[w]? = some worker) {request : Request} (hr : request ∈ worker.qMsg) :
    request ∈ s.outstanding :=
  List.mem_append_right _ (List.mem_flatMap.mpr ⟨worker, List.mem_of_getElem? h, hr⟩)

end Workers

section Same
variable {s s' : System}

/-- Tables and connections are as before, but for reply lists. -/
structure Same (s s' : System) : Prop where
  lookup_eq : s'.lookup = s.lookup
  tableSize_eq : s'.tableSize = s.tableSize
  key_eq : s'.key = s.key
  outside_eq : s'.outside = s.outside

theorem Tabled.same (h : s.Tabled) (hs : Same s s') : s'.Tabled where
  table := by
    intro w f addr
    rw [hs.lookup_eq, hs.key_eq]
    exact h.table
  room := by
    intro addr f w number
    rw [hs.tableSize_eq, hs.key_eq]
    exact h.room
  inside := hs.outside_eq.trans h.inside

theorem Identifies.mono {request : Request} (h : s.Identifies request)
    (hlookup : ∀ v f addr, s'.lookup v f = some addr → s.lookup v f = some addr)
    (hkey : ∀ addr k, s'.key addr = some k → s.key addr = some k) : s'.Identifies request := by
  intro w addr fd k hw ha hfd hl hk
  exact h w addr fd k hw ha hfd (hlookup _ _ _ hl) (hkey _ _ hk)

theorem Identifies.same {request : Request} (h : s.Identifies request) (hs : Same s s') : s'.Identifies request :=
  h.mono (fun v f addr hl => by rwa [hs.lookup_eq] at hl) fun addr k hk => by rwa [hs.key_eq] at hk

/-- A worker whose table stays as it is. -/
theorem same_setWorker {w : ℕ} {worker worker' : SignalingWorker} (h : s.workers[w]? = some worker)
    (hconns : worker'.conns = worker.conns) : Same s (s.setWorker w worker') where
  lookup_eq := by
    funext v f
    rw [lookup_setWorker h]
    split
    · rename_i hv
      rw [hv, lookup_worker h, hconns]
    · rfl
  tableSize_eq := by
    funext v
    rw [tableSize_setWorker h]
    split
    · rename_i hv
      rw [hv, tableSize_worker h, hconns]
    · rfl
  key_eq := rfl
  outside_eq := rfl

/-- Requests under way are only lost, or sent back by the worker that they came with. -/
theorem Tracked.mono (h : s.Tracked) (hs : ∀ request, s.Identifies request → s'.Identifies request)
    (hmem : ∀ request ∈ s'.outstanding, request ∈ s.outstanding)
    (hplaced : ∀ w (worker : SignalingWorker), s'.workers[w]? = some worker → ∀ request ∈ worker.qMsg,
      request.msg.worker = some w) : s'.Tracked where
  identifies := fun request hr => hs request (h.identifies request (hmem request hr))
  placed := hplaced

theorem Numbered.mono (h : s.Numbered) (hrequests : s'.requests = s.requests)
    (hcount : ∀ n, s'.serials.count n ≤ s.serials.count n) : s'.Numbered := by
  intro n
  rw [hrequests]
  exact (hcount n).trans (h n)

theorem placed_setWorker {w : ℕ} {worker worker' : SignalingWorker} (h : s.workers[w]? = some worker)
    (ht : s.Tracked) (hqueue : ∀ request ∈ worker'.qMsg, request.msg.worker = some w) :
    ∀ v (x : SignalingWorker), (s.setWorker w worker').workers[v]? = some x → ∀ request ∈ x.qMsg,
      request.msg.worker = some v := by
  intro v x hx request hr
  rw [getElem?_setWorker h] at hx
  split at hx
  · rename_i hv
    obtain rfl := Option.some.inj hx
    rw [hv]
    exact hqueue request hr
  · exact ht.placed v x hx request hr

/-- The other fields of a worker do not matter for the numbers of requests. -/
theorem count_setWorker {w : ℕ} {worker worker' : SignalingWorker} (h : s.workers[w]? = some worker) (n : ℕ) :
    (s.setWorker w worker').serials.count n + (worker.qMsg.map Request.serial).count n =
      s.serials.count n + (worker'.qMsg.map Request.serial).count n := by
  have hset := count_flatMap_set h worker' (fun worker => worker.qMsg.map Request.serial) n
  simp only [serials, setWorker, List.count_append] at hset ⊢
  omega

theorem count_setWorker_le {w : ℕ} {worker worker' : SignalingWorker} (h : s.workers[w]? = some worker)
    (hqueue : worker'.qMsg = worker.qMsg) (n : ℕ) :
    (s.setWorker w worker').serials.count n ≤ s.serials.count n := by
  have hcount : (s.setWorker w worker').serials.count n + _ = _ := count_setWorker h n
  rw [hqueue] at hcount
  exact Nat.le_of_add_le_add_right hcount.le

theorem outstanding_setWorker {w : ℕ} {worker worker' : SignalingWorker} (h : s.workers[w]? = some worker)
    (hsub : ∀ request ∈ worker'.qMsg, request ∈ worker.qMsg) :
    ∀ request ∈ (s.setWorker w worker').outstanding, request ∈ s.outstanding := by
  intro request hr
  rcases List.mem_append.mp hr with hr | hr
  · exact List.mem_append_left _ hr
  · rcases mem_flatMap_set hr with hr | hr
    · exact mem_outstanding_worker h (hsub request hr)
    · exact List.mem_append_right _ hr

end Same

section Close
variable {s : System} {addr : ℕ} {conn : TcpConnection}

theorem key_of_heap (h : s.heap addr = some conn) : s.key addr = some (conn.fd, conn.worker, conn.number) := by
  rw [key, h]
  rfl

/-- The worker of a connection exists and has room for it. -/
theorem Tabled.worker (ht : s.Tabled) (h : s.heap addr = some conn) :
    ∃ worker, s.workers[conn.worker]? = some worker ∧ conn.fd < worker.conns.length := by
  have hroom := ht.room (key_of_heap h)
  cases hw : s.workers[conn.worker]? with
  | none =>
    rw [tableSize, hw] at hroom
    cases hroom
  | some worker => exact ⟨worker, rfl, tableSize_worker hw ▸ hroom⟩

/-- One address holds another connection, or none. -/
theorem key_update (x : Option TcpConnection) (b : ℕ) :
    ((Function.update s.heap addr x b).map fun conn => (conn.fd, conn.worker, conn.number)) =
      if b = addr then x.map (fun conn => (conn.fd, conn.worker, conn.number)) else s.key b := by
  by_cases hb : b = addr
  · subst hb
    rw [Function.update_self, if_pos rfl]
  · rw [Function.update_of_ne hb, if_neg hb]
    rfl

theorem Routed.held_update (h : s.Routed) {x : Option TcpConnection}
    (hx : ∀ conn, x = some conn → ∀ request, .offer request ∈ conn.replyList → request.origin = conn.number) :
    ∀ b conn', Function.update s.heap addr x b = some conn' → ∀ request, .offer request ∈ conn'.replyList →
      request.origin = conn'.number := by
  intro b conn' hb
  by_cases hne : b = addr
  · subst hne
    rw [Function.update_self] at hb
    exact hx conn' hb
  · rw [Function.update_of_ne hne] at hb
    exact h.held b conn' hb

/-- The entries of a connection, in the table of its worker and in the memory, are exchanged. -/
def exchange (s : System) (w : ℕ) (worker : SignalingWorker) (addr : ℕ) (conn : Option TcpConnection)
    (openFds : List ℕ) (created : ℕ) : System :=
  { s.setWorker w worker with heap := Function.update s.heap addr conn, openFds, created }

section Exchange
variable {w fd : ℕ} {worker worker' : SignalingWorker} {conns : List (Option ℕ)} {conn : Option TcpConnection}

theorem lookup_exchange (hw : s.workers[w]? = some worker) (hconns : worker'.conns = conns.set fd (conn.map fun _ => addr))
    (hfd : fd < conns.length) (hgrown : ∀ i : ℕ, conns[i]?.join = worker.conns[i]?.join) (openFds : List ℕ) (created v f : ℕ) :
    (s.exchange w worker' addr conn openFds created).lookup v f =
      if v = w ∧ f = fd then conn.map (fun _ => addr) else s.lookup v f :=
  lookup_setConn hw hfd hgrown hconns v f

theorem key_exchange (openFds : List ℕ) (created b : ℕ) :
    (s.exchange w worker' addr conn openFds created).key b =
      if b = addr then conn.map (fun conn => (conn.fd, conn.worker, conn.number)) else s.key b :=
  key_update conn b

/-- An entry that stays leads to another address than that of the place. -/
theorem Tabled.lookup_ne (h : s.Tabled) (hold : ∀ f v number, s.key addr = some (f, v, number) → v = w ∧ f = fd) {v f b : ℕ}
    (hplace : ¬ (v = w ∧ f = fd)) (hl : s.lookup v f = some b) : b ≠ addr := by
  rintro rfl
  have ⟨number, hk⟩ := h.table hl
  exact hplace (hold f v number hk)

/-- Only the connection that has the place in the table may be at the address before. -/
theorem Tabled.exchange (h : s.Tabled) (hw : s.workers[w]? = some worker)
    (hconns : worker'.conns = conns.set fd (conn.map fun _ => addr)) (hfd : fd < conns.length)
    (hlong : worker.conns.length ≤ conns.length) (hgrown : ∀ i : ℕ, conns[i]?.join = worker.conns[i]?.join)
    (hold : ∀ f v number, s.key addr = some (f, v, number) → v = w ∧ f = fd)
    (hnew : ∀ c, conn = some c → c.fd = fd ∧ c.worker = w) (openFds : List ℕ) (created : ℕ) :
    (s.exchange w worker' addr conn openFds created).Tabled := by
  have hlookup := @lookup_exchange s addr w fd worker worker' conns conn hw hconns hfd hgrown openFds created
  have hkey := @key_exchange s addr w worker' conn openFds created
  have htable (v : ℕ) : (s.exchange w worker' addr conn openFds created).tableSize v =
      if v = w then conns.length else s.tableSize v := by
    refine (tableSize_setWorker hw v).trans ?_
    rw [hconns, List.length_set]
  refine { table := ?_, room := ?_, inside := h.inside }
  · intro v f b hl
    rw [hlookup] at hl
    by_cases hplace : v = w ∧ f = fd
    · rw [if_pos hplace] at hl
      have ⟨c, hc, haddr⟩ := Option.map_eq_some_iff.mp hl
      have ⟨hcfd, hcworker⟩ := hnew c hc
      refine ⟨c.number, ?_⟩
      rw [hkey, if_pos haddr.symm, hc, Option.map_some, hcfd, hcworker, hplace.1, hplace.2]
    · rw [if_neg hplace] at hl
      have ⟨number, hk⟩ := h.table hl
      refine ⟨number, ?_⟩
      rw [hkey, if_neg (h.lookup_ne hold hplace hl), hk]
  · intro b f v number hk
    rw [hkey] at hk
    rw [htable]
    split at hk
    · have ⟨c, hc, hhandle⟩ := Option.map_eq_some_iff.mp hk
      have ⟨hcfd, hcworker⟩ := hnew c hc
      simp only [Prod.mk.injEq] at hhandle
      rw [if_pos (hhandle.2.1.symm.trans hcworker), ← hhandle.1, hcfd]
      exact hfd
    · have hroom := h.room hk
      split
      · rename_i hv
        rw [hv, tableSize_worker hw] at hroom
        omega
      · exact hroom

/-- No request is taken for one of a new connection. -/
theorem Sound.exchange (h : s.Sound) (hw : s.workers[w]? = some worker)
    (hconns : worker'.conns = conns.set fd (conn.map fun _ => addr)) (hqueue : worker'.qMsg = worker.qMsg)
    (hfd : fd < conns.length) (hlong : worker.conns.length ≤ conns.length)
    (hgrown : ∀ i : ℕ, conns[i]?.join = worker.conns[i]?.join)
    (hold : ∀ f v number, s.key addr = some (f, v, number) → v = w ∧ f = fd)
    (hnew : ∀ c, conn = some c → c.fd = fd ∧ c.worker = w ∧ c.replyList = [] ∧ ∀ request ∈ s.outstanding,
      ¬ (request.msg.worker = some w ∧ request.msg.conn = some addr ∧ request.msg.fd = fd))
    (openFds : List ℕ) (created : ℕ) : (s.exchange w worker' addr conn openFds created).Sound := by
  have hlookup := @lookup_exchange s addr w fd worker worker' conns conn hw hconns hfd hgrown openFds created
  have hkey := @key_exchange s addr w worker' conn openFds created
  have htabled := h.toTabled.exchange hw hconns hfd hlong hgrown hold (fun c hc => ⟨(hnew c hc).1, (hnew c hc).2.1⟩) openFds created
  refine { toTabled := htabled, identifies := ?_, placed := ?_, origin := h.origin, held := ?_, numbered := ?_ }
  · intro request hr v b fd' k hworker hconn hfd' hl hk
    have hmem := outstanding_setWorker hw (fun _ hr => hqueue ▸ hr) request hr
    rw [hlookup] at hl
    by_cases hplace : v = w ∧ fd' = fd
    · rw [if_pos hplace] at hl
      have ⟨c, hc, haddr⟩ := Option.map_eq_some_iff.mp hl
      rw [hplace.1] at hworker
      rw [← haddr] at hconn
      rw [hplace.2] at hfd'
      exact absurd ⟨hworker, hconn, hfd'⟩ ((hnew c hc).2.2.2 request hmem)
    · rw [if_neg hplace] at hl
      rw [hkey, if_neg (h.toTabled.lookup_ne hold hplace hl)] at hk
      exact h.identifies request hmem v b fd' k hworker hconn hfd' hl hk
  · exact placed_setWorker hw h.toTracked (hqueue ▸ h.placed _ worker hw)
  · refine h.held_update fun c hc request hr => ?_
    rw [(hnew c hc).2.2.1] at hr
    cases hr
  · exact h.numbered.mono rfl (count_setWorker_le hw hqueue)

end Exchange

/-- A closed connection leaves its table and the memory. -/
theorem closeConnection_eq (hconn : s.heap addr = some conn) {worker : SignalingWorker}
    (hworker : s.workers[conn.worker]? = some worker) (hfd : conn.fd < worker.conns.length) :
    s.closeConnection addr = s.exchange conn.worker { worker with conns := worker.conns.set conn.fd none } addr none
      (s.openFds.erase conn.fd) s.created := by
  simp only [System.closeConnection, hconn, hworker, Nat.not_le.mpr hfd, decide_false, Bool.or_false]
  rfl

theorem place_of_heap (hconn : s.heap addr = some conn) :
    ∀ f v number, s.key addr = some (f, v, number) → v = conn.worker ∧ f = conn.fd := by
  intro f v number hk
  rw [key_of_heap hconn] at hk
  simp only [Option.some.injEq, Prod.mk.injEq] at hk
  exact ⟨hk.2.1.symm, hk.1.symm⟩

theorem Sound.closeConnection (h : s.Sound) (hconn : s.heap addr = some conn) : (s.closeConnection addr).Sound := by
  have ⟨worker, hworker, hfd⟩ := h.toTabled.worker hconn
  rw [closeConnection_eq hconn hworker hfd]
  refine h.exchange hworker ?_ ?_ hfd le_rfl (fun _ => rfl) (place_of_heap hconn) ?_ _ _
  · rfl
  · rfl
  · intro c hc
    cases hc

end Close

section NewConnections
variable {s : System}

/-- A worker may lose requests, and take up connections that are to come. -/
theorem Sound.setWorker (h : s.Sound) {w : ℕ} {worker worker' : SignalingWorker} (hw : s.workers[w]? = some worker)
    (hconns : worker'.conns = worker.conns) (hqueue : worker'.qMsg.Sublist worker.qMsg) :
    (s.setWorker w worker').Sound := by
  have hsame := same_setWorker hw hconns
  have hmem := outstanding_setWorker hw fun request hr => hqueue.subset hr
  refine { toTabled := h.toTabled.same hsame, toTracked := ?_, origin := h.origin, held := h.held, numbered := ?_ }
  · exact h.toTracked.mono (fun request hid => hid.same hsame) hmem
      (placed_setWorker hw h.toTracked fun request hr => h.placed w worker hw request (hqueue.subset hr))
  · refine h.numbered.mono rfl fun n => ?_
    have hcount := @count_setWorker s w worker worker' hw n
    have hle := (hqueue.map Request.serial).count_le n
    omega

theorem Sound.dispatchNewConn (h : s.Sound) (fd : ℕ) : (s.dispatchNewConn fd).Sound := by
  rw [System.dispatchNewConn]
  cases hw : s.workers[s.nextWorkerIndex]? with
  | none => exact h
  | some worker =>
    dsimp only
    split
    · exact h
    · have hset := @Sound.setWorker s h s.nextWorkerIndex worker { worker with qConn := worker.qConn ++ [fd] } hw rfl
        (List.Sublist.refl _)
      exact ⟨⟨hset.table, hset.room, hset.inside⟩, ⟨hset.identifies, hset.placed⟩, ⟨hset.origin, hset.held⟩,
        hset.numbered⟩

/-- The table after it was made larger. -/
def grown (worker : SignalingWorker) (fd : ℕ) : List (Option ℕ) :=
  if fd > worker.conns.length then worker.conns ++ List.replicate (fd * 2 - worker.conns.length) none else worker.conns

theorem grown_length {worker : SignalingWorker} {fd : ℕ} (h : fd ≠ worker.conns.length) :
    fd < (grown worker fd).length ∧ worker.conns.length ≤ (grown worker fd).length := by
  rw [grown]
  split
  · rw [List.length_append, List.length_replicate]
    omega
  · omega

theorem grown_getElem? (worker : SignalingWorker) (fd i : ℕ) : (grown worker fd)[i]?.join = worker.conns[i]?.join := by
  rw [grown]
  split
  · by_cases hi : i < worker.conns.length
    · rw [List.getElem?_append_left hi]
    · rw [List.getElem?_append_right (Nat.le_of_not_lt hi), List.getElem?_eq_none (Nat.le_of_not_lt hi),
        List.getElem?_replicate]
      split <;> rfl
  · rfl

/-- A notification changes nothing, or there is a descriptor that waits. -/
theorem handleNewConn_cases (s : System) (w addr : ℕ) :
    s.handleNewConn w addr = s ∨ ∃ worker fd qConn, s.workers[w]? = some worker ∧
      worker.qConn = fd :: qConn ∧ s.heap addr = none := by
  cases hw : s.workers[w]? with
  | none =>
    left
    rw [System.handleNewConn, hw]
  | some worker =>
    cases hq : worker.qConn with
    | nil =>
      left
      simp only [System.handleNewConn, hw, hq]
    | cons fd qConn =>
      cases hfree : s.heap addr with
      | some conn =>
        left
        simp only [System.handleNewConn, hw, hq, hfree, Option.isSome_some, if_true]
      | none => exact Or.inr ⟨worker, fd, qConn, rfl, hq, rfl⟩

theorem handleNewConn_eq {w addr fd : ℕ} {worker : SignalingWorker} {qConn : List ℕ} (hw : s.workers[w]? = some worker)
    (hq : worker.qConn = fd :: qConn) (hfree : s.heap addr = none) :
    s.handleNewConn w addr =
      { s.exchange w { worker with qConn, conns := (grown worker fd).set fd (some addr) } addr
          (some { fd, worker := w, number := s.created }) s.openFds (s.created + 1) with
        outside := s.outside || decide ((grown worker fd).length ≤ fd) } := by
  simp only [System.handleNewConn, hw, hq, hfree, Option.isSome_none, Bool.false_eq_true, if_false]
  rfl

theorem handleNewConn_eq_exchange {w addr fd : ℕ} {worker : SignalingWorker} {qConn : List ℕ}
    (hw : s.workers[w]? = some worker) (hq : worker.qConn = fd :: qConn) (hfree : s.heap addr = none)
    (hfd : fd ≠ worker.conns.length) :
    s.handleNewConn w addr =
      s.exchange w { worker with qConn, conns := (grown worker fd).set fd (some addr) } addr
        (some { fd, worker := w, number := s.created }) s.openFds (s.created + 1) := by
  have hinside : (s.outside || decide ((grown worker fd).length ≤ fd)) = s.outside := by
    simp [(grown_length hfd).1]
  rw [handleNewConn_eq hw hq hfree, hinside]
  rfl

/-- A new connection is found by its descriptor, and no request is taken for one of its own. -/
theorem Sound.handleNewConn (h : s.Sound) {w addr : ℕ} (hfresh : s.FreshHandle (.newConn w addr)) :
    (s.handleNewConn w addr).Sound := by
  rcases s.handleNewConn_cases w addr with hsame | ⟨worker, fd, qConn, hw, hq, hfree⟩
  · rw [hsame]
    exact h
  · have ⟨hfd, hclear⟩ := hfresh worker fd hw (by rw [hq]; rfl) hfree
    have ⟨hin, hlong⟩ := grown_length hfd
    have hold : ∀ f v number, s.key addr = some (f, v, number) → v = w ∧ f = fd := by
      intro f v number hk
      rw [key, hfree] at hk
      cases hk
    have hnew : ∀ c : TcpConnection, some { fd, worker := w, number := s.created } = some c → c.fd = fd ∧ c.worker = w ∧
        c.replyList = [] ∧ ∀ request ∈ s.outstanding,
          ¬ (request.msg.worker = some w ∧ request.msg.conn = some addr ∧ request.msg.fd = fd) := by
      intro c hc
      obtain rfl := Option.some.inj hc
      exact ⟨rfl, rfl, rfl, hclear⟩
    rw [handleNewConn_eq_exchange hw hq hfree hfd]
    refine h.exchange hw ?_ ?_ hin hlong (grown_getElem? worker fd) hold hnew s.openFds (s.created + 1)
    · rfl
    · rfl

end NewConnections

section Replies
variable {s : System} {addr : ℕ} {conn : TcpConnection}

theorem same_replyList (hconn : s.heap addr = some conn) (replies : List Reply) :
    Same s { s with heap := Function.update s.heap addr (some { conn with replyList := replies }) } where
  lookup_eq := rfl
  tableSize_eq := rfl
  key_eq := by
    funext b
    refine (key_update _ b).trans ?_
    split
    · rename_i hb
      rw [hb, key_of_heap hconn]
      rfl
    · rfl
  outside_eq := rfl

/-- Other replies in the list of a connection, all of them to requests of its own. -/
theorem Sound.replyList (h : s.Sound) (hconn : s.heap addr = some conn) (replies : List Reply)
    (hreplies : ∀ request, .offer request ∈ replies → request.origin = conn.number) :
    ({ s with heap := Function.update s.heap addr (some { conn with replyList := replies }) } : System).Sound := by
  have hsame := same_replyList hconn replies
  refine { toTabled := h.toTabled.same hsame, identifies := ?_, placed := h.placed, origin := h.origin, held := ?_,
           numbered := h.numbered }
  · exact fun request hr => (h.identifies request hr).same hsame
  · refine h.held_update fun conn' hnew request hr => ?_
    obtain rfl := Option.some.inj hnew
    exact hreplies request hr

theorem Sound.addReply (h : s.Sound) (hconn : s.heap addr = some conn) {reply : Reply}
    (hreply : ∀ request, reply = .offer request → request.origin = conn.number) : (s.addReply addr reply).Sound := by
  have hsound := h.replyList hconn (conn.replyList ++ [reply]) fun request hr => by
    rcases List.mem_append.mp hr with hr | hr
    · exact h.held addr conn hconn request hr
    · exact hreply request (List.mem_singleton.mp hr).symm
  rw [System.addReply, hconn]
  exact hsound

/-- A message that was made for a connection, or for none. -/
def MadeFor (msg : RtcMsg) (addr : ℕ) (conn : TcpConnection) : Prop :=
  msg.worker = none ∨ msg.worker = some conn.worker ∧ msg.conn = some addr ∧ msg.fd = conn.fd

theorem madeFor_processRequest {root : Server.Root} {logId : UInt32} {msg : RtcMsg}
    (h : Server.processRequest ⟨conn.worker, addr, conn.fd⟩ root logId = some msg) : MadeFor msg addr conn := by
  simp only [Server.processRequest, Server.processPush, Server.processPull, Server.processStopPush,
    Server.processStopPull, Server.processStop, Option.bind_eq_bind, Option.bind_eq_some_iff, Option.pure_def] at h
  obtain ⟨cmdno, -, h⟩ := h
  split_ifs at h
  · simp only [Option.bind_eq_some_iff, Option.some.injEq] at h
    obtain ⟨_, -, _, -, _, -, _, -, _, -, _, -, rfl⟩ := h
    exact .inr ⟨rfl, rfl, rfl⟩
  · simp only [Option.bind_eq_some_iff, Option.some.injEq] at h
    obtain ⟨_, -, _, -, _, -, _, -, _, -, rfl⟩ := h
    exact .inr ⟨rfl, rfl, rfl⟩
  · simp only [Option.bind_eq_some_iff, Option.some.injEq] at h
    obtain ⟨_, -, _, -, rfl⟩ := h
    exact .inl rfl
  · simp only [Option.bind_eq_some_iff, Option.some.injEq] at h
    obtain ⟨_, -, _, -, rfl⟩ := h
    exact .inl rfl

/-- A request carries the number of its connection. -/
theorem Sound.send (h : s.Sound) (hconn : s.heap addr = some conn) {msg : RtcMsg} (hmsg : MadeFor msg addr conn) :
    (s.send msg conn.number).Sound := by
  have hsame : Same s (s.send msg conn.number) := ⟨rfl, rfl, rfl, rfl⟩
  refine { toTabled := h.toTabled.same hsame, identifies := ?_, placed := h.placed, origin := h.origin, held := h.held,
           numbered := ?_ }
  · intro request hr
    rw [outstanding, System.send, List.append_assoc, List.mem_append, List.mem_append, List.mem_singleton] at hr
    rcases hr with hr | rfl | hr
    · exact (h.identifies request (List.mem_append_left _ hr)).same hsame
    · intro w b fd k hw hb _ _ hk
      rcases hmsg with hnone | ⟨-, hself, -⟩
      · rw [hnone] at hw
        cases hw
      · obtain rfl := Option.some.inj (hself.symm.trans hb)
        have hkey : s.key addr = some k := hk
        rw [key_of_heap hconn] at hkey
        rw [← Option.some.inj hkey]
    · exact (h.identifies request (List.mem_append_right _ hr)).same hsame
  · intro n
    have hcount : (s.send msg conn.number).serials.count n = s.serials.count n + if s.requests = n then 1 else 0 := by
      simp only [serials, System.send, List.map_append, List.count_append, List.map_cons, List.map_nil,
        List.count_singleton, beq_iff_eq]
      omega
    have hold := h.numbered n
    have hrequests : (s.send msg conn.number).requests = s.requests + 1 := rfl
    rw [hcount, hrequests]
    split_ifs at hold ⊢ <;> omega

theorem Sound.finish (h : s.Sound) (hconn : s.heap addr = some conn) (ret : ℤ) : (s.finish addr ret).Sound := by
  rw [System.finish]
  split
  · exact h.closeConnection hconn
  · exact h

/-- A result is queued or not, and closes the connection or not. -/
theorem Sound.result (h : s.Sound) (hconn : s.heap addr = some conn) (later : Prop) [Decidable later] (ret : ℤ) :
    (if later then s.finish addr ret else (s.addReply addr (.result ret)).finish addr ret).Sound := by
  split
  · exact h.finish hconn ret
  · have hsound := @Sound.addReply s addr conn h hconn (.result ret) fun request hr => by cases hr
    have hself : (s.addReply addr (.result ret)).heap addr =
        some { conn with replyList := conn.replyList ++ [.result ret] } := by
      simp only [System.addReply, Function.update_self, hconn, Option.map_some]
    exact hsound.finish hself ret

theorem Sound.processRequest (h : s.Sound) (hconn : s.heap addr = some conn) (root : Server.Root) (logId : UInt32)
    (notified : Bool) : (s.processRequest addr conn root logId notified).Sound := by
  rw [System.processRequest]
  cases root.cmdno with
  | none => exact h.finish hconn _
  | some cmdno =>
    cases hmsg : Server.processRequest ⟨conn.worker, addr, conn.fd⟩ root logId with
    | none => exact h.result hconn _ _
    | some msg =>
      have hsent := h.send hconn (madeFor_processRequest hmsg)
      have hconn' : (s.send msg conn.number).heap addr = some conn := hconn
      exact hsent.result hconn' _ _

/-- What is found for a watched connection is in memory. -/
theorem Tabled.entry_alive (h : s.Tabled) {watched : TcpConnection} {b : ℕ} (hentry : s.entry watched = some (some b)) :
    ∃ conn, s.heap b = some conn := by
  have hlookup : s.lookup watched.worker watched.fd = some b := by
    rw [System.entry] at hentry
    rw [lookup]
    cases hw : s.workers[watched.worker]? with
    | none =>
      rw [hw] at hentry
      cases hentry
    | some worker =>
      rw [hw] at hentry
      have hentry : worker.conns[watched.fd]? = some (some b) := hentry
      rw [Option.bind_some, hentry]
      rfl
  obtain ⟨number, hk⟩ := h.table hlookup
  cases hb : s.heap b with
  | none =>
    rw [key, hb] at hk
    cases hk
  | some conn => exact ⟨conn, rfl⟩

theorem Tabled.entry_isSome (h : s.Tabled) (hconn : s.heap addr = some conn) : s.entry conn ≠ none := by
  obtain ⟨worker, hworker, hfd⟩ := h.worker hconn
  rw [System.entry, hworker]
  simpa using hfd

theorem Sound.readQuery (h : s.Sound) (addr : ℕ) (arrival : Arrival) : (s.readQuery addr arrival).Sound := by
  rw [System.readQuery]
  cases hwatched : s.heap addr with
  | none => exact h
  | some watched =>
    dsimp only
    cases hentry : s.entry watched with
    | none => exact absurd hentry (h.toTabled.entry_isSome hwatched)
    | some b =>
      cases b with
      | none => exact h
      | some b =>
        obtain ⟨conn, hconn⟩ := h.toTabled.entry_alive hentry
        dsimp only
        rw [hconn]
        cases arrival with
        | more => exact h
        | failed => exact h.closeConnection hconn
        | request root logId notified => exact h.processRequest hconn root logId notified

theorem Sound.processTimeout (h : s.Sound) (addr : ℕ) : (s.processTimeout addr).Sound := by
  rw [System.processTimeout]
  cases hconn : s.heap addr with
  | none => exact h
  | some conn => exact h.closeConnection hconn

theorem Sound.writeReply (h : s.Sound) (addr written : ℕ) (failed : Bool) : (s.writeReply addr written failed).Sound := by
  rw [System.writeReply]
  cases hwatched : s.heap addr with
  | none => exact h
  | some watched =>
    dsimp only
    split
    · exact h
    · cases hentry : s.entry watched with
      | none => exact h
      | some b =>
        cases b with
        | none => exact h
        | some b =>
          obtain ⟨conn, hconn⟩ := h.toTabled.entry_alive hentry
          dsimp only
          rw [hconn]
          have hsound := h.replyList hconn (conn.replyList.drop written) fun request hr =>
            h.held b conn hconn request (List.mem_of_mem_drop hr)
          dsimp only
          split
          · exact hsound.closeConnection (Function.update_self _ _ _)
          · exact hsound

end Replies

section Answers
variable {s : System}

theorem Sound.lose (h : s.Sound) (i : ℕ) : (s.lose i).Sound := by
  have hsame : Same s (s.lose i) := ⟨rfl, rfl, rfl, rfl⟩
  have hsub : (s.inFlight.eraseIdx i).Sublist s.inFlight := List.eraseIdx_sublist _ _
  refine { toTabled := h.toTabled.same hsame, identifies := ?_, placed := h.placed, origin := h.origin, held := h.held,
           numbered := ?_ }
  · intro request hr
    rcases List.mem_append.mp hr with hr | hr
    · exact (h.identifies request (List.mem_append_left _ (hsub.subset hr))).same hsame
    · exact (h.identifies request (List.mem_append_right _ hr)).same hsame
  · refine h.numbered.mono rfl fun n => ?_
    have hle := (hsub.map Request.serial).count_le n
    simp only [serials, System.lose, List.count_append] at hle ⊢
    omega

/-- A request that is sent back stays the same request. -/
theorem Sound.sendBack (h : s.Sound) {i w : ℕ} {request back : Request} {worker : SignalingWorker}
    (hi : s.inFlight[i]? = some request) (hw : s.workers[w]? = some worker) (hworker : request.msg.worker = some w)
    (hback : back.msg.worker = some w) (hconn : back.msg.conn = request.msg.conn) (hfd : back.msg.fd = request.msg.fd)
    (hserial : back.serial = request.serial) (horigin : back.origin = request.origin) :
    (({ s with inFlight := s.inFlight.eraseIdx i } : System).setWorker w
      { worker with qMsg := worker.qMsg ++ [back] }).Sound := by
  have hlost : ({ s with inFlight := s.inFlight.eraseIdx i } : System).Sound := h.lose i
  have hw' : ({ s with inFlight := s.inFlight.eraseIdx i } : System).workers[w]? = some worker := hw
  have hsame := @same_setWorker { s with inFlight := s.inFlight.eraseIdx i } w worker
    { worker with qMsg := worker.qMsg ++ [back] } hw' rfl
  have hid : ({ s with inFlight := s.inFlight.eraseIdx i } : System).Identifies back := by
    intro v addr fd k hv ha hf hl hk
    have hold := h.identifies request (List.mem_append_left _ (List.mem_of_getElem? hi))
    rw [horigin]
    rw [hback] at hv
    rw [hconn] at ha
    rw [hfd] at hf
    exact hold v addr fd k (hworker.trans hv) ha hf hl hk
  refine { toTabled := hlost.toTabled.same hsame, identifies := ?_, placed := ?_, origin := h.origin, held := h.held,
           numbered := ?_ }
  · intro r hr
    rcases List.mem_append.mp hr with hr | hr
    · exact (hlost.identifies r (List.mem_append_left _ hr)).same hsame
    · rcases mem_flatMap_set hr with hr | hr
      · rcases List.mem_append.mp hr with hr | hr
        · exact (hlost.identifies r (mem_outstanding_worker hw' hr)).same hsame
        · rw [List.mem_singleton.mp hr]
          exact hid.same hsame
      · exact (hlost.identifies r (List.mem_append_right _ hr)).same hsame
  · refine placed_setWorker hw' hlost.toTracked fun r hr => ?_
    rcases List.mem_append.mp hr with hr | hr
    · exact h.placed w worker hw r hr
    · rw [List.mem_singleton.mp hr]
      exact hback
  · refine h.numbered.mono rfl fun n => ?_
    obtain ⟨hlt, hget⟩ := List.getElem?_eq_some_iff.mp hi
    have hsplit : s.inFlight = s.inFlight.take i ++ request :: s.inFlight.drop (i + 1) := by
      rw [← hget, List.getElem_cons_drop, List.take_append_drop]
    have herase := congrArg (fun l : List Request => (l.map Request.serial).count n) hsplit
    simp only [List.map_append, List.map_cons, List.count_append, List.count_cons] at herase
    have hrest := congrArg (fun l : List Request => (l.map Request.serial).count n)
      (List.eraseIdx_eq_take_drop_succ s.inFlight i)
    simp only [List.map_append, List.count_append] at hrest
    have hset := @count_setWorker { s with inFlight := s.inFlight.eraseIdx i } w worker
      { worker with qMsg := worker.qMsg ++ [back] } hw' n
    simp only [serials, List.count_append, List.map_append, List.map_cons, List.map_nil, List.count_singleton,
      hserial] at hset ⊢
    omega

theorem Sound.answer (h : s.Sound) (i : ℕ) (failed : Bool) (sdp : String) : (s.answer i failed sdp).Sound := by
  rw [System.answer]
  cases hi : s.inFlight[i]? with
  | none => exact h
  | some request =>
    have hlost : ({ s with inFlight := s.inFlight.eraseIdx i } : System).Sound := h.lose i
    dsimp only
    cases hworker : request.msg.worker with
    | none => exact hlost
    | some w =>
      dsimp only
      cases hw : s.workers[w]? with
      | none => exact hlost
      | some worker => exact h.sendBack hi hw hworker rfl rfl rfl rfl rfl

/-- The connection that is found for an answer is the one that asked. -/
theorem Sound.found (h : s.Sound) {w addr : ℕ} {worker : SignalingWorker} {request : Request}
    (hw : s.workers[w]? = some worker) (hin : request ∈ worker.qMsg) (haddr : request.msg.conn = some addr)
    (hfd : 0 < request.msg.fd) (hentry : worker.conns[request.msg.fd.toNat]? = some (some addr)) :
    ∃ conn, s.heap addr = some conn ∧ request.origin = conn.number := by
  have hlookup : s.lookup w request.msg.fd.toNat = some addr := by
    rw [lookup_worker hw, hentry]
    rfl
  have hnat : request.msg.fd = request.msg.fd.toNat := by omega
  obtain ⟨number, hk⟩ := h.table hlookup
  have hid := h.identifies request (mem_outstanding_worker hw hin)
  have hnumber := hid w addr _ _ (h.placed w worker hw request hin) haddr hnat hlookup hk
  cases hconn : s.heap addr with
  | none =>
    rw [key, hconn] at hk
    cases hk
  | some conn =>
    rw [key_of_heap hconn] at hk
    refine ⟨conn, rfl, ?_⟩
    rw [← hnumber, ← Option.some.inj hk]

/-- An answer that is queued has found the connection that asked. -/
theorem Sound.processRtcMsg (h : s.Sound) (w : ℕ) : (s.processRtcMsg w).Sound := by
  rw [System.processRtcMsg]
  cases hw : s.workers[w]? with
  | none => exact h
  | some worker =>
    dsimp only
    cases hq : worker.qMsg with
    | nil => exact h
    | cons request qMsg =>
      have hsub : ({ worker with qMsg } : SignalingWorker).qMsg.Sublist worker.qMsg := by
        rw [hq]
        exact List.sublist_cons_self _ _
      have hpopped := @Sound.setWorker s h w worker { worker with qMsg } hw rfl hsub
      have hin : request ∈ worker.qMsg := by
        rw [hq]
        exact List.mem_cons_self
      dsimp only
      split
      · rw [System.responseServerOffer]
        cases haddr : request.msg.conn with
        | none => exact hpopped
        | some addr =>
          dsimp only
          split
          · exact hpopped
          · rename_i hfd
            split
            · exact hpopped
            · rename_i hentry
              have ⟨conn, hconn, horigin⟩ := h.found hw hin haddr (by omega) (not_not.mp hentry)
              have hconn' : (s.setWorker w { worker with qMsg }).heap addr = some conn := hconn
              have hreplied := @Sound.addReply _ addr conn hpopped hconn' (.offer request) fun r hr => by
                cases hr
                exact horigin
              rw [hconn']
              refine { toTabled := ⟨hreplied.table, hreplied.room, hreplied.inside⟩,
                       toTracked := ⟨hreplied.identifies, hreplied.placed⟩, origin := ?_, held := hreplied.held,
                       numbered := ?_ }
              · intro q hmem
                rcases List.mem_append.mp hmem with hmem | hmem
                · exact h.origin q hmem
                · rw [List.mem_singleton.mp hmem]
                  exact horigin.symm
              · refine h.numbered.mono rfl fun n => ?_
                have hset := @count_setWorker s w worker { worker with qMsg } hw n
                rw [hq, List.map_cons, List.count_cons] at hset
                simp only [serials, System.addReply, List.count_append, List.map_append, List.map_cons,
                  List.map_nil, List.count_singleton] at hset ⊢
                omega
      · exact hpopped

end Answers

section Run
variable {s : System}

theorem Sound.step (h : s.Sound) (e : Event) (hfresh : s.FreshHandle e) : (s.step e).Sound := by
  cases e with
  | accept fd => exact h.dispatchNewConn fd
  | newConn w addr => exact h.handleNewConn hfresh
  | readable addr arrival => exact h.readQuery addr arrival
  | timeout addr => exact h.processTimeout addr
  | answer i failed sdp => exact h.answer i failed sdp
  | lose i => exact h.lose i
  | rtcMsg w => exact h.processRtcMsg w
  | writable addr written failed => exact h.writeReply addr written failed

theorem sound_init (workerNum : ℕ) : (init workerNum).Sound := by
  have hworker (w : ℕ) (worker : SignalingWorker) (hw : (init workerNum).workers[w]? = some worker) : worker = {} :=
    List.eq_of_mem_replicate (List.mem_of_getElem? hw)
  have hlookup (w f : ℕ) : (init workerNum).lookup w f = none := by
    rw [lookup]
    cases hw : (init workerNum).workers[w]? with
    | none => rfl
    | some worker =>
      rw [hworker w worker hw]
      rfl
  have hqueues : (init workerNum).workers.flatMap SignalingWorker.qMsg = [] := by
    rw [List.flatMap_eq_nil_iff]
    intro worker hmem
    rw [List.eq_of_mem_replicate hmem]
  refine { table := ?_, room := ?_, inside := rfl, identifies := ?_, placed := ?_, origin := ?_, held := ?_, numbered := ?_ }
  · intro w f addr hl
    rw [hlookup] at hl
    cases hl
  · intro addr f w number hk
    cases hk
  · intro request hr
    rw [outstanding, hqueues] at hr
    cases hr
  · intro w worker hw request hr
    rw [hworker w worker hw] at hr
    cases hr
  · exact fun q hq => absurd hq (List.not_mem_nil)
  · intro addr conn hconn
    cases hconn
  · intro n
    have hserials : (init workerNum).workers.flatMap (fun worker => worker.qMsg.map Request.serial) = [] := by
      rw [List.flatMap_eq_nil_iff]
      intro worker hmem
      rw [List.eq_of_mem_replicate hmem]
      rfl
    rw [serials, hserials]
    exact Nat.zero_le _

/-- Every reply was queued at most once, on the connection that sent the request it answers. -/
structure RepliesInPlace (s : System) : Prop extends Routed s where
  once : (s.queued.map (·.request.serial)).Nodup
  inside : s.outside = false

theorem Sound.repliesInPlace (h : s.Sound) : s.RepliesInPlace where
  toRouted := h.toRouted
  inside := h.inside
  once := by
    rw [List.nodup_iff_count_le_one]
    intro n
    have hle := h.numbered n
    rw [serials, List.count_append] at hle
    split_ifs at hle <;> omega

/-- In every run in which each new connection has a fresh handle, replies are queued once and
on the connection that asked. -/
theorem replies_in_place (workerNum : ℕ) (es : List Event)
    (h : Runs.Along step FreshHandle (init workerNum) es) : (Runs.run step (init workerNum) es).RepliesInPlace := by
  have hsound := @Runs.invariant_run _ _ step Sound FreshHandle (fun _ e hs he => Sound.step hs e he) _ _
    (sound_init workerNum) h
  exact hsound.repliesInPlace

end Run

section Counterexample

/-- A pull request. -/
def pullRoot : Server.Root := ⟨some 2, some 7, some "live", some 1, some 1, some "offer", some none⟩

/-- Descriptor and address of a closed connection are given out again while its request is
under way. -/
def reusedHandle : List Event :=
  [.accept 5, .newConn 0 4096, .readable 4096 (.request pullRoot 1 true), .readable 4096 .failed,
   .accept 5, .newConn 0 4096, .answer 0 false "answer", .rtcMsg 0]

/-- The same requests, with another address. -/
theorem fresh_replies_in_place : (Runs.run step (init 1) [.accept 5, .newConn 0 4096,
    .readable 4096 (.request pullRoot 1 true), .readable 4096 .failed, .accept 5, .newConn 0 8192,
    .answer 0 false "answer", .rtcMsg 0]).RepliesInPlace := by
  refine replies_in_place 1 _ ⟨trivial, ?_, trivial, trivial, trivial, ?_, trivial, trivial, trivial⟩
  · intro worker fd hw hfd _
    cases hw
    cases hfd
    exact ⟨by decide, fun request hr => by cases hr⟩
  · intro worker fd hw hfd _
    cases hw
    cases hfd
    refine ⟨by decide, fun request hr => ?_⟩
    rcases List.mem_cons.mp hr with rfl | hr
    · rintro ⟨-, hconn, -⟩
      cases hconn
    · cases hr

/-- The reply to the first connection is queued on the second one. -/
theorem reused_handle_misrouted :
    (Runs.run step (init 1) reusedHandle).queued.map (fun q => (q.request.origin, q.connection)) = [(0, 1)] := by
  rfl

end Counterexample

end System

end Signaling
end XrtcServer
