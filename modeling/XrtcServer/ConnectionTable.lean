import Mathlib.Data.List.Nodup
import XrtcServer.ReplyRouting

/-! The table of connections that a signaling worker indexes by descriptor. It is made larger for
a descriptor that is greater than its size, and is as large as it was for one that is equal. -/
namespace XrtcServer
namespace Signaling

namespace System

/-- The descriptors that wait for their workers. -/
def pending (s : System) : List ℕ := s.workers.flatMap SignalingWorker.qConn

/-- No table was used behind its end, and each has for a descriptor the live connection of that
descriptor, or null. -/
structure InOrder (s : System) : Prop where
  inside : s.outside = false
  live : ∀ {w f addr}, s.lookup w f = some addr → ∃ conn, s.heap addr = some conn ∧ conn.fd = f ∧ conn.worker = w
  found : ∀ {addr conn}, s.heap addr = some conn → s.lookup conn.worker conn.fd = some addr

/-- No descriptor is taken from the queue of a worker that is the size of the table. -/
def Roomy (s : System) : Event → Prop
  | .newConn w addr => ∀ (worker : SignalingWorker) fd, s.workers[w]? = some worker → worker.qConn.head? = some fd → s.heap addr = none →
      fd ≠ worker.conns.length
  | .accept _ | .readable _ _ | .timeout _ | .answer _ _ _ | .lose _ | .rtcMsg _ | .writable _ _ _ => True

/-- A descriptor that is open waits for its worker, or belongs to one connection, which its table
has. -/
structure Described (s : System) : Prop extends Tabled s where
  openOnce : s.openFds.Nodup
  pendingOnce : s.pending.Nodup
  pendingOpen : ∀ fd ∈ s.pending, fd ∈ s.openFds
  liveOpen : ∀ {addr f w number}, s.key addr = some (f, w, number) → f ∈ s.openFds ∧ f ∉ s.pending
  found : ∀ {addr f w number}, s.key addr = some (f, w, number) → s.lookup w f = some addr
  unique : ∀ {a b f v w m n}, s.key a = some (f, v, m) → s.key b = some (f, w, n) → a = b

theorem Described.inOrder {s : System} (h : s.Described) : s.InOrder where
  inside := h.inside
  live := by
    intro w f addr hl
    have ⟨number, hk⟩ := h.table hl
    cases hconn : s.heap addr with
    | none =>
      rw [key, hconn] at hk
      cases hk
    | some conn =>
      rw [key_of_heap hconn] at hk
      simp only [Option.some.injEq, Prod.mk.injEq] at hk
      exact ⟨conn, rfl, hk.1, hk.2.1⟩
  found := fun hconn => h.found (key_of_heap hconn)

section Unmoved
variable {s s' s'' : System}

/-- Tables, connections and descriptors are as before, but for reply lists. -/
structure Unmoved (s s' : System) : Prop extends Same s s' where
  openFds_eq : s'.openFds = s.openFds
  pending_eq : s'.pending = s.pending

theorem Unmoved.refl (s : System) : Unmoved s s := ⟨⟨rfl, rfl, rfl, rfl⟩, rfl, rfl⟩

theorem Unmoved.trans (h : Unmoved s s') (h' : Unmoved s' s'') : Unmoved s s'' where
  lookup_eq := h'.lookup_eq.trans h.lookup_eq
  tableSize_eq := h'.tableSize_eq.trans h.tableSize_eq
  key_eq := h'.key_eq.trans h.key_eq
  outside_eq := h'.outside_eq.trans h.outside_eq
  openFds_eq := h'.openFds_eq.trans h.openFds_eq
  pending_eq := h'.pending_eq.trans h.pending_eq

theorem Described.unmoved (h : s.Described) (hs : Unmoved s s') : s'.Described where
  toTabled := h.toTabled.same hs.toSame
  openOnce := by
    rw [hs.openFds_eq]
    exact h.openOnce
  pendingOnce := by
    rw [hs.pending_eq]
    exact h.pendingOnce
  pendingOpen := by
    rw [hs.pending_eq, hs.openFds_eq]
    exact h.pendingOpen
  liveOpen := by
    intro addr f w number
    rw [hs.key_eq, hs.pending_eq, hs.openFds_eq]
    exact h.liveOpen
  found := by
    intro addr f w number
    rw [hs.key_eq, hs.lookup_eq]
    exact h.found
  unique := by
    intro a b f v w m n
    rw [hs.key_eq]
    exact h.unique

/-- A descriptor that is put into the queue of a worker. -/
theorem pending_put {w fd : ℕ} {worker worker' : SignalingWorker} (h : s.workers[w]? = some worker)
    (hqueue : worker'.qConn.Perm (fd :: worker.qConn)) : (s.setWorker w worker').pending.Perm (fd :: s.pending) := by
  refine List.perm_iff_count.mpr fun f => ?_
  have hset : (s.setWorker w worker').pending.count f + _ = _ := count_flatMap_set h worker' SignalingWorker.qConn f
  have hput := hqueue.count_eq f
  rw [List.count_cons] at hput ⊢
  change _ = s.pending.count f + _ at hset
  omega

/-- A descriptor that is taken out of the queue of a worker. -/
theorem pending_take {w fd : ℕ} {worker worker' : SignalingWorker} (h : s.workers[w]? = some worker)
    (hqueue : worker.qConn.Perm (fd :: worker'.qConn)) : s.pending.Perm (fd :: (s.setWorker w worker').pending) := by
  refine List.perm_iff_count.mpr fun f => ?_
  have hset : (s.setWorker w worker').pending.count f + _ = _ := count_flatMap_set h worker' SignalingWorker.qConn f
  have htake := hqueue.count_eq f
  rw [List.count_cons] at htake ⊢
  change _ = s.pending.count f + _ at hset
  omega

theorem pending_setWorker {w : ℕ} {worker worker' : SignalingWorker} (h : s.workers[w]? = some worker)
    (hqueue : worker'.qConn = worker.qConn) : (s.setWorker w worker').pending = s.pending := by
  rw [pending, List.flatMap_def, map_setWorker _ h hqueue, ← List.flatMap_def, pending]

theorem unmoved_setWorker {w : ℕ} {worker worker' : SignalingWorker} (h : s.workers[w]? = some worker)
    (hconns : worker'.conns = worker.conns) (hqueue : worker'.qConn = worker.qConn) : Unmoved s (s.setWorker w worker') where
  toSame := same_setWorker h hconns
  openFds_eq := rfl
  pending_eq := pending_setWorker h hqueue

theorem unmoved_addReply {addr : ℕ} {conn : TcpConnection} (hconn : s.heap addr = some conn) (reply : Reply) :
    Unmoved s (s.addReply addr reply) := by
  have hsame := same_replyList hconn (conn.replyList ++ [reply])
  rw [addReply, hconn]
  exact ⟨hsame, rfl, rfl⟩

end Unmoved

section Settles
variable {s : System} {addr : ℕ} {conn : TcpConnection}

/-- What the events on connections come to: tables stay as they are, or a live connection is
closed. -/
inductive Settles (s : System) : System → Prop
  | unmoved {s'} (h : Unmoved s s') : Settles s s'
  | closed {s' addr conn} (h : Unmoved s s') (hconn : s'.heap addr = some conn) : Settles s (s'.closeConnection addr)

theorem Settles.after {s' s'' : System} (h : Unmoved s s') (hs : Settles s' s'') : Settles s s'' := by
  cases hs with
  | unmoved h' => exact .unmoved (h.trans h')
  | closed h' hconn => exact .closed (h.trans h') hconn

theorem settles_finish (hconn : s.heap addr = some conn) (ret : ℤ) : Settles s (s.finish addr ret) := by
  rw [finish]
  split
  · exact .closed (Unmoved.refl s) hconn
  · exact .unmoved (Unmoved.refl s)

theorem settles_result (hconn : s.heap addr = some conn) (later : Prop) [Decidable later] (ret : ℤ) :
    Settles s (if later then s.finish addr ret else (s.addReply addr (.result ret)).finish addr ret) := by
  split
  · exact settles_finish hconn ret
  · have hself : (s.addReply addr (.result ret)).heap addr =
        some { conn with replyList := conn.replyList ++ [.result ret] } := by
      simp only [addReply, Function.update_self, hconn, Option.map_some]
    exact (settles_finish hself ret).after (unmoved_addReply hconn _)

theorem settles_processRequest (hconn : s.heap addr = some conn) (root : Server.Root) (logId : UInt32) (notified : Bool) :
    Settles s (s.processRequest addr conn root logId notified) := by
  rw [processRequest]
  cases root.cmdno with
  | none => exact settles_finish hconn _
  | some cmdno =>
    cases Server.processRequest ⟨conn.worker, addr, conn.fd⟩ root logId with
    | none => exact settles_result hconn _ _
    | some msg =>
      have hsent : Unmoved s (s.send msg conn.number) := ⟨⟨rfl, rfl, rfl, rfl⟩, rfl, rfl⟩
      have hconn' : (s.send msg conn.number).heap addr = some conn := hconn
      exact (settles_result hconn' _ _).after hsent

theorem Tabled.settles_readQuery (h : s.Tabled) (addr : ℕ) (arrival : Arrival) : Settles s (s.readQuery addr arrival) := by
  rw [readQuery]
  cases hwatched : s.heap addr with
  | none => exact .unmoved (Unmoved.refl s)
  | some watched =>
    dsimp only
    cases hentry : s.entry watched with
    | none => exact absurd hentry (h.entry_isSome hwatched)
    | some b =>
      cases b with
      | none => exact .unmoved (Unmoved.refl s)
      | some b =>
        obtain ⟨conn, hconn⟩ := h.entry_alive hentry
        dsimp only
        rw [hconn]
        cases arrival with
        | more => exact .unmoved (Unmoved.refl s)
        | failed => exact .closed (Unmoved.refl s) hconn
        | request root logId notified => exact settles_processRequest hconn root logId notified

theorem settles_processTimeout (s : System) (addr : ℕ) : Settles s (s.processTimeout addr) := by
  rw [processTimeout]
  cases hconn : s.heap addr with
  | none => exact .unmoved (Unmoved.refl s)
  | some conn => exact .closed (Unmoved.refl s) hconn

theorem Tabled.settles_writeReply (h : s.Tabled) (addr written : ℕ) (failed : Bool) :
    Settles s (s.writeReply addr written failed) := by
  rw [writeReply]
  cases s.heap addr with
  | none => exact .unmoved (Unmoved.refl s)
  | some watched =>
    dsimp only
    split
    · exact .unmoved (Unmoved.refl s)
    · cases hentry : s.entry watched with
      | none => exact .unmoved (Unmoved.refl s)
      | some b =>
        cases b with
        | none => exact .unmoved (Unmoved.refl s)
        | some b =>
          obtain ⟨conn, hconn⟩ := h.entry_alive hentry
          have hwritten := same_replyList hconn (conn.replyList.drop written)
          dsimp only
          rw [hconn]
          dsimp only
          split
          · exact .closed ⟨hwritten, rfl, rfl⟩ (Function.update_self _ _ _)
          · exact .unmoved ⟨hwritten, rfl, rfl⟩

theorem unmoved_answer (s : System) (i : ℕ) (failed : Bool) (sdp : String) : Unmoved s (s.answer i failed sdp) := by
  have hlost : Unmoved s { s with inFlight := s.inFlight.eraseIdx i } := ⟨⟨rfl, rfl, rfl, rfl⟩, rfl, rfl⟩
  rw [answer]
  cases s.inFlight[i]? with
  | none => exact Unmoved.refl s
  | some request =>
    dsimp only
    cases request.msg.worker with
    | none => exact hlost
    | some w =>
      dsimp only
      cases hw : s.workers[w]? with
      | none => exact hlost
      | some worker =>
        have hw' : ({ s with inFlight := s.inFlight.eraseIdx i } : System).workers[w]? = some worker := hw
        exact hlost.trans (unmoved_setWorker hw' rfl rfl)

/-- The address of a message is only compared with that in the table. -/
theorem Tabled.unmoved_responseServerOffer (h : s.Tabled) {w : ℕ} {worker : SignalingWorker} (hw : s.workers[w]? = some worker)
    (request : Request) : Unmoved s (s.responseServerOffer worker.conns request) := by
  rw [responseServerOffer]
  cases request.msg.conn with
  | none => exact Unmoved.refl s
  | some addr =>
    dsimp only
    split
    · exact Unmoved.refl s
    · split
      · exact Unmoved.refl s
      · rename_i hentry
        have hlookup : s.lookup w request.msg.fd.toNat = some addr := by
          rw [lookup_worker hw, not_not.mp hentry]
          rfl
        obtain ⟨number, hk⟩ := h.table hlookup
        cases hconn : s.heap addr with
        | none =>
          rw [key, hconn] at hk
          cases hk
        | some conn =>
          have hreplied := unmoved_addReply hconn (.offer request)
          exact ⟨⟨hreplied.lookup_eq, hreplied.tableSize_eq, hreplied.key_eq, hreplied.outside_eq⟩, hreplied.openFds_eq,
            hreplied.pending_eq⟩

theorem Tabled.unmoved_processRtcMsg (h : s.Tabled) (w : ℕ) : Unmoved s (s.processRtcMsg w) := by
  rw [processRtcMsg]
  cases hw : s.workers[w]? with
  | none => exact Unmoved.refl s
  | some worker =>
    dsimp only
    cases worker.qMsg with
    | nil => exact Unmoved.refl s
    | cons request qMsg =>
      have hpopped : Unmoved s (s.setWorker w { worker with qMsg }) := unmoved_setWorker hw rfl rfl
      have hself : (s.setWorker w { worker with qMsg }).workers[w]? = some { worker with qMsg } := by
        rw [getElem?_setWorker hw, if_pos rfl]
      dsimp only
      split
      · exact hpopped.trans ((h.same hpopped.toSame).unmoved_responseServerOffer hself request)
      · exact hpopped

end Settles

section Descriptors
variable {s : System} {addr : ℕ} {conn : TcpConnection}

/-- A closed connection gives its descriptor back. -/
theorem Described.closeConnection (h : s.Described) (hconn : s.heap addr = some conn) : (s.closeConnection addr).Described := by
  have ⟨worker, hworker, hfd⟩ := h.toTabled.worker hconn
  rw [closeConnection_eq hconn hworker hfd]
  have hlookup := @lookup_exchange s addr conn.worker conn.fd worker { worker with conns := worker.conns.set conn.fd none }
    worker.conns none hworker rfl hfd (fun _ => rfl) (s.openFds.erase conn.fd) s.created
  have hkey := @key_exchange s addr conn.worker { worker with conns := worker.conns.set conn.fd none } none
    (s.openFds.erase conn.fd) s.created
  have hpending : (s.setWorker conn.worker { worker with conns := worker.conns.set conn.fd none }).pending = s.pending :=
    pending_setWorker hworker rfl
  have htabled := @Tabled.exchange s addr conn.worker conn.fd worker { worker with conns := worker.conns.set conn.fd none }
    worker.conns none h.toTabled hworker rfl hfd le_rfl (fun _ => rfl) (place_of_heap hconn) (fun _ hc => by cases hc)
    (s.openFds.erase conn.fd) s.created
  -- a connection that stays is at another address, and has another descriptor
  have hstays {b f w number} (hk : (s.exchange conn.worker { worker with conns := worker.conns.set conn.fd none } addr none
      (s.openFds.erase conn.fd) s.created).key b = some (f, w, number)) : s.key b = some (f, w, number) ∧ f ≠ conn.fd := by
    rw [hkey] at hk
    split at hk
    · cases hk
    · rename_i hb
      refine ⟨hk, fun hf => hb (h.unique (hf ▸ hk) (key_of_heap hconn))⟩
  have hheld := h.liveOpen (key_of_heap hconn)
  refine { toTabled := htabled, openOnce := ?_, pendingOnce := ?_, pendingOpen := ?_, liveOpen := ?_, found := ?_, unique := ?_ }
  · exact h.openOnce.erase conn.fd
  · exact hpending ▸ h.pendingOnce
  · intro fd hmem
    have hmem : fd ∈ s.pending := hpending ▸ hmem
    refine (List.mem_erase_of_ne ?_).mpr (h.pendingOpen fd hmem)
    rintro rfl
    exact hheld.2 hmem
  · intro b f w number hk
    have ⟨hk, hne⟩ := hstays hk
    have ⟨hopen, hwaits⟩ := h.liveOpen hk
    exact ⟨(List.mem_erase_of_ne hne).mpr hopen, fun hmem => hwaits (hpending ▸ hmem)⟩
  · intro b f w number hk
    have ⟨hk, hne⟩ := hstays hk
    rw [hlookup, if_neg fun hplace => hne hplace.2]
    exact h.found hk
  · intro a b f v w m n ha hb
    exact h.unique (hstays ha).1 (hstays hb).1

theorem Described.settles {s' : System} (h : s.Described) (hs : Settles s s') : s'.Described := by
  cases hs with
  | unmoved hu => exact h.unmoved hu
  | closed hu hconn => exact (h.unmoved hu).closeConnection hconn

/-- A descriptor that was not open waits for its worker. -/
theorem Described.dispatchNewConn (h : s.Described) (fd : ℕ) : (s.dispatchNewConn fd).Described := by
  rw [System.dispatchNewConn]
  cases hw : s.workers[s.nextWorkerIndex]? with
  | none => exact h
  | some worker =>
    dsimp only
    split
    · exact h
    · rename_i hclosed
      have hput := @pending_put s s.nextWorkerIndex fd worker { worker with qConn := worker.qConn ++ [fd] } hw
        (List.perm_append_singleton _ _)
      have hsame := @same_setWorker s s.nextWorkerIndex worker { worker with qConn := worker.qConn ++ [fd] } hw rfl
      have htabled := h.toTabled.same hsame
      refine { toTabled := ⟨htabled.table, htabled.room, htabled.inside⟩, openOnce := ?_, pendingOnce := ?_, pendingOpen := ?_,
               liveOpen := ?_, found := ?_, unique := h.unique }
      · exact List.nodup_cons.mpr ⟨hclosed, h.openOnce⟩
      · exact hput.nodup_iff.mpr (List.nodup_cons.mpr ⟨fun hf => hclosed (h.pendingOpen fd hf), h.pendingOnce⟩)
      · intro f hf
        rcases List.mem_cons.mp (hput.subset hf) with rfl | hf
        · exact List.mem_cons_self
        · exact List.mem_cons_of_mem _ (h.pendingOpen f hf)
      · intro b f w number hk
        obtain ⟨hopen, hwaits⟩ := h.liveOpen hk
        refine ⟨List.mem_cons_of_mem _ hopen, fun hf => ?_⟩
        rcases List.mem_cons.mp (hput.subset hf) with rfl | hf
        · exact hclosed hopen
        · exact hwaits hf
      · intro b f w number hk
        exact (congrFun (congrFun hsame.lookup_eq w) f).trans (h.found hk)

/-- A descriptor that waited belongs to the new connection. -/
theorem Described.handleNewConn (h : s.Described) {w addr : ℕ} (hroomy : s.Roomy (.newConn w addr)) :
    (s.handleNewConn w addr).Described := by
  rcases s.handleNewConn_cases w addr with hsame | ⟨worker, fd, qConn, hw, hq, hfree⟩
  · rw [hsame]
    exact h
  · have hfd := hroomy worker fd hw (by rw [hq]; rfl) hfree
    obtain ⟨hin, hlong⟩ := grown_length hfd
    have hold : ∀ f v number, s.key addr = some (f, v, number) → v = w ∧ f = fd := by
      intro f v number hk
      rw [key, hfree] at hk
      cases hk
    rw [handleNewConn_eq_exchange hw hq hfree hfd]
    generalize hworker' : ({ worker with qConn, conns := (grown worker fd).set fd (some addr) } : SignalingWorker) = worker'
    generalize hnew : ({ fd, worker := w, number := s.created } : TcpConnection) = new
    have hconns : worker'.conns = (grown worker fd).set fd ((some new).map fun _ => addr) := by
      rw [← hworker']
      rfl
    have hplace : new.fd = fd ∧ new.worker = w := by
      rw [← hnew]
      exact ⟨rfl, rfl⟩
    have hlookup := lookup_exchange hw hconns hin (grown_getElem? worker fd) s.openFds (s.created + 1)
    have hkey := @key_exchange s addr w worker' (some new) s.openFds (s.created + 1)
    have htabled := h.toTabled.exchange hw hconns hin hlong (grown_getElem? worker fd) hold
      (fun c hc => Option.some.inj hc ▸ hplace) s.openFds (s.created + 1)
    have htake : s.pending.Perm (fd :: (s.setWorker w worker').pending) := by
      refine pending_take hw ?_
      rw [hq, ← hworker']
    have hwaited : fd ∈ s.pending := htake.mem_iff.mpr List.mem_cons_self
    obtain ⟨hgone, honce⟩ := List.nodup_cons.mp (htake.nodup_iff.mp h.pendingOnce)
    have hmem {f} (hf : f ∈ (s.setWorker w worker').pending) : f ∈ s.pending :=
      htake.mem_iff.mpr (List.mem_cons_of_mem fd hf)
    refine { toTabled := htabled, openOnce := h.openOnce, pendingOnce := honce,
             pendingOpen := fun f hf => h.pendingOpen f (hmem hf), liveOpen := ?_, found := ?_, unique := ?_ }
    · intro b f v number hk
      rw [hkey] at hk
      split at hk
      · obtain ⟨hf, _⟩ := Prod.mk.inj (Option.some.inj hk)
        rw [← hf, hplace.1]
        exact ⟨h.pendingOpen fd hwaited, hgone⟩
      · obtain ⟨hopen, hwaits⟩ := h.liveOpen hk
        exact ⟨hopen, fun hf => hwaits (hmem hf)⟩
    · intro b f v number hk
      rw [hkey] at hk
      rw [hlookup]
      split at hk
      · rename_i hb
        simp only [Option.map_some, Option.some.injEq, Prod.mk.injEq] at hk
        rw [if_pos ⟨hk.2.1.symm.trans hplace.2, hk.1.symm.trans hplace.1⟩, hb]
        rfl
      · rw [if_neg]
        · exact h.found hk
        · rintro ⟨-, rfl⟩
          exact (h.liveOpen hk).2 hwaited
    · intro a b f v v' m n ha hb
      -- the descriptor waited, so no connection had it before
      have hfirst {c u i} (hc : s.key c = some (fd, u, i)) : False := (h.liveOpen hc).2 hwaited
      rw [hkey] at ha hb
      split at ha <;> split at hb
      · rename_i haddr haddr'
        rw [haddr, haddr']
      · obtain ⟨hf, _⟩ := Prod.mk.inj (Option.some.inj ha)
        rw [← hf, hplace.1] at hb
        exact (hfirst hb).elim
      · obtain ⟨hf, _⟩ := Prod.mk.inj (Option.some.inj hb)
        rw [← hf, hplace.1] at ha
        exact (hfirst ha).elim
      · exact h.unique ha hb

end Descriptors

section Run
variable {s : System}

theorem Described.step (h : s.Described) (e : Event) (hroomy : s.Roomy e) : (s.step e).Described := by
  cases e with
  | accept fd => exact h.dispatchNewConn fd
  | newConn w addr => exact h.handleNewConn hroomy
  | readable addr arrival => exact h.settles (h.toTabled.settles_readQuery addr arrival)
  | timeout addr => exact h.settles (settles_processTimeout s addr)
  | answer i failed sdp => exact h.unmoved (unmoved_answer s i failed sdp)
  | lose i => exact h.unmoved ⟨⟨rfl, rfl, rfl, rfl⟩, rfl, rfl⟩
  | rtcMsg w => exact h.unmoved (h.toTabled.unmoved_processRtcMsg w)
  | writable addr written failed => exact h.settles (h.toTabled.settles_writeReply addr written failed)

/-- A table that is as large as the descriptor is used behind its end. -/
theorem outside_of_not_roomy {e : Event} (hroomy : ¬ s.Roomy e) : (s.step e).outside = true := by
  cases e with
  | newConn w addr =>
    simp only [Roomy, not_forall, not_not] at hroomy
    obtain ⟨worker, fd, hw, hhead, hfree, hfd⟩ := hroomy
    obtain ⟨qConn, hq⟩ := List.head?_eq_some_iff.mp hhead
    have hsame : grown worker fd = worker.conns := if_neg (by omega)
    refine (congrArg System.outside (handleNewConn_eq hw hq hfree)).trans ?_
    rw [hsame]
    simp [hfd]
  | _ => exact absurd trivial hroomy

theorem described_init (workerNum : ℕ) : (init workerNum).Described := by
  have hpending : (init workerNum).pending = [] := by
    refine List.flatMap_eq_nil_iff.mpr fun worker hmem => ?_
    rw [List.eq_of_mem_replicate hmem]
  have htabled := (sound_init workerNum).toTabled
  refine { toTabled := htabled, openOnce := List.nodup_nil, pendingOnce := ?_, pendingOpen := ?_, liveOpen := ?_, found := ?_,
           unique := ?_ }
  · rw [hpending]
    exact List.nodup_nil
  · intro fd hmem
    rw [hpending] at hmem
    cases hmem
  · intro addr f w number hk
    cases hk
  · intro addr f w number hk
    cases hk
  · intro a b f v w m n hk
    cases hk

/-- Along a run every table is used inside and has the live connections, exactly if no
descriptor meets a table of its size. -/
theorem inOrder_iff_roomy (workerNum : ℕ) (es : List Event) :
    Runs.AllAfter step InOrder (init workerNum) es ↔ Runs.Along step Roomy (init workerNum) es := by
  have hiff (s : System) (e : Event) (hs : s.Described) : (s.step e).InOrder ↔ s.Roomy e := by
    constructor
    · intro horder
      by_contra hroomy
      have houtside := outside_of_not_roomy hroomy
      rw [horder.inside] at houtside
      cases houtside
    · exact fun hroomy => (hs.step e hroomy).inOrder
  exact @Runs.along_iff _ _ step Described Roomy (fun s e => (s.step e).InOrder) (fun _ e hs he => Described.step hs e he)
    hiff _ (described_init workerNum) es

/-- The table has 40 entries after the descriptor 20, and gets the descriptor 40. -/
theorem tableOfSize_outside : ¬ Runs.AllAfter step InOrder (init 1)
    [.accept 20, .newConn 0 4096, .accept 40, .newConn 0 8192] := by
  intro h
  have houtside := h.2.2.2.1.inside
  revert houtside
  decide

end Run

end System

end Signaling
end XrtcServer
