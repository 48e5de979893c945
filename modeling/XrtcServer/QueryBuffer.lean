import XrtcServer.ByteFormat
import XrtcServer.Loops
import XrtcServer.Runs

/-! A signaling connection: what `read_query` reads goes to the end of a growing string,
and `_process_query_buffer` takes the header and the body of a request from its front. -/
namespace XrtcServer
namespace Signaling
open ByteFormat

def xheadSize : ℕ := 36
def xheadMagicNum : ℕ := 0xfb202212
def sdsMaxPrealloc : ℕ := 1024 * 1024

/-- A conversion to `int`, and one to `size_t`. -/
def toInt32 (n : ℤ) : ℤ := n.bmod (2^32)
def toSizeT (n : ℤ) : ℕ := (n % 2^64).toNat

/-- A little-endian field of four bytes. -/
def getLE32 (buf : Bytes) (pos : ℕ) : ℕ := beNat ((buf.drop pos).take 4).reverse

/-- Two fields of `xhead_t`. -/
def magicNum (buf : Bytes) : ℕ := getLE32 buf 24
def bodyLen (buf : Bytes) : ℕ := getLE32 buf 32

/-- A string of `sds`; the field `len` is the number of its bytes. -/
structure Sds where
  buf : Bytes := []
  free : ℤ := 0

/-- The allocator gives every size that a difference of pointers can have. Without
memory the process is aborted. -/
def Sds.makeRoomFor (s : Sds) (addlen : ℕ) : Option Sds :=
  if addlen ≤ toSizeT s.free then some s
  else
    let newlen := (s.buf.length + addlen) % 2^64
    let newlen := if newlen < sdsMaxPrealloc then newlen * 2 else (newlen + sdsMaxPrealloc) % 2^64
    if newlen + 9 < 2^63 then some { s with free := toInt32 (newlen - s.buf.length) } else none

/-- Without a result one of the two `int` fields overflows. -/
def Sds.incrLen (s : Sds) (bs : Bytes) : Option Sds :=
  if s.buf.length + bs.length < 2^31 ∧ -2^31 ≤ s.free - bs.length then
    some { buf := s.buf ++ bs, free := s.free - bs.length }
  else none

/-- What the socket of a readable connection has. -/
inductive ReadEvent
  | available (b : UInt8) (bs : Bytes)
  | wouldBlock
  | closedByPeer
  | failed

/-- No result stands for -1. A read of no bytes returns 0 as at the end of the stream,
a read of more bytes than `ssize_t` counts fails. -/
def sockReadData (len : ℕ) (e : ReadEvent) : Option Bytes :=
  if len = 0 ∨ 2^63 ≤ len then none
  else
    match e with
    | .available b bs => some ((b :: bs).take len)
    | .wouldBlock => some []
    | .closedByPeer => none
    | .failed => none

inductive ConnState
  | head | body
  deriving DecidableEq, Repr

/-- How a connection stands: `aborted` when memory ran out, `undefined` after an `int`
overflow, `diverged` when a loop does not end. -/
inductive Status
  | running | closed | aborted | undefined | diverged
  deriving DecidableEq, Repr

/-- A connection with the state of the worker that processes its requests. The bytes
that were read and the requests that were processed are recorded. -/
structure Session (σ : Type*) where
  querybuf : Sds := {}
  bytesExpected : ℕ := xheadSize
  bytesProcessed : ℕ := 0
  currentState : ConnState := .head
  worker : σ
  received : Bytes := []
  requests : List (Bytes × Bytes) := []
  status : Status := .running

namespace Session
variable {σ : Type*} (processRequest : σ → Bytes → Bytes → ℤ × σ)

/-- One turn of the loop in `_process_query_buffer`. -/
def iteration (t : Session σ) : (ℤ × Session σ) ⊕ Session σ :=
  let buf := t.querybuf.buf
  if t.bytesProcessed + t.bytesExpected ≤ buf.length then
    match t.currentState with
    | .head =>
      if magicNum buf ≠ xheadMagicNum then .inl (-1, t)
      else .inr { t with currentState := .body, bytesProcessed := xheadSize, bytesExpected := bodyLen buf }
    | .body =>
      let header := buf.take xheadSize
      let body := (buf.drop xheadSize).take (bodyLen buf)
      let (ret, worker) := processRequest t.worker header body
      let t := { t with worker, requests := t.requests ++ [(header, body)] }
      if ret ≠ 0 then .inl (-1, t) else .inr { t with bytesProcessed := 65535 }
  else .inl (0, t)

def processQueryBuffer (t : Session σ) : Option (ℤ × Session σ) :=
  Loops.result (iteration processRequest) t

/-- The end of `read_query`. -/
def settle (t : Session σ) : Session σ :=
  match processQueryBuffer processRequest t with
  | none => { t with status := .diverged }
  | some (ret, t) => if ret ≠ 0 then { t with status := .closed } else t

/-- `read_len` as a `size_t`. -/
def readLen (t : Session σ) : ℕ := toSizeT (toInt32 t.bytesExpected)

def readQuery (t : Session σ) (e : ReadEvent) : Session σ :=
  if t.status = .running then
    match t.querybuf.makeRoomFor t.readLen with
    | none => { t with status := .aborted }
    | some querybuf =>
      match sockReadData t.readLen e with
      | none => { t with status := .closed }
      | some [] => settle processRequest { t with querybuf }
      | some (b :: bs) =>
        match querybuf.incrLen (b :: bs) with
        | none => { t with status := .undefined }
        | some querybuf =>
          settle processRequest { t with querybuf, received := t.received ++ b :: bs }
  else t

/-- A new connection. -/
def start (worker : σ) : Session σ := { worker }

/-- The request that a stream of bytes starts with. -/
def request (stream : Bytes) : Bytes × Bytes :=
  (stream.take xheadSize, (stream.drop xheadSize).take (bodyLen stream))

/-- The stream has all bytes of its request. -/
def Complete (stream : Bytes) : Prop := xheadSize + bodyLen stream ≤ stream.length

/-- Every loop ended, nothing undefined happened, and no request was processed but the
one that the stream starts with, that one at most once and as a whole. -/
structure OneRequest (t : Session σ) : Prop where
  ends : t.status ≠ .diverged
  defined : t.status ≠ .undefined
  once : t.requests = [] ∨ Complete t.received ∧ t.requests = [request t.received]

/-- As long as the client sends, a connection with the right magic number stays until its
request is complete, which is then processed. -/
def Served (s : Session σ) (e : ReadEvent) : Prop :=
  ∀ b bs, s.status = .running → e = .available b bs → s.requests = [] →
    let t := readQuery processRequest s e
    t.requests = [] → xheadSize ≤ t.received.length ∧ magicNum t.received ≠ xheadMagicNum ∨
      t.status = .running ∧ (t.received.length < xheadSize ∨ ¬Complete t.received)

/-- The bytes that a read gets, with the string that has room for them. -/
def reads (t : Session σ) (e : ReadEvent) : Option (Sds × Bytes) :=
  if t.status = .running then
    (t.querybuf.makeRoomFor t.readLen).bind fun querybuf =>
      (sockReadData t.readLen e).map fun bs => (querybuf, bs)
  else none

/-- In the body state and with so many bytes the loop comes to a second request, unless
this is the first and it is refused. -/
def Once (t : Session σ) (stream : Bytes) : Prop :=
  t.currentState = .body → 65535 + t.bytesExpected ≤ stream.length →
    t.bytesProcessed = xheadSize ∧
      (processRequest t.worker (request stream).1 (request stream).2).1 ≠ 0

/-- The bytes that are read fit the `int` fields and do not bring a second request. -/
structure Harmless (t : Session σ) (e : ReadEvent) : Prop where
  fits : ∀ q bs, t.reads e = some (q, bs) → bs ≠ [] →
    q.buf.length + bs.length < 2^31 ∧ -2^31 ≤ q.free - bs.length
  once : ∀ q bs, t.reads e = some (q, bs) → Once processRequest t (t.received ++ bs)

/-- The length that the client gave its body is an `int`. -/
def ShortBody (t : Session σ) (e : ReadEvent) : Prop :=
  ∀ b bs, t.status = .running → e = .available b bs → t.requests = [] → t.bytesExpected < 2^31

/-! The string. -/

theorem toSizeT_of_lt {n : ℕ} (h : n < 2^31) : toSizeT (toInt32 n) = n := by
  unfold toSizeT toInt32
  rw [Int.bmod_eq_of_le (by omega) (by omega)]
  omega

theorem toSizeT_of_ge {n : ℕ} (h₁ : 2^31 ≤ n) (h₂ : n < 2^32) : 2^63 ≤ toSizeT (toInt32 n) := by
  unfold toSizeT toInt32
  have hb : (n : ℤ).bmod (2^32) = n - 2^32 := by
    rw [Int.bmod_def]
    omega
  rw [hb]
  omega

theorem makeRoomFor_buf {s q : Sds} {addlen : ℕ} (h : s.makeRoomFor addlen = some q) :
    q.buf = s.buf := by
  simp only [Sds.makeRoomFor] at h
  split_ifs at h <;> exact (Option.some.inj h) ▸ rfl

theorem incrLen_of_fits {s : Sds} {bs : Bytes}
    (h : s.buf.length + bs.length < 2^31 ∧ -2^31 ≤ s.free - bs.length) :
    s.incrLen bs = some { buf := s.buf ++ bs, free := s.free - bs.length } := if_pos h

theorem incrLen_of_not_fits {s : Sds} {bs : Bytes}
    (h : ¬(s.buf.length + bs.length < 2^31 ∧ -2^31 ≤ s.free - bs.length)) :
    s.incrLen bs = none := if_neg h

theorem makeRoomFor_isSome {s : Sds} {addlen : ℕ} (hs : s.buf.length < 2^31)
    (ha : addlen < 2^31) : ∃ q, s.makeRoomFor addlen = some q := by
  unfold Sds.makeRoomFor sdsMaxPrealloc
  by_cases hfree : addlen ≤ toSizeT s.free
  · exact ⟨s, if_pos hfree⟩
  · have hsum : (s.buf.length + addlen) % 2^64 = s.buf.length + addlen := Nat.mod_eq_of_lt (by omega)
    rw [if_neg hfree, hsum]
    refine ⟨_, if_pos ?_⟩
    split
    · omega
    · have hmod := Nat.mod_le (s.buf.length + addlen + 1024 * 1024) (2^64)
      omega

theorem sockReadData_long {len : ℕ} (h : 2^63 ≤ len) (e : ReadEvent) :
    sockReadData len e = none := by
  unfold sockReadData
  exact if_pos (Or.inr h)

theorem sockReadData_available {len : ℕ} (h₀ : len ≠ 0) (h : len < 2^63) (b : UInt8) (bs : Bytes) :
    sockReadData len (.available b bs) = some ((b :: bs).take len) := by
  unfold sockReadData
  exact if_neg (not_or.mpr ⟨h₀, Nat.not_le.mpr h⟩)

theorem sockReadData_length {len : ℕ} {e : ReadEvent} {bs : Bytes}
    (h : sockReadData len e = some bs) : bs.length ≤ len := by
  unfold sockReadData at h
  split at h
  · cases h
  · cases e with
    | available b bs' =>
      obtain rfl := Option.some.inj h
      exact List.length_take_le ..
    | wouldBlock =>
      obtain rfl := Option.some.inj h
      exact Nat.zero_le _
    | closedByPeer => cases h
    | failed => cases h

theorem getLE32_append {buf : Bytes} {pos : ℕ} (h : pos + 4 ≤ buf.length) (bs : Bytes) :
    getLE32 (buf ++ bs) pos = getLE32 buf pos := by
  unfold getLE32
  rw [List.drop_append_of_le_length (by omega), List.take_append_of_le_length]
  rw [List.length_drop]
  omega

theorem bodyLen_append {buf : Bytes} (h : xheadSize ≤ buf.length) (bs : Bytes) :
    bodyLen (buf ++ bs) = bodyLen buf := getLE32_append h bs

theorem magicNum_append {buf : Bytes} (h : xheadSize ≤ buf.length) (bs : Bytes) :
    magicNum (buf ++ bs) = magicNum buf :=
  getLE32_append (Nat.le_trans (by decide) h) bs

theorem bodyLen_lt (buf : Bytes) : bodyLen buf < 2^32 := by
  have hlt := beNat_lt ((buf.drop 32).take 4).reverse
  have hle : ((buf.drop 32).take 4).reverse.length ≤ 4 := by simp
  exact lt_of_lt_of_le hlt (Nat.pow_le_pow_right (by decide) hle)

/-- A complete request does not change with what follows. -/
theorem request_append {stream : Bytes} (h : Complete stream) (bs : Bytes) :
    Complete (stream ++ bs) ∧ request (stream ++ bs) = request stream := by
  unfold Complete at h
  have hhead : xheadSize ≤ stream.length := by omega
  refine ⟨?_, ?_⟩
  · rw [Complete, bodyLen_append hhead, List.length_append]
    omega
  · rw [request, request, bodyLen_append hhead, List.take_append_of_le_length hhead,
      List.drop_append_of_le_length hhead, List.take_append_of_le_length]
    rw [List.length_drop]
    omega

/-! The loop. -/

section Loop
variable {processRequest}
variable {t : Session σ}

theorem iteration_idle (h : t.querybuf.buf.length < t.bytesProcessed + t.bytesExpected) :
    iteration processRequest t = .inl (0, t) := by
  unfold iteration
  rw [if_neg (Nat.not_le.mpr h)]

variable (processRequest) in
theorem iteration_head (h : t.bytesProcessed + t.bytesExpected ≤ t.querybuf.buf.length)
    (hs : t.currentState = .head) :
    iteration processRequest t =
      if magicNum t.querybuf.buf ≠ xheadMagicNum then .inl (-1, t)
      else .inr { t with currentState := .body, bytesProcessed := xheadSize, bytesExpected := bodyLen t.querybuf.buf } := by
  unfold iteration
  rw [if_pos h, hs]

/-- The connection after its request was handed to the worker, and then after it was
answered. -/
def processed (t : Session σ) (worker : σ) : Session σ :=
  { t with worker, requests := t.requests ++ [request t.querybuf.buf] }

def answered (t : Session σ) (worker : σ) : Session σ :=
  { t.processed worker with bytesProcessed := 65535 }

@[simp] theorem requests_processed (worker : σ) :
    (t.processed worker).requests = t.requests ++ [request t.querybuf.buf] := rfl
@[simp] theorem requests_answered (worker : σ) :
    (t.answered worker).requests = t.requests ++ [request t.querybuf.buf] := rfl

variable (processRequest) in
theorem iteration_body (h : t.bytesProcessed + t.bytesExpected ≤ t.querybuf.buf.length)
    (hs : t.currentState = .body) :
    iteration processRequest t =
      let result := processRequest t.worker (request t.querybuf.buf).1 (request t.querybuf.buf).2
      if result.1 ≠ 0 then .inl (-1, t.processed result.2)
      else .inr (t.answered result.2) := by
  cases t
  cases hs
  exact if_pos h

theorem settle_idle (h : t.querybuf.buf.length < t.bytesProcessed + t.bytesExpected) :
    settle processRequest t = t := by
  have hresult : processQueryBuffer processRequest t = some (0, t) :=
    Loops.result_leave (iteration_idle h)
  rw [settle, hresult]
  rfl

/-- A header and less than its body. -/
theorem settle_head (h : t.bytesProcessed + t.bytesExpected ≤ t.querybuf.buf.length)
    (hs : t.currentState = .head) (hm : magicNum t.querybuf.buf = xheadMagicNum)
    (hw : t.querybuf.buf.length < xheadSize + bodyLen t.querybuf.buf) :
    settle processRequest t =
      { t with currentState := .body, bytesProcessed := xheadSize, bytesExpected := bodyLen t.querybuf.buf } := by
  set t' : Session σ :=
    { t with currentState := .body, bytesProcessed := xheadSize, bytesExpected := bodyLen t.querybuf.buf }
  have hiter : iteration processRequest t = .inr t' := by
    rw [iteration_head processRequest h hs, if_neg (not_not.mpr hm)]
  have hresult : processQueryBuffer processRequest t = some (0, t') :=
    (Loops.result_again hiter).trans (Loops.result_leave (iteration_idle hw))
  rw [settle, hresult]
  rfl

/-- A turn takes no request back. -/
theorem iteration_requests (n : ℕ) (hn : n ≤ t.requests.length) :
    (∀ t', iteration processRequest t = .inr t' → n ≤ t'.requests.length) ∧
      ∀ r, iteration processRequest t = .inl r → n ≤ r.2.requests.length := by
  by_cases h : t.bytesProcessed + t.bytesExpected ≤ t.querybuf.buf.length
  · have happend : ∀ worker, n ≤ (t.requests ++ [worker]).length := fun worker =>
      Nat.le_trans hn (by simp)
    cases hs : t.currentState with
    | head =>
      rw [iteration_head processRequest h hs]
      split
      · exact ⟨fun _ h => (nomatch h), fun _ h => Sum.inl.inj h ▸ hn⟩
      · exact ⟨fun _ h => Sum.inr.inj h ▸ hn, fun _ h => (nomatch h)⟩
    | body =>
      rw [iteration_body processRequest h hs]
      dsimp only
      split
      · exact ⟨fun _ h => (nomatch h), fun _ h => Sum.inl.inj h ▸ happend _⟩
      · exact ⟨fun _ h => Sum.inr.inj h ▸ happend _, fun _ h => (nomatch h)⟩
  · rw [iteration_idle (Nat.not_le.mp h)]
    exact ⟨fun _ h => (nomatch h), fun _ h => Sum.inl.inj h ▸ hn⟩

theorem processQueryBuffer_requests {n : ℕ} (hn : n ≤ t.requests.length) {r : ℤ × Session σ}
    (hr : processQueryBuffer processRequest t = some r) : n ≤ r.2.requests.length :=
  Loops.result_post (I := fun t => n ≤ t.requests.length) (Q := fun r => n ≤ r.2.requests.length)
    (fun _ t' hn ht => (iteration_requests n hn).1 t' ht)
    (fun _ r hn ht => (iteration_requests n hn).2 r ht) hn hr

/-- In the body state a turn processes a request. -/
theorem body_requests (h : t.bytesProcessed + t.bytesExpected ≤ t.querybuf.buf.length)
    (hs : t.currentState = .body) {r : ℤ × Session σ}
    (hr : processQueryBuffer processRequest t = some r) :
    t.requests.length + 1 ≤ r.2.requests.length := by
  have hiter := iteration_body processRequest h hs
  dsimp only at hiter
  have hlength : ∀ worker, t.requests.length + 1 ≤ (t.processed worker).requests.length := by
    simp
  split at hiter
  · rw [processQueryBuffer, Loops.result_leave hiter] at hr
    exact Option.some.inj hr ▸ hlength _
  · rw [processQueryBuffer, Loops.result_again hiter] at hr
    exact processQueryBuffer_requests (by simp) hr

/-- Where a connection stands between header and body: which bytes it waits for and
whether its request was processed. -/
def Phase (t : Session σ) : Prop :=
  match t.currentState with
  | .head => t.bytesProcessed = 0 ∧ t.bytesExpected = xheadSize ∧ t.requests = [] ∧
    t.received.length < 2 * xheadSize
  | .body => xheadSize ≤ t.received.length ∧ magicNum t.received = xheadMagicNum ∧
    t.bytesExpected = bodyLen t.received ∧
    (t.bytesProcessed = xheadSize ∧ t.requests = [] ∨
      t.bytesProcessed = 65535 ∧ Complete t.received ∧ t.requests = [request t.received])

/-- A connection before its buffer is processed. -/
structure Ready (t : Session σ) : Prop where
  running : t.status = .running
  buffer : t.querybuf.buf = t.received
  short : t.received.length < 2^31
  phase : t.Phase

/-- A connection that waits for more bytes. -/
structure Idle (t : Session σ) : Prop extends Ready t where
  waits : t.received.length < t.bytesProcessed + t.bytesExpected

/-- What the processing of the buffer may come to. -/
structure Outcome (t : Session σ) (ret : ℤ) (t' : Session σ) : Prop where
  running : t'.status = .running
  received : t'.received = t.received
  once : t'.requests = [] ∨ Complete t.received ∧ t'.requests = [request t.received]
  idle : ret = 0 → t'.Idle
  served : t'.requests = [] → xheadSize ≤ t.received.length ∧ magicNum t.received ≠ xheadMagicNum ∨
    ret = 0 ∧ (t.received.length < xheadSize ∨ ¬Complete t.received)

theorem Phase.body (h : t.Phase) (hs : t.currentState = .body) :
    xheadSize ≤ t.received.length ∧ magicNum t.received = xheadMagicNum ∧
      t.bytesExpected = bodyLen t.received ∧
      (t.bytesProcessed = xheadSize ∧ t.requests = [] ∨
        t.bytesProcessed = 65535 ∧ Complete t.received ∧ t.requests = [request t.received]) := by
  rw [Phase, hs] at h
  exact h

theorem Phase.head (h : t.Phase) (hs : t.currentState = .head) :
    t.bytesProcessed = 0 ∧ t.bytesExpected = xheadSize ∧ t.requests = [] ∧
      t.received.length < 2 * xheadSize := by
  rw [Phase, hs] at h
  exact h

/-- A connection that waits is left as it is. -/
theorem Idle.outcome (h : t.Idle) :
    processQueryBuffer processRequest t = some (0, t) ∧ Outcome t 0 t := by
  refine ⟨Loops.result_leave (iteration_idle (h.buffer ▸ h.waits)), h.running, rfl, ?_, fun _ => h, ?_⟩
  · cases hs : t.currentState with
    | head => exact Or.inl (h.phase.head hs).2.2.1
    | body =>
      obtain ⟨-, -, -, ⟨-, hr⟩ | ⟨-, hr⟩⟩ := h.phase.body hs
      · exact Or.inl hr
      · exact Or.inr hr
  · intro hr
    have hwaits := h.waits
    cases hs : t.currentState with
    | head =>
      obtain ⟨hp, he, -⟩ := h.phase.head hs
      exact Or.inr ⟨rfl, Or.inl (by omega)⟩
    | body =>
      obtain ⟨-, -, he, ⟨hp, -⟩ | ⟨-, -, hr'⟩⟩ := h.phase.body hs
      · refine Or.inr ⟨rfl, Or.inr fun hc => ?_⟩
        rw [Complete] at hc
        omega
      · rw [hr] at hr'
        cases hr'

/-- From the body state, with no second request. -/
theorem Ready.body_outcome (h : t.Ready) (hs : t.currentState = .body)
    (ho : Once processRequest t t.received) :
    ∃ ret t', processQueryBuffer processRequest t = some (ret, t') ∧ Outcome t ret t' := by
  obtain ⟨hhead, hmagic, hexpected, hphase⟩ := h.phase.body hs
  by_cases hw : t.received.length < t.bytesProcessed + t.bytesExpected
  · exact ⟨0, t, Idle.outcome ⟨h, hw⟩⟩
  · rcases hphase with ⟨hp, hr⟩ | ⟨hp, hc, hr⟩
    · have hcomplete : Complete t.received := by
        rw [Complete]
        omega
      have hiter := iteration_body processRequest (h.buffer ▸ Nat.not_lt.mp hw) hs
      rw [h.buffer] at hiter
      dsimp only at hiter
      set result := processRequest t.worker (request t.received).1 (request t.received).2 with hresult
      have hrequests : (t.processed result.2).requests = [request t.received] := by
        simp [hr, h.buffer]
      by_cases hret : result.1 ≠ 0
      · rw [if_pos hret] at hiter
        refine ⟨-1, _, Loops.result_leave hiter, h.running, rfl, Or.inr ⟨hcomplete, hrequests⟩, ?_, ?_⟩
        · exact fun he => nomatch he
        · exact fun he => nomatch hrequests.symm.trans he
      · rw [if_neg hret] at hiter
        set t' := t.answered result.2 with ht'
        have hidle : t'.Idle := by
          refine ⟨⟨h.running, h.buffer, h.short, ?_⟩, ?_⟩
          · rw [Phase, show t'.currentState = .body from hs]
            exact ⟨hhead, hmagic, hexpected, Or.inr ⟨rfl, hcomplete, hrequests⟩⟩
          · show t.received.length < 65535 + t.bytesExpected
            by_contra hlong
            exact hret (ho hs (Nat.not_lt.mp hlong)).2
        refine ⟨0, t', (Loops.result_again hiter).trans hidle.outcome.1, h.running, rfl, ?_, ?_, ?_⟩
        · exact Or.inr ⟨hcomplete, hrequests⟩
        · exact fun _ => hidle
        · exact fun he => nomatch hrequests.symm.trans he
    · have hp' := (ho hs (by omega)).1
      rw [hp] at hp'
      cases hp'

/-- From any state, with no second request. -/
theorem Ready.outcome (h : t.Ready) (ho : Once processRequest t t.received) :
    ∃ ret t', processQueryBuffer processRequest t = some (ret, t') ∧ Outcome t ret t' := by
  cases hs : t.currentState with
  | body => exact h.body_outcome hs ho
  | head =>
    obtain ⟨hp, he, hr, hlong⟩ := h.phase.head hs
    by_cases hw : t.received.length < xheadSize
    · exact ⟨0, t, Idle.outcome ⟨h, by omega⟩⟩
    · have hbuf : t.bytesProcessed + t.bytesExpected ≤ t.querybuf.buf.length := by
        rw [h.buffer]
        omega
      have hiter := iteration_head processRequest hbuf hs
      rw [h.buffer] at hiter
      by_cases hmagic : magicNum t.received = xheadMagicNum
      · rw [if_neg (not_not.mpr hmagic)] at hiter
        set t₁ : Session σ :=
          { t with currentState := .body, bytesProcessed := xheadSize, bytesExpected := bodyLen t.received } with ht₁
        have hready : t₁.Ready :=
          ⟨h.running, h.buffer, h.short, Nat.not_lt.mp hw, hmagic, rfl, Or.inl ⟨rfl, hr⟩⟩
        have honce : Once processRequest t₁ t₁.received := fun _ hlong' =>
          absurd (Nat.le_trans (Nat.le_add_right _ _) hlong')
            (Nat.not_le.mpr (Nat.lt_trans hlong (by decide)))
        obtain ⟨ret, t', ht', hout⟩ := hready.body_outcome rfl honce
        exact ⟨ret, t', (Loops.result_again hiter).trans ht', hout.running, hout.received, hout.once,
          hout.idle, hout.served⟩
      · rw [if_pos hmagic] at hiter
        exact ⟨-1, t, Loops.result_leave hiter, h.running, rfl, Or.inl hr, fun he => (nomatch he),
          fun _ => Or.inl ⟨Nat.not_lt.mp hw, hmagic⟩⟩

/-- A second request is processed. -/
theorem Ready.repeats (h : t.Ready) (ho : ¬Once processRequest t t.received) {r : ℤ × Session σ}
    (hr : processQueryBuffer processRequest t = some r) : 2 ≤ r.2.requests.length := by
  simp only [Once, not_forall] at ho
  obtain ⟨hs, hlong, hret⟩ := ho
  obtain ⟨hhead, -, hexpected, hphase⟩ := h.phase.body hs
  have hbuf : 65535 + t.bytesExpected ≤ t.querybuf.buf.length := h.buffer ▸ hlong
  rcases hphase with ⟨hp, hr'⟩ | ⟨hp, -, hr'⟩
  · have hiter := iteration_body processRequest
      (show t.bytesProcessed + t.bytesExpected ≤ t.querybuf.buf.length by rw [hp, xheadSize]; omega) hs
    rw [h.buffer] at hiter
    dsimp only at hiter
    rw [if_neg fun hne => hret ⟨hp, hne⟩] at hiter
    rw [processQueryBuffer, Loops.result_again hiter] at hr
    have hlength := body_requests (t := t.answered _) hbuf hs hr
    have hone : ∀ worker, (t.answered worker).requests.length = 1 := by
      simp [hr']
    rw [hone] at hlength
    exact hlength
  · have hlength := body_requests (hp ▸ hbuf) hs hr
    rw [hr'] at hlength
    exact hlength

/-- A connection of which nothing wrong is known. -/
structure Sound (t : Session σ) : Prop where
  one : t.OneRequest
  idle : t.status = .running → t.Idle

theorem Ready.settle_sound (h : t.Ready) (ho : Once processRequest t t.received) :
    (settle processRequest t).Sound ∧ (settle processRequest t).received = t.received ∧
      ((settle processRequest t).requests = [] →
        xheadSize ≤ t.received.length ∧ magicNum t.received ≠ xheadMagicNum ∨
          (settle processRequest t).status = .running ∧
            (t.received.length < xheadSize ∨ ¬Complete t.received)) := by
  obtain ⟨ret, t', ht', hout⟩ := h.outcome ho
  have hsettle : settle processRequest t = if ret ≠ 0 then { t' with status := .closed } else t' := by
    rw [settle, ht']
  rw [hsettle]
  have honce := hout.once
  rw [← hout.received] at honce
  by_cases hret : ret ≠ 0
  · rw [if_pos hret]
    refine ⟨⟨⟨nofun, nofun, honce⟩, nofun⟩, hout.received, fun hr => ?_⟩
    rcases hout.served hr with hmagic | hwaits
    · exact Or.inl hmagic
    · exact absurd hwaits.1 hret
  · rw [if_neg hret]
    have hrunning := hout.running
    refine ⟨⟨⟨?_, ?_, honce⟩, fun _ => hout.idle (not_not.mp hret)⟩, hout.received, fun hr => ?_⟩
    · rw [hrunning]
      exact nofun
    · rw [hrunning]
      exact nofun
    · exact (hout.served hr).imp_right fun hwaits => ⟨hrunning, hwaits.2⟩

theorem Ready.not_oneRequest (h : t.Ready) (ho : ¬Once processRequest t t.received) :
    ¬(settle processRequest t).OneRequest := by
  intro hone
  cases hr : processQueryBuffer processRequest t with
  | none =>
    have hends := hone.ends
    rw [settle, hr] at hends
    exact hends rfl
  | some r =>
    have htwo := h.repeats ho hr
    have honce := hone.once
    have hrequests : (settle processRequest t).requests = r.2.requests := by
      rw [settle, hr]
      dsimp only
      split <;> rfl
    rw [hrequests] at honce
    rcases honce with hnil | ⟨-, hsingle⟩
    · rw [hnil] at htwo
      cases htwo
    · rw [hsingle] at htwo
      exact Nat.not_succ_le_self 1 htwo

end Loop

/-! One read. -/

section Read
variable {processRequest}
variable {s : Session σ} {e : ReadEvent}

theorem readQuery_of_not_running (h : s.status ≠ .running) : readQuery processRequest s e = s := by
  rw [readQuery, if_neg h]

variable (processRequest) in
/-- A read that fails, or for which there is no memory. -/
theorem readQuery_of_reads_none (h : s.status = .running) (hr : s.reads e = none) :
    ∃ status, (status = .aborted ∨ status = .closed) ∧
      readQuery processRequest s e = { s with status } := by
  unfold readQuery
  rw [if_pos h]
  cases hq : s.querybuf.makeRoomFor s.readLen with
  | none => exact ⟨.aborted, Or.inl rfl, rfl⟩
  | some q =>
    cases hbs : sockReadData s.readLen e with
    | none => exact ⟨.closed, Or.inr rfl, rfl⟩
    | some bs =>
      rw [reads, if_pos h, hq, hbs] at hr
      cases hr

theorem reads_eq_some {q : Sds} {bs : Bytes} (hr : s.reads e = some (q, bs)) :
    s.status = .running ∧ s.querybuf.makeRoomFor s.readLen = some q ∧
      sockReadData s.readLen e = some bs := by
  unfold reads at hr
  split at hr
  · rename_i hs
    obtain ⟨q', hq, hr⟩ := Option.bind_eq_some_iff.mp hr
    obtain ⟨bs', hbs, hr⟩ := Option.map_eq_some_iff.mp hr
    obtain ⟨rfl, rfl⟩ := Prod.mk.inj hr
    exact ⟨hs, hq, hbs⟩
  · cases hr

variable (processRequest) in
/-- The bytes of a read go to the end of the string. -/
theorem readQuery_of_fits {q : Sds} {bs : Bytes} (hr : s.reads e = some (q, bs))
    (hf : bs ≠ [] → q.buf.length + bs.length < 2^31 ∧ -2^31 ≤ q.free - bs.length) :
    ∃ q' : Sds, q'.buf = q.buf ++ bs ∧ readQuery processRequest s e =
      settle processRequest { s with querybuf := q', received := s.received ++ bs } := by
  obtain ⟨hs, hq, hbs⟩ := reads_eq_some hr
  unfold readQuery
  rw [if_pos hs, hq, hbs]
  cases bs with
  | nil => exact ⟨q, (List.append_nil _).symm, by rw [List.append_nil]⟩
  | cons b bs =>
    refine ⟨{ buf := q.buf ++ b :: bs, free := q.free - (b :: bs).length }, rfl, ?_⟩
    simp only [incrLen_of_fits (hf (List.cons_ne_nil b bs))]

theorem readQuery_of_overflow {q : Sds} {bs : Bytes} (hr : s.reads e = some (q, bs))
    (hne : bs ≠ []) (hf : ¬(q.buf.length + bs.length < 2^31 ∧ -2^31 ≤ q.free - bs.length)) :
    (readQuery processRequest s e).status = .undefined := by
  obtain ⟨hs, hq, hbs⟩ := reads_eq_some hr
  unfold readQuery
  rw [if_pos hs, hq, hbs]
  cases bs with
  | nil => exact absurd rfl hne
  | cons b bs => simp only [incrLen_of_not_fits hf]

/-- Between two reads a connection takes up the new bytes. -/
theorem Idle.ready (h : s.Idle) {q q' : Sds} {bs : Bytes} (hr : s.reads e = some (q, bs))
    (hq' : q'.buf = q.buf ++ bs) (hf : bs ≠ [] → q.buf.length + bs.length < 2^31) :
    Ready { s with querybuf := q', received := s.received ++ bs } := by
  obtain ⟨-, hq, hbs⟩ := reads_eq_some hr
  have hbuf : q.buf = s.received := (makeRoomFor_buf hq).trans h.buffer
  refine ⟨h.running, by rw [hq', hbuf], ?_, ?_⟩
  · show (s.received ++ bs).length < 2^31
    by_cases hne : bs = []
    · rw [hne, List.append_nil]
      exact h.short
    · rw [List.length_append, ← hbuf]
      exact hf hne
  · unfold Phase
    cases hs : s.currentState with
    | head =>
      obtain ⟨hp, he, hreq, -⟩ := h.phase.head hs
      refine ⟨hp, he, hreq, ?_⟩
      have hwaits := h.waits
      have hlen := sockReadData_length hbs
      rw [readLen, he, toSizeT_of_lt (by decide)] at hlen
      show (s.received ++ bs).length < 2 * xheadSize
      rw [List.length_append]
      omega
    | body =>
      obtain ⟨hhead, hmagic, hexpected, hphase⟩ := h.phase.body hs
      refine ⟨?_, ?_, ?_, hphase.imp_right fun ⟨hp, hc, hreq⟩ => ⟨hp, ?_, ?_⟩⟩
      · exact Nat.le_trans hhead (by simp)
      · rw [magicNum_append hhead, hmagic]
      · rw [bodyLen_append hhead, hexpected]
      · exact (request_append hc bs).1
      · rw [(request_append hc bs).2]
        exact hreq

/-- A read of an `int` length gets what the socket has, up to that length. -/
theorem Idle.reads_available (h : s.Idle) (hpos : s.bytesExpected ≠ 0)
    (hshort : s.bytesExpected < 2^31) (b : UInt8) (bs : Bytes) :
    ∃ q, s.reads (.available b bs) = some (q, (b :: bs).take s.bytesExpected) := by
  have hlen : s.readLen = s.bytesExpected := toSizeT_of_lt hshort
  obtain ⟨q, hq⟩ := makeRoomFor_isSome (h.buffer ▸ h.short) hshort
  refine ⟨q, ?_⟩
  rw [reads, if_pos h.running, hlen, hq, sockReadData_available hpos (by omega)]
  rfl

/-- A harmless read leaves a sound connection sound. -/
theorem Sound.readQuery (h : s.Sound) (hc : Harmless processRequest s e) :
    (readQuery processRequest s e).Sound := by
  by_cases hs : s.status = .running
  · have hidle := h.idle hs
    cases hr : s.reads e with
    | none =>
      obtain ⟨status, hstatus, heq⟩ := readQuery_of_reads_none processRequest hs hr
      rw [heq]
      rcases hstatus with rfl | rfl
      · exact ⟨⟨nofun, nofun, h.one.once⟩, nofun⟩
      · exact ⟨⟨nofun, nofun, h.one.once⟩, nofun⟩
    | some p =>
      obtain ⟨q, bs⟩ := p
      obtain ⟨q', hq', heq⟩ := readQuery_of_fits processRequest hr (hc.fits q bs hr)
      rw [heq]
      have hready := hidle.ready hr hq' fun hne => (hc.fits q bs hr hne).1
      exact (hready.settle_sound (hc.once q bs hr)).1
  · rw [readQuery_of_not_running hs]
    exact h

/-- A read after which nothing is wrong was harmless. -/
theorem Sound.harmless (h : s.Sound) (hone : (Session.readQuery processRequest s e).OneRequest) :
    Harmless processRequest s e := by
  have hfits : ∀ q bs, s.reads e = some (q, bs) → bs ≠ [] →
      q.buf.length + bs.length < 2^31 ∧ -2^31 ≤ q.free - bs.length := by
    intro q bs hr hne
    by_contra hf
    exact hone.defined (readQuery_of_overflow hr hne hf)
  refine ⟨hfits, fun q bs hr => ?_⟩
  by_contra ho
  obtain ⟨q', hq', heq⟩ := readQuery_of_fits processRequest hr (hfits q bs hr)
  rw [heq] at hone
  have hready := (h.idle (reads_eq_some hr).1).ready hr hq' fun hne => (hfits q bs hr hne).1
  exact hready.not_oneRequest ho hone

/-- A client that sends is served as long as the read length is an `int`. -/
theorem Sound.served_iff (h : s.Sound) (hc : Harmless processRequest s e) :
    Served processRequest s e ↔ ShortBody s e := by
  refine ⟨fun hserved b bs hs he hreq => ?_, fun hshort b bs hs he hreq => ?_⟩
  · have hidle := h.idle hs
    by_contra hlong
    cases hst : s.currentState with
    | head =>
      rw [(hidle.phase.head hst).2.1] at hlong
      exact hlong (by decide)
    | body =>
      obtain ⟨-, hmagic, hexpected, -⟩ := hidle.phase.body hst
      have hlen : 2^63 ≤ s.readLen :=
        toSizeT_of_ge (Nat.not_lt.mp hlong) (hexpected ▸ bodyLen_lt s.received)
      have hnone : s.reads e = none := by
        rw [reads, if_pos hs, sockReadData_long hlen]
        cases s.querybuf.makeRoomFor s.readLen <;> rfl
      obtain ⟨status, hstatus, heq⟩ := readQuery_of_reads_none processRequest hs hnone
      have hnot := hserved b bs hs he hreq
      rw [heq] at hnot
      rcases hnot hreq with hbad | hrunning
      · exact hbad.2 hmagic
      · rcases hstatus with rfl | rfl <;> exact nomatch hrunning.1
  · have hidle := h.idle hs
    have hpos : s.bytesExpected ≠ 0 := by
      have hwaits := hidle.waits
      cases hst : s.currentState with
      | head =>
        rw [(hidle.phase.head hst).2.1]
        decide
      | body =>
        obtain ⟨hhead, -, -, ⟨hp, -⟩ | ⟨-, -, hreq'⟩⟩ := hidle.phase.body hst
        · omega
        · exact nomatch hreq.symm.trans hreq'
    obtain ⟨q, hr⟩ := hidle.reads_available hpos (hshort b bs hs he hreq) b bs
    rw [← he] at hr
    obtain ⟨q', hq', heq⟩ := readQuery_of_fits processRequest hr (hc.fits _ _ hr)
    have hready := hidle.ready hr hq' fun hne => (hc.fits _ _ hr hne).1
    obtain ⟨-, hreceived, hserved⟩ := hready.settle_sound (hc.once _ _ hr)
    show (Session.readQuery processRequest s e).requests = [] → _
    rw [heq, hreceived]
    exact hserved

/-- The one step of the two equivalences. -/
theorem Sound.oneRequest_iff (h : s.Sound) :
    (Session.readQuery processRequest s e).OneRequest ↔ Harmless processRequest s e :=
  ⟨h.harmless, fun hc => (h.readQuery hc).one⟩

end Read

theorem sound_start (worker : σ) : (start worker).Sound where
  one := ⟨nofun, nofun, Or.inl rfl⟩
  idle _ := ⟨⟨rfl, rfl, show 0 < 2^31 by decide, rfl, rfl, rfl, show 0 < 2 * xheadSize by decide⟩,
    show 0 < xheadSize by decide⟩

theorem Sound.along_oneRequest_iff {s : Session σ} (h : s.Sound) (es : List ReadEvent) :
    Runs.AllAfter (Session.readQuery processRequest) OneRequest s es ↔
      Runs.Along (Session.readQuery processRequest) (Harmless processRequest) s es :=
  Runs.along_iff (fun _ _ h hc => h.readQuery hc) (fun _ _ h => h.oneRequest_iff) h es

/-- Whatever a client sends and however it is cut: the loops end and at most the one
request that the stream starts with is processed exactly if all reads are harmless; and
it is also processed as soon as it is complete exactly if moreover its length is short. -/
theorem one_request_iff (worker : σ) (es : List ReadEvent) :
    (Runs.AllAfter (Session.readQuery processRequest) OneRequest (start worker) es ↔
      Runs.Along (Session.readQuery processRequest) (Harmless processRequest) (start worker) es) ∧
    (Runs.Along (Session.readQuery processRequest)
        (fun s e => (Session.readQuery processRequest s e).OneRequest ∧ Served processRequest s e)
        (start worker) es ↔
      Runs.Along (Session.readQuery processRequest)
        (fun s e => Harmless processRequest s e ∧ ShortBody s e) (start worker) es) := by
  refine ⟨(sound_start worker).along_oneRequest_iff processRequest es, ?_⟩
  refine Runs.along_iff (fun _ _ h hc => h.readQuery hc.1) (fun s e h => ?_) (sound_start worker) es
  rw [h.oneRequest_iff]
  exact and_congr_right fun hc => h.served_iff hc

/-- A header with the magic number and a body length of 65535. -/
def longHeader : Bytes :=
  List.replicate 24 0 ++ [0x12, 0x22, 0x20, 0xfb, 0, 0, 0, 0, 0xff, 0xff, 0, 0]

/-- The header, all of the body but a byte, and 65535 bytes more. -/
def trailingBytes : List ReadEvent :=
  [.available 0 longHeader.tail, .available 0 (List.replicate 65533 0),
   .available 0 (List.replicate 65534 0)]

/-- A connection that has its header and not yet its body. -/
def awaitingBody (querybuf : Sds) (received : Bytes) : Session Unit :=
  { querybuf, received, worker := (), currentState := .body, bytesProcessed := xheadSize, bytesExpected := 65535 }

/-- The bytes that follow the body bring the request up a second time. -/
theorem trailingBytes_repeat :
    ¬Runs.AllAfter (Session.readQuery fun (_ : Unit) _ _ => (0, ())) OneRequest (start ())
      trailingBytes := by
  rw [(sound_start ()).along_oneRequest_iff]
  rintro ⟨h₁, h₂, h₃, -⟩
  have hs₁ := (sound_start ()).readQuery h₁
  have hs₂ := hs₁.readQuery h₂
  set process : Unit → Bytes → Bytes → ℤ × Unit := fun _ _ _ => (0, ())
  -- the header makes the connection wait for its body
  have hheader : ∃ q, Session.readQuery process (start ()) (.available 0 longHeader.tail) =
      awaitingBody q longHeader := by
    obtain ⟨q, hr⟩ := ((sound_start ()).idle rfl).reads_available (by decide) (by decide) 0
      longHeader.tail
    obtain ⟨q', hq', heq⟩ := readQuery_of_fits process hr (h₁.fits _ _ hr)
    have hbuf : q'.buf = longHeader := by
      rw [hq', makeRoomFor_buf (reads_eq_some hr).2.1]
      decide
    refine ⟨q', heq.trans ?_⟩
    rw [settle_head]
    · simp only [hbuf]
      rfl
    all_goals
      simp only [hbuf]
      decide
  obtain ⟨q₁, heq₁⟩ := hheader
  rw [heq₁] at h₂ h₃ hs₁ hs₂
  have hint : (65535 : ℕ) ≠ 0 ∧ 65535 < 2^31 := by decide
  -- nearly all of the body leaves it waiting
  have hbody : ∃ q stream, stream.length = 65570 ∧
      Session.readQuery process (awaitingBody q₁ longHeader) (.available 0 (List.replicate 65533 0)) =
        awaitingBody q stream := by
    obtain ⟨q, hr⟩ := (hs₁.idle rfl).reads_available hint.1 hint.2 0 (List.replicate 65533 0)
    obtain ⟨q', hq', heq⟩ := readQuery_of_fits process hr (h₂.fits _ _ hr)
    have hlength : (longHeader ++ ((0 : UInt8) :: List.replicate 65533 0).take 65535).length = 65570 := by
      rw [List.length_append, List.length_take, List.length_cons, List.length_replicate]
      decide
    refine ⟨q', _, hlength, heq.trans (settle_idle ?_)⟩
    have hbuf : q.buf = longHeader :=
      (makeRoomFor_buf (reads_eq_some hr).2.1).trans (hs₁.idle rfl).buffer
    show q'.buf.length < xheadSize + 65535
    rw [hq', hbuf]
    exact hlength.trans_lt (by decide)
  obtain ⟨q₂, stream, hlength, heq₂⟩ := hbody
  rw [heq₂] at h₃ hs₂
  obtain ⟨q, hr⟩ := (hs₂.idle rfl).reads_available hint.1 hint.2 0 (List.replicate 65534 0)
  have hlong : 65535 + 65535 ≤ (stream ++ ((0 : UInt8) :: List.replicate 65534 0).take 65535).length := by
    rw [List.length_append, List.length_take, List.length_cons, List.length_replicate, hlength]
    decide
  exact (h₃.once _ _ hr rfl hlong).2 rfl

end Session
end Signaling
end XrtcServer
