import Mathlib.Algebra.BigOperators.Group.Finset.Basic
import Mathlib.Algebra.Order.BigOperators.Group.Finset
import XrtcServer.QueryBuffer

/-! How the replies in the list of a connection are written, in one or in several parts. What
the socket does at each call is up to the system. -/
namespace XrtcServer
namespace Signaling
open ByteFormat

/-- A reply starts with a header. -/
structure ReplySlice where
  data : Bytes
  header : xheadSize ≤ data.length

/-- The socket fails, or has room for a number of bytes, maybe none. -/
inductive WriteResult
  | error
  | room (n : ℕ)
  deriving DecidableEq

/-- The system writes no more bytes at once than an `int` counts. -/
def sockWriteData (len : ℕ) : WriteResult → ℤ
  | .error => -1
  | .room n => min n len

/-- The bytes that the socket has room for. -/
def WriteResult.capacity : WriteResult → ℕ
  | .error => 0
  | .room n => n

/-- `write` says that the WRITE event is active. For the record, `queued` has the bytes of all
replies, `sent` those that were written, `calls` the number of calls of `sock_write_data`. -/
structure ReplyWriter where
  replyList : List ReplySlice := []
  curRespPos : ℕ := 0
  write : Bool := false
  lastInteraction : ℕ := 0
  closed : Bool := false
  queued : Bytes := []
  sent : Bytes := []
  calls : ℕ := 0

namespace ReplyWriter

def addReply (c : ReplyWriter) (reply : ReplySlice) : ReplyWriter :=
  { c with replyList := c.replyList ++ [reply], write := true, queued := c.queued ++ reply.data }

/-- The body of the loop of `write_reply`, which leaves the loop or goes round. -/
def writeBody (results : ℕ → WriteResult) (c : ReplyWriter) : ReplyWriter ⊕ ReplyWriter :=
  match c.replyList with
  | [] => .inl c
  | reply :: list =>
    let nwritten := sockWriteData (reply.data.length - c.curRespPos) (results c.calls)
    let c := { c with calls := c.calls + 1, sent := c.sent ++ (reply.data.drop c.curRespPos).take nwritten.toNat }
    if nwritten = -1 then .inl { c with closed := true }
    else if nwritten = 0 then .inr c
    else if nwritten + c.curRespPos ≥ reply.data.length then .inr { c with replyList := list, curRespPos := 0 }
    else .inr { c with curRespPos := c.curRespPos + nwritten.toNat }

/-- No result stands for a call that does not return. -/
def writeReply (results : ℕ → WriteResult) (now : ℕ) (c : ReplyWriter) : Option ReplyWriter :=
  (Loops.result (writeBody results) c).map fun c =>
    if c.closed then c
    else { c with lastInteraction := now, write := c.write && !c.replyList.isEmpty }

inductive Event
  | addReply (reply : ReplySlice)
  | writable (now : ℕ)

/-- A worker that does not return from `write_reply` takes no more events. -/
def step (results : ℕ → WriteResult) : Option ReplyWriter → Event → Option ReplyWriter
  | none, _ => none
  | some c, .addReply reply => if c.closed then some c else some (c.addReply reply)
  | some c, .writable now => if c.closed ∨ c.write = false then some c else c.writeReply results now

/-- The bytes of the list that are still to be written. -/
def pending (c : ReplyWriter) : Bytes := (c.replyList.flatMap ReplySlice.data).drop c.curRespPos

/-- The position is in the first reply. -/
def Placed (c : ReplyWriter) : Prop :=
  match c.replyList with
  | [] => c.curRespPos = 0
  | reply :: _ => c.curRespPos < reply.data.length

/-- What is written is the beginning of what was queued, the rest is pending on an open connection,
and the list is watched. -/
structure Sound (c : ReplyWriter) : Prop where
  order : c.sent <+: c.queued
  bytes : c.closed = false → c.queued = c.sent ++ c.pending
  position : c.Placed
  active : c.closed = false → c.replyList ≠ [] → c.write = true

/-- The event is over, and after a writable event everything is written or the connection is
closed. -/
def Written (results : ℕ → WriteResult) (s : Option ReplyWriter) (e : Event) : Prop :=
  ∃ c, step results s e = some c ∧ c.Sound ∧ ∀ now, e = .writable now → c.closed = false → c.sent = c.queued

/-- The socket fails at some time, or has room again and again. -/
def Responsive (results : ℕ → WriteResult) : Prop :=
  (∃ n, results n = .error) ∨ ∀ n, ∃ m ≥ n, ∃ k, results m = .room (k + 1)

section Body
variable {results : ℕ → WriteResult} {c c' r : ReplyWriter}

theorem placed_nil (h : c.replyList = []) : c.Placed ↔ c.curRespPos = 0 := by
  rw [Placed, h]

theorem placed_cons {reply : ReplySlice} {list : List ReplySlice} (h : c.replyList = reply :: list) :
    c.Placed ↔ c.curRespPos < reply.data.length := by
  rw [Placed, h]

theorem placed_of_zero (h : c.curRespPos = 0) : c.Placed := by
  cases hlist : c.replyList with
  | nil => exact (placed_nil hlist).mpr h
  | cons reply list =>
    have hheader := reply.header
    rw [placed_cons hlist, h]
    exact (by decide : 0 < xheadSize).trans_le hheader

theorem pending_nil (h : c.replyList = []) : c.pending = [] := by
  rw [pending, h, List.flatMap_nil, List.drop_nil]

/-- The first reply is pending from the position on. -/
theorem pending_cons {reply : ReplySlice} {list : List ReplySlice} (h : c.replyList = reply :: list) (hpos : c.Placed) :
    c.pending = reply.data.drop c.curRespPos ++ list.flatMap ReplySlice.data := by
  rw [placed_cons h] at hpos
  rw [pending, h, List.flatMap_cons, List.drop_append_of_le_length hpos.le]

/-- The loop is left with an empty list, or by an error that closes the connection. -/
theorem writeBody_leave (h : writeBody results c = .inl r) :
    c.replyList = [] ∧ r = c ∨
      c.replyList ≠ [] ∧ results c.calls = .error ∧ r = { c with calls := c.calls + 1, closed := true } := by
  rw [writeBody] at h
  split at h
  · rename_i hnil
    exact .inl ⟨hnil, (Sum.inl.inj h).symm⟩
  · rename_i reply list hlist
    refine .inr ⟨by simp [hlist], ?_⟩
    cases hresult : results c.calls with
    | error =>
      rw [hresult] at h
      simp only [sockWriteData, if_true] at h
      refine ⟨rfl, ?_⟩
      rw [← Sum.inl.inj h]
      simp
    | room n =>
      rw [hresult] at h
      have hne : ¬ sockWriteData (reply.data.length - c.curRespPos) (.room n) = -1 := by
        simp only [sockWriteData]
        omega
      simp only [hne, if_false] at h
      split at h
      · cases h
      · split at h
        · cases h
        · cases h

/-- Each further round writes what the socket has room for. -/
structure Round (c c' : ReplyWriter) (n : ℕ) (taken : Bytes) : Prop where
  calls : c'.calls = c.calls + 1
  queued : c'.queued = c.queued
  closed : c'.closed = c.closed
  write : c'.write = c.write
  sent : c'.sent = c.sent ++ taken
  pending : c.pending = taken ++ c'.pending
  advance : n ≠ 0 → taken ≠ []
  size : taken.length ≤ n
  list : c'.replyList = c.replyList ∨ c'.replyList = c.replyList.tail
  position : c'.Placed

theorem writeBody_again (hpos : c.Placed) (h : writeBody results c = .inr c') :
    ∃ n taken, results c.calls = .room n ∧ Round c c' n taken := by
  rw [writeBody] at h
  split at h
  · cases h
  · rename_i reply list hlist
    have hlt := (placed_cons hlist).mp hpos
    have hpending := pending_cons hlist hpos
    cases hresult : results c.calls with
    | error =>
      rw [hresult] at h
      cases h
    | room n =>
      rw [hresult] at h
      have hn : sockWriteData (reply.data.length - c.curRespPos) (.room n) = (min n (reply.data.length - c.curRespPos) : ℕ) := by
        simp [sockWriteData]
      simp only [hn, Int.toNat_natCast] at h
      generalize hk : min n (reply.data.length - c.curRespPos) = k at h
      have hne : ¬ (k : ℤ) = -1 := by omega
      have htaken : n ≠ 0 → (reply.data.drop c.curRespPos).take k ≠ [] := by
        intro hn0 hnil
        have hlen := congrArg List.length hnil
        simp only [List.length_take, List.length_drop, List.length_nil] at hlen
        omega
      have hsize : ((reply.data.drop c.curRespPos).take k).length ≤ n := by
        rw [List.length_take]
        omega
      have hsplit : c.pending =
          (reply.data.drop c.curRespPos).take k ++ (reply.data.drop (c.curRespPos + k) ++ list.flatMap ReplySlice.data) := by
        rw [hpending, ← List.append_assoc, ← List.drop_drop, List.take_append_drop]
      rw [if_neg hne] at h
      refine ⟨n, (reply.data.drop c.curRespPos).take k, rfl, ?_⟩
      split at h
      · rename_i hzero
        obtain rfl := Sum.inr.inj h
        have hk0 : k = 0 := by omega
        have hplaced : Placed { c with calls := c.calls + 1, sent := c.sent ++ (reply.data.drop c.curRespPos).take k } := hpos
        refine ⟨rfl, rfl, rfl, rfl, rfl, ?_, htaken, hsize, .inl rfl, hplaced⟩
        rw [hk0, List.take_zero]
        rfl
      · split at h
        · rename_i hend
          obtain rfl := Sum.inr.inj h
          refine ⟨rfl, rfl, rfl, rfl, rfl, ?_, htaken, hsize, .inr ?_, placed_of_zero rfl⟩
          · have hdone : reply.data.drop (c.curRespPos + k) = [] := List.drop_eq_nil_of_le (by omega)
            rw [hsplit, hdone]
            rfl
          · rw [hlist]
            rfl
        · rename_i hmore
          obtain rfl := Sum.inr.inj h
          have hnext : c.curRespPos + k < reply.data.length := by omega
          have hplaced := (placed_cons (c := { c with curRespPos := c.curRespPos + k }) hlist).mpr hnext
          refine ⟨rfl, rfl, rfl, rfl, rfl, ?_, htaken, hsize, .inl rfl, hplaced⟩
          rw [hsplit]
          exact congrArg _ (pending_cons (c := { c with curRespPos := c.curRespPos + k }) hlist hplaced).symm

end Body

section Returns
variable {results : ℕ → WriteResult} {c : ReplyWriter}

/-- A loop that comes to an error ends there or before. -/
theorem result_of_error {n : ℕ} (herror : results n = .error) (hpos : c.Placed) (hcalls : c.calls ≤ n) :
    ∃ r, Loops.result (writeBody results) c = some r := by
  refine Loops.exists_result (I := fun c => c.Placed ∧ c.calls ≤ n) (fun c => n - c.calls) ?_ ⟨hpos, hcalls⟩
  rintro c c' ⟨hpos, hcalls⟩ hagain
  obtain ⟨k, taken, hroom, hround⟩ := writeBody_again hpos hagain
  have hne : c.calls ≠ n := by
    intro heq
    rw [heq, herror] at hroom
    cases hroom
  have hnext := hround.calls
  exact ⟨⟨hround.position, by omega⟩, by omega⟩

/-- The loop gets to the call for which the socket has room, and from there on with less that is
pending. -/
theorem result_of_room {m k : ℕ} (hroom : results m = .room (k + 1)) (hpos : c.Placed) (hcalls : c.calls ≤ m)
    (hless : ∀ c' : ReplyWriter, c'.Placed → c'.pending.length < c.pending.length → ∃ r, Loops.result (writeBody results) c' = some r) :
    ∃ r, Loops.result (writeBody results) c = some r := by
  generalize hd : m - c.calls = d
  induction d generalizing c with
  | zero =>
    have heq : c.calls = m := by omega
    cases hbody : writeBody results c with
    | inl r => exact ⟨r, Loops.result_leave hbody⟩
    | inr c' =>
      rw [Loops.result_again hbody]
      obtain ⟨n, taken, hn, hround⟩ := writeBody_again hpos hbody
      rw [heq, hroom] at hn
      obtain rfl := WriteResult.room.inj hn
      refine hless c' hround.position ?_
      rw [hround.pending, List.length_append]
      have htaken := List.length_pos_of_ne_nil (hround.advance (Nat.succ_ne_zero k))
      omega
  | succ d ih =>
    cases hbody : writeBody results c with
    | inl r => exact ⟨r, Loops.result_leave hbody⟩
    | inr c' =>
      rw [Loops.result_again hbody]
      obtain ⟨n, taken, -, hround⟩ := writeBody_again hpos hbody
      have hcalls' := hround.calls
      refine ih hround.position (by omega) (fun c'' hpos' hlt => hless c'' hpos' ?_) (by omega)
      rw [hround.pending, List.length_append]
      omega

/-- A loop whose socket has room again and again ends. -/
theorem result_of_rooms (hrooms : ∀ n, ∃ m ≥ n, ∃ k, results m = .room (k + 1)) (hpos : c.Placed) :
    ∃ r, Loops.result (writeBody results) c = some r := by
  generalize hlen : c.pending.length = len
  induction len using Nat.strong_induction_on generalizing c with
  | _ len ih =>
    obtain ⟨m, hm, k, hroom⟩ := hrooms c.calls
    refine result_of_room hroom hpos hm fun c' hpos' hlt => ?_
    rw [hlen] at hlt
    exact ih _ hlt hpos' rfl

/-- A loop whose socket never has room for all that is queued does not end. -/
theorem result_eq_none {room : ℕ → ℕ} (hroom : ∀ m, results m = .room (room m)) (hpos : c.Placed)
    (hbytes : c.queued = c.sent ++ c.pending) (hsent : c.sent.length ≤ ∑ m ∈ Finset.range c.calls, room m)
    (hbound : ∀ k, ∑ m ∈ Finset.range k, room m < c.queued.length) : Loops.result (writeBody results) c = none := by
  rw [Option.eq_none_iff_forall_ne_some]
  intro r hr
  refine Loops.result_post (Q := fun _ => False) (I := fun d => d.queued = c.queued ∧ d.Placed ∧ d.queued = d.sent ++ d.pending ∧
    d.sent.length ≤ ∑ m ∈ Finset.range d.calls, room m) ?_ ?_ ⟨rfl, hpos, hbytes, hsent⟩ hr
  · rintro d d' ⟨hqueued, hpos, hbytes, hsent⟩ hagain
    obtain ⟨n, taken, hn, hround⟩ := writeBody_again hpos hagain
    rw [hroom] at hn
    obtain rfl := WriteResult.room.inj hn
    refine ⟨hround.queued.trans hqueued, hround.position, ?_, ?_⟩
    · rw [hround.queued, hbytes, hround.sent, hround.pending, List.append_assoc]
    · rw [hround.sent, hround.calls, Finset.sum_range_succ, List.length_append]
      exact Nat.add_le_add hsent hround.size
  · rintro d r ⟨hqueued, -, hbytes, hsent⟩ hleave
    rcases writeBody_leave hleave with ⟨hnil, -⟩ | ⟨-, herror, -⟩
    · rw [pending_nil hnil, List.append_nil, hqueued] at hbytes
      have hless := hbound d.calls
      rw [hbytes] at hless
      omega
    · rw [hroom] at herror
      cases herror

end Returns

/-- An open connection whose calls so far have not failed. -/
structure Going (results : ℕ → WriteResult) (c : ReplyWriter) : Prop where
  bytes : c.queued = c.sent ++ c.pending
  position : c.Placed
  errors : ∀ n < c.calls, results n ≠ .error

section Steps
variable {results : ℕ → WriteResult} {c c' : ReplyWriter} {now : ℕ}

theorem Going.again (h : Going results c) (hbody : writeBody results c = .inr c') : Going results c' := by
  obtain ⟨n, taken, hroom, hround⟩ := writeBody_again h.position hbody
  refine ⟨?_, hround.position, ?_⟩
  · rw [hround.queued, h.bytes, hround.sent, hround.pending, List.append_assoc]
  · intro m hm
    rw [hround.calls, Nat.lt_succ_iff_lt_or_eq] at hm
    rcases hm with hm | rfl
    · exact h.errors m hm
    · rw [hroom]
      rintro ⟨⟩

/-- A call that returns has written all, or has closed the connection. The list has lost replies
only from its front. -/
structure Returned (results : ℕ → WriteResult) (c c' : ReplyWriter) : Prop where
  queued : c'.queued = c.queued
  list : ∃ k, c'.replyList = c.replyList.drop k
  position : c'.Placed
  order : c'.sent <+: c'.queued
  empty : c'.closed = false → Going results c' ∧ c'.replyList = [] ∧ c'.sent = c'.queued

theorem loop_returned (h : Going results c) (hopen : c.closed = false) (hr : Loops.result (writeBody results) c = some c') :
    Returned results c c' := by
  refine Loops.result_post (Q := Returned results c) (I := fun d => Going results d ∧ d.queued = c.queued ∧ d.closed = false ∧
    ∃ k, d.replyList = c.replyList.drop k) ?_ ?_ ⟨h, rfl, hopen, 0, rfl⟩ hr
  · rintro d d' ⟨hd, hqueued, hopen, k, hlist⟩ hagain
    obtain ⟨n, taken, -, hround⟩ := writeBody_again hd.position hagain
    refine ⟨hd.again hagain, hround.queued.trans hqueued, hround.closed.trans hopen, ?_⟩
    rcases hround.list with hsame | htail
    · exact ⟨k, hsame.trans hlist⟩
    · refine ⟨k + 1, ?_⟩
      rw [htail, hlist, List.tail_drop]
  · rintro d r ⟨hd, hqueued, -, hlist⟩ hleave
    have horder : d.sent <+: d.queued := by
      rw [hd.bytes]
      exact List.prefix_append _ _
    rcases writeBody_leave hleave with ⟨hnil, rfl⟩ | ⟨-, -, rfl⟩
    · have hall : r.sent = r.queued := by
        rw [hd.bytes, pending_nil hnil, List.append_nil]
      exact ⟨hqueued, hlist, hd.position, horder, fun _ => ⟨hd, hnil, hall⟩⟩
    · exact ⟨hqueued, hlist, hd.position, horder, fun hfalse => Bool.noConfusion hfalse⟩

theorem writeReply_returned (h : Going results c) (hopen : c.closed = false) (hr : c.writeReply results now = some c') :
    Returned results c c' := by
  obtain ⟨r, hloop, rfl⟩ := Option.map_eq_some_iff.mp hr
  have hpost := loop_returned h hopen hloop
  split
  · exact hpost
  · rename_i hclosed
    obtain ⟨hgoing, hnil, hall⟩ := hpost.empty (Bool.eq_false_of_not_eq_true hclosed)
    exact ⟨hpost.queued, hpost.list, hpost.position, hpost.order,
      fun _ => ⟨⟨hgoing.bytes, hgoing.position, hgoing.errors⟩, hnil, hall⟩⟩

theorem writeReply_isSome (h : Going results c) (hresponsive : Responsive results) : ∃ c', c.writeReply results now = some c' := by
  have hloop : ∃ r, Loops.result (writeBody results) c = some r := by
    rcases hresponsive with ⟨n, herror⟩ | hrooms
    · refine result_of_error herror h.position ?_
      by_contra hlt
      exact h.errors n (Nat.lt_of_not_le hlt) herror
    · exact result_of_rooms hrooms h.position
  obtain ⟨r, hr⟩ := hloop
  rw [writeReply, hr]
  exact ⟨_, rfl⟩

theorem Sound.going (h : c.Sound) (hopen : c.closed = false) (herrors : ∀ n < c.calls, results n ≠ .error) : Going results c :=
  ⟨h.bytes hopen, h.position, herrors⟩

theorem sound_addReply (h : c.Sound) (hopen : c.closed = false) (reply : ReplySlice) : (c.addReply reply).Sound where
  order := h.order.trans (List.prefix_append _ _)
  bytes := by
    intro _
    have hpending : (c.addReply reply).pending = c.pending ++ reply.data := by
      have hlt : c.curRespPos ≤ (c.replyList.flatMap ReplySlice.data).length := by
        have hpos := h.position
        cases hlist : c.replyList with
        | nil => exact ((placed_nil hlist).mp hpos).le
        | cons first list =>
          rw [List.flatMap_cons, List.length_append]
          have hfirst := (placed_cons hlist).mp hpos
          omega
      rw [pending, addReply, List.flatMap_append, List.flatMap_singleton, List.drop_append_of_le_length hlt]
      rfl
    rw [hpending, ← List.append_assoc]
    exact congrArg (· ++ reply.data) (h.bytes hopen)
  position := by
    have hpos := h.position
    cases hlist : c.replyList with
    | nil => exact placed_of_zero ((placed_nil hlist).mp hpos)
    | cons first list =>
      have hlist' : (c.addReply reply).replyList = first :: (list ++ [reply]) := by
        rw [addReply, hlist]
        rfl
      exact (placed_cons hlist').mpr ((placed_cons hlist).mp hpos)
  active := fun _ _ => rfl

end Steps

/-- The worker is in no call, and no call on its open connection has failed. -/
def Idle (results : ℕ → WriteResult) (s : Option ReplyWriter) : Prop :=
  ∃ c, s = some c ∧ c.Sound ∧ (c.closed = false → ∀ n < c.calls, results n ≠ .error)

section Runs
variable {results : ℕ → WriteResult} {s : Option ReplyWriter}

theorem Idle.written (h : Idle results s) (hresponsive : Responsive results) (e : Event) :
    Idle results (step results s e) ∧ Written results s e := by
  obtain ⟨c, rfl, hsound, herrors⟩ := h
  cases e with
  | addReply reply =>
    by_cases hclosed : c.closed = true
    · have hstep : step results (some c) (.addReply reply) = some c := if_pos hclosed
      rw [hstep]
      exact ⟨⟨c, rfl, hsound, herrors⟩, c, hstep, hsound, fun now hnow => by cases hnow⟩
    · have hopen := Bool.eq_false_of_not_eq_true hclosed
      have hstep : step results (some c) (.addReply reply) = some (c.addReply reply) := if_neg hclosed
      have hadded := sound_addReply hsound hopen reply
      rw [hstep]
      exact ⟨⟨_, rfl, hadded, herrors⟩, _, hstep, hadded, fun now hnow => by cases hnow⟩
  | writable now =>
    by_cases hskip : c.closed = true ∨ c.write = false
    · have hstep : step results (some c) (.writable now) = some c := if_pos hskip
      rw [hstep]
      refine ⟨⟨c, rfl, hsound, herrors⟩, c, hstep, hsound, fun _ _ hopen => ?_⟩
      have hnil : c.replyList = [] := by
        by_contra hne
        have hwrite := hsound.active hopen hne
        rw [hopen, hwrite] at hskip
        simp at hskip
      rw [hsound.bytes hopen, pending_nil hnil, List.append_nil]
    · have hopen : c.closed = false := Bool.eq_false_of_not_eq_true fun hclosed => hskip (.inl hclosed)
      have hgoing := hsound.going hopen (herrors hopen)
      have hreturns : ∃ c', c.writeReply results now = some c' := writeReply_isSome hgoing hresponsive
      obtain ⟨c', hreply⟩ := hreturns
      have hpost := writeReply_returned hgoing hopen hreply
      have hstep : step results (some c) (.writable now) = some c' := (if_neg hskip).trans hreply
      have hsound' : c'.Sound := by
        refine ⟨hpost.order, fun hopen' => (hpost.empty hopen').1.bytes, hpost.position, fun hopen' hne => ?_⟩
        exact absurd (hpost.empty hopen').2.1 hne
      rw [hstep]
      exact ⟨⟨c', rfl, hsound', fun hopen' => (hpost.empty hopen').1.errors⟩, c', hstep, hsound',
        fun _ _ hopen' => (hpost.empty hopen').2.2⟩

theorem sound_init : ({} : ReplyWriter).Sound := ⟨List.prefix_rfl, fun _ => rfl, rfl, fun _ hne => absurd rfl hne⟩

theorem idle_init (results : ℕ → WriteResult) : Idle results (some {}) := by
  refine ⟨{}, rfl, sound_init, ?_⟩
  rintro - n ⟨⟩

/-- What the socket has room for is bounded if it is full from some call on. -/
theorem sum_capacity_le {n : ℕ} (hfull : ∀ m ≥ n, (results m).capacity = 0) (k : ℕ) :
    ∑ m ∈ Finset.range k, (results m).capacity ≤ ∑ m ∈ Finset.range n, (results m).capacity := by
  have hzero : ∀ m ∈ Finset.range k, m ∉ Finset.range n → (results m).capacity = 0 := by
    intro m _ hm
    exact hfull m (Nat.le_of_not_lt fun hlt => hm (Finset.mem_range.mpr hlt))
  calc ∑ m ∈ Finset.range k, (results m).capacity
      ≤ ∑ m ∈ Finset.range k ∪ Finset.range n, (results m).capacity := Finset.sum_le_sum_of_subset Finset.subset_union_left
    _ = ∑ m ∈ Finset.range n, (results m).capacity := by
        refine (Finset.sum_subset Finset.subset_union_right fun m hm hnot => ?_).symm
        rcases Finset.mem_union.mp hm with hm | hm
        · exact hzero m hm hnot
        · exact absurd hm hnot

/-- A reply for which there is never room keeps the worker in its loop. -/
theorem step_eq_none {room : ℕ → ℕ} (hroom : ∀ m, results m = .room (room m)) {reply : ReplySlice}
    (hbound : ∀ k, ∑ m ∈ Finset.range k, room m < reply.data.length) (now : ℕ) :
    step results (step results (some {}) (.addReply reply)) (.writable now) = none := by
  have hadded := sound_addReply sound_init rfl reply
  have hloop : Loops.result (writeBody results) (addReply {} reply) = none :=
    result_eq_none hroom hadded.position (hadded.bytes rfl) (Nat.zero_le _) hbound
  have hreply : (addReply {} reply).writeReply results now = none := by
    rw [writeReply, hloop]
    rfl
  exact hreply

theorem exists_not_written (h : ¬ Responsive results) :
    ∃ reply now, ¬ Runs.Along (step results) (Written results) (some {}) [.addReply reply, .writable now] := by
  obtain ⟨hnone, hfull⟩ := not_or.mp h
  push Not at hnone hfull
  obtain ⟨n, hn⟩ := hfull
  have hroom : ∀ m, results m = .room (results m).capacity := by
    intro m
    cases hm : results m with
    | error => exact absurd hm (hnone m)
    | room k => rfl
  have hzero : ∀ m ≥ n, (results m).capacity = 0 := by
    intro m hm
    cases hcap : (results m).capacity with
    | zero => rfl
    | succ k => exact absurd (hcap ▸ hroom m) (hn m hm k)
  let data : Bytes := List.replicate (xheadSize + ∑ m ∈ Finset.range n, (results m).capacity) 0
  have hdata : data.length = xheadSize + ∑ m ∈ Finset.range n, (results m).capacity := List.length_replicate
  let reply : ReplySlice := ⟨data, hdata ▸ Nat.le_add_right _ _⟩
  refine ⟨reply, 0, ?_⟩
  rintro ⟨-, ⟨c, hc, -⟩, -⟩
  rw [step_eq_none hroom (fun k => ?_) 0] at hc
  · cases hc
  · rw [hdata]
    exact (sum_capacity_le hzero k).trans_lt (Nat.lt_add_of_pos_left (by decide))

end Runs

/-- Exactly the sockets that fail at some time or have room again and again have every call
return and every reply written in order. -/
theorem along_written_iff (results : ℕ → WriteResult) :
    (∀ es, Runs.Along (step results) (Written results) (some {}) es) ↔ Responsive results := by
  refine ⟨fun h => ?_, fun h es => ?_⟩
  · by_contra hnot
    obtain ⟨reply, now, hrun⟩ := exists_not_written hnot
    exact hrun (h _)
  · exact Runs.along_of_invariant (fun _ e hs => (hs.written h e).1) (fun _ e hs => (hs.written h e).2) (idle_init results) es

/-- A socket that would block. -/
def fullSocket : ℕ → WriteResult := fun _ => .room 0

theorem fullSocket_not_written :
    ¬ Runs.Along (step fullSocket) (Written fullSocket) (some {}) [.addReply ⟨List.replicate 36 0, by decide⟩, .writable 0] := by
  rintro ⟨-, ⟨c, hc, -⟩, -⟩
  have hroom : ∀ m, fullSocket m = .room 0 := fun _ => rfl
  have hbound : ∀ k, ∑ m ∈ Finset.range k, 0 < (List.replicate 36 (0 : UInt8)).length := by
    intro k
    rw [Finset.sum_const_zero]
    decide
  rw [step_eq_none hroom hbound 0] at hc
  cases hc

end ReplyWriter

end Signaling
end XrtcServer
