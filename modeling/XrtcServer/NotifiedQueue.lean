import Mathlib.Data.List.Count
import XrtcServer.Runs

/-! A queue of messages with a pipe of notifications. A sender puts its message into the queue and
writes a notification in a second step, the owner of the queue reads one notification at a time. -/
namespace NotifiedQueue

/-- The laws say what the functions of an owner do to its queue. `others` has the notifications
that are not for messages. -/
structure Owner (σ μ ν ι α : Type*) where
  queue : σ → List μ
  pushMsg : σ → μ → σ
  processNotify : σ → ν → ι → σ
  act : σ → α → σ
  message : ν
  others : List ν
  message_not_other : message ∉ others
  queue_pushMsg : ∀ s msg, queue (pushMsg s msg) = queue s ++ [msg]
  queue_message : ∀ s i, queue (processNotify s message i) = (queue s).tail
  queue_other : ∀ s i, ∀ code ∈ others, queue (processNotify s code i) = queue s
  queue_act : ∀ s a, queue (act s a) = queue s

/-- `between` has the senders that have put in their message and not written yet. `enqueued` and
`processed` are for the record. -/
structure State (σ μ ν τ : Type*) where
  owner : σ
  pipe : List ν := []
  between : List τ := []
  enqueued : List μ := []
  processed : List μ := []

inductive Event (μ ν ι α τ : Type*)
  | push (sender : τ) (msg : μ)
  | notify (sender : τ)
  | tell (code : ν)
  | consume (input : ι)
  | act (action : α)

variable {σ μ ν ι α τ : Type*} [DecidableEq ν]

/-- The owner takes a notification from the pipe. -/
def consume (o : Owner σ μ ν ι α) (s : State σ μ ν τ) (input : ι) : State σ μ ν τ :=
  match s.pipe with
  | [] => s
  | code :: pipe =>
    { s with
      owner := o.processNotify s.owner code input
      pipe
      processed := if code = o.message then s.processed ++ (o.queue s.owner).head?.toList else s.processed }

/-- Every message that is queued has its notification in the pipe, or a sender that is going to
write it. -/
structure Sound (o : Owner σ μ ν ι α) (s : State σ μ ν τ) : Prop where
  counted : (o.queue s.owner).length = s.pipe.count o.message + s.between.length
  ordered : s.processed ++ o.queue s.owner = s.enqueued
  known : ∀ code ∈ s.pipe, code = o.message ∨ code ∈ o.others

section Consume
variable {o : Owner σ μ ν ι α} {s : State σ μ ν τ}

theorem Sound.pending_le (h : Sound o s) : s.pipe.count o.message ≤ (o.queue s.owner).length := by
  rw [h.counted]
  exact Nat.le_add_right _ _

theorem Sound.drained (h : Sound o s) (hpending : s.pipe.count o.message = 0) (hbetween : s.between = []) :
    o.queue s.owner = [] := by
  have hcounted := h.counted
  rw [hpending, hbetween] at hcounted
  exact List.length_eq_zero_iff.mp hcounted

theorem Sound.push (h : Sound o s) (sender : τ) (msg : μ) :
    Sound o { s with owner := o.pushMsg s.owner msg, between := sender :: s.between, enqueued := s.enqueued ++ [msg] } where
  counted := by
    have hcounted := h.counted
    simp only [o.queue_pushMsg, List.length_append, List.length_cons, List.length_nil]
    omega
  ordered := by
    simp only [o.queue_pushMsg, ← List.append_assoc, h.ordered]
  known := h.known

theorem Sound.tell (h : Sound o s) {code : ν} (hcode : code ∈ o.others) : Sound o { s with pipe := s.pipe ++ [code] } where
  counted := by
    have hne : code ≠ o.message := fun heq => o.message_not_other (heq ▸ hcode)
    simp only [List.count_append, List.count_singleton, beq_iff_eq, hne, if_false, Nat.add_zero]
    exact h.counted
  ordered := h.ordered
  known := by
    intro code' hcode'
    rcases List.mem_append.mp hcode' with hcode' | hcode'
    · exact h.known code' hcode'
    · exact .inr (List.mem_singleton.mp hcode' ▸ hcode)

/-- The notification for a message finds one. -/
theorem Sound.exists_message (h : Sound o s) {pipe : List ν} (hpipe : s.pipe = o.message :: pipe) :
    ∃ msg rest, o.queue s.owner = msg :: rest := by
  refine List.exists_cons_of_ne_nil fun hempty => ?_
  have hcounted := h.counted
  rw [hempty, hpipe, List.count_cons_self, List.length_nil] at hcounted
  omega

theorem Sound.consume (h : Sound o s) (input : ι) : Sound o (consume o s input) := by
  rw [NotifiedQueue.consume]
  cases hpipe : s.pipe with
  | nil => exact h
  | cons code pipe =>
    have hcounted := h.counted
    have hknown (c : ν) (hc : c ∈ pipe) : c = o.message ∨ c ∈ o.others := by
      refine h.known c ?_
      rw [hpipe]
      exact List.mem_cons_of_mem code hc
    by_cases hcode : code = o.message
    · subst hcode
      obtain ⟨msg, rest, hqueue⟩ := h.exists_message hpipe
      refine { counted := ?_, ordered := ?_, known := hknown }
      · rw [hpipe, hqueue, List.count_cons_self, List.length_cons] at hcounted
        simp only [o.queue_message, hqueue, List.tail_cons]
        omega
      · simp only [o.queue_message, hqueue, List.tail_cons, List.head?_cons, Option.toList_some, if_true,
          List.append_assoc, List.singleton_append, ← h.ordered]
    · have hother : code ∈ o.others := by
        refine (h.known code ?_).resolve_left hcode
        rw [hpipe]
        exact List.mem_cons_self
      refine { counted := ?_, ordered := ?_, known := hknown }
      · rw [hpipe, List.count_cons_of_ne hcode] at hcounted
        simp only [o.queue_other _ _ _ hother]
        exact hcounted
      · simp only [o.queue_other _ _ _ hother, if_neg hcode]
        exact h.ordered

theorem sound_start {owner : σ} (hempty : o.queue owner = []) : Sound o ({ owner } : State σ μ ν τ) where
  counted := by
    rw [hempty]
    rfl
  ordered := hempty
  known := by simp

theorem pipe_consume (input : ι) : (consume o s input).pipe = s.pipe.tail := by
  rw [consume]
  cases hpipe : s.pipe with
  | nil => exact hpipe
  | cons code pipe => rfl

theorem enqueued_consume (input : ι) : (consume o s input).enqueued = s.enqueued := by
  rw [consume]
  split <;> rfl

theorem between_consume (input : ι) : (consume o s input).between = s.between := by
  rw [consume]
  split <;> rfl

end Consume

variable [DecidableEq τ]

/-- A sender writes its notification before it sends the next message. -/
def step (o : Owner σ μ ν ι α) (s : State σ μ ν τ) : Event μ ν ι α τ → State σ μ ν τ
  | .push sender msg =>
    if sender ∈ s.between then s
    else
      { s with
        owner := o.pushMsg s.owner msg
        between := sender :: s.between
        enqueued := s.enqueued ++ [msg] }
  | .notify sender =>
    if sender ∈ s.between then { s with between := s.between.erase sender, pipe := s.pipe ++ [o.message] } else s
  | .tell code => if code ∈ o.others then { s with pipe := s.pipe ++ [code] } else s
  | .consume input => consume o s input
  | .act action => { s with owner := o.act s.owner action }

/-- Every sender writes, and the owner takes all that is in the pipe. -/
def settle (s : State σ μ ν τ) (input : ι) : List (Event μ ν ι α τ) :=
  s.between.map .notify ++ List.replicate (s.pipe.length + s.between.length) (.consume input)

/-- Messages are processed in the order in which they were enqueued, no notification is without
its message, no message is left without one, and those that are left are processed once the
senders have written. -/
structure Delivered (o : Owner σ μ ν ι α) (s : State σ μ ν τ) : Prop where
  ordered : s.processed ++ o.queue s.owner = s.enqueued
  pending_le : s.pipe.count o.message ≤ (o.queue s.owner).length
  drained : s.pipe.count o.message = 0 → s.between = [] → o.queue s.owner = []
  settled : ∀ input, (Runs.run (step o) s (settle s input)).processed = s.enqueued

section Run
variable {o : Owner σ μ ν ι α} {s : State σ μ ν τ}

theorem Sound.notify (h : Sound o s) {sender : τ} (hsender : sender ∈ s.between) :
    Sound o { s with between := s.between.erase sender, pipe := s.pipe ++ [o.message] } where
  counted := by
    have hcounted := h.counted
    have hlength := List.length_erase_of_mem hsender
    have hpos := List.length_pos_of_mem hsender
    simp only [List.count_append, List.count_singleton_self]
    omega
  ordered := h.ordered
  known := by
    intro code hcode
    rcases List.mem_append.mp hcode with hcode | hcode
    · exact h.known code hcode
    · exact .inl (List.mem_singleton.mp hcode)

theorem Sound.step (h : Sound o s) (e : Event μ ν ι α τ) : Sound o (NotifiedQueue.step o s e) := by
  cases e with
  | push sender msg =>
    rw [NotifiedQueue.step]
    split
    · exact h
    · exact h.push sender msg
  | notify sender =>
    rw [NotifiedQueue.step]
    split
    · rename_i hsender
      exact h.notify hsender
    · exact h
  | tell code =>
    rw [NotifiedQueue.step]
    split
    · rename_i hcode
      exact h.tell hcode
    · exact h
  | consume input => exact h.consume input
  | act action =>
    have hqueue := o.queue_act s.owner action
    refine { counted := ?_, ordered := ?_, known := h.known }
    · exact (congrArg List.length hqueue).trans h.counted
    · exact (congrArg _ hqueue).trans h.ordered

theorem Sound.run (h : Sound o s) (es : List (Event μ ν ι α τ)) : Sound o (Runs.run (NotifiedQueue.step o) s es) := by
  induction es generalizing s with
  | nil => exact h
  | cons e es ih => exact ih (h.step e)

theorem run_notify (s : State σ μ ν τ) :
    Runs.run (step o) s (s.between.map Event.notify) =
      { s with between := [], pipe := s.pipe ++ List.replicate s.between.length o.message } := by
  generalize hbetween : s.between = senders
  induction senders generalizing s with
  | nil =>
    cases s
    simp_all
  | cons sender senders ih =>
    have hwritten : step o s (.notify sender) = { s with between := senders, pipe := s.pipe ++ [o.message] } := by
      simp [step, hbetween]
    rw [List.map_cons, Runs.run_cons, hwritten, ih _ rfl]
    simp [List.replicate_succ]

/-- The owner takes as many notifications as there are. -/
theorem run_consume {n : ℕ} (hn : s.pipe.length = n) (input : ι) :
    (Runs.run (NotifiedQueue.step o) s (List.replicate n (.consume input))).pipe = [] ∧
      (Runs.run (NotifiedQueue.step o) s (List.replicate n (.consume input))).between = s.between ∧
        (Runs.run (NotifiedQueue.step o) s (List.replicate n (.consume input))).enqueued = s.enqueued := by
  induction n generalizing s with
  | zero => exact ⟨List.length_eq_zero_iff.mp hn, rfl, rfl⟩
  | succ n ih =>
    have hlength : (consume o s input).pipe.length = n := by
      rw [pipe_consume, List.length_tail, hn, Nat.add_sub_cancel]
    have ⟨hpipe, hbetween, henqueued⟩ := ih hlength
    rw [List.replicate_succ, Runs.run_cons]
    exact ⟨hpipe, hbetween.trans (between_consume input), henqueued.trans (enqueued_consume input)⟩

/-- When every sender has written and the pipe is empty, all messages are processed. -/
theorem Sound.settled (h : Sound o s) (input : ι) : (Runs.run (NotifiedQueue.step o) s (settle s input)).processed = s.enqueued := by
  have hwritten := run_notify (o := o) s
  have hlength : ({ s with between := [], pipe := s.pipe ++ List.replicate s.between.length o.message } : State σ μ ν τ).pipe.length =
      s.pipe.length + s.between.length := by
    simp
  have ⟨hpipe, hbetween, henqueued⟩ := run_consume (o := o) hlength input
  have hsettled := h.run (settle s input)
  rw [settle, Runs.run_append, hwritten] at hsettled ⊢
  have hdrained := hsettled.drained (by rw [hpipe]; rfl) hbetween
  have hordered := hsettled.ordered
  rw [hdrained, List.append_nil, henqueued] at hordered
  exact hordered

theorem delivered_run {owner : σ} (hempty : o.queue owner = []) (es : List (Event μ ν ι α τ)) :
    Delivered o (Runs.run (step o) { owner } es) := by
  have hsound := (sound_start (τ := τ) hempty).run es
  exact ⟨hsound.ordered, hsound.pending_le, hsound.drained, hsound.settled⟩

end Run

end NotifiedQueue
