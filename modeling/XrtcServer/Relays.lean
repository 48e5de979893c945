import Mathlib.Algebra.BigOperators.Group.Finset.Basic
import Mathlib.Data.Fintype.Basic
import XrtcServer.Runs

/-! Threads that pass messages on. Each has a queue of messages and a pipe of notifications; who sends it
a message puts it into the queue and writes a notification in a second step. -/
namespace Relays

/-- `serve` is what a thread makes of a message that it took, for what else it meets, and what it sends. -/
structure Network (ι μ ν σ α : Type*) where
  entry : ι
  serve : ι → ν → σ → μ → σ × Option (ι × μ)
  act : ι → α → σ → σ

inductive Hand (ι μ : Type*)
  | idle
  | holding (target : ι) (msg : μ)
  | announcing (target : ι)

/-- What a thread did: it began with a message of its own, served one that it took, or did something else. -/
inductive Task (μ ν α : Type*)
  | begun (msg : μ)
  | served (input : ν) (msg : μ)
  | acted (action : α)

/-- `entered` and `history` are for the record: what was put into the queue of a thread, and by whom,
and what the thread did. -/
structure State (ι μ ν σ α : Type*) where
  queue : ι → List μ
  pipe : ι → ℕ
  hand : ι → Hand ι μ
  work : ι → σ
  entered : ι → List (ι × μ)
  history : ι → List (Task μ ν α)

inductive Event (ι μ ν α : Type*)
  | begin (i : ι) (msg : μ)
  | take (i : ι) (input : ν)
  | put (i : ι)
  | announce (i : ι)
  | act (i : ι) (action : α)

variable {ι μ ν σ α : Type*}

namespace Hand

/-- A thread that has something to send holds it. -/
def ofSent : Option (ι × μ) → Hand ι μ
  | none => idle
  | some (target, msg) => holding target msg

variable [DecidableEq ι]

def heldFor (j : ι) : Hand ι μ → List μ
  | holding target msg => if target = j then [msg] else []
  | _ => []

def announces (j : ι) : Hand ι μ → ℕ
  | announcing target => if target = j then 1 else 0
  | _ => 0

end Hand

namespace Task

/-- The messages that were served. -/
def messages (tasks : List (Task μ ν α)) : List μ :=
  tasks.filterMap fun
    | served _ msg => some msg
    | _ => none

end Task

/-- What becomes of a thread by a task. -/
def perform (n : Network ι μ ν σ α) (i : ι) (w : σ) : Task μ ν α → σ
  | .begun _ => w
  | .served input msg => (n.serve i input w msg).1
  | .acted action => n.act i action w

/-- What a thread sends for a task. -/
def sent (n : Network ι μ ν σ α) (i : ι) (w : σ) : Task μ ν α → List (ι × μ)
  | .begun msg => [(n.entry, msg)]
  | .served input msg => (n.serve i input w msg).2.toList
  | .acted _ => []

/-- What a thread sends for its tasks. -/
def outbox (n : Network ι μ ν σ α) (i : ι) : σ → List (Task μ ν α) → List (ι × μ)
  | _, [] => []
  | w, task :: tasks => sent n i w task ++ outbox n i (perform n i w task) tasks

/-- No message was sent yet. -/
def start (ν α : Type*) (w : ι → σ) : State ι μ ν σ α where
  queue := fun _ => []
  pipe := fun _ => 0
  hand := fun _ => .idle
  work := w
  entered := fun _ => []
  history := fun _ => []

open Function (update)
variable [DecidableEq ι]

/-- A thread does a task, and holds what it has to send for it. -/
def State.does (n : Network ι μ ν σ α) (s : State ι μ ν σ α) (i : ι) (task : Task μ ν α) : State ι μ ν σ α :=
  { s with
    hand := update s.hand i (.ofSent (sent n i (s.work i) task).head?)
    work := update s.work i (perform n i (s.work i) task)
    history := update s.history i (s.history i ++ [task]) }

/-- The queue is empty where there is nothing to take for a notification. -/
def take (n : Network ι μ ν σ α) (s : State ι μ ν σ α) (i : ι) (input : ν) : State ι μ ν σ α :=
  match s.hand i, s.pipe i with
  | .idle, pipe + 1 =>
    let s := { s with pipe := update s.pipe i pipe }
    match s.queue i with
    | [] => s
    | msg :: queue => { s with queue := update s.queue i queue }.does n i (.served input msg)
  | _, _ => s

def put (s : State ι μ ν σ α) (i : ι) : State ι μ ν σ α :=
  match s.hand i with
  | .holding j msg =>
    { s with
      hand := update s.hand i (.announcing j)
      queue := update s.queue j (s.queue j ++ [msg])
      entered := update s.entered j (s.entered j ++ [(i, msg)]) }
  | _ => s

def announce (s : State ι μ ν σ α) (i : ι) : State ι μ ν σ α :=
  match s.hand i with
  | .announcing j => { s with hand := update s.hand i .idle, pipe := update s.pipe j (s.pipe j + 1) }
  | _ => s

/-- A thread does one thing after the other. -/
def step (n : Network ι μ ν σ α) (s : State ι μ ν σ α) : Event ι μ ν α → State ι μ ν σ α
  | .begin i msg =>
    match s.hand i with
    | .idle => s.does n i (.begun msg)
    | _ => s
  | .take i input => take n s i input
  | .put i => put s i
  | .announce i => announce s i
  | .act i action =>
    match s.hand i with
    | .idle => s.does n i (.acted action)
    | _ => s

section Sums
variable [Fintype ι]

/-- A sum over all threads when one of them changes. -/
theorem sum_update {β : Type*} (f : ι → β → ℕ) (g : ι → β) (i : ι) (b : β) :
    (∑ k, f k (update g i b k)) + f i (g i) = (∑ k, f k (g k)) + f i b := by
  have hrest : ∑ k ∈ Finset.univ.erase i, f k (update g i b k) = ∑ k ∈ Finset.univ.erase i, f k (g k) := by
    refine Finset.sum_congr rfl fun k hk => ?_
    rw [Function.update_of_ne (Finset.ne_of_mem_erase hk)]
  rw [← Finset.add_sum_erase Finset.univ _ (Finset.mem_univ i), hrest, Function.update_self,
    ← Finset.add_sum_erase Finset.univ (fun k => f k (g k)) (Finset.mem_univ i)]
  omega

end Sums

/-- The messages that go with a thread. -/
def only (j : ι) (sent : List (ι × μ)) : List μ := (sent.filter fun p => p.1 = j).map Prod.snd

theorem only_append (j : ι) (xs ys : List (ι × μ)) : only j (xs ++ ys) = only j xs ++ only j ys := by
  rw [only, List.filter_append, List.map_append, only, only]

/-- Where only messages that go with one thread are looked for. -/
theorem filter_only {j : ι} {sent : List (ι × μ)} {p : μ → Bool} (h : ∀ x ∈ sent, p x.2 = true → x.1 = j) :
    (only j sent).filter p = (sent.map Prod.snd).filter p := by
  rw [only, List.filter_map, List.filter_map, List.filter_filter]
  refine congrArg (List.map Prod.snd) (List.filter_congr fun x hx => ?_)
  cases hp : p x.2 with
  | false => simp [hp]
  | true => simp [hp, h x hx hp]

theorem mem_only {j : ι} {sent : List (ι × μ)} {msg : μ} : msg ∈ only j sent ↔ (j, msg) ∈ sent := by
  simp [only]

theorem only_singleton (j k : ι) (msg : μ) : only j [(k, msg)] = if k = j then [msg] else [] := by
  by_cases h : k = j <;> simp [only, h]

@[simp] theorem heldFor_idle (j : ι) : (Hand.idle : Hand ι μ).heldFor j = [] := rfl

@[simp] theorem announces_idle (j : ι) : (Hand.idle : Hand ι μ).announces j = 0 := rfl

theorem heldFor_holding (j k : ι) (msg : μ) : (Hand.holding k msg).heldFor j = if k = j then [msg] else [] := rfl

@[simp] theorem heldFor_announcing (j k : ι) : (Hand.announcing k : Hand ι μ).heldFor j = [] := rfl

@[simp] theorem announces_holding (j k : ι) (msg : μ) : (Hand.holding k msg).announces j = 0 := rfl

theorem announces_announcing (j k : ι) : (Hand.announcing k : Hand ι μ).announces j = if k = j then 1 else 0 := rfl

@[simp] theorem announces_ofSent (j : ι) (sent : Option (ι × μ)) : (Hand.ofSent sent).announces j = 0 := by
  cases sent <;> rfl

theorem heldFor_ofSent (j : ι) (sent : Option (ι × μ)) : (Hand.ofSent sent).heldFor j = only j sent.toList := by
  cases sent with
  | none => rfl
  | some p => exact (only_singleton j p.1 p.2).symm

theorem messages_append (tasks tasks' : List (Task μ ν α)) :
    Task.messages (tasks ++ tasks') = Task.messages tasks ++ Task.messages tasks' := List.filterMap_append

section Outbox
omit [DecidableEq ι]
variable {n : Network ι μ ν σ α} {i : ι}

/-- There is at most one message for a task. -/
theorem toList_head_sent (w : σ) (task : Task μ ν α) : (sent n i w task).head?.toList = sent n i w task := by
  cases task with
  | begun msg => rfl
  | served input msg =>
    rw [sent]
    cases (n.serve i input w msg).2 <;> rfl
  | acted action => rfl

theorem outbox_append (w : σ) (tasks : List (Task μ ν α)) (task : Task μ ν α) :
    outbox n i w (tasks ++ [task]) = outbox n i w tasks ++ sent n i (tasks.foldl (perform n i) w) task := by
  induction tasks generalizing w with
  | nil => simp [outbox]
  | cons first tasks ih => rw [List.cons_append, outbox, outbox, ih, List.append_assoc, List.foldl_cons]

theorem exists_of_mem_outbox {w : σ} {tasks : List (Task μ ν α)} {p : ι × μ} (hp : p ∈ outbox n i w tasks) :
    ∃ task ∈ tasks, ∃ w', p ∈ sent n i w' task := by
  induction tasks generalizing w with
  | nil => cases hp
  | cons first tasks ih =>
    rcases List.mem_append.mp hp with hfirst | hlater
    · exact ⟨first, List.mem_cons_self, w, hfirst⟩
    · obtain ⟨task, htask, w', hsent⟩ := ih hlater
      exact ⟨task, List.mem_cons_of_mem first htask, w', hsent⟩

end Outbox

/-- What a thread sent is on its way: put into a queue or still held. Its work is that of its tasks. -/
structure Linked (n : Network ι μ ν σ α) (w : ι → σ) (s : State ι μ ν σ α) : Prop where
  links : ∀ i j, only i (s.entered j) ++ (s.hand i).heldFor j = only j (outbox n i (w i) (s.history i))
  work : ∀ i, s.work i = (s.history i).foldl (perform n i) (w i)

/-- What is in the queue of a thread was sent to it. -/
theorem Linked.mem_outbox {n : Network ι μ ν σ α} {w : ι → σ} {s : State ι μ ν σ α} (h : Linked n w s) {i j : ι} {msg : μ}
    (hentered : (i, msg) ∈ s.entered j) : (j, msg) ∈ outbox n i (w i) (s.history i) := by
  rw [← mem_only, ← h.links i j]
  exact List.mem_append_left _ (mem_only.mpr hentered)

/-- Only one thread sends to the other. -/
def Network.Feeds (n : Network ι μ ν σ α) (i j : ι) : Prop := ∀ k w task p, p ∈ sent n k w task → p.1 = j → k = i

section Feeds
variable {n : Network ι μ ν σ α} {w : ι → σ} {s : State ι μ ν σ α} {i j : ι}

theorem Linked.entered_from (h : Linked n w s) (hfeeds : n.Feeds i j) : ∀ x ∈ s.entered j, x.1 = i := by
  intro x hx
  obtain ⟨task, -, w', hsent⟩ := exists_of_mem_outbox (h.mem_outbox hx)
  exact hfeeds x.1 w' task (j, x.2) hsent rfl

theorem Linked.heldFor_eq_nil (h : Linked n w s) (hfeeds : n.Feeds i j) {k : ι} (hne : k ≠ i) :
    (s.hand k).heldFor j = [] := by
  refine List.eq_nil_iff_forall_not_mem.mpr fun msg hmsg => ?_
  have hmem : (j, msg) ∈ outbox n k (w k) (s.history k) := by
    rw [← mem_only, ← h.links k j]
    exact List.mem_append_right _ hmsg
  obtain ⟨task, -, w', hsent⟩ := exists_of_mem_outbox hmem
  exact hne (hfeeds k w' task (j, msg) hsent rfl)

end Feeds

/-- A thread takes its messages in the order in which they were put into its queue, and every message that
is queued has its notification in the pipe or one that is about to be written. -/
structure Sound [Fintype ι] (n : Network ι μ ν σ α) (w : ι → σ) (s : State ι μ ν σ α) : Prop
    extends Linked n w s where
  ordered : ∀ i, Task.messages (s.history i) ++ s.queue i = (s.entered i).map Prod.snd
  counted : ∀ j, s.pipe j + ∑ i, (s.hand i).announces j = (s.queue j).length

section Steps
variable {n : Network ι μ ν σ α} {w : ι → σ} {s : State ι μ ν σ α} {i : ι}

theorem linked_does (hlinks : ∀ i j, only i (s.entered j) ++ (s.hand i).heldFor j =
    only j (outbox n i (w i) (s.history i))) (hwork : ∀ i, s.work i = (s.history i).foldl (perform n i) (w i))
    (hidle : s.hand i = .idle) (task : Task μ ν α) : Linked n w (s.does n i task) where
  links := by
    intro k j
    by_cases hk : k = i
    · subst hk
      have hold := hlinks k j
      rw [hidle, heldFor_idle, List.append_nil] at hold
      simp only [State.does, Function.update_self]
      rw [outbox_append, only_append, ← hwork k, heldFor_ofSent, toList_head_sent, hold]
    · simp only [State.does, Function.update_of_ne hk]
      exact hlinks k j
  work := by
    intro k
    by_cases hk : k = i
    · subst hk
      simp only [State.does, Function.update_self, List.foldl_append, List.foldl_cons, List.foldl_nil, hwork k]
    · simp only [State.does, Function.update_of_ne hk]
      exact hwork k

theorem hand_does (hidle : s.hand i = .idle) (task : Task μ ν α) (j k : ι) :
    ((s.does n i task).hand k).announces j = (s.hand k).announces j := by
  by_cases hk : k = i
  · subst hk
    rw [hidle, State.does]
    dsimp only
    rw [Function.update_self, announces_ofSent]
    rfl
  · rw [State.does]
    dsimp only
    rw [Function.update_of_ne hk]

variable [Fintype ι]

/-- A task for which no message was taken. -/
theorem Sound.does (h : Sound n w s) (hidle : s.hand i = .idle) {task : Task μ ν α}
    (hnone : Task.messages [task] = []) : Sound n w (s.does n i task) where
  toLinked := linked_does h.links h.work hidle task
  ordered := by
    intro k
    refine Eq.trans ?_ (h.ordered k)
    by_cases hk : k = i
    · subst hk
      simp only [State.does, Function.update_self, messages_append, hnone, List.append_nil]
    · simp only [State.does, Function.update_of_ne hk]
  counted := by
    intro j
    have hsame := Finset.sum_congr rfl fun k (_ : k ∈ Finset.univ) => @hand_does _ _ _ _ _ _ n s i hidle task j k
    rw [hsame]
    exact h.counted j

/-- A thread that is not busy takes a message if there is a notification. -/
theorem Sound.take_eq (h : Sound n w s) (hidle : s.hand i = .idle) {pipe : ℕ} (hpipe : s.pipe i = pipe + 1) (input : ν) :
    ∃ msg queue, s.queue i = msg :: queue ∧ take n s i input =
      { s with pipe := update s.pipe i pipe, queue := update s.queue i queue }.does n i (.served input msg) := by
  have hcounted := h.counted i
  rw [take, hidle, hpipe]
  dsimp only
  cases hqueue : s.queue i with
  | nil =>
    rw [hqueue, hpipe, List.length_nil] at hcounted
    omega
  | cons msg queue => exact ⟨msg, queue, rfl, rfl⟩

/-- A step by which a message is taken, or none. -/
theorem Sound.take_cases (h : Sound n w s) (i : ι) (input : ν) :
    (take n s i input = s ∧ ¬(s.hand i = .idle ∧ 0 < s.pipe i)) ∨
    ∃ pipe msg queue, s.hand i = .idle ∧ s.pipe i = pipe + 1 ∧ s.queue i = msg :: queue ∧ take n s i input =
      { s with pipe := update s.pipe i pipe, queue := update s.queue i queue }.does n i (.served input msg) := by
  cases hidle : s.hand i with
  | holding j msg =>
    left
    rw [take, hidle]
    refine ⟨rfl, ?_⟩
    rintro ⟨hready, -⟩
    cases hready
  | announcing j =>
    left
    rw [take, hidle]
    refine ⟨rfl, ?_⟩
    rintro ⟨hready, -⟩
    cases hready
  | idle =>
    cases hpipe : s.pipe i with
    | zero =>
      left
      rw [take, hidle, hpipe]
      exact ⟨rfl, fun hready => Nat.lt_irrefl 0 hready.2⟩
    | succ pipe =>
      obtain ⟨msg, queue, hqueue, htake⟩ := h.take_eq hidle hpipe input
      exact .inr ⟨pipe, msg, queue, rfl, rfl, hqueue, htake⟩

theorem Sound.take (h : Sound n w s) (input : ν) : Sound n w (Relays.take n s i input) := by
  rcases h.take_cases i input with ⟨hsame, -⟩ | ⟨pipe, msg, queue, hidle, hpipe, hqueue, htake⟩
  · rw [hsame]
    exact h
  · rw [htake]
    have hlinked := @linked_does _ _ _ _ _ _ n w
      { s with pipe := update s.pipe i pipe, queue := update s.queue i queue } i h.links h.work hidle
      (.served input msg)
    refine { toLinked := hlinked, ordered := fun k => ?_, counted := fun j => ?_ }
    · by_cases hk : k = i
      · subst hk
        have hold := h.ordered k
        rw [hqueue] at hold
        simp only [State.does, Function.update_self, messages_append, ← hold, List.append_assoc]
        rfl
      · simp only [State.does, Function.update_of_ne hk]
        exact h.ordered k
    · have hcounted := h.counted j
      have hsame := Finset.sum_congr rfl fun k (_ : k ∈ Finset.univ) =>
        @hand_does _ _ _ _ _ _ n { s with pipe := update s.pipe i pipe, queue := update s.queue i queue } i hidle
          (.served input msg) j k
      rw [hsame]
      by_cases hj : j = i
      · subst hj
        rw [hqueue, hpipe, List.length_cons] at hcounted
        simp only [State.does, Function.update_self]
        omega
      · simp only [State.does, Function.update_of_ne hj]
        exact hcounted

theorem Sound.put (h : Sound n w s) : Sound n w (Relays.put s i) := by
  cases hhand : s.hand i with
  | idle =>
    rw [Relays.put, hhand]
    exact h
  | announcing j =>
    rw [Relays.put, hhand]
    exact h
  | holding j msg =>
    rw [Relays.put, hhand]
    refine { links := fun k l => ?_, work := h.work, ordered := fun k => ?_, counted := fun l => ?_ } <;> dsimp only
    · have hold := h.links k l
      by_cases hk : k = i
      · subst hk
        rw [hhand, heldFor_holding] at hold
        rw [← hold, Function.update_self, heldFor_announcing, List.append_nil]
        by_cases hl : l = j
        · subst hl
          rw [Function.update_self, only_append, only_singleton, if_pos rfl, if_pos rfl]
        · rw [Function.update_of_ne hl, if_neg (Ne.symm hl), List.append_nil]
      · rw [Function.update_of_ne hk, ← hold]
        by_cases hl : l = j
        · subst hl
          rw [Function.update_self, only_append, only_singleton, if_neg (Ne.symm hk), List.append_nil]
        · rw [Function.update_of_ne hl]
    · have hold := h.ordered k
      by_cases hk : k = j
      · subst hk
        rw [Function.update_self, Function.update_self, List.map_append, ← hold, List.append_assoc]
        rfl
      · rw [Function.update_of_ne hk, Function.update_of_ne hk]
        exact hold
    · have hold := h.counted l
      have hsum := sum_update (fun _ => Hand.announces l) s.hand i (.announcing j)
      rw [hhand] at hsum
      by_cases hl : l = j
      · subst hl
        rw [announces_holding, announces_announcing, if_pos rfl] at hsum
        rw [Function.update_self, List.length_append, List.length_singleton]
        omega
      · rw [announces_holding, announces_announcing, if_neg (Ne.symm hl)] at hsum
        rw [Function.update_of_ne hl]
        omega

theorem Sound.announce (h : Sound n w s) : Sound n w (Relays.announce s i) := by
  cases hhand : s.hand i with
  | idle =>
    rw [Relays.announce, hhand]
    exact h
  | holding j msg =>
    rw [Relays.announce, hhand]
    exact h
  | announcing j =>
    rw [Relays.announce, hhand]
    refine { links := fun k l => ?_, work := h.work, ordered := h.ordered, counted := fun l => ?_ } <;> dsimp only
    · have hold := h.links k l
      by_cases hk : k = i
      · subst hk
        rw [hhand] at hold
        rw [Function.update_self]
        exact hold
      · rw [Function.update_of_ne hk]
        exact hold
    · have hold := h.counted l
      have hsum := sum_update (fun _ => Hand.announces l) s.hand i .idle
      rw [hhand] at hsum
      by_cases hl : l = j
      · subst hl
        rw [announces_idle, announces_announcing, if_pos rfl] at hsum
        rw [Function.update_self]
        omega
      · rw [announces_idle, announces_announcing, if_neg (Ne.symm hl)] at hsum
        rw [Function.update_of_ne hl]
        omega

theorem Sound.step (h : Sound n w s) (e : Event ι μ ν α) : Sound n w (Relays.step n s e) := by
  cases e with
  | begin i msg =>
    rw [Relays.step]
    split
    · next hidle => exact h.does hidle rfl
    · exact h
  | take i input => exact h.take input
  | put i => exact h.put
  | announce i => exact h.announce
  | act i action =>
    rw [Relays.step]
    split
    · next hidle => exact h.does hidle rfl
    · exact h

theorem sound_start : Sound n w (start ν α w) where
  links := fun _ _ => rfl
  work := fun _ => rfl
  ordered := fun _ => rfl
  counted := fun j => by simp [start, Hand.announces]

theorem sound_run (es : List (Event ι μ ν α)) : Sound n w (Runs.run (Relays.step n) (start ν α w) es) := by
  generalize hs : start ν α w = s
  have h : Sound n w s := hs ▸ sound_start
  clear hs
  induction es generalizing s with
  | nil => exact h
  | cons e es ih => exact ih _ (h.step e)

end Steps

/-- Every thread that a message comes to is below the one that sent it. -/
def Network.Descends (n : Network ι μ ν σ α) (rank : ι → ℕ) : Prop :=
  ∀ i input w msg j msg', (n.serve i input w msg).2 = some (j, msg') → rank j < rank i

/-- A step by which a message goes on. -/
def Enabled (s : State ι μ ν σ α) : Event ι μ ν α → Prop
  | .take i _ => s.hand i = .idle ∧ 0 < s.pipe i
  | .put i => ∃ j msg, s.hand i = .holding j msg
  | .announce i => ∃ j, s.hand i = .announcing j
  | _ => False

/-- No thread is busy or notified. -/
def Quiet (s : State ι μ ν σ α) : Prop := ∀ i, s.hand i = .idle ∧ s.pipe i = 0

omit [DecidableEq ι] in
/-- Where nothing is left to do there is no step by which a message goes on. -/
theorem quiet_iff [Nonempty ν] {s : State ι μ ν σ α} : Quiet s ↔ ∀ e, ¬Enabled s e := by
  constructor
  · intro hquiet e henabled
    cases e with
    | begin i msg => exact henabled
    | take i input =>
      have hpos := henabled.2
      rw [(hquiet i).2] at hpos
      exact Nat.lt_irrefl 0 hpos
    | put i =>
      obtain ⟨j, msg, hhand⟩ := henabled
      rw [(hquiet i).1] at hhand
      cases hhand
    | announce i =>
      obtain ⟨j, hhand⟩ := henabled
      rw [(hquiet i).1] at hhand
      cases hhand
    | act i action => exact henabled
  · intro hnone i
    cases hhand : s.hand i with
    | idle =>
      refine ⟨rfl, Nat.eq_zero_of_not_pos fun hpos => ?_⟩
      exact hnone (.take i (Classical.arbitrary ν)) ⟨hhand, hpos⟩
    | holding j msg => exact absurd ⟨j, msg, hhand⟩ (hnone (.put i))
    | announcing j => exact absurd ⟨j, hhand⟩ (hnone (.announce i))

/-- What a thread still has to do for what it holds, and others after it. -/
def Hand.weight (rank : ι → ℕ) : Hand ι μ → ℕ
  | idle => 0
  | holding target _ => 3 * rank target + 3
  | announcing _ => 1

section Potential
variable [Fintype ι] {n : Network ι μ ν σ α} {rank : ι → ℕ} {w : ι → σ} {s : State ι μ ν σ α}

/-- An upper bound for the steps by which the messages that there are can go on. -/
def potential (rank : ι → ℕ) (s : State ι μ ν σ α) : ℕ :=
  ∑ i, (3 * rank i + 1) * (s.queue i).length + ∑ i, (s.hand i).weight rank

theorem Sound.queue_of_quiet (h : Sound n w s) (hquiet : Quiet s) (j : ι) : s.queue j = [] := by
  have hcounted := h.counted j
  rw [(hquiet j).2, Finset.sum_eq_zero fun i _ => by rw [(hquiet i).1]; rfl] at hcounted
  exact List.length_eq_zero_iff.mp hcounted.symm

omit [DecidableEq ι] [Fintype ι] in
theorem weight_ofSent (hdescends : n.Descends rank) (i : ι) (input : ν) (w : σ) (msg : μ) :
    (Hand.ofSent (sent n i w (.served input msg)).head?).weight rank ≤ 3 * rank i := by
  cases hsent : (n.serve i input w msg).2 with
  | none =>
    rw [sent, hsent]
    exact Nat.zero_le _
  | some p =>
    have hbelow := hdescends i input w msg p.1 p.2 hsent
    rw [sent, hsent]
    change 3 * rank p.1 + 3 ≤ 3 * rank i
    omega

/-- Every step by which a message goes on leaves less to do. -/
theorem Sound.potential_lt (h : Sound n w s) (hdescends : n.Descends rank) {e : Event ι μ ν α} (henabled : Enabled s e) :
    potential rank (Relays.step n s e) < potential rank s := by
  cases e with
  | begin i msg => exact henabled.elim
  | act i action => exact henabled.elim
  | take i input =>
    obtain ⟨hidle, hpos⟩ := henabled
    obtain ⟨pipe, hpipe⟩ := Nat.exists_eq_succ_of_ne_zero (Nat.pos_iff_ne_zero.mp hpos)
    obtain ⟨msg, queue, hqueue, htake⟩ := h.take_eq hidle hpipe input
    have hqueues := sum_update (fun k (q : List μ) => (3 * rank k + 1) * q.length) s.queue i queue
    have hhands := sum_update (fun _ => Hand.weight rank) s.hand i
      (.ofSent (sent n i (s.work i) (.served input msg)).head?)
    have hweight := weight_ofSent hdescends i input (s.work i) msg
    rw [hqueue, List.length_cons, Nat.mul_succ] at hqueues
    rw [hidle, Hand.weight] at hhands
    rw [Relays.step, htake, potential, potential, State.does]
    dsimp only at hqueues hhands ⊢
    omega
  | put i =>
    obtain ⟨j, msg, hhand⟩ := henabled
    have hqueues := sum_update (fun k (q : List μ) => (3 * rank k + 1) * q.length) s.queue j (s.queue j ++ [msg])
    have hhands := sum_update (fun _ => Hand.weight rank) s.hand i (.announcing j)
    rw [List.length_append, List.length_singleton, Nat.mul_succ] at hqueues
    rw [hhand, Hand.weight, Hand.weight] at hhands
    rw [Relays.step, Relays.put, hhand, potential, potential]
    dsimp only at hqueues hhands ⊢
    omega
  | announce i =>
    obtain ⟨j, hhand⟩ := henabled
    have hhands := sum_update (fun _ => Hand.weight rank) s.hand i .idle
    rw [hhand, Hand.weight, Hand.weight] at hhands
    rw [Relays.step, Relays.announce, hhand, potential, potential]
    dsimp only at hhands ⊢
    omega

/-- Messages go on for a bounded number of steps, in whatever order the threads take them. -/
theorem Sound.length_le (h : Sound n w s) (hdescends : n.Descends rank) {es : List (Event ι μ ν α)}
    (hes : Runs.Along (Relays.step n) Enabled s es) :
    es.length + potential rank (Runs.run (Relays.step n) s es) ≤ potential rank s := by
  induction es generalizing s with
  | nil => simp
  | cons e es ih =>
    have hlt := h.potential_lt hdescends hes.1
    have hrest := ih (h.step e) hes.2
    rw [List.length_cons, Runs.run_cons]
    omega

end Potential

section Carrying
variable [Fintype ι] {n : Network ι μ ν σ α} {w : ι → σ} {s : State ι μ ν σ α}

/-- What the record of a run says, once as far as messages have come and once for all of them. -/
structure Carries (n : Network ι μ ν σ α) (w : ι → σ) (s : State ι μ ν σ α) (r : List μ → List μ → Prop) : Prop where
  refl : ∀ xs, r xs xs
  trans : ∀ {xs ys zs}, r xs ys → r ys zs → r xs zs
  map : ∀ {xs ys} (f : μ → μ), r xs ys → r (xs.map f) (ys.map f)
  filter : ∀ {xs ys} (p : μ → Bool), r xs ys → r (xs.filter p) (ys.filter p)
  taken : ∀ i, r (Task.messages (s.history i)) ((s.entered i).map Prod.snd)
  put : ∀ i j, r (only i (s.entered j)) (only j (outbox n i (w i) (s.history i)))

theorem Sound.carries_begun (h : Sound n w s) : Carries n w s (· <+: ·) where
  refl := List.prefix_refl
  trans := List.IsPrefix.trans
  map := fun f hbegun => hbegun.map f
  filter := fun p hbegun => hbegun.filter p
  taken := fun i => ⟨s.queue i, h.ordered i⟩
  put := fun i j => ⟨(s.hand i).heldFor j, h.links i j⟩

theorem Sound.carries_eq (h : Sound n w s) (hquiet : Quiet s) : Carries n w s Eq where
  refl := fun _ => rfl
  trans := Eq.trans
  map := fun f heq => congrArg (List.map f) heq
  filter := fun p heq => congrArg (List.filter p) heq
  taken := by
    intro i
    have hordered := h.ordered i
    rw [h.queue_of_quiet hquiet i, List.append_nil] at hordered
    exact hordered
  put := by
    intro i j
    have hlinks := h.links i j
    rw [(hquiet i).1, heldFor_idle, List.append_nil] at hlinks
    exact hlinks

omit [Fintype ι] in
/-- Where one thread alone sends to another, that one takes what it sends. -/
theorem Carries.fed {r : List μ → List μ → Prop} (hr : Carries n w s r) (h : Linked n w s) {i j : ι} (hfeeds : n.Feeds i j) :
    r (Task.messages (s.history j)) (only j (outbox n i (w i) (s.history i))) := by
  have hall := @filter_only _ _ _ i (s.entered j) (fun _ => true) fun x hx _ => h.entered_from hfeeds x hx
  rw [List.filter_true, List.filter_true] at hall
  have hput := hr.put i j
  rw [hall] at hput
  exact hr.trans (hr.taken j) hput

end Carrying

end Relays
