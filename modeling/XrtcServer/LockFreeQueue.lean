import Mathlib.Algebra.Order.Ring.Int
import Mathlib.Data.Int.Notation
import Mathlib.Data.List.Nodup
import Mathlib.Data.List.ReduceOption
import XrtcServer.LinkedNodes
import XrtcServer.Runs

/-! The lock free queue of one producer and one consumer, statement by statement: every read or
write of a pointer and every update of the size is one step of either side. -/
namespace XrtcServer
namespace LockFreeQueue
open LinkedNodes ObjectHeap

/-- The nodes and the three pointers to them, null or the number of a node. -/
structure Nodes (α : Type) where
  heap : Heap (Node α)
  first : Option ℕ
  divider : Option ℕ
  last : Option ℕ

/-- What `produce` does next, with its argument and what it has read. -/
inductive Produce (α : Type)
  | outside
  | newNode (t : α)
  | linkReadLast (t : α) (node : Option ℕ)
  | link (t : α) (node last : Option ℕ)
  | publishReadLast (t : α)
  | publishReadNext (t : α) (last : Option ℕ)
  | publish (t : α) (next : Option ℕ)
  | increment
  | testReadDivider
  | testReadFirst (divider : Option ℕ)
  | saveFirst
  | cleanReadFirst (temp : Option ℕ)
  | cleanReadNext (temp first : Option ℕ)
  | clean (temp next : Option ℕ)
  | deleteNode (temp : Option ℕ)
  deriving DecidableEq, Repr

/-- What `consume` does next, with the result and what it has read. -/
inductive Consume (α : Type)
  | outside
  | testReadDivider
  | testReadLast (divider : Option ℕ)
  | valueReadDivider
  | valueReadNext (divider : Option ℕ)
  | readValue (next : Option ℕ)
  | moveReadDivider (result : α)
  | moveReadNext (result : α) (divider : Option ℕ)
  | move (result : α) (next : Option ℕ)
  | decrement (result : α)
  deriving DecidableEq, Repr

/-- The queue and its two sides. `fault`: a null pointer or the pointer of a deleted node was
used. `produced` has the arguments of the calls of `produce`, and `returned` what the calls of
`consume` came back with. -/
structure Queue (α : Type) where
  nodes : Nodes α
  size : ℤ := 0
  producer : Produce α := .outside
  consumer : Consume α := .outside
  fault : Bool := false
  produced : List α := []
  returned : List (Option α) := []

/-- `std::atomic<int>` wraps around. -/
def toInt32 (n : ℤ) : ℤ := n.bmod (2^32)

/-- The constructor, with the default value of a node. -/
def start {α : Type} (t : α) (addr : ℕ) : Queue α :=
  { nodes := { heap := { cells := [⟨addr, t, none⟩] }, first := some 0, divider := some 0, last := some 0 } }

section Steps
variable {α : Type}

namespace Nodes
variable (m : Nodes α)

/-- The node at a pointer, if it may be used. -/
def load (p : Option ℕ) : Option (Node α) :=
  p.bind fun i => if m.heap.Alive i then m.heap.get? i else none

/-- Pointers are compared by their addresses. -/
def same (p q : Option ℕ) : Bool := p.bind (addrOf m.heap) = q.bind (addrOf m.heap)

/-- Nothing that is alive lies at an address. -/
def vacant (addr : ℕ) : Bool :=
  (List.range m.heap.size).all fun i => !(decide (m.heap.Alive i) && addrOf m.heap i = some addr)

end Nodes

namespace Queue
variable (s : Queue α)

def consumed : List α := s.returned.reduceOption

/-- A statement that uses the node at a pointer. -/
def access (p : Option ℕ) (f : ℕ → Node α → Queue α) : Queue α :=
  match p, s.nodes.load p with
  | some i, some n => f i n
  | _, _ => { s with fault := true }

/-- The next statement of the producer. A new node may lie at any free address. -/
def producerStep (addr : ℕ) : Queue α :=
  match s.producer with
  | .outside => s
  | .newNode t =>
    if s.nodes.vacant addr then
      { s with nodes := { s.nodes with heap := s.nodes.heap.alloc ⟨addr, t, none⟩ }
               producer := .linkReadLast t (some s.nodes.heap.size) }
    else s
  | .linkReadLast t node => { s with producer := .link t node s.nodes.last }
  | .link t node last =>
    s.access last fun i _ =>
      { s with nodes := { s.nodes with heap := setNext s.nodes.heap i node }
               producer := .publishReadLast t }
  | .publishReadLast t => { s with producer := .publishReadNext t s.nodes.last }
  | .publishReadNext t last => s.access last fun _ n => { s with producer := .publish t n.next }
  | .publish _ next => { s with nodes := { s.nodes with last := next }, producer := .increment }
  | .increment => { s with size := toInt32 (s.size + 1), producer := .testReadDivider }
  | .testReadDivider => { s with producer := .testReadFirst s.nodes.divider }
  | .testReadFirst divider =>
    if s.nodes.same divider s.nodes.first then { s with producer := .outside }
    else { s with producer := .saveFirst }
  | .saveFirst => { s with producer := .cleanReadFirst s.nodes.first }
  | .cleanReadFirst temp => { s with producer := .cleanReadNext temp s.nodes.first }
  | .cleanReadNext temp first => s.access first fun _ n => { s with producer := .clean temp n.next }
  | .clean temp next => { s with nodes := { s.nodes with first := next }, producer := .deleteNode temp }
  | .deleteNode temp =>
    s.access temp fun i _ =>
      { s with nodes := { s.nodes with heap := s.nodes.heap.free i }, producer := .testReadDivider }

/-- The next statement of the consumer. -/
def consumerStep : Queue α :=
  match s.consumer with
  | .outside => s
  | .testReadDivider => { s with consumer := .testReadLast s.nodes.divider }
  | .testReadLast divider =>
    if s.nodes.same divider s.nodes.last then
      { s with consumer := .outside, returned := s.returned ++ [none] }
    else { s with consumer := .valueReadDivider }
  | .valueReadDivider => { s with consumer := .valueReadNext s.nodes.divider }
  | .valueReadNext divider => s.access divider fun _ n => { s with consumer := .readValue n.next }
  | .readValue next => s.access next fun _ n => { s with consumer := .moveReadDivider n.value }
  | .moveReadDivider result => { s with consumer := .moveReadNext result s.nodes.divider }
  | .moveReadNext result divider => s.access divider fun _ n => { s with consumer := .move result n.next }
  | .move result next => { s with nodes := { s.nodes with divider := next }, consumer := .decrement result }
  | .decrement result =>
    { s with size := toInt32 (s.size - 1), consumer := .outside, returned := s.returned ++ [some result] }

end Queue

/-- A call of one of the sides, which comes when the call before it has returned, or the next
statement of a call. -/
inductive Event (α : Type)
  | produce (t : α)
  | producer (addr : ℕ)
  | consume
  | consumer

def step (s : Queue α) : Event α → Queue α
  | .produce t =>
    match s.producer with
    | .outside => { s with producer := .newNode t, produced := s.produced ++ [t] }
    | _ => s
  | .producer addr => s.producerStep addr
  | .consume =>
    match s.consumer with
    | .outside => { s with consumer := .testReadDivider }
    | _ => s
  | .consumer => s.consumerStep

end Steps

section Invariant
variable {α : Type}

/-- How the nodes lie: those the divider has passed, the one it is at and those behind it, up to
the last. `moved` has the values that it has passed and `rest` those behind it; `tail` is a node
that is linked and not published yet. -/
structure Layout (α : Type) where
  old : List ℕ
  front : ℕ
  live : List ℕ
  moved : List α
  rest : List α
  tail : Option ℕ

namespace Layout
variable (g : Layout α)

def all : List ℕ := g.old ++ g.front :: g.live

def published : List α := g.moved ++ g.rest

end Layout

/-- The pointers and nodes are as the layout says. -/
structure Shape (m : Nodes α) (g : Layout α) : Prop where
  first : m.first = g.all.head?
  divider : m.divider = some g.front
  last : m.last = (g.front :: g.live).getLast?
  spine : Spine m.heap g.tail g.all
  nodup : g.all.Nodup
  alive : ∀ i ∈ g.all, m.heap.Alive i
  values : g.live.map (valueOf m.heap) = g.rest.map some
  apart : Apart m.heap
  deleted : ∀ i ∈ m.heap.freed, i < m.heap.size

/-- A node of the producer's own, with this value. -/
def Own (m : Nodes α) (g : Layout α) (t : α) (node : Option ℕ) : Prop :=
  ∃ i, node = some i ∧ m.heap.Alive i ∧ i ∉ g.all ∧ valueOf m.heap i = some t ∧ nextOf m.heap i = none

/-- What the producer has done and read, at each of its statements. -/
def ProducerAt (m : Nodes α) (g : Layout α) (produced : List α) : Produce α → Prop
  | .newNode t => produced = g.published ++ [t] ∧ g.tail = none
  | .linkReadLast t node => produced = g.published ++ [t] ∧ g.tail = none ∧ Own m g t node
  | .link t node last => produced = g.published ++ [t] ∧ g.tail = none ∧ Own m g t node ∧ last = m.last
  | .publishReadLast t => produced = g.published ++ [t] ∧ Own m g t g.tail
  | .publishReadNext t last => produced = g.published ++ [t] ∧ Own m g t g.tail ∧ last = m.last
  | .publish t next => produced = g.published ++ [t] ∧ Own m g t g.tail ∧ next = g.tail
  | .outside | .increment | .testReadDivider => produced = g.published ∧ g.tail = none
  | .testReadFirst divider =>
    produced = g.published ∧ g.tail = none ∧ ∃ i ∈ g.old ++ [g.front], divider = some i
  | .saveFirst => produced = g.published ∧ g.tail = none ∧ g.old ≠ []
  | .cleanReadFirst temp => produced = g.published ∧ g.tail = none ∧ g.old ≠ [] ∧ temp = m.first
  | .cleanReadNext temp first =>
    produced = g.published ∧ g.tail = none ∧ g.old ≠ [] ∧ temp = m.first ∧ first = m.first
  | .clean temp next =>
    produced = g.published ∧ g.tail = none ∧ g.old ≠ [] ∧ temp = m.first ∧ next = g.all.tail.head?
  | .deleteNode temp => produced = g.published ∧ g.tail = none ∧
      ∃ i, temp = some i ∧ m.heap.Alive i ∧ i ∉ g.all ∧ nextOf m.heap i = m.first

/-- What the consumer has done and read, at each of its statements. -/
def ConsumerAt (m : Nodes α) (g : Layout α) (consumed : List α) : Consume α → Prop
  | .outside | .testReadDivider => consumed = g.moved
  | .testReadLast divider => consumed = g.moved ∧ divider = m.divider
  | .valueReadDivider => consumed = g.moved ∧ g.live ≠ []
  | .valueReadNext divider => consumed = g.moved ∧ g.live ≠ [] ∧ divider = m.divider
  | .readValue next => consumed = g.moved ∧ g.live ≠ [] ∧ next = g.live.head?
  | .moveReadDivider result => consumed = g.moved ∧ g.rest.head? = some result
  | .moveReadNext result divider =>
    consumed = g.moved ∧ g.rest.head? = some result ∧ divider = m.divider
  | .move result next => consumed = g.moved ∧ g.rest.head? = some result ∧ next = g.live.head?
  | .decrement result => g.moved = consumed ++ [result]

/-- The number of updates of the size that the producer has made. -/
def increments (g : Layout α) : Produce α → ℤ
  | .increment => g.published.length - 1
  | _ => g.published.length

structure Sound (s : Queue α) (g : Layout α) : Prop where
  shape : Shape s.nodes g
  producer : ProducerAt s.nodes g s.produced s.producer
  consumer : ConsumerAt s.nodes g s.consumed s.consumer
  size : s.size = toInt32 (increments g s.producer - s.consumed.length)
  fault : s.fault = false

section Shape
variable {m : Nodes α} {g : Layout α}

theorem load_alive {i : ℕ} (halive : m.heap.Alive i) : ∃ n, m.load (some i) = some n ∧
    m.heap.get? i = some n := by
  obtain ⟨n, hn⟩ := Option.isSome_iff_exists.mp ((m.heap.get?_isSome i).mpr halive.1)
  exact ⟨n, by rw [Nodes.load, Option.bind_some, if_pos halive, hn], hn⟩

/-- Pointers to nodes of the list have the same address just when they are the same. -/
theorem Shape.same_iff (h : Shape m g) {i j : ℕ} (hi : i ∈ g.all) (hj : j ∈ g.all) :
    m.same (some i) (some j) = true ↔ i = j := by
  rw [Nodes.same, Option.bind_some, Option.bind_some, decide_eq_true_iff]
  constructor
  · exact h.apart i j (h.alive i hi) (h.alive j hj)
  · rintro rfl
    rfl

theorem Shape.length_rest (h : Shape m g) : g.live.length = g.rest.length := by
  have hlen := congrArg List.length h.values
  rwa [List.length_map, List.length_map] at hlen

theorem Shape.last_eq_divider_iff (h : Shape m g) : m.last = m.divider ↔ g.live = [] := by
  rw [h.last, h.divider]
  cases hlive : g.live with
  | nil => simp
  | cons x l =>
    have hnodup := h.nodup
    rw [Layout.all, hlive] at hnodup
    have hfront : g.front ∉ x :: l := (List.nodup_cons.mp (List.nodup_append.mp hnodup).2.1).1
    rw [List.getLast?_cons_cons]
    simp only [reduceCtorEq, iff_false]
    intro hlast
    exact hfront (List.mem_of_getLast? hlast)

end Shape

section Steps
variable {s : Queue α} {g : Layout α}

theorem access_eq {p : Option ℕ} {i : ℕ} {n : Node α} (hp : p = some i)
    (hn : s.nodes.load (some i) = some n) (f : ℕ → Node α → Queue α) : s.access p f = f i n := by
  subst hp
  simp only [Queue.access, hn]

theorem Nodes.same_self (m : Nodes α) (p : Option ℕ) : m.same p p = true := by
  rw [Nodes.same, decide_eq_true_iff]

theorem Sound.producerTo (h : Sound s g) {at' : Produce α} (hat : ProducerAt s.nodes g s.produced at')
    (hsame : increments g at' = increments g s.producer) : Sound { s with producer := at' } g :=
  ⟨h.shape, hat, h.consumer, by rw [hsame]; exact h.size, h.fault⟩

theorem Sound.consumerTo (h : Sound s g) {at' : Consume α}
    (hat : ConsumerAt s.nodes g s.consumed at') : Sound { s with consumer := at' } g :=
  ⟨h.shape, h.producer, hat, h.size, h.fault⟩

/-- Behind the divider comes the first live node. -/
theorem Shape.next_front {m : Nodes α} (h : Shape m g) (hlive : g.live ≠ []) :
    nextOf m.heap g.front = g.live.head? := by
  cases hl : g.live with
  | nil => exact absurd hl hlive
  | cons x l =>
    have hspine := h.spine
    rw [Layout.all, hl] at hspine
    exact hspine.next

theorem live_of_rest {m : Nodes α} (h : Shape m g) {v : α} (hrest : g.rest.head? = some v) :
    g.live ≠ [] := by
  intro hlive
  have hlen := h.length_rest
  rw [hlive] at hlen
  rw [List.length_eq_zero_iff.mp hlen.symm] at hrest
  cases hrest

theorem Shape.read_front {m : Nodes α} (h : Shape m g) (hlive : g.live ≠ []) :
    ∃ n, m.load (some g.front) = some n ∧ n.next = g.live.head? := by
  obtain ⟨n, hload, hget⟩ := load_alive (h.alive g.front (by simp [Layout.all]))
  refine ⟨n, hload, ?_⟩
  rw [← h.next_front hlive, nextOf, hget]
  rfl

/-- The first live node has the first value that is not moved. -/
theorem Shape.read_live {m : Nodes α} (h : Shape m g) {x : ℕ} {l : List ℕ} (hl : g.live = x :: l) :
    ∃ n, m.load (some x) = some n ∧ g.rest.head? = some n.value := by
  obtain ⟨n, hload, hget⟩ := load_alive (h.alive x (by simp [Layout.all, hl]))
  refine ⟨n, hload, ?_⟩
  have hvalues := congrArg List.head? h.values
  rw [hl, List.map_cons, List.head?_cons, List.head?_map, valueOf, hget] at hvalues
  cases hrest : g.rest.head? with
  | none => simp [hrest] at hvalues
  | some v =>
    rw [hrest] at hvalues
    exact (Option.some.inj hvalues).symm

/-- The divider moves on to the first live node. -/
def Layout.move (g : Layout α) (x : ℕ) (l : List ℕ) (v : α) (rest : List α) : Layout α :=
  { g with old := g.old ++ [g.front], front := x, live := l, moved := g.moved ++ [v], rest }

section Move
variable {x : ℕ} {l : List ℕ} {v : α} {rest : List α} (hlive : g.live = x :: l) (hrest : g.rest = v :: rest)

include hrest in
theorem published_move : (g.move x l v rest).published = g.published := by
  simp [Layout.published, Layout.move, hrest]

include hlive

theorem all_move : (g.move x l v rest).all = g.all := by
  simp [Layout.all, Layout.move, hlive]

include hrest

theorem Shape.move {m : Nodes α} (h : Shape m g) :
    Shape { m with divider := some x } (g.move x l v rest) where
  first := by rw [all_move hlive]; exact h.first
  divider := rfl
  last := by
    show m.last = (x :: l).getLast?
    rw [h.last, hlive, List.getLast?_cons_cons]
  spine := by rw [all_move hlive]; exact h.spine
  nodup := by rw [all_move hlive]; exact h.nodup
  alive := by rw [all_move hlive]; exact h.alive
  values := by
    have hvalues := h.values
    rw [hlive, hrest] at hvalues
    exact (List.cons.inj hvalues).2
  apart := h.apart
  deleted := h.deleted

theorem ProducerAt.move {m : Nodes α} {produced : List α} {at' : Produce α}
    (h : ProducerAt m g produced at') :
    ProducerAt { m with divider := some x } (g.move x l v rest) produced at' := by
  have hall : (g.move x l v rest).all = g.all := all_move hlive
  have hpublished : (g.move x l v rest).published = g.published := published_move hrest
  have hold : (g.move x l v rest).old ≠ [] := by simp [Layout.move]
  have hown : ∀ t node, Own m g t node → Own { m with divider := some x } (g.move x l v rest) t node := by
    rintro t node ⟨i, hi⟩
    exact ⟨i, by rw [hall]; exact hi⟩
  cases at' with
  | outside => exact ⟨hpublished ▸ h.1, h.2⟩
  | newNode t => exact ⟨hpublished ▸ h.1, h.2⟩
  | linkReadLast t node => exact ⟨hpublished ▸ h.1, h.2.1, hown _ _ h.2.2⟩
  | link t node last => exact ⟨hpublished ▸ h.1, h.2.1, hown _ _ h.2.2.1, h.2.2.2⟩
  | publishReadLast t => exact ⟨hpublished ▸ h.1, hown _ _ h.2⟩
  | publishReadNext t last => exact ⟨hpublished ▸ h.1, hown _ _ h.2.1, h.2.2⟩
  | publish t next => exact ⟨hpublished ▸ h.1, hown _ _ h.2.1, h.2.2⟩
  | increment => exact ⟨hpublished ▸ h.1, h.2⟩
  | testReadDivider => exact ⟨hpublished ▸ h.1, h.2⟩
  | testReadFirst divider =>
    obtain ⟨hproduced, htail, i, hi, hdivider⟩ := h
    refine ⟨hpublished ▸ hproduced, htail, i, ?_, hdivider⟩
    exact List.mem_append_left _ hi
  | saveFirst => exact ⟨hpublished ▸ h.1, h.2.1, hold⟩
  | cleanReadFirst temp => exact ⟨hpublished ▸ h.1, h.2.1, hold, h.2.2.2⟩
  | cleanReadNext temp first => exact ⟨hpublished ▸ h.1, h.2.1, hold, h.2.2.2⟩
  | clean temp next => exact ⟨hpublished ▸ h.1, h.2.1, hold, h.2.2.2.1, by rw [hall]; exact h.2.2.2.2⟩
  | deleteNode temp => exact ⟨hpublished ▸ h.1, h.2.1, by rw [hall]; exact h.2.2⟩

end Move

theorem increments_congr {g' : Layout α} (h : g'.published = g.published) (at' : Produce α) :
    increments g' at' = increments g at' := by
  cases at' <;> simp [increments, h]

theorem toInt32_toInt32_sub (a b : ℤ) : toInt32 (toInt32 a - b) = toInt32 (a - b) := Int.bmod_sub_bmod ..

theorem Sound.consumerStep (h : Sound s g) : ∃ g', Sound s.consumerStep g' := by
  have hshape := h.shape
  have hconsumer := h.consumer
  unfold Queue.consumerStep
  cases hat : s.consumer with
  | outside => exact ⟨g, h⟩
  | testReadDivider =>
    rw [hat] at hconsumer
    exact ⟨g, h.consumerTo ⟨hconsumer, rfl⟩⟩
  | testReadLast divider =>
    rw [hat] at hconsumer
    obtain ⟨hconsumed, rfl⟩ := hconsumer
    dsimp only
    split
    · have hsame : (s.returned ++ [none]).reduceOption = s.consumed := by
        simp [Queue.consumed, List.reduceOption_append]
      refine ⟨g, hshape, h.producer, hsame.trans hconsumed, ?_, h.fault⟩
      have hsize := h.size
      rw [← hsame] at hsize
      exact hsize
    · rename_i hne
      refine ⟨g, h.consumerTo ⟨hconsumed, fun hlive => hne ?_⟩⟩
      rw [hshape.last_eq_divider_iff.mpr hlive]
      exact Nodes.same_self _ _
  | valueReadDivider =>
    rw [hat] at hconsumer
    exact ⟨g, h.consumerTo ⟨hconsumer.1, hconsumer.2, rfl⟩⟩
  | valueReadNext divider =>
    rw [hat] at hconsumer
    obtain ⟨hconsumed, hlive, hdivider⟩ := hconsumer
    obtain ⟨n, hload, hnext⟩ := hshape.read_front hlive
    dsimp only
    rw [access_eq (hdivider.trans hshape.divider) hload]
    exact ⟨g, h.consumerTo ⟨hconsumed, hlive, hnext⟩⟩
  | readValue next =>
    rw [hat] at hconsumer
    obtain ⟨hconsumed, hlive, hnext⟩ := hconsumer
    cases hl : g.live with
    | nil => exact absurd hl hlive
    | cons x l =>
      obtain ⟨n, hload, hvalue⟩ := hshape.read_live hl
      dsimp only
      rw [access_eq (hnext.trans (by rw [hl]; rfl)) hload]
      exact ⟨g, h.consumerTo ⟨hconsumed, hvalue⟩⟩
  | moveReadDivider result =>
    rw [hat] at hconsumer
    exact ⟨g, h.consumerTo ⟨hconsumer.1, hconsumer.2, rfl⟩⟩
  | moveReadNext result divider =>
    rw [hat] at hconsumer
    obtain ⟨hconsumed, hrest, hdivider⟩ := hconsumer
    obtain ⟨n, hload, hnext⟩ := hshape.read_front (live_of_rest hshape hrest)
    dsimp only
    rw [access_eq (hdivider.trans hshape.divider) hload]
    exact ⟨g, h.consumerTo ⟨hconsumed, hrest, hnext⟩⟩
  | move result next =>
    rw [hat] at hconsumer
    obtain ⟨hconsumed, hrest, rfl⟩ := hconsumer
    have hlive := live_of_rest hshape hrest
    cases hl : g.live with
    | nil => exact absurd hl hlive
    | cons x l =>
      cases hr : g.rest with
      | nil => simp [hr] at hrest
      | cons v rest =>
        have hv : v = result := by simpa [hr] using hrest
        have hpublished : (g.move x l v rest).published = g.published := published_move hr
        refine ⟨g.move x l v rest, hshape.move hl hr, h.producer.move hl hr, ?_, ?_, h.fault⟩
        · show g.moved ++ [v] = s.consumed ++ [result]
          rw [hconsumed, hv]
        · show s.size = toInt32 (increments (g.move x l v rest) s.producer - s.consumed.length)
          rw [increments_congr hpublished]
          exact h.size
  | decrement result =>
    rw [hat] at hconsumer
    have hmore : (s.returned ++ [some result]).reduceOption = s.consumed ++ [result] := by
      simp [Queue.consumed, List.reduceOption_append]
    refine ⟨g, hshape, h.producer, hmore.trans hconsumer.symm, ?_, h.fault⟩
    show toInt32 (s.size - 1) = toInt32 (increments g s.producer - (s.returned ++ [some result]).reduceOption.length)
    rw [hmore, h.size, toInt32_toInt32_sub, List.length_append, List.length_singleton]
    push_cast
    congr 1
    omega

theorem Shape.lt_size {m : Nodes α} (h : Shape m g) {i : ℕ} (hi : i ∈ g.all) : i < m.heap.size :=
  (h.alive i hi).1

/-- The list of nodes up to the last one. -/
theorem Shape.exists_last {m : Nodes α} (h : Shape m g) :
    ∃ l i, g.all = l ++ [i] ∧ i ∉ l ∧ m.last = some i := by
  have hne : g.front :: g.live ≠ [] := List.cons_ne_nil _ _
  have hall : g.all = (g.old ++ (g.front :: g.live).dropLast) ++ [(g.front :: g.live).getLast hne] := by
    rw [List.append_assoc, List.dropLast_append_getLast]
    rfl
  refine ⟨_, _, hall, ?_, h.last.trans (List.getLast?_eq_getLast_of_ne_nil hne)⟩
  have hnodup := h.nodup
  rw [hall] at hnodup
  intro hmem
  exact (List.nodup_append.mp hnodup).2.2 _ hmem _ (List.mem_singleton_self _) rfl

theorem Shape.read_last {m : Nodes α} (h : Shape m g) :
    ∃ i n, i ∈ g.all ∧ m.last = some i ∧ m.load (some i) = some n ∧ n.next = g.tail := by
  obtain ⟨l, i, hall, -, hi⟩ := h.exists_last
  have hmem : i ∈ g.all := by simp [hall]
  obtain ⟨n, hload, hget⟩ := load_alive (h.alive i hmem)
  have hspine := (spine_append.mp (hall ▸ h.spine : Spine _ g.tail (l ++ [i]))).2.1
  rw [nextOf, hget] at hspine
  exact ⟨i, n, hmem, hi, hload, hspine⟩

/-- While nodes lie before the divider, the first is followed by the second of the list. -/
theorem Shape.next_first {m : Nodes α} (h : Shape m g) (hold : g.old ≠ []) (htail : g.tail = none) :
    ∃ i, m.first = some i ∧ i ∈ g.all ∧ nextOf m.heap i = g.all.tail.head? := by
  cases ho : g.old with
  | nil => exact absurd ho hold
  | cons i old =>
    have hall : g.all = i :: ({ g with old } : Layout α).all := by simp [Layout.all, ho]
    have hspine := (hall ▸ h.spine : Spine _ g.tail (i :: _)).1
    rw [htail, Option.or_none] at hspine
    exact ⟨i, by rw [h.first, hall]; rfl, by simp [hall], by rw [hall]; exact hspine⟩

theorem Shape.alloc {m : Nodes α} (h : Shape m g) {n : Node α}
    (hvacant : m.vacant n.addr = true) : Shape { m with heap := m.heap.alloc n } g where
  first := h.first
  divider := h.divider
  last := h.last
  spine := h.spine.congr fun _ hi => nextOf_alloc_of_lt (h.lt_size hi)
  nodup := h.nodup
  alive i hi := (h.alive i hi).alloc
  values := by
    rw [← h.values]
    apply List.map_congr_left
    intro i hi
    exact valueOf_alloc_of_lt (h.lt_size (by simp [Layout.all, hi]))
  apart := h.apart.alloc fun i hi haddr => by
    have hfree := List.all_eq_true.mp hvacant i (List.mem_range.mpr hi.1)
    simp [hi, haddr] at hfree
  deleted i hi := by
    rw [Heap.size_alloc]
    exact Nat.lt_succ_of_lt (h.deleted i hi)

theorem Shape.own_alloc {m : Nodes α} (h : Shape m g) (addr : ℕ) (t : α) :
    Own { m with heap := m.heap.alloc ⟨addr, t, none⟩ } g t (some m.heap.size) :=
  ⟨m.heap.size, rfl, Heap.alive_alloc_new h.deleted, fun hi => Nat.lt_irrefl _ (h.lt_size hi),
    by rw [valueOf, get?_alloc_size]; rfl, by rw [nextOf, get?_alloc_size]; rfl⟩

/-- The last node is linked to a new one. -/
theorem Shape.link {m : Nodes α} (h : Shape m g) (htail : g.tail = none) {i : ℕ}
    (hlast : m.last = some i) (node : Option ℕ) :
    Shape { m with heap := setNext m.heap i node } { g with tail := node } where
  first := h.first
  divider := h.divider
  last := h.last
  spine := by
    obtain ⟨l, j, hall, hj, hlast'⟩ := h.exists_last
    obtain rfl : i = j := Option.some.inj (hlast.symm.trans hlast')
    have hspine := h.spine
    rw [htail, hall] at hspine
    show Spine _ node g.all
    rw [hall]
    refine hspine.link (nextOf_setNext (h.lt_size (by simp [hall]))) fun k hk => ?_
    exact nextOf_setNext_of_ne fun hik => hj (hik ▸ hk)
  nodup := h.nodup
  alive k hk := alive_setNext.mpr (h.alive k hk)
  values := (List.map_congr_left fun _ _ => valueOf_setNext).trans h.values
  apart := h.apart.setNext i node
  deleted k hk := by
    rw [size_setNext]
    exact h.deleted k hk

theorem Own.link {m : Nodes α} {t : α} {node : Option ℕ} (h : Own m g t node) {i : ℕ}
    (hi : i ∈ g.all) (tail : Option ℕ) :
    Own { m with heap := setNext m.heap i tail } { g with tail } t node := by
  obtain ⟨j, hnode, halive, hj, hvalue, hnext⟩ := h
  have hij : i ≠ j := fun hij => hj (hij ▸ hi)
  exact ⟨j, hnode, alive_setNext.mpr halive, hj, valueOf_setNext.trans hvalue,
    (nextOf_setNext_of_ne hij).trans hnext⟩

/-- The linked node becomes the last one. -/
def Layout.publish (g : Layout α) (i : ℕ) (t : α) : Layout α :=
  { g with live := g.live ++ [i], rest := g.rest ++ [t], tail := none }

theorem all_publish (i : ℕ) (t : α) : (g.publish i t).all = g.all ++ [i] := by
  simp [Layout.all, Layout.publish]

theorem published_publish (i : ℕ) (t : α) : (g.publish i t).published = g.published ++ [t] := by
  simp [Layout.published, Layout.publish]

theorem Shape.publish {m : Nodes α} (h : Shape m g) {t : α} {i : ℕ} (htail : g.tail = some i)
    (halive : m.heap.Alive i) (hi : i ∉ g.all) (hvalue : valueOf m.heap i = some t)
    (hnext : nextOf m.heap i = none) : Shape { m with last := some i } (g.publish i t) where
  first := by
    show m.first = (g.publish i t).all.head?
    rw [h.first, all_publish, List.head?_append]
    simp [Layout.all]
  divider := h.divider
  last := by simp [Layout.publish, List.getLast?_cons]
  spine := by
    rw [all_publish]
    exact (htail ▸ h.spine : Spine m.heap (some i) g.all).concat hnext
  nodup := by
    rw [all_publish]
    rw [← List.concat_eq_append]
    exact List.Nodup.concat hi h.nodup
  alive j hj := by
    rw [all_publish] at hj
    rcases List.mem_append.mp hj with hj | hj
    · exact h.alive j hj
    · rw [List.mem_singleton.mp hj]
      exact halive
  values := by
    show (g.live ++ [i]).map (valueOf m.heap) = (g.rest ++ [t]).map some
    rw [List.map_append, List.map_append, h.values, List.map_singleton, hvalue]
    rfl
  apart := h.apart
  deleted := h.deleted

theorem ConsumerAt.publish {m : Nodes α} {consumed : List α} {at' : Consume α}
    (h : ConsumerAt m g consumed at') (hshape : Shape m g) (i : ℕ) (t : α) (last : Option ℕ) :
    ConsumerAt { m with last } (g.publish i t) consumed at' := by
  have hlive : (g.publish i t).live ≠ [] := by simp [Layout.publish]
  have hhead : g.live ≠ [] → (g.publish i t).live.head? = g.live.head? := by
    intro hne
    cases hl : g.live with
    | nil => exact absurd hl hne
    | cons x l => simp [Layout.publish, hl]
  have hrest : ∀ {v}, g.rest.head? = some v → (g.publish i t).rest.head? = some v := by
    intro v hv
    cases hr : g.rest with
    | nil => simp [hr] at hv
    | cons w rest => simpa [Layout.publish, hr] using hv
  cases at' with
  | outside => exact h
  | testReadDivider => exact h
  | testReadLast divider => exact h
  | valueReadDivider => exact ⟨h.1, hlive⟩
  | valueReadNext divider => exact ⟨h.1, hlive, h.2.2⟩
  | readValue next => exact ⟨h.1, hlive, h.2.2.trans (hhead h.2.1).symm⟩
  | moveReadDivider result => exact ⟨h.1, hrest h.2⟩
  | moveReadNext result divider => exact ⟨h.1, hrest h.2.1, h.2.2⟩
  | move result next =>
    exact ⟨h.1, hrest h.2.1, h.2.2.trans (hhead (live_of_rest hshape h.2.1)).symm⟩
  | decrement result => exact h

/-- The first node is taken off the list. -/
theorem Shape.clean {m : Nodes α} (h : Shape m g) {i : ℕ} {old : List ℕ} (hold : g.old = i :: old) :
    Shape { m with first := ({ g with old } : Layout α).all.head? } { g with old } ∧
      m.first = some i ∧ m.heap.Alive i ∧ i ∉ ({ g with old } : Layout α).all ∧ g.all = i :: ({ g with old } : Layout α).all := by
  have hall : g.all = i :: ({ g with old } : Layout α).all := by simp [Layout.all, hold]
  have hnodup := List.nodup_cons.mp (hall ▸ h.nodup)
  refine ⟨⟨rfl, h.divider, h.last, ?_, hnodup.2, ?_, h.values, h.apart, h.deleted⟩, ?_, ?_, hnodup.1, hall⟩
  · exact (hall ▸ h.spine : Spine m.heap g.tail (i :: _)).2
  · intro j hj
    exact h.alive j (hall ▸ List.mem_cons_of_mem i hj)
  · rw [h.first, hall]
    rfl
  · exact h.alive i (by simp [hall])

theorem Shape.free {m : Nodes α} (h : Shape m g) {i : ℕ} (halive : m.heap.Alive i) (hi : i ∉ g.all) :
    Shape { m with heap := m.heap.free i } g where
  first := h.first
  divider := h.divider
  last := h.last
  spine := h.spine.congr fun _ _ => rfl
  nodup := h.nodup
  alive j hj := Heap.alive_free.mpr ⟨h.alive j hj, fun hji => hi (hji ▸ hj)⟩
  values := h.values
  apart := h.apart.free i
  deleted j hj := by
    rcases List.mem_cons.mp hj with rfl | hj
    · exact halive.1
    · exact h.deleted j hj

theorem toInt32_toInt32_add (a b : ℤ) : toInt32 (toInt32 a + b) = toInt32 (a + b) := Int.bmod_add_bmod ..

theorem Sound.producerStep (h : Sound s g) (addr : ℕ) : ∃ g', Sound (s.producerStep addr) g' := by
  have hshape := h.shape
  have hproducer := h.producer
  have hsize := h.size
  unfold Queue.producerStep
  cases hat : s.producer with
  | outside => exact ⟨g, h⟩
  | newNode t =>
    rw [hat] at hproducer hsize
    dsimp only
    split
    · rename_i hvacant
      exact ⟨g, hshape.alloc hvacant, ⟨hproducer.1, hproducer.2, hshape.own_alloc addr t⟩, h.consumer,
        hsize, h.fault⟩
    · exact ⟨g, h⟩
  | linkReadLast t node =>
    rw [hat] at hproducer
    exact ⟨g, h.producerTo ⟨hproducer.1, hproducer.2.1, hproducer.2.2, rfl⟩ (by rw [hat]; rfl)⟩
  | link t node last =>
    rw [hat] at hproducer hsize
    obtain ⟨hproduced, htail, hown, hlast⟩ := hproducer
    obtain ⟨i, n, hmem, hi, hload, -⟩ := hshape.read_last
    dsimp only
    rw [access_eq (hlast.trans hi) hload]
    exact ⟨{ g with tail := node }, hshape.link htail hi node, ⟨hproduced, hown.link hmem node⟩,
      h.consumer, hsize, h.fault⟩
  | publishReadLast t =>
    rw [hat] at hproducer
    exact ⟨g, h.producerTo ⟨hproducer.1, hproducer.2, rfl⟩ (by rw [hat]; rfl)⟩
  | publishReadNext t last =>
    rw [hat] at hproducer
    obtain ⟨hproduced, hown, hlast⟩ := hproducer
    obtain ⟨i, n, -, hi, hload, hnext⟩ := hshape.read_last
    dsimp only
    rw [access_eq (hlast.trans hi) hload]
    exact ⟨g, h.producerTo ⟨hproduced, hown, hnext⟩ (by rw [hat]; rfl)⟩
  | publish t next =>
    rw [hat] at hproducer hsize
    obtain ⟨hproduced, ⟨i, htail, halive, hi, hvalue, hnext⟩, rfl⟩ := hproducer
    refine ⟨g.publish i t, ?_, ⟨?_, rfl⟩, h.consumer.publish hshape i t _, ?_, h.fault⟩
    · dsimp only
      rw [htail]
      exact hshape.publish htail halive hi hvalue hnext
    · rw [published_publish]
      exact hproduced
    · show s.size = toInt32 (((g.publish i t).published.length - 1 : ℤ) - s.consumed.length)
      rw [published_publish, List.length_append, List.length_singleton, hsize]
      congr 1
      push_cast
      simp only [increments]
      omega
  | increment =>
    rw [hat] at hproducer hsize
    refine ⟨g, hshape, hproducer, h.consumer, ?_, h.fault⟩
    show toInt32 (s.size + 1) = toInt32 ((g.published.length : ℤ) - s.consumed.length)
    rw [hsize, toInt32_toInt32_add]
    congr 1
    simp only [increments]
    omega
  | testReadDivider =>
    rw [hat] at hproducer
    have hdivider : ∃ i ∈ g.old ++ [g.front], s.nodes.divider = some i := ⟨g.front, by simp, hshape.divider⟩
    exact ⟨g, h.producerTo ⟨hproducer.1, hproducer.2, hdivider⟩ (by rw [hat]; rfl)⟩
  | testReadFirst divider =>
    rw [hat] at hproducer
    obtain ⟨hproduced, htail, i, hi, rfl⟩ := hproducer
    dsimp only
    split
    · exact ⟨g, h.producerTo ⟨hproduced, htail⟩ (by rw [hat]; rfl)⟩
    · rename_i hne
      refine ⟨g, h.producerTo ⟨hproduced, htail, fun hold => hne ?_⟩ (by rw [hat]; rfl)⟩
      have hfirst : s.nodes.first = some g.front := by
        rw [hshape.first, Layout.all, hold]
        rfl
      rw [hold, List.nil_append, List.mem_singleton] at hi
      rw [hi, hfirst]
      exact Nodes.same_self _ _
  | saveFirst =>
    rw [hat] at hproducer
    exact ⟨g, h.producerTo ⟨hproducer.1, hproducer.2.1, hproducer.2.2, rfl⟩ (by rw [hat]; rfl)⟩
  | cleanReadFirst temp =>
    rw [hat] at hproducer
    exact ⟨g, h.producerTo ⟨hproducer.1, hproducer.2.1, hproducer.2.2.1, hproducer.2.2.2, rfl⟩
      (by rw [hat]; rfl)⟩
  | cleanReadNext temp first =>
    rw [hat] at hproducer
    obtain ⟨hproduced, htail, hold, htemp, hfirst⟩ := hproducer
    obtain ⟨i, hi, hmem, hsecond⟩ := hshape.next_first hold htail
    obtain ⟨n, hload, hget⟩ := load_alive (hshape.alive i hmem)
    have hnext : n.next = g.all.tail.head? := by
      rw [nextOf, hget] at hsecond
      exact hsecond
    dsimp only
    rw [access_eq (hfirst.trans hi) hload]
    exact ⟨g, h.producerTo ⟨hproduced, htail, hold, htemp, hnext⟩ (by rw [hat]; rfl)⟩
  | clean temp next =>
    rw [hat] at hproducer hsize
    obtain ⟨hproduced, htail, hold, htemp, hnext⟩ := hproducer
    obtain ⟨j, hj, -, hnode⟩ := hshape.next_first hold htail
    cases ho : g.old with
    | nil => exact absurd ho hold
    | cons i old =>
      obtain ⟨hclean, hfirst, halive, hi, hall⟩ := hshape.clean ho
      obtain rfl : i = j := Option.some.inj (hfirst.symm.trans hj)
      rw [hall, List.tail_cons] at hnext hnode
      rw [hnext]
      exact ⟨{ g with old }, hclean, ⟨hproduced, htail, i, htemp.trans hfirst, halive, hi, hnode⟩,
        h.consumer, hsize, h.fault⟩
  | deleteNode temp =>
    rw [hat] at hproducer hsize
    obtain ⟨hproduced, htail, i, htemp, halive, hi, -⟩ := hproducer
    obtain ⟨n, hload, -⟩ := load_alive halive
    dsimp only
    rw [access_eq htemp hload]
    exact ⟨g, hshape.free halive hi, ⟨hproduced, htail⟩, h.consumer, hsize, h.fault⟩

theorem Sound.step (h : Sound s g) (e : Event α) : ∃ g', Sound (step s e) g' := by
  cases e with
  | produce t =>
    unfold LockFreeQueue.step
    cases hat : s.producer with
    | outside =>
      have hproducer := h.producer
      have hsize := h.size
      rw [hat] at hproducer hsize
      exact ⟨g, h.shape, ⟨by rw [hproducer.1], hproducer.2⟩, h.consumer, hsize, h.fault⟩
    | _ => exact ⟨g, h⟩
  | producer addr => exact h.producerStep addr
  | consume =>
    unfold LockFreeQueue.step
    cases hat : s.consumer with
    | outside =>
      have hconsumer := h.consumer
      rw [hat] at hconsumer
      exact ⟨g, h.consumerTo hconsumer⟩
    | _ => exact ⟨g, h⟩
  | consumer => exact h.consumerStep

theorem sound_start (t : α) (addr : ℕ) : Sound (start t addr) ⟨[], 0, [], [], [], none⟩ where
  shape :=
    { first := rfl
      divider := rfl
      last := rfl
      spine := ⟨rfl, trivial⟩
      nodup := List.nodup_cons.mpr ⟨List.not_mem_nil, List.nodup_nil⟩
      alive := by simp [Layout.all, start, Heap.Alive, Heap.size]
      values := rfl
      apart := by
        intro i j hi hj _
        have hlt : ∀ {k}, (start t addr).nodes.heap.Alive k → k < 1 := fun hk => hk.1
        have hi := hlt hi
        have hj := hlt hj
        omega
      deleted := by simp [start] }
  producer := ⟨rfl, rfl⟩
  consumer := rfl
  size := Int.zero_bmod.symm
  fault := rfl

theorem sound_run (t : α) (addr : ℕ) (es : List (Event α)) :
    ∃ g, Sound (Runs.run LockFreeQueue.step (start t addr) es) g := by
  have hrun : ∀ (s : Queue α) (g : Layout α), Sound s g → ∃ g', Sound (Runs.run LockFreeQueue.step s es) g' := by
    induction es with
    | nil => exact fun s g h => ⟨g, h⟩
    | cons e es ih =>
      intro s g h
      obtain ⟨g', h'⟩ := h.step e
      exact ih _ g' h'
  exact hrun _ _ (sound_start t addr)

theorem Sound.consumed_prefix (h : Sound s g) : s.consumed <+: s.produced := by
  have hconsumer := h.consumer
  have hproducer := h.producer
  have hmoved : s.consumed <+: g.moved := by
    cases hat : s.consumer <;> rw [hat] at hconsumer
    case decrement result => exact ⟨[result], hconsumer.symm⟩
    case outside => exact hconsumer ▸ List.prefix_rfl
    case testReadDivider => exact hconsumer ▸ List.prefix_rfl
    all_goals exact hconsumer.1 ▸ List.prefix_rfl
  have hpublished : g.published <+: s.produced := by
    cases hat : s.producer <;> rw [hat] at hproducer <;> simp [hproducer.1]
  exact hmoved.trans ((List.prefix_append _ _).trans hpublished)

theorem access_cases (p : Option ℕ) (f : ℕ → Node α → Queue α) :
    s.access p f = { s with fault := true } ∨ ∃ i n, p = some i ∧ s.access p f = f i n := by
  unfold Queue.access
  split
  · rename_i i n _
    exact Or.inr ⟨i, n, rfl, rfl⟩
  · exact Or.inl rfl

/-- What a statement leaves alone, it leaves alone where its access fails, too. -/
theorem access_same {β : Type} (field : Queue α → β) {p : Option ℕ} {f : ℕ → Node α → Queue α}
    (hfault : field { s with fault := true } = field s) (hf : ∀ i n, field (f i n) = field s) :
    field (s.access p f) = field s := by
  rcases access_cases (s := s) p f with heq | ⟨i, n, -, heq⟩
  · rw [heq, hfault]
  · rw [heq, hf]

theorem returned_producerStep (addr : ℕ) : (s.producerStep addr).returned = s.returned := by
  unfold Queue.producerStep
  split
  case h_2 => split <;> rfl
  case h_4 => exact access_same Queue.returned rfl fun _ _ => rfl
  case h_6 => exact access_same Queue.returned rfl fun _ _ => rfl
  case h_10 => split <;> rfl
  case h_13 => exact access_same Queue.returned rfl fun _ _ => rfl
  case h_15 => exact access_same Queue.returned rfl fun _ _ => rfl
  all_goals rfl

theorem freed_consumerStep : s.consumerStep.nodes.heap.freed = s.nodes.heap.freed := by
  unfold Queue.consumerStep
  split
  case h_3 => split <;> rfl
  case h_5 => exact access_same (fun s => s.nodes.heap.freed) rfl fun _ _ => rfl
  case h_6 => exact access_same (fun s => s.nodes.heap.freed) rfl fun _ _ => rfl
  case h_8 => exact access_same (fun s => s.nodes.heap.freed) rfl fun _ _ => rfl
  all_goals rfl

/-- A result is given by the test and by the last statement of `consume`. -/
theorem returned_consumerStep : s.consumerStep.returned = s.returned ∨
    (∃ divider, s.consumer = .testReadLast divider ∧ s.nodes.same divider s.nodes.last = true) ∨
    ∃ v, s.consumerStep.returned = s.returned ++ [some v] := by
  unfold Queue.consumerStep
  cases hat : s.consumer with
  | testReadLast divider =>
    dsimp only
    split
    · rename_i hsame
      exact Or.inr (Or.inl ⟨divider, rfl, hsame⟩)
    · exact Or.inl rfl
  | valueReadNext divider => exact Or.inl (access_same Queue.returned rfl fun _ _ => rfl)
  | readValue next => exact Or.inl (access_same Queue.returned rfl fun _ _ => rfl)
  | moveReadNext result divider => exact Or.inl (access_same Queue.returned rfl fun _ _ => rfl)
  | decrement result => exact Or.inr (Or.inr ⟨result, rfl⟩)
  | _ => exact Or.inl rfl

/-- Only the statement that deletes a node does so. -/
theorem freed_producerStep (addr : ℕ) :
    (s.producerStep addr).nodes.heap.freed = s.nodes.heap.freed ∨
      ∃ i, s.producer = .deleteNode (some i) ∧
        (s.producerStep addr).nodes.heap.freed = i :: s.nodes.heap.freed := by
  unfold Queue.producerStep
  cases hat : s.producer with
  | newNode t =>
    dsimp only
    split <;> exact Or.inl rfl
  | link t node last => exact Or.inl (access_same (fun s => s.nodes.heap.freed) rfl fun _ _ => rfl)
  | publishReadNext t last => exact Or.inl (access_same (fun s => s.nodes.heap.freed) rfl fun _ _ => rfl)
  | testReadFirst divider =>
    dsimp only
    split <;> exact Or.inl rfl
  | cleanReadNext temp first => exact Or.inl (access_same (fun s => s.nodes.heap.freed) rfl fun _ _ => rfl)
  | deleteNode temp =>
    dsimp only
    rcases access_cases (s := s) temp fun i _ => { s with
        nodes := { s.nodes with heap := s.nodes.heap.free i }, producer := .testReadDivider } with
      heq | ⟨i, n, hi, heq⟩
    · rw [heq]
      exact Or.inl rfl
    · rw [heq]
      exact Or.inr ⟨i, by rw [hi], rfl⟩
  | _ => exact Or.inl rfl

/-- A call begins with the queue as it is. -/
theorem step_produce (t : α) : (LockFreeQueue.step s (.produce t)).nodes = s.nodes ∧
    (LockFreeQueue.step s (.produce t)).returned = s.returned := by
  cases hat : s.producer <;> simp [LockFreeQueue.step, hat]

theorem step_consume : (LockFreeQueue.step s .consume).nodes = s.nodes ∧
    (LockFreeQueue.step s .consume).returned = s.returned := by
  cases hat : s.consumer <;> simp [LockFreeQueue.step, hat]

/-- Only an empty queue makes `consume` return false. -/
theorem Sound.returned_false (h : Sound s g) {e : Event α}
    (hfalse : (LockFreeQueue.step s e).returned = s.returned ++ [none]) : s.nodes.divider = s.nodes.last := by
  have hno : s.returned ≠ s.returned ++ [none] := fun hsame => by simpa using congrArg List.length hsame
  cases e with
  | produce t => exact absurd ((step_produce t).2.symm.trans hfalse) hno
  | producer addr => exact absurd ((returned_producerStep addr).symm.trans hfalse) hno
  | consume => exact absurd (step_consume.2.symm.trans hfalse) hno
  | consumer =>
    rcases returned_consumerStep (s := s) with hsame | ⟨divider, hat, hsame⟩ | ⟨v, hmore⟩
    · exact absurd (hsame.symm.trans hfalse) hno
    · have hconsumer := h.consumer
      rw [hat] at hconsumer
      obtain ⟨l, i, hall, -, hi⟩ := h.shape.exists_last
      rw [hconsumer.2, h.shape.divider, hi] at hsame
      have heq := (h.shape.same_iff (by simp [Layout.all]) (by simp [hall])).mp hsame
      rw [h.shape.divider, hi, heq]
    · have hlast := List.append_cancel_left (hmore.symm.trans hfalse)
      cases hlast

/-- The node that is deleted comes before the divider. -/
theorem Sound.deleted_before (h : Sound s g) {e : Event α} {i : ℕ}
    (hi : i ∈ (LockFreeQueue.step s e).nodes.heap.freed) : i ∈ s.nodes.heap.freed ∨
      ∃ d, s.nodes.divider = some d ∧ s.nodes.heap.Alive i ∧ Before s.nodes.heap i d := by
  cases e with
  | produce t =>
    rw [(step_produce t).1] at hi
    exact Or.inl hi
  | producer addr =>
    rcases freed_producerStep (s := s) addr with hsame | ⟨j, hat, hmore⟩
    · exact Or.inl (hsame ▸ hi)
    · have hproducer := h.producer
      rw [hat] at hproducer
      obtain ⟨-, -, k, hk, halive, -, hnext⟩ := hproducer
      obtain rfl := Option.some.inj hk
      rcases List.mem_cons.mp (hmore ▸ hi : i ∈ j :: _) with rfl | hi
      · refine Or.inr ⟨g.front, h.shape.divider, halive, ?_⟩
        have hspine := h.shape.spine
        rw [h.shape.first] at hnext
        cases hold : g.old with
        | nil =>
          rw [Layout.all, hold] at hnext
          exact .single hnext
        | cons x old =>
          rw [Layout.all, hold] at hnext hspine
          exact .head hnext hspine.before
      · exact Or.inl hi
  | consume =>
    rw [step_consume.1] at hi
    exact Or.inl hi
  | consumer => exact Or.inl (freed_consumerStep (s := s) ▸ hi)

/-- Between the calls of `produce` the size is the number of values in the queue, as far as 32
bits hold it. -/
theorem Sound.size_between (h : Sound s g) (hproducer : s.producer = .outside) :
    s.size = toInt32 ((s.produced.length : ℤ) - s.consumed.length) := by
  have hproduced := h.producer
  have hsize := h.size
  rw [hproducer] at hproduced hsize
  rw [hsize, hproduced.1]
  rfl

theorem Sound.size_eq (h : Sound s g) (hproducer : s.producer = .outside)
    (hroom : s.produced.length < 2^31 + s.consumed.length) :
    s.size = (s.produced.length : ℤ) - s.consumed.length := by
  have hle := h.consumed_prefix.length_le
  rw [h.size_between hproducer]
  exact Int.bmod_eq_of_le (by omega) (by omega)

end Steps

end Invariant

/-- However the statements of both sides follow each other: no deleted node is used, what is
consumed is a prefix of what is produced, `consume` returns false where the divider is at the
last node, only nodes before the divider are deleted, and with no call under way the size is
the number of values in the queue, while 32 bits hold it. -/
theorem queue_run {α : Type} (t : α) (addr : ℕ) (es : List (Event α)) :
    let s := Runs.run step (start t addr) es
    s.fault = false ∧ s.consumed <+: s.produced ∧
    (∀ e, (step s e).returned = s.returned ++ [none] → s.nodes.divider = s.nodes.last) ∧
    (∀ e, ∀ i ∈ (step s e).nodes.heap.freed, i ∈ s.nodes.heap.freed ∨
      ∃ d, s.nodes.divider = some d ∧ s.nodes.heap.Alive i ∧ Before s.nodes.heap i d) ∧
    (s.producer = .outside → s.consumer = .outside →
      s.size = toInt32 ((s.produced.length : ℤ) - s.consumed.length) ∧
      (s.produced.length < 2^31 + s.consumed.length →
        s.size = (s.produced.length : ℤ) - s.consumed.length)) := by
  intro s
  obtain ⟨g, h⟩ := sound_run t addr es
  exact ⟨h.fault, h.consumed_prefix, fun e => h.returned_false, fun e i => h.deleted_before,
    fun hproducer _ => ⟨h.size_between hproducer, h.size_eq hproducer⟩⟩

section Overflow

/-- The nodes after so many calls of `produce` and none of `consume`. -/
def filledHeap (t : ℕ) (n : ℕ) : Heap (Node ℕ) :=
  { cells := (List.range (n+1)).map fun i => ⟨i, t, if i < n then some (i+1) else none⟩ }

def filled (t : ℕ) (n : ℕ) : Queue ℕ :=
  { nodes := { heap := filledHeap t n, first := some 0, divider := some 0, last := some n }
    size := toInt32 n
    produced := List.replicate n t }

theorem get?_filledHeap (t n i : ℕ) : (filledHeap t n).get? i =
    if i < n + 1 then some ⟨i, t, if i < n then some (i+1) else none⟩ else none := by
  unfold Heap.get? filledHeap
  by_cases hi : i < n + 1
  · simp [hi]
  · simp [hi]

theorem size_filledHeap (t n : ℕ) : (filledHeap t n).size = n + 1 := by simp [Heap.size, filledHeap]

theorem filledHeap_succ (t n : ℕ) :
    setNext ((filledHeap t n).alloc ⟨n+1, t, none⟩) n (some (n+1)) = filledHeap t (n+1) := by
  have hget : ∀ i, (setNext ((filledHeap t n).alloc ⟨n+1, t, none⟩) n (some (n+1))).get? i =
      (filledHeap t (n+1)).get? i := by
    intro i
    rw [get?_setNext, Heap.get?_alloc, size_filledHeap, get?_filledHeap, get?_filledHeap]
    rcases Nat.lt_trichotomy i n with hi | rfl | hi
    · simp [show i < n + 1 by omega, show i < n + 1 + 1 by omega, show n ≠ i by omega, show i ≠ n + 1 by omega, hi]
    · simp [show i < i + 1 + 1 by omega]
    · by_cases hnew : i = n + 1
      · simp [hnew]
      · simp [show ¬ i < n + 1 by omega, show ¬ i < n + 1 + 1 by omega, show n ≠ i by omega, hnew]
  have hcells := List.ext_getElem? hget
  exact congrArg (fun cells => ({ cells } : Heap (Node ℕ))) hcells

theorem load_filled {t n i : ℕ} (hi : i < n + 1) (m : Nodes ℕ) (hm : m.heap = filledHeap t n) :
    m.load (some i) = some ⟨i, t, if i < n then some (i+1) else none⟩ := by
  have halive : m.heap.Alive i := by
    rw [hm]
    exact ⟨by rw [size_filledHeap]; exact hi, List.not_mem_nil⟩
  rw [Nodes.load, Option.bind_some, if_pos halive, hm, get?_filledHeap, if_pos hi]

theorem vacant_filled (t n : ℕ) (m : Nodes ℕ) (hm : m.heap = filledHeap t n) : m.vacant (n+1) = true := by
  rw [Nodes.vacant, hm, List.all_eq_true]
  intro i hi
  have hlt : i < n + 1 := by
    rw [List.mem_range, size_filledHeap] at hi
    exact hi
  have haddr : addrOf (filledHeap t n) i = some i := by
    rw [addrOf, get?_filledHeap, if_pos hlt]
    rfl
  rw [haddr]
  simp [show i ≠ n + 1 by omega]

/-- A call of `produce` without an interruption. -/
def callProduce (t addr : ℕ) : List (Event ℕ) := .produce t :: List.replicate 9 (.producer addr)

theorem run_callProduce (t n : ℕ) : Runs.run step (filled t n) (callProduce t (n+1)) = filled t (n+1) := by
  have hvacant := vacant_filled t n (filled t n).nodes rfl
  have hsize := size_filledHeap t n
  have hheap := filledHeap_succ t n
  have hlink : ∀ m : Nodes ℕ, m.heap = (filledHeap t n).alloc ⟨n+1, t, none⟩ →
      m.load (some n) = some ⟨n, t, none⟩ := by
    intro m hm
    have halive : m.heap.Alive n := by
      rw [hm]
      exact ⟨by rw [Heap.size_alloc, hsize]; omega, List.not_mem_nil⟩
    rw [Nodes.load, Option.bind_some, if_pos halive, hm, Heap.get?_alloc, hsize, if_neg (by omega),
      get?_filledHeap, if_pos (by omega), if_neg (by omega)]
  have hpublish : ∀ m : Nodes ℕ, m.heap = filledHeap t (n+1) →
      m.load (some n) = some ⟨n, t, some (n+1)⟩ := by
    intro m hm
    rw [load_filled (by omega) m hm, if_pos (by omega)]
  have hcount : toInt32 (toInt32 n + 1) = toInt32 ((n + 1 : ℕ) : ℤ) := toInt32_toInt32_add ..
  have hproduced : List.replicate n t ++ [t] = List.replicate (n+1) t := List.replicate_succ'.symm
  simp only [filled] at hvacant
  simp only [callProduce, List.replicate, Runs.run_cons, Runs.run_nil, step, Queue.producerStep, filled,
    if_pos hvacant, hsize, Queue.access, hlink, hpublish, hheap, Nodes.same_self, if_true, hcount, hproduced]

theorem run_filled (t n : ℕ) : ∃ es, Runs.run step (start t 0) es = filled t n := by
  induction n with
  | zero => exact ⟨[], rfl⟩
  | succ n ih =>
    obtain ⟨es, hes⟩ := ih
    exact ⟨es ++ callProduce t (n+1), by rw [Runs.run_append, hes, run_callProduce]⟩

/-- After 2^31 calls of `produce` and none of `consume` the size is negative. -/
theorem size_overflows : ∃ es, let s := Runs.run step (start 0 0) es
    s.producer = .outside ∧ s.consumer = .outside ∧ s.produced.length = 2^31 ∧ s.consumed.length = 0 ∧
      s.size = -2^31 := by
  obtain ⟨es, hes⟩ := run_filled 0 (2^31)
  refine ⟨es, ?_⟩
  rw [hes]
  exact ⟨rfl, rfl, List.length_replicate, rfl, by decide⟩

end Overflow

end LockFreeQueue
end XrtcServer
