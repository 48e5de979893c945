import Mathlib.Logic.Relation
import XrtcServer.ObjectHeap

/-! Singly linked nodes on a heap. A node lies at an address, which it keeps; the address of a
deleted node may be used again. -/
namespace LinkedNodes
open ObjectHeap
variable {α : Type*}

structure Node (α : Type*) where
  addr : ℕ
  value : α
  next : Option ℕ
  deriving DecidableEq, Repr

def addrOf (h : Heap (Node α)) (i : ℕ) : Option ℕ := (h.get? i).map Node.addr
def valueOf (h : Heap (Node α)) (i : ℕ) : Option α := (h.get? i).map Node.value
def nextOf (h : Heap (Node α)) (i : ℕ) : Option ℕ := (h.get? i).bind Node.next

def setNext (h : Heap (Node α)) (i : ℕ) (next : Option ℕ) : Heap (Node α) :=
  h.modify i fun n => { n with next }

/-- The nodes follow each other, and the last one points to the tail. -/
def Spine (h : Heap (Node α)) (tail : Option ℕ) : List ℕ → Prop
  | [] => True
  | i :: l => nextOf h i = l.head?.or tail ∧ Spine h tail l

/-- The second node comes some time after the first. -/
def Before (h : Heap (Node α)) : ℕ → ℕ → Prop := Relation.TransGen fun i j => nextOf h i = some j

/-- No two nodes that are alive share an address. -/
def Apart (h : Heap (Node α)) : Prop := ∀ i j, h.Alive i → h.Alive j → addrOf h i = addrOf h j → i = j

section Spine
variable {h h' : Heap (Node α)} {tail : Option ℕ} {l r : List ℕ} {i j : ℕ}

theorem Spine.congr (hs : Spine h tail l) (hsame : ∀ i ∈ l, nextOf h' i = nextOf h i) : Spine h' tail l := by
  induction l with
  | nil => exact hs
  | cons i l ih =>
    exact ⟨(hsame i List.mem_cons_self).trans hs.1, ih hs.2 fun j hj => hsame j (List.mem_cons_of_mem i hj)⟩

theorem spine_append : Spine h tail (l ++ r) ↔ Spine h (r.head?.or tail) l ∧ Spine h tail r := by
  induction l with
  | nil => simp [Spine]
  | cons i l ih => simp [Spine, ih, Option.or_assoc, and_assoc]

theorem Spine.right (hs : Spine h tail (l ++ r)) : Spine h tail r := (spine_append.mp hs).2

/-- A node in the middle points to the one behind it. -/
theorem Spine.next (hs : Spine h tail (l ++ i :: j :: r)) : nextOf h i = some j := hs.right.1

theorem Spine.before (hs : Spine h tail (i :: (l ++ j :: r))) : Before h i j := by
  induction l generalizing i with
  | nil => exact .single hs.1
  | cons k l ih => exact .head hs.1 (ih hs.2)

/-- The last node is linked to another one. -/
theorem Spine.link (hs : Spine h none (l ++ [i])) (hnew : nextOf h' i = tail)
    (hsame : ∀ j ∈ l, nextOf h' j = nextOf h j) : Spine h' tail (l ++ [i]) := by
  obtain ⟨hfront, -⟩ := spine_append.mp hs
  refine spine_append.mpr ⟨?_, ?_⟩
  · have hlinked : Spine h' (some i) l := hfront.congr hsame
    exact hlinked
  · exact ⟨hnew, trivial⟩

/-- The linked node becomes the last. -/
theorem Spine.concat (hs : Spine h (some j) l) (hj : nextOf h j = none) : Spine h none (l ++ [j]) :=
  spine_append.mpr ⟨hs, hj, trivial⟩

end Spine

section Heap
variable {h : Heap (Node α)} {n : Node α} {i j : ℕ} {next : Option ℕ}

theorem get?_alloc_of_lt (hj : j < h.size) : (h.alloc n).get? j = h.get? j := by
  rw [Heap.get?_alloc, if_neg (Nat.ne_of_lt hj)]

@[simp] theorem get?_alloc_size : (h.alloc n).get? h.size = some n := by
  rw [Heap.get?_alloc, if_pos rfl]

theorem valueOf_alloc_of_lt (hj : j < h.size) : valueOf (h.alloc n) j = valueOf h j := by
  rw [valueOf, valueOf, get?_alloc_of_lt hj]

theorem nextOf_alloc_of_lt (hj : j < h.size) : nextOf (h.alloc n) j = nextOf h j := by
  rw [nextOf, nextOf, get?_alloc_of_lt hj]

theorem addrOf_alloc_of_lt (hj : j < h.size) : addrOf (h.alloc n) j = addrOf h j := by
  rw [addrOf, addrOf, get?_alloc_of_lt hj]

theorem get?_setNext : (setNext h i next).get? j =
    if i = j then (h.get? j).map fun n => { n with next } else h.get? j := Heap.get?_modify ..

@[simp] theorem size_setNext : (setNext h i next).size = h.size := Heap.size_modify ..
@[simp] theorem alive_setNext : (setNext h i next).Alive j ↔ h.Alive j := Heap.alive_modify

@[simp] theorem addrOf_setNext : addrOf (setNext h i next) j = addrOf h j := by
  rw [addrOf, addrOf, get?_setNext]
  split
  · rw [Option.map_map]
    rfl
  · rfl

@[simp] theorem valueOf_setNext : valueOf (setNext h i next) j = valueOf h j := by
  rw [valueOf, valueOf, get?_setNext]
  split
  · rw [Option.map_map]
    rfl
  · rfl

theorem nextOf_setNext_of_ne (hij : i ≠ j) : nextOf (setNext h i next) j = nextOf h j := by
  rw [nextOf, nextOf, get?_setNext, if_neg hij]

theorem nextOf_setNext (hi : i < h.size) : nextOf (setNext h i next) i = next := by
  obtain ⟨n, hn⟩ := Option.isSome_iff_exists.mp ((h.get?_isSome i).mpr hi)
  rw [nextOf, get?_setNext, if_pos rfl, hn]
  rfl

theorem Apart.free (ha : Apart h) (i : ℕ) : Apart (h.free i) := fun j k hj hk hjk =>
  ha j k (Heap.alive_free.mp hj).1 (Heap.alive_free.mp hk).1 hjk

theorem Apart.setNext (ha : Apart h) (i : ℕ) (next : Option ℕ) : Apart (setNext h i next) := by
  intro j k hj hk hjk
  rw [addrOf_setNext, addrOf_setNext] at hjk
  exact ha j k (alive_setNext.mp hj) (alive_setNext.mp hk) hjk

/-- A node may be put where no node is alive. -/
theorem Apart.alloc (ha : Apart h) (hfresh : ∀ i, h.Alive i → addrOf h i ≠ some n.addr) :
    Apart (h.alloc n) := by
  have hold : ∀ {i}, (h.alloc n).Alive i → i ≠ h.size → h.Alive i ∧ i < h.size := by
    intro i hi hne
    have hlt : i < h.size := by
      have hsize := hi.1
      rw [Heap.size_alloc] at hsize
      omega
    exact ⟨⟨hlt, hi.2⟩, hlt⟩
  have hnew : addrOf (h.alloc n) h.size = some n.addr := by rw [addrOf, get?_alloc_size]; rfl
  intro i j hi hj hij
  by_cases hiSize : i = h.size
  · by_cases hjSize : j = h.size
    · rw [hiSize, hjSize]
    · obtain ⟨hjAlive, hjLt⟩ := hold hj hjSize
      rw [hiSize, hnew, addrOf_alloc_of_lt hjLt] at hij
      exact absurd hij.symm (hfresh j hjAlive)
  · obtain ⟨hiAlive, hiLt⟩ := hold hi hiSize
    by_cases hjSize : j = h.size
    · rw [hjSize, hnew, addrOf_alloc_of_lt hiLt] at hij
      exact absurd hij (hfresh i hiAlive)
    · obtain ⟨hjAlive, hjLt⟩ := hold hj hjSize
      rw [addrOf_alloc_of_lt hiLt, addrOf_alloc_of_lt hjLt] at hij
      exact ha i j hiAlive hjAlive hij

end Heap
end LinkedNodes
