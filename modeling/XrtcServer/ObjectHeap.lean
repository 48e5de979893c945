import Mathlib.Data.List.Basic

/-! Objects that are created and deleted by hand. An object is known by the number
of its creation; a deletion is recorded even when the object was deleted before. -/
namespace ObjectHeap

/-- The objects in the order of creation, with their last contents, and the numbers
of the deleted objects, one for each deletion. -/
structure Heap (α : Type*) where
  cells : List α := []
  freed : List ℕ := []
  deriving DecidableEq, Repr

namespace Heap
variable {α : Type*}

def size (h : Heap α) : ℕ := h.cells.length

/-- Created and not deleted. -/
def Alive (h : Heap α) (i : ℕ) : Prop := i < h.size ∧ i ∉ h.freed

instance (h : Heap α) (i : ℕ) : Decidable (h.Alive i) := inferInstanceAs (Decidable (_ ∧ _))

/-- The number of deletions of an object. -/
def deletions (h : Heap α) (i : ℕ) : ℕ := h.freed.count i

/-- The new object has the old size as its number. -/
def alloc (h : Heap α) (x : α) : Heap α := { h with cells := h.cells ++ [x] }

def free (h : Heap α) (i : ℕ) : Heap α := { h with freed := i :: h.freed }

def modify (h : Heap α) (i : ℕ) (f : α → α) : Heap α := { h with cells := h.cells.modify i f }

def get? (h : Heap α) (i : ℕ) : Option α := h.cells[i]?

variable (h : Heap α) (x : α) (f : α → α) (i j : ℕ)

@[simp] theorem size_alloc : (h.alloc x).size = h.size + 1 := by simp [size, alloc]
@[simp] theorem size_free : (h.free i).size = h.size := rfl
@[simp] theorem size_modify : (h.modify i f).size = h.size := by simp [size, modify]

@[simp] theorem freed_alloc : (h.alloc x).freed = h.freed := rfl
@[simp] theorem freed_free : (h.free i).freed = i :: h.freed := rfl
@[simp] theorem freed_modify : (h.modify i f).freed = h.freed := rfl

@[simp] theorem get?_free : (h.free i).get? j = h.get? j := rfl

theorem get?_alloc : (h.alloc x).get? j = if j = h.size then some x else h.get? j := by
  show (h.cells ++ [x])[j]? = if j = h.cells.length then some x else h.cells[j]?
  by_cases hj : j = h.cells.length
  · simp [hj]
  · rw [if_neg hj]
    by_cases hlt : j < h.cells.length
    · rw [List.getElem?_append_left hlt]
    · rw [List.getElem?_eq_none (by simp; omega), List.getElem?_eq_none (by omega)]

theorem get?_modify : (h.modify i f).get? j = if i = j then (h.get? j).map f else h.get? j := by
  unfold get? modify
  rw [List.getElem?_modify]
  cases h.cells[j]? <;> by_cases hij : i = j <;> simp [hij]

theorem modify_alloc : (h.alloc x).modify h.size f = h.alloc (f x) := by
  have hcells : ((h.alloc x).modify h.size f).cells = (h.alloc (f x)).cells := by
    apply List.ext_getElem?
    intro k
    show ((h.alloc x).modify h.size f).get? k = (h.alloc (f x)).get? k
    rw [get?_modify, get?_alloc, get?_alloc]
    by_cases hk : k = h.size
    · simp [hk]
    · simp [hk, Ne.symm hk]
  exact congrArg (fun cells => ({ cells, freed := h.freed } : Heap α)) hcells

theorem get?_isSome : (h.get? i).isSome ↔ i < h.size := by simp [get?, size]

theorem get?_eq_none : h.get? i = none ↔ h.size ≤ i := by simp [get?, size]

variable {h x f i j}

theorem lt_of_get? (hx : h.get? i = some x) : i < h.size :=
  (h.get?_isSome i).mp (by simp [hx])

theorem Alive.alloc (hi : h.Alive i) : (h.alloc x).Alive i :=
  ⟨by rw [size_alloc]; exact Nat.lt_succ_of_lt hi.1, hi.2⟩

/-- Deletions concern created objects only, so the next object starts alive. -/
theorem alive_alloc_new (hf : ∀ k ∈ h.freed, k < h.size) : (h.alloc x).Alive h.size :=
  ⟨by rw [size_alloc]; exact Nat.lt_succ_self _, fun hm => Nat.lt_irrefl _ (hf _ hm)⟩

@[simp] theorem alive_modify : (h.modify i f).Alive j ↔ h.Alive j := by
  rw [Alive, Alive, size_modify, freed_modify]

theorem alive_free : (h.free i).Alive j ↔ h.Alive j ∧ j ≠ i := by
  simp only [Alive, size_free, freed_free, List.mem_cons, not_or]
  exact ⟨fun ⟨h₁, h₂, h₃⟩ => ⟨⟨h₁, h₃⟩, h₂⟩, fun ⟨⟨h₁, h₃⟩, h₂⟩ => ⟨h₁, h₂, h₃⟩⟩

theorem deletions_eq_zero (hi : h.Alive i) : h.deletions i = 0 :=
  List.count_eq_zero_of_not_mem hi.2

end Heap
end ObjectHeap
