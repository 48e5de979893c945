import Mathlib.Data.List.Rotate

/-! A list that grows up to a capacity and is then written over, the oldest value first. The
index is the place of the next write. -/

structure OverwriteRing (α : Type*) where
  values : List α := []
  index : ℕ := 0

namespace OverwriteRing
variable {α : Type*} {capacity : ℕ} {xs : List α} {r : OverwriteRing α}

def push (capacity : ℕ) (r : OverwriteRing α) (a : α) : OverwriteRing α where
  values := if r.index < r.values.length then r.values.set r.index a else r.values ++ [a]
  index := (r.index + 1) % capacity

/-- The ring holds the last values of a list. Read from its index on, the oldest comes first. -/
structure Holds (capacity : ℕ) (xs : List α) (r : OverwriteRing α) : Prop where
  inOrder : r.values.rotate r.index = xs.drop (xs.length - capacity)
  index_eq : r.index = xs.length % capacity

theorem Holds.length (h : Holds capacity xs r) : r.values.length = min xs.length capacity := by
  rw [← List.length_rotate, h.inOrder, List.length_drop]
  omega

/-- A write over the oldest value makes it the newest. -/
theorem rotate_set {l : List α} {i : ℕ} (hi : i < l.length) (a : α) :
    (l.set i a).rotate ((i + 1) % l.length) = (l.rotate i).tail ++ [a] := by
  have hset : l.set i a = l.take i ++ a :: l.drop (i + 1) := List.set_eq_take_append_cons_drop.trans (if_pos hi)
  have hlen : (l.take i ++ [a]).length = i + 1 := by
    rw [List.length_append, List.length_take_of_le hi.le, List.length_singleton]
  have hmod : (l.set i a).rotate ((i + 1) % l.length) = (l.set i a).rotate (i + 1) := by
    have hlength : (l.set i a).length = l.length := List.length_set
    rw [← hlength, List.rotate_mod]
  have hsplit : l.take i ++ a :: l.drop (i + 1) = (l.take i ++ [a]) ++ l.drop (i + 1) := by
    rw [List.append_assoc, List.singleton_append]
  rw [hmod, hset, hsplit, ← hlen, List.rotate_append_length_eq, hlen,
    List.rotate_eq_drop_append_take hi.le, List.drop_eq_getElem_cons hi, List.cons_append, List.tail_cons,
    List.append_assoc]

theorem Holds.push (h : Holds capacity xs r) (hc : 0 < capacity) (a : α) :
    Holds capacity (xs ++ [a]) (push capacity r a) := by
  have hlen := h.length
  have hindex := h.index_eq
  refine ⟨?_, by simp [OverwriteRing.push, hindex]⟩
  simp only [OverwriteRing.push, List.length_append, List.length_singleton]
  by_cases hfull : capacity ≤ xs.length
  · have hcapacity : r.values.length = capacity := by omega
    have hlt : r.index < r.values.length := by
      rw [hindex, hcapacity]
      exact Nat.mod_lt _ hc
    have hdrop : (xs.drop (xs.length - capacity)).tail = xs.drop (xs.length + 1 - capacity) := by
      rw [List.tail_drop]
      congr 1
      omega
    rw [if_pos hlt, ← hcapacity, rotate_set hlt, h.inOrder, hcapacity, hdrop,
      List.drop_append_of_le_length (by omega)]
  · have hsame : r.index = r.values.length := by
      rw [hindex, Nat.mod_eq_of_lt (by omega)]
      omega
    have hall : r.values = xs := by
      have horder := h.inOrder
      rwa [hsame, List.rotate_length, Nat.sub_eq_zero_of_le (by omega), List.drop_zero] at horder
    rw [if_neg (by omega), hsame, hall, Nat.sub_eq_zero_of_le (by omega), List.drop_zero]
    rcases Nat.eq_or_lt_of_le (show xs.length + 1 ≤ capacity by omega) with hwrap | hroom
    · rw [hwrap, Nat.mod_self, List.rotate_zero]
    · have hend : xs.length + 1 = (xs ++ [a]).length := by simp
      rw [Nat.mod_eq_of_lt hroom, hend, List.rotate_length]

theorem holds_nil : Holds capacity ([] : List α) {} := ⟨by simp, (Nat.zero_mod capacity).symm⟩

end OverwriteRing
