import Mathlib.Data.List.Nodup

/-! Iterators into a map, which is the list of its elements in order. An iterator is the key of
its element, or nothing at the end. -/
namespace MapIterators

variable {κ α : Type*} [DecidableEq κ]

def keyList (m : List (κ × α)) : List κ := m.map Prod.fst

def start (m : List (κ × α)) : Option κ := m.head?.map Prod.fst

/-- The value of the element of an iterator, if it has one. -/
def value (m : List (κ × α)) (it : Option κ) : Option α :=
  it.bind fun k => (m.find? fun e => e.1 = k).map Prod.snd

/-- The iterator behind another one. -/
def next (m : List (κ × α)) (k : κ) : Option κ := start (m.dropWhile fun e => e.1 ≠ k).tail

def erase (m : List (κ × α)) (k : κ) : List (κ × α) := m.eraseP fun e => e.1 = k

def assign (m : List (κ × α)) (k : κ) (a : α) : List (κ × α) := m.map fun e => if e.1 = k then (e.1, a) else e

section Split
variable {done rest : List (κ × α)} {k : κ} {a : α}

omit [DecidableEq κ] in
theorem keyList_append (done rest : List (κ × α)) : keyList (done ++ rest) = keyList done ++ keyList rest := List.map_append

omit [DecidableEq κ] in
theorem ne_of_not_mem (h : k ∉ keyList done) : ∀ e ∈ done, e.1 ≠ k := fun _ he heq => h (heq ▸ List.mem_map_of_mem he)

theorem value_split (h : k ∉ keyList done) : value (done ++ (k, a) :: rest) (some k) = some a := by
  have hnone : done.find? (fun e => decide (e.1 = k)) = none :=
    List.find?_eq_none.mpr fun e he => by simpa using ne_of_not_mem h e he
  simp [value, List.find?_append, hnone]

theorem next_split (h : k ∉ keyList done) : next (done ++ (k, a) :: rest) k = start rest := by
  have hall : ∀ e ∈ done, decide (e.1 ≠ k) = true := fun e he => decide_eq_true (ne_of_not_mem h e he)
  rw [next, List.dropWhile_append_of_pos hall, List.dropWhile_cons_of_neg (by simp), List.tail_cons]

theorem erase_split (h : k ∉ keyList done) : erase (done ++ (k, a) :: rest) k = done ++ rest := by
  have hnone : ∀ e ∈ done, ¬decide (e.1 = k) = true := fun e he => by simpa using ne_of_not_mem h e he
  rw [erase, List.eraseP_append_right _ hnone, List.eraseP_cons_of_pos (by simp)]

theorem assign_split {b : α} (h : k ∉ keyList done) (h' : k ∉ keyList rest) :
    assign (done ++ (k, a) :: rest) k b = done ++ (k, b) :: rest := by
  have hsame (m : List (κ × α)) (hm : k ∉ keyList m) : (m.map fun e => if e.1 = k then (e.1, b) else e) = m := by
    rw [List.map_congr_left (g := id), List.map_id]
    exact fun e he => if_neg (ne_of_not_mem hm e he)
  rw [assign, List.map_append, List.map_cons, hsame done h, hsame rest h', if_pos rfl]

end Split

end MapIterators
