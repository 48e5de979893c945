import Mathlib.Data.List.Perm.Basic
import Mathlib.Data.List.Nodup
import Mathlib.Order.Defs.LinearOrder
import Mathlib.Order.Basic
import Mathlib.Order.Lattice

/-! Containers that are sorted by a key: lists with a stable insertion, and multimaps
whose entries are known by numbers that stay valid until the entry is erased. -/
namespace Containers
variable {α κ ν : Type*}

section Insertion
variable [LinearOrder κ]

/-- Insertion behind everything that has no greater key. -/
def insertBy (key : α → κ) (a : α) : List α → List α
  | [] => [a]
  | b :: bs => if key a < key b then a :: b :: bs else b :: insertBy key a bs

/-- Ascending keys. -/
def SortedBy (key : α → κ) (l : List α) : Prop := l.Pairwise fun a b => key a ≤ key b

variable {key : α → κ} {a b : α} {l : List α}

theorem insertBy_perm (key : α → κ) (a : α) (l : List α) : (insertBy key a l).Perm (a :: l) := by
  induction l with
  | nil => exact List.Perm.refl _
  | cons b bs ih =>
    rw [insertBy]
    split
    · exact List.Perm.refl _
    · exact (ih.cons b).trans (List.Perm.swap a b bs)

theorem mem_insertBy : b ∈ insertBy key a l ↔ b = a ∨ b ∈ l :=
  (insertBy_perm key a l).mem_iff.trans List.mem_cons

theorem insertBy_ne_nil : insertBy key a l ≠ [] := by
  intro h
  have hmem : a ∈ insertBy key a l := mem_insertBy.mpr (Or.inl rfl)
  rw [h] at hmem
  exact List.not_mem_nil hmem

theorem SortedBy.insertBy (h : SortedBy key l) (a : α) : SortedBy key (insertBy key a l) := by
  induction l with
  | nil => exact List.pairwise_singleton _ _
  | cons b bs ih =>
    obtain ⟨hb, hbs⟩ := List.pairwise_cons.mp h
    rw [Containers.insertBy]
    split
    · rename_i hlt
      refine List.pairwise_cons.mpr ⟨fun c hc => ?_, h⟩
      rcases List.mem_cons.mp hc with rfl | hc
      · exact hlt.le
      · exact hlt.le.trans (hb c hc)
    · rename_i hle
      refine List.pairwise_cons.mpr ⟨fun c hc => ?_, ih hbs⟩
      rcases mem_insertBy.mp hc with rfl | hc
      · exact not_lt.mp hle
      · exact hb c hc

theorem SortedBy.head_le (h : SortedBy key (a :: l)) (hb : b ∈ a :: l) : key a ≤ key b := by
  rcases List.mem_cons.mp hb with rfl | hb
  · exact le_refl _
  · exact (List.pairwise_cons.mp h).1 b hb

theorem SortedBy.tail (h : SortedBy key (a :: l)) : SortedBy key l := (List.pairwise_cons.mp h).2

end Insertion

structure Entry (κ ν : Type*) where
  id : ℕ
  key : κ
  value : ν

/-- `next` is the number of the next entry. -/
structure Multimap (κ ν : Type*) where
  entries : List (Entry κ ν) := []
  next : ℕ := 0

namespace Multimap

/-- A new entry stands behind those of the same key; its number is the old `next`. -/
def emplace [LinearOrder κ] (m : Multimap κ ν) (key : κ) (value : ν) : Multimap κ ν where
  entries := insertBy Entry.key ⟨m.next, key, value⟩ m.entries
  next := m.next + 1

def erase (m : Multimap κ ν) (id : ℕ) : Multimap κ ν :=
  { m with entries := m.entries.filter fun e => e.id ≠ id }

/-- The entry that a number is for. -/
def find? (m : Multimap κ ν) (id : ℕ) : Option (Entry κ ν) := m.entries.find? fun e => e.id = id

variable {m : Multimap κ ν} {e e' : Entry κ ν}

theorem mem_erase {id : ℕ} : e ∈ (m.erase id).entries ↔ e ∈ m.entries ∧ e.id ≠ id := by
  simp [erase]

variable [LinearOrder κ]

theorem mem_emplace {key : κ} {value : ν} :
    e ∈ (m.emplace key value).entries ↔ e = ⟨m.next, key, value⟩ ∨ e ∈ m.entries := mem_insertBy

/-- The keys ascend, and each entry has a number of its own that was given out. -/
structure WellFormed (m : Multimap κ ν) : Prop where
  sorted : SortedBy Entry.key m.entries
  nodup : (m.entries.map Entry.id).Nodup
  bounded : ∀ e ∈ m.entries, e.id < m.next

theorem wellFormed_empty : ({} : Multimap κ ν).WellFormed where
  sorted := List.Pairwise.nil
  nodup := List.nodup_nil
  bounded _ h := absurd h List.not_mem_nil

theorem WellFormed.emplace (h : m.WellFormed) (key : κ) (value : ν) :
    (m.emplace key value).WellFormed where
  sorted := h.sorted.insertBy _
  nodup := by
    have hperm : (m.emplace key value).entries.Perm (⟨m.next, key, value⟩ :: m.entries) :=
      insertBy_perm _ _ _
    rw [(hperm.map Entry.id).nodup_iff]
    refine List.nodup_cons.mpr ⟨fun hmem => ?_, h.nodup⟩
    obtain ⟨e, he, hid⟩ := List.mem_map.mp hmem
    exact Nat.ne_of_lt (h.bounded e he) hid
  bounded e he := by
    rcases mem_emplace.mp he with rfl | he
    · exact Nat.lt_succ_self _
    · exact Nat.lt_succ_of_lt (h.bounded e he)

theorem WellFormed.erase (h : m.WellFormed) (id : ℕ) : (m.erase id).WellFormed where
  sorted := h.sorted.filter _
  nodup := h.nodup.sublist (List.filter_sublist.map _)
  bounded e he := h.bounded e (mem_erase.mp he).1

/-- A number is for one entry. -/
theorem WellFormed.eq_of_id (h : m.WellFormed) (he : e ∈ m.entries) (he' : e' ∈ m.entries)
    (hid : e.id = e'.id) : e = e' :=
  List.inj_on_of_nodup_map h.nodup he he' hid

theorem WellFormed.find?_of_mem (h : m.WellFormed) (he : e ∈ m.entries) :
    m.find? e.id = some e := by
  cases hf : m.find? e.id with
  | none => exact absurd (List.find?_eq_none.mp hf e he) (by simp)
  | some e' =>
    have hid : e'.id = e.id := by simpa using List.find?_some hf
    rw [h.eq_of_id (List.mem_of_find?_eq_some hf) he hid]

/-- The first entry has a least key. -/
theorem WellFormed.head_le (h : m.WellFormed) (hh : m.entries.head? = some e)
    (he' : e' ∈ m.entries) : e.key ≤ e'.key := by
  obtain ⟨rest, hrest⟩ := List.head?_eq_some_iff.mp hh
  have hsorted := h.sorted
  rw [hrest] at hsorted he'
  exact hsorted.head_le he'

end Multimap
end Containers
