import Mathlib.Data.List.Infix

/-! Where a pattern can occur in a list that is put together with a separator. -/
namespace Substrings
variable {α : Type*} {p u v x y : List α} {c : α}

theorem prefix_append_cons (h : c ∉ p) : p <+: x ++ c :: y ↔ p <+: x := by
  induction p generalizing x with
  | nil => simp
  | cons a p ih =>
    obtain ⟨hne, hp⟩ := not_or.mp (List.mem_cons.not.mp h)
    cases x with
    | nil => simp [Ne.symm hne]
    | cons b x => rw [List.cons_append, List.cons_prefix_cons, List.cons_prefix_cons, ih hp]

/-- A pattern without the separator occurs in one of the two parts. -/
theorem infix_append_cons (h : c ∉ p) : p <:+: x ++ c :: y ↔ p <:+: x ∨ p <:+: y := by
  induction x with
  | nil =>
    have hprefix := prefix_append_cons (x := []) (y := y) h
    rw [List.nil_append, List.prefix_nil] at hprefix
    rw [List.nil_append, List.infix_cons_iff, hprefix, List.infix_nil]
  | cons a x ih =>
    rw [List.cons_append, List.infix_cons_iff, List.infix_cons_iff, ih, ← List.cons_append, prefix_append_cons h, or_assoc]

/-- A pattern with one separator occurs across the only separator of the list. -/
theorem aligned_of_infix (hx : c ∉ x) (hy : c ∉ y) (h : u ++ c :: v <:+: x ++ c :: y) : u <:+ x ∧ v <+: y := by
  obtain ⟨l, r, heq⟩ := h
  have heq : x ++ c :: y = (l ++ u) ++ c :: (v ++ r) := by simpa using heq.symm
  obtain ⟨rfl, -, rfl⟩ := (List.append_cons_inj_of_notMem hx hy).mp heq
  exact ⟨List.suffix_append l u, List.prefix_append v r⟩

/-- A pattern with a separator does not occur in a list without one. -/
theorem not_infix_of_not_mem (hp : c ∈ p) (hx : c ∉ x) : ¬ p <:+: x := fun h => hx (h.subset hp)

end Substrings
