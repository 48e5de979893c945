import Mathlib.Data.Int.CardIntervalMod

/-! A ring of places that are visited one after the other, each time from behind the place that was
visited last. -/
namespace RingScan
variable {n cursor j k l : ℕ}

/-- So many places behind a cursor. -/
def behind (n cursor k : ℕ) : List ℕ := (List.range k).map fun i => (cursor + i + 1) % n

/-- A visit goes on where the one before stopped. -/
theorem behind_add (n cursor k l : ℕ) :
    behind n cursor (k + l) = behind n cursor k ++ behind n ((cursor + k) % n) l := by
  rw [behind, List.range_add, List.map_append, List.map_map]
  congr 1
  refine List.map_congr_left fun i _ => ?_
  rw [Function.comp_apply, Nat.add_assoc ((cursor + k) % n), Nat.mod_add_mod]
  congr 1
  omega

theorem count_behind_eq_count (n cursor j k : ℕ) :
    (behind n cursor k).count j = k.count fun i => (cursor + i + 1) % n = j := by
  rw [behind, List.count, List.countP_map, Nat.count]
  refine List.countP_congr fun i _ => ?_
  simp

/-- The places take turns: each is visited once in every round. -/
theorem count_behind (hj : j < n) (cursor k : ℕ) :
    (behind n cursor k).count j = k / n ∨ (behind n cursor k).count j = k / n + 1 := by
  have hn : 0 < n := Nat.zero_lt_of_lt hj
  have hplace : ∀ i, (cursor + i + 1) % n = j ↔ i ≡ j + (n - (cursor + 1) % n) [MOD n] := by
    intro i
    have hlt : (cursor + 1) % n < n := Nat.mod_lt _ hn
    have hback : (cursor + 1) % n + (j + (n - (cursor + 1) % n)) = j + n := by omega
    have hleft : (cursor + i + 1) % n = ((cursor + 1) % n + i) % n := by
      rw [Nat.mod_add_mod]
      congr 1
      omega
    have hright : j = ((cursor + 1) % n + (j + (n - (cursor + 1) % n))) % n := by
      rw [hback, Nat.add_mod_right, Nat.mod_eq_of_lt hj]
    rw [hleft]
    constructor
    · intro h
      exact Nat.ModEq.add_left_cancel' _ (h.trans hright)
    · intro h
      rw [hright]
      exact h.add_left _
  rw [count_behind_eq_count]
  simp only [hplace]
  rw [Nat.count_modEq_card _ hn]
  split
  · exact .inr rfl
  · exact .inl rfl

end RingScan
