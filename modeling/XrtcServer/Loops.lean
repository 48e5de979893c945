import Mathlib.Data.Nat.Init

/-! Loops with a body that either leaves with a result or goes round again. A loop
that never leaves has no result. -/
namespace Loops
variable {σ ρ : Type*}

/-- The result of a loop from a state. -/
def result (body : σ → ρ ⊕ σ) (s : σ) : Option ρ :=
  match body s with
  | .inl r => some r
  | .inr s' => by
    -- by tactics, so that the term keeps no position of the call
    apply result
    · exact body
    · exact s'
partial_fixpoint

variable {body : σ → ρ ⊕ σ} {s s' : σ} {r : ρ}

theorem result_leave (h : body s = .inl r) : result body s = some r := by
  rw [result, h]

theorem result_again (h : body s = .inr s') : result body s = result body s' := by
  rw [result, h]

/-- What holds before the loop and is kept by its body holds when the loop leaves. -/
theorem result_post {I : σ → Prop} {Q : ρ → Prop}
    (hagain : ∀ s s', I s → body s = .inr s' → I s')
    (hleave : ∀ s r, I s → body s = .inl r → Q r)
    (h : I s) (hr : result body s = some r) : Q r := by
  have hall : ∀ s r, result body s = some r → I s → Q r := by
    apply result.partial_correctness
    intro f ih s r hs hInv
    cases hb : body s with
    | inl r' =>
      rw [hb] at hs
      obtain rfl := Option.some.inj hs
      exact hleave s r' hInv hb
    | inr s' =>
      rw [hb] at hs
      exact ih s' r hs (hagain s s' hInv hb)
  exact hall s r hr h

/-- A loop that keeps an invariant and always gets closer to its end has a result. -/
theorem exists_result {I : σ → Prop} (μ : σ → ℕ)
    (hagain : ∀ s s', I s → body s = .inr s' → I s' ∧ μ s' < μ s) (h : I s) :
    ∃ r, result body s = some r := by
  generalize hm : μ s = m
  induction m using Nat.strong_induction_on generalizing s with
  | _ m ih =>
    cases hb : body s with
    | inl r => exact ⟨r, result_leave hb⟩
    | inr s' =>
      have hs' := hagain s s' h hb
      rw [result_again hb]
      exact ih (μ s') (hm ▸ hs'.2) hs'.1 rfl

end Loops
