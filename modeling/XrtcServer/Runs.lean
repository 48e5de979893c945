import Mathlib.Logic.Basic

/-! Runs of a deterministic step function over a list of events, and properties
that hold at every step of a run. -/
namespace Runs

variable {σ ε : Type*}

/-- The state after a list of events. -/
def run (step : σ → ε → σ) (s : σ) (es : List ε) : σ := es.foldl step s

@[simp] theorem run_nil (step : σ → ε → σ) (s : σ) : run step s [] = s := rfl

@[simp] theorem run_cons (step : σ → ε → σ) (s : σ) (e : ε) (es : List ε) :
    run step s (e :: es) = run step (step s e) es := rfl

theorem run_append (step : σ → ε → σ) (s : σ) (es es' : List ε) :
    run step s (es ++ es') = run step (run step s es) es' := List.foldl_append

/-- The property holds of every state that the run passes through and the event
that comes next there. -/
def Along (step : σ → ε → σ) (P : σ → ε → Prop) : σ → List ε → Prop
  | _, [] => True
  | s, e :: es => P s e ∧ Along step P (step s e) es

/-- The property holds of every state that the run reaches by a step. -/
def AllAfter (step : σ → ε → σ) (P : σ → Prop) (s : σ) (es : List ε) : Prop :=
  Along step (fun s e => P (step s e)) s es

instance decidableAlong (step : σ → ε → σ) (P : σ → ε → Prop) [∀ s e, Decidable (P s e)] :
    (s : σ) → (es : List ε) → Decidable (Along step P s es)
  | _, [] => .isTrue trivial
  | s, e :: es =>
    have := decidableAlong step P (step s e) es
    inferInstanceAs (Decidable (P s e ∧ Along step P (step s e) es))

@[simp] theorem along_nil (step : σ → ε → σ) (P : σ → ε → Prop) (s : σ) :
    Along step P s [] := trivial

@[simp] theorem along_cons (step : σ → ε → σ) (P : σ → ε → Prop) (s : σ) (e : ε)
    (es : List ε) : Along step P s (e :: es) ↔ P s e ∧ Along step P (step s e) es := Iff.rfl

theorem along_append (step : σ → ε → σ) (P : σ → ε → Prop) (s : σ) (es es' : List ε) :
    Along step P s (es ++ es') ↔ Along step P s es ∧ Along step P (run step s es) es' := by
  induction es generalizing s with
  | nil => simp
  | cons e es ih =>
    rw [List.cons_append, along_cons, along_cons, ih, run_cons, and_assoc]

@[simp] theorem allAfter_nil (step : σ → ε → σ) (P : σ → Prop) (s : σ) :
    AllAfter step P s [] := trivial

@[simp] theorem allAfter_cons (step : σ → ε → σ) (P : σ → Prop) (s : σ) (e : ε) (es : List ε) :
    AllAfter step P s (e :: es) ↔ P (step s e) ∧ AllAfter step P (step s e) es := Iff.rfl

section Invariant
variable {step : σ → ε → σ} {Inv : σ → Prop} {C P : σ → ε → Prop}

/-- What every allowed step preserves holds at the end of an allowed run. -/
theorem invariant_run (hstep : ∀ s e, Inv s → C s e → Inv (step s e)) {s : σ} {es : List ε}
    (h₀ : Inv s) (hC : Along step C s es) : Inv (run step s es) := by
  induction es generalizing s with
  | nil => exact h₀
  | cons e es ih => exact ih (hstep s e h₀ hC.1) hC.2

/-- Where the allowed steps keep an invariant, and under the invariant a step has the
property exactly if it is allowed, the two hold along the same runs. -/
theorem along_iff (hstep : ∀ s e, Inv s → C s e → Inv (step s e))
    (hiff : ∀ s e, Inv s → (P s e ↔ C s e)) {s : σ} (h₀ : Inv s) (es : List ε) :
    Along step P s es ↔ Along step C s es := by
  induction es generalizing s with
  | nil => exact Iff.rfl
  | cons e es ih =>
    rw [along_cons, along_cons, hiff s e h₀]
    exact and_congr_right fun hC => ih (hstep s e h₀ hC)

/-- What holds wherever an invariant does holds along every run. -/
theorem along_of_invariant (hstep : ∀ s e, Inv s → Inv (step s e)) (hP : ∀ s e, Inv s → P s e) {s : σ}
    (h₀ : Inv s) (es : List ε) : Along step P s es := by
  induction es generalizing s with
  | nil => trivial
  | cons e es ih => exact ⟨hP s e h₀, ih (hstep s e h₀)⟩

end Invariant
end Runs
