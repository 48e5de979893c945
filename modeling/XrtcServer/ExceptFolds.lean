import Mathlib.Data.List.Basic

/-! Loops over a list that may fail, with what holds before and after them. -/
namespace ExceptFolds
variable {σ ε φ ι : Type} {step : σ → ε → Except φ σ} {P Q R : σ → Prop} {es es' : List ε}

theorem ok_bind {α β : Type} (a : α) (f : α → Except φ β) : Except.ok a >>= f = f a := rfl

theorem bind_eq_ok {α β : Type} {x : Except φ α} {f : α → Except φ β} {b : β} (h : x >>= f = .ok b) :
    ∃ a, x = .ok a ∧ f a = .ok b := by
  cases x with
  | error e => cases h
  | ok a => exact ⟨a, rfl, h⟩

theorem ok_of_toOption {α : Type} {x : Except φ α} {a : α} (h : x.toOption = some a) : x = .ok a := by
  cases x with
  | error e => cases h
  | ok b => exact congrArg _ (Option.some.inj h)

/-- From every state with the first property the loop comes to one with the second. -/
def Holds (step : σ → ε → Except φ σ) (P : σ → Prop) (es : List ε) (Q : σ → Prop) : Prop :=
  ∀ s, P s → ∃ s', es.foldlM step s = .ok s' ∧ Q s'

theorem Holds.nil : Holds step P [] P := fun s h => ⟨s, rfl, h⟩

theorem foldlM_cons_ok {s s' : σ} {e : ε} (h : step s e = .ok s') (es : List ε) :
    (e :: es).foldlM step s = es.foldlM step s' := by
  rw [List.foldlM_cons, h]
  rfl

theorem Holds.append (h : Holds step P es Q) (h' : Holds step Q es' R) : Holds step P (es ++ es') R := by
  intro s hs
  obtain ⟨s₁, hfold, h₁⟩ := h s hs
  obtain ⟨s₂, hfold', h₂⟩ := h' s₁ h₁
  refine ⟨s₂, ?_, h₂⟩
  rw [List.foldlM_append, hfold]
  exact hfold'

/-- Elements that change nothing. -/
theorem foldlM_skip {s : σ} (h : ∀ e ∈ es, step s e = .ok s) : es.foldlM step s = .ok s := by
  induction es with
  | nil => rfl
  | cons e es ih =>
    rw [foldlM_cons_ok (h e List.mem_cons_self)]
    exact ih fun e' he' => h e' (List.mem_cons_of_mem e he')

/-- Elements that never fail. -/
theorem foldlM_total (h : ∀ e ∈ es, ∀ s, ∃ s', step s e = .ok s') (s : σ) : ∃ s', es.foldlM step s = .ok s' := by
  induction es generalizing s with
  | nil => exact ⟨s, rfl⟩
  | cons e es ih =>
    obtain ⟨t, ht⟩ := h e List.mem_cons_self s
    rw [foldlM_cons_ok ht]
    exact ih (fun e' he' => h e' (List.mem_cons_of_mem e he')) t

theorem foldlM_append_eq {s s' : σ} (h : es.foldlM step s = .ok s') (es' : List ε) :
    (es ++ es').foldlM step s = es'.foldlM step s' := by
  rw [List.foldlM_append, h]
  rfl

/-- The items of a list in turn, each after those before it. -/
theorem Holds.flatMap {f : ι → List ε} {I : List ι → σ → Prop} {xs : List ι}
    (h : ∀ pre x post, xs = pre ++ x :: post → Holds step (I pre) (f x) (I (pre ++ [x]))) :
    Holds step (I []) (xs.flatMap f) (I xs) := by
  have hall : ∀ pre post, xs = pre ++ post → Holds step (I pre) (post.flatMap f) (I xs) := by
    intro pre post
    induction post generalizing pre with
    | nil =>
      rintro rfl
      rw [List.append_nil]
      exact .nil
    | cons x post ih =>
      intro heq
      rw [List.flatMap_cons]
      exact (h pre x post heq).append (ih (pre ++ [x]) (by simpa using heq))
  exact hall [] xs rfl

/-- The same with a state for the items so far. -/
theorem foldlM_flatMap_eq {f : ι → List ε} {g : List ι → σ} {xs : List ι}
    (h : ∀ pre x post, xs = pre ++ x :: post → (f x).foldlM step (g pre) = .ok (g (pre ++ [x]))) :
    (xs.flatMap f).foldlM step (g []) = .ok (g xs) := by
  have hall : Holds step (fun s => s = g []) (xs.flatMap f) fun s => s = g xs := by
    refine Holds.flatMap (I := fun pre s => s = g pre) fun pre x post heq s hs => ?_
    exact ⟨g (pre ++ [x]), hs ▸ h pre x post heq, rfl⟩
  obtain ⟨s, hfold, rfl⟩ := hall (g []) rfl
  exact hfold

section Runs
variable {s s' : σ}

theorem foldlM_append_ok (h : (es ++ es').foldlM step s = .ok s') :
    ∃ t, es.foldlM step s = .ok t ∧ es'.foldlM step t = .ok s' := by
  rw [List.foldlM_append] at h
  exact bind_eq_ok h

theorem foldlM_cons_eq_ok {e : ε} (h : (e :: es).foldlM step s = .ok s') : ∃ t, step s e = .ok t ∧ es.foldlM step t = .ok s' := by
  rw [List.foldlM_cons] at h
  exact bind_eq_ok h

/-- What every step keeps that does not fail is kept by a loop that does not. -/
theorem invariant_of_ok {I : σ → Prop} (hstep : ∀ e ∈ es, ∀ s s', step s e = .ok s' → I s → I s') (hs : I s)
    (h : es.foldlM step s = .ok s') : I s' := by
  induction es generalizing s with
  | nil => exact Except.ok.inj h ▸ hs
  | cons e es ih =>
    obtain ⟨t, hfirst, hrest⟩ := foldlM_cons_eq_ok h
    exact ih (fun e' he' => hstep e' (List.mem_cons_of_mem e he')) (hstep e List.mem_cons_self s t hfirst hs) hrest

/-- A loop that does not fail fails at none of its elements. -/
theorem step_ok_of_mem {e : ε} (he : e ∈ es) (h : es.foldlM step s = .ok s') : ∃ t t', step t e = .ok t' := by
  obtain ⟨pre, post, rfl⟩ := List.append_of_mem he
  obtain ⟨t, -, hrest⟩ := foldlM_append_ok h
  obtain ⟨t', hstep, -⟩ := foldlM_cons_eq_ok hrest
  exact ⟨t, t', hstep⟩

end Runs

end ExceptFolds
