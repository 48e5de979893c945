import Mathlib.Algebra.Order.BigOperators.Group.List
import Mathlib.Algebra.Order.Ring.Nat

/-! JSON values over any scalars, their compact text, and when that text determines the value. -/

/-- A JSON value; the members of an object are listed in the order of their keys. -/
inductive JsonTree (σ : Type)
  | scalar (s : σ)
  | array (items : List (JsonTree σ))
  | object (members : List (List Char × JsonTree σ))

namespace JsonTree
variable {σ τ : Type} {f : σ → List Char} {g : σ → τ} {P : σ → Prop} {v w : JsonTree σ}

section Trees

theorem sizeOf_lt_object [SizeOf σ] {members : List (List Char × JsonTree σ)} {p : List Char × JsonTree σ} (hp : p ∈ members) :
    sizeOf p.2 < sizeOf (object members) := by
  have hlt := List.sizeOf_lt_of_mem hp
  cases p with
  | mk key v =>
    simp only [Prod.mk.sizeOf_spec, object.sizeOf_spec] at hlt ⊢
    omega

theorem sizeOf_lt_array [SizeOf σ] {items : List (JsonTree σ)} (hv : v ∈ items) : sizeOf v < sizeOf (array items) := by
  have hlt := List.sizeOf_lt_of_mem hv
  rw [array.sizeOf_spec]
  omega

@[elab_as_elim]
theorem inductionOn {motive : JsonTree σ → Prop} (v : JsonTree σ) (scalar : ∀ s, motive (.scalar s))
    (array : ∀ items, (∀ v ∈ items, motive v) → motive (.array items))
    (object : ∀ members, (∀ p ∈ members, motive p.2) → motive (.object members)) : motive v :=
  match v with
  | .scalar s => scalar s
  | .array items => array items fun v _ => inductionOn v scalar array object
  | .object members => object members fun p _ => inductionOn p.2 scalar array object
termination_by sizeOf v
decreasing_by
  · exact sizeOf_lt_array ‹_›
  · exact sizeOf_lt_object ‹_›

/-- The number of values in a tree. -/
def size : JsonTree σ → ℕ
  | .scalar _ => 1
  | .array items => 1 + (items.map size).sum
  | .object members => 1 + (members.map fun p => p.2.size).sum
termination_by v => sizeOf v
decreasing_by
  · exact sizeOf_lt_array ‹_›
  · exact sizeOf_lt_object ‹_›

def map (g : σ → τ) : JsonTree σ → JsonTree τ
  | .scalar s => .scalar (g s)
  | .array items => .array (items.map (map g))
  | .object members => .object (members.map fun p => (p.1, p.2.map g))
termination_by v => sizeOf v
decreasing_by
  · exact sizeOf_lt_array ‹_›
  · exact sizeOf_lt_object ‹_›

def IsScalar : JsonTree σ → Prop
  | .scalar _ => True
  | _ => False

/-- The scalars satisfy `P` and no object has a key twice or out of order. -/
inductive WellFormed (P : σ → Prop) : JsonTree σ → Prop
  | scalar {s} (h : P s) : WellFormed P (.scalar s)
  | array {items} (h : ∀ v ∈ items, WellFormed P v) : WellFormed P (.array items)
  | object {members} (hkeys : members.Pairwise fun p q => p.1 < q.1) (h : ∀ p ∈ members, WellFormed P p.2) :
      WellFormed P (.object members)

theorem size_lt_array {items : List (JsonTree σ)} (hv : v ∈ items) : v.size < (array items).size := by
  have hle := List.le_sum_of_mem (List.mem_map_of_mem (f := size) hv)
  rw [size]
  omega

theorem size_lt_object {members : List (List Char × JsonTree σ)} {p : List Char × JsonTree σ} (hp : p ∈ members) :
    p.2.size < (object members).size := by
  have hle := List.le_sum_of_mem (List.mem_map_of_mem (f := fun p => p.2.size) hp)
  rw [size]
  omega

@[simp] theorem size_map (g : σ → τ) (v : JsonTree σ) : (v.map g).size = v.size := by
  induction v using inductionOn with
  | scalar s => simp [map, size]
  | array items ih =>
    have hsizes : (items.map fun v => (v.map g).size) = items.map size := List.map_congr_left ih
    simp [map, size, Function.comp_def, hsizes]
  | object members ih =>
    have hsizes : (members.map fun p => (p.2.map g).size) = members.map fun p => p.2.size := List.map_congr_left ih
    simp [map, size, Function.comp_def, hsizes]

@[simp] theorem wellFormed_scalar {s : σ} : WellFormed P (.scalar s) ↔ P s := by
  constructor
  · rintro ⟨h⟩
    exact h
  · exact .scalar

@[simp] theorem wellFormed_array {items : List (JsonTree σ)} :
    WellFormed P (.array items) ↔ ∀ v ∈ items, WellFormed P v := by
  constructor
  · rintro ⟨⟩
    assumption
  · exact .array

@[simp] theorem wellFormed_object {members : List (List Char × JsonTree σ)} :
    WellFormed P (.object members) ↔
      members.Pairwise (fun p q => p.1 < q.1) ∧ ∀ p ∈ members, WellFormed P p.2 := by
  constructor
  · rintro ⟨⟩
    exact ⟨‹_›, ‹_›⟩
  · exact fun h => .object h.1 h.2

/-- Renaming scalars does not change whether a tree is well formed. -/
theorem wellFormed_map {Q : τ → Prop} (hg : ∀ s, Q (g s) ↔ P s) (v : JsonTree σ) :
    WellFormed Q (v.map g) ↔ WellFormed P v := by
  induction v using inductionOn with
  | scalar s => rw [map, wellFormed_scalar, wellFormed_scalar, hg]
  | array items ih =>
    rw [map, wellFormed_array, wellFormed_array, List.forall_mem_map]
    exact forall₂_congr ih
  | object members ih =>
    rw [map, wellFormed_object, wellFormed_object, List.forall_mem_map, List.pairwise_map]
    exact and_congr_right fun _ => forall₂_congr ih

end Trees

section CompactText

def escape (c : Char) : List Char := if c = '"' ∨ c = '\\' then ['\\', c] else [c]

def quote (s : List Char) : List Char := '"' :: (s.flatMap escape ++ ['"'])

/-- The texts after the first of a bracketed list, with the closing bracket. -/
def tailText (close : Char) : List (List Char) → List Char
  | [] => [close]
  | t :: ts => ',' :: (t ++ tailText close ts)

def bracket (first close : Char) : List (List Char) → List Char
  | [] => [first, close]
  | t :: ts => first :: (t ++ tailText close ts)

/-- The text of a value without blanks, over the texts of its scalars. -/
def text (f : σ → List Char) : JsonTree σ → List Char
  | .scalar s => f s
  | .array items => bracket '[' ']' (items.map (text f))
  | .object members => bracket '{' '}' (members.map fun p => quote p.1 ++ ':' :: p.2.text f)
termination_by v => sizeOf v
decreasing_by
  · exact sizeOf_lt_array ‹_›
  · exact sizeOf_lt_object ‹_›

/-- What may follow a value. -/
def Stops (r : List Char) : Prop := ∀ c ∈ r.head?, c ∈ [',', ']', '}']

/-- The scalars' texts are not taken for brackets, and each ends where the next character stops it. -/
structure Delimited (f : σ → List Char) (g : σ → τ) : Prop where
  first : ∀ s, ∃ c, (f s).head? = some c ∧ c ∉ ['[', '{', ']', '}']
  cancel : ∀ s s' r r', Stops r → Stops r' → f s ++ r = f s' ++ r' → g s = g s' ∧ r = r'

variable {α β : Type} {a : α → List Char} {b : α → β} {x : α} {r r' : List Char}

/-- Whatever follows, the text of `x` is told apart from every other text. -/
def Cancels (a : α → List Char) (b : α → β) (x : α) : Prop :=
  ∀ y r r', Stops r → Stops r' → a x ++ r = a y ++ r' → b x = b y ∧ r = r'

theorem stops_cons {c : Char} (hc : c ∈ [',', ']', '}']) (r : List Char) : Stops (c :: r) := by
  intro d hd
  obtain rfl : c = d := by simpa using hd
  exact hc

theorem stops_tailText {close : Char} (hclose : close ∈ [']', '}']) (ts : List (List Char)) (r : List Char) :
    Stops (tailText close ts ++ r) := by
  cases ts with
  | nil => exact stops_cons (List.mem_cons_of_mem _ hclose) r
  | cons t ts => exact stops_cons List.mem_cons_self _

theorem comma_ne {close : Char} (hclose : close ∈ [']', '}']) : close ≠ ',' := by
  rintro rfl
  exact absurd hclose (by decide)

theorem head_unique {t u : List Char} {c d : Char} (ht : t.head? = some c) (hu : u.head? = some d)
    (h : t ++ r = u ++ r') : c = d := by
  have hhead := congrArg List.head? h
  rw [List.head?_append, List.head?_append, ht, hu] at hhead
  exact Option.some.inj hhead

theorem escape_ne (c : Char) : escape c ++ r ≠ '"' :: r' := by
  rw [escape]
  split
  · rintro ⟨⟩
  · rename_i hc
    exact fun heq => hc (.inl (List.cons.inj heq).1)

theorem escape_cancel {c d : Char} (h : escape c ++ r = escape d ++ r') : c = d ∧ r = r' := by
  simp only [escape] at h
  split at h <;> split at h
  · simpa using h
  · rename_i hd
    exact absurd (.inr (List.cons.inj h).1.symm) hd
  · rename_i hc _
    exact absurd (.inr (List.cons.inj h).1) hc
  · simpa using h

theorem quote_cancel {s t : List Char} (h : quote s ++ r = quote t ++ r') : s = t ∧ r = r' := by
  simp only [quote, List.cons_append, List.append_assoc, List.nil_append, List.cons.injEq, true_and] at h
  induction s generalizing t with
  | nil =>
    cases t with
    | nil => simpa using h
    | cons d t =>
      rw [List.flatMap_nil, List.nil_append, List.flatMap_cons, List.append_assoc] at h
      exact absurd h.symm (escape_ne d)
  | cons c s ih =>
    rw [List.flatMap_cons, List.append_assoc] at h
    cases t with
    | nil => exact absurd h (escape_ne c)
    | cons d t =>
      rw [List.flatMap_cons, List.append_assoc] at h
      obtain ⟨rfl, htail⟩ := escape_cancel h
      obtain ⟨rfl, hr⟩ := ih htail
      exact ⟨rfl, hr⟩

theorem tailText_cancel {close : Char} (hclose : close ∈ [']', '}']) {xs ys : List α} (hxs : ∀ x ∈ xs, Cancels a b x)
    (h : tailText close (xs.map a) ++ r = tailText close (ys.map a) ++ r') : xs.map b = ys.map b ∧ r = r' := by
  induction xs generalizing ys with
  | nil =>
    cases ys with
    | nil => simpa [tailText] using h
    | cons y ys => exact absurd (List.cons.inj h).1 (comma_ne hclose)
  | cons x xs ih =>
    cases ys with
    | nil => exact absurd (List.cons.inj h).1.symm (comma_ne hclose)
    | cons y ys =>
      simp only [List.map_cons, tailText, List.cons_append, List.append_assoc, List.cons.injEq, true_and] at h
      obtain ⟨hxy, htail⟩ := hxs x List.mem_cons_self y _ _ (stops_tailText hclose _ _) (stops_tailText hclose _ _) h
      obtain ⟨hrest, hr⟩ := ih (fun x hx => hxs x (List.mem_cons_of_mem _ hx)) htail
      exact ⟨by rw [List.map_cons, List.map_cons, hxy, hrest], hr⟩

theorem bracket_head (first close : Char) (ts : List (List Char)) : (bracket first close ts).head? = some first := by
  cases ts <;> rfl

theorem bracket_cancel {first close : Char} (hclose : close ∈ [']', '}'])
    (ha : ∀ x, ∃ c, (a x).head? = some c ∧ c ≠ close) {xs ys : List α} (hxs : ∀ x ∈ xs, Cancels a b x)
    (h : bracket first close (xs.map a) ++ r = bracket first close (ys.map a) ++ r') :
    xs.map b = ys.map b ∧ r = r' := by
  -- an element's text does not begin with the closing bracket
  have hempty (y : α) (t u : List Char) : [close] ++ t ≠ a y ++ u := by
    obtain ⟨c, hc, hne⟩ := ha y
    exact fun heq => hne (head_unique (List.head?_cons ..) hc heq).symm
  cases xs with
  | nil =>
    cases ys with
    | nil => simpa [bracket] using h
    | cons y ys =>
      simp only [List.map_nil, List.map_cons, bracket, List.cons_append, List.nil_append, List.append_assoc,
        List.cons.injEq, true_and] at h
      exact absurd h (hempty y _ _)
  | cons x xs =>
    cases ys with
    | nil =>
      simp only [List.map_nil, List.map_cons, bracket, List.cons_append, List.nil_append, List.append_assoc,
        List.cons.injEq, true_and] at h
      exact absurd h.symm (hempty x _ _)
    | cons y ys =>
      refine tailText_cancel hclose hxs ?_
      simp only [List.map_cons, bracket, tailText, List.cons_append, List.cons.injEq, true_and] at h ⊢
      exact h

theorem text_head (hf : Delimited f g) (v : JsonTree σ) : ∃ c, (v.text f).head? = some c ∧ c ∉ [']', '}'] := by
  cases v with
  | scalar s =>
    obtain ⟨c, hc, hne⟩ := hf.first s
    rw [text]
    exact ⟨c, hc, fun hmem => hne (by simp_all)⟩
  | array items => rw [text]; exact ⟨'[', bracket_head .., by decide⟩
  | object members => rw [text]; exact ⟨'{', bracket_head .., by decide⟩

theorem scalar_ne_bracket (hf : Delimited f g) (s : σ) {first close : Char} {ts : List (List Char)}
    (hfirst : first ∈ ['[', '{']) : f s ++ r ≠ bracket first close ts ++ r' := by
  obtain ⟨c, hc, hne⟩ := hf.first s
  intro heq
  obtain rfl := head_unique hc (bracket_head ..) heq
  exact hne (by simp_all)

theorem member_cancels {p : List Char × JsonTree σ} (hv : Cancels (text f) (map g) p.2) :
    Cancels (fun p => quote p.1 ++ ':' :: p.2.text f) (fun p => (p.1, p.2.map g)) p := by
  intro q r r' hr hr' h
  simp only [List.append_assoc, List.cons_append] at h
  obtain ⟨hkey, hrest⟩ := quote_cancel h
  obtain ⟨hvalue, hrest⟩ := hv q.2 r r' hr hr' (List.cons.inj hrest).2
  exact ⟨Prod.ext hkey hvalue, hrest⟩

/-- Two values with one text differ only in what their scalars' texts leave open. -/
theorem text_cancels (hf : Delimited f g) (v : JsonTree σ) : Cancels (text f) (map g) v := by
  induction v using inductionOn with
  | scalar s =>
    intro w r r' hr hr' h
    cases w with
    | scalar s' =>
      simp only [text, map, scalar.injEq] at h ⊢
      exact hf.cancel s s' r r' hr hr' h
    | array items =>
      simp only [text] at h
      exact absurd h (scalar_ne_bracket hf s (by decide))
    | object members =>
      simp only [text] at h
      exact absurd h (scalar_ne_bracket hf s (by decide))
  | array items ih =>
    intro w r r' hr hr' h
    cases w with
    | scalar s =>
      simp only [text] at h
      exact absurd h.symm (scalar_ne_bracket hf s (by decide))
    | array items' =>
      simp only [text, map, array.injEq] at h ⊢
      refine bracket_cancel (by decide) (fun x => ?_) ih h
      obtain ⟨c, hc, hne⟩ := text_head hf x
      exact ⟨c, hc, fun heq => hne (by simp [heq])⟩
    | object members =>
      simp only [text] at h
      exact absurd (head_unique (bracket_head ..) (bracket_head ..) h) (by decide)
  | object members ih =>
    intro w r r' hr hr' h
    cases w with
    | scalar s =>
      simp only [text] at h
      exact absurd h.symm (scalar_ne_bracket hf s (by decide))
    | array items =>
      simp only [text] at h
      exact absurd (head_unique (bracket_head ..) (bracket_head ..) h) (by decide)
    | object members' =>
      simp only [text, map, object.injEq] at h ⊢
      exact bracket_cancel (by decide) (fun p => ⟨'"', rfl, by decide⟩) (fun p hp => member_cancels (ih p hp)) h

theorem text_unambiguous (hf : Delimited f g) (h : v.text f = w.text f) : v.map g = w.map g := by
  have hnil : Stops [] := by simp [Stops]
  exact (text_cancels hf v w [] [] hnil hnil (by rw [h])).1

end CompactText
end JsonTree
