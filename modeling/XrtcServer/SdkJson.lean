import XrtcServer.JsonTree
import XrtcServer.SdpText

/-! The SDK's JSON values, written and read through a JSON library. Reading writes each array and
object again and starts over on its text. -/
namespace XrtcServer
namespace Sdk
open JsonTree Sdp
variable {δ : Type}

section Definitions

/-- The values of `Json::Value` besides arrays and objects. -/
inductive Scalar (δ : Type)
  | null
  | intValue (n : Int64)
  | uintValue (n : UInt64)
  | realValue (d : δ)
  | stringValue (s : Text)
  | booleanValue (b : Bool)

abbrev Value (δ : Type) := JsonTree (Scalar δ)

/-- What a scalar says, the type of a number aside. -/
inductive Content (δ : Type)
  | null
  | number (z : ℤ)
  | real (d : δ)
  | string (s : Text)
  | bool (b : Bool)

def Scalar.content : Scalar δ → Content δ
  | .null => .null
  | .intValue n => .number n.toInt
  | .uintValue n => .number n.toNat
  | .realValue d => .real d
  | .stringValue s => .string s
  | .booleanValue b => .bool b

/-- Not a floating-point number, whose text may lose digits. -/
def Scalar.Exact : Scalar δ → Prop
  | .realValue _ => False
  | _ => True

/-- How `Json::Reader().parse` ends. -/
inductive Parsed (δ : Type)
  | accepted (v : Value δ)
  | rejected
  | throws

/-- The parser and the writer of the JSON library. The empty text is no JSON, and what was written
is read as the same value. -/
structure JsonCpp (δ : Type) where
  parse : Text → Parsed δ
  write : Value δ → Text
  parse_nil : ∀ v, parse [] ≠ .accepted v
  size_le : ∀ v w, parse (write v) = .accepted w → w.size ≤ v.size
  parse_write : ∀ v : Value δ, v.WellFormed Scalar.Exact →
    ∃ w, parse (write v) = .accepted w ∧ w.map Scalar.content = v.map Scalar.content

/-- The values of `JsonValue` besides arrays and objects. -/
inductive Datum (δ : Type)
  | null
  | bool (b : Bool)
  | double (d : δ)
  | string (s : Text)
  | int (n : UInt64)

/-- A `JsonValue`; an object is a map, so its keys are in order. -/
abbrev JsonValue (δ : Type) := JsonTree (Datum δ)

/-- A boolean, a string or an integer. -/
def Datum.Plain : Datum δ → Prop
  | .bool _ => True
  | .string _ => True
  | .int _ => True
  | _ => False

/-- The number of rounds of a loop up to `JsonArray::Size`, an `int`. -/
def rounds (n : ℕ) : ℕ := (Int32.ofNat n).toInt.toNat

def Datum.toScalar : Datum δ → Scalar δ
  | .null => .null
  | .bool b => .booleanValue b
  | .double d => .realValue d
  | .string s => .stringValue s
  | .int n => .uintValue n

/-- The `lambda_func_json` of `ToJson`. The result is null until an item is assigned to it. -/
def toValue : JsonValue δ → Value δ
  | .scalar d => .scalar d.toScalar
  | .array values =>
    let items := (values.take (rounds values.length)).attach.map fun v => toValue v.1
    if items.isEmpty then .scalar .null else .array items
  | .object values =>
    let members := values.map fun p => (p.1, toValue p.2)
    if members.isEmpty then .scalar .null else .object members
termination_by v => sizeOf v
decreasing_by
  · exact sizeOf_lt_array (List.mem_of_mem_take v.2)
  · exact sizeOf_lt_object ‹_›

/-- `Json::Value::empty` -/
def empty : Value δ → Bool
  | .scalar .null => true
  | .scalar _ => false
  | .array items => items.isEmpty
  | .object members => members.isEmpty

/-- The value that a number, a string or a boolean among the members of an object is stored as. -/
def Scalar.datum : Scalar δ → Option (Datum δ)
  | .null => none
  | .intValue n => some (.int n.toUInt64)
  | .uintValue n => some (.int n)
  | .realValue d => some (.double d)
  | .stringValue s => some (.string s)
  | .booleanValue b => some (.bool b)

/-- What `FromJson` stores for a member. `nested` is how reading the written member ends, which
only arrays and objects come to. -/
def member {σ : Type} (datum : σ → Option (Datum δ)) (item : JsonTree σ) (nested : Bool × JsonValue δ) :
    Option (JsonValue δ) :=
  match item with
  | .scalar s => (datum s).map .scalar
  | .array _ => if nested.1 then some nested.2 else none
  | .object _ => if nested.1 then some nested.2 else none

namespace JsonCpp
variable (J : JsonCpp δ)

def toJson (v : JsonValue δ) : Text := if empty (toValue v) then [] else J.write (toValue v)

def parsedSize (json : Text) : ℕ :=
  match J.parse json with
  | .accepted v => v.size
  | _ => 0

theorem parsedSize_write_lt {json : Text} {v w : Value δ} (hw : J.parse json = .accepted w) (hlt : v.size < w.size) :
    J.parsedSize (J.write v) < J.parsedSize json := by
  simp only [parsedSize, hw]
  split
  · rename_i u hu
    exact (J.size_le v u hu).trans_lt hlt
  · omega

/-- `FromJson` on a new value: its result and the value afterwards. -/
def fromJson (json : Text) : Bool × JsonValue δ :=
  match _h : J.parse json with
  | .accepted (.object members) =>
    (true, .object (members.attach.filterMap fun m =>
      (member Scalar.datum m.1.2 (fromJson (J.write m.1.2))).map fun v => (m.1.1, v)))
  | .accepted (.array items) => (true, .array (items.attach.map fun item => (fromJson (J.write item.1)).2))
  | .accepted (.scalar _) => (true, .scalar .null)
  | .rejected => (true, .scalar .null)
  | .throws => (false, .scalar .null)
termination_by J.parsedSize json
decreasing_by
  · exact J.parsedSize_write_lt _h (size_lt_object m.2)
  · exact J.parsedSize_write_lt _h (size_lt_array item.2)

end JsonCpp

/-- Nothing of the value is lost: arrays and objects are not empty, the elements of arrays are arrays
or objects, and counting the elements does not overflow. -/
def Kept : JsonValue δ → Prop
  | .scalar _ => False
  | .array values => values ≠ [] ∧ values.length < 2147483648 ∧ ∀ v ∈ values, Kept v
  | .object values => values ≠ [] ∧ ∀ p ∈ values, p.2.IsScalar ∨ Kept p.2
termination_by v => sizeOf v
decreasing_by
  · exact sizeOf_lt_array ‹_›
  · exact sizeOf_lt_object ‹_›

end Definitions

section Decode
variable {σ τ : Type}

/-- The value that `FromJson` makes of a parsed one, without writing it again. -/
def decode (datum : σ → Option (Datum δ)) : JsonTree σ → JsonValue δ
  | .scalar _ => .scalar .null
  | .array items => .array (items.map (decode datum))
  | .object members =>
    .object (members.filterMap fun p => (member datum p.2 (true, decode datum p.2)).map fun v => (p.1, v))
termination_by v => sizeOf v
decreasing_by
  · exact sizeOf_lt_array ‹_›
  · exact sizeOf_lt_object ‹_›

def Content.datum : Content δ → Option (Datum δ)
  | .null => none
  | .number z => some (.int ⟨BitVec.ofInt 64 z⟩)
  | .real d => some (.double d)
  | .string s => some (.string s)
  | .bool b => some (.bool b)

def Content.Exact : Content δ → Prop
  | .real _ => False
  | _ => True

theorem Content.exact_content (s : Scalar δ) : s.content.Exact ↔ s.Exact := by
  cases s <;> rfl

theorem Content.datum_content (s : Scalar δ) : s.content.datum = s.datum := by
  cases s with
  | intValue n =>
    have hn : (⟨BitVec.ofInt 64 n.toInt⟩ : UInt64) = n.toUInt64 := UInt64.toBitVec_inj.mp BitVec.ofInt_toInt
    simp only [Scalar.content, Content.datum, Scalar.datum, hn]
  | uintValue n =>
    have hn : (⟨BitVec.ofInt 64 n.toNat⟩ : UInt64) = n := UInt64.toBitVec_inj.mp (by simp)
    simp only [Scalar.content, Content.datum, Scalar.datum, hn]
  | _ => rfl

theorem member_map (datum : τ → Option (Datum δ)) (g : σ → τ) (item : JsonTree σ) (nested : Bool × JsonValue δ) :
    member datum (item.map g) nested = member (datum ∘ g) item nested := by
  cases item <;> simp [member, map]

theorem decode_map (datum : τ → Option (Datum δ)) (g : σ → τ) (v : JsonTree σ) :
    decode datum (v.map g) = decode (datum ∘ g) v := by
  induction v using inductionOn with
  | scalar s => simp [map, decode]
  | array items ih =>
    simp only [map, decode, List.map_map]
    congr 1
    exact List.map_congr_left ih
  | object members ih =>
    simp only [map, decode, List.filterMap_map]
    congr 1
    refine List.filterMap_congr fun p hp => ?_
    rw [Function.comp_apply, member_map, ih p hp]

/-- Values that differ only in the types of their numbers are decoded alike. -/
theorem decode_eq_of_content {v w : Value δ} (h : w.map Scalar.content = v.map Scalar.content) :
    decode Scalar.datum w = decode Scalar.datum v := by
  have hdatum : Content.datum ∘ Scalar.content = (Scalar.datum : Scalar δ → _) := funext Content.datum_content
  rw [← hdatum, ← decode_map, ← decode_map, h]

end Decode

section Reading
variable (J : JsonCpp δ) {json : Text} {v w : Value δ}

theorem fromJson_array {items : List (Value δ)} (h : J.parse json = .accepted (.array items)) :
    J.fromJson json = (true, .array (items.map fun item => (J.fromJson (J.write item)).2)) := by
  rw [JsonCpp.fromJson]
  split <;> rename_i heq <;> rw [h] at heq <;> cases heq
  rw [List.attach_map_val (f := fun item => (J.fromJson (J.write item)).2)]

theorem fromJson_object {members : List (Text × Value δ)} (h : J.parse json = .accepted (.object members)) :
    J.fromJson json = (true, .object (members.filterMap fun p =>
      (member Scalar.datum p.2 (J.fromJson (J.write p.2))).map fun v => (p.1, v))) := by
  rw [JsonCpp.fromJson]
  split <;> rename_i heq <;> rw [h] at heq <;> cases heq
  conv_rhs => rw [← List.attach_map_subtype_val members, List.filterMap_map]
  rfl

theorem fromJson_scalar {s : Scalar δ} (h : J.parse json = .accepted (.scalar s)) :
    J.fromJson json = (true, .scalar .null) := by
  rw [JsonCpp.fromJson]
  split <;> rename_i heq <;> rw [h] at heq <;> cases heq

theorem fromJson_rejected (h : J.parse json = .rejected) : J.fromJson json = (true, .scalar .null) := by
  rw [JsonCpp.fromJson]
  split <;> rename_i heq <;> rw [h] at heq <;> cases heq

theorem fromJson_throws (h : J.parse json = .throws) : J.fromJson json = (false, .scalar .null) := by
  rw [JsonCpp.fromJson]
  split <;> rename_i heq <;> rw [h] at heq <;> cases heq

/-- What was written is decoded, at any depth. -/
theorem fromJson_write (v : Value δ) (hv : v.WellFormed Scalar.Exact) :
    J.fromJson (J.write v) = (true, decode Scalar.datum v) := by
  induction hn : v.size using Nat.strong_induction_on generalizing v with
  | _ n ih =>
    subst hn
    obtain ⟨w, hw, hcontent⟩ := J.parse_write v hv
    have hsize : w.size = v.size := by rw [← size_map Scalar.content w, hcontent, size_map]
    have hwell : w.WellFormed Scalar.Exact := by
      have hiff := wellFormed_map (Q := Content.Exact) (fun s : Scalar δ => Content.exact_content s)
      exact (hiff w).mp (hcontent ▸ (hiff v).mpr hv)
    rw [← decode_eq_of_content hcontent]
    cases hwell with
    | scalar => rw [fromJson_scalar J hw, decode]
    | @array items h =>
      have hitems : ∀ item ∈ items, (J.fromJson (J.write item)).2 = decode Scalar.datum item := fun item hitem => by
        rw [ih item.size (hsize ▸ size_lt_array hitem) item (h item hitem) rfl]
      rw [fromJson_array J hw, decode, List.map_congr_left hitems]
    | @object members hkeys h =>
      have hmembers : ∀ p ∈ members, J.fromJson (J.write p.2) = (true, decode Scalar.datum p.2) := fun p hp =>
        ih p.2.size (hsize ▸ size_lt_object hp) p.2 (h p hp) rfl
      rw [fromJson_object J hw, decode]
      congr 2
      exact List.filterMap_congr fun p hp => by rw [hmembers p hp]

theorem fromJson_nil : (J.fromJson []).2 = .scalar .null := by
  cases h : J.parse [] with
  | accepted v => exact absurd h (J.parse_nil v)
  | rejected => rw [fromJson_rejected J h]
  | throws => rw [fromJson_throws J h]

end Reading

section RoundTrip

theorem rounds_eq (n : ℕ) : rounds n = if n % 4294967296 < 2147483648 then n % 4294967296 else 0 := by
  have hsize : Int32.size = 4294967296 := rfl
  rw [rounds, Int32.toInt_ofNat', hsize, Int.bmod_def]
  split <;> split <;> omega

theorem le_rounds_iff (n : ℕ) : n ≤ rounds n ↔ n < 2147483648 := by
  rw [rounds_eq]
  split <;> omega

theorem toValue_array (values : List (JsonValue δ)) : toValue (.array values) =
    if ((values.take (rounds values.length)).map toValue).isEmpty then .scalar .null
    else .array ((values.take (rounds values.length)).map toValue) := by
  rw [toValue, List.attach_map_val (f := toValue)]

theorem wellFormed_toValue {v : JsonValue δ} (hv : v.WellFormed Datum.Plain) :
    (toValue v).WellFormed Scalar.Exact := by
  induction hv with
  | @scalar d h =>
    rw [toValue]
    refine .scalar ?_
    cases d with
    | double d => exact h.elim
    | _ => trivial
  | @array values h ih =>
    rw [toValue_array]
    split
    · exact .scalar trivial
    · refine .array fun item hitem => ?_
      obtain ⟨v, hv, rfl⟩ := List.mem_map.mp hitem
      exact ih v (List.mem_of_mem_take hv)
  | @object values hkeys h ih =>
    rw [toValue]
    split
    · exact .scalar trivial
    · refine .object (by rwa [List.pairwise_map]) fun q hq => ?_
      obtain ⟨p, hp, rfl⟩ := List.mem_map.mp hq
      exact ih p hp

theorem map_eq_self_iff {α : Type} {f : α → α} {l : List α} : l.map f = l ↔ ∀ x ∈ l, f x = x := by
  induction l with
  | nil => simp
  | cons x l ih => simp [ih]

theorem map_take_eq_self_iff {α : Type} {f : α → α} {l : List α} {k : ℕ} :
    (l.take k).map f = l ↔ l.length ≤ k ∧ ∀ x ∈ l, f x = x := by
  constructor
  · intro h
    have hlength := congrArg List.length h
    rw [List.length_map, List.length_take] at hlength
    have hle : l.length ≤ k := by omega
    rw [List.take_of_length_le hle] at h
    exact ⟨hle, map_eq_self_iff.mp h⟩
  · rintro ⟨hle, h⟩
    rw [List.take_of_length_le hle]
    exact map_eq_self_iff.mpr h

theorem filterMap_eq_self_iff {α : Type} {f : α → Option α} {l : List α} :
    l.filterMap f = l ↔ ∀ x ∈ l, f x = some x := by
  induction l with
  | nil => simp
  | cons x l ih =>
    cases hx : f x with
    | none =>
      have hshort : l.filterMap f ≠ x :: l := by
        intro heq
        have hle := List.length_filterMap_le f l
        rw [heq, List.length_cons] at hle
        omega
      simp [hx, hshort]
    | some y => simp [hx, ih]

theorem map_pair_eq_some_iff {α β : Type} {o : Option β} {p : α × β} :
    o.map (fun v => (p.1, v)) = some p ↔ o = some p.2 := by
  cases o with
  | none => simp
  | some v => simp [Prod.ext_iff]

/-- A member is stored as it was when it is a scalar or nothing of it is lost. -/
theorem member_toValue_iff {v : JsonValue δ} (hv : v.WellFormed Datum.Plain) :
    member Scalar.datum (toValue v) (true, decode Scalar.datum (toValue v)) = some v ↔
      v.IsScalar ∨ decode Scalar.datum (toValue v) = v := by
  cases hv with
  | @scalar d h => 
    cases d <;> simp [toValue, member, IsScalar, Datum.toScalar, Scalar.datum, Datum.Plain] at *
  | @array values h =>
    rw [toValue_array]
    split <;> simp [member, IsScalar, decode, Scalar.datum]
  | @object values hkeys h =>
    rw [toValue]
    split <;> simp [member, IsScalar, decode, Scalar.datum]

theorem decode_toValue_iff {v : JsonValue δ} (hv : v.WellFormed Datum.Plain) :
    decode Scalar.datum (toValue v) = v ↔ Kept v := by
  induction hv with
  | @scalar d h =>
    rw [toValue, decode, Kept]
    cases d with
    | null => exact h.elim
    | _ => simp
  | @array values h ih =>
    have hkept : (∀ v ∈ values, decode Scalar.datum (toValue v) = v) ↔ ∀ v ∈ values, Kept v :=
      forall₂_congr ih
    rw [toValue_array, Kept, ← hkept, ← le_rounds_iff]
    split
    · rename_i hempty
      have hlen : rounds values.length = 0 ∨ values = [] := by
        simpa using hempty
      rw [decode]
      constructor
      · rintro ⟨⟩
      · rintro ⟨hne, hle, -⟩
        rcases hlen with hzero | hnil
        · rw [hzero, Nat.le_zero, List.length_eq_zero_iff] at hle
          exact absurd hle hne
        · exact absurd hnil hne
    · rename_i hempty
      have hne : values ≠ [] := by
        rintro rfl
        simp at hempty
      rw [decode, array.injEq, List.map_map, map_take_eq_self_iff]
      simp [hne]
  | @object values hkeys h ih =>
    have hkept : (∀ p ∈ values, p.2.IsScalar ∨ decode Scalar.datum (toValue p.2) = p.2) ↔
        ∀ p ∈ values, p.2.IsScalar ∨ Kept p.2 :=
      forall₂_congr fun p hp => or_congr_right (ih p hp)
    rw [toValue, Kept, ← hkept]
    split
    · rename_i hempty
      simp_all [decode]
    · rename_i hempty
      have hne : values ≠ [] := by
        rintro rfl
        simp at hempty
      have hmember (p : Text × JsonValue δ) (hp : p ∈ values) :
          (member Scalar.datum (toValue p.2) (true, decode Scalar.datum (toValue p.2))).map (fun v => (p.1, v)) = some p ↔
            p.2.IsScalar ∨ decode Scalar.datum (toValue p.2) = p.2 :=
        map_pair_eq_some_iff.trans (member_toValue_iff (h p hp))
      rw [decode, object.injEq, List.filterMap_map, filterMap_eq_self_iff]
      simp only [hne, ne_eq, not_false_eq_true, true_and]
      exact forall₂_congr hmember

theorem toValue_of_empty {v : JsonValue δ} (h : empty (toValue v) = true) : toValue v = .scalar .null := by
  cases v with
  | scalar d => cases d <;> simp_all [toValue, Datum.toScalar, empty]
  | array values =>
    rw [toValue_array] at h ⊢
    split at h
    · rw [if_pos ‹_›]
    · exact absurd h ‹_›
  | object values =>
    simp only [toValue] at h ⊢
    split at h
    · rw [if_pos ‹_›]
    · exact absurd h ‹_›

theorem fromJson_toJson_iff (J : JsonCpp δ) {v : JsonValue δ} (hv : v.WellFormed Datum.Plain) :
    J.fromJson (J.toJson v) = (true, v) ↔ Kept v := by
  rw [← decode_toValue_iff hv, JsonCpp.toJson]
  split
  · -- the empty text leaves null
    rename_i hempty
    have hnull : v ≠ .scalar .null := by
      rintro rfl
      obtain ⟨h⟩ := hv
      exact h
    rw [toValue_of_empty hempty, decode]
    constructor
    · intro h
      exact absurd ((fromJson_nil J).symm.trans (congrArg Prod.snd h)).symm hnull
    · exact fun h => absurd h.symm hnull
  · rw [fromJson_write J _ (wellFormed_toValue hv), Prod.mk.injEq, and_iff_right rfl]

end RoundTrip

section Instances

/-- The text of a scalar, when there are no floating-point numbers. -/
def Content.text : Content Empty → Text
  | .null => ['n', 'u', 'l', 'l']
  | .number z => decimal z
  | .real d => d.elim
  | .string s => quote s
  | .bool b => if b then ['t', 'r', 'u', 'e'] else ['f', 'a', 'l', 's', 'e']

theorem toDigits_takeWhile (n : ℕ) {r : Text} (hr : Stops r) :
    (Nat.toDigits 10 n ++ r).takeWhile Char.isDigit = Nat.toDigits 10 n := by
  have hdigits : ∀ c ∈ Nat.toDigits 10 n, c.isDigit = true := fun c hc =>
    Nat.isDigit_of_mem_toDigits (by decide) (by decide) hc
  have hrest : r.takeWhile Char.isDigit = [] := by
    cases r with
    | nil => rfl
    | cons c r =>
      have hc := hr c rfl
      refine List.takeWhile_cons_of_neg ?_
      simp only [List.mem_cons, List.not_mem_nil, or_false] at hc
      rcases hc with rfl | rfl | rfl <;> decide
  rw [List.takeWhile_append_of_pos hdigits, hrest, List.append_nil]

theorem toDigits_cancel {n m : ℕ} {r r' : Text} (hr : Stops r) (hr' : Stops r')
    (h : Nat.toDigits 10 n ++ r = Nat.toDigits 10 m ++ r') : n = m ∧ r = r' := by
  have htake := congrArg (List.takeWhile Char.isDigit) h
  rw [toDigits_takeWhile n hr, toDigits_takeWhile m hr'] at htake
  have hn : Nat.ofDigitChars 10 (Nat.toDigits 10 n) 0 = n := Nat.ofDigitChars_toDigits (by decide) (by decide)
  have hm : Nat.ofDigitChars 10 (Nat.toDigits 10 m) 0 = m := Nat.ofDigitChars_toDigits (by decide) (by decide)
  rw [htake] at h hn
  exact ⟨hn.symm.trans hm, List.append_cancel_left h⟩

theorem minus_ne (n : ℕ) (t r : Text) : '-' :: t ≠ Nat.toDigits 10 n ++ r := by
  obtain ⟨c, u, hcu⟩ := List.exists_cons_of_ne_nil (Nat.toDigits_ne_nil (n := n) (b := 10))
  have hc : c.isDigit = true := Nat.isDigit_of_mem_toDigits (by decide) (by decide) (hcu ▸ List.mem_cons_self)
  rw [hcu]
  rintro ⟨⟩
  exact absurd hc (by decide)

theorem decimal_cancel {n m : ℤ} {r r' : Text} (hr : Stops r) (hr' : Stops r')
    (h : decimal n ++ r = decimal m ++ r') : n = m ∧ r = r' := by
  rw [decimal, decimal] at h
  split at h <;> split at h
  · obtain ⟨habs, hrest⟩ := toDigits_cancel hr hr' (List.cons.inj h).2
    exact ⟨by omega, hrest⟩
  · exact absurd h (minus_ne _ _ _)
  · exact absurd h.symm (minus_ne _ _ _)
  · obtain ⟨habs, hrest⟩ := toDigits_cancel hr hr' h
    exact ⟨by omega, hrest⟩

theorem decimal_head (n : ℤ) : ∃ c, (decimal n).head? = some c ∧ (c = '-' ∨ c.isDigit) := by
  obtain ⟨c, t, hct⟩ := List.exists_cons_of_ne_nil (decimal_ne_nil n)
  exact ⟨c, by rw [hct]; rfl, mem_decimal (hct ▸ List.mem_cons_self)⟩

theorem ne_decimal {t r r' : Text} {c : Char} (ht : t.head? = some c) (hc : ¬ (c = '-' ∨ c.isDigit)) (n : ℤ) :
    t ++ r ≠ decimal n ++ r' := by
  obtain ⟨d, hd, hdigit⟩ := decimal_head n
  intro h
  exact hc (head_unique ht hd h ▸ hdigit)

theorem Content.text_cancel {c d : Content Empty} {r r' : Text} (hr : Stops r) (hr' : Stops r')
    (h : c.text ++ r = d.text ++ r') : c = d ∧ r = r' := by
  cases c with
  | null =>
    cases d with
    | null => simpa [text] using h
    | number z => exact absurd h (ne_decimal rfl (by decide) z)
    | real d => exact d.elim
    | string s => simp [text, quote] at h
    | bool b => cases b <;> simp [text] at h
  | number z =>
    cases d with
    | null => exact absurd h.symm (ne_decimal rfl (by decide) z)
    | number z' => simpa using decimal_cancel hr hr' h
    | real d => exact d.elim
    | string s => exact absurd h.symm (ne_decimal rfl (by decide) z)
    | bool b => cases b <;> exact absurd h.symm (ne_decimal rfl (by decide) z)
  | real d => exact d.elim
  | string s =>
    cases d with
    | null => simp [text, quote] at h
    | number z => exact absurd h (ne_decimal rfl (by decide) z)
    | real d => exact d.elim
    | string s' => simpa using quote_cancel h
    | bool b => cases b <;> simp [text, quote] at h
  | bool b =>
    cases d with
    | null => cases b <;> simp [text] at h
    | number z => cases b <;> exact absurd h (ne_decimal rfl (by decide) z)
    | real d => exact d.elim
    | string s => cases b <;> simp [text, quote] at h
    | bool b' => cases b <;> cases b' <;> simp_all [text]

theorem Content.text_head (c : Content Empty) : ∃ d, c.text.head? = some d ∧ d ∉ ['[', '{', ']', '}'] := by
  cases c with
  | null => exact ⟨'n', rfl, by decide⟩
  | number z =>
    obtain ⟨d, hd, hdigit⟩ := decimal_head z
    refine ⟨d, hd, fun hmem => ?_⟩
    simp only [List.mem_cons, List.not_mem_nil, or_false] at hmem
    rcases hmem with rfl | rfl | rfl | rfl <;> exact absurd hdigit (by decide)
  | real d => exact d.elim
  | string s => exact ⟨'"', rfl, by decide⟩
  | bool b => cases b <;> exact ⟨_, rfl, by decide⟩

theorem content_delimited : Delimited (fun s : Scalar Empty => s.content.text) Scalar.content where
  first s := s.content.text_head
  cancel _ _ _ _ hr hr' h := Content.text_cancel hr hr' h

/-- `FastWriter` ends the text with a new line. -/
def fastWriter (v : Value Empty) : Text := v.text (fun s => s.content.text) ++ ['\n']

theorem content_of_fastWriter {v w : Value Empty} (h : fastWriter w = fastWriter v) :
    w.map Scalar.content = v.map Scalar.content :=
  text_unambiguous content_delimited (List.append_cancel_right h)

open Classical in
/-- The parser that takes exactly what the writer writes. -/
noncomputable def fastReader (json : Text) : Parsed Empty :=
  if h : ∃ v, fastWriter v = json then .accepted h.choose else .rejected

theorem fastReader_fastWriter (v : Value Empty) :
    ∃ w, fastReader (fastWriter v) = .accepted w ∧ w.map Scalar.content = v.map Scalar.content := by
  have h : ∃ w, fastWriter w = fastWriter v := ⟨v, rfl⟩
  exact ⟨h.choose, dif_pos h, content_of_fastWriter h.choose_spec⟩

theorem fastReader_of_getLast {json : Text} (h : json.getLast? ≠ some '\n') : fastReader json = .rejected := by
  refine dif_neg ?_
  rintro ⟨v, rfl⟩
  exact h (by simp [fastWriter])

noncomputable def fastJson : JsonCpp Empty where
  parse := fastReader
  write := fastWriter
  parse_nil v := by rw [fastReader_of_getLast (by decide)]; rintro ⟨⟩
  size_le v w h := by
    obtain ⟨u, hu, hcontent⟩ := fastReader_fastWriter v
    obtain rfl : u = w := by simpa [h] using hu.symm
    rw [← size_map Scalar.content u, hcontent, size_map]
  parse_write v _ := fastReader_fastWriter v

end Instances

/-- A tree of booleans, integers and strings comes back exactly when nothing of it is lost, and
a text that is no JSON fails exactly when the parser does not reject it but throws. -/
theorem fromJson_iff (J : JsonCpp δ) (v : JsonValue δ) (hv : v.WellFormed Datum.Plain) (json : Text)
    (hjson : ∀ w, J.parse json ≠ .accepted w) :
    (J.fromJson (J.toJson v) = (true, v) ↔ Kept v) ∧ ((J.fromJson json).1 = false ↔ J.parse json ≠ .rejected) := by
  refine ⟨fromJson_toJson_iff J hv, ?_⟩
  cases h : J.parse json with
  | accepted w => exact absurd h (hjson w)
  | rejected => simp [fromJson_rejected J h]
  | throws => simp [fromJson_throws J h]

/-- `{"a":[{"b":true,"c":18446744073709551615,"d":"x"}]}` -/
def nestedValue : JsonValue Empty :=
  .object [(['a'], .array [.object [(['b'], .scalar (.bool true)), (['c'], .scalar (.int 18446744073709551615)),
    (['d'], .scalar (.string ['x']))]])]

theorem fromJson_iff_nestedValue :
    fastJson.fromJson (fastJson.toJson nestedValue) = (true, nestedValue) ∧ (fastJson.fromJson ['{']).1 ≠ false := by
  have hwell : nestedValue.WellFormed Datum.Plain := by
    simp only [nestedValue, wellFormed_object, wellFormed_array, wellFormed_scalar, List.forall_mem_cons, Datum.Plain]
    simp
    decide
  have hopen : fastJson.parse ['{'] = .rejected := fastReader_of_getLast (by decide)
  have hinvalid : ∀ w, fastJson.parse ['{'] ≠ .accepted w := by simp [hopen]
  obtain ⟨hkept, hfalse⟩ := fromJson_iff fastJson nestedValue hwell ['{'] hinvalid
  refine ⟨hkept.mpr ?_, fun h => hfalse.mp h hopen⟩
  simp [nestedValue, Kept, IsScalar]

/-- `[true]` comes back as `[null]`, the empty array as null, and the text `{` is no failure. -/
theorem fromJson_loses :
    fastJson.fromJson (fastJson.toJson (.array [.scalar (.bool true)])) = (true, .array [.scalar .null]) ∧
      (fastJson.fromJson (fastJson.toJson (.array []))).2 = .scalar .null ∧
      (∀ w, fastJson.parse ['{'] ≠ .accepted w) ∧ (fastJson.fromJson ['{']).1 = true ∧
      ¬ ∀ v : JsonValue Empty, v.WellFormed Datum.Plain → ¬ v.IsScalar → fastJson.fromJson (fastJson.toJson v) = (true, v) := by
  have hopen : fastJson.parse ['{'] = .rejected := fastReader_of_getLast (by decide)
  have hvalue : toValue (.array [.scalar (.bool true)] : JsonValue Empty) = .array [.scalar (.booleanValue true)] := by
    simp [toValue_array, rounds_eq, toValue, Datum.toScalar]
  have hplain : (.array [.scalar (.bool true)] : JsonValue Empty).WellFormed Datum.Plain := by simp [Datum.Plain]
  have hlost : fastJson.fromJson (fastJson.toJson (.array [.scalar (.bool true)])) = (true, .array [.scalar .null]) := by
    have hempty : empty (toValue (.array [.scalar (.bool true)] : JsonValue Empty)) = false := by rw [hvalue]; rfl
    rw [JsonCpp.toJson, hempty, if_neg (by decide), fromJson_write _ _ (wellFormed_toValue hplain), hvalue]
    simp [decode]
  refine ⟨hlost, ?_, by simp [hopen], by rw [fromJson_rejected _ hopen], fun h => ?_⟩
  · have hnull : toValue (.array [] : JsonValue Empty) = .scalar .null := by simp [toValue_array]
    rw [JsonCpp.toJson, hnull, empty, if_pos rfl, fromJson_nil]
  · have hback := hlost.symm.trans (h _ hplain (fun hscalar => hscalar))
    simp at hback

end Sdk
end XrtcServer
