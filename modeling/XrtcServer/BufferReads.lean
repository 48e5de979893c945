import XrtcServer.StructLayout

/-! Readers of a buffer that keep the places they have read, so that a bound on the places
is a property of the reader. -/
namespace BufferReads
open ByteFormat StructLayout
universe u

/-- A value and the places that were read for it. -/
structure Reads (α : Type u) where
  value : α
  places : List ℕ := []

namespace Reads
variable {α β : Type u} {n : ℕ}

instance : Monad Reads where
  pure a := ⟨a, []⟩
  bind x f := ⟨(f x.value).value, x.places ++ (f x.value).places⟩

@[simp] theorem value_pure (a : α) : (pure a : Reads α).value = a := rfl

@[simp] theorem value_bind (x : Reads α) (f : α → Reads β) : (x >>= f).value = (f x.value).value := rfl

@[simp] theorem value_ite {c : Prop} [Decidable c] (x y : Reads α) :
    (if c then x else y).value = if c then x.value else y.value := apply_ite value c x y

/-- Only places in front of `n` were read. -/
def Within (n : ℕ) (x : Reads α) : Prop := ∀ p ∈ x.places, p < n

@[simp] theorem within_pure (n : ℕ) (a : α) : (pure a : Reads α).Within n := nofun

theorem Within.bind {x : Reads α} {f : α → Reads β} (hx : x.Within n) (hf : (f x.value).Within n) :
    (x >>= f).Within n := by
  intro p hp
  rcases List.mem_append.mp hp with hp | hp
  · exact hx p hp
  · exact hf p hp

theorem Within.ite {c : Prop} [Decidable c] {x y : Reads α} (hx : c → x.Within n)
    (hy : ¬c → y.Within n) : (if c then x else y).Within n := by
  split
  · exact hx ‹c›
  · exact hy ‹¬c›

/-- The bytes from a place on. -/
def field (mem : Bytes) (pos size : ℕ) : Reads Bytes := ⟨load mem pos size, List.range' pos size⟩

theorem within_field {pos size : ℕ} (mem : Bytes) (h : pos + size ≤ n) :
    (field mem pos size).Within n := by
  intro p hp
  have hp' := List.mem_range'_1.mp hp
  omega

end Reads
end BufferReads
