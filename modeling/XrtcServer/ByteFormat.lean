import Mathlib.Data.List.Induction
import Mathlib.Algebra.Order.Ring.Nat
import Mathlib.Tactic.Ring
import Mathlib.Tactic.Linarith

/-! Byte strings, big-endian numbers, cursor reads and padded type-length-value
sequences. A cursor is the list of bytes not yet read, so each read returns its
value together with the rest. -/
namespace ByteFormat

abbrev Bytes := List UInt8

/-- The number spelled by a byte string, most significant byte first. -/
def beNat (bs : Bytes) : ℕ := bs.foldl (fun n b => n*256 + b.toNat) 0

/-- The `k` low-order bytes of `n`, most significant first. -/
def toBE : ℕ → ℕ → Bytes
  | 0, _ => []
  | k+1, n => toBE k (n/256) ++ [UInt8.ofNat n]

@[simp] theorem toBE_length (k n : ℕ) : (toBE k n).length = k := by
  induction k generalizing n with
  | zero => rfl
  | succ k ih => simp [toBE, ih]

@[simp] theorem beNat_nil : beNat [] = 0 := rfl

theorem beNat_concat (bs : Bytes) (b : UInt8) :
    beNat (bs ++ [b]) = beNat bs * 256 + b.toNat := by
  simp [beNat]

theorem beNat_lt (bs : Bytes) : beNat bs < 256^bs.length := by
  induction bs using List.reverseRecOn with
  | nil => simp
  | append_singleton bs b ih =>
    have hb : b.toNat < 256 := b.toNat_lt
    rw [beNat_concat, List.length_append, List.length_singleton, pow_succ]
    omega

theorem beNat_toBE (k n : ℕ) : beNat (toBE k n) = n % 256^k := by
  induction k generalizing n with
  | zero => simp [toBE, Nat.mod_one]
  | succ k ih =>
    have hm : n % 256^(k+1) = 256 * (n/256 % 256^k) + n % 256 := by
      rw [pow_succ, mul_comm, Nat.mod_mul]; ring
    rw [toBE, beNat_concat, ih, hm]
    simp [UInt8.toNat_ofNat']
    ring

theorem beNat_toBE_of_lt {k n : ℕ} (h : n < 256^k) : beNat (toBE k n) = n := by
  rw [beNat_toBE, Nat.mod_eq_of_lt h]

theorem toBE_beNat (bs : Bytes) : toBE bs.length (beNat bs) = bs := by
  induction bs using List.reverseRecOn with
  | nil => rfl
  | append_singleton bs b ih =>
    have hb : b.toNat < 256 := b.toNat_lt
    have hd : (beNat bs * 256 + b.toNat) / 256 = beNat bs := by omega
    have hl : UInt8.ofNat (beNat bs * 256 + b.toNat) = b := by
      apply UInt8.toNat_inj.mp
      simp
    rw [beNat_concat, List.length_append, List.length_singleton, toBE, hd, ih, hl]

/-- Split off the first `n` bytes when that many are left. -/
def readBytes (n : ℕ) (bs : Bytes) : Option (Bytes × Bytes) :=
  if n ≤ bs.length then some (bs.take n, bs.drop n) else none

/-- Read `k` bytes as a big-endian number. -/
def readUInt (k : ℕ) (bs : Bytes) : Option (ℕ × Bytes) :=
  (readBytes k bs).map fun p => (beNat p.1, p.2)

/-- Move `n` bytes forward when that many are left. -/
def consume (n : ℕ) (bs : Bytes) : Option Bytes := (readBytes n bs).map Prod.snd

theorem readBytes_eq_some {n : ℕ} {bs v rest : Bytes} :
    readBytes n bs = some (v, rest) ↔ bs = v ++ rest ∧ v.length = n := by
  unfold readBytes
  split
  · rename_i hle
    simp only [Option.some.injEq, Prod.mk.injEq]
    constructor
    · rintro ⟨rfl, rfl⟩
      exact ⟨(List.take_append_drop n bs).symm, by simp [hle]⟩
    · rintro ⟨rfl, rfl⟩
      simp
  · rename_i hle
    constructor
    · intro h; cases h
    · rintro ⟨rfl, rfl⟩
      simp at hle

theorem readBytes_eq_none {n : ℕ} {bs : Bytes} : readBytes n bs = none ↔ bs.length < n := by
  unfold readBytes
  split <;> simp_all

@[simp] theorem readBytes_append (v rest : Bytes) :
    readBytes v.length (v ++ rest) = some (v, rest) :=
  readBytes_eq_some.mpr ⟨rfl, rfl⟩

theorem readUInt_eq_some {k n : ℕ} {bs rest : Bytes} :
    readUInt k bs = some (n, rest) ↔ bs = toBE k n ++ rest ∧ n < 256^k := by
  simp only [readUInt, Option.map_eq_some_iff, Prod.exists, Prod.mk.injEq, readBytes_eq_some]
  constructor
  · rintro ⟨v, r, ⟨rfl, rfl⟩, rfl, rfl⟩
    exact ⟨by rw [toBE_beNat], beNat_lt v⟩
  · rintro ⟨rfl, hn⟩
    exact ⟨toBE k n, rest, ⟨rfl, toBE_length k n⟩, beNat_toBE_of_lt hn, rfl⟩

theorem readUInt_toBE {k n : ℕ} (h : n < 256^k) (rest : Bytes) :
    readUInt k (toBE k n ++ rest) = some (n, rest) :=
  readUInt_eq_some.mpr ⟨rfl, h⟩

theorem consume_eq_some {n : ℕ} {bs rest : Bytes} :
    consume n bs = some rest ↔ ∃ v, bs = v ++ rest ∧ v.length = n := by
  simp [consume, readBytes_eq_some]

theorem consume_eq_none {n : ℕ} {bs : Bytes} : consume n bs = none ↔ bs.length < n := by
  simp [consume, readBytes_eq_none]

/-- Bytes that fill a value of length `n` up to a multiple of four. -/
def padLength (n : ℕ) : ℕ := if n % 4 = 0 then 0 else 4 - n % 4

theorem add_padLength_mod (n : ℕ) : (n + padLength n) % 4 = 0 := by
  unfold padLength; split <;> omega

/-- One attribute of a padded type-length-value sequence with 16-bit fields. -/
structure Tlv where
  type : ℕ
  value : Bytes
  padding : Bytes
  typeBound : type < 65536
  lengthBound : value.length < 65536
  padded : padding.length = padLength value.length

def Tlv.encode (t : Tlv) : Bytes :=
  toBE 2 t.type ++ (toBE 2 t.value.length ++ (t.value ++ t.padding))

def encodeAll (ts : List Tlv) : Bytes := ts.flatMap Tlv.encode

@[simp] theorem encodeAll_nil : encodeAll [] = [] := rfl

@[simp] theorem encodeAll_cons (t : Tlv) (ts : List Tlv) :
    encodeAll (t :: ts) = t.encode ++ encodeAll ts := rfl

end ByteFormat
