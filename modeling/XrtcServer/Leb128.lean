import XrtcServer.ByteFormat

/-! Numbers in base 128, least significant digit first, where the top bit of a byte says that
more digits follow. -/
namespace Leb128
open ByteFormat

/-- The shortest spelling of a number. -/
def encode (n : ℕ) : Bytes :=
  if n < 128 then [UInt8.ofNat n] else UInt8.ofNat (n % 128 + 128) :: encode (n / 128)
termination_by n
decreasing_by omega

/-- Read a number of at most `k` digits. -/
def decode : ℕ → Bytes → Option (ℕ × Bytes)
  | 0, _ => none
  | _+1, [] => none
  | k+1, b :: bs =>
    if b.toNat < 128 then some (b.toNat, bs)
    else (decode k bs).map fun p => (b.toNat % 128 + 128 * p.1, p.2)

theorem encode_small {n : ℕ} (h : n < 128) : encode n = [UInt8.ofNat n] := by
  rw [encode, if_pos h]

theorem encode_large {n : ℕ} (h : 128 ≤ n) :
    encode n = UInt8.ofNat (n % 128 + 128) :: encode (n / 128) := by
  rw [encode, if_neg (by omega)]

theorem encode_length_pos (n : ℕ) : 0 < (encode n).length := by
  rw [encode]
  split <;> simp

theorem decode_encode {k n : ℕ} (h : n < 128 ^ (k + 1)) (rest : Bytes) :
    decode (k + 1) (encode n ++ rest) = some (n, rest) := by
  induction k generalizing n with
  | zero =>
    have hn : n < 128 := by simpa using h
    simp [encode_small hn, decode, UInt8.toNat_ofNat_of_lt' (show n < 2 ^ 8 by omega), hn]
  | succ k ih =>
    by_cases hn : n < 128
    · simp [encode_small hn, decode, UInt8.toNat_ofNat_of_lt' (show n < 2 ^ 8 by omega), hn]
    · have hdiv : n / 128 < 128 ^ (k + 1) := by
        rw [pow_succ] at h
        exact Nat.div_lt_of_lt_mul (by omega)
      have hsum : (n % 128 + 128) % 128 + 128 * (n / 128) = n := by omega
      rw [encode_large (by omega), List.cons_append, decode, UInt8.toNat_ofNat_of_lt' (show n % 128 + 128 < 2 ^ 8 by omega),
        if_neg (by omega), ih hdiv, Option.map_some, hsum]

theorem decode_lt {k n : ℕ} {bs rest : Bytes} (h : decode k bs = some (n, rest)) :
    n < 128 ^ k := by
  induction k generalizing n bs with
  | zero => cases h
  | succ k ih =>
    cases bs with
    | nil => cases h
    | cons b bs =>
      rw [decode] at h
      split at h
      · next hb =>
        cases h
        calc b.toNat < 128 ^ 1 := by simpa using hb
          _ ≤ 128 ^ (k + 1) := Nat.pow_le_pow_right (by norm_num) (by omega)
      · obtain ⟨⟨m, r⟩, hm, heq⟩ := Option.map_eq_some_iff.mp h
        cases heq
        have := ih hm
        rw [pow_succ]
        omega

/-- No spelling of a number is shorter than `encode`'s. -/
theorem encode_length_le {k n : ℕ} {bs rest : Bytes} (h : decode k bs = some (n, rest)) :
    (encode n).length + rest.length ≤ bs.length := by
  induction k generalizing n bs with
  | zero => cases h
  | succ k ih =>
    cases bs with
    | nil => cases h
    | cons b bs =>
      rw [decode] at h
      split at h
      · next hb =>
        cases h
        simp [encode_small hb]
        omega
      · obtain ⟨⟨m, r⟩, hm, heq⟩ := Option.map_eq_some_iff.mp h
        cases heq
        have hrec := ih hm
        by_cases hn : b.toNat % 128 + 128 * m < 128
        · have hpos := encode_length_pos m
          rw [encode_small hn, List.length_singleton, List.length_cons]
          dsimp only at hrec ⊢
          omega
        · have hm' : (b.toNat % 128 + 128 * m) / 128 = m := by omega
          rw [encode_large (by omega), hm', List.length_cons, List.length_cons]
          dsimp only at hrec ⊢
          omega

end Leb128
