import XrtcServer.ByteFormat
import Mathlib.Data.List.Basic

/-! The H.264 byte stream format: NAL units, each behind a start code of three or four
bytes. -/
namespace AnnexB
open ByteFormat

/-- The length of the start code at the front of a byte string, zero if there is none. -/
def startCodeLength (s : Bytes) : ℕ :=
  if s.take 4 = [0, 0, 0, 1] then 4 else if s.take 3 = [0, 0, 1] then 3 else 0

/-- A byte string cut at its start codes: the bytes before the first one, and the units
after each. The first `skip` bytes are left out, and a start code counts when at least
`after` bytes follow it. -/
def cutFrom (after : ℕ) : ℕ → Bytes → Bytes × List Bytes
  | _, [] => ([], [])
  | skip+1, _ :: s => cutFrom after skip s
  | 0, b :: s =>
    match startCodeLength (b :: s) with
    | 0 => (b :: (cutFrom after 0 s).1, (cutFrom after 0 s).2)
    | k+1 =>
      if k + after ≤ s.length then ([], (cutFrom after k s).1 :: (cutFrom after k s).2)
      else (b :: (cutFrom after 0 s).1, (cutFrom after 0 s).2)

/-- The NAL units of a byte stream. What precedes the first start code is no unit. -/
def nalUnits (s : Bytes) : List Bytes := (cutFrom 0 0 s).2

example : nalUnits [0, 0, 1, 0x67, 0x42, 0, 0, 0, 1, 0, 0, 1, 0x68] = [[0x67, 0x42], [], [0x68]] := by
  decide

section Cut
variable (after : ℕ)

@[simp] theorem cutFrom_nil (skip : ℕ) : cutFrom after skip [] = ([], []) := by
  cases skip <;> rfl

theorem cutFrom_skip (skip : ℕ) (s : Bytes) : cutFrom after skip s = cutFrom after 0 (s.drop skip) := by
  induction s generalizing skip with
  | nil => simp
  | cons b s ih =>
    cases skip with
    | zero => rfl
    | succ skip => exact ih skip

theorem startCodeLength_cases (s : Bytes) :
    startCodeLength s = 4 ∧ s.take 4 = [0, 0, 0, 1] ∨
    startCodeLength s = 3 ∧ s.take 3 = [0, 0, 1] ∨
    startCodeLength s = 0 ∧ s.take 4 ≠ [0, 0, 0, 1] ∧ s.take 3 ≠ [0, 0, 1] := by
  simp only [startCodeLength]
  split
  · simp [*]
  · split <;> simp [*]

theorem cutFrom_plain {b : UInt8} {s : Bytes}
    (h : startCodeLength (b :: s) = 0 ∨ (b :: s).length < startCodeLength (b :: s) + after) :
    cutFrom after 0 (b :: s) = (b :: (cutFrom after 0 s).1, (cutFrom after 0 s).2) := by
  rw [cutFrom]
  split
  · rfl
  · rename_i k hk
    rw [hk] at h
    rw [if_neg (by simp at h; omega)]

theorem cutFrom_startCode {s : Bytes} {k : ℕ} (hk : startCodeLength s = k + 1)
    (h : k + 1 + after ≤ s.length) :
    cutFrom after 0 s =
      ([], (cutFrom after 0 (s.drop (k+1))).1 :: (cutFrom after 0 (s.drop (k+1))).2) := by
  cases s with
  | nil => simp at h
  | cons b s =>
    rw [cutFrom, hk]
    dsimp only
    rw [if_pos (by simp at h; omega), cutFrom_skip after k, List.drop_succ_cons]

end Cut

/-- A three-byte start code at a position. -/
def StartsAt (s : Bytes) (p : ℕ) : Prop := s[p]? = some 0 ∧ s[p+1]? = some 0 ∧ s[p+2]? = some 1

instance (s : Bytes) (p : ℕ) : Decidable (StartsAt s p) :=
  inferInstanceAs (Decidable (_ ∧ _ ∧ _))

/-- The zero at the end of the bytes before a start code belongs to the start code. -/
def dropZero (s : Bytes) : Bytes := if s.getLast? = some 0 then s.dropLast else s

theorem take_three {s : Bytes} : s.take 3 = [0, 0, 1] ↔ StartsAt s 0 := by
  rcases s with _ | ⟨a, _ | ⟨b, _ | ⟨c, s⟩⟩⟩ <;> simp [StartsAt]

theorem take_four {s : Bytes} : s.take 4 = [0, 0, 0, 1] ↔ s[0]? = some 0 ∧ StartsAt s 1 := by
  rcases s with _ | ⟨a, _ | ⟨b, _ | ⟨c, _ | ⟨d, s⟩⟩⟩⟩ <;> simp [StartsAt]

theorem StartsAt.lt {s : Bytes} {p : ℕ} (h : StartsAt s p) : p + 2 < s.length :=
  (List.getElem?_eq_some_iff.mp h.2.2).1

@[simp] theorem startsAt_cons {s : Bytes} {b : UInt8} {p : ℕ} :
    StartsAt (b :: s) (p+1) ↔ StartsAt s p := by
  simp [StartsAt]

theorem startsAt_drop {s : Bytes} {n p : ℕ} : StartsAt (s.drop n) p ↔ StartsAt s (n+p) := by
  simp [StartsAt, List.getElem?_drop, Nat.add_assoc]

section First
variable (after : ℕ)

/-- Without a start code that counts everything stays together. -/
theorem cutFrom_none {s : Bytes} (h : ∀ p, p + 3 + after ≤ s.length → ¬ StartsAt s p) :
    cutFrom after 0 s = (s, []) := by
  induction s with
  | nil => simp
  | cons b s ih =>
    have ih := ih fun p hp hstart => h (p+1) (by simp; omega) (startsAt_cons.mpr hstart)
    have hplain : startCodeLength (b :: s) = 0 ∨ (b :: s).length < startCodeLength (b :: s) + after := by
      rcases startCodeLength_cases (b :: s) with ⟨hlen, htake⟩ | ⟨hlen, htake⟩ | ⟨hlen, -⟩
      · by_contra hcon
        exact h 1 (by rw [hlen] at hcon; omega) (take_four.mp htake).2
      · by_contra hcon
        exact h 0 (by rw [hlen] at hcon; omega) (take_three.mp htake)
      · exact .inl hlen
    rw [cutFrom_plain after hplain, ih]

/-- The cut at the first start code. -/
theorem cutFrom_first {s : Bytes} {k : ℕ} (hk : StartsAt s k) (hafter : k + 3 + after ≤ s.length)
    (h : ∀ p, p < k → ¬ StartsAt s p) :
    cutFrom after 0 s = (dropZero (s.take k),
      (cutFrom after 0 (s.drop (k+3))).1 :: (cutFrom after 0 (s.drop (k+3))).2) := by
  induction k generalizing s with
  | zero =>
    have hthree := take_three.mpr hk
    have hlen : startCodeLength s = 2 + 1 := by
      rcases startCodeLength_cases s with ⟨-, htake⟩ | ⟨hlen, -⟩ | ⟨-, -, hne⟩
      · have hz := (take_four.mp htake).2.2.1
        have hone := hk.2.2
        rw [hone] at hz
        simp at hz
      · exact hlen
      · exact absurd hthree hne
    rw [cutFrom_startCode after hlen (by omega)]
    simp [dropZero]
  | succ k ih =>
    cases s with
    | nil => simp at hafter
    | cons b s =>
      have hks := startsAt_cons.mp hk
      rcases startCodeLength_cases (b :: s) with ⟨hlen, htake⟩ | ⟨-, htake⟩ | ⟨hlen, hne, -⟩
      · -- a start code of four bytes, its last three at position 1
        obtain ⟨hb, hone⟩ := take_four.mp htake
        have hk0 : k = 0 := by
          by_contra hk0
          exact h 1 (by omega) hone
        subst hk0
        have hb : b = 0 := by simpa using hb
        rw [cutFrom_startCode after (k := 3) hlen (by omega)]
        simp [dropZero, hb]
      · exact absurd (take_three.mp htake) (h 0 (by omega))
      · have ih := ih hks (by simp at hafter; omega) fun p hp hstart =>
          h (p+1) (by omega) (startsAt_cons.mpr hstart)
        have hzero : b :: dropZero (s.take k) = dropZero ((b :: s).take (k+1)) := by
          cases hs : s.take k with
          | nil =>
            have hk0 : k = 0 := by
              have := hks.lt
              rcases List.take_eq_nil_iff.mp hs with h₀ | h₀
              · exact h₀
              · simp [h₀] at this
            subst hk0
            have hb : b ≠ 0 := by
              rintro rfl
              exact hne (take_four.mpr ⟨by simp, hk⟩)
            simp [dropZero, hb]
          | cons c t =>
            simp only [List.take_succ_cons, hs, dropZero, List.getLast?_cons_cons]
            split <;> simp
        rw [cutFrom_plain after (.inl hlen), ih, hzero]
        simp

end First

/-- How a cut changes when the start code that the byte string ends with is taken for a
part of the last unit. -/
inductive MissesEnd (code : Bytes) : Bytes × List Bytes → Bytes × List Bytes → Prop
  | only (before : Bytes) : MissesEnd code (before, [[]]) (before ++ code, [])
  | last (before : Bytes) (units : List Bytes) (last : Bytes) :
      MissesEnd code (before, units ++ [last, []]) (before, units ++ [last ++ code])

namespace MissesEnd
variable {code : Bytes} {c c' : Bytes × List Bytes}

theorem plain (h : MissesEnd code c c') (b : UInt8) :
    MissesEnd code (b :: c.1, c.2) (b :: c'.1, c'.2) := by
  cases h with
  | only before => exact only (b :: before)
  | last before units last => exact .last (b :: before) units last

theorem startCode (h : MissesEnd code c c') : MissesEnd code ([], c.1 :: c.2) ([], c'.1 :: c'.2) := by
  cases h with
  | only before => exact .last [] [] before
  | last before units last => exact .last [] (before :: units) last

end MissesEnd

/-- A start code that needs a byte after it is missed at the very end, and nowhere else. -/
theorem cutFrom_one (s : Bytes) : cutFrom 1 0 s = cutFrom 0 0 s ∨
    ∃ code, (code = [0, 0, 1] ∨ code = [0, 0, 0, 1]) ∧ MissesEnd code (cutFrom 0 0 s) (cutFrom 1 0 s) := by
  generalize hn : s.length = n
  induction n using Nat.strong_induction_on generalizing s with
  | _ n ih =>
    rcases s with _ | ⟨b, s⟩
    · simp
    cases hlen : startCodeLength (b :: s) with
    | zero =>
      rw [cutFrom_plain 0 (.inl hlen), cutFrom_plain 1 (.inl hlen)]
      rcases ih s.length (by simp at hn; omega) s rfl with h | ⟨code, hcode, h⟩
      · exact .inl (by rw [h])
      · exact .inr ⟨code, hcode, h.plain b⟩
    | succ k =>
      have hle : k + 1 ≤ (b :: s).length ∧ (b :: s).take (k+1) ∈ [[0, 0, 0, 1], [0, 0, 1]] := by
        rcases startCodeLength_cases (b :: s) with ⟨hk, htake⟩ | ⟨hk, htake⟩ | ⟨hk, -⟩
        · rw [hk] at hlen
          rw [← hlen]
          exact ⟨by have := (take_four.mp htake).2.lt; omega, by simp [htake]⟩
        · rw [hk] at hlen
          rw [← hlen]
          exact ⟨by have := (take_three.mp htake).lt; omega, by simp [htake]⟩
        · omega
      rcases Nat.lt_or_ge (k + 1) (b :: s).length with hlt | hge
      · rw [cutFrom_startCode 0 hlen (by omega), cutFrom_startCode 1 hlen (by omega)]
        rcases ih _ (by simp at hn ⊢; omega) ((b :: s).drop (k+1)) rfl with h | ⟨code, hcode, h⟩
        · exact .inl (by rw [h])
        · exact .inr ⟨code, hcode, h.startCode⟩
      · have htake := hle.2
        rw [List.take_of_length_le hge] at htake
        refine .inr ⟨b :: s, by simpa [or_comm] using htake, ?_⟩
        have h₀ : cutFrom 0 0 (b :: s) = ([], [[]]) := by
          rw [cutFrom_startCode 0 hlen hle.1, List.drop_of_length_le hge]
          simp
        have h₁ : cutFrom 1 0 (b :: s) = (b :: s, []) := by
          simp only [List.mem_cons, List.not_mem_nil, or_false] at htake
          rcases htake with h | h <;> rw [h] <;> rfl
        rw [h₀, h₁]
        exact .only []

/-- A start code that needs a byte after it leaves no empty unit at the end. -/
theorem cutFrom_one_last (s : Bytes) :
    ((cutFrom 1 0 s).2 = [] → (cutFrom 1 0 s).1 = s) ∧ (cutFrom 1 0 s).2.getLast? ≠ some [] := by
  generalize hn : s.length = n
  induction n using Nat.strong_induction_on generalizing s with
  | _ n ih =>
    rcases s with _ | ⟨b, s⟩
    · simp
    by_cases hplain : startCodeLength (b :: s) = 0 ∨ (b :: s).length < startCodeLength (b :: s) + 1
    · have ih := ih s.length (by simp at hn; omega) s rfl
      rw [cutFrom_plain 1 hplain]
      exact ⟨fun h => by rw [ih.1 h], ih.2⟩
    · obtain ⟨k, hk⟩ := Nat.exists_eq_succ_of_ne_zero (not_or.mp hplain).1
      have hlen : k + 1 + 1 ≤ (b :: s).length := by
        rw [hk] at hplain
        omega
      have ih := ih _ (by simp at hn ⊢; omega) ((b :: s).drop (k+1)) rfl
      rw [cutFrom_startCode 1 hk hlen]
      refine ⟨by simp, ?_⟩
      cases hus : (cutFrom 1 0 ((b :: s).drop (k+1))).2 with
      | nil =>
        rw [ih.1 hus, List.getLast?_singleton]
        intro h
        have hdrop := congrArg List.length (Option.some.inj h)
        simp at hdrop hlen
        omega
      | cons u us =>
        rw [List.getLast?_cons_cons, ← hus]
        exact ih.2

end AnnexB
