import XrtcServer.AnnexB
import XrtcServer.RtpPacketizerH264
import Mathlib.Data.List.ModifyLast
import Mathlib.Data.List.GetD

/-! The search of the packetizer for NAL units, against the cut of a byte stream at its
start codes. -/
namespace XrtcServer
namespace RtpFormat
open ByteFormat AnnexB

variable {buffer : Bytes}

theorem getElem?_eq_byteAt {i : ℕ} (h : i < buffer.length) : buffer[i]? = some (byteAt buffer i) := by
  rw [byteAt, List.getElem?_eq_getElem h, List.getD_eq_getElem _ _ h]

theorem startsAt_iff {p : ℕ} : StartsAt buffer p ↔ p + 2 < buffer.length ∧
    byteAt buffer p = 0 ∧ byteAt buffer (p+1) = 0 ∧ byteAt buffer (p+2) = 1 := by
  constructor
  · intro h
    refine ⟨h.lt, ?_, ?_, ?_⟩ <;> simp [byteAt, h.1, h.2.1, h.2.2]
  · rintro ⟨hlt, h₀, h₁, h₂⟩
    refine ⟨?_, ?_, ?_⟩ <;> rw [getElem?_eq_byteAt (by omega)] <;> simp [h₀, h₁, h₂]

/-- A third byte that is not zero lets the search pass over three positions. -/
theorem not_startsAt_three {i : ℕ} (h₀ : byteAt buffer (i+2) ≠ 0) (h : ¬ StartsAt buffer i) :
    ∀ p, i ≤ p → p < i + 3 → ¬ StartsAt buffer p := by
  intro p hle hlt hp
  obtain rfl | rfl | rfl : p = i ∨ p = i + 1 ∨ p = i + 2 := by omega
  · exact h hp
  · exact h₀ (startsAt_iff.mp hp).2.2.1
  · exact h₀ (startsAt_iff.mp hp).2.1

theorem not_startsAt_third {i : ℕ} (h : byteAt buffer (i+2) ≠ 1) : ¬ StartsAt buffer i :=
  fun hi => h (startsAt_iff.mp hi).2.2.2

theorem closeLast_concat (sequences : List NaluIndex) (it : NaluIndex) (stop : ℕ) :
    closeLast (sequences ++ [it]) stop =
      sequences ++ [{ it with payloadSize := stop - it.payloadStartOffset }] := by
  simp [closeLast, List.modifyLast_concat]

/-- The entry before a start code ends where the start code begins, its leading zero
included. -/
theorem dropZero_take {i j : ℕ} (hji : j ≤ i) (hi : i ≤ buffer.length) (hj : byteAt buffer (j-1) = 1) :
    (buffer.drop j).take ((naluAt buffer i).startOffset - j) = dropZero ((buffer.drop j).take (i-j)) := by
  have hlen : ((buffer.drop j).take (i-j)).length = i - j := by
    simp
    omega
  rcases Nat.eq_or_lt_of_le hji with rfl | hlt
  · have hstart : (naluAt buffer j).startOffset = j := by
      rw [naluAt, if_neg]
      rintro ⟨-, hzero⟩
      rw [hj] at hzero
      cases hzero
    simp [hstart, dropZero]
  · have hlast : ((buffer.drop j).take (i-j)).getLast? = some (byteAt buffer (i-1)) := by
      rw [List.getLast?_eq_getElem?, hlen, List.getElem?_take_of_lt (by omega), List.getElem?_drop,
        show j + (i - j - 1) = i - 1 by omega, getElem?_eq_byteAt (by omega)]
    simp only [dropZero, hlast, Option.some.injEq, naluAt]
    by_cases hzero : byteAt buffer (i-1) = 0
    · rw [if_pos ⟨by omega, hzero⟩, if_pos hzero, List.dropLast_eq_take, hlen, List.take_take]
      congr 1
      omega
    · rw [if_neg (by simp [hzero]), if_neg hzero]

/-- The search from `i` with an entry open since `j`. -/
theorem findFrom_open {i : ℕ} {sequences done : List NaluIndex} {it : NaluIndex} {j : ℕ}
    (hseq : sequences = done ++ [it]) (hit : it.payloadStartOffset = j) (hji : j ≤ i)
    (hlen : j ≤ buffer.length) (hj : byteAt buffer (j-1) = 1)
    (hnone : ∀ p, j ≤ p → p < i → ¬ StartsAt buffer p) :
    (closeLast (findFrom buffer i sequences) buffer.length).map (subview buffer) =
      done.map (subview buffer) ++
        ((cutFrom 1 0 (buffer.drop j)).1 :: (cutFrom 1 0 (buffer.drop j)).2) := by
  induction i, sequences using findFrom.induct buffer generalizing done it j with
  | case1 i sequences hi hc ih =>
    rw [findFrom, if_pos hi, if_pos hc]
    refine ih hseq hit (by omega) hlen hj fun p hp hlt => ?_
    rcases Nat.lt_or_ge p i with hpi | hip
    · exact hnone p hp hpi
    · refine not_startsAt_three ?_ (not_startsAt_third ?_) p hip (by omega) <;> intro h <;> simp [h] at hc
  | case2 i sequences hi hc hone hzero ih =>
    have hstart : StartsAt buffer i := startsAt_iff.mpr
      ⟨by simp only [kNaluShortStartSequenceSize] at hi; omega, hzero.1, hzero.2, hone⟩
    have hafter : i + 3 < buffer.length := by
      simp only [kNaluShortStartSequenceSize] at hi
      omega
    have hfirst := cutFrom_first 1 (s := buffer.drop j) (k := i - j)
      (startsAt_drop.mpr (by rwa [show j + (i - j) = i by omega])) (by simp; omega)
      (fun p hp hstart => hnone (j+p) (by omega) (by omega) (startsAt_drop.mp hstart))
    rw [findFrom, if_pos hi, if_neg hc, if_pos hone, if_pos hzero]
    rw [ih (by rw [hseq, closeLast_concat]) rfl (by simp [naluAt]) (by simp [naluAt]; omega)
      (by simpa [naluAt] using hone) (fun p hp hlt => by simp [naluAt] at hp; omega)]
    rw [hfirst, List.drop_drop, ← dropZero_take hji (by omega) hj]
    simp [subview, hit, naluAt, show j + (i - j + 3) = i + 3 by omega]
  | case3 i sequences hi hc hone hzero ih =>
    rw [findFrom, if_pos hi, if_neg hc, if_pos hone, if_neg hzero]
    refine ih hseq hit (by omega) hlen hj fun p hp hlt => ?_
    rcases Nat.lt_or_ge p i with hpi | hip
    · exact hnone p hp hpi
    · refine not_startsAt_three (by simp [hone]) (fun hs => hzero ?_) p hip (by omega)
      exact ⟨(startsAt_iff.mp hs).2.1, (startsAt_iff.mp hs).2.2.1⟩
  | case4 i sequences hi hc hone ih =>
    rw [findFrom, if_pos hi, if_neg hc, if_neg hone]
    refine ih hseq hit (by omega) hlen hj fun p hp hlt => ?_
    rcases Nat.lt_or_ge p i with hpi | hip
    · exact hnone p hp hpi
    · rw [show p = i by omega]
      exact not_startsAt_third hone
  | case5 i sequences hi =>
    have hcut := cutFrom_none 1 (s := buffer.drop j) fun p hp hstart =>
      hnone (j+p) (by omega) (by simp [kNaluShortStartSequenceSize] at hi hp; omega) (startsAt_drop.mp hstart)
    rw [findFrom, if_neg hi, hseq, closeLast_concat, hcut]
    simp [subview, hit]

/-- The search from `i` with no start code before it. -/
theorem findFrom_none {i : ℕ} {sequences : List NaluIndex} (hseq : sequences = [])
    (hnone : ∀ p, p < i → ¬ StartsAt buffer p) :
    (closeLast (findFrom buffer i sequences) buffer.length).map (subview buffer) = (cutFrom 1 0 buffer).2 := by
  induction i, sequences using findFrom.induct buffer with
  | case1 i sequences hi hc ih =>
    rw [findFrom, if_pos hi, if_pos hc]
    refine ih hseq fun p hlt => ?_
    rcases Nat.lt_or_ge p i with hpi | hip
    · exact hnone p hpi
    · refine not_startsAt_three ?_ (not_startsAt_third ?_) p hip (by omega) <;> intro h <;> simp [h] at hc
  | case2 i sequences hi hc hone hzero ih =>
    have hlen : i + 3 < buffer.length := by
      simp only [kNaluShortStartSequenceSize] at hi
      omega
    have hstart : StartsAt buffer i := startsAt_iff.mpr ⟨by omega, hzero.1, hzero.2, hone⟩
    have hopen := findFrom_open (show [naluAt buffer i] = [] ++ [naluAt buffer i] from rfl)
      (show _ = i + 3 from rfl) le_rfl (by omega) hone (fun p hp hlt => by omega)
    rw [findFrom, if_pos hi, if_neg hc, if_pos hone, if_pos hzero, hseq,
      show closeLast [] (naluAt buffer i).startOffset = [] from rfl, List.nil_append, hopen,
      cutFrom_first 1 hstart (by omega) hnone]
    rfl
  | case3 i sequences hi hc hone hzero ih =>
    rw [findFrom, if_pos hi, if_neg hc, if_pos hone, if_neg hzero]
    refine ih hseq fun p hlt => ?_
    rcases Nat.lt_or_ge p i with hpi | hip
    · exact hnone p hpi
    · refine not_startsAt_three (by simp [hone]) (fun hs => hzero ?_) p hip (by omega)
      exact ⟨(startsAt_iff.mp hs).2.1, (startsAt_iff.mp hs).2.2.1⟩
  | case4 i sequences hi hc hone ih =>
    rw [findFrom, if_pos hi, if_neg hc, if_neg hone]
    refine ih hseq fun p hlt => ?_
    rcases Nat.lt_or_ge p i with hpi | hip
    · exact hnone p hpi
    · rw [show p = i by omega]
      exact not_startsAt_third hone
  | case5 i sequences hi =>
    have hcut := cutFrom_none 1 (s := buffer) fun p hp =>
      hnone p (by simp only [kNaluShortStartSequenceSize] at hi; omega)
    rw [findFrom, if_neg hi, hseq, hcut]
    rfl

/-- The fragments are the units after the start codes that have a byte after them. -/
theorem fragmentsOf_eq (buffer : Bytes) : fragmentsOf buffer = (cutFrom 1 0 buffer).2 := by
  rw [fragmentsOf, findNaluIndices]
  split
  · rename_i hlen
    rw [cutFrom_none 1 fun p hp => by simp only [kNaluShortStartSequenceSize] at hlen; omega]
    rfl
  · exact findFrom_none rfl fun p hp => by omega

end RtpFormat
end XrtcServer
