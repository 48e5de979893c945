import Mathlib.Algebra.BigOperators.Group.List.Basic
import Mathlib.Algebra.Order.BigOperators.Group.List
import Mathlib.Data.List.GetD
import Mathlib.Data.Rat.Lemmas
import Mathlib.Order.Bounds.Basic
import Mathlib.Tactic.FieldSimp
import Mathlib.Tactic.Ring
import XrtcServer.NackRequester
import XrtcServer.OverwriteRing

/-! The histogram of the last values that were added to it, and the least number of buckets
that hold a fraction of them. -/
namespace XrtcServer
namespace VideoCoding

/-- `capacity` is that of the vector of the values, which never grows over it. -/
structure Histogram where
  values : List ℕ := []
  buckets : List ℕ
  index : ℕ := 0
  capacity : ℕ

namespace Histogram

def new (numBuckets maxNumPackets : ℕ) : Histogram :=
  { buckets := List.replicate numBuckets 0, capacity := maxNumPackets }

/-- The place of the oldest value is free, or the first that is not used yet. -/
def add (h : Histogram) (value : ℕ) : Histogram :=
  let value := min value (h.buckets.length - 1)
  let h :=
    if h.index < h.values.length then
      { h with buckets := h.buckets.modify (h.values.getD h.index 0) (· - 1),
               values := h.values.set h.index value }
    else { h with values := h.values ++ [value] }
  { h with buckets := h.buckets.modify value (· + 1), index := (h.index + 1) % h.capacity }

/-- The loop of `InverseCdf` over the buckets from `bucket` on. -/
def inverseCdfFrom (numValues : ℕ) (probability : ℚ) : ℚ → ℕ → List ℕ → ℕ
  | _, bucket, [] => bucket
  | accumulated, bucket, count :: counts =>
    if accumulated < probability then
      inverseCdfFrom numValues probability (accumulated + count / numValues) (bucket + 1) counts
    else bucket

def inverseCdf (h : Histogram) (probability : ℚ) : ℕ :=
  inverseCdfFrom h.values.length probability 0 0 h.buckets

/-- The values as a ring. -/
def ring (h : Histogram) : OverwriteRing ℕ := ⟨h.values, h.index⟩

/-- Every bucket counts the values at its index, and there is a bucket for every value. -/
structure Counts (h : Histogram) : Prop where
  inRange : ∀ v ∈ h.values, v < h.buckets.length
  counted : ∀ b < h.buckets.length, h.buckets[b]? = some (h.values.count b)

section Add
variable {h : Histogram} (value : ℕ)

@[simp] theorem length_buckets_add : (h.add value).buckets.length = h.buckets.length := by
  unfold add
  dsimp only
  split <;> simp

@[simp] theorem capacity_add : (h.add value).capacity = h.capacity := by
  unfold add
  dsimp only
  split <;> rfl

theorem ring_add : (h.add value).ring =
    h.ring.push h.capacity (min value (h.buckets.length - 1)) := by
  unfold add ring OverwriteRing.push
  dsimp only
  split <;> rfl

/-- The counts stay right, and the count that goes down was not zero. -/
theorem Counts.old (hcounts : Counts h) {old : ℕ} (hold : h.values[h.index]? = some old) :
    ∃ count, h.buckets[old]? = some count ∧ 0 < count := by
  have hmem : old ∈ h.values := List.mem_of_getElem? hold
  exact ⟨_, hcounts.counted old (hcounts.inRange old hmem), List.count_pos_iff.mpr hmem⟩

theorem Counts.add (hcounts : Counts h) (hpos : 0 < h.buckets.length) : Counts (h.add value) := by
  have hclamped : min value (h.buckets.length - 1) < h.buckets.length := by omega
  constructor
  · intro v hv
    rw [length_buckets_add]
    unfold Histogram.add at hv
    dsimp only at hv
    split at hv
    · rcases List.mem_or_eq_of_mem_set hv with hv | rfl
      · exact hcounts.inRange v hv
      · exact hclamped
    · rcases List.mem_append.mp hv with hv | hv
      · exact hcounts.inRange v hv
      · rw [List.mem_singleton.mp hv]
        exact hclamped
  · intro b hb
    rw [length_buckets_add] at hb
    have hcount := hcounts.counted b hb
    unfold Histogram.add
    dsimp only
    split
    · rename_i hlt
      have hold : h.values.getD h.index 0 = h.values[h.index] := List.getD_eq_getElem _ _ hlt
      have hone : h.values[h.index] = b → 0 < h.values.count b := by
        rintro rfl
        exact List.count_pos_iff.mpr (List.getElem_mem hlt)
      dsimp only
      rw [List.getElem?_modify, List.getElem?_modify, hcount, List.count_set hlt, hold]
      simp only [Option.map_eq_map, Option.map_some, Option.some.injEq, beq_iff_eq]
      split_ifs <;> omega
    · dsimp only
      rw [List.getElem?_modify, hcount, List.count_append, List.count_singleton]
      simp only [Option.map_eq_map, Option.map_some, Option.some.injEq, beq_iff_eq]
      split_ifs <;> omega

end Add

section Runs
variable {numBuckets capacity : ℕ}

theorem counts_new (numBuckets maxNumPackets : ℕ) : Counts (new numBuckets maxNumPackets) :=
  ⟨by simp [new], by simp [new, List.getElem?_replicate]⟩

/-- The state after some calls of `Add`. -/
structure After (numBuckets capacity : ℕ) (added : List ℕ) (h : Histogram) : Prop extends Counts h where
  length_buckets : h.buckets.length = numBuckets
  capacity_eq : h.capacity = capacity
  holds : OverwriteRing.Holds capacity (added.map fun v => min v (numBuckets - 1)) h.ring

theorem After.add {added : List ℕ} {h : Histogram} (hafter : After numBuckets capacity added h)
    (hbuckets : 1 ≤ numBuckets) (hcapacity : 1 ≤ capacity) (value : ℕ) :
    After numBuckets capacity (added ++ [value]) (h.add value) where
  toCounts := hafter.toCounts.add value (by rw [hafter.length_buckets]; exact hbuckets)
  length_buckets := (length_buckets_add value).trans hafter.length_buckets
  capacity_eq := (capacity_add value).trans hafter.capacity_eq
  holds := by
    rw [ring_add, hafter.capacity_eq, hafter.length_buckets, List.map_append]
    exact hafter.holds.push hcapacity _

theorem after_run (hbuckets : 1 ≤ numBuckets) (hcapacity : 1 ≤ capacity) (added : List ℕ) :
    After numBuckets capacity added (added.foldl add (new numBuckets capacity)) := by
  induction added using List.reverseRecOn with
  | nil =>
    exact ⟨counts_new numBuckets capacity, by simp [new], rfl, OverwriteRing.holds_nil⟩
  | append_singleton added value ih =>
    rw [List.foldl_append]
    exact ih.add hbuckets hcapacity value

end Runs

section InverseCdf

/-- The loop leaves at the first bucket up to which there is enough, or behind the last. -/
theorem inverseCdfFrom_spec (numValues : ℕ) (p : ℚ) (accumulated : ℚ) (bucket : ℕ) (counts : List ℕ) :
    ∃ k ≤ counts.length, inverseCdfFrom numValues p accumulated bucket counts = bucket + k ∧
      (∀ j < k, accumulated + ((counts.take j).sum : ℚ) / numValues < p) ∧
      (p ≤ accumulated + ((counts.take k).sum : ℚ) / numValues ∨ k = counts.length) := by
  induction counts generalizing accumulated bucket with
  | nil => exact ⟨0, le_rfl, rfl, by simp, Or.inr rfl⟩
  | cons count counts ih =>
    unfold inverseCdfFrom
    split
    · rename_i hless
      obtain ⟨k, hk, hresult, hbefore, hafter⟩ := ih (accumulated + count / numValues) (bucket + 1)
      have hsum : ∀ j, accumulated + (((count :: counts).take (j+1)).sum : ℚ) / numValues =
          accumulated + count / numValues + ((counts.take j).sum : ℚ) / numValues := by
        intro j
        rw [List.take_succ_cons, List.sum_cons]
        push_cast
        ring
      refine ⟨k + 1, by simpa using hk, by rw [hresult]; omega, ?_, ?_⟩
      · intro j hj
        cases j with
        | zero => simpa using hless
        | succ j =>
          rw [hsum]
          exact hbefore j (by omega)
      · rw [hsum]
        exact hafter.imp_right (by simp)
    · rename_i henough
      exact ⟨0, Nat.zero_le _, rfl, by simp, Or.inl (by simpa using henough)⟩

variable {h : Histogram}

theorem countP_succ (l : List ℕ) (b : ℕ) :
    l.countP (· < b + 1) = l.countP (· < b) + l.count b := by
  induction l with
  | nil => rfl
  | cons v l ih =>
    simp only [List.countP_cons, List.count_cons, decide_eq_true_eq, beq_iff_eq, ih]
    split_ifs <;> omega

/-- The first buckets hold the values below their number. -/
theorem Counts.sum_take (hcounts : Counts h) (b : ℕ) (hb : b ≤ h.buckets.length) :
    (h.buckets.take b).sum = h.values.countP (· < b) := by
  induction b with
  | zero => simp
  | succ b ih =>
    rw [List.take_add_one, List.sum_append, ih (by omega), hcounts.counted b hb, countP_succ]
    simp

theorem Counts.sum_buckets (hcounts : Counts h) : h.buckets.sum = h.values.length := by
  rw [← List.take_length (l := h.buckets), hcounts.sum_take _ le_rfl, List.countP_eq_length]
  exact fun v hv => decide_eq_true (hcounts.inRange v hv)

theorem Counts.isLeast_inverseCdf (hcounts : Counts h) (hvalues : h.values ≠ []) {p : ℚ} (hp : p ≤ 1) :
    IsLeast {b | p ≤ ((h.buckets.take b).sum : ℚ) / h.values.length} (h.inverseCdf p) := by
  obtain ⟨k, -, hresult, hbefore, hafter⟩ := inverseCdfFrom_spec h.values.length p 0 0 h.buckets
  simp only [zero_add] at hresult hbefore hafter
  have hlen : (h.values.length : ℚ) ≠ 0 :=
    Nat.cast_ne_zero.mpr (mt List.length_eq_zero_iff.mp hvalues)
  rw [inverseCdf, hresult]
  constructor
  · rcases hafter with henough | rfl
    · exact henough
    · show p ≤ _
      rw [List.take_length, hcounts.sum_buckets, div_self hlen]
      exact hp
  · intro b hb
    by_contra hlt
    exact absurd hb (not_le.mpr (hbefore b (not_le.mp hlt)))

end InverseCdf

section Requester

/-- The histogram of the requester, with the capacity that it is made for. -/
def ofRequester (h : Video.Histogram) : Histogram :=
  { values := h.values, buckets := h.buckets, index := h.index, capacity := Video.kMaxReorderingPackets }

theorem ofRequester_new : ofRequester {} = new Video.kNumReorderingBuckets Video.kMaxReorderingPackets := rfl

theorem ofRequester_add (h : Video.Histogram) (value : ℕ) :
    ofRequester (h.add value) = (ofRequester h).add value := by
  unfold Video.Histogram.add add ofRequester
  by_cases hlt : h.index < h.values.length
  · simp [hlt]
  · simp [hlt]

theorem ofRequester_foldl (diffs : List ℕ) : ofRequester (diffs.foldl Video.Histogram.add {}) =
    diffs.foldl add (new Video.kNumReorderingBuckets Video.kMaxReorderingPackets) := by
  induction diffs using List.reverseRecOn with
  | nil => rfl
  | append_singleton diffs diff ih =>
    rw [List.foldl_append, List.foldl_append, ← ih]
    exact ofRequester_add _ diff

/-- The requester waits for no packet before it has seen one out of order, and later for as many
as the least number of buckets with the fraction. -/
theorem waitNumberOfPackets_eq {env : Video.Environment} {p : ℚ} (hp : p ≤ 1)
    (henv : ∀ buckets values, env.inverseCdf buckets values =
      inverseCdfFrom values.length p 0 0 buckets)
    {s : Video.NackRequester} {diffs : List ℕ}
    (hs : s.reorderingHistogram = diffs.foldl Video.Histogram.add {}) :
    (diffs = [] → s.waitNumberOfPackets env = 0) ∧ (diffs ≠ [] →
      IsLeast {b | p ≤ ((s.reorderingHistogram.buckets.take b).sum : ℚ) /
        s.reorderingHistogram.values.length} (s.waitNumberOfPackets env)) := by
  have hafter : After Video.kNumReorderingBuckets Video.kMaxReorderingPackets diffs _ :=
    after_run (by decide) (by decide) diffs
  rw [← ofRequester_foldl, ← hs] at hafter
  have hlen : s.reorderingHistogram.numValues = min diffs.length Video.kMaxReorderingPackets := by
    have hring := hafter.holds.length
    rwa [List.length_map] at hring
  constructor
  · rintro rfl
    exact if_pos hlen
  · intro hdiffs
    have hpos := List.length_pos_iff.mpr hdiffs
    have hmore : 0 < Video.kMaxReorderingPackets := by decide
    have hnum : s.reorderingHistogram.numValues ≠ 0 := by omega
    have hwait : s.waitNumberOfPackets env = (ofRequester s.reorderingHistogram).inverseCdf p := by
      unfold Video.NackRequester.waitNumberOfPackets
      rw [if_neg hnum, henv]
      rfl
    rw [hwait]
    exact hafter.isLeast_inverseCdf (mt List.length_eq_zero_iff.mpr hnum) hp

end Requester

/-- After any calls of `Add` the values are the last ones, oldest first from the index on, every
bucket counts its own, the count of the next value to go is not zero, and the inverse of the
distribution is the least number of buckets that hold the fraction. -/
theorem add_run {numBuckets capacity : ℕ} (hbuckets : 1 ≤ numBuckets) (hcapacity : 1 ≤ capacity)
    (added : List ℕ) :
    let h := added.foldl add (new numBuckets capacity)
    h.buckets.length = numBuckets ∧
    (∀ b < numBuckets, h.buckets[b]? = some (h.values.count b)) ∧
    h.values.length = min added.length capacity ∧
    h.values.rotate h.index =
      (added.map fun v => min v (numBuckets - 1)).drop (added.length - capacity) ∧
    (∀ old, h.values[h.index]? = some old → ∃ count, h.buckets[old]? = some count ∧ 0 < count) ∧
    ∀ p : ℚ, 0 < p → p ≤ 1 → added ≠ [] →
      IsLeast {b | p ≤ ((h.buckets.take b).sum : ℚ) / h.values.length} (h.inverseCdf p) := by
  intro h
  have hafter : After numBuckets capacity added h := after_run hbuckets hcapacity added
  have hlen : h.values.length = min added.length capacity := by
    have hring := hafter.holds.length
    rwa [List.length_map] at hring
  have horder := hafter.holds.inOrder
  rw [List.length_map] at horder
  refine ⟨hafter.length_buckets, fun b hb => hafter.counted b (hafter.length_buckets.symm ▸ hb), hlen,
    horder, fun old hold => hafter.old hold, fun p _ hp hadded => ?_⟩
  apply hafter.isLeast_inverseCdf _ hp
  have hpos := List.length_pos_iff.mpr hadded
  intro hnil
  rw [hnil, List.length_nil] at hlen
  omega

/-- Three values in a histogram of two: the first is gone and the second is the oldest. -/
theorem add_run_wraps : ([7, 0, 1].foldl add (new 3 2)).values.rotate 1 = [0, 1] :=
  (add_run (show 1 ≤ 3 by decide) (show 1 ≤ 2 by decide) [7, 0, 1]).2.2.2.1

end Histogram
end VideoCoding
end XrtcServer
