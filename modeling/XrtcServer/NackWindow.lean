import XrtcServer.NackRequester
import Mathlib.Data.List.Nodup
import Mathlib.Data.List.TakeWhile

/-! The searches of a NACK requester in its list, whose numbers are near each other: there the
comparator is the order of the distances to a number in front of them. -/
namespace XrtcServer
namespace Video

/-- The numbers of a list get closer to a number in front of them. -/
def Ordered (r : UInt16) (keys : List UInt16) : Prop :=
  keys.Pairwise fun a b => (r - b).toNat < (r - a).toNat

/-- The numbers of a list are less than half a turn away from another one. -/
def Near (r x : UInt16) (keys : List UInt16) : Prop :=
  ∀ k ∈ keys, (r - k).toNat < (r - x).toNat + 2^15 ∧ (r - x).toNat < (r - k).toNat + 2^15

theorem SequenceNumberUtil.comp_iff (U : SequenceNumberUtil) {r k x : UInt16}
    (hk : (r - k).toNat < (r - x).toNat + 2^15) (hx : (r - x).toNat < (r - k).toNat + 2^15) :
    U.descendingSeqNumComp k x = true ↔ (r - x).toNat < (r - k).toNat := by
  have hr := r.toNat_lt
  have hk' := k.toNat_lt
  have hx' := x.toNat_lt
  rw [U.descendingSeqNumComp_eq, U.aheadOf_iff, ne_eq, ← UInt16.toNat_inj]
  simp only [UInt16.toNat_sub, UInt16.lt_iff_toNat_lt] at hk hx ⊢
  omega

theorem Ordered.nodup {r : UInt16} {keys : List UInt16} (h : Ordered r keys) : keys.Nodup := by
  apply List.Pairwise.imp _ h
  intro a b hlt heq
  exact absurd hlt (by rw [heq]; exact Nat.lt_irrefl _)

theorem toNat_sub_inj {r k x : UInt16} (h : (r - k).toNat = (r - x).toNat) : k = x := by
  have hr := r.toNat_lt
  have hk := k.toNat_lt
  have hx := x.toNat_lt
  rw [← UInt16.toNat_inj]
  simp only [UInt16.toNat_sub] at h
  omega

/-- Behind the front part that a decreasing test takes, the test fails. -/
theorem not_of_mem_drop {α : Type} {p : α → Bool} {l : List α}
    (h : l.Pairwise fun a b => p b = true → p a = true) {a : α}
    (ha : a ∈ l.drop (l.takeWhile p).length) : p a = false := by
  induction l with
  | nil => cases ha
  | cons b l ih =>
    have ⟨hb, hl⟩ := List.pairwise_cons.mp h
    by_cases hpb : p b = true
    · rw [List.takeWhile_cons_of_pos hpb] at ha
      exact ih hl ha
    · rw [List.takeWhile_cons_of_neg hpb] at ha
      rcases List.mem_cons.mp ha with rfl | hmem
      · exact Bool.eq_false_iff.mpr hpb
      · exact Bool.eq_false_iff.mpr fun hpa => hpb (hb a hmem hpa)

namespace NackRequester
variable {env : Environment} {s : NackRequester} {r x : UInt16} {keys : List UInt16}

/-- The search finds how many numbers are before the one that is searched for. -/
theorem search_eq (hordered : Ordered r keys) (hnear : Near r x keys) :
    (s.search env keys x).2 = (keys.takeWhile fun k => decide ((r - x).toNat < (r - k).toNat)).length := by
  have hcomp : ∀ k ∈ keys, env.descendingSeqNumComp k x = decide ((r - x).toNat < (r - k).toNat) := by
    intro k hk
    rw [Bool.eq_iff_iff, decide_eq_true_eq]
    exact env.comp_iff (hnear k hk).1 (hnear k hk).2
  have htake : keys.takeWhile (fun k => env.descendingSeqNumComp k x) =
      keys.takeWhile fun k => decide ((r - x).toNat < (r - k).toNat) := by
    clear hordered hnear
    induction keys with
    | nil => rfl
    | cons k keys ih =>
      have hrest := ih fun k' hk' => hcomp k' (List.mem_cons_of_mem _ hk')
      simp only [List.takeWhile_cons, hcomp k List.mem_cons_self, hrest]
  have hfront : keys.Pairwise fun a b =>
      env.descendingSeqNumComp b x = true → env.descendingSeqNumComp a x = true := by
    apply List.Pairwise.imp_of_mem _ hordered
    intro a b ha hb hlt
    rw [hcomp a ha, hcomp b hb, decide_eq_true_eq, decide_eq_true_eq]
    exact fun h => Nat.lt_trans h hlt
  show min (env.lowerBound s.searches keys x) keys.length = _
  rw [env.lowerBound_eq _ _ _ hfront, htake, Nat.min_eq_left (List.takeWhile_prefix _).length_le]

/-- The numbers at and behind the place are not before the one that is searched for. -/
theorem le_of_mem_drop_search (hordered : Ordered r keys) (hnear : Near r x keys) {k : UInt16}
    (hk : k ∈ keys.drop (s.search env keys x).2) : (r - k).toNat ≤ (r - x).toNat := by
  rw [search_eq hordered hnear] at hk
  have hfront : keys.Pairwise fun a b => decide ((r - x).toNat < (r - b).toNat) = true →
      decide ((r - x).toNat < (r - a).toNat) = true := by
    apply List.Pairwise.imp _ hordered
    intro a b hlt h
    exact decide_eq_true (Nat.lt_trans (of_decide_eq_true h) hlt)
  have hfail := not_of_mem_drop hfront hk
  exact Nat.not_lt.mp (of_decide_eq_false hfail)

/-- A search hits the number exactly if it is there. -/
theorem hits_search (hordered : Ordered r keys) (hnear : Near r x keys) :
    if hits env keys (s.search env keys x).2 x = true then keys[(s.search env keys x).2]? = some x
    else x ∉ keys := by
  generalize hi : (s.search env keys x).2 = i
  have hdrop : ∀ k ∈ keys.drop i, (r - k).toNat ≤ (r - x).toNat := by
    intro k hk
    rw [← hi] at hk
    exact le_of_mem_drop_search hordered hnear hk
  have htake : ∀ k ∈ keys.take i, (r - x).toNat < (r - k).toNat := by
    intro k hk
    rw [← hi, search_eq hordered hnear, (List.prefix_iff_eq_take.mp (List.takeWhile_prefix _)).symm] at hk
    have hbefore := List.mem_takeWhile_imp (p := fun k => decide ((r - x).toNat < (r - k).toNat)) hk
    exact of_decide_eq_true hbefore
  have hmem : x ∈ keys → x ∈ keys.drop i := by
    intro hx
    rw [← List.take_append_drop i keys, List.mem_append] at hx
    rcases hx with hx | hx
    · exact absurd (htake x hx) (Nat.lt_irrefl _)
    · exact hx
  cases hget : keys[i]? with
  | none =>
    have hnil : keys.drop i = [] := List.drop_eq_nil_of_le (List.getElem?_eq_none_iff.mp hget)
    have hmiss : hits env keys i x = false := by simp [hits, hget]
    rw [if_neg (Bool.eq_false_iff.mp hmiss)]
    exact fun hx => List.not_mem_nil (hnil ▸ hmem hx)
  | some k =>
    have ⟨hlt, hkeys⟩ := List.getElem?_eq_some_iff.mp hget
    have hk : k ∈ keys := List.mem_of_getElem? hget
    have hcons : keys.drop i = k :: keys.drop (i + 1) := by rw [← hkeys, List.drop_eq_getElem_cons hlt]
    have hle := hdrop k (by simp [hcons])
    have hhits : hits env keys i x = true ↔ k = x := by
      rw [hits, hget]
      simp only [Bool.not_eq_true']
      rw [Bool.eq_false_iff, ne_eq, env.comp_iff (hnear k hk).2 (hnear k hk).1]
      constructor
      · exact fun hge => toNat_sub_inj (Nat.le_antisymm hle (Nat.not_lt.mp hge))
      · rintro rfl
        exact Nat.lt_irrefl _
    split
    · rename_i h
      rw [hhits.mp h]
    · rename_i h
      intro hx
      have hin := hmem hx
      rw [hcons, List.mem_cons] at hin
      rcases hin with rfl | hin
      · exact h (hhits.mpr rfl)
      · have hpair : Ordered r (keys.drop i) := List.Pairwise.sublist (List.drop_sublist i keys) hordered
        rw [hcons] at hpair
        exact absurd ((List.pairwise_cons.mp hpair).1 x hin) (Nat.not_lt.mpr hle)

end NackRequester
end Video
end XrtcServer
