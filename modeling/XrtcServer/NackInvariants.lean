import XrtcServer.NackWindow
import Mathlib.Data.List.InsertIdx

/-! The list of a NACK requester in every reachable state, and how often and at which times
each of its numbers is asked for. -/
namespace XrtcServer
namespace Video

/-- What happened since a number was put on the list the last time. -/
def since (k : UInt16) (history : List Mark) : List Mark := history.takeWhile fun m => m ≠ .added k

/-- The times at which a number was asked for, each with the round trip time then. -/
def Mark.requests (k : UInt16) : Mark → List (ℕ × ℤ)
  | sent batch _ now rttMs => (batch.filter (· = k)).map fun _ => (now, rttMs)
  | _ => []

/-- The requests since a number was put on the list, the last one first. -/
def requests (k : UInt16) (history : List Mark) : List (ℕ × ℤ) :=
  (since k history).flatMap (Mark.requests k)

/-- Requests in the order of time, each more than the round trip time of its moment after
those before it. -/
def Spaced (requests : List (ℕ × ℤ)) : Prop :=
  requests.Pairwise fun a b => b.1 ≤ a.1 ∧ (a.1 : ℤ) - b.1 > a.2

/-- Few and spaced requests up to now. -/
structure Asked (clock : ℕ) (requests : List (ℕ × ℤ)) : Prop where
  few : requests.length ≤ kMaxNackRetries
  spaced : Spaced requests
  past : ∀ request ∈ requests, request.1 ≤ clock

section History
variable {k x : UInt16} {history : List Mark}

theorem since_cons {m : Mark} (h : m ≠ .added k) : since k (m :: history) = m :: since k history :=
  List.takeWhile_cons_of_pos (by simpa using h)

theorem since_added : since k (.added k :: history) = [] :=
  List.takeWhile_cons_of_neg (by simp)

theorem requests_cons {m : Mark} (h : m ≠ .added k) :
    requests k (m :: history) = m.requests k ++ requests k history := by
  rw [requests, since_cons h]
  rfl

theorem requests_added_self : requests k (.added k :: history) = [] := by
  rw [requests, since_added]
  rfl

theorem requests_received : requests k (.received x :: history) = requests k history := by
  rw [requests_cons (by simp)]
  rfl

theorem requests_added (h : x ≠ k) : requests k (.added x :: history) = requests k history := by
  rw [requests_cons (by simpa using h)]
  rfl

end History

namespace NackRequester
variable {env : Environment} {s t : NackRequester} {r : UInt16} {n : ℕ}

/-- What an element of the list says about its number. -/
structure Listed (history : List Mark) (entry : UInt16 × NackInfo) : Prop where
  seqNum : entry.2.seqNum = entry.1
  added : .added entry.1 ∈ history
  notReceived : .received entry.1 ∉ since entry.1 history
  retries : (requests entry.1 history).length = entry.2.retries
  fewer : entry.2.retries < kMaxNackRetries
  sendAtTime : entry.2.sendAtTime = match (requests entry.1 history).head? with
    | none => -1
    | some request => (request.1 : ℤ)

/-- What holds while the number in front of the list is this one and so many numbers are
still to be added. -/
structure ValidAt (r : UInt16) (n : ℕ) (s : NackRequester) : Prop where
  length : s.nackList.length + n ≤ kMaxNackPackets
  ordered : Ordered r s.keys
  behind : ∀ k ∈ s.keys, 0 < (r - k).toNat ∧ (r - k).toNat + n ≤ kMaxPacketAge.toNat
  listed : ∀ entry ∈ s.nackList, Listed s.history entry
  asked : ∀ k, Asked s.clock (requests k s.history)
  batches : ∀ batch list now rttMs, .sent batch list now rttMs ∈ s.history → ∀ k ∈ batch, k ∈ list

/-- What holds between events. -/
structure Valid (s : NackRequester) : Prop extends ValidAt s.newestSeqNum 0 s where
  initialized : s.initialized = false → s.nackList = []

section Frame

/-- Elements may have gone from the list, and the rest that matters is as it was. -/
structure Trims (s t : NackRequester) : Prop where
  nackList : t.nackList.Sublist s.nackList
  history : t.history = s.history
  clock : t.clock = s.clock
  initialized : t.initialized = s.initialized
  newestSeqNum : t.newestSeqNum = s.newestSeqNum

theorem Trims.refl (s : NackRequester) : Trims s s := ⟨List.Sublist.refl _, rfl, rfl, rfl, rfl⟩

theorem Trims.trans {u : NackRequester} (h : Trims s t) (h' : Trims t u) : Trims s u where
  nackList := h'.nackList.trans h.nackList
  history := h'.history.trans h.history
  clock := h'.clock.trans h.clock
  initialized := h'.initialized.trans h.initialized
  newestSeqNum := h'.newestSeqNum.trans h.newestSeqNum

theorem trims_insertKeyframe (x : UInt16) : Trims s (s.insertKeyframe env x) := by
  unfold insertKeyframe
  dsimp only
  split <;> exact ⟨List.Sublist.refl _, rfl, rfl, rfl, rfl⟩

theorem trims_removeUntil (keyframes : List UInt16) : Trims s (s.removeUntil env keyframes).1 := by
  induction keyframes generalizing s with
  | nil => exact ⟨List.Sublist.refl _, rfl, rfl, rfl, rfl⟩
  | cons keyframe keyframes ih =>
    simp only [removeUntil]
    split
    · exact ⟨List.drop_sublist _ _, rfl, rfl, rfl, rfl⟩
    · have hsearched : Trims s (s.search env s.keys keyframe).1 :=
        ⟨List.Sublist.refl _, rfl, rfl, rfl, rfl⟩
      exact hsearched.trans ih

theorem trims_makeRoom (n : ℕ) : Trims s (s.makeRoom env n) := by
  induction s using makeRoom.induct env n with
  | case1 s result hremoved hfull ih =>
    rw [makeRoom, dif_pos hremoved, if_pos hfull]
    exact (trims_removeUntil _).trans ih
  | case2 s result hremoved hroom =>
    rw [makeRoom, dif_pos hremoved, if_neg hroom]
    exact trims_removeUntil _
  | case3 s result hkept =>
    rw [makeRoom, dif_neg hkept]
    exact trims_removeUntil _

end Frame

section Steps

theorem ValidAt.shrink (h : ValidAt r n s) (ht : Trims s t) : ValidAt r n t := by
  have hlist := ht.nackList
  have hkeys : t.keys.Sublist s.keys := hlist.map _
  refine ⟨?_, List.Pairwise.sublist hkeys h.ordered, fun k hk => h.behind k (hkeys.subset hk), ?_, ?_, ?_⟩
  · exact Nat.le_trans (Nat.add_le_add_right hlist.length_le n) h.length
  · intro entry hentry
    rw [ht.history]
    exact h.listed entry (hlist.subset hentry)
  · rw [ht.history, ht.clock]
    exact h.asked
  · rw [ht.history]
    exact h.batches

/-- A packet is received whose number is not on the list. -/
theorem ValidAt.receive (h : ValidAt r n s) {x : UInt16} (hx : x ∉ s.keys) :
    ValidAt r n (s.note (.received x)) where
  length := h.length
  ordered := h.ordered
  behind := h.behind
  listed entry hentry := by
    have hlisted := h.listed entry hentry
    have hkey : entry.1 ∈ s.keys := List.mem_map_of_mem hentry
    have hne : entry.1 ≠ x := fun heq => hx (heq ▸ hkey)
    refine ⟨hlisted.seqNum, List.mem_cons_of_mem _ hlisted.added, ?_, ?_, hlisted.fewer, ?_⟩
    · show .received entry.1 ∉ since entry.1 (.received x :: s.history)
      rw [since_cons (by simp), List.mem_cons, not_or]
      exact ⟨by simpa using hne, hlisted.notReceived⟩
    · show (requests entry.1 (.received x :: s.history)).length = _
      rw [requests_received, hlisted.retries]
    · show _ = match (requests entry.1 (.received x :: s.history)).head? with
        | none => -1
        | some request => (request.1 : ℤ)
      rw [requests_received, hlisted.sendAtTime]
  asked k := by
    show Asked s.clock (requests k (.received x :: s.history))
    rw [requests_received]
    exact h.asked k
  batches batch list now rttMs hmem := by
    rcases List.mem_cons.mp hmem with heq | hold
    · cases heq
    · exact h.batches batch list now rttMs hold

/-- The number next in front goes to the end of the list. -/
theorem ValidAt.setNack_eq (h : ValidAt r (n + 1) s) (info : NackInfo) :
    (s.setNack env r info).nackList = s.nackList ++ [(r, info)] := by
  have hself : (r - r).toNat = 0 := by simp
  have hage : kMaxPacketAge.toNat = 10000 := rfl
  have hnear : Near r r s.keys := by
    intro k hk
    have hbehind := h.behind k hk
    rw [hself]
    omega
  have hall : (s.search env s.keys r).2 = s.keys.length := by
    rw [search_eq h.ordered hnear, List.takeWhile_eq_self_iff.mpr]
    intro k hk
    rw [hself]
    exact decide_eq_true (h.behind k hk).1
  have hmiss : hits env s.keys (s.search env s.keys r).2 r = false := by simp [hits, hall]
  have hkeys : (s.search env s.keys r).1.keys = s.keys := rfl
  unfold setNack
  dsimp only
  rw [hkeys, if_neg (Bool.eq_false_iff.mp hmiss), hall, keys, List.length_map]
  exact List.insertIdx_length_self

theorem toNat_succ_sub {k : UInt16} (h : (r - k).toNat + 1 < 2^16) :
    (r + 1 - k).toNat = (r - k).toNat + 1 := by
  have hr := r.toNat_lt
  have hk := k.toNat_lt
  have hone : (1 : UInt16).toNat = 1 := rfl
  simp only [UInt16.toNat_sub, UInt16.toNat_add, hone] at h ⊢
  omega

theorem listed_added {history : List Mark} {entry : UInt16 × NackInfo} (h : Listed history entry)
    (hne : entry.1 ≠ r) : Listed (.added r :: history) entry where
  seqNum := h.seqNum
  added := List.mem_cons_of_mem _ h.added
  notReceived := by
    rw [since_cons (by simpa using hne.symm), List.mem_cons, not_or]
    exact ⟨by simp, h.notReceived⟩
  retries := by rw [requests_added hne.symm, h.retries]
  fewer := h.fewer
  sendAtTime := by rw [requests_added hne.symm, h.sendAtTime]

theorem listed_new {history : List Mark} {info : NackInfo} (hseq : info.seqNum = r)
    (hretries : info.retries = 0) (hsend : info.sendAtTime = -1) :
    Listed (.added r :: history) (r, info) where
  seqNum := hseq
  added := List.mem_cons_self
  notReceived := by
    rw [since_added]
    exact List.not_mem_nil
  retries := by rw [requests_added_self, hretries, List.length_nil]
  fewer := by
    rw [hretries]
    decide
  sendAtTime := by rw [requests_added_self, hsend, List.head?_nil]

/-- The number in front is put on the list. -/
theorem ValidAt.add (h : ValidAt r (n + 1) s) {info : NackInfo} (hseq : info.seqNum = r)
    (hretries : info.retries = 0) (hsend : info.sendAtTime = -1) :
    ValidAt (r + 1) n ((s.setNack env r info).note (.added r)) := by
  have hage : kMaxPacketAge.toNat = 10000 := rfl
  have hlist : ((s.setNack env r info).note (.added r)).nackList = s.nackList ++ [(r, info)] :=
    h.setNack_eq info
  have hkeys : ((s.setNack env r info).note (.added r)).keys = s.keys ++ [r] := by
    rw [keys, hlist, List.map_append]
    rfl
  have hhistory : ((s.setNack env r info).note (.added r)).history = .added r :: s.history := by
    simp only [note, setNack]
    split <;> rfl
  have hclock : ((s.setNack env r info).note (.added r)).clock = s.clock := by
    simp only [note, setNack]
    split <;> rfl
  have hself : (r + 1 - r).toNat = 1 := by
    rw [toNat_succ_sub (by simp)]
    simp
  have hold : ∀ k ∈ s.keys, (r + 1 - k).toNat = (r - k).toNat + 1 := by
    intro k hk
    have hbehind := h.behind k hk
    exact toNat_succ_sub (by omega)
  refine ⟨?_, ?_, ?_, ?_, ?_, ?_⟩
  · have hlength := h.length
    rw [hlist, List.length_append, List.length_singleton]
    omega
  · rw [hkeys]
    refine List.pairwise_append.mpr ⟨?_, List.pairwise_singleton _ _, ?_⟩
    · apply List.Pairwise.imp_of_mem _ h.ordered
      intro a b ha hb hlt
      rw [hold a ha, hold b hb]
      omega
    · intro a ha b hb
      have hbehind := h.behind a ha
      rw [List.mem_singleton.mp hb, hself, hold a ha]
      omega
  · intro k hk
    rw [hkeys, List.mem_append, List.mem_singleton] at hk
    rcases hk with hk | rfl
    · have hbehind := h.behind k hk
      rw [hold k hk]
      omega
    · have hlength := h.length
      have hmax : kMaxNackPackets = 1000 := rfl
      rw [hself]
      omega
  · intro entry hentry
    rw [hhistory]
    rw [hlist, List.mem_append, List.mem_singleton] at hentry
    rcases hentry with hentry | rfl
    · apply listed_added (h.listed entry hentry)
      rintro rfl
      have hbehind := h.behind _ (List.mem_map_of_mem hentry)
      simp at hbehind
    · exact listed_new hseq hretries hsend
  · intro k
    rw [hhistory, hclock]
    by_cases hk : r = k
    · rw [← hk, requests_added_self]
      exact ⟨Nat.zero_le _, List.Pairwise.nil, by simp⟩
    · rw [requests_added hk]
      exact h.asked k
  · intro batch list now rttMs hmem
    rw [hhistory, List.mem_cons] at hmem
    rcases hmem with heq | hold
    · cases heq
    · exact h.batches batch list now rttMs hold

theorem ValidAt.addNumbers (h : ValidAt r n s) {e : UInt16} (he : (e - r).toNat = n) :
    ValidAt e 0 (s.addNumbers env n r) := by
  induction n generalizing r s with
  | zero =>
    have heq : e = r := by
      have hlt := e.toNat_lt
      have hlt' := r.toNat_lt
      rw [← UInt16.toNat_inj]
      simp only [UInt16.toNat_sub] at he
      omega
    rw [heq]
    exact h
  | succ n ih =>
    have hnext : (e - (r + 1)).toNat = n := by
      have hlt := e.toNat_lt
      have hlt' := r.toNat_lt
      simp only [UInt16.toNat_sub, UInt16.toNat_add] at he ⊢
      simp only [UInt16.toNat_one] at *
      omega
    exact ih (h.add rfl rfl rfl) hnext

end Steps

section Batches
variable {options : NackFilterOptions} {entry entry' : UInt16 × NackInfo}

theorem requests_sent {batch list : List UInt16} {now : ℕ} {rttMs : ℤ} (h : batch.Nodup) (k : UInt16) :
    (Mark.sent batch list now rttMs).requests k = if k ∈ batch then [(now, rttMs)] else [] := by
  have hfilter : batch.filter (fun b => decide (b = k)) = if k ∈ batch then [k] else [] := by
    rw [List.filter_eq, h.count]
    split <;> rfl
  rw [Mark.requests, hfilter]
  split <;> rfl

theorem examine_fst (h : s.examine env options entry = some entry') : entry'.1 = entry.1 := by
  unfold examine at h
  dsimp only at h
  split_ifs at h
  · rw [← Option.some.inj h]
  · rw [← Option.some.inj h]

theorem keys_filterMap_sublist (list : List (UInt16 × NackInfo)) :
    ((list.filterMap (s.examine env options)).map Prod.fst).Sublist (list.map Prod.fst) := by
  induction list with
  | nil => exact List.Sublist.refl _
  | cons entry list ih =>
    cases hexamine : s.examine env options entry with
    | none =>
      rw [List.filterMap_cons_none hexamine]
      exact ih.cons _
    | some entry' =>
      rw [List.filterMap_cons_some hexamine, List.map_cons, List.map_cons, examine_fst hexamine]
      exact ih.cons_cons _

/-- An element that is asked for again was asked for long enough ago. -/
theorem spaced_cons {history : List Mark} (hlisted : Listed history entry)
    (hasked : Asked s.clock (requests entry.1 history)) (hcan : s.canNack env options entry.2 = true) :
    Asked s.clock ((s.clock, s.rttMs) :: requests entry.1 history) := by
  have hfewer := hlisted.fewer
  have hretries := hlisted.retries
  have hsend := hlisted.sendAtTime
  refine ⟨?_, List.pairwise_cons.mpr ⟨?_, hasked.spaced⟩, ?_⟩
  · rw [List.length_cons, hretries]
    exact hfewer
  · intro request hrequest
    refine ⟨hasked.past request hrequest, ?_⟩
    cases hrequests : requests entry.1 history with
    | nil => simp [hrequests] at hrequest
    | cons first older =>
      rw [hrequests] at hsend hrequest
      have hspaced : Spaced (first :: older) := hrequests ▸ hasked.spaced
      have hlatest : request.1 ≤ first.1 := by
        rcases List.mem_cons.mp hrequest with rfl | holder
        · exact Nat.le_refl _
        · exact ((List.pairwise_cons.mp hspaced).1 request holder).1
      have hlong : (s.clock : ℤ) - first.1 > s.rttMs := by
        simp only [List.head?_cons] at hsend
        have hasked : entry.2.sendAtTime ≠ -1 := by omega
        simp only [canNack, Bool.and_eq_true, Bool.or_eq_true, decide_eq_true_eq] at hcan
        rcases hcan.2 with hfirst | hagain
        · exact absurd hfirst.2.1 hasked
        · rw [← hsend]
          exact hagain.2
      show (s.clock : ℤ) - request.1 > s.rttMs
      omega
  · intro request hrequest
    rcases List.mem_cons.mp hrequest with rfl | hold
    · exact Nat.le_refl _
    · exact hasked.past request hold

/-- The elements that are asked for now. -/
def due (env : Environment) (s : NackRequester) (options : NackFilterOptions) :
    List (UInt16 × NackInfo) := s.nackList.filter fun entry => s.canNack env options entry.2

theorem ValidAt.batch_eq (h : ValidAt r n s) :
    (s.getNackBatch env options).2 = (s.due env options).map Prod.fst := by
  apply List.map_congr_left
  intro entry hentry
  exact (h.listed entry (List.mem_of_mem_filter hentry)).seqNum

theorem ValidAt.batch_sublist (h : ValidAt r n s) :
    (s.getNackBatch env options).2.Sublist s.keys := by
  rw [h.batch_eq]
  exact List.filter_sublist.map _

/-- A number of the list is in the batch exactly if its element is due. -/
theorem ValidAt.mem_batch_iff (h : ValidAt r n s) (hentry : entry ∈ s.nackList) :
    entry.1 ∈ (s.getNackBatch env options).2 ↔ s.canNack env options entry.2 = true := by
  rw [h.batch_eq]
  constructor
  · intro hmem
    have ⟨other, hother, hkey⟩ := List.mem_map.mp hmem
    have hsame : other = entry :=
      List.inj_on_of_nodup_map h.ordered.nodup (List.mem_of_mem_filter hother) hentry hkey
    exact hsame ▸ (List.mem_filter.mp hother).2
  · intro hcan
    exact List.mem_map_of_mem (List.mem_filter.mpr ⟨hentry, hcan⟩)

theorem listed_examine {history : List Mark} {batch list : List UInt16} (hbatch : batch.Nodup)
    (hmem : entry.1 ∈ batch ↔ s.canNack env options entry.2 = true) (hlisted : Listed history entry)
    (hexamine : s.examine env options entry = some entry') :
    Listed (.sent batch list s.clock s.rttMs :: history) entry' := by
  have hkey := examine_fst hexamine
  have hrequests : requests entry.1 (.sent batch list s.clock s.rttMs :: history) =
      (if entry.1 ∈ batch then [(s.clock, s.rttMs)] else []) ++ requests entry.1 history := by
    rw [requests_cons (by simp), requests_sent hbatch]
  have hreceived : .received entry.1 ∉ since entry.1 (.sent batch list s.clock s.rttMs :: history) := by
    rw [since_cons (by simp), List.mem_cons, not_or]
    exact ⟨by simp, hlisted.notReceived⟩
  unfold examine at hexamine
  dsimp only at hexamine
  split_ifs at hexamine with hcan hmany
  · obtain rfl := Option.some.inj hexamine
    rw [if_pos (hmem.mpr hcan)] at hrequests
    refine ⟨hlisted.seqNum, List.mem_cons_of_mem _ hlisted.added, hreceived, ?_, Nat.not_le.mp hmany, ?_⟩
    · rw [hrequests, List.singleton_append, List.length_cons, hlisted.retries]
    · rw [hrequests, List.singleton_append, List.head?_cons]
  · obtain rfl := Option.some.inj hexamine
    rw [if_neg fun hin => hcan (hmem.mp hin), List.nil_append] at hrequests
    refine ⟨hlisted.seqNum, List.mem_cons_of_mem _ hlisted.added, hreceived, ?_, hlisted.fewer, ?_⟩
    · rw [hrequests, hlisted.retries]
    · rw [hrequests, hlisted.sendAtTime]

theorem ValidAt.sendBatch (h : ValidAt r n s) : ValidAt r n (s.sendBatch env options) := by
  have hsublist : ((s.getNackBatch env options).1.keys).Sublist s.keys := keys_filterMap_sublist _
  unfold NackRequester.sendBatch
  dsimp only
  split
  · rename_i hnone
    have hkept : s.nackList.filterMap (s.examine env options) = s.nackList := by
      rw [List.filterMap_congr (g := some), List.filterMap_some]
      intro entry hentry
      have hnot : ¬s.canNack env options entry.2 = true := fun hcan =>
        List.not_mem_nil (hnone ▸ (h.mem_batch_iff hentry).mpr hcan)
      simp [examine, hnot]
    exact h.shrink ⟨by rw [getNackBatch, hkept], rfl, rfl, rfl, rfl⟩
  · have hbatch : (s.getNackBatch env options).2.Nodup := h.batch_sublist.nodup h.ordered.nodup
    refine ⟨?_, List.Pairwise.sublist hsublist h.ordered, fun k hk => h.behind k (hsublist.subset hk), ?_, ?_, ?_⟩
    · exact Nat.le_trans (Nat.add_le_add_right (List.length_filterMap_le _ _) n) h.length
    · intro entry' hentry'
      have ⟨entry, hentry, hexamine⟩ := List.mem_filterMap.mp hentry'
      exact listed_examine hbatch (h.mem_batch_iff hentry) (h.listed entry hentry) hexamine
    · intro k
      show Asked s.clock (requests k (.sent _ _ _ _ :: s.history))
      rw [requests_cons (by simp), requests_sent hbatch]
      split
      · rename_i hin
        have ⟨entry, hentry, hkey⟩ := List.mem_map.mp (h.batch_sublist.subset hin)
        subst hkey
        exact spaced_cons (h.listed entry hentry) (h.asked entry.1) ((h.mem_batch_iff hentry).mp hin)
      · exact h.asked k
    · intro batch list now rttMs hmem
      rcases List.mem_cons.mp hmem with heq | hold
      · obtain ⟨rfl, rfl, rfl, rfl⟩ := Mark.sent.inj heq
        exact fun k hk => h.batch_sublist.subset hk
      · exact h.batches batch list now rttMs hold

end Batches

section Packets
variable {x : UInt16}

/-- A number that is not on the list and not the newest one is ahead of it. -/
theorem not_mem_of_not_ahead (h : ValidAt s.newestSeqNum n s)
    (hahead : env.aheadOf s.newestSeqNum x = false) : x ∉ s.keys := by
  intro hx
  have hbehind := h.behind x hx
  have hage : kMaxPacketAge.toNat = 10000 := rfl
  have hne : s.newestSeqNum ≠ x := by
    intro heq
    rw [heq] at hbehind
    simp at hbehind
  have hlt : (s.newestSeqNum - x).toNat < 2^15 := by omega
  rw [(env.aheadOf_iff _ _).mpr ⟨hne, Or.inl hlt⟩] at hahead
  cases hahead

/-- A packet that is not new is taken from the list. -/
theorem ValidAt.onOldPacket (h : ValidAt s.newestSeqNum 0 s)
    (hahead : env.aheadOf s.newestSeqNum x = true) (isRetransmitted : Bool) :
    let t := ((s.note (.received x)).onOldPacket env x isRetransmitted).1
    ValidAt s.newestSeqNum 0 t ∧ t.newestSeqNum = s.newestSeqNum ∧ t.initialized = s.initialized := by
  have hage : kMaxPacketAge.toNat = 10000 := rfl
  have ⟨_, hdistance⟩ := (env.aheadOf_iff _ _).mp hahead
  have hnear : Near s.newestSeqNum x s.keys := by
    intro k hk
    have hbehind := h.behind k hk
    omega
  have hhits := @hits_search env s _ _ _ h.ordered hnear
  generalize hi : (s.search env s.keys x).2 = i at hhits
  have hi' : ((s.note (.received x)).search env (s.note (.received x)).keys x).2 = i := hi
  have hkeys : ((s.note (.received x)).search env (s.note (.received x)).keys x).1.keys = s.keys := rfl
  -- the statistics of the reordering make no difference
  have hstat : ∀ u t : NackRequester, Trims (u.note (.received x)) t →
      Trims (u.note (.received x)) (if isRetransmitted then t else t.updateReorderingStat env x) := by
    intro u t ht
    split
    · exact ht
    · exact ht.trans ⟨List.Sublist.refl _, rfl, rfl, rfl, rfl⟩
  unfold NackRequester.onOldPacket
  dsimp only
  rw [hi', hkeys]
  split at hhits
  · rename_i hhit
    let u : NackRequester := { s with nackList := s.nackList.eraseIdx i }
    have hu : ValidAt s.newestSeqNum 0 u := h.shrink ⟨List.eraseIdx_sublist _ _, rfl, rfl, rfl, rfl⟩
    have hx : x ∉ u.keys := by
      have hukeys : u.keys = s.keys.eraseIdx i := (List.eraseIdx_map _ _ _).symm
      have ⟨hlt, hget⟩ := List.getElem?_eq_some_iff.mp hhits
      rw [hukeys, ← List.Nodup.erase_getElem h.ordered.nodup i hlt, hget]
      exact h.ordered.nodup.not_mem_erase
    rw [if_pos hhit]
    have ht := hstat u { (s.note (.received x)) with
      nackList := s.nackList.eraseIdx i, searches := s.searches + 1 }
      ⟨List.Sublist.refl _, rfl, rfl, rfl, rfl⟩
    exact ⟨(hu.receive hx).shrink ht, ht.newestSeqNum, ht.initialized⟩
  · rename_i hmiss
    rw [if_neg hmiss]
    have ht := hstat s { (s.note (.received x)) with searches := s.searches + 1 }
      ⟨List.Sublist.refl _, rfl, rfl, rfl, rfl⟩
    exact ⟨(h.receive hhits).shrink ht, ht.newestSeqNum, ht.initialized⟩

theorem ValidAt.withNewest (h : ValidAt r n s) (x : UInt16) :
    ValidAt r n { s with newestSeqNum := x } :=
  ⟨h.length, h.ordered, h.behind, h.listed, h.asked, h.batches⟩

/-- Without a list there is little to hold. -/
theorem ValidAt.clear (h : ValidAt r n s) (x : UInt16) : ValidAt x 0 { s with nackList := [] } where
  length := Nat.zero_le _
  ordered := List.Pairwise.nil
  behind _ hk := absurd hk List.not_mem_nil
  listed _ hentry := absurd hentry List.not_mem_nil
  asked := h.asked
  batches := h.batches

/-- The number in front moves on when there is room for so many new ones. -/
theorem ValidAt.advance (h : ValidAt r 0 s) (hlength : s.nackList.length + n ≤ kMaxNackPackets)
    (hbehind : ∀ k ∈ s.keys, (r - k).toNat + (n + 1) ≤ kMaxPacketAge.toNat) : ValidAt (r + 1) n s := by
  have hage : kMaxPacketAge.toNat = 10000 := rfl
  have hnext : ∀ k ∈ s.keys, (r + 1 - k).toNat = (r - k).toNat + 1 := by
    intro k hk
    have hk' := hbehind k hk
    exact toNat_succ_sub (by omega)
  refine ⟨hlength, ?_, fun k hk => ?_, h.listed, h.asked, h.batches⟩
  · apply List.Pairwise.imp_of_mem _ h.ordered
    intro a b ha hb hlt
    rw [hnext a ha, hnext b hb]
    omega
  · have hk' := hbehind k hk
    rw [hnext k hk]
    omega

/-- The list after the first lines of `AddPacketsToNack`. -/
def withoutOld (env : Environment) (s : NackRequester) (x : UInt16) : NackRequester :=
  let (s, i) := s.search env s.keys (x - kMaxPacketAge)
  { s with nackList := s.nackList.drop i }

theorem trims_withoutOld (x : UInt16) : Trims s (s.withoutOld env x) :=
  ⟨List.drop_sublist _ _, rfl, rfl, rfl, rfl⟩

theorem addPacketsToNack_eq (x : UInt16) (hn : (x - (r + 1)).toNat = n) :
    s.addPacketsToNack env (r + 1) x =
      let t := s.withoutOld env x
      let t := if t.nackList.length + n > kMaxNackPackets then t.makeRoom env n else t
      if t.nackList.length + n > kMaxNackPackets then { t with nackList := [] }
      else t.addNumbers env n (r + 1) := by
  have hforward : (env.forwardDiff (r + 1) x).toNat = n := by rw [env.forwardDiff_eq, hn]
  unfold addPacketsToNack
  dsimp only
  rw [hforward, hn]
  rfl

/-- After a short jump the old numbers are found. -/
theorem ValidAt.withoutOld (h : ValidAt r 0 s) (hjump : (x - r).toNat = n + 1)
    (hn : n ≤ kMaxNackPackets) {k : UInt16} (hk : k ∈ (s.withoutOld env x).keys) :
    (r - k).toNat + (n + 1) ≤ kMaxPacketAge.toNat := by
  have hage : kMaxPacketAge.toNat = 10000 := rfl
  have hmax : kMaxNackPackets = 1000 := rfl
  have hx := x.toNat_lt
  have hr := r.toNat_lt
  have hback : (r - (x - kMaxPacketAge)).toNat = 10000 - (n + 1) := by
    simp only [UInt16.toNat_sub, hage] at hjump ⊢
    omega
  have hnear : Near r (x - kMaxPacketAge) s.keys := by
    intro k hk
    have hbehind := h.behind k hk
    rw [hback]
    omega
  have hdrop : k ∈ s.keys.drop (s.search env s.keys (x - kMaxPacketAge)).2 := by
    rw [keys, ← List.map_drop]
    exact hk
  have hle := le_of_mem_drop_search h.ordered hnear hdrop
  rw [hback] at hle
  omega

/-- The numbers between the newest packet and a new one are put on the list. -/
theorem ValidAt.addPacketsToNack (h : ValidAt r 0 s) (hne : x ≠ r) :
    ValidAt x 0 (s.addPacketsToNack env (r + 1) x) := by
  generalize hn : (x - (r + 1)).toNat = n
  have hjump : (x - r).toNat = n + 1 := by
    have hx := x.toNat_lt
    have hr := r.toNat_lt
    have hdiff : x.toNat ≠ r.toNat := fun heq => hne (UInt16.toNat_inj.mp heq)
    have hone : (1 : UInt16).toNat = 1 := rfl
    simp only [UInt16.toNat_sub, UInt16.toNat_add, hone] at hn ⊢
    omega
  have htrims : Trims s (s.withoutOld env x) := trims_withoutOld x
  have hold : n ≤ kMaxNackPackets → ∀ k ∈ (s.withoutOld env x).keys,
      (r - k).toNat + (n + 1) ≤ kMaxPacketAge.toNat := fun hshort k hk => h.withoutOld hjump hshort hk
  rw [addPacketsToNack_eq x hn]
  generalize s.withoutOld env x = t at htrims hold ⊢
  dsimp only
  generalize hu : (if t.nackList.length + n > kMaxNackPackets then t.makeRoom env n else t) = u
  have hroom : Trims t u := by
    rw [← hu]
    split
    · exact trims_makeRoom n
    · exact Trims.refl t
  have hvalid := h.shrink (htrims.trans hroom)
  split
  · exact hvalid.clear x
  · rename_i hfits
    apply (hvalid.advance (Nat.not_lt.mp hfits) ?_).addNumbers hn
    intro k hk
    exact hold (by omega) k ((hroom.nackList.map _).subset hk)

theorem initialized_addNumbers (n : ℕ) (k : UInt16) :
    (s.addNumbers env n k).initialized = s.initialized := by
  induction n generalizing s k with
  | zero => rfl
  | succ n ih =>
    rw [addNumbers, ih]
    simp only [note, setNack]
    split <;> rfl

theorem initialized_addPacketsToNack (x : UInt16) :
    (s.addPacketsToNack env (r + 1) x).initialized = s.initialized := by
  rw [addPacketsToNack_eq x rfl]
  have htrims : Trims s (s.withoutOld env x) := trims_withoutOld x
  generalize s.withoutOld env x = t at htrims ⊢
  dsimp only
  generalize hu : (if t.nackList.length + (x - (r + 1)).toNat > kMaxNackPackets then
    t.makeRoom env (x - (r + 1)).toNat else t) = u
  have hroom : Trims t u := by
    rw [← hu]
    split
    · exact trims_makeRoom _
    · exact Trims.refl t
  have hsame := (htrims.trans hroom).initialized
  split
  · exact hsame
  · rw [initialized_addNumbers]
    exact hsame

theorem initialized_sendBatch (options : NackFilterOptions) :
    (s.sendBatch env options).initialized = s.initialized := by
  unfold sendBatch
  dsimp only
  split <;> rfl

theorem newestSeqNum_sendBatch (options : NackFilterOptions) :
    (s.sendBatch env options).newestSeqNum = s.newestSeqNum := by
  unfold sendBatch
  dsimp only
  split <;> rfl

variable (env) in
theorem ValidAt.onNewPacket (h : ValidAt s.newestSeqNum 0 s) (hne : x ≠ s.newestSeqNum)
    (isKeyframe : Bool) :
    let t := s.onNewPacket env x isKeyframe
    ValidAt t.newestSeqNum 0 t ∧ t.initialized = s.initialized := by
  have hkeyframe : Trims s (if isKeyframe then s.insertKeyframe env x else s) := by
    split
    · exact trims_insertKeyframe x
    · exact Trims.refl s
  unfold NackRequester.onNewPacket
  dsimp only
  generalize (if isKeyframe then s.insertKeyframe env x else s) = u at hkeyframe ⊢
  have htrims : Trims s (u.trimKeyframes env x) :=
    hkeyframe.trans ⟨List.Sublist.refl _, rfl, rfl, rfl, rfl⟩
  generalize u.trimKeyframes env x = v at htrims ⊢
  rw [hkeyframe.newestSeqNum, newestSeqNum_sendBatch, initialized_sendBatch]
  have hadded : ValidAt x 0 (v.addPacketsToNack env (s.newestSeqNum + 1) x) :=
    (h.shrink htrims).addPacketsToNack hne
  refine ⟨ValidAt.sendBatch ?_, ?_⟩
  · exact hadded.withNewest x
  · exact (initialized_addPacketsToNack x).trans htrims.initialized

end Packets

section Runs

theorem valid_start (clock : ℕ) : Valid { clock } where
  length := Nat.zero_le _
  ordered := List.Pairwise.nil
  behind _ hk := absurd hk List.not_mem_nil
  listed _ hentry := absurd hentry List.not_mem_nil
  asked _ := ⟨Nat.zero_le _, List.Pairwise.nil, by simp [requests, since]⟩
  batches _ _ _ _ hmem := absurd hmem List.not_mem_nil
  initialized _ := rfl

/-- The first packet of all. -/
theorem Valid.onFirstPacket (h : Valid s) (hfirst : s.initialized = false) (x : UInt16)
    (isKeyframe : Bool) :
    let t := { s.note (.received x) with newestSeqNum := x }
    Valid { (if isKeyframe then t.insertKeyframe env x else t) with initialized := true } := by
  dsimp only
  have hnil := h.initialized hfirst
  have hmiss : x ∉ s.keys := by simp [keys, hnil]
  generalize ht : ({ s.note (.received x) with newestSeqNum := x } : NackRequester) = t
  have hvalid : ValidAt x 0 t := by
    have hclear := ((h.toValidAt.receive hmiss).clear x).withNewest x
    apply hclear.shrink
    rw [← ht]
    exact ⟨by simp [note, hnil], rfl, rfl, rfl, rfl⟩
  have hkeyframe : Trims t (if isKeyframe then t.insertKeyframe env x else t) := by
    split
    · exact trims_insertKeyframe x
    · exact Trims.refl t
  have hx : x = (if isKeyframe then t.insertKeyframe env x else t).newestSeqNum := by
    rw [hkeyframe.newestSeqNum, ← ht]
  have hdone := hvalid.shrink hkeyframe
  refine ⟨?_, fun hfalse => Bool.noConfusion hfalse⟩
  show ValidAt (if isKeyframe then t.insertKeyframe env x else t).newestSeqNum 0 _
  rw [← hx]
  exact ⟨hdone.length, hdone.ordered, hdone.behind, hdone.listed, hdone.asked, hdone.batches⟩

theorem Valid.onReceivedPacket (h : Valid s) (x : UInt16) (isKeyframe isRetransmitted : Bool) :
    Valid (s.onReceivedPacket env x isKeyframe isRetransmitted).1 := by
  unfold NackRequester.onReceivedPacket
  dsimp only
  split
  · rename_i hfirst
    exact h.onFirstPacket (by simpa [note] using hfirst) x isKeyframe
  · rename_i hinitialized
    have hon : s.initialized = true := by simpa [note] using hinitialized
    split
    · rename_i hsame
      have hmiss : x ∉ s.keys := by
        intro hx
        have hbehind := h.behind x hx
        rw [show x = s.newestSeqNum from hsame] at hbehind
        simp at hbehind
      exact ⟨h.toValidAt.receive hmiss, fun hfalse => absurd (hon.symm.trans hfalse) (by decide)⟩
    · rename_i hne
      split
      · rename_i hahead
        have ⟨hvalid, hnewest, hinit⟩ := h.toValidAt.onOldPacket hahead isRetransmitted
        refine ⟨?_, fun hfalse => absurd (hon.symm.trans (hinit.symm.trans hfalse)) (by decide)⟩
        rw [hnewest]
        exact hvalid
      · rename_i hahead
        have hmiss := not_mem_of_not_ahead h.toValidAt (Bool.eq_false_iff.mpr hahead)
        have hreceived : ValidAt (s.note (.received x)).newestSeqNum 0 (s.note (.received x)) :=
          h.toValidAt.receive hmiss
        have ⟨hvalid, hinit⟩ := hreceived.onNewPacket env hne isKeyframe
        exact ⟨hvalid, fun hfalse => absurd (hon.symm.trans (hinit.symm.trans hfalse)) (by decide)⟩

theorem Valid.step (h : Valid s) (e : Event) : Valid (s.step env e) := by
  cases e with
  | packet seqNum isKeyframe isRetransmitted => exact h.onReceivedPacket seqNum isKeyframe isRetransmitted
  | tick =>
    refine ⟨?_, fun hfalse => ?_⟩
    · show ValidAt (s.sendBatch env .timeOnly).newestSeqNum 0 (s.sendBatch env .timeOnly)
      rw [newestSeqNum_sendBatch]
      exact h.toValidAt.sendBatch
    · have hnil := h.initialized ((initialized_sendBatch _).symm.trans hfalse)
      show (s.sendBatch env .timeOnly).nackList = []
      simp [sendBatch, getNackBatch, hnil]
  | updateRtt rttMs => exact ⟨⟨h.length, h.ordered, h.behind, h.listed, h.asked, h.batches⟩, h.initialized⟩
  | wait ms =>
    refine ⟨⟨h.length, h.ordered, h.behind, h.listed, fun k => ?_, h.batches⟩, h.initialized⟩
    have hasked := h.asked k
    exact ⟨hasked.few, hasked.spaced, fun request hrequest =>
      Nat.le_trans (hasked.past request hrequest) (Nat.le_add_right _ _)⟩

variable (env) in
theorem Valid.run (h : Valid s) (es : List Event) :
    Valid (Runs.run (NackRequester.step env) s es) := by
  induction es generalizing s with
  | nil => exact h
  | cons e es ih => exact ih (h.step e)

variable (env) in
/-- In every reachable state the list is short and its numbers are behind the newest one, not
far and not received since they were added; every batch was part of the list; and a number
is asked for at most ten times after it is added, with more than the round trip time of the
moment between two requests. -/
theorem nack_list_valid (clock : ℕ) (es : List Event) :
    let s := Runs.run (NackRequester.step env) { clock } es
    s.nackList.length ≤ kMaxNackPackets ∧
    (∀ k ∈ s.keys, env.aheadOf s.newestSeqNum k = true ∧
      (s.newestSeqNum - k).toNat ≤ kMaxPacketAge.toNat ∧
      .added k ∈ s.history ∧ .received k ∉ since k s.history) ∧
    (∀ batch list now rttMs, .sent batch list now rttMs ∈ s.history → ∀ k ∈ batch, k ∈ list) ∧
    ∀ k, (requests k s.history).length ≤ kMaxNackRetries ∧ Spaced (requests k s.history) := by
  have h := (valid_start clock).run env es
  dsimp only
  generalize Runs.run (NackRequester.step env) { clock } es = s at h ⊢
  refine ⟨h.length, fun k hk => ?_, h.batches, fun k => ⟨(h.asked k).few, (h.asked k).spaced⟩⟩
  have hbehind := h.behind k hk
  have hage : kMaxPacketAge.toNat = 10000 := rfl
  have ⟨entry, hentry, hkey⟩ := List.mem_map.mp hk
  subst hkey
  have hne : s.newestSeqNum ≠ entry.1 := by
    intro heq
    rw [heq] at hbehind
    simp at hbehind
  have hlisted := h.listed entry hentry
  exact ⟨(env.aheadOf_iff _ _).mpr ⟨hne, Or.inl (by omega)⟩, hbehind.2, hlisted.added, hlisted.notReceived⟩

/-- Numbers that wrap around, in trees that search from the front. -/
def plainEnvironment : Environment where
  aheadOf a b := decide (a ≠ b ∧ ((a - b).toNat < 2^15 ∨ (a - b).toNat = 2^15 ∧ b < a))
  forwardDiff a b := b - a
  reverseDiff a b := a - b
  descendingSeqNumComp a b := decide (b ≠ a ∧ ((b - a).toNat < 2^15 ∨ (b - a).toNat = 2^15 ∧ a < b))
  aheadOf_iff _ _ := decide_eq_true_iff
  forwardDiff_eq _ _ := rfl
  reverseDiff_eq _ _ := rfl
  descendingSeqNumComp_eq _ _ := rfl
  lowerBound _ keys x := (keys.takeWhile fun a =>
    decide (x ≠ a ∧ ((x - a).toNat < 2^15 ∨ (x - a).toNat = 2^15 ∧ a < x))).length
  inverseCdf _ _ := 0
  lowerBound_eq _ _ _ _ := rfl

example : (Runs.run (NackRequester.step plainEnvironment) {}
    [.packet 65535 false false, .packet 2 false false]).history =
      [.sent [0, 1] [0, 1] 0 100, .added 1, .added 0, .received 2, .received 65535] := by decide +kernel

end Runs

end NackRequester
end Video
end XrtcServer
