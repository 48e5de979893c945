import XrtcServer.NackSearches

/-! The numbers that a NACK requester holds are close to each other in every state, and its
searches are among such numbers as long as a packet is not too far ahead of them. After
a packet further ahead nothing is held. -/
namespace XrtcServer
namespace Video

/-- The numbers are not ahead of another one, and not far behind it. -/
def Recent (x : UInt16) (keys : List UInt16) : Prop := ∀ k ∈ keys, (x - k).toNat ≤ kMaxPacketAge.toNat

section Distances
variable {r x k : UInt16} {keys : List UInt16}

theorem Recent.windowed (h : Recent x keys) : Windowed keys := windowed_of_behind (by decide) h

theorem Recent.sublist {keys' : List UInt16} (h : Recent x keys) (hsub : keys'.Sublist keys) : Recent x keys' :=
  fun k hk => h k (hsub.subset hk)

theorem toNat_sub_age (x : UInt16) : (x - (x - kMaxPacketAge)).toNat = kMaxPacketAge.toNat := by
  have hx := x.toNat_lt
  have hage : kMaxPacketAge.toNat = 10000 := rfl
  simp only [UInt16.toNat_sub, hage]
  omega

/-- What is not ahead comes at most half a turn later. -/
theorem SequenceNumberUtil.jump_le (U : SequenceNumberUtil) (hne : x ≠ r) (h : ¬U.aheadOf r x = true) :
    (x - r).toNat ≤ 2^15 := by
  have hr := r.toNat_lt
  have hx := x.toNat_lt
  rw [U.aheadOf_iff] at h
  have hle : ¬((r - x).toNat < 2^15) := fun hlt => h ⟨hne.symm, Or.inl hlt⟩
  simp only [UInt16.toNat_sub] at hle ⊢
  omega

theorem toNat_jump (hjump : (x - r).toNat ≤ 2^15) (hage : (r - k).toNat ≤ kMaxPacketAge.toNat) :
    (x - k).toNat = (x - r).toNat + (r - k).toNat := by
  have hr := r.toNat_lt
  have hx := x.toNat_lt
  have hk := k.toNat_lt
  have hmax : kMaxPacketAge.toNat = 10000 := rfl
  simp only [UInt16.toNat_sub, hmax] at hjump hage ⊢
  omega

theorem Ordered.jump (h : Ordered r keys) (hjump : (x - r).toNat ≤ 2^15) (hrecent : Recent r keys) :
    Ordered x keys := by
  apply List.Pairwise.imp_of_mem _ h
  intro a b ha hb hlt
  rw [toNat_jump hjump (hrecent a ha), toNat_jump hjump (hrecent b hb)]
  omega

/-- Two ends from which the numbers are less than half a turn away give the same order. -/
theorem Ordered.turn (U : SequenceNumberUtil) {n w : ℕ} (h : Ordered r keys)
    (hn : n ≤ 2^15) (hall : ∀ k ∈ keys, (r - k).toNat < n) (hw : w ≤ 2^15) (hall' : ∀ k ∈ keys, (x - k).toNat < w) :
    Ordered x keys := by
  apply List.Pairwise.imp_of_mem _ h
  intro a b ha hb hlt
  have ha' := hall a ha
  have hb' := hall b hb
  have hcomp := (U.comp_iff (r := r) (k := a) (x := b) (by omega) (by omega)).mpr hlt
  have ha'' := hall' a ha
  have hb'' := hall' b hb
  exact (U.comp_iff (by omega) (by omega)).mp hcomp

/-- The jump and the age of what is held stay below this sum. -/
def Reaches (r x : UInt16) (limit : ℕ) (keys : List UInt16) : Prop :=
  ∀ k ∈ keys, (x - r).toNat + (r - k).toNat + 1 < limit

instance (limit : ℕ) : Decidable (Reaches r x limit keys) := inferInstanceAs (Decidable (∀ _ ∈ _, _))

theorem Reaches.lt {limit : ℕ} (h : Reaches r x limit keys) (hjump : (x - r).toNat ≤ 2^15)
    (hrecent : Recent r keys) (hk : k ∈ keys) : (x - k).toNat + 1 < limit := by
  rw [toNat_jump hjump (hrecent k hk)]
  exact h k hk

theorem Reaches.mono {limit limit' : ℕ} (h : Reaches r x limit keys) (hle : limit ≤ limit') : Reaches r x limit' keys :=
  fun k hk => Nat.lt_of_lt_of_le (h k hk) hle

theorem reaches_of_short (hshort : (x - r).toNat ≤ kMaxNackPackets + 1) (hrecent : Recent r keys) :
    Reaches r x (2^15) keys := by
  intro k hk
  have hage := hrecent k hk
  have hmax : kMaxPacketAge.toNat = 10000 := rfl
  have hpackets : kMaxNackPackets = 1000 := rfl
  omega

theorem toNat_sub_pos {a b : UInt16} (h : a ≠ b) : 0 < (a - b).toNat := by
  have ha := a.toNat_lt
  have hb := b.toNat_lt
  have hne : a.toNat ≠ b.toNat := fun heq => h (UInt16.toNat_inj.mp heq)
  simp only [UInt16.toNat_sub]
  omega

theorem windowed_insert (hjump : (x - r).toNat ≤ 2^15) (hrecent : Recent r keys) (h : Reaches r x (2^15) keys) :
    Windowed (x :: keys) := by
  refine @windowed_of_behind _ x (2^15 - 2) (by decide) fun k hk => ?_
  rcases List.mem_cons.mp hk with rfl | hk
  · simp
  · have hlimit := h k hk
    rw [toNat_jump hjump (hrecent k hk)]
    omega

/-- The place of what is too old, with the numbers in front of it and behind it. -/
theorem windowed_trim (hjump : (x - r).toNat ≤ 2^15) (hrecent : Recent r keys)
    (h : Reaches r x (2^15 + kMaxPacketAge.toNat) keys) : Windowed ((x - kMaxPacketAge) :: keys) := by
  have hmax : kMaxPacketAge.toNat = 10000 := rfl
  by_cases hshort : (x - r).toNat ≤ kMaxPacketAge.toNat
  · refine @windowed_of_behind _ x 20000 (by decide) fun k hk => ?_
    rcases List.mem_cons.mp hk with rfl | hk
    · rw [toNat_sub_age]
      decide
    · have hage := hrecent k hk
      rw [toNat_jump hjump hage]
      omega
  · refine @windowed_of_behind _ (x - kMaxPacketAge) (2^15 - 2) (by decide) fun k hk => ?_
    rcases List.mem_cons.mp hk with rfl | hk
    · simp
    · have hlimit := h k hk
      have hsum := toNat_jump hjump (hrecent k hk)
      have hx := x.toNat_lt
      have hklt := k.toNat_lt
      simp only [UInt16.toNat_sub, hmax] at hlimit hsum hshort ⊢
      omega

/-- The numbers from the place of the search on are recent. -/
theorem recent_drop {env : Environment} {s : NackRequester} (hordered : Ordered x keys)
    (h : ∀ k ∈ keys, (x - k).toNat + 1 < 2^15 + kMaxPacketAge.toNat) :
    Recent x (keys.drop (s.search env keys (x - kMaxPacketAge)).2) := by
  intro k hk
  have hmax : kMaxPacketAge.toNat = 10000 := rfl
  have hnear : Near x (x - kMaxPacketAge) keys := by
    intro k hk
    have hlimit := h k hk
    rw [toNat_sub_age]
    omega
  have hle := NackRequester.le_of_mem_drop_search hordered hnear hk
  rwa [toNat_sub_age] at hle

end Distances

namespace NackRequester
variable {env : Environment} {s t : NackRequester} {r x : UInt16}

section Keyframes

/-- A number in front of all keyframes goes to the end of the set. -/
theorem insertKeyframe_eq (hordered : Ordered x s.keyframeList)
    (h : ∀ k ∈ s.keyframeList, 0 < (x - k).toNat ∧ (x - k).toNat < 2^15) :
    (s.insertKeyframe env x).keyframeList = s.keyframeList ++ [x] := by
  have hself : (x - x).toNat = 0 := by simp
  have hnear : Near x x s.keyframeList := by
    intro k hk
    have hk' := h k hk
    rw [hself]
    omega
  have hall : (s.search env s.keyframeList x).2 = s.keyframeList.length := by
    rw [search_eq hordered hnear, List.takeWhile_eq_self_iff.mpr]
    intro k hk
    rw [hself]
    exact decide_eq_true (h k hk).1
  have hmiss : hits env s.keyframeList (s.search env s.keyframeList x).2 x = false := by simp [hits, hall]
  have hsame : (s.search env s.keyframeList x).1.keyframeList = s.keyframeList := rfl
  unfold insertKeyframe
  dsimp only
  rw [hsame, if_neg (Bool.eq_false_iff.mp hmiss), hall]
  exact List.insertIdx_length_self

theorem keyframes_removeUntil (keyframes : List UInt16) :
    (s.removeUntil env keyframes).1.keyframeList.Sublist keyframes := by
  induction keyframes generalizing s with
  | nil => exact List.Sublist.refl _
  | cons keyframe keyframes ih =>
    simp only [removeUntil]
    split
    · exact List.Sublist.refl _
    · exact ih.cons _

theorem keyframes_makeRoom (n : ℕ) : (s.makeRoom env n).keyframeList.Sublist s.keyframeList := by
  induction s using makeRoom.induct env n with
  | case1 s result hremoved hfull ih =>
    rw [makeRoom, dif_pos hremoved, if_pos hfull]
    exact ih.trans (keyframes_removeUntil _)
  | case2 s result hremoved hroom =>
    rw [makeRoom, dif_pos hremoved, if_neg hroom]
    exact keyframes_removeUntil _
  | case3 s result hkept =>
    rw [makeRoom, dif_neg hkept]
    exact keyframes_removeUntil _

theorem keyframes_setNack (info : NackInfo) : (s.setNack env x info).keyframeList = s.keyframeList := by
  unfold setNack
  dsimp only
  split <;> rfl

theorem keyframes_addNumbers (n : ℕ) : (s.addNumbers env n x).keyframeList = s.keyframeList := by
  induction n generalizing s x with
  | zero => rfl
  | succ n ih =>
    rw [addNumbers, ih]
    exact keyframes_setNack _

theorem keyframes_sendBatch (options : NackFilterOptions) :
    (s.sendBatch env options).keyframeList = s.keyframeList := by
  unfold sendBatch
  dsimp only
  split <;> rfl

theorem keyframes_addPacketsToNack : (s.addPacketsToNack env (r + 1) x).keyframeList.Sublist s.keyframeList := by
  rw [addPacketsToNack_eq x rfl]
  have htrimmed : (s.withoutOld env x).keyframeList = s.keyframeList := rfl
  generalize s.withoutOld env x = t at htrimmed ⊢
  dsimp only
  generalize hu : (if t.nackList.length + (x - (r + 1)).toNat > kMaxNackPackets then
    t.makeRoom env (x - (r + 1)).toNat else t) = u
  have hroom : u.keyframeList.Sublist s.keyframeList := by
    rw [← hu, ← htrimmed]
    split
    · exact keyframes_makeRoom _
    · exact List.Sublist.refl _
  split
  · exact hroom
  · rw [keyframes_addNumbers]
    exact hroom

/-- When nothing more can be removed there are no keyframes left. -/
theorem keyframes_of_kept {keyframes : List UInt16} (h : ¬(s.removeUntil env keyframes).2 = true) :
    (s.removeUntil env keyframes).1.keyframeList = [] := by
  induction keyframes generalizing s with
  | nil => rfl
  | cons keyframe keyframes ih =>
    simp only [removeUntil] at h ⊢
    split at h
    · exact absurd rfl h
    · rename_i hzero
      rw [if_neg hzero]
      exact ih h

theorem makeRoom_of_far {n : ℕ} (hn : kMaxNackPackets < n) : (s.makeRoom env n).keyframeList = [] := by
  induction s using makeRoom.induct env n with
  | case1 s result hremoved hfull ih =>
    rw [makeRoom, dif_pos hremoved, if_pos hfull]
    exact ih
  | case2 s result hremoved hroom => exact absurd (Nat.lt_add_left _ hn) hroom
  | case3 s result hkept =>
    rw [makeRoom, dif_neg hkept]
    exact keyframes_of_kept hkept

/-- More numbers than the list may have are not put on it, and nothing else stays. -/
theorem addPacketsToNack_of_far (hfar : kMaxNackPackets < (x - (r + 1)).toNat) :
    (s.addPacketsToNack env (r + 1) x).nackList = [] ∧ (s.addPacketsToNack env (r + 1) x).keyframeList = [] := by
  rw [addPacketsToNack_eq x rfl]
  dsimp only
  rw [if_pos (Nat.lt_add_left _ hfar), if_pos (Nat.lt_add_left _ hfar)]
  exact ⟨rfl, makeRoom_of_far hfar⟩

end Keyframes

section Additions

/-- No other key comes to the list than the one that is set. -/
theorem keys_setNack {info : NackInfo} {k : UInt16} (hk : k ∈ (s.setNack env x info).keys) : k = x ∨ k ∈ s.keys := by
  unfold setNack at hk
  dsimp only at hk
  split at hk
  · obtain ⟨entry, hentry, rfl⟩ := List.mem_map.mp hk
    obtain ⟨j, hj⟩ := List.mem_iff_getElem?.mp hentry
    rw [List.getElem?_modify] at hj
    obtain ⟨old, hold, hsame⟩ := Option.map_eq_some_iff.mp hj
    have hkey : old.1 = entry.1 := by
      rw [← hsame]
      split <;> rfl
    exact Or.inr (hkey ▸ List.mem_map_of_mem (List.mem_of_getElem? hold))
  · obtain ⟨entry, hentry, rfl⟩ := List.mem_map.mp hk
    rcases List.eq_or_mem_of_mem_insertIdx hentry with rfl | hentry
    · exact Or.inl rfl
    · exact Or.inr (List.mem_map_of_mem hentry)

/-- The numbers of a search are not ahead of another one, and not far behind it. -/
theorem recent_addNumbersSearches {n : ℕ} {e : UInt16} (hn : (e - r).toNat = n) (hmax : n ≤ kMaxNackPackets)
    (hkeys : Recent e s.keys) {q : Search} (hq : q ∈ s.addNumbersSearches env n r) : Recent e (q.key :: q.keys) := by
  induction n generalizing r s with
  | zero => cases hq
  | succ n ih =>
    have hr : (e - r).toNat ≤ kMaxPacketAge.toNat := by
      rw [hn]
      exact Nat.le_trans hmax (by decide)
    rcases List.mem_cons.mp hq with rfl | hq
    · exact List.forall_mem_cons.mpr ⟨hr, hkeys⟩
    · have hnext : (e - (r + 1)).toNat = n := by
        have hlt := e.toNat_lt
        have hlt' := r.toNat_lt
        simp only [UInt16.toNat_sub, UInt16.toNat_add] at hn ⊢
        simp only [UInt16.toNat_one] at *
        omega
      refine ih hnext (by omega) (fun k hk => ?_) hq
      rcases keys_setNack hk with rfl | hk
      · exact hr
      · exact hkeys k hk

theorem recent_removeUntilSearches {keyframes : List UInt16} (hkeys : Recent x s.keys) (hkeyframes : Recent x keyframes)
    {q : Search} (hq : q ∈ s.removeUntilSearches env keyframes) : Recent x (q.key :: q.keys) := by
  induction keyframes generalizing s with
  | nil => cases hq
  | cons keyframe keyframes ih =>
    have ⟨hkeyframe, hrest⟩ := List.forall_mem_cons.mp hkeyframes
    rcases List.mem_cons.mp hq with rfl | hq
    · exact List.forall_mem_cons.mpr ⟨hkeyframe, hkeys⟩
    · split at hq
      · cases hq
      · exact @ih (s.search env s.keys keyframe).1 hkeys hrest hq

theorem recent_makeRoomSearches (n : ℕ) (hkeys : Recent x s.keys) (hkeyframes : Recent x s.keyframeList) {q : Search}
    (hq : q ∈ s.makeRoomSearches env n) : Recent x (q.key :: q.keys) := by
  induction s using makeRoom.induct env n with
  | case1 s result hremoved hfull ih =>
    rw [makeRoomSearches, dif_pos hremoved, if_pos hfull] at hq
    rcases List.mem_append.mp hq with hq | hq
    · exact recent_removeUntilSearches hkeys hkeyframes hq
    · exact ih (hkeys.sublist ((trims_removeUntil _).nackList.map _)) (hkeyframes.sublist (keyframes_removeUntil _)) hq
  | case2 s result hremoved hroom =>
    rw [makeRoomSearches, dif_pos hremoved, if_neg hroom, List.append_nil] at hq
    exact recent_removeUntilSearches hkeys hkeyframes hq
  | case3 s result hkept =>
    rw [makeRoomSearches, dif_neg hkept, List.append_nil] at hq
    exact recent_removeUntilSearches hkeys hkeyframes hq

end Additions

section Steps

/-- What holds between events while the keyframes are in order. -/
structure Kept (s : NackRequester) : Prop extends Valid s where
  keyframesOrdered : Ordered s.newestSeqNum s.keyframeList
  keyframesRecent : Recent s.newestSeqNum s.keyframeList
  noKeyframes : s.initialized = false → s.keyframeList = []

/-- A packet is near enough to what is held. A new one may be ahead of the oldest number by
less than half a turn if it is a keyframe, and by 10000 more if not; an old one may be half
a turn behind the newest one only if the number before that is not missing. -/
def Close (env : Environment) (s : NackRequester) : Event → Prop
  | .packet x isKeyframe _ =>
    s.initialized = true → x ≠ s.newestSeqNum →
      if env.aheadOf s.newestSeqNum x then
        (s.newestSeqNum - x).toNat = 2^15 → s.newestSeqNum - 1 ∉ s.keys
      else
        Reaches s.newestSeqNum x (if isKeyframe then 2^15 else 2^15 + kMaxPacketAge.toNat) s.keyframeList ∧
          Reaches s.newestSeqNum x (2^15 + kMaxPacketAge.toNat) s.keys
  | _ => True

/-- What a step leaves is close together, and if a search was among numbers that are not in
order, nothing is left. -/
structure Orderly (env : Environment) (s : NackRequester) (e : Event) : Prop where
  keys : Windowed (s.step env e).keys
  keyframes : Windowed (s.step env e).keyframeList
  recent : ∀ k ∈ (s.step env e).keyframeList,
    ((s.step env e).newestSeqNum - k).toNat ≤ kMaxPacketAge.toNat
  windowed : (∀ q ∈ s.stepSearches env e, Windowed (q.key :: q.keys)) ↔ Close env s e
  sorted : Close env s e → ∀ q ∈ s.stepSearches env e, q.Sorted env
  emptied : ¬(∀ q ∈ s.stepSearches env e, q.Sorted env) →
    (s.step env e).nackList = [] ∧ (s.step env e).keyframeList = []

theorem Valid.recent (h : Valid s) : Recent s.newestSeqNum s.keys := fun k hk => by
  have hbehind := (h.behind k hk).2
  omega

/-- The searches for the numbers that are missing before a new packet. -/
theorem windowed_addPacketsSearches (hjump : (x - r).toNat ≤ 2^15) (hordered : Ordered r s.keys)
    (hrecent : Recent r s.keys) (hclose : Reaches r x (2^15 + kMaxPacketAge.toNat) s.keys)
    (hkeyframes : Recent x s.keyframeList) {q : Search} (hq : q ∈ s.addPacketsSearches env (r + 1) x) :
    Windowed (q.key :: q.keys) := by
  have hforward : (env.forwardDiff (r + 1) x).toNat = (x - (r + 1)).toNat := by rw [env.forwardDiff_eq]
  have hkept : Recent x (s.withoutOld env x).keys := by
    have hdrop := @recent_drop _ _ env s (hordered.jump hjump hrecent) fun k hk => hclose.lt hjump hrecent hk
    rw [keys, ← List.map_drop] at hdrop
    exact hdrop
  unfold addPacketsSearches at hq
  dsimp only at hq
  rw [hforward] at hq
  rcases List.mem_cons.mp hq with rfl | hq
  · exact windowed_trim hjump hrecent hclose
  · have htrimmed : (s.withoutOld env x).keyframeList = s.keyframeList := rfl
    generalize s.withoutOld env x = t at hq hkept htrimmed
    rw [← htrimmed] at hkeyframes
    generalize hu : (if t.nackList.length + (x - (r + 1)).toNat > kMaxNackPackets then
      t.makeRoom env (x - (r + 1)).toNat else t) = u at hq
    have hroom : Recent x u.keys := by
      rw [← hu]
      split
      · exact hkept.sublist ((trims_makeRoom _).nackList.map _)
      · exact hkept
    rcases List.mem_append.mp hq with hq | hq
    · split at hq
      · exact (recent_makeRoomSearches _ hkept hkeyframes hq).windowed
      · cases hq
    · split at hq
      · cases hq
      · rename_i hfits
        exact (recent_addNumbersSearches rfl (by omega) hroom hq).windowed

section NewPacket
variable {isKeyframe : Bool}

theorem nackList_insertKeyframe : (s.insertKeyframe env x).nackList = s.nackList := by
  unfold insertKeyframe
  dsimp only
  split <;> rfl

/-- A keyframe within reach goes to the end of the set. -/
theorem Kept.inserted (h : Kept s) (hne : x ≠ s.newestSeqNum) (hjump : (x - s.newestSeqNum).toNat ≤ 2^15)
    (hclose : isKeyframe = true → Reaches s.newestSeqNum x (2^15) s.keyframeList) :
    (if isKeyframe then s.insertKeyframe env x else s).keyframeList =
      s.keyframeList ++ if isKeyframe then [x] else [] := by
  cases isKeyframe with
  | false => exact (List.append_nil _).symm
  | true =>
    refine insertKeyframe_eq (h.keyframesOrdered.jump hjump h.keyframesRecent) fun k hk => ⟨?_, ?_⟩
    · rw [toNat_jump hjump (h.keyframesRecent k hk)]
      exact Nat.add_pos_left (toNat_sub_pos hne) _
    · exact Nat.lt_of_succ_lt ((hclose rfl).lt hjump h.keyframesRecent hk)

/-- The set after the packet is put in, and as far as it can be searched for what is old. -/
theorem Kept.inserted_spec (h : Kept s) (hne : x ≠ s.newestSeqNum) (hjump : (x - s.newestSeqNum).toNat ≤ 2^15)
    (hclose : Reaches s.newestSeqNum x (if isKeyframe then 2^15 else 2^15 + kMaxPacketAge.toNat) s.keyframeList) :
    let t := if isKeyframe then s.insertKeyframe env x else s
    Ordered x t.keyframeList ∧ (∀ k ∈ t.keyframeList, (x - k).toNat + 1 < 2^15 + kMaxPacketAge.toNat) ∧
      Windowed ((x - kMaxPacketAge) :: t.keyframeList) := by
  have hmax : kMaxPacketAge.toNat = 10000 := rfl
  have hordered := h.keyframesOrdered.jump hjump h.keyframesRecent
  have heq := @Kept.inserted env s x isKeyframe h hne hjump fun hkeyframe => by rwa [if_pos hkeyframe] at hclose
  dsimp only
  rw [heq]
  cases isKeyframe with
  | false =>
    rw [if_neg Bool.false_ne_true] at hclose
    rw [if_neg Bool.false_ne_true, List.append_nil]
    exact ⟨hordered, fun k hk => hclose.lt hjump h.keyframesRecent hk, windowed_trim hjump h.keyframesRecent hclose⟩
  | true =>
    rw [if_pos rfl] at hclose
    rw [if_pos rfl]
    have hself : (x - x).toNat = 0 := by simp
    have hall : ∀ k ∈ s.keyframeList ++ [x], (x - k).toNat + 1 < 2^15 := by
      intro k hk
      rcases List.mem_append.mp hk with hk | hk
      · exact hclose.lt hjump h.keyframesRecent hk
      · rw [List.mem_singleton.mp hk, hself]
        decide
    refine ⟨List.pairwise_append.mpr ⟨hordered, List.pairwise_singleton _ _, ?_⟩, ?_, ?_⟩
    · intro a ha b hb
      rw [List.mem_singleton.mp hb, hself, toNat_jump hjump (h.keyframesRecent a ha)]
      exact Nat.add_pos_left (toNat_sub_pos hne) _
    · intro k hk
      have hlt := hall k hk
      omega
    · refine @windowed_of_behind _ x (2^15 - 2) (by decide) fun k hk => ?_
      rcases List.mem_cons.mp hk with rfl | hk
      · rw [toNat_sub_age]
        decide
      · have hlt := hall k hk
        omega

/-- A new packet within reach leaves the keyframes in order. -/
theorem Kept.onNewPacket (h : Kept s) (hne : x ≠ s.newestSeqNum) (hjump : (x - s.newestSeqNum).toNat ≤ 2^15)
    (hclose : Reaches s.newestSeqNum x (if isKeyframe then 2^15 else 2^15 + kMaxPacketAge.toNat) s.keyframeList) :
    Ordered x (s.onNewPacket env x isKeyframe).keyframeList ∧
      Recent x (s.onNewPacket env x isKeyframe).keyframeList := by
  obtain ⟨hordered, hlimit, -⟩ := @Kept.inserted_spec env s x isKeyframe h hne hjump hclose
  unfold NackRequester.onNewPacket
  dsimp only
  generalize (if isKeyframe then s.insertKeyframe env x else s) = t at hordered hlimit ⊢
  have hsub : ((t.trimKeyframes env x).addPacketsToNack env (t.newestSeqNum + 1) x).keyframeList.Sublist
      (t.keyframeList.drop (t.search env t.keyframeList (x - kMaxPacketAge)).2) := keyframes_addPacketsToNack
  rw [keyframes_sendBatch]
  exact ⟨(hordered.sublist (List.drop_sublist _ _)).sublist hsub, (recent_drop hordered hlimit).sublist hsub⟩

theorem Kept.windowed_newPacket (h : Kept s) (hne : x ≠ s.newestSeqNum) (hjump : (x - s.newestSeqNum).toNat ≤ 2^15)
    (hclose : Reaches s.newestSeqNum x (if isKeyframe then 2^15 else 2^15 + kMaxPacketAge.toNat) s.keyframeList)
    (hkeys : Reaches s.newestSeqNum x (2^15 + kMaxPacketAge.toNat) s.keys) {q : Search}
    (hq : q ∈ s.newPacketSearches env x isKeyframe) : Windowed (q.key :: q.keys) := by
  obtain ⟨hordered, hlimit, hwindow⟩ := @Kept.inserted_spec env s x isKeyframe h hne hjump hclose
  have hlist : (if isKeyframe then s.insertKeyframe env x else s).keys = s.keys := by
    split
    · exact congrArg (List.map Prod.fst) nackList_insertKeyframe
    · rfl
  unfold newPacketSearches at hq
  dsimp only at hq
  rcases List.mem_append.mp hq with hq | hq
  · split at hq
    · rename_i hkeyframe
      rw [if_pos hkeyframe] at hclose
      rw [List.mem_singleton.mp hq]
      exact windowed_insert hjump h.keyframesRecent hclose
    · cases hq
  · generalize (if isKeyframe then s.insertKeyframe env x else s) = t at hordered hlimit hwindow hlist hq
    have htrimmed : (t.trimKeyframes env x).keys = s.keys := hlist
    rcases List.mem_cons.mp hq with rfl | hq
    · exact hwindow
    · refine windowed_addPacketsSearches hjump ?_ ?_ ?_ (recent_drop hordered hlimit) hq
      · rw [htrimmed]
        exact h.ordered
      · rw [htrimmed]
        exact h.toValid.recent
      · rw [htrimmed]
        exact hkeys

theorem newestSeqNum_onNewPacket : (s.onNewPacket env x isKeyframe).newestSeqNum = x := by
  unfold NackRequester.onNewPacket
  dsimp only
  rw [newestSeqNum_sendBatch]

/-- After a packet that is far ahead nothing is held. -/
theorem onNewPacket_of_far (hfar : kMaxNackPackets + 1 < (x - s.newestSeqNum).toNat) :
    (s.onNewPacket env x isKeyframe).nackList = [] ∧ (s.onNewPacket env x isKeyframe).keyframeList = [] := by
  have hnewest : (if isKeyframe then s.insertKeyframe env x else s).newestSeqNum = s.newestSeqNum := by
    split
    · exact (trims_insertKeyframe x).newestSeqNum
    · rfl
  have hnext : kMaxNackPackets < (x - (s.newestSeqNum + 1)).toNat := by
    have hx := x.toNat_lt
    have hr := s.newestSeqNum.toNat_lt
    simp only [UInt16.toNat_sub, UInt16.toNat_add] at hfar ⊢
    simp only [UInt16.toNat_one] at *
    omega
  unfold NackRequester.onNewPacket
  dsimp only
  rw [hnewest]
  generalize (if isKeyframe then s.insertKeyframe env x else s) = t
  obtain ⟨hlist, hkeyframes⟩ := @addPacketsToNack_of_far env (t.trimKeyframes env x) _ _ hnext
  rw [keyframes_sendBatch]
  refine ⟨?_, hkeyframes⟩
  unfold NackRequester.sendBatch getNackBatch
  dsimp only
  rw [hlist]
  rfl

end NewPacket

section Packets
variable {isKeyframe isRetransmitted : Bool}

theorem Kept.of_same (h : Kept s) (hvalid : Valid t) (hnewest : t.newestSeqNum = s.newestSeqNum)
    (hinitialized : t.initialized = s.initialized) (hkeyframes : t.keyframeList = s.keyframeList) : Kept t where
  toValid := hvalid
  keyframesOrdered := by
    rw [hnewest, hkeyframes]
    exact h.keyframesOrdered
  keyframesRecent := by
    rw [hnewest, hkeyframes]
    exact h.keyframesRecent
  noKeyframes hfalse := hkeyframes.trans (h.noKeyframes (hinitialized.symm.trans hfalse))

/-- The state in which a new packet is handled. -/
theorem Kept.received (h : Kept s) (hnew : ¬env.aheadOf s.newestSeqNum x = true) : Kept (s.note (.received x)) := by
  have hmiss := not_mem_of_not_ahead h.toValidAt (Bool.eq_false_iff.mpr hnew)
  exact h.of_same ⟨h.toValidAt.receive hmiss, h.initialized⟩ rfl rfl rfl

theorem keyframes_onOldPacket : (s.onOldPacket env x isRetransmitted).1.keyframeList = s.keyframeList ∧
    (s.onOldPacket env x isRetransmitted).1.newestSeqNum = s.newestSeqNum ∧
      (s.onOldPacket env x isRetransmitted).1.initialized = s.initialized := by
  unfold onOldPacket
  dsimp only
  split <;> split <;> exact ⟨rfl, rfl, rfl⟩

/-- The keyframe of the first packet of all is the only one. -/
theorem Kept.first (h : Kept s) (hfirst : s.initialized = false) :
    Kept (s.step env (.packet x isKeyframe isRetransmitted)) := by
  have hvalid : Valid (s.step env (.packet x isKeyframe isRetransmitted)) := h.toValid.step _
  have hnone := h.noKeyframes hfirst
  rw [step_first hfirst] at hvalid ⊢
  cases isKeyframe with
  | false => exact ⟨hvalid, by simp [note, hnone, Ordered], by simp [note, hnone, Recent], fun h => by cases h⟩
  | true =>
    have heq : (insertKeyframe env { s.note (.received x) with newestSeqNum := x } x).keyframeList = [x] := by
      have hinserted := @insertKeyframe_eq env { s.note (.received x) with newestSeqNum := x } x
        (by simp [note, hnone, Ordered]) (by simp [note, hnone])
      rw [hinserted]
      simp [note, hnone]
    have hnewest : (insertKeyframe env { s.note (.received x) with newestSeqNum := x } x).newestSeqNum = x :=
      (trims_insertKeyframe x).newestSeqNum
    refine ⟨hvalid, ?_, ?_, fun h => by cases h⟩
    · show Ordered (insertKeyframe _ _ x).newestSeqNum (insertKeyframe _ _ x).keyframeList
      rw [heq]
      exact List.pairwise_singleton _ _
    · show Recent (insertKeyframe _ _ x).newestSeqNum (insertKeyframe _ _ x).keyframeList
      rw [heq, hnewest]
      simp [Recent]

/-- A new packet leaves the keyframes in order: it is near enough, or none are left. -/
theorem Kept.new (h : Kept s) (hon : ¬s.initialized = false) (hne : x ≠ s.newestSeqNum)
    (hnew : ¬env.aheadOf s.newestSeqNum x = true) : Kept (s.step env (.packet x isKeyframe isRetransmitted)) := by
  have hvalid : Valid (s.step env (.packet x isKeyframe isRetransmitted)) := h.toValid.step _
  have hreceived := h.received hnew
  have hjump := env.jump_le hne hnew
  have hinitialized := (hreceived.toValidAt.onNewPacket env hne isKeyframe).2
  rw [step_new hon hne hnew] at hvalid ⊢
  have hordered : Ordered x ((s.note (.received x)).onNewPacket env x isKeyframe).keyframeList ∧
      Recent x ((s.note (.received x)).onNewPacket env x isKeyframe).keyframeList := by
    by_cases hfar : kMaxNackPackets + 1 < (x - s.newestSeqNum).toNat
    · rw [(@onNewPacket_of_far env (s.note (.received x)) x isKeyframe hfar).2]
      exact ⟨List.Pairwise.nil, by simp [Recent]⟩
    · have hreaches := reaches_of_short (Nat.not_lt.mp hfar) h.keyframesRecent
      refine hreceived.onNewPacket hne hjump (hreaches.mono ?_)
      split
      · exact Nat.le_refl _
      · exact Nat.le_add_right _ _
  refine ⟨hvalid, ?_, ?_, fun hfalse => absurd (hinitialized.symm.trans hfalse) hon⟩
  · rw [newestSeqNum_onNewPacket]
    exact hordered.1
  · rw [newestSeqNum_onNewPacket]
    exact hordered.2

theorem Kept.step (h : Kept s) (e : Event) : Kept (s.step env e) := by
  have hvalid : Valid (s.step env e) := h.toValid.step e
  cases e with
  | tick => exact h.of_same hvalid (newestSeqNum_sendBatch _) (initialized_sendBatch _) (keyframes_sendBatch _)
  | updateRtt rttMs => exact h.of_same hvalid rfl rfl rfl
  | wait ms => exact h.of_same hvalid rfl rfl rfl
  | packet x isKeyframe isRetransmitted =>
    by_cases hfirst : s.initialized = false
    · exact h.first hfirst
    · by_cases hsame : x = s.newestSeqNum
      · rw [step_same hfirst hsame] at hvalid ⊢
        exact h.of_same hvalid rfl rfl rfl
      · by_cases hold : env.aheadOf s.newestSeqNum x = true
        · rw [step_old hfirst hsame hold] at hvalid ⊢
          obtain ⟨hkeyframes, hnewest, hinitialized⟩ :=
            @keyframes_onOldPacket env (s.note (.received x)) x isRetransmitted
          exact h.of_same hvalid hnewest hinitialized hkeyframes
        · exact h.new hfirst hsame hold

end Packets

section Order
variable {isKeyframe isRetransmitted : Bool}

theorem toNat_sub_sub {j k : UInt16} (h : j.toNat ≤ (r - k).toNat) : (r - j - k).toNat = (r - k).toNat - j.toNat := by
  have hr := r.toNat_lt
  have hj := j.toNat_lt
  have hk := k.toNat_lt
  simp only [UInt16.toNat_sub] at h ⊢
  omega

/-- An old packet is searched for among numbers that are newer than it, or not much older. -/
theorem Kept.windowed_old (h : Kept s) (hold : env.aheadOf s.newestSeqNum x = true)
    (hclose : (s.newestSeqNum - x).toNat = 2^15 → s.newestSeqNum - 1 ∉ s.keys) : Windowed (x :: s.keys) := by
  have hmax : kMaxPacketAge.toNat = 10000 := rfl
  have ⟨hne, hdistance⟩ := (env.aheadOf_iff _ _).mp hold
  have hpos := toNat_sub_pos hne
  by_cases hhalf : (s.newestSeqNum - x).toNat = 2^15
  · have htwo : (2 : UInt16).toNat = 2 := rfl
    refine @windowed_of_behind _ (s.newestSeqNum - 2) (2^15 - 2) (by decide) fun k hk => ?_
    rcases List.mem_cons.mp hk with rfl | hk
    · rw [toNat_sub_sub (by omega)]
      omega
    · have hbehind := h.behind k hk
      have hsecond : (s.newestSeqNum - k).toNat ≠ 1 := by
        intro hone
        have hlast : s.newestSeqNum - 1 = k := by
          have hr := s.newestSeqNum.toNat_lt
          have hklt := k.toNat_lt
          rw [← UInt16.toNat_inj]
          simp only [UInt16.toNat_sub, UInt16.toNat_one] at hone ⊢
          omega
        exact hclose hhalf (hlast ▸ hk)
      rw [toNat_sub_sub (by omega)]
      omega
  · have hone : (1 : UInt16).toNat = 1 := rfl
    refine @windowed_of_behind _ (s.newestSeqNum - 1) (2^15 - 2) (by decide) fun k hk => ?_
    rcases List.mem_cons.mp hk with rfl | hk
    · rw [toNat_sub_sub (by omega)]
      omega
    · have hbehind := h.behind k hk
      rw [toNat_sub_sub (by omega)]
      omega

/-- The numbers are in order even where they take up half of the numbers. -/
theorem Kept.sorted_old (h : Kept s) (hold : env.aheadOf s.newestSeqNum x = true) :
    Search.Sorted env ⟨s.keys, x⟩ := by
  have hmax : kMaxPacketAge.toNat = 10000 := rfl
  have ⟨hne, hdistance⟩ := (env.aheadOf_iff _ _).mp hold
  have hpos := toNat_sub_pos hne
  have hall : ∀ k ∈ x :: s.keys, 1 ≤ (s.newestSeqNum - k).toNat ∧ (s.newestSeqNum - k).toNat ≤ 2^15 := by
    intro k hk
    rcases List.mem_cons.mp hk with rfl | hk
    · omega
    · have hbehind := h.behind k hk
      omega
  refine @strictWeakOrder_of_near _ s.newestSeqNum env.toSequenceNumberUtil fun a ha b hb => ?_
  have ha' := hall a ha
  have hb' := hall b hb
  omega

/-- The searches of a packet that is near enough are among numbers that are close together. -/
theorem Kept.windowed_of_close (h : Kept s) {e : Event} (hclose : Close env s e) :
    ∀ q ∈ s.stepSearches env e, Windowed (q.key :: q.keys) := by
  cases e with
  | tick => nofun
  | updateRtt rttMs => nofun
  | wait ms => nofun
  | packet x isKeyframe isRetransmitted =>
    by_cases hfirst : s.initialized = false
    · have hsingle : Recent x [x] := by simp [Recent]
      rw [stepSearches_first hfirst, h.noKeyframes hfirst]
      intro q hq
      split at hq
      · rw [List.mem_singleton.mp hq]
        exact hsingle.windowed
      · cases hq
    · have hclose := hclose (Bool.not_eq_false _ ▸ hfirst)
      by_cases hsame : x = s.newestSeqNum
      · rw [stepSearches_same hfirst hsame]
        nofun
      · have hclose := hclose hsame
        by_cases hold : env.aheadOf s.newestSeqNum x = true
        · rw [if_pos hold] at hclose
          rw [stepSearches_old hfirst hsame hold]
          intro q hq
          rw [List.mem_singleton.mp hq]
          exact h.windowed_old hold hclose
        · rw [if_neg hold] at hclose
          rw [stepSearches_new hfirst hsame hold]
          intro q hq
          exact (h.received hold).windowed_newPacket hsame (env.jump_le hsame hold) hclose.1 hclose.2 hq

/-- In a window a keyframe is put in, or there already. -/
theorem Kept.mem_insertKeyframe (h : Kept s) (hwindow : Windowed (x :: s.keyframeList)) :
    x ∈ (s.insertKeyframe env x).keyframeList ∧ s.keyframeList ⊆ (s.insertKeyframe env x).keyframeList := by
  obtain ⟨r, w, hw, hall⟩ := hwindow
  have ⟨hx, hkeys⟩ := List.forall_mem_cons.mp hall
  have hordered : Ordered r s.keyframeList :=
    Ordered.turn env.toSequenceNumberUtil h.keyframesOrdered (by decide : kMaxPacketAge.toNat + 1 ≤ 2^15)
      (fun k hk => Nat.lt_succ_of_le (h.keyframesRecent k hk)) (Nat.le_of_lt hw) hkeys
  have hnear : Near r x s.keyframeList := by
    intro k hk
    have hk' := hkeys k hk
    omega
  have hhits := @hits_search env s r x s.keyframeList hordered hnear
  have hle : (s.search env s.keyframeList x).2 ≤ s.keyframeList.length := Nat.min_le_right _ _
  have hsame : (s.search env s.keyframeList x).1.keyframeList = s.keyframeList := rfl
  unfold insertKeyframe
  dsimp only
  rw [hsame]
  split at hhits
  · rename_i hhit
    rw [if_pos hhit]
    exact ⟨List.mem_of_getElem? hhits, List.Subset.refl _⟩
  · rename_i hmiss
    rw [if_neg hmiss]
    exact ⟨(List.mem_insertIdx hle).mpr (Or.inl rfl), fun k hk => (List.mem_insertIdx hle).mpr (Or.inr hk)⟩

/-- The searches of a new packet are close together only if it is near enough. -/
theorem Kept.reaches_of_windowed (h : Kept s) (hjump : (x - s.newestSeqNum).toNat ≤ 2^15)
    (hsearched : ∀ q ∈ s.newPacketSearches env x isKeyframe, Windowed (q.key :: q.keys)) :
    Reaches s.newestSeqNum x (if isKeyframe then 2^15 else 2^15 + kMaxPacketAge.toNat) s.keyframeList ∧
      Reaches s.newestSeqNum x (2^15 + kMaxPacketAge.toNat) s.keys := by
  have hmax : kMaxPacketAge.toNat = 10000 := rfl
  have hkeys : Windowed ((x - kMaxPacketAge) :: s.keys) := by
    have hlist : (if isKeyframe then s.insertKeyframe env x else s).keys = s.keys := by
      split
      · exact congrArg (List.map Prod.fst) nackList_insertKeyframe
      · rfl
    rw [← hlist]
    exact hsearched _ (List.mem_append_right _ (List.mem_cons_of_mem _ List.mem_cons_self))
  have hkeyframes := hsearched _ (List.mem_append_right _ List.mem_cons_self)
  refine ⟨fun k hk => ?_, fun k hk => ?_⟩
  · have hage := h.keyframesRecent k hk
    have hsum := toNat_jump hjump hage
    have hfar : (x - k).toNat ≤ 42768 := by omega
    rw [← hsum]
    cases isKeyframe with
    | false => exact hkeyframes.trim (List.mem_cons_of_mem _ hk) List.mem_cons_self hfar
    | true =>
      have hfirst : Windowed (x :: s.keyframeList) := hsearched _ (List.mem_append_left _ (List.mem_singleton_self _))
      have ⟨hx, hsub⟩ := @Kept.mem_insertKeyframe env _ x h hfirst
      exact hkeyframes.triple (List.mem_cons_of_mem _ (hsub hk)) (List.mem_cons_of_mem _ hx) List.mem_cons_self hfar
  · have hage := h.toValid.recent k hk
    have hsum := toNat_jump hjump hage
    rw [← hsum]
    exact hkeys.trim (List.mem_cons_of_mem _ hk) List.mem_cons_self (by omega)

theorem Kept.close_of_windowed (h : Kept s) {e : Event}
    (hsearched : ∀ q ∈ s.stepSearches env e, Windowed (q.key :: q.keys)) : Close env s e := by
  cases e with
  | tick => trivial
  | updateRtt rttMs => trivial
  | wait ms => trivial
  | packet x isKeyframe isRetransmitted =>
    intro hon hne
    have hfirst : ¬s.initialized = false := Bool.not_eq_false _ ▸ hon
    by_cases hold : env.aheadOf s.newestSeqNum x = true
    · rw [if_pos hold]
      rw [stepSearches_old hfirst hne hold] at hsearched
      have hwindow : Windowed (x :: s.keys) := hsearched _ (List.mem_singleton_self _)
      intro hhalf hlast
      have hpair := hwindow.pair List.mem_cons_self (List.mem_cons_of_mem _ hlast)
      have hr := s.newestSeqNum.toNat_lt
      have hx := x.toNat_lt
      simp only [UInt16.toNat_sub, UInt16.toNat_one] at hhalf hpair
      omega
    · rw [if_neg hold]
      rw [stepSearches_new hfirst hne hold] at hsearched
      exact (h.received hold).reaches_of_windowed (env.jump_le hne hold) hsearched

/-- A search among numbers that are not in order is for a new packet that is far ahead. -/
theorem Kept.emptied (h : Kept s) {e : Event} (hsorted : ¬∀ q ∈ s.stepSearches env e, q.Sorted env) :
    (s.step env e).nackList = [] ∧ (s.step env e).keyframeList = [] := by
  have hnotClose : ¬Close env s e := fun hclose =>
    hsorted fun q hq => (h.windowed_of_close hclose q hq).strictWeakOrder env.toSequenceNumberUtil
  cases e with
  | tick => exact absurd trivial hnotClose
  | updateRtt rttMs => exact absurd trivial hnotClose
  | wait ms => exact absurd trivial hnotClose
  | packet x isKeyframe isRetransmitted =>
    by_cases hfirst : s.initialized = false
    · exact absurd (fun hon => absurd hfirst (Bool.not_eq_false _ ▸ hon)) hnotClose
    · by_cases hsame : x = s.newestSeqNum
      · exact absurd (fun _ hne => absurd hsame hne) hnotClose
      · by_cases hold : env.aheadOf s.newestSeqNum x = true
        · rw [stepSearches_old hfirst hsame hold] at hsorted
          exact absurd (fun q hq => List.mem_singleton.mp hq ▸ h.sorted_old hold) hsorted
        · rw [step_new hfirst hsame hold]
          refine onNewPacket_of_far (Nat.not_le.mp fun hshort => hnotClose fun _ _ => ?_)
          rw [if_neg hold]
          refine ⟨(reaches_of_short hshort h.keyframesRecent).mono ?_,
            (reaches_of_short hshort h.toValid.recent).mono (Nat.le_add_right _ _)⟩
          split
          · exact Nat.le_refl _
          · exact Nat.le_add_right _ _

theorem Kept.orderly (h : Kept s) (e : Event) : Orderly env s e where
  keys := (h.step e).toValid.recent.windowed
  keyframes := (h.step e).keyframesRecent.windowed
  recent := (h.step e).keyframesRecent
  windowed := ⟨h.close_of_windowed, h.windowed_of_close⟩
  sorted hclose q hq := (h.windowed_of_close hclose q hq).strictWeakOrder env.toSequenceNumberUtil
  emptied := h.emptied

theorem kept_start (clock : ℕ) : Kept { clock } where
  toValid := valid_start clock
  keyframesOrdered := List.Pairwise.nil
  keyframesRecent _ hk := absurd hk List.not_mem_nil
  noKeyframes _ := rfl

variable (env) in
/-- In every run the numbers that are held are close together after each step, those of the
searches in it are exactly if the packet is near enough, and a search among numbers that are
not in order is in a step after which nothing is held. -/
theorem along_orderly (clock : ℕ) (es : List Event) :
    Runs.Along (NackRequester.step env) (Orderly env) { clock } es :=
  Runs.along_of_invariant (fun _ e hs => hs.step e) (fun _ e hs => hs.orderly e) (kept_start clock) es

/-- When a keyframe is put in that is 32777 ahead of another one, the search for what is old is
among three numbers each of which comes before the next one. -/
theorem far_keyframe_not_windowed : ¬Runs.Along (NackRequester.step plainEnvironment)
    (fun s e => ∀ q ∈ s.stepSearches plainEnvironment e, Windowed (q.key :: q.keys)) {}
    [.packet 0 true false, .packet 10 false false, .packet 32777 true false] := by
  rintro ⟨-, -, h, -⟩
  have hwindow : Windowed [22777, 32777, 0] := h ⟨[32777, 0], 22777⟩ (by decide +kernel)
  have hnear := @Windowed.triple _ 0 32777 hwindow (by decide) (by decide) (by decide) (by decide)
  exact absurd hnear (by decide)

end Order

end Steps

end NackRequester
end Video
end XrtcServer
