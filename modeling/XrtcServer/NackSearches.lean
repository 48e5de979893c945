import XrtcServer.NackInvariants
import Mathlib.Order.RelClasses
import Mathlib.Algebra.Group.Nat.Defs

/-! The searches of a NACK requester in its list and in its set of keyframes, whose comparator
is an order only of numbers that are close to each other. -/
namespace XrtcServer
namespace Video

/-- The numbers are among fewer than half of all, one behind the other. -/
def Windowed (keys : List UInt16) : Prop := ∃ r w, w < 2^15 ∧ ∀ k ∈ keys, (r - k : UInt16).toNat < w

section Windows
variable {keys : List UInt16} {r k x y : UInt16}

theorem windowed_of_behind {w : ℕ} (hw : w + 1 < 2^15) (h : ∀ k ∈ keys, (r - k).toNat ≤ w) : Windowed keys :=
  ⟨r, w + 1, hw, fun k hk => Nat.lt_succ_of_le (h k hk)⟩

/-- Where any two numbers are less than half a turn from each other, the larger distance to
the end comes first. -/
theorem strictWeakOrder_of_near (U : SequenceNumberUtil) (h : ∀ x ∈ keys, Near r x keys) :
    IsStrictWeakOrder {k // k ∈ keys} fun a b => U.descendingSeqNumComp a b = true := by
  have hcomp : (fun a b : {k // k ∈ keys} => U.descendingSeqNumComp a b = true) =
      Order.Preimage (fun a : {k // k ∈ keys} => (r - a.1).toNat) (· > ·) := by
    funext a b
    have ⟨ha, hb⟩ := h b.1 b.2 a.1 a.2
    exact propext (U.comp_iff ha hb)
  have hnat : IsStrictWeakOrder ℕ (· > ·) := { incomp_trans := fun a b c hab hbc => by omega }
  rw [hcomp]
  infer_instance

theorem Windowed.strictWeakOrder (U : SequenceNumberUtil) (h : Windowed keys) :
    IsStrictWeakOrder {k // k ∈ keys} fun a b => U.descendingSeqNumComp a b = true := by
  obtain ⟨r, w, hw, hall⟩ := h
  refine @strictWeakOrder_of_near keys r U fun x hx k hk => ?_
  have hx' := hall x hx
  have hk' := hall k hk
  omega

/-- One of two numbers in a window is less than half a turn behind the other one. -/
theorem Windowed.pair (h : Windowed keys) (hk : k ∈ keys) (hx : x ∈ keys) :
    (x - k).toNat + 1 < 2^15 ∨ (k - x).toNat + 1 < 2^15 := by
  obtain ⟨r, w, hw, hall⟩ := h
  have hk := hall k hk
  have hx := hall x hx
  have hr := r.toNat_lt
  have hklt := k.toNat_lt
  have hxlt := x.toNat_lt
  simp only [UInt16.toNat_sub] at hk hx ⊢
  omega

theorem Windowed.trim (h : Windowed keys) (hk : k ∈ keys) (hy : x - kMaxPacketAge ∈ keys)
    (hfar : (x - k).toNat ≤ 42768) : (x - k).toNat + 1 < 2^15 + kMaxPacketAge.toNat := by
  have hage : kMaxPacketAge.toNat = 10000 := rfl
  have hpair := h.pair hk hy
  have hklt := k.toNat_lt
  have hxlt := x.toNat_lt
  simp only [UInt16.toNat_sub, hage] at hpair hfar ⊢
  omega

/-- A number and the one that is 10000 behind it are on the same side of any other number
within less than half a turn. -/
theorem Windowed.triple (h : Windowed keys) (hk : k ∈ keys) (hx : x ∈ keys) (hy : x - kMaxPacketAge ∈ keys)
    (hfar : (x - k).toNat ≤ 42768) : (x - k).toNat + 1 < 2^15 := by
  have hage : kMaxPacketAge.toNat = 10000 := rfl
  obtain ⟨r, w, hw, hall⟩ := h
  have hk := hall k hk
  have hx := hall x hx
  have hy := hall _ hy
  have hr := r.toNat_lt
  have hklt := k.toNat_lt
  have hxlt := x.toNat_lt
  simp only [UInt16.toNat_sub, hage] at hk hx hy hfar ⊢
  omega

end Windows

/-- A search in one of the trees: the keys that are there and the one that is searched for or
put in. -/
structure Search where
  keys : List UInt16
  key : UInt16
  deriving DecidableEq

/-- The comparator orders the keys of a search together with the one that is searched for. -/
def Search.Sorted (env : Environment) (q : Search) : Prop :=
  IsStrictWeakOrder {k // k ∈ q.key :: q.keys} fun a b => env.descendingSeqNumComp a b = true

namespace NackRequester
variable (env : Environment) (s : NackRequester)

section Lists

def removeUntilSearches (s : NackRequester) : List UInt16 → List Search
  | [] => []
  | keyframe :: keyframes =>
    let (t, i) := s.search env s.keys keyframe
    ⟨s.keys, keyframe⟩ :: if i ≠ 0 then [] else removeUntilSearches t keyframes

def makeRoomSearches (s : NackRequester) (newNackNum : ℕ) : List Search :=
  let result := s.removePacketsUntilKeyFrame env
  s.removeUntilSearches env s.keyframeList ++
    if _h : result.2 = true then
      if result.1.nackList.length + newNackNum > kMaxNackPackets then makeRoomSearches result.1 newNackNum
      else []
    else []
termination_by s.nackList.length
decreasing_by exact length_removeUntil env ‹_›

def addNumbersSearches : ℕ → UInt16 → NackRequester → List Search
  | 0, _, _ => []
  | n+1, seqNum, s =>
    let nackInfo : NackInfo :=
      { seqNum
        sendAtSeqNum := seqNum + UInt16.ofNat (s.waitNumberOfPackets env)
        createdTime := s.clock }
    ⟨s.keys, seqNum⟩ :: addNumbersSearches n (seqNum + 1) ((s.setNack env seqNum nackInfo).note (.added seqNum))

def addPacketsSearches (seqNumStart seqNumEnd : UInt16) : List Search :=
  let t := s.withoutOld env seqNumEnd
  let newNackNum := (env.forwardDiff seqNumStart seqNumEnd).toNat
  let full := t.nackList.length + newNackNum > kMaxNackPackets
  let u := if full then t.makeRoom env newNackNum else t
  ⟨s.keys, seqNumEnd - kMaxPacketAge⟩ ::
    ((if full then t.makeRoomSearches env newNackNum else []) ++
      if u.nackList.length + newNackNum > kMaxNackPackets then []
      else u.addNumbersSearches env (seqNumEnd - seqNumStart).toNat seqNumStart)

def newPacketSearches (seqNum : UInt16) (isKeyframe : Bool) : List Search :=
  let t := if isKeyframe then s.insertKeyframe env seqNum else s
  (if isKeyframe then [⟨s.keyframeList, seqNum⟩] else []) ++
    ⟨t.keyframeList, seqNum - kMaxPacketAge⟩ ::
      (t.trimKeyframes env seqNum).addPacketsSearches env (s.newestSeqNum + 1) seqNum

/-- The searches of a step, in the order in which they are made. -/
def stepSearches : Event → List Search
  | .packet seqNum isKeyframe _ =>
    if !s.initialized then if isKeyframe then [⟨s.keyframeList, seqNum⟩] else []
    else if seqNum = s.newestSeqNum then []
    else if env.aheadOf s.newestSeqNum seqNum then [⟨s.keys, seqNum⟩]
    else (s.note (.received seqNum)).newPacketSearches env seqNum isKeyframe
  | _ => []

end Lists

section Cases
variable {env : Environment} {s : NackRequester} {x : UInt16} {isKeyframe isRetransmitted : Bool}

theorem newestSeqNum_note (m : Mark) : (s.note m).newestSeqNum = s.newestSeqNum := rfl

theorem step_first (hfirst : s.initialized = false) :
    s.step env (.packet x isKeyframe isRetransmitted) =
      let t := { s.note (.received x) with newestSeqNum := x }
      { (if isKeyframe then t.insertKeyframe env x else t) with initialized := true } := by
  have hnoted : (!(s.note (.received x)).initialized) = true := by simpa [note] using hfirst
  rw [step, onReceivedPacket, if_pos hnoted]

theorem stepSearches_first (hfirst : s.initialized = false) :
    s.stepSearches env (.packet x isKeyframe isRetransmitted) =
      if isKeyframe then [⟨s.keyframeList, x⟩] else [] := by
  rw [stepSearches, if_pos (by simpa using hfirst)]

variable (hon : ¬s.initialized = false)
include hon

theorem step_same (hsame : x = s.newestSeqNum) :
    s.step env (.packet x isKeyframe isRetransmitted) = s.note (.received x) := by
  have hnoted : ¬(!(s.note (.received x)).initialized) = true := by simpa [note] using hon
  rw [step, onReceivedPacket, if_neg hnoted, newestSeqNum_note, if_pos hsame]

theorem stepSearches_same (hsame : x = s.newestSeqNum) :
    s.stepSearches env (.packet x isKeyframe isRetransmitted) = [] := by
  rw [stepSearches, if_neg (by simpa using hon), if_pos hsame]

theorem step_old (hsame : x ≠ s.newestSeqNum) (hold : env.aheadOf s.newestSeqNum x = true) :
    s.step env (.packet x isKeyframe isRetransmitted) =
      ((s.note (.received x)).onOldPacket env x isRetransmitted).1 := by
  have hnoted : ¬(!(s.note (.received x)).initialized) = true := by simpa [note] using hon
  rw [step, onReceivedPacket, if_neg hnoted, newestSeqNum_note, if_neg hsame, if_pos hold]

theorem stepSearches_old (hsame : x ≠ s.newestSeqNum) (hold : env.aheadOf s.newestSeqNum x = true) :
    s.stepSearches env (.packet x isKeyframe isRetransmitted) = [⟨s.keys, x⟩] := by
  rw [stepSearches, if_neg (by simpa using hon), if_neg hsame, if_pos hold]

theorem step_new (hsame : x ≠ s.newestSeqNum) (hnew : ¬env.aheadOf s.newestSeqNum x = true) :
    s.step env (.packet x isKeyframe isRetransmitted) = (s.note (.received x)).onNewPacket env x isKeyframe := by
  have hnoted : ¬(!(s.note (.received x)).initialized) = true := by simpa [note] using hon
  rw [step, onReceivedPacket, if_neg hnoted, newestSeqNum_note, if_neg hsame, if_neg hnew]

theorem stepSearches_new (hsame : x ≠ s.newestSeqNum) (hnew : ¬env.aheadOf s.newestSeqNum x = true) :
    s.stepSearches env (.packet x isKeyframe isRetransmitted) =
      (s.note (.received x)).newPacketSearches env x isKeyframe := by
  rw [stepSearches, if_neg (by simpa using hon), if_neg hsame, if_neg hnew]

end Cases

section Counts
variable {env : Environment} {s : NackRequester}

theorem searches_insertKeyframe (x : UInt16) : (s.insertKeyframe env x).searches = s.searches + 1 := by
  unfold insertKeyframe
  dsimp only
  split <;> rfl

theorem searches_setNack (x : UInt16) (info : NackInfo) : (s.setNack env x info).searches = s.searches + 1 := by
  unfold setNack
  dsimp only
  split <;> rfl

theorem searches_removeUntil (keyframes : List UInt16) :
    (s.removeUntil env keyframes).1.searches = s.searches + (s.removeUntilSearches env keyframes).length := by
  induction keyframes generalizing s with
  | nil => rfl
  | cons keyframe keyframes ih =>
    simp only [removeUntil, removeUntilSearches]
    split
    · rfl
    · rw [ih, List.length_cons]
      show s.searches + 1 + _ = _
      omega

theorem searches_makeRoom (n : ℕ) :
    (s.makeRoom env n).searches = s.searches + (s.makeRoomSearches env n).length := by
  induction s using makeRoom.induct env n with
  | case1 s result hremoved hfull ih =>
    have hresult : result.1.searches = s.searches + (s.removeUntilSearches env s.keyframeList).length :=
      searches_removeUntil _
    rw [makeRoom, dif_pos hremoved, if_pos hfull, makeRoomSearches, dif_pos hremoved, if_pos hfull, ih,
      List.length_append, hresult, Nat.add_assoc]
  | case2 s result hremoved hroom =>
    rw [makeRoom, dif_pos hremoved, if_neg hroom, makeRoomSearches, dif_pos hremoved, if_neg hroom,
      List.append_nil, removePacketsUntilKeyFrame, searches_removeUntil]
  | case3 s result hkept =>
    rw [makeRoom, dif_neg hkept, makeRoomSearches, dif_neg hkept, List.append_nil, removePacketsUntilKeyFrame,
      searches_removeUntil]

theorem searches_addNumbers (n : ℕ) (x : UInt16) :
    (s.addNumbers env n x).searches = s.searches + (addNumbersSearches env n x s).length := by
  induction n generalizing s x with
  | zero => rfl
  | succ n ih =>
    rw [addNumbers, addNumbersSearches, ih, List.length_cons]
    simp only [note, searches_setNack]
    omega

theorem searches_addPacketsToNack {r x : UInt16} :
    (s.addPacketsToNack env (r + 1) x).searches = s.searches + (s.addPacketsSearches env (r + 1) x).length := by
  have hforward : (env.forwardDiff (r + 1) x).toNat = (x - (r + 1)).toNat := by rw [env.forwardDiff_eq]
  have htrimmed : (s.withoutOld env x).searches = s.searches + 1 := rfl
  rw [addPacketsToNack_eq x rfl, addPacketsSearches]
  dsimp only
  rw [hforward]
  generalize s.withoutOld env x = t at htrimmed ⊢
  generalize (x - (r + 1)).toNat = n
  split
  · rw [List.length_cons, List.length_append]
    split
    · show (t.makeRoom env n).searches = _
      rw [searches_makeRoom, htrimmed, List.length_nil]
      omega
    · rw [searches_addNumbers, searches_makeRoom, htrimmed]
      omega
  · rw [List.length_cons, List.nil_append, searches_addNumbers, htrimmed]
    omega

theorem searches_sendBatch (options : NackFilterOptions) : (s.sendBatch env options).searches = s.searches := by
  unfold sendBatch
  dsimp only
  split <;> rfl

theorem searches_onNewPacket {x : UInt16} (isKeyframe : Bool) :
    (s.onNewPacket env x isKeyframe).searches = s.searches + (s.newPacketSearches env x isKeyframe).length := by
  have hinserted : (if isKeyframe then s.insertKeyframe env x else s).searches =
      s.searches + if isKeyframe then 1 else 0 := by
    split
    · exact searches_insertKeyframe x
    · rfl
  have hnewest : (if isKeyframe then s.insertKeyframe env x else s).newestSeqNum = s.newestSeqNum := by
    split
    · exact (trims_insertKeyframe x).newestSeqNum
    · rfl
  unfold onNewPacket newPacketSearches
  dsimp only
  rw [searches_sendBatch, hnewest]
  show (NackRequester.addPacketsToNack _ _ _ _).searches = _
  rw [searches_addPacketsToNack, List.length_append, List.length_cons]
  show (if isKeyframe then s.insertKeyframe env x else s).searches + 1 + _ = _
  rw [hinserted]
  cases isKeyframe <;> simp <;> omega

/-- No search of a step is missing. -/
theorem searches_step (e : Event) : (s.step env e).searches = s.searches + (s.stepSearches env e).length := by
  cases e with
  | packet x isKeyframe isRetransmitted =>
    by_cases hfirst : s.initialized = false
    · rw [step_first hfirst, stepSearches_first hfirst]
      cases isKeyframe
      · rfl
      · exact searches_insertKeyframe x
    · by_cases hsame : x = s.newestSeqNum
      · rw [step_same hfirst hsame, stepSearches_same hfirst hsame]
        rfl
      · by_cases hold : env.aheadOf s.newestSeqNum x = true
        · rw [step_old hfirst hsame hold, stepSearches_old hfirst hsame hold]
          unfold onOldPacket
          dsimp only
          split <;> split <;> rfl
        · rw [step_new hfirst hsame hold, stepSearches_new hfirst hsame hold]
          exact searches_onNewPacket isKeyframe
  | tick => exact searches_sendBatch _
  | updateRtt rttMs => rfl
  | wait ms => rfl

end Counts

end NackRequester
end Video
end XrtcServer
