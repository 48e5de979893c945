import XrtcServer.Runs
import Mathlib.Data.Nat.Basic
import Mathlib.Algebra.Group.Nat.Defs

/-! The NACK requester of a video receive stream: which sequence numbers are missing, and when
they are asked for again. A `std::map` and a `std::set` are lists in the order in which they
are iterated over. -/
namespace XrtcServer
namespace Video

def kMaxNackRetries : ℕ := 10
def kDefaultRttMs : ℤ := 100
def kMaxPacketAge : UInt16 := 10000
def kMaxNackPackets : ℕ := 1000
def kMaxReorderingPackets : ℕ := 128
def kNumReorderingBuckets : ℕ := 10

/-- The functions of `sequence_number_util.h`. Of two numbers that are furthest apart the
higher one is ahead. -/
structure SequenceNumberUtil where
  aheadOf : UInt16 → UInt16 → Bool
  forwardDiff : UInt16 → UInt16 → UInt16
  reverseDiff : UInt16 → UInt16 → UInt16
  descendingSeqNumComp : UInt16 → UInt16 → Bool
  aheadOf_iff : ∀ a b, aheadOf a b = true ↔
    a ≠ b ∧ ((a - b).toNat < 2^15 ∨ (a - b).toNat = 2^15 ∧ b < a)
  forwardDiff_eq : ∀ a b, forwardDiff a b = b - a
  reverseDiff_eq : ∀ a b, reverseDiff a b = a - b
  descendingSeqNumComp_eq : ∀ a b, descendingSeqNumComp a b = aheadOf b a

/-- What the requester does not control. The tree behind a map or set finds the first key that
is not before another one if there is such a place, whatever its shape is, and any place
else; a search is known by its number. The probability of the histogram is a `float`. -/
structure Environment extends SequenceNumberUtil where
  lowerBound : ℕ → List UInt16 → UInt16 → ℕ
  inverseCdf : List ℕ → List ℕ → ℕ
  lowerBound_eq : ∀ n keys x,
    keys.Pairwise (fun a b => descendingSeqNumComp b x = true → descendingSeqNumComp a x = true) →
      lowerBound n keys x = (keys.takeWhile fun k => descendingSeqNumComp k x).length

structure Histogram where
  buckets : List ℕ := List.replicate kNumReorderingBuckets 0
  values : List ℕ := []
  index : ℕ := 0

namespace Histogram

def add (h : Histogram) (value : ℕ) : Histogram :=
  let value := min value (h.buckets.length - 1)
  let h :=
    match h.values[h.index]? with
    | some old => { h with buckets := h.buckets.modify old (· - 1), values := h.values.set h.index value }
    | none => { h with values := h.values ++ [value] }
  { h with buckets := h.buckets.modify value (· + 1), index := (h.index + 1) % kMaxReorderingPackets }

def numValues (h : Histogram) : ℕ := h.values.length

end Histogram

structure NackInfo where
  seqNum : UInt16 := 0
  sendAtSeqNum : UInt16 := 0
  createdTime : ℤ := -1
  sendAtTime : ℤ := -1
  retries : ℕ := 0
  deriving DecidableEq, Repr

inductive NackFilterOptions
  | seqNumOnly | timeOnly | seqNumAndTime
  deriving DecidableEq, Repr

/-- What happened: a packet came, a number was put on the list, or a batch went out while the
list had these numbers. -/
inductive Mark
  | received (seqNum : UInt16)
  | added (seqNum : UInt16)
  | sent (batch list : List UInt16) (now : ℕ) (rttMs : ℤ)
  deriving DecidableEq, Repr

/-- `clock` is the time in milliseconds. `searches` counts the searches in trees, and
`history` has what happened, the last first; neither is a variable of the program. -/
structure NackRequester where
  clock : ℕ := 0
  initialized : Bool := false
  newestSeqNum : UInt16 := 0
  nackList : List (UInt16 × NackInfo) := []
  rttMs : ℤ := kDefaultRttMs
  keyframeList : List UInt16 := []
  sendNackDelayMs : ℤ := 0
  reorderingHistogram : Histogram := {}
  searches : ℕ := 0
  history : List Mark := []

namespace NackRequester
variable (env : Environment) (s : NackRequester)

def keys : List UInt16 := s.nackList.map Prod.fst

def note (m : Mark) : NackRequester := { s with history := m :: s.history }

section Trees

def search (keys : List UInt16) (x : UInt16) : NackRequester × ℕ :=
  ({ s with searches := s.searches + 1 }, min (env.lowerBound s.searches keys x) keys.length)

/-- The key at the place of a search is the one that was searched for. -/
def hits (keys : List UInt16) (i : ℕ) (x : UInt16) : Bool :=
  match keys[i]? with
  | none => false
  | some k => !env.descendingSeqNumComp x k

def insertKeyframe (seqNum : UInt16) : NackRequester :=
  let (s, i) := s.search env s.keyframeList seqNum
  if hits env s.keyframeList i seqNum then s
  else { s with keyframeList := s.keyframeList.insertIdx i seqNum }

/-- `nack_list_[seq_num] = nack_info`. -/
def setNack (seqNum : UInt16) (nackInfo : NackInfo) : NackRequester :=
  let (s, i) := s.search env s.keys seqNum
  if hits env s.keys i seqNum then
    { s with nackList := s.nackList.modify i fun entry => (entry.1, nackInfo) }
  else { s with nackList := s.nackList.insertIdx i (seqNum, nackInfo) }

end Trees

def updateReorderingStat (seqNum : UInt16) : NackRequester :=
  let diff := (env.reverseDiff s.newestSeqNum seqNum).toNat
  { s with reorderingHistogram := s.reorderingHistogram.add diff }

/-- `WaitNumberOfPackets(0.5)`. -/
def waitNumberOfPackets : ℕ :=
  if s.reorderingHistogram.numValues = 0 then 0
  else env.inverseCdf s.reorderingHistogram.buckets s.reorderingHistogram.values

/-- `RemovePacketsUntilKeyFrame` for these keyframes. -/
def removeUntil (s : NackRequester) : List UInt16 → NackRequester × Bool
  | [] => ({ s with keyframeList := [] }, false)
  | keyframe :: keyframes =>
    let (s, i) := s.search env s.keys keyframe
    if i ≠ 0 then
      ({ s with nackList := s.nackList.drop i, keyframeList := keyframe :: keyframes }, true)
    else removeUntil s keyframes

def removePacketsUntilKeyFrame : NackRequester × Bool := s.removeUntil env s.keyframeList

theorem length_removeUntil {s : NackRequester} {keyframes : List UInt16}
    (h : (s.removeUntil env keyframes).2 = true) :
    (s.removeUntil env keyframes).1.nackList.length < s.nackList.length := by
  induction keyframes generalizing s with
  | nil => cases h
  | cons keyframe keyframes ih =>
    simp only [removeUntil] at h ⊢
    by_cases hi : (s.search env s.keys keyframe).2 ≠ 0
    · rw [if_pos hi]
      have hle : (s.search env s.keys keyframe).2 ≤ s.nackList.length :=
        Nat.le_trans (Nat.min_le_right _ _) (Nat.le_of_eq (List.length_map _))
      show (s.nackList.drop _).length < s.nackList.length
      rw [List.length_drop]
      omega
    · rw [if_neg hi] at h ⊢
      exact ih h

/-- The loop that calls it as long as there is no room for so many new numbers. -/
def makeRoom (s : NackRequester) (newNackNum : ℕ) : NackRequester :=
  let result := s.removePacketsUntilKeyFrame env
  if _h : result.2 = true then
    if result.1.nackList.length + newNackNum > kMaxNackPackets then makeRoom result.1 newNackNum
    else result.1
  else result.1
termination_by s.nackList.length
decreasing_by exact length_removeUntil env ‹_›

/-- The loop of `AddPacketsToNack`, for so many numbers. -/
def addNumbers : ℕ → UInt16 → NackRequester → NackRequester
  | 0, _, s => s
  | n+1, seqNum, s =>
    let nackInfo : NackInfo :=
      { seqNum
        sendAtSeqNum := seqNum + UInt16.ofNat (s.waitNumberOfPackets env)
        createdTime := s.clock }
    addNumbers n (seqNum + 1) ((s.setNack env seqNum nackInfo).note (.added seqNum))

def addPacketsToNack (seqNumStart seqNumEnd : UInt16) : NackRequester :=
  let (s, i) := s.search env s.keys (seqNumEnd - kMaxPacketAge)
  let s := { s with nackList := s.nackList.drop i }
  let newNackNum := (env.forwardDiff seqNumStart seqNumEnd).toNat
  let s :=
    if s.nackList.length + newNackNum > kMaxNackPackets then s.makeRoom env newNackNum else s
  if s.nackList.length + newNackNum > kMaxNackPackets then { s with nackList := [] }
  else s.addNumbers env (seqNumEnd - seqNumStart).toNat seqNumStart

/-- Whether `GetNackBatch` sends this one now. -/
def canNack (options : NackFilterOptions) (info : NackInfo) : Bool :=
  let considerSeqNum := options ≠ .timeOnly
  let considerTimestamp := options ≠ .seqNumOnly
  let delayTimeout := s.clock - info.createdTime ≥ s.sendNackDelayMs
  let canNackSeqNumPassed := info.sendAtTime = -1 && env.aheadOf s.newestSeqNum info.sendAtSeqNum
  let canNackTimestampPassed := s.clock - info.sendAtTime > s.rttMs
  delayTimeout && (considerSeqNum && canNackSeqNumPassed || considerTimestamp && canNackTimestampPassed)

/-- What is left of an element of the list after the loop. -/
def examine (options : NackFilterOptions) (entry : UInt16 × NackInfo) : Option (UInt16 × NackInfo) :=
  let info := entry.2
  if s.canNack env options info then
    let info := { info with retries := info.retries + 1, sendAtTime := s.clock }
    if info.retries ≥ kMaxNackRetries then none else some (entry.1, info)
  else some entry

def getNackBatch (options : NackFilterOptions) : NackRequester × List UInt16 :=
  ({ s with nackList := s.nackList.filterMap (s.examine env options) },
    (s.nackList.filter fun entry => s.canNack env options entry.2).map fun entry => entry.2.seqNum)

/-- The batch is signalled if there is something in it. -/
def sendBatch (options : NackFilterOptions) : NackRequester :=
  let (t, batch) := s.getNackBatch env options
  if batch = [] then t else t.note (.sent batch s.keys s.clock s.rttMs)

def processNacks : NackRequester := s.sendBatch env .timeOnly

/-- A packet that is older than the newest one. -/
def onOldPacket (seqNum : UInt16) (isRetransmitted : Bool) : NackRequester × ℕ :=
  let (s, i) := s.search env s.keys seqNum
  let (s, nacksSentForPacket) :=
    if hits env s.keys i seqNum then
      ({ s with nackList := s.nackList.eraseIdx i }, (s.nackList[i]?.map fun entry => entry.2.retries).getD 0)
    else (s, 0)
  (if isRetransmitted then s else s.updateReorderingStat env seqNum, nacksSentForPacket)

def trimKeyframes (seqNum : UInt16) : NackRequester :=
  let (s, i) := s.search env s.keyframeList (seqNum - kMaxPacketAge)
  { s with keyframeList := s.keyframeList.drop i }

def onNewPacket (seqNum : UInt16) (isKeyframe : Bool) : NackRequester :=
  let s := if isKeyframe then s.insertKeyframe env seqNum else s
  let s := (s.trimKeyframes env seqNum).addPacketsToNack env (s.newestSeqNum + 1) seqNum
  { s with newestSeqNum := seqNum }.sendBatch env .seqNumOnly

def onReceivedPacket (seqNum : UInt16) (isKeyframe isRetransmitted : Bool) : NackRequester × ℕ :=
  let s := s.note (.received seqNum)
  if !s.initialized then
    let s := { s with newestSeqNum := seqNum }
    ({ (if isKeyframe then s.insertKeyframe env seqNum else s) with initialized := true }, 0)
  else if seqNum = s.newestSeqNum then (s, 0)
  else if env.aheadOf s.newestSeqNum seqNum then s.onOldPacket env seqNum isRetransmitted
  else (s.onNewPacket env seqNum isKeyframe, 0)

/-- The timer of the requester ticks, and time passes. -/
inductive Event
  | packet (seqNum : UInt16) (isKeyframe isRetransmitted : Bool)
  | tick
  | updateRtt (rttMs : ℤ)
  | wait (ms : ℕ)

def step (e : Event) : NackRequester :=
  match e with
  | .packet seqNum isKeyframe isRetransmitted =>
    (s.onReceivedPacket env seqNum isKeyframe isRetransmitted).1
  | .tick => s.processNacks env
  | .updateRtt rttMs => { s with rttMs }
  | .wait ms => { s with clock := s.clock + ms }

end NackRequester
end Video
end XrtcServer
