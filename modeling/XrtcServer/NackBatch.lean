import XrtcServer.MapIterators
import XrtcServer.NackInvariants

/-! The loop of `GetNackBatch` with the iterator that it moves through the list, from which it
erases elements. -/
namespace XrtcServer
namespace Video
open MapIterators

/-- An iterator is dereferenced while the list has these keys. -/
structure Deref where
  it : Option UInt16
  keys : List UInt16
  deriving DecidableEq

/-- The iterator designates an element of the list, not its end and nothing that was erased. -/
def Deref.Present (d : Deref) : Prop := ∃ k ∈ d.keys, d.it = some k

/-- The variables of the loop. `derefs` has the iterators that are dereferenced and `examined`
the keys of the rounds, both in order; neither is a variable of the program. -/
structure BatchLoop where
  nackList : List (UInt16 × NackInfo)
  it : Option UInt16
  nackBatch : List UInt16 := []
  derefs : List Deref := []
  examined : List UInt16 := []

namespace BatchLoop

def deref (l : BatchLoop) : BatchLoop := { l with derefs := l.derefs ++ [⟨l.it, keyList l.nackList⟩] }

end BatchLoop

namespace NackRequester
variable (env : Environment) (logging : Bool) (s : NackRequester) (options : NackFilterOptions)

/-- A round with the iterator at this key. The message about the last retry has the number of
the element that comes behind the erased one. There is no result where the iterator has no
element. -/
def batchRound (k : UInt16) (l : BatchLoop) : Option BatchLoop :=
  let l := { l.deref with examined := l.examined ++ [k] }
  (value l.nackList (some k)).map fun info =>
    if s.canNack env options info then
      let l := { l with nackBatch := l.nackBatch ++ [info.seqNum] }
      let info := { info with retries := info.retries + 1, sendAtTime := s.clock }
      let l := { l with nackList := assign l.nackList k info }
      if info.retries ≥ kMaxNackRetries then
        let l := { l with it := next l.nackList k, nackList := erase l.nackList k }
        if logging then l.deref else l
      else { l with it := next l.nackList k }
    else { l with it := next l.nackList k }

/-- The loop with at most so many rounds. -/
def batchLoop : ℕ → BatchLoop → Option BatchLoop
  | 0, _ => none
  | rounds+1, l =>
    match l.it with
    | none => some l
    | some k => (s.batchRound env logging options k l).bind (batchLoop rounds)

def getNackBatchLoop : Option BatchLoop :=
  s.batchLoop env logging options (s.nackList.length + 1) { nackList := s.nackList, it := start s.nackList }

section Loop
variable {env : Environment} {logging : Bool} {s : NackRequester} {options : NackFilterOptions}
variable {l : BatchLoop} {done rest : List (UInt16 × NackInfo)} {k : UInt16} {info : NackInfo}

/-- What a round does when the iterator designates an element. -/
structure Round (env : Environment) (logging : Bool) (s : NackRequester) (options : NackFilterOptions)
    (done rest : List (UInt16 × NackInfo)) (entry : UInt16 × NackInfo) (l l' : BatchLoop) : Prop where
  it : l'.it = start rest
  nackList : l'.nackList = (done ++ (s.examine env options entry).toList) ++ rest
  nackBatch : l'.nackBatch = l.nackBatch ++ if s.canNack env options entry.2 then [entry.2.seqNum] else []
  examined : l'.examined = l.examined ++ [entry.1]
  derefs : l'.derefs = (l.derefs ++ [⟨some entry.1, keyList (done ++ entry :: rest)⟩]) ++
    if logging = true ∧ s.examine env options entry = none then [⟨start rest, keyList (done ++ rest)⟩] else []

theorem batchRound_spec (hit : l.it = some k) (hlist : l.nackList = done ++ (k, info) :: rest)
    (hdone : k ∉ keyList done) (hrest : k ∉ keyList rest) :
    ∃ l', s.batchRound env logging options k l = some l' ∧ Round env logging s options done rest (k, info) l l' := by
  have hvalue : value l.nackList (some k) = some info := by rw [hlist, value_split hdone]
  have hnext : next l.nackList k = start rest := by rw [hlist, next_split hdone]
  have hassign (b : NackInfo) : assign l.nackList k b = done ++ (k, b) :: rest := by
    rw [hlist, assign_split hdone hrest]
  unfold batchRound BatchLoop.deref
  dsimp only
  rw [hvalue, Option.map_some]
  refine ⟨_, rfl, ?_⟩
  by_cases hcan : s.canNack env options info = true
  · simp only [if_pos hcan, hassign, next_split hdone, erase_split hdone]
    by_cases hmany : info.retries + 1 ≥ kMaxNackRetries
    · have hexamine : s.examine env options (k, info) = none := by
        simp only [examine, if_pos hcan, if_pos hmany]
      rw [if_pos hmany]
      cases logging with
      | true => exact ⟨rfl, by simp [hexamine], by simp [hcan], rfl, by simp [hit, hlist, hexamine]⟩
      | false => exact ⟨rfl, by simp [hexamine], by simp [hcan], rfl, by simp [hit, hlist]⟩
    · have hexamine : s.examine env options (k, info) =
          some (k, { info with retries := info.retries + 1, sendAtTime := s.clock }) := by
        simp only [examine, if_pos hcan, if_neg hmany]
      rw [if_neg hmany]
      exact ⟨rfl, by simp [hexamine], by simp [hcan], rfl, by simp [hit, hlist, hexamine]⟩
  · have hexamine : s.examine env options (k, info) = some (k, info) := by
      simp only [examine, if_neg hcan]
    rw [if_neg hcan]
    exact ⟨hnext, by simp [hexamine, hlist], by simp [hcan], rfl, by simp [hit, hlist, hexamine]⟩

/-- What the loop does from an iterator on. -/
structure Rounds (env : Environment) (logging : Bool) (s : NackRequester) (options : NackFilterOptions)
    (done rest : List (UInt16 × NackInfo)) (l l' : BatchLoop) : Prop where
  nackList : l'.nackList = done ++ rest.filterMap (s.examine env options)
  nackBatch : l'.nackBatch =
    l.nackBatch ++ (rest.filter fun entry => s.canNack env options entry.2).map fun entry => entry.2.seqNum
  examined : l'.examined = l.examined ++ keyList rest
  present : (∀ d ∈ l'.derefs, d.Present) ↔ (∀ d ∈ l.derefs, d.Present) ∧
    ¬(logging = true ∧ ∃ entry, rest.getLast? = some entry ∧ s.examine env options entry = none)

/-- The start of the rest of the list is an element if there is one. -/
theorem present_start : Deref.Present ⟨start rest, keyList (done ++ rest)⟩ ↔ rest ≠ [] := by
  cases rest with
  | nil => simp [Deref.Present, start]
  | cons entry rest => simp [Deref.Present, start, keyList]

theorem keyList_examine (entry : UInt16 × NackInfo) :
    (keyList (s.examine env options entry).toList).Sublist [entry.1] := by
  cases hexamine : s.examine env options entry with
  | none => exact List.nil_sublist _
  | some entry' =>
    have hkey := examine_fst hexamine
    simp [keyList, hkey]

/-- By induction on the elements from the iterator on. -/
theorem batchLoop_spec (hnodup : (keyList (done ++ rest)).Nodup) (hlist : l.nackList = done ++ rest)
    (hit : l.it = start rest) {rounds : ℕ} (hrounds : rest.length < rounds) :
    ∃ l', s.batchLoop env logging options rounds l = some l' ∧ Rounds env logging s options done rest l l' := by
  induction rest generalizing done l rounds with
  | nil =>
    obtain ⟨rounds, rfl⟩ := Nat.exists_eq_succ_of_ne_zero (Nat.ne_of_gt hrounds)
    refine ⟨l, ?_, by simpa using hlist, by simp, by simp [keyList], by simp⟩
    have hend : l.it = none := hit
    rw [batchLoop, hend]
  | cons entry rest ih =>
    obtain ⟨rounds, rfl⟩ := Nat.exists_eq_succ_of_ne_zero (Nat.ne_of_gt (Nat.lt_of_le_of_lt (Nat.zero_le _) hrounds))
    obtain ⟨k, info⟩ := entry
    have hsome : l.it = some k := hit
    rw [keyList_append] at hnodup
    obtain ⟨-, hrest, hdisjoint⟩ := List.nodup_append.mp hnodup
    obtain ⟨hk, -⟩ := List.nodup_cons.mp hrest
    have hkdone : k ∉ keyList done := fun h => hdisjoint k h k List.mem_cons_self rfl
    obtain ⟨l₁, hround, h₁⟩ := @batchRound_spec env logging s options l done rest k info hsome hlist hkdone hk
    have hsub : (keyList ((done ++ (s.examine env options (k, info)).toList) ++ rest)).Sublist
        (keyList done ++ keyList ((k, info) :: rest)) := by
      rw [keyList_append, keyList_append, List.append_assoc]
      exact (List.Sublist.refl _).append ((keyList_examine (k, info)).append (List.Sublist.refl _))
    obtain ⟨l₂, hloop, h₂⟩ := ih (hsub.nodup hnodup) h₁.nackList h₁.it (Nat.lt_of_succ_lt_succ hrounds)
    refine ⟨l₂, ?_, ?_, ?_, ?_, ?_⟩
    · rw [batchLoop, hsome]
      simp only [hround, Option.bind_some]
      exact hloop
    · rw [h₂.nackList, List.append_assoc]
      cases hexamine : s.examine env options (k, info) <;> simp [hexamine]
    · rw [h₂.nackBatch, h₁.nackBatch]
      by_cases hcan : s.canNack env options info = true <;> simp [hcan]
    · rw [h₂.examined, h₁.examined]
      simp [keyList]
    · have hself : Deref.Present ⟨some k, keyList (done ++ (k, info) :: rest)⟩ := ⟨k, by simp [keyList], rfl⟩
      rw [h₂.present, h₁.derefs, List.forall_mem_append, List.forall_mem_append, List.forall_mem_singleton]
      cases rest with
      | nil =>
        have hend : ¬Deref.Present ⟨start ([] : List (UInt16 × NackInfo)), keyList done⟩ := fun ⟨_, _, h⟩ => nomatch h
        by_cases hlast : logging = true ∧ s.examine env options (k, info) = none
        · simp [hlast, hself, hend]
        · simp [hlast, hself]
      | cons entry rest =>
        have hbehind : Deref.Present ⟨start (entry :: rest), keyList (done ++ entry :: rest)⟩ :=
          present_start.mpr (List.cons_ne_nil _ _)
        rw [List.getLast?_cons_cons]
        by_cases hlast : logging = true ∧ s.examine env options (k, info) = none
        · simp [hlast, hself, hbehind]
        · simp [hlast, hself]

end Loop

section Batch
variable {env : Environment} {logging : Bool} {s : NackRequester} {options : NackFilterOptions}

theorem getNackBatchLoop_spec (hnodup : s.keys.Nodup) : ∃ l, s.getNackBatchLoop env logging options = some l ∧
    Rounds env logging s options [] s.nackList { nackList := s.nackList, it := start s.nackList } l :=
  @batchLoop_spec env logging s options _ [] s.nackList hnodup rfl rfl _ (Nat.lt_succ_self _)

/-- The loop ends, and with the list and the batch that the requester goes on with. -/
theorem getNackBatch_eq (hnodup : s.keys.Nodup) : ∃ l, s.getNackBatchLoop env logging options = some l ∧
    s.getNackBatch env options = ({ s with nackList := l.nackList }, l.nackBatch) := by
  obtain ⟨l, hloop, h⟩ := @getNackBatchLoop_spec env logging s options hnodup
  refine ⟨l, hloop, ?_⟩
  rw [h.nackList, h.nackBatch]
  rfl

/-- How often an element was asked for after the loop. -/
def retriesAfter (env : Environment) (s : NackRequester) (options : NackFilterOptions) (info : NackInfo) : ℕ :=
  if s.canNack env options info then info.retries + 1 else info.retries

/-- The loop dereferences elements of the list only, examines each one once, and removes
exactly those that were asked for ten times. -/
structure GoesWell (env : Environment) (s : NackRequester) (options : NackFilterOptions) (l : BatchLoop) : Prop where
  present : ∀ d ∈ l.derefs, d.Present
  once : ∀ k, l.examined.count k = if k ∈ s.keys then 1 else 0
  kept : (keyList l.nackList).Sublist s.keys
  removed : ∀ entry ∈ s.nackList,
    entry.1 ∉ keyList l.nackList ↔ s.retriesAfter env options entry.2 = kMaxNackRetries

/-- What is on the list was asked for nine times at most. -/
theorem Valid.examine_eq_none (h : Valid s) {entry : UInt16 × NackInfo} (hentry : entry ∈ s.nackList) :
    s.examine env options entry = none ↔ s.retriesAfter env options entry.2 = kMaxNackRetries := by
  have hfewer := (h.listed entry hentry).fewer
  unfold examine retriesAfter
  dsimp only
  split
  · split
    · rename_i hmany
      simpa using Nat.le_antisymm hfewer hmany
    · rename_i hfew
      simpa using Nat.ne_of_lt (Nat.not_le.mp hfew)
  · simpa using Nat.ne_of_lt hfewer

theorem Valid.mem_examined (h : Valid s) {entry : UInt16 × NackInfo} (hentry : entry ∈ s.nackList) :
    entry.1 ∈ keyList (s.nackList.filterMap (s.examine env options)) ↔ s.examine env options entry ≠ none := by
  constructor
  · intro hmem hnone
    obtain ⟨entry', hentry', hkey⟩ := List.mem_map.mp hmem
    obtain ⟨old, hold, hexamine⟩ := List.mem_filterMap.mp hentry'
    have hsame : old.1 = entry.1 := (examine_fst hexamine).symm.trans hkey
    obtain rfl := List.inj_on_of_nodup_map h.ordered.nodup hold hentry hsame
    rw [hnone] at hexamine
    cases hexamine
  · intro hsome
    obtain ⟨entry', hexamine⟩ := Option.ne_none_iff_exists'.mp hsome
    rw [← examine_fst hexamine]
    exact List.mem_map_of_mem (List.mem_filterMap.mpr ⟨entry, hentry, hexamine⟩)

/-- With a message for each removed element, the loop goes well unless it removes the last
one of the list. -/
theorem Valid.goesWell_iff (h : Valid s) :
    (∃ l, s.getNackBatchLoop env logging options = some l ∧ GoesWell env s options l) ↔
      ¬(logging = true ∧ ∃ entry, s.nackList.getLast? = some entry ∧
        s.retriesAfter env options entry.2 = kMaxNackRetries) := by
  have hnodup : s.keys.Nodup := h.ordered.nodup
  obtain ⟨l, hloop, hrounds⟩ := @getNackBatchLoop_spec env logging s options hnodup
  have hlast : (∀ d ∈ l.derefs, d.Present) ↔ ¬(logging = true ∧ ∃ entry, s.nackList.getLast? = some entry ∧
      s.retriesAfter env options entry.2 = kMaxNackRetries) := by
    have hsame (entry : UInt16 × NackInfo) (hentry : s.nackList.getLast? = some entry) :
        s.examine env options entry = none ↔ s.retriesAfter env options entry.2 = kMaxNackRetries :=
      h.examine_eq_none (List.mem_of_getLast? hentry)
    rw [hrounds.present, and_iff_right (by simp)]
    refine not_congr (and_congr_right fun _ => exists_congr fun entry => and_congr_right fun hentry => ?_)
    exact hsame entry hentry
  rw [← hlast]
  constructor
  · rintro ⟨l', hloop', hgood⟩
    obtain rfl := Option.some.inj (hloop.symm.trans hloop')
    exact hgood.present
  · intro hpresent
    refine ⟨l, hloop, hpresent, fun k => ?_, ?_, fun entry hentry => ?_⟩
    · have hexamined : l.examined = s.keys := hrounds.examined
      rw [hexamined, hnodup.count]
    · rw [hrounds.nackList]
      exact keys_filterMap_sublist _
    · rw [hrounds.nackList, List.nil_append, h.mem_examined hentry, not_not]
      exact h.examine_eq_none hentry

variable (env) in
/-- In every reachable state, at every time. -/
theorem run_goesWell_iff (clock : ℕ) (es : List Event) (options : NackFilterOptions) (logging : Bool) :
    let s := Runs.run (NackRequester.step env) { clock } es
    (∃ l, s.getNackBatchLoop env logging options = some l ∧ GoesWell env s options l) ↔
      ¬(logging = true ∧ ∃ entry, s.nackList.getLast? = some entry ∧
        s.retriesAfter env options entry.2 = kMaxNackRetries) :=
  ((valid_start clock).run env es).goesWell_iff

/-- The only number that is missing is asked for the tenth time. -/
theorem tenth_retry_not_well :
    let s := Runs.run (NackRequester.step plainEnvironment) {} ([.packet 0 false false, .packet 2 false false] ++
      (List.replicate 8 [.wait 101, .tick]).flatten ++ [.wait 101])
    ¬∃ l, s.getNackBatchLoop plainEnvironment true .timeOnly = some l ∧ GoesWell plainEnvironment s .timeOnly l := by
  dsimp only
  rw [((valid_start 0).run plainEnvironment _).goesWell_iff, not_not]
  exact ⟨rfl, (1, { seqNum := 1, sendAtSeqNum := 1, createdTime := 0, sendAtTime := 808, retries := 9 }),
    by decide +kernel, by decide +kernel⟩

end Batch

end NackRequester
end Video
end XrtcServer
