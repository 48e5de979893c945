import XrtcServer.ReceptionReports
import XrtcServer.RingScan
import Mathlib.Data.List.GetD
import Mathlib.Logic.Function.Basic

/-! The statistics of all streams that come in on a connection, and how their report blocks take
turns where a report does not hold all of them. -/
namespace XrtcServer
namespace Rtp
open XrtcServer.Rtcp (ReportBlock)

/-- `ReceiveStatisticsImpl`. -/
structure ReceiveStatistics where
  lastReturnedSsrcIdx : ℕ := 0
  allSsrcs : List UInt32 := []
  maxReorderingThreshold : ℤ := kDefaultMaxReorderingThreshold
  statisticians : UInt32 → Option StreamStatistician := fun _ => none

namespace ReceiveStatistics
variable (env : ReceiveEnvironment) (s : ReceiveStatistics)

def getOrCreateStatistician (ssrc : UInt32) : StreamStatistician × ReceiveStatistics :=
  match s.statisticians ssrc with
  | some impl => (impl, s)
  | none =>
    let impl := StreamStatistician.create ssrc s.maxReorderingThreshold
    (impl, { s with statisticians := Function.update s.statisticians ssrc (some impl)
                    allSsrcs := s.allSsrcs ++ [ssrc] })

/-- What is behind a pointer to a statistician. -/
def store (ssrc : UInt32) (impl : StreamStatistician) : ReceiveStatistics :=
  { s with statisticians := Function.update s.statisticians ssrc (some impl) }

def onRtpPacket (packet : RtpPacketReceived) (nowMs : ℤ) : Except Fault ReceiveStatistics := do
  let (impl, s) := s.getOrCreateStatistician packet.ssrc
  let impl ← impl.updateCounters env packet nowMs
  return s.store packet.ssrc impl

def setMaxReorderingThreshold (maxReorderingThreshold : ℤ) : ReceiveStatistics :=
  { s with maxReorderingThreshold
           statisticians := fun ssrc => (s.statisticians ssrc).map fun impl => { impl with maxReorderingThreshold } }

def setMaxReorderingThresholdOf (ssrc : UInt32) (maxReorderingThreshold : ℤ) : ReceiveStatistics :=
  let (impl, s) := s.getOrCreateStatistician ssrc
  s.store ssrc { impl with maxReorderingThreshold }

def enableRetransmitDetection (ssrc : UInt32) (enable : Bool) : ReceiveStatistics :=
  let (impl, s) := s.getOrCreateStatistician ssrc
  s.store ssrc { impl with enableRetransmitDetection := enable }

/-- The statistics, the blocks so far, and the index that was looked at last. -/
structure Collecting where
  statistics : ReceiveStatistics
  result : List ReportBlock
  ssrcIdx : ℕ

/-- A round of the loop in `RtcpReportBlocks`. All numbers in the list have a statistician. -/
def Collecting.round (nowMs : ℤ) (c : Collecting) (i : ℕ) : Collecting :=
  let s := c.statistics
  let ssrcIdx := (s.lastReturnedSsrcIdx + i + 1) % s.allSsrcs.length
  let mediaSsrc := s.allSsrcs.getD ssrcIdx 0
  match s.statisticians mediaSsrc with
  | none => { c with ssrcIdx }
  | some impl =>
    let (block, impl) := impl.maybeAppendReportBlockAndReset nowMs
    { statistics := s.store mediaSsrc impl, result := c.result ++ block.toList, ssrcIdx }

def Collecting.loop (maxBlocks : ℕ) (nowMs : ℤ) : List ℕ → Collecting → Collecting
  | [], c => c
  | i :: is, c => if c.result.length < maxBlocks then loop maxBlocks nowMs is (c.round nowMs i) else c

def rtcpReportBlocks (maxBlocks : ℕ) (nowMs : ℤ) : List ReportBlock × ReceiveStatistics :=
  let c := Collecting.loop maxBlocks nowMs (List.range s.allSsrcs.length) ⟨s, [], 0⟩
  (c.result, { c.statistics with lastReturnedSsrcIdx := c.ssrcIdx })

inductive Event
  | onRtpPacket (packet : RtpPacketReceived) (nowMs : ℤ)
  | rtcpReportBlocks (maxBlocks : ℕ) (nowMs : ℤ)
  | setMaxReorderingThreshold (maxReorderingThreshold : ℤ)
  | setMaxReorderingThresholdOf (ssrc : UInt32) (maxReorderingThreshold : ℤ)
  | enableRetransmitDetection (ssrc : UInt32) (enable : Bool)

/-- A step with the report blocks that it gives. -/
def step : Event → Except Fault (List ReportBlock × ReceiveStatistics)
  | .onRtpPacket packet nowMs => (s.onRtpPacket env packet nowMs).map ([], ·)
  | .rtcpReportBlocks maxBlocks nowMs => .ok (s.rtcpReportBlocks maxBlocks nowMs)
  | .setMaxReorderingThreshold threshold => .ok ([], s.setMaxReorderingThreshold threshold)
  | .setMaxReorderingThresholdOf ssrc threshold => .ok ([], s.setMaxReorderingThresholdOf ssrc threshold)
  | .enableRetransmitDetection ssrc enable => .ok ([], s.enableRetransmitDetection ssrc enable)

/-- A run with all report blocks that it gives. -/
def run (s : ReceiveStatistics) : List Event → Except Fault (List ReportBlock × ReceiveStatistics)
  | [] => .ok ([], s)
  | e :: es => do
    let (blocks, s) ← s.step env e
    let (blocks', s) ← run s es
    return (blocks ++ blocks', s)

variable {env s}

/-- A stream from which a packet has come lately. -/
def active (s : ReceiveStatistics) (nowMs : ℤ) (ssrc : UInt32) : Bool :=
  (s.statisticians ssrc).any fun impl => nowMs - impl.lastReceiveTimeMs < kStatisticsTimeoutMs && impl.receivedRtpPacket

/-- Every stream has one statistician, which was run from its creation on. -/
structure Keyed (env : ReceiveEnvironment) (s : ReceiveStatistics) : Prop where
  nodup : s.allSsrcs.Nodup
  mem_iff : ∀ ssrc, ssrc ∈ s.allSsrcs ↔ (s.statisticians ssrc).isSome
  named : ∀ ssrc impl, s.statisticians ssrc = some impl → impl.ssrc = ssrc
  reachable : ∀ ssrc impl, s.statisticians ssrc = some impl → ∃ threshold es,
    StreamStatistician.run env (StreamStatistician.create ssrc threshold) es = .ok impl

section Keys
variable {ssrc : UInt32} {impl impl' : StreamStatistician} {e : StreamStatistician.Event}

theorem reachable_step {threshold : ℤ} {es : List StreamStatistician.Event}
    (h : StreamStatistician.run env (StreamStatistician.create ssrc threshold) es = .ok impl)
    (hstep : StreamStatistician.step env impl e = .ok impl') :
    StreamStatistician.run env (StreamStatistician.create ssrc threshold) (es ++ [e]) = .ok impl' := by
  rw [StreamStatistician.run, ExceptFolds.foldlM_append_eq h, ExceptFolds.foldlM_cons_ok hstep]
  rfl

theorem counts_ssrc {s s' : StreamStatistician} {packet : RtpPacketReceived} {nowMs : ℤ}
    (h : StreamStatistician.Counts env s packet nowMs s') : s'.ssrc = s.ssrc := by
  have hcounted : (s.counted packet nowMs).ssrc = s.ssrc := by
    rw [StreamStatistician.counted, StreamStatistician.countPostponed]
    split <;> rfl
  cases h with
  | first hnone =>
    rw [StreamStatistician.updateInOrder_eq]
    rfl
  | restart hsome hnext =>
    rw [StreamStatistician.updateInOrder_eq]
    exact hcounted
  | jump hsome hfar => exact hcounted
  | ahead hsome hnear hlt =>
    rw [StreamStatistician.updateInOrder_eq]
    exact hcounted
  | late hsome hnear hle retransmitted => exact hcounted

theorem step_ssrc (hstep : StreamStatistician.step env impl e = .ok impl') : impl'.ssrc = impl.ssrc := by
  cases e with
  | packet packet nowMs => exact counts_ssrc (StreamStatistician.counts_of_updateCounters hstep)
  | report nowMs =>
    cases hstep
    obtain ⟨offset, capped, loss, seqMax, heq⟩ := StreamStatistician.report_eq impl nowMs
    rw [heq]
  | setMaxReorderingThreshold threshold =>
    cases hstep
    rfl
  | enableRetransmitDetection enable =>
    cases hstep
    rfl

theorem update_eq_some {f : UInt32 → Option StreamStatistician} {other : UInt32} :
    Function.update f ssrc (some impl) other = some impl' → other = ssrc ∧ impl = impl' ∨ f other = some impl' := by
  intro h
  by_cases heq : other = ssrc
  · rw [heq, Function.update_self] at h
    exact .inl ⟨heq, Option.some.inj h⟩
  · rw [Function.update_of_ne heq] at h
    exact .inr h

theorem store_same (s : ReceiveStatistics) (ssrc : UInt32) (impl : StreamStatistician) :
    (s.store ssrc impl).statisticians ssrc = some impl := Function.update_self ..

theorem store_other (s : ReceiveStatistics) (impl : StreamStatistician) {other : UInt32} (h : other ≠ ssrc) :
    (s.store ssrc impl).statisticians other = s.statisticians other := Function.update_of_ne h ..

/-- A statistician that is there makes a step of its own. -/
theorem Keyed.store (h : Keyed env s) (hsome : s.statisticians ssrc = some impl)
    (hstep : StreamStatistician.step env impl e = .ok impl') : Keyed env (s.store ssrc impl') := by
  refine ⟨h.nodup, fun other => ?_, fun other found hfound => ?_, fun other found hfound => ?_⟩
  · rw [ReceiveStatistics.store]
    by_cases heq : other = ssrc
    · simp [heq, h.mem_iff, hsome]
    · simp [heq, h.mem_iff]
  · cases update_eq_some hfound with
    | inl hhere =>
      obtain ⟨rfl, rfl⟩ := hhere
      exact (step_ssrc hstep).trans (h.named _ _ hsome)
    | inr hthere => exact h.named other found hthere
  · cases update_eq_some hfound with
    | inl hhere =>
      obtain ⟨rfl, rfl⟩ := hhere
      obtain ⟨threshold, es, hrun⟩ := h.reachable _ _ hsome
      exact ⟨threshold, es ++ [e], reachable_step hrun hstep⟩
    | inr hthere => exact h.reachable other found hthere

theorem Keyed.getOrCreate (h : Keyed env s) (ssrc : UInt32) :
    Keyed env (s.getOrCreateStatistician ssrc).2 ∧
      (s.getOrCreateStatistician ssrc).2.statisticians ssrc = some (s.getOrCreateStatistician ssrc).1 ∧
      s.allSsrcs <+: (s.getOrCreateStatistician ssrc).2.allSsrcs := by
  rw [getOrCreateStatistician]
  cases hfind : s.statisticians ssrc with
  | some impl => exact ⟨h, hfind, List.prefix_rfl⟩
  | none =>
    have hnew : ssrc ∉ s.allSsrcs := by
      rw [h.mem_iff, hfind]
      simp
    refine ⟨⟨?_, fun other => ?_, fun other found hfound => ?_, fun other found hfound => ?_⟩,
      Function.update_self .., List.prefix_append _ _⟩
    · exact List.nodup_append.mpr ⟨h.nodup, List.nodup_singleton ssrc, by simpa using fun a ha => ne_of_mem_of_not_mem ha hnew⟩
    · by_cases heq : other = ssrc
      · simp [heq]
      · simp [heq, h.mem_iff]
    · cases update_eq_some hfound with
      | inl hhere =>
        obtain ⟨rfl, rfl⟩ := hhere
        rfl
      | inr hthere => exact h.named other found hthere
    · cases update_eq_some hfound with
      | inl hhere =>
        obtain ⟨rfl, rfl⟩ := hhere
        exact ⟨s.maxReorderingThreshold, [], rfl⟩
      | inr hthere => exact h.reachable other found hthere

/-- A function that finds or makes a statistician and lets it make a step. -/
theorem Keyed.stepOf (h : Keyed env s)
    (hstep : StreamStatistician.step env (s.getOrCreateStatistician ssrc).1 e = .ok impl') :
    Keyed env ((s.getOrCreateStatistician ssrc).2.store ssrc impl') ∧
      s.allSsrcs <+: ((s.getOrCreateStatistician ssrc).2.store ssrc impl').allSsrcs := by
  obtain ⟨hkeyed, hsome, hgrown⟩ := h.getOrCreate ssrc
  exact ⟨hkeyed.store hsome hstep, hgrown⟩

theorem Keyed.setMaxReorderingThreshold (h : Keyed env s) (threshold : ℤ) :
    Keyed env (s.setMaxReorderingThreshold threshold) := by
  refine ⟨h.nodup, fun other => ?_, fun other found hfound => ?_, fun other found hfound => ?_⟩
  · rw [ReceiveStatistics.setMaxReorderingThreshold, Option.isSome_map]
    exact h.mem_iff other
  · obtain ⟨impl, hsome, rfl⟩ := Option.map_eq_some_iff.mp hfound
    exact h.named other impl hsome
  · obtain ⟨impl, hsome, rfl⟩ := Option.map_eq_some_iff.mp hfound
    obtain ⟨first, es, hrun⟩ := h.reachable other impl hsome
    exact ⟨first, es ++ [.setMaxReorderingThreshold threshold], reachable_step hrun rfl⟩

end Keys

section Rounds
variable {maxBlocks k : ℕ} {nowMs : ℤ} {c : Collecting}

theorem append_isSome (impl : StreamStatistician) (nowMs : ℤ) : (impl.maybeAppendReportBlockAndReset nowMs).1.isSome =
    (nowMs - impl.lastReceiveTimeMs < kStatisticsTimeoutMs && impl.receivedRtpPacket) := by
  rw [StreamStatistician.maybeAppendReportBlockAndReset]
  split
  · rename_i htime
    rw [decide_eq_false (by omega)]
    rfl
  · rename_i htime
    rw [decide_eq_true (by omega)]
    split
    · rename_i hnone
      simpa using hnone
    · rename_i hsome
      simpa using hsome

/-- A report leaves a stream as active as it was. -/
theorem active_store_report {ssrc other : UInt32} {impl : StreamStatistician} (hsome : s.statisticians ssrc = some impl)
    (t nowMs : ℤ) : (s.store ssrc (impl.maybeAppendReportBlockAndReset t).2).active nowMs other = s.active nowMs other := by
  rw [active, active]
  by_cases heq : other = ssrc
  · obtain ⟨offset, capped, loss, seqMax, hreport⟩ := StreamStatistician.report_eq impl t
    rw [heq, store_same, hsome, hreport]
    rfl
  · rw [store_other _ _ heq]

/-- The state after so many rounds. -/
structure Collected (env : ReceiveEnvironment) (s : ReceiveStatistics) (nowMs : ℤ) (k : ℕ) (c : Collecting) : Prop where
  keyed : Keyed env c.statistics
  allSsrcs : c.statistics.allSsrcs = s.allSsrcs
  last : c.statistics.lastReturnedSsrcIdx = s.lastReturnedSsrcIdx
  active : ∀ t ssrc, c.statistics.active t ssrc = s.active t ssrc
  result : c.result.map ReportBlock.sourceSsrc =
    ((RingScan.behind s.allSsrcs.length s.lastReturnedSsrcIdx k).map (s.allSsrcs.getD · 0)).filter (s.active nowMs)
  ssrcIdx : 0 < k → c.ssrcIdx = (s.lastReturnedSsrcIdx + k) % s.allSsrcs.length

/-- The block of a stream carries its number, and there is one if it is active. -/
theorem block_ssrc (h : Keyed env s) {ssrc : UInt32} {impl : StreamStatistician} (hsome : s.statisticians ssrc = some impl)
    (nowMs : ℤ) : (impl.maybeAppendReportBlockAndReset nowMs).1.toList.map ReportBlock.sourceSsrc =
      [ssrc].filter (s.active nowMs) := by
  have hactive : s.active nowMs ssrc = (impl.maybeAppendReportBlockAndReset nowMs).1.isSome := by
    rw [active, hsome, append_isSome]
    rfl
  cases hblock : (impl.maybeAppendReportBlockAndReset nowMs).1 with
  | none =>
    rw [hblock] at hactive
    rw [List.filter_singleton, hactive]
    rfl
  | some block =>
    have hreports : impl.Reports block (impl.maybeAppendReportBlockAndReset nowMs).2 :=
      StreamStatistician.reports_of_append (Prod.ext hblock rfl)
    rw [hblock] at hactive
    rw [List.filter_singleton, hactive, Option.toList_some, List.map_singleton, hreports.ssrc, h.named ssrc impl hsome]
    rfl

theorem Collected.round (h : Collected env s nowMs k c) (hk : k < s.allSsrcs.length) :
    Collected env s nowMs (k + 1) (c.round nowMs k) ∧ (c.round nowMs k).result.length ≤ c.result.length + 1 := by
  have hidx : (s.lastReturnedSsrcIdx + k + 1) % s.allSsrcs.length < s.allSsrcs.length := Nat.mod_lt _ (Nat.zero_lt_of_lt hk)
  obtain ⟨ssrc, hssrc⟩ : ∃ ssrc, s.allSsrcs.getD ((s.lastReturnedSsrcIdx + k + 1) % s.allSsrcs.length) 0 = ssrc := ⟨_, rfl⟩
  have hmem : ssrc ∈ s.allSsrcs := by
    rw [← hssrc, List.getD_eq_getElem _ _ hidx]
    exact List.getElem_mem hidx
  obtain ⟨impl, hsome⟩ : ∃ impl, c.statistics.statisticians ssrc = some impl := by
    rw [← h.allSsrcs, h.keyed.mem_iff] at hmem
    exact Option.isSome_iff_exists.mp hmem
  have hround : c.round nowMs k =
      { statistics := c.statistics.store ssrc (impl.maybeAppendReportBlockAndReset nowMs).2
        result := c.result ++ (impl.maybeAppendReportBlockAndReset nowMs).1.toList
        ssrcIdx := (s.lastReturnedSsrcIdx + k + 1) % s.allSsrcs.length } := by
    rw [Collecting.round, h.allSsrcs, h.last]
    dsimp only
    rw [hssrc, hsome]
  have hplaces : (RingScan.behind s.allSsrcs.length s.lastReturnedSsrcIdx (k + 1)).map (s.allSsrcs.getD · 0) =
      (RingScan.behind s.allSsrcs.length s.lastReturnedSsrcIdx k).map (s.allSsrcs.getD · 0) ++ [ssrc] := by
    rw [RingScan.behind, List.range_succ, List.map_append, List.map_append, ← RingScan.behind]
    simp only [List.map_singleton, hssrc]
  rw [hround]
  refine ⟨⟨?_, h.allSsrcs, h.last, fun t other => ?_, ?_, fun _ => by rw [Nat.add_assoc]⟩, ?_⟩
  · exact h.keyed.store hsome (e := .report nowMs) rfl
  · dsimp only
    rw [active_store_report hsome, h.active]
  · have hblock := block_ssrc h.keyed hsome nowMs
    have hsame : c.statistics.active nowMs = s.active nowMs := funext (h.active nowMs)
    rw [List.map_append, h.result, hblock, hsame, hplaces, List.filter_append]
  · rw [List.length_append]
    cases (impl.maybeAppendReportBlockAndReset nowMs).1 <;> simp

/-- The loop leaves when it has looked at all streams or the report is full. -/
theorem collected_loop (h : Collected env s nowMs k c) (hlen : c.result.length ≤ maxBlocks)
    (hk : k ≤ s.allSsrcs.length) :
    ∃ k', k ≤ k' ∧ k' ≤ s.allSsrcs.length ∧
      Collected env s nowMs k' (Collecting.loop maxBlocks nowMs (List.range' k (s.allSsrcs.length - k)) c) ∧
      (Collecting.loop maxBlocks nowMs (List.range' k (s.allSsrcs.length - k)) c).result.length ≤ maxBlocks ∧
      (c.result.length < maxBlocks → k < s.allSsrcs.length → k < k') := by
  obtain ⟨m, hm⟩ : ∃ m, s.allSsrcs.length - k = m := ⟨_, rfl⟩
  induction m generalizing k c with
  | zero =>
    rw [hm]
    exact ⟨k, le_rfl, hk, h, hlen, fun _ hlt => by omega⟩
  | succ m ih =>
    rw [hm, List.range'_succ, Collecting.loop]
    by_cases hroom : c.result.length < maxBlocks
    · rw [if_pos hroom]
      obtain ⟨hnext, hlonger⟩ := h.round (by omega)
      have hrest : s.allSsrcs.length - (k + 1) = m := by omega
      obtain ⟨k', hle, hle', hcollected, hlen', -⟩ := ih hnext (by omega) (by omega) hrest
      rw [hrest] at hcollected hlen'
      exact ⟨k', by omega, hle', hcollected, hlen', fun _ _ => by omega⟩
    · rw [if_neg hroom]
      exact ⟨k, le_rfl, hk, h, hlen, fun hlt => absurd hlt hroom⟩

/-- A call looks at some streams behind the one that was looked at last, at one of them at least, and gives
a block for each that is active. -/
structure Called (env : ReceiveEnvironment) (s : ReceiveStatistics) (maxBlocks : ℕ) (nowMs : ℤ) (k : ℕ)
    (blocks : List ReportBlock) (s' : ReceiveStatistics) : Prop where
  keyed : Keyed env s'
  allSsrcs : s'.allSsrcs = s.allSsrcs
  looked : s.allSsrcs ≠ [] → 0 < k
  last : s.allSsrcs ≠ [] → s'.lastReturnedSsrcIdx = (s.lastReturnedSsrcIdx + k) % s.allSsrcs.length
  blocks_le : blocks.length ≤ maxBlocks
  result : blocks.map ReportBlock.sourceSsrc =
    ((RingScan.behind s.allSsrcs.length s.lastReturnedSsrcIdx k).map (s.allSsrcs.getD · 0)).filter (s.active nowMs)

theorem called (h : Keyed env s) (hmax : 0 < maxBlocks) (nowMs : ℤ) :
    ∃ k, Called env s maxBlocks nowMs k (s.rtcpReportBlocks maxBlocks nowMs).1 (s.rtcpReportBlocks maxBlocks nowMs).2 := by
  have hstart : Collected env s nowMs 0 ⟨s, [], 0⟩ := ⟨h, rfl, rfl, fun _ _ => rfl, rfl, fun hlt => absurd hlt (lt_irrefl 0)⟩
  obtain ⟨k, -, -, hcollected, hlen, hlooked⟩ := collected_loop hstart (Nat.zero_le maxBlocks) (Nat.zero_le _)
  rw [Nat.sub_zero, ← List.range_eq_range'] at hcollected hlen
  have hpos : s.allSsrcs ≠ [] → 0 < k := fun hne => hlooked hmax (List.length_pos_iff.mpr hne)
  obtain ⟨hkeyed, hssrcs, -, -, hresult, hidx⟩ := hcollected
  exact ⟨k, ⟨hkeyed.nodup, hkeyed.mem_iff, hkeyed.named, hkeyed.reachable⟩, hssrcs, hpos, fun hne => hidx (hpos hne), hlen, hresult⟩

end Rounds

section Turns
variable {es : List Event} {blocks : List ReportBlock} {s' : ReceiveStatistics} {e : Event}

def Event.isCall : Event → Bool
  | .rtcpReportBlocks _ _ => true
  | _ => false

/-- So many reports are asked for. -/
def calls (es : List Event) : ℕ := es.countP Event.isCall

/-- A report has room for a block. -/
def Event.hasRoom : Event → Bool
  | .rtcpReportBlocks maxBlocks _ => 0 < maxBlocks
  | _ => true

/-- The stream is active whenever a report is made. -/
def ActiveThrough (env : ReceiveEnvironment) (ssrc : UInt32) : ReceiveStatistics → List Event → Prop
  | _, [] => True
  | s, e :: es => (∀ maxBlocks nowMs, e = .rtcpReportBlocks maxBlocks nowMs → s.active nowMs ssrc) ∧
    ∀ blocks t, s.step env e = .ok (blocks, t) → ActiveThrough env ssrc t es

/-- An event that is not a call for a report gives no blocks, and leaves the place in the list. -/
theorem step_other (h : Keyed env s) (hother : calls [e] = 0) (hstep : s.step env e = .ok (blocks, s')) :
    blocks = [] ∧ Keyed env s' ∧ s.allSsrcs <+: s'.allSsrcs ∧ s'.lastReturnedSsrcIdx = s.lastReturnedSsrcIdx := by
  have hlast : ∀ ssrc, (s.getOrCreateStatistician ssrc).2.lastReturnedSsrcIdx = s.lastReturnedSsrcIdx := by
    intro ssrc
    rw [getOrCreateStatistician]
    split <;> rfl
  cases e with
  | onRtpPacket packet nowMs =>
    cases hresult : s.onRtpPacket env packet nowMs with
    | error fault =>
      rw [step, hresult] at hstep
      cases hstep
    | ok t =>
      rw [step, hresult] at hstep
      cases hstep
      obtain ⟨impl, himpl, heq⟩ := ExceptFolds.bind_eq_ok hresult
      obtain rfl := Except.ok.inj heq
      obtain ⟨hkeyed, hgrown⟩ := h.stepOf (e := .packet packet nowMs) himpl
      exact ⟨rfl, hkeyed, hgrown, hlast _⟩
  | rtcpReportBlocks maxBlocks nowMs => cases hother
  | setMaxReorderingThreshold threshold =>
    cases hstep
    exact ⟨rfl, h.setMaxReorderingThreshold threshold, List.prefix_rfl, rfl⟩
  | setMaxReorderingThresholdOf ssrc threshold =>
    cases hstep
    obtain ⟨hkeyed, hgrown⟩ := h.stepOf (e := .setMaxReorderingThreshold threshold) rfl
    exact ⟨rfl, hkeyed, hgrown, hlast ssrc⟩
  | enableRetransmitDetection ssrc enable =>
    cases hstep
    obtain ⟨hkeyed, hgrown⟩ := h.stepOf (e := .enableRetransmitDetection enable) rfl
    exact ⟨rfl, hkeyed, hgrown, hlast ssrc⟩

theorem run_cons_ok (hrun : s.run env (e :: es) = .ok (blocks, s')) : ∃ now rest t,
    s.step env e = .ok (now, t) ∧ t.run env es = .ok (rest, s') ∧ blocks = now ++ rest := by
  obtain ⟨⟨now, t⟩, hstep, hrest⟩ := ExceptFolds.bind_eq_ok hrun
  obtain ⟨⟨rest, t'⟩, hrun', heq⟩ := ExceptFolds.bind_eq_ok hrest
  cases heq
  exact ⟨now, rest, t, hstep, hrun', rfl⟩

theorem calls_cons (e : Event) (es : List Event) : calls (e :: es) = calls [e] + calls es := by
  rw [calls, calls, calls, ← List.countP_append]
  rfl

/-- A step of any kind. -/
theorem Keyed.step (h : Keyed env s) (hroom : e.hasRoom) (hstep : s.step env e = .ok (blocks, s')) :
    Keyed env s' ∧ s.allSsrcs <+: s'.allSsrcs := by
  cases e with
  | rtcpReportBlocks maxBlocks nowMs =>
    obtain ⟨k, hcalled⟩ := called h (by simpa [Event.hasRoom] using hroom) nowMs
    rw [Except.ok.inj hstep] at hcalled
    exact ⟨hcalled.keyed, hcalled.allSsrcs ▸ List.prefix_rfl⟩
  | onRtpPacket | setMaxReorderingThreshold | setMaxReorderingThresholdOf | enableRetransmitDetection =>
    obtain ⟨-, hkeyed, hgrown, -⟩ := step_other h rfl hstep
    exact ⟨hkeyed, hgrown⟩

theorem Keyed.run (h : Keyed env s) (hroom : ∀ e ∈ es, e.hasRoom) (hrun : s.run env es = .ok (blocks, s')) :
    Keyed env s' ∧ s.allSsrcs <+: s'.allSsrcs := by
  induction es generalizing s blocks with
  | nil =>
    cases hrun
    exact ⟨h, List.prefix_rfl⟩
  | cons e es ih =>
    obtain ⟨now, rest, t, hstep, hrest, rfl⟩ := run_cons_ok hrun
    obtain ⟨hkeyed, hgrown⟩ := h.step (hroom e List.mem_cons_self) hstep
    obtain ⟨hkeyed', hgrown'⟩ := ih hkeyed (fun e' he' => hroom e' (List.mem_cons_of_mem e he')) hrest
    exact ⟨hkeyed', hgrown.trans hgrown'⟩

/-- In the blocks of a call an active stream is found as often as it was looked at. -/
theorem Called.count {maxBlocks k j : ℕ} {nowMs : ℤ} (h : Keyed env s) (hcalled : Called env s maxBlocks nowMs k blocks s')
    (hj : j < s.allSsrcs.length) (hactive : s.active nowMs s.allSsrcs[j]) :
    (blocks.map ReportBlock.sourceSsrc).count s.allSsrcs[j] =
      (RingScan.behind s.allSsrcs.length s.lastReturnedSsrcIdx k).count j := by
  rw [hcalled.result, List.count_filter hactive, List.count, List.countP_map, List.count]
  refine List.countP_congr fun i hi => ?_
  obtain ⟨m, -, rfl⟩ := List.mem_map.mp hi
  have hlt : (s.lastReturnedSsrcIdx + m + 1) % s.allSsrcs.length < s.allSsrcs.length := Nat.mod_lt _ (Nat.zero_lt_of_lt hj)
  rw [Function.comp_apply, List.getD_eq_getElem _ _ hlt, beq_iff_eq, beq_iff_eq, h.nodup.getElem_inj_iff]

/-- While no stream is added, the calls go round the list of the streams. -/
theorem turns_run (h : Keyed env s) (hroom : ∀ e ∈ es, e.hasRoom) (hrun : s.run env es = .ok (blocks, s'))
    (hsame : s'.allSsrcs = s.allSsrcs) (hne : s.allSsrcs ≠ []) :
    ∃ looked, calls es ≤ looked ∧ ∀ j, (hj : j < s.allSsrcs.length) → ActiveThrough env s.allSsrcs[j] s es →
      (blocks.map ReportBlock.sourceSsrc).count s.allSsrcs[j] =
        (RingScan.behind s.allSsrcs.length s.lastReturnedSsrcIdx looked).count j := by
  induction es generalizing s blocks with
  | nil =>
    cases hrun
    exact ⟨0, le_rfl, fun _ _ _ => rfl⟩
  | cons e es ih =>
    obtain ⟨now, rest, t, hstep, hrest, rfl⟩ := run_cons_ok hrun
    have hroom' : ∀ e' ∈ es, e'.hasRoom := fun e' he' => hroom e' (List.mem_cons_of_mem e he')
    obtain ⟨hkeyed, hgrown⟩ := h.step (hroom e List.mem_cons_self) hstep
    obtain ⟨-, hgrown'⟩ := hkeyed.run hroom' hrest
    have hssrcs : t.allSsrcs = s.allSsrcs :=
      (hgrown.eq_of_length_le ((hsame ▸ hgrown').length_le)).symm
    obtain ⟨looked, hle, hcount⟩ := ih hkeyed hroom' hrest (hsame.trans hssrcs.symm) (hssrcs ▸ hne)
    have hrestCount : ∀ j, (hj : j < s.allSsrcs.length) → ActiveThrough env s.allSsrcs[j] t es →
        (rest.map ReportBlock.sourceSsrc).count s.allSsrcs[j] =
          (RingScan.behind s.allSsrcs.length t.lastReturnedSsrcIdx looked).count j := by
      intro j hj hactive
      have hresult := hcount j (hssrcs ▸ hj)
      simp only [hssrcs] at hresult
      exact hresult hactive
    by_cases hcall : calls [e] = 0
    · obtain ⟨rfl, -, -, hlast⟩ := step_other h hcall hstep
      rw [calls_cons, hcall, Nat.zero_add, List.nil_append]
      rw [hlast] at hrestCount
      exact ⟨looked, hle, fun j hj hactive => hrestCount j hj (hactive.2 _ _ hstep)⟩
    · cases e with
      | rtcpReportBlocks maxBlocks nowMs =>
        obtain ⟨k, hcalled⟩ := called h (by simpa [Event.hasRoom] using hroom _ List.mem_cons_self) nowMs
        rw [Except.ok.inj hstep] at hcalled
        have hone : calls [.rtcpReportBlocks maxBlocks nowMs] = 1 := rfl
        have hpos := hcalled.looked hne
        refine ⟨k + looked, by rw [calls_cons, hone]; omega, fun j hj hactive => ?_⟩
        have hnow := hactive.1 maxBlocks nowMs rfl
        rw [List.map_append, List.count_append, hcalled.count h hj hnow, hrestCount j hj (hactive.2 _ _ hstep),
          RingScan.behind_add, List.count_append, hcalled.last hne]
      | onRtpPacket | setMaxReorderingThreshold | setMaxReorderingThresholdOf | enableRetransmitDetection =>
        exact absurd rfl hcall

theorem keyed_start (env : ReceiveEnvironment) : Keyed env {} :=
  ⟨List.nodup_nil, fun _ => by simp, fun _ _ h => (nomatch h), fun _ _ h => (nomatch h)⟩

/-- The streams take turns. While no stream is added, the streams that are active whenever a report is
made are reported equally often up to one time, and each at least once in as many reports as there are
streams. -/
theorem turns_fair {es₀ : List Event} {blocks₀ : List ReportBlock}
    (hroom₀ : ∀ e ∈ es₀, e.hasRoom) (hrun₀ : ReceiveStatistics.run env {} es₀ = .ok (blocks₀, s))
    (hroom : ∀ e ∈ es, e.hasRoom) (hrun : s.run env es = .ok (blocks, s')) (hsame : s'.allSsrcs = s.allSsrcs) :
    ∃ rounds, calls es / s.allSsrcs.length ≤ rounds ∧ ∀ ssrc ∈ s.allSsrcs, ActiveThrough env ssrc s es →
      (blocks.map ReportBlock.sourceSsrc).count ssrc = rounds ∨
        (blocks.map ReportBlock.sourceSsrc).count ssrc = rounds + 1 := by
  obtain ⟨hkeyed, -⟩ := (keyed_start env).run hroom₀ hrun₀
  by_cases hne : s.allSsrcs = []
  · rw [hne]
    exact ⟨0, Nat.div_zero _ ▸ le_rfl, fun ssrc hssrc => by cases hssrc⟩
  · obtain ⟨looked, hle, hcount⟩ := turns_run hkeyed hroom hrun hsame hne
    refine ⟨looked / s.allSsrcs.length, Nat.div_le_div_right hle, fun ssrc hssrc hactive => ?_⟩
    obtain ⟨j, hj, rfl⟩ := List.getElem_of_mem hssrc
    rw [hcount j hj hactive]
    exact RingScan.count_behind hj _ _

def arrivals : List Event :=
  [.onRtpPacket { ssrc := 1, sequenceNumber := 8 } 0, .onRtpPacket { ssrc := 2, sequenceNumber := 9 } 0]

/-- Two streams, and reports that hold one of them. -/
theorem turns_fair_two : ∃ s blocks s',
    ReceiveStatistics.run StreamStatistician.closestEnvironment {} arrivals = .ok ([], s) ∧
      s.run StreamStatistician.closestEnvironment (List.replicate 3 (.rtcpReportBlocks 1 0)) = .ok (blocks, s') ∧
      ∃ rounds, 3 / 2 ≤ rounds ∧ ((blocks.map ReportBlock.sourceSsrc).count 2 = rounds ∨
        (blocks.map ReportBlock.sourceSsrc).count 2 = rounds + 1) := by
  obtain ⟨s, blocks, s', hrun₀, hrun, hsame, hssrcs, hactive⟩ : ∃ s blocks s',
      ReceiveStatistics.run StreamStatistician.closestEnvironment {} arrivals = .ok ([], s) ∧
        s.run StreamStatistician.closestEnvironment (List.replicate 3 (.rtcpReportBlocks 1 0)) = .ok (blocks, s') ∧
        s'.allSsrcs = s.allSsrcs ∧ s.allSsrcs = [1, 2] ∧
        ActiveThrough StreamStatistician.closestEnvironment 2 s (List.replicate 3 (.rtcpReportBlocks 1 0)) := by
    refine ⟨_, _, _, rfl, rfl, rfl, rfl, fun _ _ h => by cases h; rfl, fun _ _ h => ?_⟩
    cases h
    refine ⟨fun _ _ h => by cases h; rfl, fun _ _ h => ?_⟩
    cases h
    refine ⟨fun _ _ h => by cases h; rfl, fun _ _ h => ?_⟩
    cases h
    trivial
  obtain ⟨rounds, hle, hcount⟩ := turns_fair (by simp [arrivals, Event.hasRoom]) hrun₀ (by simp [Event.hasRoom]) hrun hsame
  rw [hssrcs] at hle hcount
  exact ⟨s, blocks, s', hrun₀, hrun, rounds, hle, hcount 2 (by decide) hactive⟩

end Turns

end ReceiveStatistics
end Rtp
end XrtcServer
