import XrtcServer.RtpPacketizerH264
import Mathlib.Data.List.ModifyLast
import Mathlib.Data.List.GetD

/-! Which fragments share a packet: the plan that the packetizer follows, and the packets
that it makes of it. -/
namespace XrtcServer
namespace RtpFormat
open ByteFormat

/-- Limits that leave every packet room for a fragment: its two headers and one byte. -/
structure ValidLimits (capacity : ℕ) extends PayloadLimits where
  max_le : maxPayloadLen ≤ ({ capacity } : RtpPacketToSend).freeCapacity
  max_int : maxPayloadLen < 2^31
  single_room : singlePacketReductionLen + 3 ≤ maxPayloadLen
  first_room : firstPacketReductionLen + 3 ≤ maxPayloadLen
  last_room : lastPacketReductionLen + 3 ≤ maxPayloadLen

/-- Fragments that go together in one packet, or one fragment and the sizes of its pieces. -/
inductive Group where
  | aggregate (units : List Bytes)
  | fragment (unit : Bytes) (sizes : List ℕ)

namespace Group

def chunk : Group → List Bytes
  | aggregate units => units
  | fragment unit _ => [unit]

end Group

/-- The payload size of an aggregation packet. -/
def stapASize (units : List Bytes) : ℕ := (units.map List.length).sum + 1 + 2 * units.length

section Plan
variable (limits : PayloadLimits) (count : ℕ)

/-- Fragment `i` still fits the packet of the fragments right before it. -/
def Joins (i : ℕ) (current : List Bytes) (u : Bytes) : Prop :=
  current ≠ [] ∧ stapASize (current ++ [u]) +
    (if current.length = i then limits.firstPacketReductionLen else 0) +
    (if i + 1 = count then limits.lastPacketReductionLen else 0) ≤ limits.maxPayloadLen

instance (i : ℕ) (current : List Bytes) (u : Bytes) : Decidable (Joins limits count i current u) :=
  inferInstanceAs (Decidable (_ ∧ _))

def close : List Bytes → List Group
  | [] => []
  | u :: us => [.aggregate (u :: us)]

/-- The sizes of the pieces of fragment `i`. -/
def fuASizes (i : ℕ) (u : Bytes) : List ℕ :=
  (splitAboutEqual (u.length - kNaluHeaderSize) (fuALimits limits count i)).getD []

/-- The packets for the fragments from index `i` on, when the fragments `current` right
before it are in a packet that is still open. -/
def plan (i : ℕ) (current : List Bytes) : List Bytes → List Group
  | [] => close current
  | u :: us =>
    if Joins limits count i current u then plan (i+1) (current ++ [u]) us
    else close current ++
      if u.length > singlePacketCapacity limits count i then
        .fragment u (fuASizes limits count i u) :: plan (i+1) [] us
      else plan (i+1) [u] us

end Plan

/-- The units of an aggregation packet in the queue. -/
def stapAUnits (first : Bool) : List Bytes → List PacketUnit
  | [] => []
  | u :: us =>
    { sourceFragment := u
      firstFragment := first
      lastFragment := us = []
      aggregated := true
      header := headerOf u } :: stapAUnits false us

/-- The payloads of the pieces of a fragment. -/
def fuAPayloads (u : Bytes) (offset : ℕ) (first : Bool) : List ℕ → List Bytes
  | [] => []
  | n :: sizes =>
    (((headerOf u &&& (kFBit ||| kNriMask)) ||| kFuA) ::
      (((if first then kSBit else 0) ||| (if sizes = [] then kEBit else 0)) ||| (headerOf u &&& kTypeMask)) ::
      (u.drop offset).take n) :: fuAPayloads u (offset + n) false sizes

namespace Group

/-- The packet units that the queue holds for a group. -/
def units : Group → List PacketUnit
  | aggregate us => stapAUnits true us
  | fragment u sizes => fuAUnits u kNaluHeaderSize true sizes

/-- The payloads of a group's packets. A single piece is sent as it is. -/
def payloads : Group → List Bytes
  | aggregate [u] => [u]
  | aggregate us =>
    [((headerOf (us.headD []) &&& (kFBit ||| kNriMask)) ||| kStapA) ::
      us.flatMap fun u => toBE kLengthFieldSize u.length ++ u]
  | fragment u [n] => [(u.drop kNaluHeaderSize).take n]
  | fragment u sizes => fuAPayloads u kNaluHeaderSize true sizes

/-- The group has pieces that go out as fragmentation units. -/
def fragmented : Group → Bool
  | aggregate _ => false
  | fragment _ sizes => 2 ≤ sizes.length

/-- The group is a fragment without pieces, for which the packetizer gives up. -/
def isEmpty : Group → Bool
  | aggregate us => us = []
  | fragment _ sizes => sizes = []

end Group

section Fragments
variable {capacity : ℕ} (limits : ValidLimits capacity) {count i : ℕ}

theorem singlePacketCapacity_pos (count i : ℕ) : 3 ≤ singlePacketCapacity limits.toPayloadLimits count i := by
  have hsingle := limits.single_room
  have hfirst := limits.first_room
  have hlast := limits.last_room
  simp only [singlePacketCapacity]
  split
  · omega
  · split
    · omega
    · split <;> omega

theorem singlePacketCapacity_le (count i : ℕ) :
    singlePacketCapacity limits.toPayloadLimits count i ≤ limits.maxPayloadLen := by
  simp only [singlePacketCapacity]
  split
  · omega
  · split
    · omega
    · split <;> omega

@[simp] theorem fuALimits_max : (fuALimits limits.toPayloadLimits count i).maxPayloadLen =
    limits.maxPayloadLen - 2 := by
  simp only [fuALimits, kFuAHeaderSize]
  split <;> split <;> split <;> (try split) <;> (try split) <;> rfl

@[simp] theorem fuALimits_first : (fuALimits limits.toPayloadLimits count i).firstPacketReductionLen =
    if i = 0 then limits.firstPacketReductionLen else 0 := by
  simp only [fuALimits]
  grind

@[simp] theorem fuALimits_last : (fuALimits limits.toPayloadLimits count i).lastPacketReductionLen =
    if i = count - 1 then limits.lastPacketReductionLen else 0 := by
  simp only [fuALimits]
  grind

/-- A fragment with pieces is larger than what one packet could hold. -/
theorem max_lt_of_capacity_lt {n : ℕ} (hi : i < count)
    (h : singlePacketCapacity limits.toPayloadLimits count i < n) :
    limits.maxPayloadLen - 2 <
      n - kNaluHeaderSize + (fuALimits limits.toPayloadLimits count i).singlePacketReductionLen := by
  have hsingle := limits.single_room
  have hfirst := limits.first_room
  have hlast := limits.last_room
  simp only [singlePacketCapacity] at h
  simp only [fuALimits, kNaluHeaderSize]
  grind

/-- The pieces of a fragment that has at most 2^31 bytes keep every limit; of a longer one
only what the conversion to int leaves is sent. -/
structure Pieces (limits : PayloadLimits) (count i : ℕ) (u : Bytes) (sizes : List ℕ) : Prop where
  split : u.length ≤ 2^31 → Split (fuALimits limits count i) (u.length - kNaluHeaderSize) sizes
  sum : sizes.sum = remainOf (u.length - kNaluHeaderSize)
  nil : remainOf (u.length - kNaluHeaderSize) = 0 → sizes = []

theorem splitAboutEqual_pieces {u : Bytes} (hi : i < count)
    (h : singlePacketCapacity limits.toPayloadLimits count i < u.length) :
    splitAboutEqual (u.length - kNaluHeaderSize) (fuALimits limits.toPayloadLimits count i) =
        some (fuASizes limits.toPayloadLimits count i u) ∧
      Pieces limits.toPayloadLimits count i u (fuASizes limits.toPayloadLimits count i u) := by
  have hfirst := limits.first_room
  have hlast := limits.last_room
  have hcap := singlePacketCapacity_pos limits count i
  have hmax := max_lt_of_capacity_lt limits hi h
  have hone : kNaluHeaderSize = 1 := rfl
  have hF : (fuALimits limits.toPayloadLimits count i).firstPacketReductionLen <
      (fuALimits limits.toPayloadLimits count i).maxPayloadLen := by
    simp only [fuALimits_first, fuALimits_max]
    split <;> omega
  have hL : (fuALimits limits.toPayloadLimits count i).lastPacketReductionLen <
      (fuALimits limits.toPayloadLimits count i).maxPayloadLen := by
    simp only [fuALimits_last, fuALimits_max]
    split <;> omega
  have hloop : splitAboutEqual (u.length - kNaluHeaderSize) (fuALimits limits.toPayloadLimits count i) =
      splitLoop (u.length - kNaluHeaderSize) (fuALimits limits.toPayloadLimits count i) := by
    rw [splitAboutEqual, if_neg (by rw [fuALimits_max]; omega), if_neg (by omega)]
  obtain ⟨sizes, hsizes, hsum⟩ := splitLoop_sum (show 2 ≤ u.length - kNaluHeaderSize by omega)
    (show 0 < (fuALimits limits.toPayloadLimits count i).maxPayloadLen by omega)
  have hget : fuASizes limits.toPayloadLimits count i u = sizes := by
    rw [fuASizes, hloop, hsizes]
    rfl
  rw [hget, hloop]
  refine ⟨hsizes, ⟨fun hlen => ?_, hsum, fun hzero => ?_⟩⟩
  swap
  · rw [splitLoop_zero hzero] at hsizes
    exact (Option.some.inj hsizes).symm
  obtain ⟨sizes', hsizes', -, hsplit⟩ := splitLoop_eq (show 2 ≤ u.length - kNaluHeaderSize by omega)
    (by omega) hF hL
  rw [hsizes] at hsizes'
  rwa [Option.some.inj hsizes']

end Fragments

section PlanFits
variable {capacity : ℕ} (limits : ValidLimits capacity) (count : ℕ)

/-- What the plan keeps to for a group that begins at fragment `i`. -/
def Group.Fits (i : ℕ) : Group → Prop
  | .aggregate [u] => u.length ≤ singlePacketCapacity limits.toPayloadLimits count i
  | .aggregate us => us ≠ [] ∧ stapASize us +
      (if i = 0 then limits.firstPacketReductionLen else 0) +
      (if i + us.length = count then limits.lastPacketReductionLen else 0) ≤ limits.maxPayloadLen
  | .fragment u sizes => singlePacketCapacity limits.toPayloadLimits count i < u.length ∧
      Pieces limits.toPayloadLimits count i u sizes

/-- Groups one after the other, from fragment `i` to the last one. -/
def PlanFits (i : ℕ) : List Group → Prop
  | [] => i = count
  | g :: gs => g.Fits limits count i ∧ PlanFits (i + g.chunk.length) gs

/-- The open packet of a plan keeps to the limits so far. -/
def OpenFits (i : ℕ) : List Bytes → Prop
  | [] => True
  | [u] => u.length ≤ singlePacketCapacity limits.toPayloadLimits count (i-1)
  | us => stapASize us + (if us.length = i then limits.firstPacketReductionLen else 0) +
      (if i = count then limits.lastPacketReductionLen else 0) ≤ limits.maxPayloadLen

theorem close_chunk (current : List Bytes) : (close current).flatMap Group.chunk = current := by
  cases current <;> simp [close, Group.chunk]

/-- The plan leaves no fragment out. -/
theorem plan_chunk (i : ℕ) (current us : List Bytes) :
    (plan limits.toPayloadLimits count i current us).flatMap Group.chunk = current ++ us := by
  induction us generalizing i current with
  | nil => simp [plan, close_chunk]
  | cons u us ih =>
    rw [plan]
    split
    · simp [ih]
    · rw [List.flatMap_append, close_chunk]
      split
      · simp [ih, Group.chunk]
      · simp [ih]

theorem close_fits {i : ℕ} {current : List Bytes} {gs : List Group} (hlen : current.length ≤ i)
    (hopen : OpenFits limits count i current) (hgs : PlanFits limits count i gs) :
    PlanFits limits count (i - current.length) (close current ++ gs) := by
  rcases current with _ | ⟨u, _ | ⟨v, us⟩⟩
  · simpa [close] using hgs
  · refine ⟨hopen, ?_⟩
    simpa [Group.chunk, show i - 1 + 1 = i by simp at hlen; omega] using hgs
  · have hi : i - (u :: v :: us).length + (u :: v :: us).length = i := by omega
    refine ⟨⟨by simp, ?_⟩, ?_⟩
    · rw [hi]
      simp only [OpenFits] at hopen
      have hfirst : (i - (u :: v :: us).length = 0) = ((u :: v :: us).length = i) := by
        apply propext
        constructor <;> intro h <;> omega
      simpa only [hfirst] using hopen
    · rw [Group.chunk, hi]
      exact hgs

theorem openFits_of_joins {i : ℕ} {current : List Bytes} {u : Bytes}
    (h : Joins limits.toPayloadLimits count i current u) :
    OpenFits limits count (i+1) (current ++ [u]) := by
  obtain ⟨hne, hfit⟩ := h
  obtain ⟨v, vs, hvs⟩ : ∃ v vs, current = v :: vs := List.exists_cons_of_ne_nil hne
  have hlength : (current ++ [u]).length = i + 1 ↔ current.length = i := by simp
  rcases hall : current ++ [u] with _ | ⟨a, _ | ⟨b, t⟩⟩
  · simp at hall
  · simp [hvs] at hall
  · rw [hall] at hfit hlength
    simp only [OpenFits, hlength]
    exact hfit

theorem plan_fits (i : ℕ) (current : List Bytes) {us : List Bytes} (hlen : current.length ≤ i)
    (hopen : OpenFits limits count i current) (hcount : i + us.length = count) :
    PlanFits limits count (i - current.length) (plan limits.toPayloadLimits count i current us) := by
  induction us generalizing i current with
  | nil =>
    have hgs : PlanFits limits count i [] := by simpa [PlanFits] using hcount
    simpa [plan] using close_fits limits count hlen hopen hgs
  | cons u us ih =>
    simp only [List.length_cons] at hcount
    rw [plan]
    split
    · rename_i hjoins
      have ih := ih (i+1) (current ++ [u]) (by simpa using hlen) (openFits_of_joins limits count hjoins)
        (by omega)
      rwa [List.length_append, List.length_singleton, show i + 1 - (current.length + 1) = i - current.length by omega]
        at ih
    · refine close_fits limits count hlen hopen ?_
      split
      · rename_i hcap
        have ih := ih (i+1) [] (by simp) trivial (by omega)
        exact ⟨⟨hcap, (splitAboutEqual_pieces limits (by omega) hcap).2⟩, by simpa [Group.chunk] using ih⟩
      · rename_i hcap
        have ih := ih (i+1) [u] (by simp) (by simpa [OpenFits] using hcap) (by omega)
        simpa using ih

end PlanFits

section Aggregate
variable {capacity : ℕ} (limits : ValidLimits capacity) (count : ℕ)

/-- The units of a packet that is still open. -/
def openUnits (first : Bool) : List Bytes → List PacketUnit
  | [] => []
  | u :: us =>
    { sourceFragment := u
      firstFragment := first
      lastFragment := false
      aggregated := true
      header := headerOf u } :: openUnits false us

theorem modifyLast_openUnits {us : List Bytes} (h : us ≠ []) (first : Bool) (packets : List PacketUnit) :
    (packets ++ openUnits first us).modifyLast (fun packet => { packet with lastFragment := true }) =
      packets ++ stapAUnits first us := by
  induction us generalizing first packets with
  | nil => exact absurd rfl h
  | cons u us ih =>
    cases us with
    | nil => simp [openUnits, stapAUnits, List.modifyLast_concat]
    | cons v us =>
      have ih := ih (by simp) false (packets ++ [⟨u, first, false, true, headerOf u⟩])
      simpa [openUnits, stapAUnits] using ih

theorem any_openUnits (first : Bool) (us : List Bytes) :
    (openUnits first us).any (fun packet => packet.sourceFragment = []) = us.any (· = []) := by
  induction us generalizing first with
  | nil => rfl
  | cons u us ih => simp [openUnits, ih]

/-- What the fragments of an open packet have used of its room. -/
def usedSize : List Bytes → ℕ
  | [u] => u.length
  | us => stapASize us

/-- The header length that the next fragment of an open packet brings along. -/
def nextHeaderLength (current : List Bytes) : ℕ := if current.length = 1 then 5 else 2

theorem stapASize_concat {current : List Bytes} (h : current ≠ []) (u : Bytes) :
    stapASize (current ++ [u]) = usedSize current + u.length + nextHeaderLength current := by
  rcases current with _ | ⟨v, _ | ⟨w, us⟩⟩
  · exact absurd rfl h
  · simp [stapASize, usedSize, nextHeaderLength]
  · simp [stapASize, usedSize, nextHeaderLength]
    omega

theorem usedSize_concat {current : List Bytes} (h : current ≠ []) (u : Bytes) :
    usedSize (current ++ [u]) = usedSize current + u.length + nextHeaderLength current := by
  rw [← stapASize_concat h]
  rcases current with _ | ⟨v, us⟩
  · exact absurd rfl h
  · cases us <;> rfl

/-- The test of the loop is the rule of the plan. -/
theorem needed_le_iff {i left : ℕ} {current : List Bytes} {u : Bytes} (hne : current ≠ [])
    (hlen : current.length ≤ i) (hcount : i < count)
    (hroom : left + usedSize current = payloadSizeLeft limits.toPayloadLimits count (i - current.length)) :
    left ≥ payloadSizeNeeded limits.toPayloadLimits count i (u.length + nextHeaderLength current) ↔
      Joins limits.toPayloadLimits count i current u := by
  have hfirst := limits.first_room
  have hpos : 0 < current.length := List.length_pos_iff.mpr hne
  rw [Joins, stapASize_concat hne]
  simp only [payloadSizeLeft] at hroom
  simp only [payloadSizeNeeded, hne, ne_eq, not_false_eq_true, true_and]
  grind

theorem plan_of_not_joins {i : ℕ} {current us : List Bytes} {u : Bytes}
    (h : ¬ Joins limits.toPayloadLimits count i current u) :
    plan limits.toPayloadLimits count i current (u :: us) =
      close current ++ plan limits.toPayloadLimits count i [] (u :: us) := by
  have hnil : ¬ Joins limits.toPayloadLimits count i [] u := fun h => h.1 rfl
  rw [plan, if_neg h, plan, if_neg hnil]
  rfl

theorem aggregateFrom_eq {i left : ℕ} {current rest : List Bytes} (hne : current ≠ [])
    (hlen : current.length ≤ i) (hcount : i + rest.length = count)
    (hroom : left + usedSize current = payloadSizeLeft limits.toPayloadLimits count (i - current.length)) :
    ∃ taken remaining, rest = taken ++ remaining ∧
      aggregateFrom limits.toPayloadLimits count i current.length left (nextHeaderLength current) rest =
        (openUnits false taken, i + taken.length) ∧
      plan limits.toPayloadLimits count i current rest =
        .aggregate (current ++ taken) :: plan limits.toPayloadLimits count (i + taken.length) [] remaining := by
  have hclose : close current = [.aggregate current] := by
    cases current with
    | nil => exact absurd rfl hne
    | cons v vs => rfl
  induction rest generalizing i left current with
  | nil => exact ⟨[], [], rfl, rfl, by rw [plan, hclose, plan, close, List.append_nil]⟩
  | cons u rest ih =>
    simp only [List.length_cons] at hcount
    have hneeded := needed_le_iff limits count (u := u) hne hlen (by omega) hroom
    by_cases hjoins : Joins limits.toPayloadLimits count i current u
    · have hused := usedSize_concat hne u
      have hge := hneeded.mpr hjoins
      have hle : u.length + nextHeaderLength current ≤ left := by
        simp only [payloadSizeNeeded] at hge
        grind
      have hheader : nextHeaderLength (current ++ [u]) = kLengthFieldSize := by
        have := List.length_pos_iff.mpr hne
        simp [nextHeaderLength, kLengthFieldSize, hne]
      have hroom' : left - u.length - nextHeaderLength current + usedSize (current ++ [u]) =
          payloadSizeLeft limits.toPayloadLimits count (i + 1 - (current ++ [u]).length) := by
        rw [hused, List.length_append, List.length_singleton,
          show i + 1 - (current.length + 1) = i - current.length by omega]
        omega
      obtain ⟨taken, remaining, hrest, haggregate, hplan⟩ := ih (by simp) (by simpa using hlen) (by omega)
        hroom' (by cases current <;> rfl)
      refine ⟨u :: taken, remaining, by simp [hrest], ?_, ?_⟩
      · rw [hheader, List.length_append, List.length_singleton] at haggregate
        simp only [aggregateFrom]
        rw [if_pos hge, if_neg (by simpa using hne), haggregate]
        have hzero : decide (current.length = 0) = false := by simpa using hne
        simp only [openUnits, hzero, List.length_cons]
        rw [Nat.add_right_comm, Nat.add_assoc]
      · rw [plan, if_pos hjoins, hplan]
        simp [Nat.add_assoc, Nat.add_comm 1]
    · refine ⟨[], u :: rest, rfl, ?_, ?_⟩
      · rw [aggregateFrom, if_neg fun hge => hjoins (hneeded.mp hge)]
        rfl
      · rw [plan_of_not_joins limits count hjoins, hclose]
        simp

end Aggregate

/-- The packetizer with the packets of further groups. -/
def RtpPacketizerH264.extend (p : RtpPacketizerH264) (groups : List Group) : RtpPacketizerH264 :=
  { p with
    packets := p.packets ++ groups.flatMap Group.units
    numPacketsLeft := p.numPacketsLeft + (groups.flatMap Group.payloads).length
    readOutside := p.readOutside || (groups.flatMap Group.chunk).any (· = []) }

section Extend
variable (p : RtpPacketizerH264)

theorem RtpPacketizerH264.extend_inputFragments (groups : List Group) :
    (p.extend groups).inputFragments = p.inputFragments := rfl

theorem RtpPacketizerH264.extend_readPopped (groups : List Group) :
    (p.extend groups).readPopped = p.readPopped := rfl

theorem RtpPacketizerH264.extend_extend (gs gs' : List Group) :
    (p.extend gs).extend gs' = p.extend (gs ++ gs') := by
  simp [extend, Nat.add_assoc, Bool.or_assoc]

theorem fuAPayloads_length (u : Bytes) (offset : ℕ) (first : Bool) (sizes : List ℕ) :
    (fuAPayloads u offset first sizes).length = sizes.length := by
  induction sizes generalizing offset first with
  | nil => rfl
  | cons n sizes ih => simp [fuAPayloads, ih]

theorem payloads_fragment_length (u : Bytes) (sizes : List ℕ) :
    (Group.fragment u sizes).payloads.length = sizes.length := by
  rcases sizes with _ | ⟨n, _ | ⟨m, sizes⟩⟩
  · rfl
  · rfl
  · simp [Group.payloads, fuAPayloads_length]

theorem payloads_aggregate_length (u : Bytes) (us : List Bytes) :
    (Group.aggregate (u :: us)).payloads.length = 1 := by
  cases us <;> rfl

end Extend

section Packetize
variable {capacity : ℕ} (limits : ValidLimits capacity) (count : ℕ)

theorem exists_fragment {fragments : List Bytes} {i : ℕ} (h : i < fragments.length) :
    ∃ u rest, fragments.getD i [] = u ∧ fragments.drop i = u :: rest ∧ fragments.drop (i+1) = rest :=
  ⟨_, _, List.getD_eq_getElem _ _ h, List.drop_eq_getElem_cons h, rfl⟩

theorem plan_fragment {i : ℕ} {u : Bytes} {us : List Bytes} {limits : PayloadLimits} {count : ℕ}
    (hcap : singlePacketCapacity limits count i < u.length) :
    plan limits count i [] (u :: us) =
      .fragment u (fuASizes limits count i u) :: plan limits count (i+1) [] us := by
  have hnil : ¬ Joins limits count i [] u := fun h => h.1 rfl
  rw [plan, if_neg hnil, if_pos hcap]
  rfl

theorem packetizeFuA_eq {p : RtpPacketizerH264} {i : ℕ} {u : Bytes}
    (hlimits : p.limits = limits.toPayloadLimits) (hi : i < p.inputFragments.length)
    (hget : p.inputFragments.getD i [] = u)
    (hcap : singlePacketCapacity limits.toPayloadLimits p.inputFragments.length i < u.length) :
    p.packetizeFuA i =
      some (if fuASizes limits.toPayloadLimits p.inputFragments.length i u = [] then (false, p)
        else (true, p.extend [.fragment u (fuASizes limits.toPayloadLimits p.inputFragments.length i u)])) := by
  obtain ⟨hsplit, -⟩ := splitAboutEqual_pieces limits hi hcap
  simp only [RtpPacketizerH264.packetizeFuA, hget, hlimits, hsplit, Option.map_some]
  split
  · rfl
  · simp [RtpPacketizerH264.extend, Group.units, Group.chunk, payloads_fragment_length, hlimits]

theorem packetizeStapA_eq {p : RtpPacketizerH264} {i : ℕ} {u : Bytes} {rest : List Bytes}
    (hlimits : p.limits = limits.toPayloadLimits) (hcount : p.inputFragments.length = count)
    (hdrop : p.inputFragments.drop i = u :: rest)
    (hcap : u.length ≤ singlePacketCapacity limits.toPayloadLimits count i) :
    ∃ taken remaining, rest = taken ++ remaining ∧
      p.packetizeStapA i = (i + (u :: taken).length, p.extend [.aggregate (u :: taken)]) ∧
      plan limits.toPayloadLimits count i [] (u :: rest) = .aggregate (u :: taken) ::
        plan limits.toPayloadLimits count (i + (u :: taken).length) [] remaining := by
  have hsingle := limits.single_room
  have hfirst := limits.first_room
  have hlast := limits.last_room
  have hlen : i + (rest.length + 1) = count := by
    have hlength := congrArg List.length hdrop
    have hlt : i < p.inputFragments.length := by
      by_contra hge
      simp [List.drop_of_length_le (not_lt.mp hge)] at hdrop
    simp only [List.length_drop, List.length_cons] at hlength
    omega
  have hroom : u.length ≤ payloadSizeLeft limits.toPayloadLimits count i ∧
      payloadSizeNeeded limits.toPayloadLimits count i (u.length + 0) ≤
        payloadSizeLeft limits.toPayloadLimits count i := by
    simp only [singlePacketCapacity] at hcap
    simp only [payloadSizeNeeded, payloadSizeLeft]
    grind
  obtain ⟨taken, remaining, hrest, haggregate, hplan⟩ := aggregateFrom_eq limits count
    (show [u] ≠ [] by simp) (show [u].length ≤ i + 1 by simp) (show i + 1 + rest.length = count by omega)
    (show payloadSizeLeft limits.toPayloadLimits count i - u.length - 0 + usedSize [u] =
      payloadSizeLeft limits.toPayloadLimits count (i + 1 - 1) by simp only [usedSize, Nat.add_sub_cancel]; omega)
  have haggregate : aggregateFrom limits.toPayloadLimits count i 0
      (payloadSizeLeft limits.toPayloadLimits count i) 0 (u :: rest) =
        (openUnits true (u :: taken), i + (u :: taken).length) := by
    rw [aggregateFrom, if_pos hroom.2]
    simp only [if_true]
    rw [show kLengthFieldSize + (kNaluHeaderSize + kLengthFieldSize) = nextHeaderLength [u] from rfl,
      show 0 + 1 = [u].length from rfl, haggregate]
    simp [openUnits, Nat.add_assoc, Nat.add_comm 1]
  refine ⟨taken, remaining, hrest, ?_, ?_⟩
  · simp only [RtpPacketizerH264.packetizeStapA, hcount, hlimits, hdrop, haggregate]
    rw [modifyLast_openUnits (by simp), any_openUnits]
    simp [RtpPacketizerH264.extend, Group.units, Group.chunk, payloads_aggregate_length, hlimits]
  · have hnil : ¬ Joins limits.toPayloadLimits count i [] u := fun h => h.1 rfl
    rw [plan, if_neg hnil, if_neg (by omega), hplan]
    simp [close, Nat.add_assoc, Nat.add_comm 1]

end Packetize

section Generate
variable {capacity : ℕ} (limits : ValidLimits capacity)

/-- The loop of `GeneratePackets` queues the plan, unless a fragment has no pieces. -/
theorem generateBody_result {p : RtpPacketizerH264} {i : ℕ} (hlimits : p.limits = limits.toPayloadLimits)
    (hi : i ≤ p.inputFragments.length) :
    let groups := plan limits.toPayloadLimits p.inputFragments.length i [] (p.inputFragments.drop i)
    ∃ r, Loops.result RtpPacketizerH264.generateBody (i, p) = some r ∧
      if groups.any Group.isEmpty then r.1 = false ∧ r.2.readPopped = p.readPopped
      else r = (true, p.extend groups) := by
  dsimp only
  generalize hn : p.inputFragments.length - i = n
  induction n using Nat.strong_induction_on generalizing p i with
  | _ n ih =>
    rcases Nat.lt_or_ge i p.inputFragments.length with hlt | hge
    · obtain ⟨u, rest, hget, hdrop, hrest⟩ := exists_fragment hlt
      rw [hdrop]
      by_cases hcap : singlePacketCapacity limits.toPayloadLimits p.inputFragments.length i < u.length
      · have hfuA := packetizeFuA_eq limits hlimits hlt hget hcap
        rw [plan_fragment hcap]
        generalize fuASizes limits.toPayloadLimits p.inputFragments.length i u = sizes at *
        by_cases hsizes : sizes = []
        · refine ⟨(false, p), ?_, by simp [Group.isEmpty, hsizes]⟩
          rw [if_pos hsizes] at hfuA
          rw [Loops.result_leave]
          simp only [RtpPacketizerH264.generateBody, hlt, if_true, hget, hlimits, gt_iff_lt, hcap, hfuA]
        · rw [if_neg hsizes] at hfuA
          have hbody : RtpPacketizerH264.generateBody (i, p) = .inr (i+1, p.extend [.fragment u sizes]) := by
            simp only [RtpPacketizerH264.generateBody, hlt, if_true, hget, hlimits, gt_iff_lt, hcap, hfuA]
          have hstep : (p.extend [.fragment u sizes]).inputFragments.length - (i+1) < n := by
            simp only [RtpPacketizerH264.extend_inputFragments]
            omega
          have hlim : (p.extend [.fragment u sizes]).limits = limits.toPayloadLimits := hlimits
          have hle : i + 1 ≤ (p.extend [.fragment u sizes]).inputFragments.length := hlt
          obtain ⟨r, hresult, hr⟩ := ih _ hstep hlim hle rfl
          rw [p.extend_inputFragments, hrest, p.extend_extend, p.extend_readPopped] at hr
          refine ⟨r, by rw [Loops.result_again hbody, hresult], ?_⟩
          simpa [Group.isEmpty, hsizes] using hr
      · obtain ⟨taken, remaining, hsplit, hstap, hplan⟩ :=
          packetizeStapA_eq limits p.inputFragments.length hlimits rfl hdrop (by omega)
        have hlen : (u :: rest).length = p.inputFragments.length - i := by
          rw [← hdrop, List.length_drop]
        have htaken : (u :: taken).length ≤ (u :: rest).length := by
          simp [hsplit]
        have hpos : 0 < (u :: taken).length := by simp
        have hremaining : p.inputFragments.drop (i + (u :: taken).length) = remaining := by
          rw [← List.drop_drop, hdrop, hsplit]
          simp
        have hbody : RtpPacketizerH264.generateBody (i, p) =
            .inr (i + (u :: taken).length, p.extend [.aggregate (u :: taken)]) := by
          simp only [RtpPacketizerH264.generateBody, hlt, if_true, hget, hlimits, gt_iff_lt, hcap, if_false, hstap]
        have hstep : (p.extend [.aggregate (u :: taken)]).inputFragments.length - (i + (u :: taken).length) < n := by
          simp only [RtpPacketizerH264.extend_inputFragments]
          omega
        have hle : i + (u :: taken).length ≤ (p.extend [.aggregate (u :: taken)]).inputFragments.length := by
          simp only [RtpPacketizerH264.extend_inputFragments]
          omega
        have hlim : (p.extend [.aggregate (u :: taken)]).limits = limits.toPayloadLimits := hlimits
        obtain ⟨r, hresult, hr⟩ := ih _ hstep hlim hle rfl
        rw [p.extend_inputFragments, hremaining, p.extend_extend, p.extend_readPopped] at hr
        refine ⟨r, by rw [Loops.result_again hbody, hresult], ?_⟩
        rw [hplan]
        simpa [Group.isEmpty] using hr
    · refine ⟨(true, p), ?_, ?_⟩
      · rw [Loops.result_leave]
        simp only [RtpPacketizerH264.generateBody, not_lt.mpr hge, if_false]
      · rw [List.drop_of_length_le hge]
        simp [plan, close, RtpPacketizerH264.extend]

end Generate

end RtpFormat
end XrtcServer
