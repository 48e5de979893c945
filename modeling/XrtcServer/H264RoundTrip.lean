import XrtcServer.H264Payload
import XrtcServer.NaluIndices
import XrtcServer.PacketSending

/-! What a receiver makes of the packets of the H.264 packetizer. -/
namespace XrtcServer
namespace RtpFormat
open ByteFormat AnnexB H264Payload

section Headers

theorem indicator_type (header : UInt8) : nalType ((header &&& (kFBit ||| kNriMask)) ||| RtpFormat.kFuA) = H264Payload.fuA := by
  obtain ⟨header⟩ := header
  revert header
  decide

theorem stapA_type (header : UInt8) : nalType ((header &&& (kFBit ||| kNriMask)) ||| kStapA) = H264Payload.stapA := by
  obtain ⟨header⟩ := header
  revert header
  decide

/-- The second header of a fragment. -/
def fuHeaderOf (header : UInt8) (first last : Bool) : UInt8 :=
  ((if first then kSBit else 0) ||| (if last then kEBit else 0)) ||| (header &&& kTypeMask)

theorem fuHeaderOf_startBit (header : UInt8) (first last : Bool) : startBit (fuHeaderOf header first last) = first := by
  obtain ⟨header⟩ := header
  revert header first last
  decide

theorem fuHeaderOf_endBit (header : UInt8) (first last : Bool) : endBit (fuHeaderOf header first last) = last := by
  obtain ⟨header⟩ := header
  revert header first last
  decide

theorem joinHeaders_eq (header : UInt8) (first last : Bool) :
    joinHeaders ((header &&& (kFBit ||| kNriMask)) ||| RtpFormat.kFuA) (fuHeaderOf header first last) = header := by
  obtain ⟨header⟩ := header
  revert header first last
  decide

end Headers

section Fragments
variable {u : Bytes} {rest : List Bytes}

/-- The fragments after the first one complete the unit. -/
theorem depacketize_pending {w : Bytes} {offset : ℕ} {sizes : List ℕ} (h : sizes ≠ []) :
    depacketize (some w) (fuAPayloads u offset false sizes ++ rest) =
      (depacketize none rest).map ((w ++ (u.drop offset).take sizes.sum) :: ·) := by
  induction sizes generalizing w offset with
  | nil => exact absurd rfl h
  | cons n sizes ih =>
    have hreceive : receive (some w) (((headerOf u &&& (kFBit ||| kNriMask)) ||| RtpFormat.kFuA) ::
        fuHeaderOf (headerOf u) false (decide (sizes = [])) :: (u.drop offset).take n) =
          if sizes = [] then some ([w ++ (u.drop offset).take n], none)
          else some ([], some (w ++ (u.drop offset).take n)) := by
      rw [receive_fuA (indicator_type _)]
      simp [receiveFragment, fuHeaderOf_startBit, fuHeaderOf_endBit]
    have hcons : fuAPayloads u offset false (n :: sizes) =
        (((headerOf u &&& (kFBit ||| kNriMask)) ||| RtpFormat.kFuA) ::
          fuHeaderOf (headerOf u) false (decide (sizes = [])) :: (u.drop offset).take n) ::
            fuAPayloads u (offset + n) false sizes := by
      simp [fuAPayloads, fuHeaderOf]
    rw [hcons, List.cons_append]
    cases sizes with
    | nil =>
      rw [depacketize_cons (by simpa using hreceive)]
      simp [fuAPayloads]
    | cons m sizes =>
      rw [depacketize_cons (by simpa using hreceive), ih (by simp)]
      have htake : (u.drop offset).take n ++ (u.drop (offset + n)).take (m :: sizes).sum =
          (u.drop offset).take (n :: m :: sizes).sum := by
        rw [show (n :: m :: sizes).sum = n + (m :: sizes).sum from List.sum_cons, List.take_add, List.drop_drop]
      rw [List.append_assoc, htake, Option.map_map]
      rfl

/-- All the fragments of a unit. -/
theorem depacketize_fuA {n : ℕ} {sizes : List ℕ} (h : sizes ≠ []) :
    depacketize none (fuAPayloads u kNaluHeaderSize true (n :: sizes) ++ rest) =
      if isNal [headerOf u] then
        (depacketize none rest).map ((headerOf u :: (u.drop kNaluHeaderSize).take (n :: sizes).sum) :: ·)
      else none := by
  have hnal : isNal (headerOf u :: (u.drop kNaluHeaderSize).take n) = isNal [headerOf u] := rfl
  have hcons : fuAPayloads u kNaluHeaderSize true (n :: sizes) =
      (((headerOf u &&& (kFBit ||| kNriMask)) ||| RtpFormat.kFuA) ::
        fuHeaderOf (headerOf u) true false :: (u.drop kNaluHeaderSize).take n) ::
          fuAPayloads u (kNaluHeaderSize + n) false sizes := by
    simp [fuAPayloads, fuHeaderOf, h]
  have hreceive : receive none (((headerOf u &&& (kFBit ||| kNriMask)) ||| RtpFormat.kFuA) ::
      fuHeaderOf (headerOf u) true false :: (u.drop kNaluHeaderSize).take n) =
        if isNal [headerOf u] then some ([], some (headerOf u :: (u.drop kNaluHeaderSize).take n)) else none := by
    rw [receive_fuA (indicator_type _), receiveFragment]
    simp only [joinHeaders_eq, fuHeaderOf_startBit, fuHeaderOf_endBit, hnal]
    simp
  rw [hcons, List.cons_append]
  split
  · rename_i hu
    rw [if_pos hu] at hreceive
    rw [depacketize_cons hreceive, depacketize_pending h, List.sum_cons, List.take_add, List.drop_drop, Option.map_map]
    rfl
  · rename_i hu
    rw [if_neg hu] at hreceive
    rw [depacketize, hreceive]
    rfl

end Fragments

theorem header_cons {u : Bytes} (h : u ≠ []) : headerOf u :: u.drop kNaluHeaderSize = u := by
  cases u with
  | nil => exact absurd rfl h
  | cons b t => rfl

theorem isNal_ne_nil {u : Bytes} (h : isNal u) : u ≠ [] := by
  rintro rfl
  simp [isNal] at h

theorem isNal_header {u : Bytes} (h : isNal u) : isNal [headerOf u] := by
  cases u with
  | nil => simp [isNal] at h
  | cons b t => exact h

theorem payloads_stapA (u v : Bytes) (us : List Bytes) : (Group.aggregate (u :: v :: us)).payloads =
    [((headerOf u &&& (kFBit ||| kNriMask)) ||| kStapA) :: aggregate (u :: v :: us)] := rfl

namespace Group

/-- The sizes of a group fit the fields that carry them: two bytes for a unit that is
aggregated, an int for one that is fragmented. -/
def FieldsFit : Group → Prop
  | aggregate us => 2 ≤ us.length → ∀ u ∈ us, u.length < 65536
  | fragment u _ => u.length ≤ 2^31

/-- A fragment with one piece, which goes out as if it were a whole unit. -/
def lone : Group → Bool
  | aggregate _ => false
  | fragment _ sizes => sizes.length = 1

end Group

section Groups
variable {capacity : ℕ} {limits : ValidLimits capacity} {count i : ℕ} {g : Group}

theorem Pieces.two_le {u : Bytes} {sizes : List ℕ} (h : Pieces limits.toPayloadLimits count i u sizes)
    (hlen : u.length ≤ 2^31) : 2 ≤ sizes.length := (h.split hlen).two_le

/-- A unit that is too long for an int comes out much shorter. -/
theorem Pieces.sum_add_le {u : Bytes} {sizes : List ℕ} (h : Pieces limits.toPayloadLimits count i u sizes)
    (hlen : ¬ u.length ≤ 2^31) : sizes.sum + 2^31 + kNaluHeaderSize ≤ u.length := by
  have hle := remainOf_add_le (n := u.length - kNaluHeaderSize) (by simp only [kNaluHeaderSize]; omega)
  rw [h.sum]
  simp only [kNaluHeaderSize] at hle ⊢
  omega

/-- The pieces of any unit together. -/
theorem Pieces.sum_lt {u : Bytes} {sizes : List ℕ} (h : Pieces limits.toPayloadLimits count i u sizes) :
    sizes.sum < 2^31 := by
  rw [h.sum]
  exact remainOf_lt _

theorem depacketize_group (hfits : g.Fits limits count i) (hnal : ∀ u ∈ g.chunk, isNal u)
    (hfields : g.FieldsFit) (rest : List Bytes) :
    depacketize none (g.payloads ++ rest) = (depacketize none rest).map (g.chunk ++ ·) := by
  cases g with
  | aggregate us =>
    rcases us with _ | ⟨u, _ | ⟨v, us⟩⟩
    · exact absurd rfl hfits.1
    · exact depacketize_cons (receive_single (hnal u (by simp [Group.chunk]))) rest
    · have hall : ∀ w ∈ u :: v :: us, isNal w ∧ w.length < 65536 :=
        fun w hw => ⟨hnal w hw, hfields (by simp) w hw⟩
      have hreceive := @receive_stapA _ (aggregate (u :: v :: us)) (stapA_type (headerOf u))
      rw [aggregated_aggregate hall] at hreceive
      rw [payloads_stapA, List.singleton_append, depacketize_cons hreceive]
      rfl
  | fragment u sizes =>
    have hu := hnal u (by simp [Group.chunk])
    have htwo := hfits.2.two_le hfields
    have hsum := (hfits.2.split hfields).fits.sum
    rcases sizes with _ | ⟨n, _ | ⟨m, sizes⟩⟩
    · simp at htwo
    · simp at htwo
    · have hpayloads : (Group.fragment u (n :: m :: sizes)).payloads =
          fuAPayloads u kNaluHeaderSize true (n :: m :: sizes) := rfl
      have htake : (u.drop kNaluHeaderSize).take (n :: m :: sizes).sum = u.drop kNaluHeaderSize := by
        rw [hsum]
        exact List.take_of_length_le (by simp)
      rw [hpayloads, depacketize_fuA (by simp), if_pos (isNal_header hu), htake, header_cons (isNal_ne_nil hu)]
      rfl

/-- A unit that a single NAL unit packet either carries or that the receiver rejects. -/
def Plain (u : Bytes) : Prop := isNal u ∨ u ≠ [] ∧ nalType (headerOf u) = 0

theorem receive_plain {u : Bytes} (h : Plain u) {r : List Bytes × Option Bytes}
    (hr : receive none u = some r) : r = ([u], none) := by
  rcases h with hu | ⟨hne, htype⟩
  · rw [receive_single hu] at hr
    exact (Option.some.inj hr).symm
  · cases u with
    | nil => exact absurd rfl hne
    | cons b t =>
      have htype : nalType b = 0 := htype
      have hnal : isNal (b :: t) = false := by simp [isNal, htype]
      simp [receive, H264Payload.fuA, H264Payload.stapA, htype, hnal] at hr

theorem aggregate_length (us : List Bytes) : (aggregate us).length + 1 = stapASize us := by
  simp only [aggregate, List.length_flatMap, List.length_append, toBE_length, stapASize, List.sum_map_add]
  simp
  omega

/-- What the receiver makes of a group that is not a lone piece: its units, or units that
part from them where one is too long for its field. -/
theorem depacketize_group_cases (hfits : g.Fits limits count i) (hempty : g.isEmpty = false)
    (hlone : g.lone = false) (hplain : ∀ u ∈ g.chunk, Plain u) {rest units : List Bytes}
    (h : depacketize none (g.payloads ++ rest) = some units) :
    ∃ out tail, depacketize none rest = some tail ∧ units = out ++ tail ∧
      (∀ v ∈ out, v.length ≤ 2^31) ∧ (out = g.chunk ∧ g.FieldsFit ∨ ShortAt g.chunk out) := by
  have hint := limits.max_int
  cases g with
  | aggregate us =>
    rcases us with _ | ⟨u, _ | ⟨v, us⟩⟩
    · exact absurd rfl hfits.1
    · obtain ⟨first, pending, tail, hfirst, htail, rfl⟩ := depacketize_cons_eq_some.mp h
      obtain ⟨rfl, rfl⟩ := Prod.mk.inj (receive_plain (hplain u (by simp [Group.chunk])) hfirst)
      have hlen : u.length ≤ limits.maxPayloadLen := by
        have hcap : u.length ≤ singlePacketCapacity limits.toPayloadLimits count i := hfits
        have := singlePacketCapacity_le limits count i
        omega
      exact ⟨_, tail, htail, rfl, by simp; omega, .inl ⟨rfl, by simp [Group.FieldsFit]⟩⟩
    · rw [payloads_stapA, List.singleton_append] at h
      obtain ⟨first, pending, tail, hfirst, htail, rfl⟩ := depacketize_cons_eq_some.mp h
      have hsmall := receive_length_le hfirst
      rw [List.length_cons, aggregate_length] at hsmall
      rw [receive_stapA (stapA_type _)] at hfirst
      split at hfirst
      · rename_i out outs haggregated
        obtain ⟨rfl, rfl⟩ := Prod.mk.inj (Option.some.inj hfirst)
        have hsize : stapASize (u :: v :: us) ≤ limits.maxPayloadLen := by
          have := hfits.2
          omega
        refine ⟨_, tail, htail, rfl, fun w hw => ?_, ?_⟩
        · have := hsmall w hw
          omega
        rcases aggregated_aggregate_cases haggregated with ⟨hout, hall⟩ | hshort
        · exact .inl ⟨hout, fun _ => hall⟩
        · exact .inr hshort
      · simp at hfirst
  | fragment u sizes =>
    rcases sizes with _ | ⟨n, _ | ⟨m, sizes⟩⟩
    · simp [Group.isEmpty] at hempty
    · simp [Group.lone] at hlone
    · have hne : u ≠ [] := by
        rcases hplain u (by simp [Group.chunk]) with hu | hu
        · exact isNal_ne_nil hu
        · exact hu.1
      have hpayloads : (Group.fragment u (n :: m :: sizes)).payloads =
          fuAPayloads u kNaluHeaderSize true (n :: m :: sizes) := rfl
      rw [hpayloads, depacketize_fuA (by simp)] at h
      split at h
      · obtain ⟨tail, htail, rfl⟩ := Option.map_eq_some_iff.mp h
        refine ⟨[headerOf u :: (u.drop kNaluHeaderSize).take (n :: m :: sizes).sum], tail, htail, rfl, ?_, ?_⟩
        · have hlt := hfits.2.sum_lt
          simp only [List.mem_singleton, forall_eq, List.length_cons, List.length_take]
          omega
        by_cases hlen : u.length ≤ 2^31
        · have hsum := (hfits.2.split hlen).fits.sum
          rw [hsum, List.take_of_length_le (by simp), header_cons hne]
          exact .inl ⟨rfl, hlen⟩
        · have hsum := hfits.2.sum_add_le hlen
          refine .inr (.here ?_)
          simp only [kNaluHeaderSize, List.length_cons, List.length_take] at hsum ⊢
          omega
      · simp at h

end Groups

section Plans
variable {capacity : ℕ} {limits : ValidLimits capacity} {count i : ℕ} {groups : List Group}

theorem depacketize_groups (hfits : PlanFits limits count i groups)
    (hnal : ∀ u ∈ groups.flatMap Group.chunk, isNal u) (hfields : ∀ g ∈ groups, g.FieldsFit) :
    depacketize none (groups.flatMap Group.payloads) = some (groups.flatMap Group.chunk) := by
  induction groups generalizing i with
  | nil => rfl
  | cons g groups ih =>
    have ih := ih hfits.2 (fun u hu => hnal u (by simp at hu ⊢; exact .inr hu)) fun g' hg' => hfields g' (by simp [hg'])
    rw [List.flatMap_cons, depacketize_group hfits.1 (fun u hu => hnal u (by simp [hu])) (hfields g (by simp)), ih]
    rfl

theorem depacketize_groups_cases (hfits : PlanFits limits count i groups)
    (hempty : ∀ g ∈ groups, g.isEmpty = false) (hlone : ∀ g ∈ groups, g.lone = false)
    (hplain : ∀ u ∈ groups.flatMap Group.chunk, Plain u) {units : List Bytes}
    (h : depacketize none (groups.flatMap Group.payloads) = some units) :
    units = groups.flatMap Group.chunk ∧ (∀ g ∈ groups, g.FieldsFit) ∨
      ShortAt (groups.flatMap Group.chunk) units := by
  induction groups generalizing i units with
  | nil =>
    refine .inl ⟨?_, by simp⟩
    exact (Option.some.inj h).symm
  | cons g groups ih =>
    rw [List.flatMap_cons] at h
    obtain ⟨out, tail, htail, rfl, -, hout⟩ := depacketize_group_cases hfits.1 (hempty g (by simp))
      (hlone g (by simp)) (fun u hu => hplain u (by simp [hu])) h
    have ih := ih hfits.2 (fun g' hg' => hempty g' (by simp [hg'])) (fun g' hg' => hlone g' (by simp [hg']))
      (fun u hu => hplain u (by simp at hu ⊢; exact .inr hu)) htail
    rw [List.flatMap_cons]
    rcases hout with ⟨rfl, hfield⟩ | hshort
    · rcases ih with ⟨rfl, hfields⟩ | hshort
      · exact .inl ⟨rfl, by simpa using ⟨hfield, hfields⟩⟩
      · exact .inr (hshort.prepend _)
    · exact .inr (hshort.append _ _)

/-- A unit of more than 2^31 bytes can only come in fragments. -/
def Long (u : Bytes) : Bool := 2^31 < u.length

theorem countP_long_eq_zero {units : List Bytes} (h : ∀ u ∈ units, u.length ≤ 2^31) : units.countP Long = 0 := by
  rw [List.countP_eq_zero]
  intro u hu
  simpa [Long] using h u hu

/-- A group that is no lone piece does not go on with a unit that is begun. -/
theorem receive_pending_eq_none {g : Group} (hempty : g.isEmpty = false) (hlone : g.lone = false)
    (hplain : ∀ u ∈ g.chunk, Plain u) (w : Bytes) (rest : List Bytes) :
    depacketize (some w) (g.payloads ++ rest) = none := by
  by_contra hsome
  obtain ⟨units, h⟩ := Option.ne_none_iff_exists'.mp hsome
  cases g with
  | aggregate us =>
    rcases us with _ | ⟨u, _ | ⟨v, us⟩⟩
    · simp [Group.isEmpty] at hempty
    · obtain ⟨first, pending, tail, hfirst, -, -⟩ := depacketize_cons_eq_some.mp h
      obtain ⟨header, fuHeader, data, rfl, htype, -, -⟩ := receive_pending hfirst
      rcases hplain (header :: fuHeader :: data) (by simp [Group.chunk]) with hu | hu
      · obtain ⟨b, t, hb, hle⟩ := isNal_iff.mp hu
        rw [← (List.cons.inj hb).1, htype] at hle
        simp [H264Payload.fuA] at hle
      · rw [show headerOf (header :: fuHeader :: data) = header from rfl, htype] at hu
        simp [H264Payload.fuA] at hu
    · rw [payloads_stapA, List.singleton_append] at h
      obtain ⟨first, pending, tail, hfirst, -, -⟩ := depacketize_cons_eq_some.mp h
      obtain ⟨header, fuHeader, data, hpacket, htype, -, -⟩ := receive_pending hfirst
      rw [← (List.cons.inj hpacket).1, stapA_type] at htype
      simp [H264Payload.fuA, H264Payload.stapA] at htype
  | fragment u sizes =>
    rcases sizes with _ | ⟨n, _ | ⟨m, sizes⟩⟩
    · simp [Group.isEmpty] at hempty
    · simp [Group.lone] at hlone
    · obtain ⟨first, pending, tail, hfirst, -, -⟩ := depacketize_cons_eq_some.mp h
      obtain ⟨header, fuHeader, data, hpacket, -, hstart, -⟩ := receive_pending hfirst
      obtain ⟨-, htail⟩ := List.cons.inj hpacket
      rw [← (List.cons.inj htail).1] at hstart
      have hfirst : startBit (fuHeaderOf (headerOf u) true false) = false := hstart
      rw [fuHeaderOf_startBit] at hfirst
      simp at hfirst

/-- Lone pieces yield fewer long units than there are of them: the first one begins a unit
at best. -/
theorem long_lt_lone (hfits : PlanFits limits count i groups) (hempty : ∀ g ∈ groups, g.isEmpty = false)
    (hplain : ∀ u ∈ groups.flatMap Group.chunk, Plain u) :
    (∀ units, depacketize none (groups.flatMap Group.payloads) = some units →
      units.countP Long ≤ groups.countP Group.lone ∧
        (0 < groups.countP Group.lone → units.countP Long < groups.countP Group.lone)) ∧
    ∀ w units, depacketize (some w) (groups.flatMap Group.payloads) = some units →
      0 < groups.countP Group.lone ∧ units.countP Long ≤ groups.countP Group.lone := by
  induction groups generalizing i with
  | nil =>
    refine ⟨fun units h => ?_, fun w units h => by simp [depacketize] at h⟩
    obtain rfl := Option.some.inj h
    simp
  | cons g groups ih =>
    have ih := ih hfits.2 (fun g' hg' => hempty g' (by simp [hg'])) fun u hu => hplain u (by simp at hu ⊢; exact .inr hu)
    have hg := hempty g (by simp)
    have hchunk : ∀ u ∈ g.chunk, Plain u := fun u hu => hplain u (by simp [hu])
    simp only [List.flatMap_cons]
    cases hlone : g.lone with
    | false =>
      rw [List.countP_cons_of_neg (by simp [hlone])]
      refine ⟨fun units h => ?_, fun w units h => ?_⟩
      · obtain ⟨out, tail, htail, rfl, hsmall, -⟩ := depacketize_group_cases hfits.1 hg hlone hchunk h
        rw [List.countP_append, countP_long_eq_zero hsmall, Nat.zero_add]
        exact ih.1 tail htail
      · rw [receive_pending_eq_none hg hlone hchunk] at h
        simp at h
    | true =>
      rw [List.countP_cons_of_pos (by simp [hlone])]
      obtain ⟨u, n, rfl⟩ : ∃ u n, g = .fragment u [n] := by
        rcases g with us | ⟨u, _ | ⟨n, _ | ⟨m, sizes⟩⟩⟩ <;> simp [Group.lone] at hlone
        exact ⟨u, n, rfl⟩
      have hn : ((u.drop kNaluHeaderSize).take n).length ≤ 2^31 := by
        have := hfits.1.2.sum_lt
        simp only [List.sum_singleton] at this
        rw [List.length_take]
        omega
      have hpayloads : (Group.fragment u [n]).payloads = [(u.drop kNaluHeaderSize).take n] := rfl
      rw [hpayloads, List.singleton_append]
      refine ⟨fun units h => ?_, fun w units h => ?_⟩
      · obtain ⟨first, pending, tail, hfirst, htail, rfl⟩ := depacketize_cons_eq_some.mp h
        have hzero := countP_long_eq_zero fun v hv => (receive_length_le hfirst v hv).trans hn
        rw [List.countP_append, hzero]
        cases pending with
        | none =>
          have := ih.1 tail htail
          omega
        | some w =>
          have := ih.2 w tail htail
          omega
      · obtain ⟨first, pending, tail, hfirst, htail, rfl⟩ := depacketize_cons_eq_some.mp h
        obtain ⟨header, fuHeader, data, -, -, -, hr⟩ := receive_pending hfirst
        rw [List.countP_append]
        split at hr
        · obtain ⟨rfl, rfl⟩ := Prod.mk.inj hr
          have hone : [w ++ data].countP Long ≤ 1 := List.countP_le_length
          have := ih.1 tail htail
          omega
        · obtain ⟨rfl, rfl⟩ := Prod.mk.inj hr
          have := ih.2 _ tail htail
          simp
          omega

/-- The units that a lone piece can stand for. -/
def Huge (u : Bytes) : Bool := 2^32 + 2 ≤ u.length

theorem long_of_huge {u : Bytes} (h : Huge u) : Long u := by
  simp only [Huge, Long, decide_eq_true_eq] at h ⊢
  omega

theorem lone_le_huge (hfits : PlanFits limits count i groups) :
    groups.countP Group.lone ≤ (groups.flatMap Group.chunk).countP Huge := by
  induction groups generalizing i with
  | nil => simp
  | cons g groups ih =>
    have ih := ih hfits.2
    rw [List.flatMap_cons, List.countP_append]
    cases hlone : g.lone with
    | false =>
      rw [List.countP_cons_of_neg (by simp [hlone])]
      omega
    | true =>
      obtain ⟨u, n, rfl⟩ : ∃ u n, g = .fragment u [n] := by
        rcases g with us | ⟨u, _ | ⟨n, _ | ⟨m, sizes⟩⟩⟩ <;> simp [Group.lone] at hlone
        exact ⟨u, n, rfl⟩
      have hpieces : Pieces limits.toPayloadLimits count i u [n] := hfits.1.2
      have hlen : ¬ u.length ≤ 2^31 := fun hle => by
        have := hpieces.two_le hle
        simp at this
      have hzero : remainOf (u.length - kNaluHeaderSize) ≠ 0 := fun h => by
        have := hpieces.nil h
        simp at this
      have hhuge : Huge u = true := by
        have := remainOf_pos_le (Nat.pos_of_ne_zero hzero)
        simp only [Huge, decide_eq_true_eq]
        simp only [kNaluHeaderSize] at this
        omega
      have hcount : [u].countP Huge = 1 := by
        simp [hhuge]
      rw [List.countP_cons_of_pos hlone]
      simp only [Group.chunk, hcount]
      omega

end Plans

end RtpFormat
end XrtcServer
