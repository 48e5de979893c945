import Mathlib.Algebra.Order.BigOperators.Group.List
import XrtcServer.H264RoundTrip

/-! When the packets of the H.264 packetizer carry the NAL units of their payload, within
the payload limits. -/
namespace XrtcServer
namespace RtpFormat
open ByteFormat AnnexB H264Payload

section Limits
variable {capacity : ℕ} {limits : ValidLimits capacity} {count i : ℕ}

/-- The limit for payload `j` of `n`. -/
def limitFor (limits : PayloadLimits) (n j : ℕ) : ℕ :=
  if n = 1 then limits.maxPayloadLen - limits.singlePacketReductionLen
  else if j = 0 then limits.maxPayloadLen - limits.firstPacketReductionLen
  else if j + 1 = n then limits.maxPayloadLen - limits.lastPacketReductionLen
  else limits.maxPayloadLen

theorem fuAPayloads_le {u : Bytes} {offset : ℕ} {first : Bool} {sizes : List ℕ} {cap lastCap n : ℕ}
    (h : SizesFit cap lastCap n sizes) :
    (∀ b ∈ fuAPayloads u offset first sizes, b.length ≤ cap + 2) ∧
      ∀ b ∈ (fuAPayloads u offset first sizes).getLast?, b.length ≤ lastCap + 2 := by
  obtain ⟨-, -, -, hcap, hlast⟩ := h
  clear n
  induction sizes generalizing offset first with
  | nil => simp [fuAPayloads]
  | cons m sizes ih =>
    have ih := @ih (offset + m) false (fun s hs => hcap s (by simp [hs]))
    cases sizes with
    | nil =>
      have h₁ := hcap m (by simp)
      have h₂ := hlast m (by simp)
      simp only [fuAPayloads, List.mem_singleton, forall_eq, List.length_cons, List.length_take,
        List.getLast?_singleton, Option.mem_def, Option.some.injEq, forall_eq']
      omega
    | cons k sizes =>
      have h₁ := hcap m (by simp)
      have ih := ih fun s hs => hlast s (by rwa [List.getLast?_cons_cons])
      have hcons : fuAPayloads u offset first (m :: k :: sizes) =
          (((headerOf u &&& (kFBit ||| kNriMask)) ||| RtpFormat.kFuA) ::
            fuHeaderOf (headerOf u) first false :: (u.drop offset).take m) ::
              fuAPayloads u (offset + m) false (k :: sizes) := by
        simp [fuAPayloads, fuHeaderOf]
      have hne : fuAPayloads u (offset + m) false (k :: sizes) ≠ [] := by
        simp [fuAPayloads]
      rw [hcons, List.getLast?_cons_of_ne_nil hne]
      refine ⟨fun b hb => ?_, ih.2⟩
      rcases List.mem_cons.mp hb with rfl | hb
      · simp only [List.length_cons, List.length_take]
        omega
      · exact ih.1 b hb

theorem payloads_fuA {u : Bytes} {sizes : List ℕ} (h : 2 ≤ sizes.length) :
    (Group.fragment u sizes).payloads = fuAPayloads u kNaluHeaderSize true sizes := by
  rcases sizes with _ | ⟨n, _ | ⟨m, sizes⟩⟩
  · simp at h
  · simp at h
  · rfl

/-- The payloads of one group that begins at fragment `i`. A unit that is alone in its
payload is left to the single packet reduction. -/
theorem group_bounds {g : Group} (hfits : g.Fits limits count i) (hfields : g.FieldsFit) :
    (∀ b ∈ g.payloads, b.length ≤ limits.maxPayloadLen) ∧
      (i = 0 → count ≠ 1 ∨ g.fragmented = true →
        ∀ b ∈ g.payloads.head?, b.length + limits.firstPacketReductionLen ≤ limits.maxPayloadLen) ∧
      (i + g.chunk.length = count → count ≠ 1 ∨ g.fragmented = true →
        ∀ b ∈ g.payloads.getLast?, b.length + limits.lastPacketReductionLen ≤ limits.maxPayloadLen) := by
  have hfirst := limits.first_room
  have hlast := limits.last_room
  cases g with
  | aggregate us =>
    rcases us with _ | ⟨u, _ | ⟨v, us⟩⟩
    · exact absurd rfl hfits.1
    · have hcap : u.length ≤ singlePacketCapacity limits.toPayloadLimits count i := hfits
      have hmax := singlePacketCapacity_le limits count i
      simp only [singlePacketCapacity] at hcap hmax
      simp only [Group.payloads, Group.chunk, Group.fragmented, List.mem_singleton, forall_eq, List.head?_cons,
        List.getLast?_singleton, Option.mem_def, Option.some.injEq, forall_eq', List.length_singleton,
        Bool.false_eq_true, or_false]
      grind
    · have hsize := hfits.2
      have hlen := aggregate_length (u :: v :: us)
      simp only [payloads_stapA, Group.chunk, List.mem_singleton, forall_eq, List.head?_cons,
        List.getLast?_singleton, Option.mem_def, Option.some.injEq, forall_eq']
      rw [List.length_cons, hlen]
      refine ⟨by omega, fun h₀ _ => ?_, fun h₀ _ => ?_⟩
      · rw [if_pos h₀] at hsize
        omega
      · rw [if_pos h₀] at hsize
        omega
  | fragment u sizes =>
    have hsplit := hfits.2.split hfields
    have hall := @fuAPayloads_le u kNaluHeaderSize true sizes _ _ _ hsplit.fits
    rw [payloads_fuA hsplit.two_le]
    simp only [fuALimits_max, fuALimits_last] at hall
    refine ⟨fun b hb => ?_, fun h₀ _ b hb => ?_, fun h₀ _ b hb => ?_⟩
    · have := hall.1 b hb
      omega
    · rcases sizes with _ | ⟨n, sizes⟩
      · simp [fuAPayloads] at hb
      · have hhead := hsplit.first_le n (by simp)
        simp only [fuALimits_max, fuALimits_first, h₀, if_true] at hhead
        simp only [fuAPayloads, List.head?_cons, Option.mem_def, Option.some.injEq] at hb
        rw [← hb]
        simp only [List.length_cons, List.length_take]
        omega
    · have := hall.2 b hb
      rw [if_pos (by simp only [Group.chunk, List.length_singleton] at h₀; omega)] at this
      omega

theorem groups_le {groups : List Group} (hfits : PlanFits limits count i groups)
    (hfields : ∀ g ∈ groups, g.FieldsFit) :
    ∀ b ∈ groups.flatMap Group.payloads, b.length ≤ limits.maxPayloadLen := by
  induction groups generalizing i with
  | nil => simp
  | cons g groups ih =>
    have hg := (group_bounds hfits.1 (hfields g (by simp))).1
    have ih := ih hfits.2 fun g' hg' => hfields g' (by simp [hg'])
    simp only [List.flatMap_cons, List.mem_append]
    rintro b (hb | hb)
    · exact hg b hb
    · exact ih b hb

theorem groups_last {groups : List Group} (hfits : PlanFits limits count i groups)
    (hfields : ∀ g ∈ groups, g.FieldsFit) (hempty : ∀ g ∈ groups, g.isEmpty = false)
    (h : count ≠ 1 ∨ ∀ g ∈ groups, g.fragmented = true) :
    ∀ b ∈ (groups.flatMap Group.payloads).getLast?,
      b.length + limits.lastPacketReductionLen ≤ limits.maxPayloadLen := by
  induction groups generalizing i with
  | nil => simp
  | cons g groups ih =>
    cases groups with
    | nil =>
      have hg := (group_bounds hfits.1 (hfields g (by simp))).2.2 hfits.2
        (h.imp id fun h => h g (by simp))
      simpa using hg
    | cons g' groups =>
      have hne : (g' :: groups).flatMap Group.payloads ≠ [] := by
        simp [payloads_ne_nil (hempty g' (by simp))]
      rw [List.flatMap_cons, List.getLast?_append_of_ne_nil _ hne]
      exact ih hfits.2 (fun g₁ h₁ => hfields g₁ (by simp [h₁])) (fun g₁ h₁ => hempty g₁ (by simp [h₁]))
        (h.imp id fun h g₁ h₁ => h g₁ (by simp [h₁]))

theorem payloads_length_pos {g : Group} (h : g.isEmpty = false) : 0 < g.payloads.length :=
  List.length_pos_iff.mpr (payloads_ne_nil h)

/-- A plan whose fragmented units have a length that an int holds has no empty group. -/
theorem PlanFits.isEmpty_of_short {groups : List Group} (hfits : PlanFits limits count i groups)
    (h : ∀ u sizes, .fragment u sizes ∈ groups → u.length ≤ 2^31) : ∀ g ∈ groups, g.isEmpty = false := by
  induction groups generalizing i with
  | nil => simp
  | cons g groups ih =>
    have ih := ih hfits.2 fun u sizes hmem => h u sizes (List.mem_cons_of_mem _ hmem)
    refine List.forall_mem_cons.mpr ⟨?_, ih⟩
    have hg := hfits.1
    rcases g with ⟨_ | ⟨u, us⟩⟩ | ⟨u, sizes⟩
    · exact absurd rfl hg.1
    · rfl
    · have := hg.2.two_le (h u sizes (by simp))
      rcases sizes with _ | ⟨n, sizes⟩
      · simp at this
      · rfl

theorem PlanFits.isEmpty {groups : List Group} (hfits : PlanFits limits count i groups)
    (hfields : ∀ g ∈ groups, g.FieldsFit) : ∀ g ∈ groups, g.isEmpty = false :=
  hfits.isEmpty_of_short fun u sizes hmem => hfields (.fragment u sizes) hmem

/-- A unit of a plan is as short as its packet or its field. -/
theorem PlanFits.unit_le {groups : List Group} (hfits : PlanFits limits count i groups)
    (hfields : ∀ g ∈ groups, g.FieldsFit) : ∀ g ∈ groups, ∀ u ∈ g.chunk, u.length ≤ 2^31 := by
  have hint := limits.max_int
  induction groups generalizing i with
  | nil => simp
  | cons g groups ih =>
    have ih := ih hfits.2 fun g' hg' => hfields g' (by simp [hg'])
    refine List.forall_mem_cons.mpr ⟨fun u hu => ?_, ih⟩
    have hg := hfits.1
    rcases g with ⟨_ | ⟨v, _ | ⟨w, us⟩⟩⟩ | ⟨v, sizes⟩
    · simp [Group.chunk] at hu
    · have hcap : v.length ≤ singlePacketCapacity limits.toPayloadLimits count i := hg
      have := singlePacketCapacity_le limits count i
      obtain rfl : u = v := by simpa [Group.chunk] using hu
      omega
    · have hsize := hg.2
      have hmem : u.length ≤ ((v :: w :: us).map List.length).sum :=
        List.single_le_sum (fun _ _ => Nat.zero_le _) _ (List.mem_map_of_mem hu)
      simp only [stapASize] at hsize
      omega
    · obtain rfl : u = v := by simpa [Group.chunk] using hu
      exact hfields (.fragment u sizes) (by simp)

theorem PlanFits.chunk_length {groups : List Group} (hfits : PlanFits limits count i groups) :
    i + (groups.flatMap Group.chunk).length = count := by
  induction groups generalizing i with
  | nil => exact hfits
  | cons g groups ih =>
    have ih := ih hfits.2
    rw [List.flatMap_cons, List.length_append]
    omega

theorem chunk_length_pos {g : Group} (h : g.isEmpty = false) : 0 < g.chunk.length := by
  rcases g with ⟨_ | _⟩ | _ <;> simp_all [Group.isEmpty, Group.chunk]

/-- A payload of one unit that needs more than one packet is fragmented. -/
theorem fragmented_of_one {groups : List Group} (hfits : PlanFits limits 1 0 groups)
    (hfields : ∀ g ∈ groups, g.FieldsFit) (h : (groups.flatMap Group.payloads).length ≠ 1) :
    ∀ g ∈ groups, g.fragmented = true := by
  have hempty := hfits.isEmpty hfields
  have hlen := hfits.chunk_length
  rcases groups with _ | ⟨g, _ | ⟨g', groups⟩⟩
  · simp
  · rcases g with ⟨_ | ⟨u, _ | ⟨v, us⟩⟩⟩ | ⟨u, sizes⟩
    · simp [Group.chunk] at hlen
    · simp [Group.payloads] at h
    · simp [Group.chunk] at hlen
    · simpa [Group.fragmented] using hfits.1.2.two_le (hfields (.fragment u sizes) (by simp))
  · have h₁ := chunk_length_pos (hempty g (by simp))
    have h₂ := chunk_length_pos (hempty g' (by simp))
    simp only [List.flatMap_cons, List.length_append] at hlen
    omega

/-- A payload that is the only one keeps to the single packet reduction. -/
theorem only_payload_fits {g : Group} (hfits : PlanFits limits count 0 [g]) (hfields : g.FieldsFit)
    (hone : g.payloads.length = 1)
    (hsingle : ∀ us, g = .aggregate us → 2 ≤ us.length →
      stapASize us + limits.singlePacketReductionLen ≤ limits.maxPayloadLen) :
    ∀ b ∈ g.payloads, b.length ≤ limits.maxPayloadLen - limits.singlePacketReductionLen := by
  have hcount : 0 + g.chunk.length = count := hfits.2
  rcases g with ⟨_ | ⟨u, _ | ⟨v, us⟩⟩⟩ | ⟨u, sizes⟩
  · exact absurd rfl hfits.1.1
  · have hcap : u.length ≤ singlePacketCapacity limits.toPayloadLimits count 0 := hfits.1
    rw [← hcount] at hcap
    simpa [singlePacketCapacity, Group.chunk, Group.payloads] using hcap
  · have hsize := hsingle (u :: v :: us) rfl (by simp)
    have hlen := aggregate_length (u :: v :: us)
    simp only [payloads_stapA, List.mem_singleton, forall_eq]
    rw [List.length_cons, hlen]
    omega
  · have htwo := hfits.1.2.two_le hfields
    simp only [payloads_fragment_length] at hone
    omega

/-- Every payload keeps to the limit that applies to it, when a single aggregation packet
with everything in it also leaves room for the single packet reduction. -/
theorem payloads_fit {groups : List Group} (hfits : PlanFits limits count 0 groups)
    (hfields : ∀ g ∈ groups, g.FieldsFit)
    (hsingle : ∀ us, groups = [.aggregate us] → 2 ≤ us.length →
      stapASize us + limits.singlePacketReductionLen ≤ limits.maxPayloadLen) :
    ∀ j b, (groups.flatMap Group.payloads)[j]? = some b →
      b.length ≤ limitFor limits.toPayloadLimits (groups.flatMap Group.payloads).length j := by
  have hempty := hfits.isEmpty hfields
  rcases groups with _ | ⟨g, groups⟩
  · simp
  have hgf := hfields g (by simp)
  have hpos := payloads_length_pos (hempty g (by simp))
  by_cases hone : ((g :: groups).flatMap Group.payloads).length = 1
  · -- one payload: its group is an aggregation packet with every unit
    have hnil : groups = [] := by
      rcases groups with _ | ⟨g', groups⟩
      · rfl
      · have := payloads_length_pos (hempty g' (by simp))
        simp at hone
        omega
    subst hnil
    intro j b hb
    rw [limitFor, hone, if_pos rfl]
    simp only [List.flatMap_cons, List.flatMap_nil, List.append_nil] at hb hone
    exact only_payload_fits hfits hgf hone (fun us hus => hsingle us (by rw [hus])) b (List.mem_of_getElem? hb)
  · have hcount : count ≠ 1 ∨ ∀ g' ∈ g :: groups, g'.fragmented = true := by
      by_cases hcount : count = 1
      · subst hcount
        exact .inr (fragmented_of_one hfits hfields hone)
      · exact .inl hcount
    have hmax := groups_le hfits hfields
    have hhead := (group_bounds hfits.1 hgf).2.1 rfl (hcount.imp id fun h => h g (by simp))
    have hlast := groups_last hfits hfields hempty hcount
    intro j b hb
    have hb' := hmax b (List.mem_of_getElem? hb)
    rw [limitFor, if_neg hone]
    by_cases hj : j = 0
    · rw [if_pos hj]
      have hb₀ : b ∈ g.payloads.head? := by
        rw [hj, ← List.head?_eq_getElem?, List.flatMap_cons, List.head?_append] at hb
        cases hp : g.payloads with
        | nil => simp [hp] at hpos
        | cons b' bs => simpa [hp] using hb
      have := hhead b hb₀
      omega
    · rw [if_neg hj]
      split
      · rename_i hend
        have hb₁ : b ∈ ((g :: groups).flatMap Group.payloads).getLast? := by
          rw [List.getLast?_eq_getElem?, ← hend]
          exact hb
        have := hlast b hb₁
        omega
      · exact hb'

/-- Units that fit one aggregation packet together go in one. -/
theorem plan_all {current us : List Bytes} (hne : current ≠ []) (hcount : current.length + us.length = count)
    (h : stapASize (current ++ us) + limits.firstPacketReductionLen + limits.lastPacketReductionLen ≤
      limits.maxPayloadLen) :
    plan limits.toPayloadLimits count current.length current us = [.aggregate (current ++ us)] := by
  induction us generalizing current with
  | nil =>
    cases current with
    | nil => exact absurd rfl hne
    | cons u us => simp [plan, close]
  | cons u us ih =>
    have hjoins : Joins limits.toPayloadLimits count current.length current u := by
      refine ⟨hne, ?_⟩
      simp only [stapASize, List.map_append, List.sum_append, List.length_append, List.map_cons, List.sum_cons,
        List.map_nil, List.sum_nil, List.length_cons, List.length_nil] at h ⊢
      split <;> split <;> omega
    have ih := @ih (current ++ [u]) (by simp) (by simp at hcount ⊢; omega) (by simpa using h)
    rw [plan, if_pos hjoins]
    simpa using ih

theorem groupsOf_all {units : List Bytes} (htwo : 2 ≤ units.length)
    (h : stapASize units + limits.firstPacketReductionLen + limits.lastPacketReductionLen ≤ limits.maxPayloadLen) :
    groupsOf limits.toPayloadLimits units = [.aggregate units] := by
  rcases units with _ | ⟨u, us⟩
  · simp at htwo
  · have hnil : ¬ Joins limits.toPayloadLimits (u :: us).length 0 [] u := fun h => h.1 rfl
    have hcap : ¬ u.length > singlePacketCapacity limits.toPayloadLimits (u :: us).length 0 := by
      simp only [stapASize, List.map_cons, List.sum_cons] at h
      rw [singlePacketCapacity, if_neg (by omega), if_pos rfl]
      omega
    have hplan := @plan_all _ limits (u :: us).length [u] us (by simp) (by simp [Nat.add_comm]) h
    rw [groupsOf, plan, if_neg hnil, if_neg hcap]
    exact hplan

end Limits

section Sent
variable {capacity : ℕ}

theorem sentPackets_getElem? (last : Bool) (bs : List Bytes) (j : ℕ) :
    (sentPackets capacity last bs)[j]? = bs[j]?.map fun b =>
      { ({ capacity } : RtpPacketToSend).write b with marker := last && decide (j + 1 = bs.length) } := by
  induction bs generalizing j with
  | nil => simp [sentPackets]
  | cons b bs ih =>
    cases j with
    | zero => simp [sentPackets]
    | succ j => simp [sentPackets, ih]

theorem write_payload {b : Bytes} (h : (({ capacity } : RtpPacketToSend).write b).overrun = false) :
    (({ capacity } : RtpPacketToSend).write b).payload = b := by
  simp only [RtpPacketToSend.write] at h ⊢
  split at h
  · simp at h
  · rename_i hlt
    rw [if_neg hlt]

theorem write_overrun {b : Bytes} (h : kFixedHeaderSize + b.length ≤ capacity) :
    (({ capacity } : RtpPacketToSend).write b).overrun = false := by
  rw [RtpPacketToSend.write, if_neg (by simpa using h)]

theorem sentPackets_payloads {last : Bool} {bs : List Bytes}
    (h : ∀ packet ∈ sentPackets capacity last bs, packet.overrun = false) :
    (sentPackets capacity last bs).map (·.payload) = bs := by
  induction bs with
  | nil => rfl
  | cons b bs ih =>
    simp only [sentPackets, List.forall_mem_cons] at h
    have hb : (({ capacity } : RtpPacketToSend).write b).payload = b := write_payload h.1
    have ih := ih h.2
    rw [sentPackets, List.map_cons, ih]
    exact congrArg (· :: bs) hb

end Sent

/-- What the calls of `NextPacket` send is a packing of the payload's NAL units. -/
structure Packs (limits : PayloadLimits) (payload : Bytes) (p : RtpPacketizerH264) (sent : List RtpPacketToSend)
    (p' : RtpPacketizerH264) : Prop where
  units : depacketize none (sent.map (·.payload)) = some ((nalUnits payload).filter (· ≠ []))
  fits : ∀ j packet, sent[j]? = some packet →
    packet.overrun = false ∧ packet.payload.length ≤ limitFor limits sent.length j
  numPackets : p.numPacketsLeft = sent.length
  marker : ∀ j packet, sent[j]? = some packet → packet.marker = decide (j + 1 = sent.length)
  readOutside : p'.readOutside = false

/-- The payload's NAL units can be packed: each is one that a stream may hold, those that
share an aggregation packet have lengths that fit its fields, and one packet that takes
them all keeps to the single packet reduction. -/
structure Packable (limits : PayloadLimits) (units : List Bytes) : Prop where
  nal : units = [[]] ∨ ∀ u ∈ units, isNal u
  short : ∀ us, .aggregate us ∈ groupsOf limits units → 2 ≤ us.length → ∀ u ∈ us, u.length < 65536
  single : 2 ≤ units.length →
    stapASize units + limits.firstPacketReductionLen + limits.lastPacketReductionLen ≤ limits.maxPayloadLen →
    stapASize units + limits.singlePacketReductionLen ≤ limits.maxPayloadLen

section Fragments

/-- The fragments against the NAL units of the payload: a start code at the very end is
missed. -/
theorem fragmentsOf_cases (payload : Bytes) :
    fragmentsOf payload = nalUnits payload ∧ (nalUnits payload).getLast? ≠ some [] ∨
    nalUnits payload = [[]] ∧ fragmentsOf payload = [] ∨
    ∃ units last code, code.length ≤ 4 ∧ nalType (headerOf code) = 0 ∧ code ≠ [] ∧
      nalUnits payload = units ++ [last, []] ∧ fragmentsOf payload = units ++ [last ++ code] := by
  rw [fragmentsOf_eq, nalUnits]
  rcases cutFrom_one payload with h | ⟨code, hcode, h⟩
  · refine .inl ⟨by rw [h], ?_⟩
    rw [← h]
    exact (cutFrom_one_last payload).2
  · have hcode' : code.length ≤ 4 ∧ nalType (headerOf code) = 0 ∧ code ≠ [] := by
      rcases hcode with rfl | rfl <;> decide
    cases hc : cutFrom 0 0 payload with
    | mk before units =>
      cases hc' : cutFrom 1 0 payload with
      | mk before' units' =>
        rw [hc, hc'] at h
        cases h with
        | only => exact .inr (.inl ⟨rfl, rfl⟩)
        | last _ us last => exact .inr (.inr ⟨us, last, code, hcode'.1, hcode'.2.1, hcode'.2.2, rfl, rfl⟩)

theorem filter_ne_nil {units : List Bytes} (h : ∀ u ∈ units, u ≠ []) : units.filter (· ≠ []) = units := by
  rw [List.filter_eq_self]
  simpa using h

end Fragments

section Packable
variable {capacity : ℕ} {limits : ValidLimits capacity} {payload : Bytes}

/-- The fragments of a packable payload are its NAL units, or there are none. -/
theorem Packable.fragments (h : Packable limits.toPayloadLimits (nalUnits payload)) :
    (∀ u ∈ fragmentsOf payload, isNal u) ∧
      (nalUnits payload).filter (· ≠ []) = fragmentsOf payload ∧
      (fragmentsOf payload = nalUnits payload ∨ fragmentsOf payload = []) := by
  rcases fragmentsOf_cases payload with ⟨heq, hlast⟩ | ⟨hunits, hnil⟩ | ⟨us, last, code, -, -, -, hunits, -⟩
  · rcases h.nal with hone | hnal
    · rw [hone] at hlast
      exact absurd rfl hlast
    · rw [heq]
      exact ⟨hnal, filter_ne_nil fun u hu => isNal_ne_nil (hnal u hu), .inl rfl⟩
  · rw [hnil, hunits]
    exact ⟨by simp, by simp, .inr rfl⟩
  · rcases h.nal with hone | hnal
    · have hlen := congrArg List.length (hunits.symm.trans hone)
      simp at hlen
    · exact absurd (hnal [] (by simp [hunits])) (by simp [isNal])

theorem Packable.fieldsFit (h : Packable limits.toPayloadLimits (nalUnits payload))
    (hint : ∀ u ∈ nalUnits payload, u.length ≤ 2^31) :
    ∀ g ∈ groupsOf limits.toPayloadLimits (fragmentsOf payload), g.FieldsFit := by
  rcases h.fragments.2.2 with heq | hnil
  · intro g hg
    cases g with
    | aggregate us => exact h.short us (heq ▸ hg)
    | fragment u sizes =>
      have hu : u ∈ fragmentsOf payload := by
        rw [← groupsOf_chunk limits (fragmentsOf payload)]
        exact List.mem_flatMap.mpr ⟨_, hg, by simp [Group.chunk]⟩
      exact hint u (heq ▸ hu)
  · rw [hnil]
    simp [groupsOf, plan, close]

/-- An aggregation packet that takes every fragment keeps to the single packet reduction. -/
theorem Packable.single_aggregate (h : Packable limits.toPayloadLimits (nalUnits payload)) {us : List Bytes}
    (hus : groupsOf limits.toPayloadLimits (fragmentsOf payload) = [.aggregate us]) (htwo : 2 ≤ us.length) :
    stapASize us + limits.singlePacketReductionLen ≤ limits.maxPayloadLen := by
  have hfits := groupsOf_fits limits (fragmentsOf payload)
  have hchunk := groupsOf_chunk limits (fragmentsOf payload)
  rw [hus] at hfits hchunk
  have hunits : us = fragmentsOf payload := by
    simpa [Group.chunk] using hchunk
  have hsize : stapASize us + limits.firstPacketReductionLen + limits.lastPacketReductionLen ≤
      limits.maxPayloadLen := by
    have hlast : 0 + us.length = (fragmentsOf payload).length := hfits.2
    rcases us with _ | ⟨u, _ | ⟨v, us⟩⟩
    · simp at htwo
    · simp at htwo
    · have hfit := hfits.1.2
      rwa [if_pos rfl, if_pos hlast] at hfit
  rcases h.fragments.2.2 with heq | hnil
  · rw [hunits, heq] at htwo hsize ⊢
    exact h.single htwo hsize
  · rw [hunits, hnil] at htwo
    simp at htwo

/-- Payloads that keep to their limits fit the packets that they are written into. -/
theorem sentPackets_fit {bs : List Bytes} (hmax : ∀ b ∈ bs, b.length ≤ limits.maxPayloadLen)
    (hle : ∀ j b, bs[j]? = some b → b.length ≤ limitFor limits.toPayloadLimits bs.length j)
    {j : ℕ} {packet : RtpPacketToSend} (h : (sentPackets capacity true bs)[j]? = some packet) :
    packet.overrun = false ∧ packet.payload.length ≤ limitFor limits.toPayloadLimits bs.length j ∧
      packet.marker = decide (j + 1 = bs.length) := by
  rw [sentPackets_getElem?] at h
  obtain ⟨b, hb, rfl⟩ := Option.map_eq_some_iff.mp h
  have hover : (({ capacity } : RtpPacketToSend).write b).overrun = false := by
    have hlen := hmax b (List.mem_of_getElem? hb)
    have hfree := limits.max_le
    have hroom := limits.single_room
    simp only [RtpPacketToSend.freeCapacity, List.length_nil] at hfree
    exact write_overrun (by omega)
  refine ⟨hover, ?_, by simp⟩
  show (({ capacity } : RtpPacketToSend).write b).payload.length ≤ _
  rw [write_payload hover]
  exact hle j b hb

end Packable

section Packing
variable {capacity : ℕ} (limits : ValidLimits capacity) (payload : Bytes)

/-- The packets of the groups, where the sizes fit their fields. -/
theorem packs_of_packable (hpack : Packable limits.toPayloadLimits (nalUnits payload))
    (hint : ∀ u ∈ nalUnits payload, u.length ≤ 2^31) :
    ∃ p p' sent, RtpPacketizerH264.make payload limits.toPayloadLimits = some p ∧
      p.send capacity = some (p', sent) ∧ Packs limits.toPayloadLimits payload p sent p' ∧
      p'.readPopped = (groupsOf limits.toPayloadLimits (fragmentsOf payload)).any Group.fragmented := by
  obtain ⟨p, p', hmake, hnum, hsend, hreads⟩ := send_eq limits payload
  obtain ⟨hnal, hfilter, -⟩ := hpack.fragments
  have hfits := groupsOf_fits limits (fragmentsOf payload)
  have hchunk := groupsOf_chunk limits (fragmentsOf payload)
  have hfields := hpack.fieldsFit hint
  have hany : ¬ (groupsOf limits.toPayloadLimits (fragmentsOf payload)).any Group.isEmpty := by
    simpa using hfits.isEmpty hfields
  have hdepacketize := depacketize_groups hfits (by rwa [hchunk]) hfields
  have hle := payloads_fit hfits hfields fun us hus htwo => hpack.single_aggregate hus htwo
  have hsent := @sentPackets_fit _ limits _ (groups_le hfits hfields) hle
  rw [payloadsOf, if_neg hany] at hnum hsend
  rw [if_neg hany] at hreads
  refine ⟨p, p', _, hmake, hsend, ⟨?_, ?_, ?_, ?_, ?_⟩, hreads.2⟩
  · rw [sentPackets_payloads fun packet hpacket => ?_, hdepacketize, hchunk, hfilter]
    obtain ⟨j, hj⟩ := List.mem_iff_getElem?.mp hpacket
    exact (hsent hj).1
  · intro j packet hpacket
    rw [sentPackets_length]
    exact ⟨(hsent hpacket).1, (hsent hpacket).2.1⟩
  · rw [hnum, sentPackets_length]
  · intro j packet hpacket
    rw [sentPackets_length]
    exact (hsent hpacket).2.2
  · rw [hreads.1]
    simpa using fun u hu => isNal_ne_nil (hnal u hu)

/-- There is a long unit for every huge fragment, also when the last unit has a start code
behind it, or is nothing but that. -/
theorem huge_le_long {fragments expected : List Bytes} {code : Bytes} (hcode : code.length ≤ 4)
    (h : expected = fragments ∨ ∃ units last, fragments = units ++ [last ++ code] ∧
      (expected = units ++ [last] ∨ last = [] ∧ expected = units)) :
    fragments.countP Huge ≤ expected.countP Long := by
  rcases h with rfl | ⟨units, last, rfl, heq⟩
  · exact List.countP_mono_left fun u _ hu => long_of_huge hu
  · rw [List.countP_append]
    have hunits : units.countP Huge ≤ units.countP Long := List.countP_mono_left fun u _ hu => long_of_huge hu
    rcases heq with rfl | ⟨rfl, rfl⟩
    · rw [List.countP_append]
      have hlast : [last ++ code].countP Huge ≤ [last].countP Long := by
        by_cases hhuge : Huge (last ++ code)
        · have hlong : Long last = true := by
            simp only [Huge, List.length_append, decide_eq_true_eq] at hhuge
            simp only [Long, decide_eq_true_eq]
            omega
          simp [hhuge, hlong]
        · simp [hhuge]
      omega
    · have hnot : Huge code = false := by
        simp only [Huge, decide_eq_false_iff_not]
        omega
      simpa [hnot] using hunits

/-- What follows from a packing, when the packetizer has fragments and gave none up. -/
theorem fieldsFit_of_depacketize {expected : List Bytes} (code : Bytes)
    (hempty : ∀ g ∈ groupsOf limits.toPayloadLimits (fragmentsOf payload), g.isEmpty = false)
    (hplain : ∀ u ∈ fragmentsOf payload, Plain u) (hcode : code.length ≤ 4)
    (hexpected : expected = fragmentsOf payload ∨
      ∃ units last, fragmentsOf payload = units ++ [last ++ code] ∧
        (expected = units ++ [last] ∨ last = [] ∧ expected = units))
    (h : depacketize none ((groupsOf limits.toPayloadLimits (fragmentsOf payload)).flatMap Group.payloads) =
      some expected) :
    expected = fragmentsOf payload ∧ ∀ g ∈ groupsOf limits.toPayloadLimits (fragmentsOf payload), g.FieldsFit := by
  have hfits := groupsOf_fits limits (fragmentsOf payload)
  have hchunk := groupsOf_chunk limits (fragmentsOf payload)
  have hlone : ∀ g ∈ groupsOf limits.toPayloadLimits (fragmentsOf payload), g.lone = false := by
    -- a lone piece stands for a unit of 2^32 bytes or more, and these are too few then
    by_contra hcon
    have hpos : 0 < (groupsOf limits.toPayloadLimits (fragmentsOf payload)).countP Group.lone := by
      rw [List.countP_pos_iff]
      simpa using hcon
    have hlt := ((long_lt_lone hfits hempty (by rwa [hchunk])).1 expected h).2 hpos
    have hle := lone_le_huge hfits
    have hhuge := huge_le_long hcode hexpected
    rw [hchunk] at hle
    omega
  rcases depacketize_groups_cases hfits hempty hlone (by rwa [hchunk]) h with ⟨heq, hfields⟩ | hshort
  · exact ⟨heq.trans hchunk, hfields⟩
  · rw [hchunk] at hshort
    rcases hexpected with rfl | ⟨units, last, hfragments, heq⟩
    · exact absurd rfl hshort.ne
    · rw [hfragments] at hshort
      rcases heq with rfl | ⟨rfl, rfl⟩
      · obtain ⟨short, rest, hlast, hlt⟩ := hshort.not_last
        rw [← (List.cons.inj hlast).1, List.length_append] at hlt
        omega
      · have hshort : ShortAt (expected ++ [[] ++ code]) (expected ++ []) := by
          simpa using hshort
        obtain ⟨short, rest, hlast, -⟩ := hshort.not_last
        cases hlast

theorem packable_of_fieldsFit {p p' : RtpPacketizerH264} (heq : fragmentsOf payload = nalUnits payload)
    (h : Packs limits.toPayloadLimits payload p
      (sentPackets capacity true (payloadsOf limits.toPayloadLimits (fragmentsOf payload))) p')
    (hnal : ∀ u ∈ nalUnits payload, isNal u)
    (hfields : ∀ g ∈ groupsOf limits.toPayloadLimits (nalUnits payload), g.FieldsFit) :
    Packable limits.toPayloadLimits (nalUnits payload) ∧ ∀ u ∈ nalUnits payload, u.length ≤ 2^31 := by
  have hfits := groupsOf_fits limits (nalUnits payload)
  have hchunk := groupsOf_chunk limits (nalUnits payload)
  refine ⟨⟨.inr hnal, fun us hus => hfields _ hus, fun htwo hall => ?_⟩, ?_⟩
  · have hgroups := groupsOf_all htwo hall
    have hfit := h.fits
    have hlen := aggregate_length (nalUnits payload)
    rw [heq, payloadsOf, hgroups] at hfit
    generalize nalUnits payload = units at htwo hfit hlen
    rcases units with _ | ⟨u, _ | ⟨v, us⟩⟩
    · simp at htwo
    · simp at htwo
    · simp only [List.any_cons, List.any_nil, Group.isEmpty, reduceCtorEq, decide_false, Bool.or_self,
        Bool.false_eq_true, if_false, List.flatMap_cons, List.flatMap_nil, List.append_nil, payloads_stapA] at hfit
      obtain ⟨hover, hle⟩ := hfit 0 _ (by rw [sentPackets_getElem?]; rfl)
      have hpayload := write_payload hover
      rw [sentPackets_length] at hle
      have hle : ((({ capacity } : RtpPacketToSend).write (((headerOf u &&& (kFBit ||| kNriMask)) ||| kStapA) ::
          aggregate (u :: v :: us))).payload).length ≤ limits.maxPayloadLen - limits.singlePacketReductionLen := hle
      rw [hpayload, List.length_cons, hlen] at hle
      have := limits.single_room
      omega
  · intro u hu
    rw [← hchunk] at hu
    obtain ⟨g, hg, hug⟩ := List.mem_flatMap.mp hu
    exact hfits.unit_le hfields g hg u hug

/-- A packetizer that gives up has a unit too long for an int. -/
theorem long_of_isEmpty
    (h : (groupsOf limits.toPayloadLimits (fragmentsOf payload)).any Group.isEmpty) :
    ∃ u ∈ fragmentsOf payload, 2^31 < u.length := by
  have hfits := groupsOf_fits limits (fragmentsOf payload)
  have hchunk := groupsOf_chunk limits (fragmentsOf payload)
  by_contra hcon
  have hshort : ∀ u ∈ fragmentsOf payload, u.length ≤ 2^31 := fun u hu => by
    by_contra hlt
    exact hcon ⟨u, hu, not_le.mp hlt⟩
  obtain ⟨g, hg, hempty⟩ := List.any_eq_true.mp h
  have hunit : ∀ u sizes, .fragment u sizes ∈ groupsOf limits.toPayloadLimits (fragmentsOf payload) →
      u.length ≤ 2^31 := by
    intro u sizes hmem
    apply hshort
    rw [← hchunk]
    exact List.mem_flatMap.mpr ⟨_, hmem, List.mem_singleton_self u⟩
  rw [hfits.isEmpty_of_short hunit g hg] at hempty
  simp at hempty

/-- A packetizer that gives up had a unit to send. -/
theorem not_isEmpty_of_filter (h : (nalUnits payload).filter (· ≠ []) = []) :
    ¬ (groupsOf limits.toPayloadLimits (fragmentsOf payload)).any Group.isEmpty := by
  intro hany
  obtain ⟨u, hu, hlong⟩ := long_of_isEmpty limits payload hany
  have hmem : ∀ v ∈ nalUnits payload, v = [] := by
    simpa using h
  rcases fragmentsOf_cases payload with ⟨heq, -⟩ | ⟨-, hfragments⟩ | ⟨us, last, code, hcode, -, -, heq, hfragments⟩
  · rw [hmem u (heq ▸ hu)] at hlong
    simp at hlong
  · rw [hfragments] at hu
    simp at hu
  · rw [hfragments] at hu
    rcases List.mem_append.mp hu with hu | hu
    · rw [hmem u (by simp [heq, hu])] at hlong
      simp at hlong
    · rw [List.mem_singleton.mp hu, hmem last (by simp [heq])] at hlong
      simp only [List.nil_append] at hlong
      omega

theorem packable_empty (limits : PayloadLimits) : Packable limits [[]] := by
  refine ⟨.inl rfl, fun us hus htwo => ?_, by simp⟩
  have hnil : ¬ Joins limits ([[]] : List Bytes).length 0 [] [] := fun hjoins => hjoins.1 rfl
  rw [groupsOf, plan, if_neg hnil, if_neg (by simp), plan] at hus
  simp only [close, List.nil_append, List.mem_singleton, Group.aggregate.injEq] at hus
  rw [hus] at htwo
  simp at htwo

/-- A start code at the end that was taken for a part of the last unit is received with it. -/
theorem not_depacketized_of_missed {us : List Bytes} {last code : Bytes} (hcode : code.length ≤ 4)
    (htype : nalType (headerOf code) = 0) (hcode₀ : code ≠ [])
    (hfragments : fragmentsOf payload = us ++ [last ++ code])
    (hempty : ∀ g ∈ groupsOf limits.toPayloadLimits (fragmentsOf payload), g.isEmpty = false)
    (hexpected : ∀ u ∈ us ++ [last].filter (· ≠ []), isNal u) :
    depacketize none ((groupsOf limits.toPayloadLimits (fragmentsOf payload)).flatMap Group.payloads) ≠
      some (us ++ [last].filter (· ≠ [])) := by
  intro hunits
  have hplain : ∀ u ∈ fragmentsOf payload, Plain u := by
    rw [hfragments]
    simp only [List.mem_append, List.mem_singleton]
    rintro u (hu | rfl)
    · exact .inl (hexpected u (by simp [hu]))
    · by_cases hlast : last = []
      · rw [hlast, List.nil_append]
        exact .inr ⟨hcode₀, htype⟩
      · exact .inl (isNal_append (hexpected last (by simp [hlast])) code)
  have hshape : us ++ [last].filter (· ≠ []) = us ++ [last] ∨
      last = [] ∧ us ++ [last].filter (· ≠ []) = us := by
    by_cases hlast : last = [] <;> simp [hlast]
  obtain ⟨hsame, -⟩ := fieldsFit_of_depacketize limits payload code hempty hplain hcode
    (.inr ⟨us, last, hfragments, hshape⟩) hunits
  rw [hfragments] at hsame
  have hlen : ([last].filter (· ≠ [])) = [last ++ code] := List.append_cancel_left hsame
  by_cases hlast : last = []
  · simp [hlast] at hlen
  · simp [hlast] at hlen
    exact absurd hlen hcode₀

/-- A packing needs a packable payload. -/
theorem packable_of_packs {p p' : RtpPacketizerH264} {sent : List RtpPacketToSend}
    (hmake : RtpPacketizerH264.make payload limits.toPayloadLimits = some p) (hsend : p.send capacity = some (p', sent))
    (h : Packs limits.toPayloadLimits payload p sent p') :
    Packable limits.toPayloadLimits (nalUnits payload) ∧ ∀ u ∈ nalUnits payload, u.length ≤ 2^31 := by
  obtain ⟨q, q', hmake', -, hsend', hreads⟩ := send_eq limits payload
  obtain rfl := Option.some.inj (hmake.symm.trans hmake')
  obtain ⟨rfl, rfl⟩ := Prod.mk.inj (Option.some.inj (hsend.symm.trans hsend'))
  have hover : ∀ packet ∈ sentPackets capacity true (payloadsOf limits.toPayloadLimits (fragmentsOf payload)),
      packet.overrun = false := fun packet hpacket => by
    obtain ⟨j, hj⟩ := List.mem_iff_getElem?.mp hpacket
    exact (h.fits j packet hj).1
  have hunits := h.units
  rw [sentPackets_payloads hover] at hunits
  have hexpected := depacketize_isNal (by simp) hunits
  by_cases hany : (groupsOf limits.toPayloadLimits (fragmentsOf payload)).any Group.isEmpty
  · rw [payloadsOf, if_pos hany] at hunits
    exact absurd hany (not_isEmpty_of_filter limits payload (Option.some.inj hunits).symm)
  · rw [payloadsOf, if_neg hany] at hunits
    rw [if_neg hany, h.readOutside] at hreads
    have hne : ∀ u ∈ fragmentsOf payload, u ≠ [] := by
      simpa using hreads.1.symm
    have hempty : ∀ g ∈ groupsOf limits.toPayloadLimits (fragmentsOf payload), g.isEmpty = false := by
      simpa using hany
    rcases fragmentsOf_cases payload with ⟨heq, -⟩ | ⟨hone, -⟩ | ⟨us, last, code, hcode, htype, hcode₀, heq, hfragments⟩
    · have hfilter : (nalUnits payload).filter (· ≠ []) = fragmentsOf payload := by
        rw [← heq]
        exact filter_ne_nil hne
      rw [hfilter] at hunits hexpected
      obtain ⟨-, hfields⟩ := fieldsFit_of_depacketize limits payload [] hempty
        (fun u hu => .inl (hexpected u hu)) (by simp) (.inl rfl) hunits
      rw [heq] at hfields hexpected hne
      exact packable_of_fieldsFit limits payload heq h hexpected hfields
    · rw [hone]
      exact ⟨packable_empty limits.toPayloadLimits, by simp⟩
    · have hus : ∀ u ∈ us, u ≠ [] := fun u hu => hne u (by simp [hfragments, hu])
      have hfilter : (nalUnits payload).filter (· ≠ []) = us ++ [last].filter (· ≠ []) := by
        rw [heq, List.filter_append, filter_ne_nil hus]
        simp [List.filter_cons]
      rw [hfilter] at hunits hexpected
      exact absurd hunits
        (not_depacketized_of_missed limits payload hcode htype hcode₀ hfragments hempty hexpected)

end Packing

end RtpFormat
end XrtcServer
