import XrtcServer.H264Packing

/-! The packetizer and RFC 6184 depacketization: for which payloads every NAL unit arrives. -/
namespace XrtcServer
namespace RtpFormat
open ByteFormat AnnexB H264Payload

/-- No unit has to be fragmented: each has room in a packet of its own. -/
def Whole (limits : PayloadLimits) (units : List Bytes) : Prop :=
  ∀ i u, units[i]? = some u → u.length ≤ singlePacketCapacity limits units.length i

/-- The packets for the payload carry its NAL units, and neither a byte outside a unit nor
a popped packet unit is read for them. -/
def Delivers (capacity : ℕ) (limits : PayloadLimits) (payload : Bytes) : Prop :=
  ∃ p p' sent, RtpPacketizerH264.make payload limits = some p ∧ p.send capacity = some (p', sent) ∧
    Packs limits payload p sent p' ∧ p'.readPopped = false

section Fragmented
variable {capacity : ℕ} (limits : ValidLimits capacity) {count : ℕ}

theorem length_le_of_joins {i : ℕ} {current : List Bytes} {u : Bytes} (hlen : current.length ≤ i) (hi : i < count)
    (h : Joins limits.toPayloadLimits count i current u) :
    u.length ≤ singlePacketCapacity limits.toPayloadLimits count i := by
  obtain ⟨hne, hsize⟩ := h
  have hpos := List.length_pos_of_ne_nil hne
  simp only [stapASize, List.map_append, List.sum_append, List.map_cons, List.map_nil, List.sum_cons,
    List.sum_nil, List.length_append, List.length_singleton] at hsize
  rw [singlePacketCapacity, if_neg (by omega), if_neg (by omega)]
  split at hsize <;> split <;> simp_all <;> omega

theorem close_fragmented (current : List Bytes) : (close current).any Group.fragmented = false := by
  cases current <;> simp [close, Group.fragmented]

theorem forall_getElem?_cons (P : ℕ → Bytes → Prop) {u : Bytes} {us : List Bytes} {i : ℕ} :
    (∀ j v, (u :: us)[j]? = some v → P (i + j) v) ↔ P i u ∧ ∀ j v, us[j]? = some v → P (i + 1 + j) v := by
  refine ⟨fun h => ⟨h 0 u rfl, fun j v hv => ?_⟩, fun h j v hv => ?_⟩
  · have := h (j + 1) v hv
    rwa [show i + (j + 1) = i + 1 + j by omega] at this
  · cases j with
    | zero => exact Option.some.inj hv ▸ h.1
    | succ j =>
      rw [show i + (j + 1) = i + 1 + j by omega]
      exact h.2 j v hv

/-- The plan fragments exactly the units that are too long for a packet of their own. -/
theorem plan_fragmented {i : ℕ} {current us : List Bytes} (hlen : current.length ≤ i)
    (hcount : i + us.length = count) (hint : ∀ u ∈ us, u.length ≤ 2^31) :
    (plan limits.toPayloadLimits count i current us).any Group.fragmented = false ↔
      ∀ j u, us[j]? = some u → u.length ≤ singlePacketCapacity limits.toPayloadLimits count (i + j) := by
  induction us generalizing i current with
  | nil => simp [plan, close_fragmented]
  | cons u us ih =>
    rw [List.length_cons] at hcount
    have hrest : ∀ v ∈ us, v.length ≤ 2^31 := fun v hv => hint v (by simp [hv])
    rw [plan, forall_getElem?_cons (fun j v => v.length ≤ singlePacketCapacity limits.toPayloadLimits count j)]
    by_cases hjoins : Joins limits.toPayloadLimits count i current u
    · have hu := length_le_of_joins limits hlen (by omega) hjoins
      rw [if_pos hjoins, ih (by simpa using hlen) (by omega) hrest]
      exact ⟨fun h => ⟨hu, h⟩, fun h => h.2⟩
    · rw [if_neg hjoins, List.any_append, close_fragmented, Bool.false_or]
      by_cases hcap : u.length > singlePacketCapacity limits.toPayloadLimits count i
      · have hsplit := (splitAboutEqual_pieces limits (by omega) hcap).2.split (hint u (by simp))
        have htwo : (Group.fragment u (fuASizes limits.toPayloadLimits count i u)).fragmented = true := by
          simpa [Group.fragmented] using hsplit.two_le
        rw [if_pos hcap, List.any_cons, htwo]
        simp [hcap]
      · rw [if_neg hcap, ih (by simp) (by omega) hrest]
        simp [not_lt.mp hcap]

theorem groupsOf_fragmented {units : List Bytes} (hint : ∀ u ∈ units, u.length ≤ 2^31) :
    (groupsOf limits.toPayloadLimits units).any Group.fragmented = false ↔ Whole limits.toPayloadLimits units := by
  rw [groupsOf, plan_fragmented limits (by simp) (by simp) hint, Whole]
  simp

theorem Whole.length_le {units : List Bytes} (h : Whole limits.toPayloadLimits units) :
    ∀ u ∈ units, u.length ≤ 2^31 := by
  intro u hu
  obtain ⟨i, hi⟩ := List.mem_iff_getElem?.mp hu
  have hcap := h i u hi
  have hmax := singlePacketCapacity_le limits units.length i
  have hint := limits.max_int
  omega

end Fragmented

section Delivery
variable {capacity : ℕ} (limits : ValidLimits capacity) (payload : Bytes)

/-- What is fragmented of the fragments is fragmented of the units, when these can be
packed. -/
theorem fragmented_of_packable (hpack : Packable limits.toPayloadLimits (nalUnits payload)) :
    (groupsOf limits.toPayloadLimits (fragmentsOf payload)).any Group.fragmented =
      (groupsOf limits.toPayloadLimits (nalUnits payload)).any Group.fragmented := by
  rcases fragmentsOf_cases payload with ⟨heq, -⟩ | ⟨hone, hnil⟩ | ⟨us, last, code, -, -, -, hunits, -⟩
  · rw [heq]
  · rw [hone, hnil, (groupsOf_fragmented limits (by simp)).mpr (by simp [Whole]),
      (groupsOf_fragmented limits (by simp)).mpr ?_]
    intro i u hu
    have hmem := List.mem_of_getElem? hu
    rw [List.mem_singleton.mp hmem]
    exact Nat.zero_le _
  · rcases hpack.nal with hone | hnal
    · have := congrArg List.length (hunits.symm.trans hone)
      simp at this
    · exact absurd (hnal [] (by simp [hunits])) (by simp [isNal])

/-- All NAL units arrive exactly when they can be packed and none of them has to be
fragmented. -/
theorem delivers_iff :
    Delivers capacity limits.toPayloadLimits payload ↔
      Packable limits.toPayloadLimits (nalUnits payload) ∧ Whole limits.toPayloadLimits (nalUnits payload) := by
  constructor
  · rintro ⟨p, p', sent, hmake, hsend, hpacks, hpopped⟩
    obtain ⟨hpack, hint⟩ := packable_of_packs limits payload hmake hsend hpacks
    obtain ⟨q, q', sent', hmake', hsend', -, hpopped'⟩ := packs_of_packable limits payload hpack hint
    obtain rfl := Option.some.inj (hmake.symm.trans hmake')
    obtain ⟨rfl, -⟩ := Prod.mk.inj (Option.some.inj (hsend.symm.trans hsend'))
    refine ⟨hpack, (groupsOf_fragmented limits hint).mp ?_⟩
    rw [← fragmented_of_packable limits payload hpack, ← hpopped', hpopped]
  · rintro ⟨hpack, hwhole⟩
    have hint := Whole.length_le limits hwhole
    obtain ⟨p, p', sent, hmake, hsend, hpacks, hpopped⟩ := packs_of_packable limits payload hpack hint
    refine ⟨p, p', sent, hmake, hsend, hpacks, ?_⟩
    rw [hpopped, fragmented_of_packable limits payload hpack]
    exact (groupsOf_fragmented limits hint).mpr hwhole

end Delivery

/-- The limits that the sender configures, without reductions, for packets of `max` bytes. -/
def plainLimits (max : ℕ) (hmax : max ≤ 1488) (hroom : 3 ≤ max) : ValidLimits 1500 where
  maxPayloadLen := max
  singlePacketReductionLen := 0
  firstPacketReductionLen := 0
  lastPacketReductionLen := 0
  max_le := by simpa [RtpPacketToSend.freeCapacity, kFixedHeaderSize] using hmax
  max_int := hmax.trans_lt (by decide)
  single_room := by omega
  first_room := by omega
  last_room := by omega

/-- A start code at the end of the payload is sent as a part of the unit before it, and a
unit of eight bytes that needs two packets of six makes the packetizer read a popped unit. -/
theorem trailingStartCode_not_delivered :
    ¬ Delivers 1500 (plainLimits 1200 (by decide) (by decide)).toPayloadLimits [0, 0, 1, 0x41, 0, 0, 1] ∧
    ¬ Delivers 1500 (plainLimits 6 (by decide) (by decide)).toPayloadLimits [0, 0, 1, 0x41, 1, 2, 3, 4, 5, 6, 7] := by
  constructor
  · rintro ⟨p, p', sent, hmake, hsend, hpacks, -⟩
    obtain ⟨q, q', hmake', -, hsend', -⟩ :=
      send_eq (plainLimits 1200 (by decide) (by decide)) [0, 0, 1, 0x41, 0, 0, 1]
    obtain rfl := Option.some.inj (hmake.symm.trans hmake')
    obtain ⟨rfl, rfl⟩ := Prod.mk.inj (Option.some.inj (hsend.symm.trans hsend'))
    have hunits := hpacks.units
    rw [fragmentsOf_eq] at hunits
    revert hunits
    decide
  · have hfragments : fragmentsOf [0, 0, 1, 0x41, 1, 2, 3, 4, 5, 6, 7] = [[0x41, 1, 2, 3, 4, 5, 6, 7]] := by
      rw [fragmentsOf_eq]
      decide
    have hint : ∀ u ∈ fragmentsOf [0, 0, 1, 0x41, 1, 2, 3, 4, 5, 6, 7], u.length ≤ 2^31 := by
      simp [hfragments]
    rintro ⟨p, p', sent, hmake, hsend, -, hpopped⟩
    obtain ⟨q, q', hmake', -, hsend', hreads⟩ :=
      send_eq (plainLimits 6 (by decide) (by decide)) [0, 0, 1, 0x41, 1, 2, 3, 4, 5, 6, 7]
    obtain rfl := Option.some.inj (hmake.symm.trans hmake')
    obtain ⟨rfl, -⟩ := Prod.mk.inj (Option.some.inj (hsend.symm.trans hsend'))
    split at hreads
    · obtain ⟨u, hu, hlong⟩ := long_of_isEmpty _ _ ‹_›
      exact absurd (hint u hu) (not_le.mpr hlong)
    · have hwhole := (groupsOf_fragmented _ hint).mp (hreads.2.symm.trans hpopped)
      rw [hfragments] at hwhole
      exact absurd (hwhole 0 _ rfl) (by decide)

end RtpFormat
end XrtcServer
