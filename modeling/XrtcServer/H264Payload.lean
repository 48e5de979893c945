import XrtcServer.ByteFormat
import Mathlib.Data.List.Basic

/-! The receiving side of the RTP payload format for H.264 video: single NAL unit packets,
aggregation packets (STAP-A) and fragmentation units (FU-A). -/
namespace H264Payload
open ByteFormat

/-- The type in the first byte of a NAL unit or of a packet. -/
def nalType (header : UInt8) : ℕ := (header &&& 0x1F).toNat

def stapA : ℕ := 24

def fuA : ℕ := 28

/-- A NAL unit that a stream may hold; the types above 23 are the payload format's own. -/
def isNal : Bytes → Bool
  | [] => false
  | header :: _ => 1 ≤ nalType header ∧ nalType header ≤ 23

/-- The units of an aggregation packet, each behind its length. -/
def aggregated (body : Bytes) : Option (List Bytes) :=
  match body with
  | [] => some []
  | [_] => none
  | hi :: lo :: rest =>
    if beNat [hi, lo] ≤ rest.length ∧ isNal (rest.take (beNat [hi, lo])) then
      (aggregated (rest.drop (beNat [hi, lo]))).map (rest.take (beNat [hi, lo]) :: ·)
    else none
termination_by body.length
decreasing_by
  simp only [List.length_drop, List.length_cons]
  omega

def startBit (fuHeader : UInt8) : Bool := fuHeader &&& 0x80 ≠ 0

def endBit (fuHeader : UInt8) : Bool := fuHeader &&& 0x40 ≠ 0

/-- The header of a fragmented unit, from the two headers of a fragment. -/
def joinHeaders (indicator fuHeader : UInt8) : UInt8 := (indicator &&& 0xE0) ||| (fuHeader &&& 0x1F)

/-- A fragment, with the unit that the fragments before it have begun. -/
def receiveFragment (pending : Option Bytes) (indicator fuHeader : UInt8) (data : Bytes) :
    Option (List Bytes × Option Bytes) :=
  match pending with
  | none =>
    let unit := joinHeaders indicator fuHeader :: data
    if startBit fuHeader ∧ ¬ endBit fuHeader ∧ isNal unit then some ([], some unit) else none
  | some unit =>
    if startBit fuHeader then none
    else if endBit fuHeader then some ([unit ++ data], none)
    else some ([], some (unit ++ data))

/-- One packet: the units that it completes, and the one that stays begun. A packet that
breaks the format is rejected. -/
def receive (pending : Option Bytes) : Bytes → Option (List Bytes × Option Bytes)
  | [] => none
  | header :: body =>
    if nalType header = fuA then
      match body with
      | [] => none
      | fuHeader :: data => receiveFragment pending header fuHeader data
    else if pending ≠ none then none
    else if nalType header = stapA then
      match aggregated body with
      | some (unit :: units) => some (unit :: units, none)
      | _ => none
    else if isNal (header :: body) then some ([header :: body], none)
    else none

/-- The units of a sequence of packets, where no unit may stay begun. -/
def depacketize (pending : Option Bytes) : List Bytes → Option (List Bytes)
  | [] => if pending = none then some [] else none
  | packet :: packets =>
    (receive pending packet).bind fun r => (depacketize r.2 packets).map (r.1 ++ ·)

theorem isNal_iff {u : Bytes} :
    isNal u ↔ ∃ header t, u = header :: t ∧ 1 ≤ nalType header ∧ nalType header ≤ 23 := by
  cases u <;> simp [isNal]

theorem isNal_append {u : Bytes} (h : isNal u) (data : Bytes) : isNal (u ++ data) := by
  obtain ⟨header, t, rfl, htype⟩ := isNal_iff.mp h
  exact isNal_iff.mpr ⟨header, t ++ data, rfl, htype⟩

theorem depacketize_cons_eq_some {pending : Option Bytes} {packet : Bytes} {packets units : List Bytes} :
    depacketize pending (packet :: packets) = some units ↔
      ∃ first pending' rest, receive pending packet = some (first, pending') ∧
        depacketize pending' packets = some rest ∧ units = first ++ rest := by
  simp only [depacketize, Option.bind_eq_some_iff, Option.map_eq_some_iff, Prod.exists]
  constructor
  · rintro ⟨first, pending', h₁, rest, h₂, rfl⟩
    exact ⟨first, pending', rest, h₁, h₂, rfl⟩
  · rintro ⟨first, pending', rest, h₁, h₂, rfl⟩
    exact ⟨first, pending', h₁, rest, h₂, rfl⟩

theorem depacketize_cons {pending pending' : Option Bytes} {packet : Bytes} {first : List Bytes}
    (h : receive pending packet = some (first, pending')) (packets : List Bytes) :
    depacketize pending (packet :: packets) = (depacketize pending' packets).map (first ++ ·) := by
  simp [depacketize, h]

section Sound

theorem aggregated_isNal {body : Bytes} {units : List Bytes} (h : aggregated body = some units) :
    ∀ u ∈ units, isNal u := by
  induction body using aggregated.induct generalizing units with
  | case1 =>
    rw [aggregated] at h
    simp [← Option.some.inj h]
  | case2 => simp [aggregated] at h
  | case3 hi lo rest hfits ih =>
    rw [aggregated, if_pos hfits] at h
    obtain ⟨tail, htail, rfl⟩ := Option.map_eq_some_iff.mp h
    simpa using ⟨hfits.2, ih htail⟩
  | case4 hi lo rest hfits =>
    rw [aggregated, if_neg hfits] at h
    simp at h

theorem receiveFragment_isNal {pending pending' : Option Bytes} {indicator fuHeader : UInt8} {data : Bytes}
    {units : List Bytes} (hp : ∀ u ∈ pending, isNal u)
    (h : receiveFragment pending indicator fuHeader data = some (units, pending')) :
    (∀ u ∈ units, isNal u) ∧ ∀ u ∈ pending', isNal u := by
  cases pending with
  | none =>
    simp only [receiveFragment] at h
    split at h
    · rename_i hfirst
      obtain ⟨rfl, rfl⟩ : [] = units ∧ some _ = pending' := by simpa using h
      simpa using hfirst.2.2
    · simp at h
  | some unit =>
    have hunit := isNal_append (hp unit rfl) data
    simp only [receiveFragment] at h
    split at h
    · simp at h
    · split at h
      · obtain ⟨rfl, rfl⟩ : [unit ++ data] = units ∧ none = pending' := by simpa using h
        simpa using hunit
      · obtain ⟨rfl, rfl⟩ : [] = units ∧ some (unit ++ data) = pending' := by simpa using h
        simpa using hunit

theorem receive_isNal {pending pending' : Option Bytes} {packet : Bytes} {units : List Bytes}
    (hp : ∀ u ∈ pending, isNal u) (h : receive pending packet = some (units, pending')) :
    (∀ u ∈ units, isNal u) ∧ ∀ u ∈ pending', isNal u := by
  cases packet with
  | nil => simp [receive] at h
  | cons header body =>
    simp only [receive] at h
    split at h
    · cases body with
      | nil => simp at h
      | cons fuHeader data => exact receiveFragment_isNal hp h
    · split at h
      · simp at h
      · split at h
        · split at h
          · rename_i unit rest hbody
            obtain ⟨rfl, rfl⟩ : unit :: rest = units ∧ none = pending' := by simpa using h
            exact ⟨aggregated_isNal hbody, by simp⟩
          · simp at h
        · split at h
          · rename_i hnal
            obtain ⟨rfl, rfl⟩ : [header :: body] = units ∧ none = pending' := by simpa using h
            simpa using hnal
          · simp at h

/-- What comes out are NAL units of a stream. -/
theorem depacketize_isNal {packets units : List Bytes} {pending : Option Bytes} (hp : ∀ u ∈ pending, isNal u)
    (h : depacketize pending packets = some units) : ∀ u ∈ units, isNal u := by
  induction packets generalizing pending units with
  | nil =>
    simp only [depacketize] at h
    split at h
    · simp [← Option.some.inj h]
    · simp at h
  | cons packet packets ih =>
    obtain ⟨first, pending', rest, hfirst, hrest, rfl⟩ := depacketize_cons_eq_some.mp h
    have hreceive := receive_isNal hp hfirst
    have hih := ih hreceive.2 hrest
    simp only [List.mem_append]
    rintro u (hu | hu)
    · exact hreceive.1 u hu
    · exact hih u hu

end Sound

/-- Two lists of units agree up to one that the second list has with fewer bytes, by more
than a start code. -/
inductive ShortAt : List Bytes → List Bytes → Prop
  | here {u short : Bytes} {us vs : List Bytes} : short.length + 4 < u.length → ShortAt (u :: us) (short :: vs)
  | later {u : Bytes} {us vs : List Bytes} : ShortAt us vs → ShortAt (u :: us) (u :: vs)

namespace ShortAt
variable {us vs : List Bytes}

theorem prepend (ws : List Bytes) (h : ShortAt us vs) : ShortAt (ws ++ us) (ws ++ vs) := by
  induction ws with
  | nil => exact h
  | cons w ws ih => exact ih.later

theorem append (xs ys : List Bytes) (h : ShortAt us vs) : ShortAt (us ++ xs) (vs ++ ys) := by
  induction h with
  | here h => exact here h
  | later _ ih => exact ih.later

theorem ne (h : ShortAt us vs) : us ≠ vs := by
  induction h with
  | here h =>
    intro heq
    rw [(List.cons.inj heq).1] at h
    omega
  | later _ ih => exact fun heq => ih (List.cons.inj heq).2

/-- The lists part before their last units, or these differ by more than a start code. -/
theorem not_last {u : Bytes} (h : ShortAt (us ++ [u]) (us ++ vs)) :
    ∃ short rest, vs = short :: rest ∧ short.length + 4 < u.length := by
  induction us with
  | nil =>
    cases h with
    | here h => exact ⟨_, _, rfl, h⟩
    | later h => cases h
  | cons w us ih =>
    cases h with
    | here h => omega
    | later h => exact ih h

end ShortAt

/-- The body of an aggregation packet as a sender writes it. -/
def aggregate (units : List Bytes) : Bytes := units.flatMap fun u => toBE 2 u.length ++ u

theorem aggregated_length {n : ℕ} {rest : Bytes} :
    aggregated (toBE 2 n ++ rest) =
      if n % 65536 ≤ rest.length ∧ isNal (rest.take (n % 65536)) then
        (aggregated (rest.drop (n % 65536))).map (rest.take (n % 65536) :: ·)
      else none := by
  have hn : beNat (toBE 2 n) = n % 65536 := beNat_toBE 2 n
  obtain ⟨hi, lo, htwo⟩ : ∃ hi lo, toBE 2 n = [hi, lo] := ⟨_, _, rfl⟩
  rw [htwo] at hn ⊢
  rw [List.cons_append, List.cons_append, List.nil_append, aggregated, hn]

theorem aggregated_cons {u : Bytes} (h : u.length < 65536) (rest : Bytes) :
    aggregated (toBE 2 u.length ++ u ++ rest) =
      if isNal u then (aggregated rest).map (u :: ·) else none := by
  rw [List.append_assoc, aggregated_length, Nat.mod_eq_of_lt h]
  simp

/-- The receiver finds the units that the sender aggregated. -/
theorem aggregated_aggregate {us : List Bytes} (h : ∀ u ∈ us, isNal u ∧ u.length < 65536) :
    aggregated (aggregate us) = some us := by
  induction us with
  | nil => simp [aggregate, aggregated]
  | cons u us ih =>
    have hu := h u (by simp)
    have ih := ih fun v hv => h v (by simp [hv])
    rw [aggregate, List.flatMap_cons, aggregated_cons hu.2, if_pos hu.1]
    rw [aggregate] at ih
    simp [ih]

/-- A length that does not fit its two bytes makes the receiver part from the sender. -/
theorem aggregated_aggregate_cases {us out : List Bytes} (h : aggregated (aggregate us) = some out) :
    (out = us ∧ ∀ u ∈ us, u.length < 65536) ∨ ShortAt us out := by
  induction us generalizing out with
  | nil =>
    simp only [aggregate, List.flatMap_nil, aggregated] at h
    simp [← Option.some.inj h]
  | cons u us ih =>
    rw [aggregate, List.flatMap_cons] at h
    rcases Nat.lt_or_ge u.length 65536 with hlt | hge
    · rw [aggregated_cons hlt] at h
      split at h
      · obtain ⟨tail, htail, rfl⟩ := Option.map_eq_some_iff.mp h
        rcases ih htail with ⟨rfl, hall⟩ | hshort
        · exact .inl ⟨rfl, by simpa [hlt] using hall⟩
        · exact .inr hshort.later
      · simp at h
    · rw [List.append_assoc, aggregated_length] at h
      split at h
      · obtain ⟨tail, htail, rfl⟩ := Option.map_eq_some_iff.mp h
        refine .inr (.here ?_)
        have hmod := Nat.mod_add_div u.length 65536
        rw [List.length_take]
        omega
      · simp at h

section Receive

theorem receive_single {u : Bytes} (h : isNal u) : receive none u = some ([u], none) := by
  obtain ⟨header, t, rfl, htype⟩ := isNal_iff.mp h
  have hfuA : nalType header ≠ fuA := by
    simp only [fuA]
    omega
  have hstapA : nalType header ≠ stapA := by
    simp only [stapA]
    omega
  simp [receive, hfuA, hstapA, h]

theorem receive_stapA {header : UInt8} {body : Bytes} (hh : nalType header = stapA) :
    receive none (header :: body) =
      match aggregated body with
      | some (unit :: units) => some (unit :: units, none)
      | _ => none := by
  simp [receive, hh, stapA, fuA]

theorem receive_fuA {pending : Option Bytes} {header fuHeader : UInt8} {data : Bytes}
    (hh : nalType header = fuA) :
    receive pending (header :: fuHeader :: data) = receiveFragment pending header fuHeader data := by
  simp [receive, hh]

/-- While a unit is begun only a fragment goes on. -/
theorem receive_pending {u packet : Bytes} {r : List Bytes × Option Bytes}
    (h : receive (some u) packet = some r) :
    ∃ header fuHeader data, packet = header :: fuHeader :: data ∧ nalType header = fuA ∧
      startBit fuHeader = false ∧
      r = if endBit fuHeader then ([u ++ data], none) else ([], some (u ++ data)) := by
  cases packet with
  | nil => simp [receive] at h
  | cons header body =>
    simp only [receive] at h
    split at h
    · rename_i hh
      cases body with
      | nil => simp at h
      | cons fuHeader data =>
        refine ⟨header, fuHeader, data, rfl, hh, ?_⟩
        simp only [receiveFragment] at h
        split at h
        · simp at h
        · rename_i hstart
          refine ⟨by simpa using hstart, ?_⟩
          split at h <;> rename_i hend <;> simpa [hend] using h.symm
    · simp at h

theorem aggregated_length_le {body : Bytes} {units : List Bytes} (h : aggregated body = some units) :
    ∀ u ∈ units, u.length ≤ body.length := by
  induction body using aggregated.induct generalizing units with
  | case1 =>
    rw [aggregated] at h
    simp [← Option.some.inj h]
  | case2 => simp [aggregated] at h
  | case3 hi lo rest hfits ih =>
    rw [aggregated, if_pos hfits] at h
    obtain ⟨tail, htail, rfl⟩ := Option.map_eq_some_iff.mp h
    have ih := ih htail
    simp only [List.mem_cons, List.length_cons, List.length_drop, forall_eq_or_imp, List.length_take] at ih ⊢
    exact ⟨by omega, fun u hu => by have := ih u hu; omega⟩
  | case4 hi lo rest hfits =>
    rw [aggregated, if_neg hfits] at h
    simp at h

/-- No unit is longer than the packet that it comes from, unless it came in fragments. -/
theorem receive_length_le {packet : Bytes} {units : List Bytes} {pending : Option Bytes}
    (h : receive none packet = some (units, pending)) : ∀ u ∈ units, u.length ≤ packet.length := by
  cases packet with
  | nil => simp [receive] at h
  | cons header body =>
    simp only [receive] at h
    split at h
    · cases body with
      | nil => simp at h
      | cons fuHeader data =>
        simp only [receiveFragment] at h
        split at h
        · obtain ⟨rfl, -⟩ : [] = units ∧ some _ = pending := by simpa using h
          simp
        · simp at h
    · split at h
      · simp at h
      · split at h
        · split at h
          · rename_i unit rest hbody
            obtain ⟨rfl, -⟩ : unit :: rest = units ∧ none = pending := by simpa using h
            intro u hu
            have := aggregated_length_le hbody u hu
            simp only [List.length_cons]
            omega
          · simp at h
        · split at h
          · obtain ⟨rfl, -⟩ : [header :: body] = units ∧ none = pending := by simpa using h
            simp
          · simp at h

end Receive

end H264Payload
