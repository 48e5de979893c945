import XrtcServer.NaluIndices

/-! The search of the packetizer for NAL units passes over three positions where it can. It
finds what a scan of every position finds, and its entries cut the buffer at the start codes. -/
namespace XrtcServer
namespace RtpFormat
open ByteFormat AnnexB

section Scan
variable (buffer : Bytes)

/-- The start codes from a position on, one position after the other; they do not overlap. -/
def scanFrom (i : ℕ) : List ℕ :=
  if i < buffer.length - kNaluShortStartSequenceSize then
    if StartsAt buffer i then i :: scanFrom (i+3) else scanFrom (i+1)
  else []
termination_by buffer.length - i

/-- A start code ends the entry before it and opens another. -/
def openNalu (sequences : List NaluIndex) (p : ℕ) : List NaluIndex :=
  closeLast sequences (naluAt buffer p).startOffset ++ [naluAt buffer p]

/-- An open entry and those of the start codes behind it, each up to the next. -/
def linkNalus (it : NaluIndex) : List ℕ → List NaluIndex
  | [] => [{ it with payloadSize := buffer.length - it.payloadStartOffset }]
  | p :: ps =>
    { it with payloadSize := (naluAt buffer p).startOffset - it.payloadStartOffset } ::
      linkNalus (naluAt buffer p) ps

/-- The entries of these start codes. -/
def nalusAt : List ℕ → List NaluIndex
  | [] => []
  | p :: ps => linkNalus buffer (naluAt buffer p) ps

end Scan

variable {buffer : Bytes}

theorem scanFrom_one {i : ℕ} (h : ¬ StartsAt buffer i) : scanFrom buffer i = scanFrom buffer (i+1) := by
  by_cases hi : i < buffer.length - kNaluShortStartSequenceSize
  · rw [scanFrom, if_pos hi, if_neg h]
  · rw [scanFrom, if_neg hi, scanFrom, if_neg (by omega)]

theorem scanFrom_three {i : ℕ} (h : ∀ p, i ≤ p → p < i + 3 → ¬ StartsAt buffer p) :
    scanFrom buffer i = scanFrom buffer (i+3) := by
  rw [scanFrom_one (h i le_rfl (by omega)), scanFrom_one (h (i+1) (by omega) (by omega)),
    scanFrom_one (h (i+2) (by omega) (by omega))]

/-- The search opens an entry at each start code of the scan. -/
theorem findFrom_eq (i : ℕ) (sequences : List NaluIndex) :
    findFrom buffer i sequences = (scanFrom buffer i).foldl (openNalu buffer) sequences := by
  induction i, sequences using findFrom.induct buffer with
  | case1 i sequences hi hc ih =>
    have hnone : ∀ p, i ≤ p → p < i + 3 → ¬ StartsAt buffer p := by
      apply not_startsAt_three
      · intro h
        simp [h] at hc
      · apply not_startsAt_third
        intro h
        simp [h] at hc
    rw [findFrom, if_pos hi, if_pos hc, ih, scanFrom_three hnone]
  | case2 i sequences hi hc hone hzero ih =>
    have hstart : StartsAt buffer i := startsAt_iff.mpr
      ⟨by simp only [kNaluShortStartSequenceSize] at hi; omega, hzero.1, hzero.2, hone⟩
    rw [findFrom, if_pos hi, if_neg hc, if_pos hone, if_pos hzero, ih, scanFrom.eq_1 buffer i, if_pos hi,
      if_pos hstart]
    rfl
  | case3 i sequences hi hc hone hzero ih =>
    have hnone : ∀ p, i ≤ p → p < i + 3 → ¬ StartsAt buffer p := by
      apply not_startsAt_three
      · simp [hone]
      · exact fun hs => hzero ⟨(startsAt_iff.mp hs).2.1, (startsAt_iff.mp hs).2.2.1⟩
    rw [findFrom, if_pos hi, if_neg hc, if_pos hone, if_neg hzero, ih, scanFrom_three hnone]
  | case4 i sequences hi hc hone ih =>
    rw [findFrom, if_pos hi, if_neg hc, if_neg hone, ih, scanFrom_one (not_startsAt_third hone)]
  | case5 i sequences hi =>
    rw [findFrom, if_neg hi, scanFrom, if_neg hi]
    rfl

theorem closeLast_foldl (done : List NaluIndex) (it : NaluIndex) (ps : List ℕ) :
    closeLast (ps.foldl (openNalu buffer) (done ++ [it])) buffer.length =
      done ++ linkNalus buffer it ps := by
  induction ps generalizing done it with
  | nil => exact closeLast_concat done it buffer.length
  | cons p ps ih =>
    rw [List.foldl_cons, openNalu, closeLast_concat, ih, linkNalus, List.append_assoc]
    rfl

theorem findNaluIndices_eq : findNaluIndices buffer = nalusAt buffer (scanFrom buffer 0) := by
  have hshort : ∀ ps, closeLast (ps.foldl (openNalu buffer) []) buffer.length = nalusAt buffer ps := by
    intro ps
    cases ps with
    | nil => rfl
    | cons p ps => exact closeLast_foldl [] (naluAt buffer p) ps
  rw [findNaluIndices]
  split
  · rw [scanFrom, if_neg (by omega)]
    rfl
  · rw [findFrom_eq, hshort]

variable (buffer) in
/-- What the scan finds from a position on: start codes in order, with three bytes each and at
least one behind the last. -/
theorem scanFrom_spec (i : ℕ) :
    (∀ p ∈ scanFrom buffer i, i ≤ p ∧ StartsAt buffer p ∧ p + 3 < buffer.length) ∧
      (scanFrom buffer i).Pairwise (fun p q => p + 3 ≤ q) := by
  induction i using scanFrom.induct buffer with
  | case1 i hi hstart ih =>
    rw [scanFrom, if_pos hi, if_pos hstart]
    constructor
    · intro p hp
      rcases List.mem_cons.mp hp with rfl | hp
      · exact ⟨le_rfl, hstart, by simp only [kNaluShortStartSequenceSize] at hi; omega⟩
      · have hrest := ih.1 p hp
        exact ⟨by omega, hrest.2⟩
    · exact List.pairwise_cons.mpr ⟨fun q hq => (ih.1 q hq).1, ih.2⟩
  | case2 i hi hstart ih =>
    rw [scanFrom, if_pos hi, if_neg hstart]
    exact ⟨fun p hp => ⟨by have := (ih.1 p hp).1; omega, (ih.1 p hp).2⟩, ih.2⟩
  | case3 i hi =>
    rw [scanFrom, if_neg hi]
    simp

/-- A start code with its leading zero begins behind the start code before it. -/
theorem le_startOffset {j p : ℕ} (hle : j ≤ p) (hj : byteAt buffer (j-1) = 1) :
    j ≤ (naluAt buffer p).startOffset := by
  rcases Nat.eq_or_lt_of_le hle with rfl | hlt
  · rw [naluAt, if_neg]
    rintro ⟨-, hzero⟩
    rw [hj] at hzero
    cases hzero
  · unfold naluAt
    dsimp only
    split <;> omega

theorem startOffset_le (p : ℕ) : (naluAt buffer p).startOffset ≤ p := by
  unfold naluAt
  dsimp only
  split <;> omega

/-- The bytes of a start code: a fourth byte is the zero before the three. -/
theorem startCode_bytes {p : ℕ} (h : StartsAt buffer p) :
    let code := (buffer.drop (naluAt buffer p).startOffset).take (p + 3 - (naluAt buffer p).startOffset)
    code = [0, 0, 0, 1] ∨ code = [0, 0, 1] ∧
      ((naluAt buffer p).startOffset = 0 ∨ byteAt buffer ((naluAt buffer p).startOffset - 1) ≠ 0) := by
  have hthree : (buffer.drop p).take 3 = [0, 0, 1] := take_three.mpr (startsAt_drop.mpr (by rwa [Nat.add_zero]))
  unfold naluAt
  dsimp only
  split
  · rename_i hzero
    left
    have hlt := h.lt
    rw [show p + 3 - (p - 1) = 3 + 1 by omega, List.drop_eq_getElem_cons (by omega), List.take_succ_cons,
      show p - 1 + 1 = p by omega, hthree]
    congr 1
    have hbyte : buffer[p-1]? = some (byteAt buffer (p-1)) := getElem?_eq_byteAt (by omega)
    rw [List.getElem?_eq_getElem (by omega), hzero.2] at hbyte
    exact Option.some.inj hbyte
  · rename_i hzero
    right
    rw [show p + 3 - p = 3 by omega]
    refine ⟨hthree, ?_⟩
    by_cases hp : p = 0
    · exact Or.inl hp
    · exact Or.inr fun hbyte => hzero ⟨by omega, hbyte⟩

/-- An entry as it was opened. -/
def NaluIndex.opened (it : NaluIndex) : NaluIndex := { it with payloadSize := 0 }

theorem opened_link (it : NaluIndex) (ps : List ℕ) :
    (linkNalus buffer it ps).map NaluIndex.opened = it.opened :: ps.map (naluAt buffer) := by
  induction ps generalizing it with
  | nil => rfl
  | cons p ps ih => rw [linkNalus, List.map_cons, ih, List.map_cons]; rfl

variable (buffer) in
theorem opened_nalusAt (ps : List ℕ) :
    (nalusAt buffer ps).map NaluIndex.opened = ps.map (naluAt buffer) := by
  cases ps with
  | nil => rfl
  | cons p ps => exact opened_link _ ps

/-- The start codes that are still to come do not reach back into an open entry. -/
structure Ahead (buffer : Bytes) (it : NaluIndex) (ps : List ℕ) : Prop where
  opened : byteAt buffer (it.payloadStartOffset - 1) = 1
  within : it.payloadStartOffset ≤ buffer.length
  starts : it.startOffset < it.payloadStartOffset
  behind : ∀ p ∈ ps, it.payloadStartOffset ≤ p ∧ StartsAt buffer p ∧ p + 3 < buffer.length
  spaced : ps.Pairwise (fun p q => p + 3 ≤ q)

theorem ahead_naluAt {p : ℕ} {ps : List ℕ}
    (hall : ∀ q ∈ p :: ps, StartsAt buffer q ∧ q + 3 < buffer.length)
    (hspaced : (p :: ps).Pairwise (fun p q => p + 3 ≤ q)) : Ahead buffer (naluAt buffer p) ps := by
  have hp := hall p List.mem_cons_self
  have hstart : (naluAt buffer p).startOffset ≤ p := startOffset_le p
  have hpair := List.pairwise_cons.mp hspaced
  exact {
    opened := (startsAt_iff.mp hp.1).2.2.2
    within := hp.2.le
    starts := by
      show (naluAt buffer p).startOffset < p + 3
      omega
    behind := fun q hq => ⟨hpair.1 q hq, hall q (List.mem_cons_of_mem p hq)⟩
    spaced := hpair.2 }

theorem Ahead.next {it : NaluIndex} {p : ℕ} {ps : List ℕ} (h : Ahead buffer it (p :: ps)) :
    Ahead buffer (naluAt buffer p) ps :=
  ahead_naluAt (fun q hq => (h.behind q hq).2) h.spaced

/-- An entry ends where the next start code begins, or with the buffer. Since the end is not in
front of its payload, the subtraction that gives the size does not wrap. -/
theorem Ahead.ends {it : NaluIndex} {ps : List ℕ} (h : Ahead buffer it ps) (k : ℕ) (e : NaluIndex)
    (he : (linkNalus buffer it ps)[k]? = some e) : e.payloadStartOffset + e.payloadSize =
      (linkNalus buffer it ps)[k+1]?.elim buffer.length NaluIndex.startOffset := by
  induction ps generalizing it k with
  | nil =>
    cases k with
    | zero =>
      obtain rfl := Option.some.inj he
      exact Nat.add_sub_of_le h.within
    | succ k => simp [linkNalus] at he
  | cons p ps ih =>
    cases k with
    | zero =>
      obtain rfl := Option.some.inj he
      have hle := le_startOffset (h.behind p List.mem_cons_self).1 h.opened
      have hnext : (linkNalus buffer (naluAt buffer p) ps)[0]?.map NaluIndex.opened =
          some (naluAt buffer p) := by
        rw [← List.getElem?_map, opened_link]
        rfl
      obtain ⟨next, hsome, hopened⟩ := Option.map_eq_some_iff.mp hnext
      have hstart : next.opened.startOffset = (naluAt buffer p).startOffset := by rw [hopened]
      show it.payloadStartOffset + ((naluAt buffer p).startOffset - it.payloadStartOffset) =
        (linkNalus buffer (naluAt buffer p) ps)[0]?.elim buffer.length NaluIndex.startOffset
      rw [hsome, Option.elim_some, ← hopened]
      exact Nat.add_sub_of_le (hstart ▸ hle)
    | succ k => exact ih h.next k he

/-- Every entry ends before the start codes behind it. -/
theorem Ahead.apart {it : NaluIndex} {ps : List ℕ} (h : Ahead buffer it ps) :
    (linkNalus buffer it ps).Pairwise fun a b =>
      a.startOffset < b.startOffset ∧ a.payloadStartOffset + a.payloadSize ≤ b.startOffset := by
  induction ps generalizing it with
  | nil => exact List.pairwise_singleton _ _
  | cons p ps ih =>
    refine List.pairwise_cons.mpr ⟨fun b hb => ?_, ih h.next⟩
    have hle := le_startOffset (h.behind p List.mem_cons_self).1 h.opened
    have hmem := List.mem_map_of_mem (f := NaluIndex.opened) hb
    rw [opened_link, List.mem_cons] at hmem
    have hfirst : (naluAt buffer p).startOffset ≤ b.startOffset := by
      rcases hmem with hmem | hmem
      · exact (congrArg NaluIndex.startOffset hmem).ge
      · obtain ⟨q, hq, hopened⟩ := List.mem_map.mp hmem
        have hstart : (naluAt buffer q).startOffset = b.opened.startOffset := by rw [hopened]
        have hbehind := le_startOffset (h.next.behind q hq).1 h.next.opened
        have hlt := h.next.starts
        show (naluAt buffer p).startOffset ≤ b.opened.startOffset
        omega
    have hstarts := h.starts
    dsimp only
    constructor <;> omega

/-- The entries are those of the scan of every position. Their payloads lie one after the other
in the buffer, each behind its start code and up to the next start code or the end. -/
theorem findNaluIndices_scan (buffer : Bytes) :
    (findNaluIndices buffer).map NaluIndex.payloadStartOffset =
        (scanFrom buffer 0).map (fun p => p + 3) ∧
      ((findNaluIndices buffer).Pairwise fun a b =>
        a.startOffset < b.startOffset ∧ a.payloadStartOffset + a.payloadSize ≤ b.startOffset) ∧
      ∀ k it, (findNaluIndices buffer)[k]? = some it →
        it.payloadStartOffset + it.payloadSize =
            (findNaluIndices buffer)[k+1]?.elim buffer.length NaluIndex.startOffset ∧
          it.payloadStartOffset + it.payloadSize ≤ buffer.length ∧
          let code := (buffer.drop it.startOffset).take (it.payloadStartOffset - it.startOffset)
          code = [0, 0, 0, 1] ∨
            code = [0, 0, 1] ∧ (it.startOffset = 0 ∨ byteAt buffer (it.startOffset - 1) ≠ 0) := by
  have hscan := scanFrom_spec buffer 0
  rw [findNaluIndices_eq]
  generalize scanFrom buffer 0 = ps at hscan
  have hopened := opened_nalusAt buffer ps
  have hcode : ∀ it ∈ nalusAt buffer ps, ∃ p, StartsAt buffer p ∧ p + 3 < buffer.length ∧
      it.startOffset = (naluAt buffer p).startOffset ∧ it.payloadStartOffset = p + 3 := by
    intro it hit
    have hmem := List.mem_map_of_mem (f := NaluIndex.opened) hit
    rw [hopened] at hmem
    obtain ⟨p, hp, hpit⟩ := List.mem_map.mp hmem
    exact ⟨p, (hscan.1 p hp).2.1, (hscan.1 p hp).2.2,
      (congrArg NaluIndex.startOffset hpit).symm, (congrArg NaluIndex.payloadStartOffset hpit).symm⟩
  refine ⟨?_, ?_, fun k it hit => ?_⟩
  · have hmap := congrArg (List.map NaluIndex.payloadStartOffset) hopened
    rwa [List.map_map, List.map_map] at hmap
  · cases ps with
    | nil => exact List.Pairwise.nil
    | cons p ps => exact (ahead_naluAt (fun q hq => (hscan.1 q hq).2) hscan.2).apart
  · have hends : it.payloadStartOffset + it.payloadSize =
        (nalusAt buffer ps)[k+1]?.elim buffer.length NaluIndex.startOffset := by
      cases ps with
      | nil => simp [nalusAt] at hit
      | cons p ps => exact (ahead_naluAt (fun q hq => (hscan.1 q hq).2) hscan.2).ends k it hit
    refine ⟨hends, ?_, ?_⟩
    · rw [hends]
      cases hnext : (nalusAt buffer ps)[k+1]? with
      | none => exact le_rfl
      | some next =>
        obtain ⟨p, -, hlt, hstart, -⟩ := hcode next (List.mem_of_getElem? hnext)
        have hle : (naluAt buffer p).startOffset ≤ p := startOffset_le p
        show next.startOffset ≤ buffer.length
        omega
    · obtain ⟨p, hp, -, hstart, hpayload⟩ := hcode it (List.mem_of_getElem? hit)
      rw [hstart, hpayload]
      exact startCode_bytes hp

end RtpFormat
end XrtcServer
