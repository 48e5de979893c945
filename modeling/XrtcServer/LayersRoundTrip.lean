import XrtcServer.VideoLayersAllocation

/-! Which allocations come back from the header extension, and what parsing accepts. -/
namespace XrtcServer
namespace Rtp
open ByteFormat

variable {Rate : Type}

section Masks

theorem one_shiftLeft_testBit (i j : ℕ) : (1 <<< i).testBit j = decide (i = j) := by
  rw [Nat.one_shiftLeft, Nat.testBit_two_pow]

theorem and_one_shiftLeft_ne_zero (mask sid : ℕ) :
    mask &&& 1 <<< sid ≠ 0 ↔ mask.testBit sid = true := by
  rw [Nat.one_shiftLeft, Nat.and_two_pow]
  cases h : mask.testBit sid <;> simp

theorem setLayerBit_testBit (masks : ℕ → ℕ) (layer : SpatialLayer Rate) (i j : ℕ) :
    (setLayerBit masks layer i).testBit j = true ↔
      (masks i).testBit j = true ∨ layer.position = (i, j) := by
  rcases h : layer.position with ⟨a, b⟩
  simp only [setLayerBit, h, Prod.mk.injEq]
  by_cases hi : i = a
  · subst hi
    simp only [Function.update_self, Nat.testBit_or, Bool.or_eq_true, one_shiftLeft_testBit,
      decide_eq_true_eq, true_and]
  · have hne : ¬a = i := fun heq => hi heq.symm
    simp [Function.update_of_ne hi, hne]

theorem layerBits_testBit (layers : List (SpatialLayer Rate)) (masks : ℕ → ℕ) (i j : ℕ) :
    (layers.foldl setLayerBit masks i).testBit j = true ↔
      (masks i).testBit j = true ∨ ∃ layer ∈ layers, layer.position = (i, j) := by
  induction layers generalizing masks with
  | nil => simp
  | cons layer layers ih =>
    rw [List.foldl_cons, ih, setLayerBit_testBit]
    simp [or_assoc]

theorem mask_testBit (layers : List (SpatialLayer Rate)) (i j : ℕ) :
    ((spatialLayersBitmasksPerRtpStream layers).spatialLayerBitmask i).testBit j = true ↔
      ∃ layer ∈ layers, layer.position = (i, j) := by
  simp [spatialLayersBitmasksPerRtpStream, layerBits_testBit]

theorem bitmasksAreTheSame_iff (layers : List (SpatialLayer Rate)) :
    (spatialLayersBitmasksPerRtpStream layers).bitmasksAreTheSame = true ↔
      ∀ i ≤ (spatialLayersBitmasksPerRtpStream layers).maxRtpStreamId,
        (spatialLayersBitmasksPerRtpStream layers).spatialLayerBitmask i
          = (spatialLayersBitmasksPerRtpStream layers).spatialLayerBitmask 0 := by
  simp only [spatialLayersBitmasksPerRtpStream, List.all_eq_true, List.mem_range,
    decide_eq_true_eq]
  constructor
  · intro h i hi
    cases i with
    | zero => rfl
    | succ i => exact h i hi
  · intro h i hi
    exact h (i + 1) hi

end Masks

section Streams

theorem foldl_max (layers : List (SpatialLayer Rate)) (m : ℤ) :
    layers.foldl (fun m layer => if m < layer.rtpStreamIndex then layer.rtpStreamIndex else m) m
      = layers.foldl (fun m layer => max m layer.rtpStreamIndex) m := by
  congr 1
  funext m layer
  split
  · next h => exact (max_eq_right h.le).symm
  · next h => exact (max_eq_left (not_lt.mp h)).symm

theorem le_foldl_max (layers : List (SpatialLayer Rate)) (m : ℤ) :
    m ≤ layers.foldl (fun m layer => max m layer.rtpStreamIndex) m ∧
      ∀ layer ∈ layers, layer.rtpStreamIndex
        ≤ layers.foldl (fun m layer => max m layer.rtpStreamIndex) m := by
  induction layers generalizing m with
  | nil => simp
  | cons layer layers ih =>
    obtain ⟨hm, hlayers⟩ := ih (max m layer.rtpStreamIndex)
    refine ⟨(le_max_left _ _).trans hm, fun l hl => ?_⟩
    rcases List.mem_cons.mp hl with rfl | hl
    · exact (le_max_right _ _).trans hm
    · exact hlayers l hl

theorem foldl_max_lt {layers : List (SpatialLayer Rate)} {m n : ℤ} (hm : m < n)
    (hlayers : ∀ layer ∈ layers, layer.rtpStreamIndex < n) :
    layers.foldl (fun m layer => max m layer.rtpStreamIndex) m < n := by
  induction layers generalizing m with
  | nil => exact hm
  | cons layer layers ih =>
    exact ih (max_lt hm (hlayers layer (by simp))) fun l hl => hlayers l (by simp [hl])

theorem le_maxRtpStreamId {layers : List (SpatialLayer Rate)} {layer : SpatialLayer Rate}
    (h : layer ∈ layers) : layer.rtpStreamIndex ≤ maxRtpStreamId layers := by
  rw [maxRtpStreamId, foldl_max]
  exact (le_foldl_max layers 0).2 layer h

theorem maxRtpStreamId_lt {layers : List (SpatialLayer Rate)} {n : ℤ} (hn : 0 < n)
    (h : ∀ layer ∈ layers, layer.rtpStreamIndex < n) : maxRtpStreamId layers < n := by
  rw [maxRtpStreamId, foldl_max]
  exact foldl_max_lt hn h

end Streams

section Positions

/-- First streams, then spatial ids. -/
def Before (p q : ℕ × ℕ) : Prop := p.1 < q.1 ∨ p.1 = q.1 ∧ p.2 < q.2

theorem Before.asymm {p q : ℕ × ℕ} (h : Before p q) : ¬Before q p := by
  simp only [Before] at h ⊢
  omega

theorem before_ne {p q : ℕ × ℕ} (h : Before p q) : p ≠ q := by
  rintro rfl
  exact h.asymm h

theorem mem_layerPositions {masks : List ℕ} {numRtpStreams i j : ℕ} :
    (i, j) ∈ layerPositions masks numRtpStreams ↔
      i < numRtpStreams ∧ j < 4 ∧ (masks.getD i 0).testBit j = true := by
  simp only [layerPositions, List.mem_flatMap, List.mem_range, List.mem_map, List.mem_filter,
    decide_eq_true_eq, and_one_shiftLeft_ne_zero, Prod.mk.injEq]
  constructor
  · rintro ⟨s, hs, sid, ⟨hsid, hbit⟩, rfl, rfl⟩
    exact ⟨hs, hsid, hbit⟩
  · rintro ⟨hi, hj, hbit⟩
    exact ⟨i, hi, j, ⟨hj, hbit⟩, rfl, rfl⟩

theorem layerPositions_pairwise (masks : List ℕ) (numRtpStreams : ℕ) :
    (layerPositions masks numRtpStreams).Pairwise Before := by
  rw [layerPositions, List.pairwise_flatMap]
  constructor
  · intro s _
    rw [List.pairwise_map]
    exact (List.pairwise_lt_range.filter _).imp fun h => .inr ⟨rfl, h⟩
  · refine List.pairwise_lt_range.imp fun {s t} hst p hp q hq => ?_
    simp only [List.mem_map] at hp hq
    obtain ⟨_, _, rfl⟩ := hp
    obtain ⟨_, _, rfl⟩ := hq
    exact .inl hst

/-- Two lists in the same strict order with the same members are the same list. -/
theorem eq_of_before {ps qs : List (ℕ × ℕ)} (hps : ps.Pairwise Before) (hqs : qs.Pairwise Before)
    (hmem : ∀ p, p ∈ ps ↔ p ∈ qs) : ps = qs := by
  have hperm : ps.Perm qs :=
    (List.perm_ext_iff_of_nodup (hps.imp before_ne) (hqs.imp before_ne)).mpr hmem
  exact hperm.eq_of_pairwise (fun p q _ _ hpq hqp => absurd hqp hpq.asymm) hps hqs

end Positions

section Temporal

theorem shiftRight_pairs (n j : ℕ) : n >>> (2 * j) = n / 4 ^ j := by
  rw [Nat.shiftRight_eq_div_pow, pow_mul]
  norm_num

theorem shiftLeft_pairs (n j : ℕ) : n <<< (2 * j) = n * 4 ^ j := by
  rw [Nat.shiftLeft_eq, pow_mul]
  norm_num

theorem or_pair (q j : ℕ) {v : ℕ} (hv : v < 4) :
    q * 4 ^ (j + 1) ||| v <<< (2 * j) = (q * 4 + v) * 4 ^ j := by
  have hlt : v <<< (2 * j) < 2 ^ (2 * (j + 1)) := by
    rw [shiftLeft_pairs, pow_mul, pow_succ, mul_comm]
    exact Nat.mul_lt_mul_of_pos_left hv (by positivity)
  rw [← shiftLeft_pairs, ← Nat.shiftLeft_add_eq_or_of_lt hlt, shiftLeft_pairs, shiftLeft_pairs]
  ring

/-- A byte begun with the digits of `q` above `j` free pairs of bits. -/
theorem begun_lt {q j : ℕ} (hj : j ≤ 4) (hq : q < 4 ^ (4 - j)) : q * 4 ^ j < 256 := by
  calc q * 4 ^ j < 4 ^ (4 - j) * 4 ^ j := Nat.mul_lt_mul_of_pos_right hq (by positivity)
    _ = 4 ^ (4 - j + j) := (pow_add 4 _ _).symm
    _ = 256 := by rw [Nat.sub_add_cancel hj]; rfl

theorem begun_next {q j v : ℕ} (hj : j + 1 ≤ 4) (hq : q < 4 ^ (4 - (j + 1))) (hv : v < 4) :
    q * 4 + v < 4 ^ (4 - j) := by
  rw [show 4 - j = 4 - (j + 1) + 1 by omega, pow_succ]
  omega

theorem writeTemporalCounts_next (n : ℕ) (ns : List ℕ) (q j : ℕ) (hn : 1 ≤ n ∧ n ≤ 4) :
    writeTemporalCounts (n :: ns) (q * 4 ^ (j + 1)) (2 * (j + 1))
      = writeTemporalCounts ns ((q * 4 + (n - 1)) * 4 ^ j) (2 * j) := by
  rw [← or_pair q j (show n - 1 < 4 by omega)]
  rfl

theorem writeTemporalCounts_full (n : ℕ) (ns : List ℕ) (q : ℕ) :
    writeTemporalCounts (n :: ns) (q * 4 ^ 0) (2 * 0)
      = UInt8.ofNat q :: writeTemporalCounts ns ((n - 1) * 4 ^ 3) (2 * 3) := by
  rw [pow_zero, mul_one, ← shiftLeft_pairs (n - 1) 3]
  rfl

/-- The digits already in the byte begun stay. -/
theorem writeTemporalCounts_head {ns : List ℕ} (hns : ∀ n ∈ ns, 1 ≤ n ∧ n ≤ 4) {q j : ℕ}
    (hj : j ≤ 4) (hq : q < 4 ^ (4 - j)) : ∃ b bs,
      writeTemporalCounts ns (q * 4 ^ j) (2 * j) = b :: bs ∧ b.toNat / 4 ^ j = q := by
  induction ns generalizing q j with
  | nil =>
    refine ⟨_, _, rfl, ?_⟩
    rw [UInt8.toNat_ofNat_of_lt' (begun_lt hj hq), Nat.mul_div_cancel _ (by positivity)]
  | cons n ns ih =>
    have hn := hns n (by simp)
    cases j with
    | zero =>
      refine ⟨_, _, writeTemporalCounts_full n ns q, ?_⟩
      rw [UInt8.toNat_ofNat_of_lt' hq, pow_zero, Nat.div_one]
    | succ j =>
      obtain ⟨b, bs, hwrite, hb⟩ := ih (fun n hn => hns n (by simp [hn])) (by omega)
        (begun_next hj hq (show n - 1 < 4 by omega))
      refine ⟨b, bs, (writeTemporalCounts_next n ns q j hn).trans hwrite, ?_⟩
      rw [pow_succ, ← Nat.div_div_eq_div_mul, hb]
      omega

/-- Bytes used up so far and bytes still to come: one for every four counts. -/
theorem writeTemporalCounts_length (ns : List ℕ) (hns : ∀ n ∈ ns, 1 ≤ n ∧ n ≤ 4) (q : ℕ) {j : ℕ}
    (hj : j ≤ 4) :
    (writeTemporalCounts ns (q * 4 ^ j) (2 * j)).length = 1 + (ns.length - j + 3) / 4 := by
  induction ns generalizing q j with
  | nil => simp [writeTemporalCounts]
  | cons n ns ih =>
    have ih := fun q {j} => ih (fun n hn => hns n (by simp [hn])) q (j := j)
    cases j with
    | zero =>
      rw [writeTemporalCounts_full, List.length_cons, ih _ (by omega), List.length_cons]
      omega
    | succ j =>
      rw [writeTemporalCounts_next n ns q j (hns n (by simp)), ih _ (by omega), List.length_cons]
      omega

/-- A layer of which only the place and the number of temporal layers are known. -/
def blankLayer (units : DataRates Rate) (position : ℕ × ℕ) (numTemporalLayers : ℕ) :
    SpatialLayer Rate :=
  { rtpStreamIndex := position.1, spatialId := position.2,
    targetBitratePerTemporalLayer := List.replicate numTemporalLayers units.zero,
    width := 0, height := 0, frameRateFps := 0 }

theorem and_two_bits (n : ℕ) : n &&& 0b11 = n % 4 := Nat.and_two_pow_sub_one_eq_mod n 2

theorem readTemporalCounts_next (units : DataRates Rate) (position : ℕ × ℕ)
    (positions : List (ℕ × ℕ)) (b : UInt8) (rest : Bytes) (j : ℕ) :
    readTemporalCounts units (position :: positions) (b :: rest) (2 * (j + 1))
      = (readTemporalCounts units positions (b :: rest) (2 * j)).map fun p =>
          (blankLayer units position (1 + b.toNat / 4 ^ j % 4) :: p.1, p.2) := by
  rw [← shiftRight_pairs, ← and_two_bits]
  rfl

theorem readTemporalCounts_full (units : DataRates Rate) (position : ℕ × ℕ)
    (positions : List (ℕ × ℕ)) (c b : UInt8) (rest : Bytes) :
    readTemporalCounts units (position :: positions) (c :: b :: rest) (2 * 0)
      = (readTemporalCounts units positions (b :: rest) (2 * 3)).map fun p =>
          (blankLayer units position (1 + b.toNat / 4 ^ 3 % 4) :: p.1, p.2) := by
  rw [← shiftRight_pairs, ← and_two_bits]
  rfl

namespace SpatialLayer

def temporalLayers (layer : SpatialLayer Rate) : ℕ := layer.targetBitratePerTemporalLayer.length

def blank (units : DataRates Rate) (layer : SpatialLayer Rate) : SpatialLayer Rate :=
  blankLayer units layer.position layer.temporalLayers

end SpatialLayer

theorem readTemporalCounts_write (units : DataRates Rate) {layers : List (SpatialLayer Rate)}
    (hlayers : ∀ layer ∈ layers, 1 ≤ layer.temporalLayers ∧ layer.temporalLayers ≤ 4) {q j : ℕ}
    (hj : j ≤ 4) (hq : q < 4 ^ (4 - j)) (tail : Bytes) : ∃ last,
      readTemporalCounts units (layers.map SpatialLayer.position)
        (writeTemporalCounts (layers.map SpatialLayer.temporalLayers) (q * 4 ^ j) (2 * j) ++ tail)
        (2 * j) = some (layers.map (SpatialLayer.blank units), last :: tail) := by
  induction layers generalizing q j with
  | nil => exact ⟨_, rfl⟩
  | cons layer layers ih =>
    have hn := hlayers layer (by simp)
    have hrest : ∀ layer ∈ layers, 1 ≤ layer.temporalLayers ∧ layer.temporalLayers ≤ 4 :=
      fun l hl => hlayers l (by simp [hl])
    have hcounts : ∀ n ∈ layers.map SpatialLayer.temporalLayers, 1 ≤ n ∧ n ≤ 4 := by
      simpa using hrest
    rw [List.map_cons, List.map_cons, List.map_cons]
    cases j with
    | zero =>
      have hq : layer.temporalLayers - 1 < 4 ^ (4 - 3) := by
        rw [show 4 - 3 = 1 by rfl, pow_one]
        omega
      obtain ⟨b, bs, hwrite, hb⟩ := writeTemporalCounts_head hcounts (by omega) hq
      obtain ⟨last, hread⟩ := ih hrest (by omega) hq
      have hcount : 1 + b.toNat / 4 ^ 3 % 4 = layer.temporalLayers := by omega
      rw [hwrite, List.cons_append] at hread
      rw [writeTemporalCounts_full, hwrite, List.cons_append, List.cons_append,
        readTemporalCounts_full, hread, hcount]
      exact ⟨last, rfl⟩
    | succ j =>
      have hv : layer.temporalLayers - 1 < 4 := by omega
      have hnext := begun_next hj hq hv
      obtain ⟨b, bs, hwrite, hb⟩ := writeTemporalCounts_head hcounts (by omega) hnext
      obtain ⟨last, hread⟩ := ih hrest (by omega) hnext
      have hcount : 1 + b.toNat / 4 ^ j % 4 = layer.temporalLayers := by omega
      rw [hwrite, List.cons_append] at hread
      rw [writeTemporalCounts_next _ _ _ _ hn, hwrite, List.cons_append,
        readTemporalCounts_next, hread, hcount]
      exact ⟨last, rfl⟩

/-- The order of the layer at a place of the bitmasks. -/
def positionOrder (position : ℕ × ℕ) : ℤ ×ₗ ℤ := toLex ((position.1 : ℤ), (position.2 : ℤ))

/-- No resolution was read. -/
def SpatialLayer.IsUnresolved (layer : SpatialLayer Rate) : Prop :=
  layer.width = 0 ∧ layer.height = 0 ∧ layer.frameRateFps = 0

/-- Counts are read off whole bytes, and `rest` begins with the last of these. -/
theorem readTemporalCounts_sound {units : DataRates Rate} {positions : List (ℕ × ℕ)}
    {bs rest : Bytes} {j : ℕ} (hj : j ≤ 4) {layers : List (SpatialLayer Rate)}
    (h : readTemporalCounts units positions bs (2 * j) = some (layers, rest)) :
    layers.map SpatialLayer.order = positions.map positionOrder ∧
      (∀ layer ∈ layers, layer.IsUnresolved) ∧
      bs.length = rest.length + (positions.length - j + 3) / 4 := by
  induction positions generalizing bs j layers with
  | nil =>
    cases h
    simp
  | cons position positions ih =>
    -- both cases read one count from the first of `cs`
    have hstep {cs : Bytes} {i n : ℕ} (hi : i ≤ 4)
        (hread : ((readTemporalCounts units positions cs (2 * i)).map fun p =>
          (blankLayer units position n :: p.1, p.2)) = some (layers, rest)) :
        layers.map SpatialLayer.order = (position :: positions).map positionOrder ∧
          (∀ layer ∈ layers, layer.IsUnresolved) ∧
          cs.length = rest.length + (positions.length - i + 3) / 4 := by
      obtain ⟨⟨ls, r⟩, hls, heq⟩ := Option.map_eq_some_iff.mp hread
      cases heq
      obtain ⟨horder, hunresolved, hlen⟩ := ih hi hls
      refine ⟨?_, ?_, hlen⟩
      · rw [List.map_cons, List.map_cons, horder]
        rfl
      · intro layer hlayer
        rcases List.mem_cons.mp hlayer with rfl | hlayer
        · exact ⟨rfl, rfl, rfl⟩
        · exact hunresolved layer hlayer
    cases j with
    | zero =>
      match bs, h with
      | [_], h => cases h
      | c :: b :: bs, h =>
        rw [readTemporalCounts_full] at h
        obtain ⟨horder, hunresolved, hlen⟩ := hstep (by omega) h
        refine ⟨horder, hunresolved, ?_⟩
        rw [List.length_cons, hlen, List.length_cons]
        omega
    | succ j =>
      match bs, h with
      | b :: bs, h =>
        rw [readTemporalCounts_next] at h
        obtain ⟨horder, hunresolved, hlen⟩ := hstep (by omega) h
        refine ⟨horder, hunresolved, ?_⟩
        rw [hlen, List.length_cons]
        omega

end Temporal

section Bitrates

/-- A rate that the extension can carry. -/
def RateFits (units : DataRates Rate) (rate : Rate) : Prop :=
  ∃ k ≤ 1000000, rate = units.kilobitsPerSec k

/-- The spelling of one rate. -/
def writeRate (units : DataRates Rate) (rate : Rate) : Bytes :=
  writeLeb128 (UInt32.ofNat (units.kbps rate))

theorem writeRate_kilobitsPerSec (units : DataRates Rate) {k : ℕ} (hk : k ≤ 1000000) :
    writeRate units (units.kilobitsPerSec k) = Leb128.encode k := by
  rw [writeRate, writeLeb128_eq, units.kbps_kilobitsPerSec,
    UInt32.toNat_ofNat_of_lt' (show k < 2 ^ 32 by omega)]

theorem readLeb128_rate {units : DataRates Rate} {rate : Rate} {k : ℕ} (hk : k ≤ 1000000)
    (hrate : rate = units.kilobitsPerSec k) (tail : Bytes) :
    readLeb128 (writeRate units rate ++ tail) 0 0 = some (UInt64.ofNat k, tail) := by
  rw [hrate, writeRate_kilobitsPerSec units hk, readLeb128_zero,
    Leb128.decode_encode (show k < 128 ^ (8 + 1) by omega), Option.map_some]

theorem toNat_rate {k : ℕ} (hk : k ≤ 1000000) : (UInt64.ofNat k).toNat = k :=
  UInt64.toNat_ofNat_of_lt' (show k < 2 ^ 64 by omega)

theorem readRates_write {units : DataRates Rate} {rates : List Rate}
    (hrates : ∀ rate ∈ rates, RateFits units rate) {blanks : List Rate}
    (hlen : blanks.length = rates.length) (tail : Bytes) :
    readRates units blanks (rates.flatMap (writeRate units) ++ tail) = some (rates, tail) := by
  induction rates generalizing blanks with
  | nil => rw [List.length_eq_zero_iff.mp hlen]; rfl
  | cons rate rates ih =>
    cases blanks with
    | nil => cases hlen
    | cons blank blanks =>
      obtain ⟨k, hk, hrate⟩ := hrates rate (by simp)
      have hrest := ih (fun r hr => hrates r (by simp [hr])) (Nat.succ.inj hlen)
      rw [List.flatMap_cons, List.append_assoc, readRates, readLeb128_rate hk hrate]
      simp only [toNat_rate hk, if_neg (not_lt.mpr hk), hrest, Option.map_some, ← hrate]

/-- The rates read fit, and writing them takes no more bytes than they had. -/
theorem readRates_sound {units : DataRates Rate} {blanks rates : List Rate} {bs rest : Bytes}
    (h : readRates units blanks bs = some (rates, rest)) :
    (∀ rate ∈ rates, RateFits units rate) ∧
      (rates.flatMap (writeRate units)).length + rest.length ≤ bs.length := by
  induction blanks generalizing bs rates with
  | nil =>
    cases h
    simp
  | cons blank blanks ih =>
    rw [readRates, readLeb128_zero] at h
    cases hread : Leb128.decode 9 bs with
    | none => rw [hread] at h; cases h
    | some p =>
      obtain ⟨n, bs'⟩ := p
      rw [hread, Option.map_some] at h
      dsimp only at h
      have hn : (UInt64.ofNat n).toNat = n := by
        have hlt : n < 128 ^ 9 := Leb128.decode_lt hread
        exact UInt64.toNat_ofNat_of_lt' (show n < 2 ^ 64 by omega)
      rw [hn] at h
      split at h
      · cases h
      · next hle =>
        obtain ⟨⟨rs, r⟩, hrs, heq⟩ := Option.map_eq_some_iff.mp h
        cases heq
        obtain ⟨hfit, hlen⟩ := ih hrs
        have hshort := Leb128.encode_length_le hread
        constructor
        · intro rate hrate
          rcases List.mem_cons.mp hrate with rfl | hrate
          · exact ⟨n, by omega, rfl⟩
          · exact hfit rate hrate
        · rw [List.flatMap_cons, List.length_append, writeRate_kilobitsPerSec units (by omega)]
          dsimp only at hlen ⊢
          omega

theorem writeBitrates_eq (units : DataRates Rate) (layer : SpatialLayer Rate) :
    layer.writeBitrates units = layer.targetBitratePerTemporalLayer.flatMap (writeRate units) := rfl

/-- The layer before its resolution is known. -/
def SpatialLayer.unresolved (layer : SpatialLayer Rate) : SpatialLayer Rate :=
  { layer with width := 0, height := 0, frameRateFps := 0 }

theorem blank_eq {layer : SpatialLayer Rate} {withResolution : Bool} (h : layer.IsValid withResolution)
    (units : DataRates Rate) (rates : List Rate) :
    { layer.blank units with targetBitratePerTemporalLayer := rates }
      = { layer.unresolved with targetBitratePerTemporalLayer := rates } := by
  obtain ⟨hstream, hspatial, -, -⟩ := h
  have h1 : ((layer.rtpStreamIndex.toNat : ℕ) : ℤ) = layer.rtpStreamIndex :=
    Int.toNat_of_nonneg hstream.1
  have h2 : ((layer.spatialId.toNat : ℕ) : ℤ) = layer.spatialId := Int.toNat_of_nonneg hspatial.1
  simp only [SpatialLayer.blank, blankLayer, SpatialLayer.position, SpatialLayer.unresolved, h1, h2]

theorem readBitrates_write {units : DataRates Rate} {withResolution : Bool}
    {layers : List (SpatialLayer Rate)} (hvalid : ∀ layer ∈ layers, layer.IsValid withResolution)
    (hrates : ∀ layer ∈ layers, ∀ rate ∈ layer.targetBitratePerTemporalLayer, RateFits units rate)
    (tail : Bytes) :
    readBitrates units (layers.map (SpatialLayer.blank units))
        (layers.flatMap (SpatialLayer.writeBitrates units) ++ tail)
      = some (layers.map SpatialLayer.unresolved, tail) := by
  induction layers with
  | nil => rfl
  | cons layer layers ih =>
    have hrest := ih (fun l hl => hvalid l (by simp [hl])) fun l hl => hrates l (by simp [hl])
    have hblanks : (layer.blank units).targetBitratePerTemporalLayer.length
        = layer.targetBitratePerTemporalLayer.length := List.length_replicate
    have hread := readRates_write (hrates layer (by simp)) hblanks
      (layers.flatMap (SpatialLayer.writeBitrates units) ++ tail)
    rw [List.flatMap_cons, List.append_assoc, List.map_cons, readBitrates, writeBitrates_eq, hread]
    dsimp only
    rw [hrest, Option.map_some, blank_eq (hvalid layer (by simp))]
    rfl

theorem readBitrates_sound {units : DataRates Rate} {blanks layers : List (SpatialLayer Rate)}
    {bs rest : Bytes} (h : readBitrates units blanks bs = some (layers, rest)) :
    layers.map SpatialLayer.order = blanks.map SpatialLayer.order ∧
      (∀ layer ∈ layers, ∀ rate ∈ layer.targetBitratePerTemporalLayer, RateFits units rate) ∧
      ((∀ layer ∈ blanks, layer.IsUnresolved) → ∀ layer ∈ layers, layer.IsUnresolved) ∧
      (layers.flatMap (SpatialLayer.writeBitrates units)).length + rest.length ≤ bs.length := by
  induction blanks generalizing bs layers with
  | nil =>
    cases h
    simp
  | cons blank blanks ih =>
    rw [readBitrates] at h
    cases hread : readRates units blank.targetBitratePerTemporalLayer bs with
    | none => rw [hread] at h; cases h
    | some p =>
      obtain ⟨rates, bs'⟩ := p
      rw [hread] at h
      obtain ⟨⟨ls, r⟩, hls, heq⟩ := Option.map_eq_some_iff.mp h
      cases heq
      obtain ⟨horder, hfit, hunresolved, hlen⟩ := ih hls
      obtain ⟨hfirst, hshort⟩ := readRates_sound hread
      refine ⟨?_, ?_, ?_, ?_⟩
      · rw [List.map_cons, List.map_cons, horder]
        rfl
      · intro layer hlayer
        rcases List.mem_cons.mp hlayer with rfl | hlayer
        · exact hfirst
        · exact hfit layer hlayer
      · intro hblanks layer hlayer
        rcases List.mem_cons.mp hlayer with rfl | hlayer
        · exact hblanks blank (by simp)
        · exact hunresolved (fun l hl => hblanks l (by simp [hl])) layer hlayer
      · rw [List.flatMap_cons, List.length_append, writeBitrates_eq]
        dsimp only at hlen ⊢
        omega

end Bitrates

section Resolutions

theorem one_add_read (n : UInt16) : 1 + UInt16.ofNat (beNat (toBE 2 (n - 1).toNat)) = n := by
  have hlt : (n - 1).toNat < 256 ^ 2 := (n - 1).toNat_lt
  rw [beNat_toBE_of_lt hlt, UInt16.ofNat_toNat, UInt16.add_comm, UInt16.sub_add_cancel]

theorem writeResolution_length (layer : SpatialLayer Rate) : layer.writeResolution.length = 5 := by
  simp [SpatialLayer.writeResolution]

theorem readResolutions_write (layers : List (SpatialLayer Rate)) :
    readResolutions (layers.map SpatialLayer.unresolved)
      (layers.flatMap SpatialLayer.writeResolution) = layers := by
  induction layers with
  | nil => rfl
  | cons layer layers ih =>
    have htake : (layer.writeResolution ++ layers.flatMap SpatialLayer.writeResolution).take 2
        = toBE 2 (layer.width - 1).toNat := by simp [SpatialLayer.writeResolution]
    have hdrop : ((layer.writeResolution ++ layers.flatMap SpatialLayer.writeResolution).drop 2).take 2
        = toBE 2 (layer.height - 1).toNat := by simp [SpatialLayer.writeResolution]
    have hfps : (layer.writeResolution ++ layers.flatMap SpatialLayer.writeResolution).getD 4 0
        = layer.frameRateFps := by simp [SpatialLayer.writeResolution, toBE]
    have hrest : (layer.writeResolution ++ layers.flatMap SpatialLayer.writeResolution).drop 5
        = layers.flatMap SpatialLayer.writeResolution :=
      List.drop_left' (writeResolution_length layer)
    rw [List.map_cons, List.flatMap_cons, readResolutions, htake, hdrop, hfps, hrest, ih,
      one_add_read, one_add_read]
    rfl

theorem writeResolutions_length (layers : List (SpatialLayer Rate)) :
    (layers.flatMap SpatialLayer.writeResolution).length = 5 * layers.length := by
  induction layers with
  | nil => rfl
  | cons layer layers ih =>
    rw [List.flatMap_cons, List.length_append, ih, writeResolution_length, List.length_cons]
    ring

theorem readResolutions_order (layers : List (SpatialLayer Rate)) (bs : Bytes) :
    (readResolutions layers bs).map SpatialLayer.order = layers.map SpatialLayer.order := by
  induction layers generalizing bs with
  | nil => rfl
  | cons layer layers ih =>
    rw [readResolutions, List.map_cons, List.map_cons, ih]
    rfl

theorem readResolutions_bitrates (layers : List (SpatialLayer Rate)) (bs : Bytes) :
    (readResolutions layers bs).map SpatialLayer.targetBitratePerTemporalLayer
      = layers.map SpatialLayer.targetBitratePerTemporalLayer := by
  induction layers generalizing bs with
  | nil => rfl
  | cons layer layers ih => rw [readResolutions, List.map_cons, List.map_cons, ih]

end Resolutions

section Header

theorem and_four_bits (n : ℕ) : n &&& 0b1111 = n % 16 := Nat.and_two_pow_sub_one_eq_mod n 4

theorem or_nibble (a : ℕ) {b : ℕ} (hb : b < 16) : a <<< 4 ||| b = a * 16 + b := by
  rw [← Nat.shiftLeft_add_eq_or_of_lt (i := 4) hb, Nat.shiftLeft_eq]

theorem header_bits (a : ℕ) {b c : ℕ} (hb : b < 4) (hc : c < 16) :
    a <<< 6 ||| b <<< 4 ||| c = (a * 4 + b) * 16 + c := by
  have hor : a <<< 6 ||| b <<< 4 = (a * 4 + b) <<< 4 := by
    rw [← Nat.shiftLeft_add_eq_or_of_lt (i := 6) (by rw [Nat.shiftLeft_eq]; omega),
      Nat.shiftLeft_eq, Nat.shiftLeft_eq, Nat.shiftLeft_eq]
    ring
  rw [hor, or_nibble _ hc]

/-- What a reader of the header byte sees. -/
structure HeaderFields (header : UInt8) (rtpStreamIndex maxRtpStreamId mask : ℕ) : Prop where
  stream : header.toNat >>> 6 = rtpStreamIndex
  streams : header.toNat >>> 4 &&& 0b11 = maxRtpStreamId
  mask : header.toNat &&& 0b1111 = mask

theorem headerFields {a b c : ℕ} (ha : a < 4) (hb : b < 4) (hc : c < 16) :
    HeaderFields (UInt8.ofNat (a <<< 6 ||| b <<< 4 ||| c)) a b c := by
  have hval : (UInt8.ofNat (a <<< 6 ||| b <<< 4 ||| c)).toNat = (a * 4 + b) * 16 + c := by
    rw [header_bits a hb hc]
    exact UInt8.toNat_ofNat_of_lt' (show (a * 4 + b) * 16 + c < 2 ^ 8 by omega)
  refine ⟨?_, ?_, ?_⟩
  · rw [hval, Nat.shiftRight_eq_div_pow]
    omega
  · rw [hval, Nat.shiftRight_eq_div_pow, and_two_bits]
    omega
  · rw [hval, and_four_bits]
    omega

theorem nibbles {a b : ℕ} (ha : a < 16) (hb : b < 16) :
    (UInt8.ofNat (a <<< 4 ||| b)).toNat >>> 4 = a ∧
      (UInt8.ofNat (a <<< 4 ||| b)).toNat &&& 0b1111 = b := by
  have hval : (UInt8.ofNat (a <<< 4 ||| b)).toNat = a * 16 + b := by
    rw [or_nibble a hb]
    exact UInt8.toNat_ofNat_of_lt' (show a * 16 + b < 2 ^ 8 by omega)
  rw [hval, Nat.shiftRight_eq_div_pow, and_four_bits]
  omega

theorem mask_lt {layers : List (SpatialLayer Rate)} {withResolution : Bool}
    (hvalid : ∀ layer ∈ layers, layer.IsValid withResolution) (i : ℕ) :
    (spatialLayersBitmasksPerRtpStream layers).spatialLayerBitmask i < 16 := by
  refine Nat.lt_pow_two_of_testBit (n := 4) _ fun j hj => ?_
  by_contra hbit
  obtain ⟨layer, hlayer, hpos⟩ := (mask_testBit layers i j).mp (Bool.not_eq_false _ ▸ hbit)
  have hspatial := (hvalid layer hlayer).spatial
  have : layer.spatialId.toNat = j := congrArg Prod.snd hpos
  omega

theorem maxRtpStreamId_toNat_lt {layers : List (SpatialLayer Rate)} {withResolution : Bool}
    (hvalid : ∀ layer ∈ layers, layer.IsValid withResolution) :
    (maxRtpStreamId layers).toNat < 4 := by
  have := maxRtpStreamId_lt (by norm_num : (0 : ℤ) < 4) fun l hl => (hvalid l hl).stream.2
  omega

theorem position_le {layers : List (SpatialLayer Rate)} {layer : SpatialLayer Rate}
    (h : layer ∈ layers) : layer.position.1 ≤ (maxRtpStreamId layers).toNat :=
  Int.toNat_le_toNat (le_maxRtpStreamId h)

/-- A mask that all streams share has a bit. -/
theorem mask_ne_zero {layers : List (SpatialLayer Rate)} (hlayers : layers ≠ [])
    (hsame : (spatialLayersBitmasksPerRtpStream layers).bitmasksAreTheSame = true) :
    (spatialLayersBitmasksPerRtpStream layers).spatialLayerBitmask 0 ≠ 0 := by
  obtain ⟨layer, hlayer⟩ := List.exists_mem_of_ne_nil layers hlayers
  have hbit := (mask_testBit layers layer.position.1 layer.position.2).mpr ⟨layer, hlayer, rfl⟩
  rw [(bitmasksAreTheSame_iff layers).mp hsame _ (position_le hlayer)] at hbit
  intro hzero
  rw [hzero, Nat.zero_testBit] at hbit
  cases hbit

theorem readBitmasks_two {header : UInt8} (hzero : header.toNat &&& 0b1111 = 0) {numRtpStreams : ℕ}
    (hnum : numRtpStreams ≤ 2) (b : UInt8) (tail : Bytes) :
    readBitmasks header numRtpStreams (b :: tail)
      = some ([b.toNat >>> 4, b.toNat &&& 0b1111], tail) := by
  simp only [readBitmasks, hzero, ne_eq, not_true_eq_false, if_false]
  exact if_neg (by omega)

theorem readBitmasks_four {header : UInt8} (hzero : header.toNat &&& 0b1111 = 0) {numRtpStreams : ℕ}
    (hnum : 2 < numRtpStreams) (b c : UInt8) (tail : Bytes) :
    readBitmasks header numRtpStreams (b :: c :: tail) = some ([b.toNat >>> 4,
      b.toNat &&& 0b1111, c.toNat >>> 4, c.toNat &&& 0b1111], tail) := by
  simp only [readBitmasks, hzero, ne_eq, not_true_eq_false, if_false]
  exact if_pos hnum

/-- How many bytes the bitmasks take after the header, and when these are none. -/
theorem readBitmasks_cases {header : UInt8} {numRtpStreams : ℕ} {readAt rest : Bytes}
    {masks : List ℕ} (h : readBitmasks header numRtpStreams readAt = some (masks, rest)) :
    ((∃ mask, masks = List.replicate numRtpStreams mask) ∧ rest = readAt) ∨
      (numRtpStreams ≤ 2 ∧ readAt.length = rest.length + 1) ∨ readAt.length = rest.length + 2 := by
  by_cases hmask : header.toNat &&& 0b1111 = 0
  · match readAt with
    | [] => simp [readBitmasks, hmask] at h
    | b :: readAt =>
      by_cases hnum : numRtpStreams ≤ 2
      · rw [readBitmasks_two hmask hnum] at h
        cases h
        exact .inr (.inl ⟨hnum, rfl⟩)
      · match readAt with
        | [] => simp [readBitmasks, hmask, not_le.mp hnum] at h
        | c :: readAt =>
          rw [readBitmasks_four hmask (by omega)] at h
          cases h
          exact .inr (.inr rfl)
  · simp only [readBitmasks, ne_eq, hmask, not_false_eq_true, if_true] at h
    cases h
    exact .inl ⟨⟨_, rfl⟩, rfl⟩

/-- The bitmasks are read back for every stream there is. -/
theorem readBitmasks_write {layers : List (SpatialLayer Rate)} (hlayers : layers ≠ [])
    {withResolution : Bool} (hvalid : ∀ layer ∈ layers, layer.IsValid withResolution)
    {rtpStreamIndex : ℤ} (hindex : rtpStreamIndex.toNat < 4) (tail : Bytes) :
    ∃ header rest mask masks,
      writeBitmasks rtpStreamIndex (spatialLayersBitmasksPerRtpStream layers) ++ tail
        = header :: rest ∧
      HeaderFields header rtpStreamIndex.toNat (maxRtpStreamId layers).toNat mask ∧
      readBitmasks header (1 + (maxRtpStreamId layers).toNat) rest = some (masks, tail) ∧
      ∀ i ≤ (maxRtpStreamId layers).toNat,
        masks.getD i 0 = (spatialLayersBitmasksPerRtpStream layers).spatialLayerBitmask i := by
  have hmax := maxRtpStreamId_toNat_lt hvalid
  have hmask := mask_lt hvalid
  have hne := mask_ne_zero hlayers
  have hiff := bitmasksAreTheSame_iff layers
  have hid : (spatialLayersBitmasksPerRtpStream layers).maxRtpStreamId
      = (maxRtpStreamId layers).toNat := rfl
  generalize spatialLayersBitmasksPerRtpStream layers = slb at hmask hne hiff hid ⊢
  rw [writeBitmasks, hid]
  by_cases hsame : slb.bitmasksAreTheSame = true
  · have hfields := headerFields hindex hmax (hmask 0)
    rw [if_pos hsame]
    refine ⟨_, _, _, List.replicate (1 + (maxRtpStreamId layers).toNat) (slb.spatialLayerBitmask 0),
      rfl, hfields, ?_, ?_⟩
    · simp only [readBitmasks, hfields.mask]
      exact if_pos (hne hsame)
    · intro i hi
      rw [List.getD_replicate _ (by omega), hiff.mp hsame i (by omega)]
  · have hfields := headerFields hindex hmax (show 0 < 16 by norm_num)
    rw [Nat.or_zero] at hfields
    have h01 := nibbles (hmask 0) (hmask 1)
    have h23 := nibbles (hmask 2) (hmask 3)
    rw [if_neg hsame]
    by_cases hmore : 2 ≤ (maxRtpStreamId layers).toNat
    · rw [if_pos hmore]
      refine ⟨_, _, _, [slb.spatialLayerBitmask 0, slb.spatialLayerBitmask 1,
        slb.spatialLayerBitmask 2, slb.spatialLayerBitmask 3], rfl, hfields, ?_, ?_⟩
      · refine (readBitmasks_four hfields.mask (by omega) _ _ tail).trans ?_
        rw [h01.1, h01.2, h23.1, h23.2]
      · intro i hi
        match i, show i < 4 by omega with
        | 0, _ | 1, _ | 2, _ | 3, _ => rfl
    · rw [if_neg hmore]
      refine ⟨_, _, _, [slb.spatialLayerBitmask 0, slb.spatialLayerBitmask 1], rfl, hfields, ?_, ?_⟩
      · refine (readBitmasks_two hfields.mask (by omega) _ tail).trans ?_
        rw [h01.1, h01.2]
      · intro i hi
        match i, show i < 2 by omega with
        | 0, _ | 1, _ => rfl

end Header

section Order

theorem order_lt {layer other : SpatialLayer Rate} {withResolution : Bool}
    (hlayer : layer.IsValid withResolution) (hother : other.IsValid withResolution) :
    layer.order < other.order ↔ Before layer.position other.position := by
  obtain ⟨hs, hi, -, -⟩ := hlayer
  obtain ⟨hs', hi', -, -⟩ := hother
  rw [SpatialLayer.order, SpatialLayer.order, Prod.Lex.toLex_lt_toLex]
  simp only [Before, SpatialLayer.position]
  omega

theorem positionOrder_lt {p q : ℕ × ℕ} : positionOrder p < positionOrder q ↔ Before p q := by
  rw [positionOrder, positionOrder, Prod.Lex.toLex_lt_toLex]
  simp only [Before]
  omega

theorem position_of_order {layer : SpatialLayer Rate} {p : ℕ × ℕ}
    (h : layer.order = positionOrder p) : layer.position = p := by
  have hpair : (layer.rtpStreamIndex, layer.spatialId) = ((p.1 : ℤ), (p.2 : ℤ)) := toLex.injective h
  obtain ⟨h1, h2⟩ := Prod.mk.inj hpair
  rw [SpatialLayer.position, h1, h2]
  rfl

theorem positions_of_orders {layers : List (SpatialLayer Rate)} {positions : List (ℕ × ℕ)}
    (h : layers.map SpatialLayer.order = positions.map positionOrder) :
    layers.map SpatialLayer.position = positions := by
  induction layers generalizing positions with
  | nil => rw [List.map_nil] at h; rw [List.map_eq_nil_iff.mp h.symm]; rfl
  | cons layer layers ih =>
    cases positions with
    | nil => cases h
    | cons p positions =>
      obtain ⟨h1, h2⟩ := List.cons.inj h
      rw [List.map_cons, position_of_order h1, ih h2]

/-- The bitmasks name the layers again, in the order in which they are listed. -/
theorem layerPositions_eq {layers : List (SpatialLayer Rate)} {withResolution : Bool}
    (hvalid : ∀ layer ∈ layers, layer.IsValid withResolution)
    (hdistinct : layers.Pairwise fun lhs rhs => lhs.order < rhs.order) {masks : List ℕ}
    (hmasks : ∀ i ≤ (maxRtpStreamId layers).toNat,
      masks.getD i 0 = (spatialLayersBitmasksPerRtpStream layers).spatialLayerBitmask i) :
    layerPositions masks (1 + (maxRtpStreamId layers).toNat)
      = layers.map SpatialLayer.position := by
  refine eq_of_before (layerPositions_pairwise _ _) ?_ fun p => ?_
  · rw [List.pairwise_map]
    exact hdistinct.imp_of_mem fun hl ho h => (order_lt (hvalid _ hl) (hvalid _ ho)).mp h
  · obtain ⟨i, j⟩ := p
    rw [mem_layerPositions, List.mem_map]
    constructor
    · rintro ⟨hi, -, hbit⟩
      rw [hmasks i (by omega)] at hbit
      exact (mask_testBit layers i j).mp hbit
    · rintro ⟨layer, hlayer, hpos⟩
      have hi : layer.position.1 = i := congrArg Prod.fst hpos
      have hj : layer.spatialId.toNat = j := congrArg Prod.snd hpos
      have hle := position_le hlayer
      have hspatial := (hvalid layer hlayer).spatial
      refine ⟨by omega, by omega, ?_⟩
      rw [hmasks i (by omega)]
      exact (mask_testBit layers i j).mpr ⟨layer, hlayer, hpos⟩

end Order

namespace VideoLayersAllocation

/-- An allocation that the extension can carry. -/
structure Expressible (units : DataRates Rate) (allocation : VideoLayersAllocation Rate) : Prop where
  valid : allocation.AllocationIsValid
  distinct : allocation.activeSpatialLayers.Pairwise fun lhs rhs => lhs.order < rhs.order
  rates : ∀ layer ∈ allocation.activeSpatialLayers,
    ∀ rate ∈ layer.targetBitratePerTemporalLayer, RateFits units rate
  silent : allocation.activeSpatialLayers = [] →
    allocation.rtpStreamIndex = 0 ∧ allocation.resolutionAndFrameRateIsValid = true
  unresolved : allocation.resolutionAndFrameRateIsValid = false →
    ∀ layer ∈ allocation.activeSpatialLayers, layer.IsUnresolved

variable {units : DataRates Rate} {allocation : VideoLayersAllocation Rate}

theorem checked_eq_some {a b : VideoLayersAllocation Rate} :
    a.checked = some b ↔ a.AllocationIsValid ∧ a = b := by
  rw [checked]
  split
  · next h => simp [h]
  · next h => simp [h]

theorem index_lt (hvalid : allocation.AllocationIsValid)
    (hlayers : allocation.activeSpatialLayers ≠ []) : allocation.rtpStreamIndex.toNat < 4 := by
  have hmax := maxRtpStreamId_toNat_lt hvalid.layers
  have := hvalid.stream.2 (by simpa using hlayers)
  omega

theorem flatMap_bitrates_ne_nil (units : DataRates Rate) {layers : List (SpatialLayer Rate)} (hlayers : layers ≠ [])
    {withResolution : Bool} (hvalid : ∀ layer ∈ layers, layer.IsValid withResolution) :
    layers.flatMap (SpatialLayer.writeBitrates units) ≠ [] := by
  obtain ⟨layer, hlayer⟩ := List.exists_mem_of_ne_nil layers hlayers
  obtain ⟨rate, hrate⟩ := List.exists_mem_of_ne_nil _ (hvalid layer hlayer).temporal.1
  intro hnil
  have hbytes : writeRate units rate = [] :=
    List.flatMap_eq_nil_iff.mp (List.flatMap_eq_nil_iff.mp hnil layer hlayer) rate hrate
  have hpos := Leb128.encode_length_pos (UInt32.ofNat (units.kbps rate)).toNat
  rw [writeRate, writeLeb128_eq] at hbytes
  rw [hbytes] at hpos
  cases hpos

theorem temporalLayers_bounds {layers : List (SpatialLayer Rate)} {withResolution : Bool}
    (hvalid : ∀ layer ∈ layers, layer.IsValid withResolution) :
    ∀ layer ∈ layers, 1 ≤ layer.temporalLayers ∧ layer.temporalLayers ≤ 4 := by
  intro layer hlayer
  obtain ⟨hne, hle⟩ := (hvalid layer hlayer).temporal
  exact ⟨List.length_pos_iff.mpr hne, hle⟩

/-- The bytes after the bitmasks. -/
def writeLayers (units : DataRates Rate) (allocation : VideoLayersAllocation Rate) : Bytes :=
  writeTemporalCounts (allocation.activeSpatialLayers.map SpatialLayer.temporalLayers) 0 8 ++
    (allocation.activeSpatialLayers.flatMap (SpatialLayer.writeBitrates units) ++
      if allocation.resolutionAndFrameRateIsValid then
        allocation.activeSpatialLayers.flatMap SpatialLayer.writeResolution else [])

theorem write_of_layers (units : DataRates Rate) (hlayers : allocation.activeSpatialLayers ≠ []) :
    allocation.write units = writeBitmasks allocation.rtpStreamIndex
      (spatialLayersBitmasksPerRtpStream allocation.activeSpatialLayers)
        ++ allocation.writeLayers units := by
  rw [write, if_neg (by simpa using hlayers)]
  simp only [List.append_assoc]
  rfl

/-- After the bitmasks, everything that was written is read. -/
theorem parseLayers_write (h : allocation.Expressible units)
    (hlayers : allocation.activeSpatialLayers ≠ []) :
    parseLayers units allocation.rtpStreamIndex
        (allocation.activeSpatialLayers.map SpatialLayer.position) (allocation.writeLayers units)
      = some allocation := by
  obtain ⟨rtpStreamIndex, withResolution, layers⟩ := allocation
  obtain ⟨hvalid, -, hrates, -, hunresolved⟩ := h
  dsimp only at hlayers hrates hunresolved ⊢
  have hbits := hvalid.layers
  dsimp only at hbits
  obtain ⟨last, hcounts⟩ := readTemporalCounts_write units (temporalLayers_bounds hbits)
    (show 4 ≤ 4 by rfl) (show 0 < 4 ^ (4 - 4) by norm_num)
    (layers.flatMap (SpatialLayer.writeBitrates units) ++
      if withResolution then layers.flatMap SpatialLayer.writeResolution else [])
  have hbitrates := readBitrates_write hbits hrates
    (if withResolution then layers.flatMap SpatialLayer.writeResolution else [])
  have hnonempty := flatMap_bitrates_ne_nil units hlayers hbits
  rw [zero_mul] at hcounts
  rw [parseLayers, writeLayers, hcounts]
  simp only [List.tail_cons, List.append_eq_nil_iff, hnonempty, false_and, if_false, hbitrates]
  cases withResolution with
  | false =>
    have hsame : layers.map SpatialLayer.unresolved = layers := by
      refine (List.map_congr_left fun layer hlayer => ?_).trans (List.map_id layers)
      obtain ⟨h1, h2, h3⟩ := hunresolved rfl layer hlayer
      cases layer
      cases h1
      cases h2
      cases h3
      rfl
    simp only [Bool.false_eq_true, if_false, if_true, hsame]
    exact checked_eq_some.mpr ⟨hvalid, rfl⟩
  | true =>
    have hlen := writeResolutions_length layers
    have hpos := List.length_pos_iff.mpr hlayers
    have hne : layers.flatMap SpatialLayer.writeResolution ≠ [] := by
      rw [← List.length_pos_iff, hlen]
      omega
    simp only [if_true, if_neg hne, hlen, List.length_map, ne_eq, not_true_eq_false, if_false,
      readResolutions_write]
    exact checked_eq_some.mpr ⟨hvalid, rfl⟩

theorem parse_write (h : allocation.Expressible units) :
    parse units (allocation.write units) = some allocation := by
  by_cases hlayers : allocation.activeSpatialLayers = []
  · obtain ⟨hindex, hflag⟩ := h.silent hlayers
    have heq : allocation = { rtpStreamIndex := 0, resolutionAndFrameRateIsValid := true,
                              activeSpatialLayers := [] } := by
      cases allocation
      simp_all
    have hwrite : allocation.write units = [0] := by rw [write, hlayers]; rfl
    rw [hwrite, parse, if_pos ⟨rfl, rfl⟩, ← heq]
    exact checked_eq_some.mpr ⟨h.valid, rfl⟩
  · have hparse := parseLayers_write h hlayers
    have hindex := index_lt h.valid hlayers
    obtain ⟨header, rest, mask, masks, hbytes, hfields, hmasks, hget⟩ :=
      readBitmasks_write hlayers h.valid.layers hindex (allocation.writeLayers units)
    have hwrite := (write_of_layers units hlayers).trans hbytes
    have hpositions := layerPositions_eq h.valid.layers h.distinct hget
    have hcast : ((allocation.rtpStreamIndex.toNat : ℕ) : ℤ) = allocation.rtpStreamIndex :=
      Int.toNat_of_nonneg h.valid.stream.1
    have htail : allocation.writeLayers units ≠ [] := by
      have := flatMap_bitrates_ne_nil units hlayers h.valid.layers
      simp [writeLayers, this]
    have hrest : rest ≠ [] := by
      rintro rfl
      rcases readBitmasks_cases hmasks with ⟨-, hnil⟩ | ⟨-, hlen⟩ | hlen
      · exact htail hnil
      · cases hlen
      · cases hlen
    rw [hwrite, parse, if_neg (fun hsingle => hrest hsingle.1)]
    simp only [hfields.streams, hfields.stream, hmasks, if_neg htail, hpositions, hcast]
    exact hparse

theorem writeLayers_length (hvalid : allocation.AllocationIsValid) :
    (allocation.writeLayers units).length
      = 1 + (allocation.activeSpatialLayers.length - 4 + 3) / 4
        + (allocation.activeSpatialLayers.flatMap (SpatialLayer.writeBitrates units)).length
        + if allocation.resolutionAndFrameRateIsValid then
            5 * allocation.activeSpatialLayers.length else 0 := by
  have hcounts := writeTemporalCounts_length
    (allocation.activeSpatialLayers.map SpatialLayer.temporalLayers)
    (by simpa using temporalLayers_bounds hvalid.layers) 0 (le_refl 4)
  rw [zero_mul, List.length_map] at hcounts
  rw [writeLayers, List.length_append, List.length_append, hcounts, apply_ite List.length,
    writeResolutions_length, List.length_nil]
  simp only [Nat.add_assoc]

/-- What is read after the bitmasks. -/
theorem parseLayers_sound {rtpStreamIndex : ℤ} {positions : List (ℕ × ℕ)}
    (hpositions : positions.Pairwise Before) {readAt : Bytes}
    (h : parseLayers units rtpStreamIndex positions readAt = some allocation) :
    allocation.Expressible units ∧ allocation.activeSpatialLayers ≠ [] ∧
      allocation.activeSpatialLayers.map SpatialLayer.position = positions ∧
      (allocation.writeLayers units).length ≤ readAt.length := by
  rw [parseLayers] at h
  cases hcounts : readTemporalCounts units positions readAt 8 with
  | none => rw [hcounts] at h; cases h
  | some p =>
    obtain ⟨blanks, rest⟩ := p
    rw [hcounts] at h
    dsimp only at h
    split at h
    · cases h
    next htail =>
    cases hbitrates : readBitrates units blanks rest.tail with
    | none => rw [hbitrates] at h; cases h
    | some p =>
      obtain ⟨layers, left⟩ := p
      rw [hbitrates] at h
      dsimp only at h
      obtain ⟨horder, hunresolved, hlen⟩ := readTemporalCounts_sound (j := 4) (by omega) hcounts
      obtain ⟨horder', hrates, hunresolved', hlen'⟩ := readBitrates_sound hbitrates
      have htailLen : rest.tail.length + 1 = rest.length := by
        cases rest with
        | nil => exact absurd rfl htail
        | cons b rest => rfl
      have hcount : layers.length = positions.length := by
        have := congrArg List.length (horder'.trans horder)
        simpa using this
      -- what both ways of ending share
      have hfinish {final : List (SpatialLayer Rate)}
          (hfinal : final.map SpatialLayer.order = layers.map SpatialLayer.order) :
          final.map SpatialLayer.position = positions ∧
            final.Pairwise fun lhs rhs => lhs.order < rhs.order := by
        have horders := hfinal.trans (horder'.trans horder)
        refine ⟨positions_of_orders horders, ?_⟩
        have hsorted : (final.map SpatialLayer.order).Pairwise (· < ·) := by
          rw [horders, List.pairwise_map]
          exact hpositions.imp positionOrder_lt.mpr
        exact List.pairwise_map.mp hsorted
      split at h
      · next hleft =>
        obtain ⟨hvalid, rfl⟩ := checked_eq_some.mp h
        obtain ⟨hpos, hdistinct⟩ := hfinish rfl
        have hlayers : layers ≠ [] := by
          rintro rfl
          have hblanks : blanks = [] := by simpa using horder'
          rw [hblanks, readBitrates] at hbitrates
          cases hbitrates
          exact htail hleft
        refine ⟨⟨hvalid, hdistinct, hrates, fun hnil => absurd hnil hlayers,
          fun _ => hunresolved' hunresolved⟩, hlayers, hpos, ?_⟩
        rw [writeLayers_length hvalid]
        simp only [Bool.false_eq_true, if_false]
        omega
      · next hleft =>
        split at h
        · cases h
        · next hsize =>
          obtain ⟨hvalid, rfl⟩ := checked_eq_some.mp h
          obtain ⟨hpos, hdistinct⟩ := hfinish (readResolutions_order layers left)
          have hfinalLen : (readResolutions layers left).length = layers.length := by
            have := congrArg List.length (readResolutions_order layers left)
            simpa using this
          have hlayers : readResolutions layers left ≠ [] := by
            have hpos := List.length_pos_iff.mpr hleft
            rw [← List.length_pos_iff]
            omega
          have hsame := readResolutions_bitrates layers left
          refine ⟨⟨hvalid, hdistinct, ?_, fun hnil => absurd hnil hlayers, fun hflag => by cases hflag⟩,
            hlayers, hpos, ?_⟩
          · intro layer hlayer rate hrate
            have hmem : layer.targetBitratePerTemporalLayer
                ∈ layers.map SpatialLayer.targetBitratePerTemporalLayer := by
              rw [← hsame]
              exact List.mem_map_of_mem hlayer
            obtain ⟨source, hsource, heq⟩ := List.mem_map.mp hmem
            exact hrates source hsource rate (heq ▸ hrate)
          · have hbytes : (readResolutions layers left).flatMap (SpatialLayer.writeBitrates units)
                = layers.flatMap (SpatialLayer.writeBitrates units) := by
              have := congrArg (List.flatMap (List.flatMap (writeRate units))) hsame
              rw [List.flatMap_map, List.flatMap_map] at this
              exact this
            rw [writeLayers_length hvalid]
            simp only [if_true, hbytes, hfinalLen]
            omega

theorem writeBitmasks_length (rtpStreamIndex : ℤ) (slb : SpatialLayersBitmasks) :
    (writeBitmasks rtpStreamIndex slb).length
      = 1 + if slb.bitmasksAreTheSame then 0 else if 2 ≤ slb.maxRtpStreamId then 2 else 1 := by
  rw [writeBitmasks]
  cases slb.bitmasksAreTheSame with
  | true => rfl
  | false =>
    by_cases hmore : 2 ≤ slb.maxRtpStreamId
    · simp [hmore]
    · simp [hmore]

/-- Bitmasks that were read are written in no more bytes than they had. -/
theorem writeBitmasks_le {header : UInt8} {numRtpStreams : ℕ} {readAt rest : Bytes}
    {masks : List ℕ} (hread : readBitmasks header numRtpStreams readAt = some (masks, rest))
    (hnum : 0 < numRtpStreams) {layers : List (SpatialLayer Rate)}
    (hlayers : layers.map SpatialLayer.position = layerPositions masks numRtpStreams)
    (rtpStreamIndex : ℤ) :
    (writeBitmasks rtpStreamIndex (spatialLayersBitmasksPerRtpStream layers)).length + rest.length
      ≤ readAt.length + 1 := by
  have hmem (i j : ℕ) : (∃ layer ∈ layers, layer.position = (i, j)) ↔
      i < numRtpStreams ∧ j < 4 ∧ (masks.getD i 0).testBit j = true := by
    rw [← mem_layerPositions, ← hlayers, List.mem_map]
  have hmax : (maxRtpStreamId layers).toNat < numRtpStreams := by
    have hlt : maxRtpStreamId layers < (numRtpStreams : ℤ) := by
      refine maxRtpStreamId_lt (by omega) fun layer hlayer => ?_
      have hfirst := ((hmem layer.position.1 layer.position.2).mp ⟨layer, hlayer, rfl⟩).1
      have : layer.position.1 = layer.rtpStreamIndex.toNat := rfl
      omega
    omega
  have hid : (spatialLayersBitmasksPerRtpStream layers).maxRtpStreamId
      = (maxRtpStreamId layers).toNat := rfl
  rw [writeBitmasks_length, hid]
  rcases readBitmasks_cases hread with ⟨⟨mask, rfl⟩, rfl⟩ | ⟨hsmall, hlen⟩ | hlen
  · have hsame : (spatialLayersBitmasksPerRtpStream layers).bitmasksAreTheSame = true := by
      rw [bitmasksAreTheSame_iff]
      intro i hi
      rw [hid] at hi
      refine Nat.eq_of_testBit_eq fun j => Bool.eq_iff_iff.mpr ?_
      rw [mask_testBit, mask_testBit, hmem, hmem, List.getD_replicate _ (by omega),
        List.getD_replicate _ (by omega)]
      simp only [hnum, show i < numRtpStreams by omega]
    rw [hsame]
    simp only [if_true]
    omega
  · rw [if_neg (show ¬2 ≤ (maxRtpStreamId layers).toNat by omega)]
    split <;> omega
  · split
    · omega
    · split <;> omega

/-- What is accepted can be expressed, and in no more bytes. -/
theorem parse_sound {data : Bytes} (h : parse units data = some allocation) :
    allocation.Expressible units ∧ (allocation.write units).length ≤ data.length := by
  match data, h with
  | header :: readAt, h =>
    rw [parse] at h
    split at h
    · obtain ⟨hvalid, rfl⟩ := checked_eq_some.mp h
      refine ⟨⟨hvalid, List.Pairwise.nil, by simp, fun _ => ⟨rfl, rfl⟩, by simp⟩, ?_⟩
      change [0].length ≤ _
      simp
    · dsimp only at h
      cases hread : readBitmasks header (1 + (header.toNat >>> 4 &&& 0b11)) readAt with
      | none => rw [hread] at h; cases h
      | some p =>
        obtain ⟨masks, rest⟩ := p
        rw [hread] at h
        dsimp only at h
        split at h
        · cases h
        · obtain ⟨hexpr, hlayers, hpositions, hlen⟩ :=
            parseLayers_sound (layerPositions_pairwise _ _) h
          refine ⟨hexpr, ?_⟩
          have hheader := writeBitmasks_le hread (by omega) hpositions allocation.rtpStreamIndex
          rw [write_of_layers units hlayers, List.length_append, List.length_cons]
          omega

theorem valueSize_eq (hvalid : allocation.AllocationIsValid) :
    allocation.valueSize units = (allocation.write units).length := by
  by_cases hlayers : allocation.activeSpatialLayers = []
  · rw [valueSize, write, hlayers]
    rfl
  · have hpos := List.length_pos_iff.mpr hlayers
    have hrates : (allocation.activeSpatialLayers.flatMap (SpatialLayer.writeBitrates units)).length
        = (allocation.activeSpatialLayers.map fun layer =>
            (layer.targetBitratePerTemporalLayer.map fun value =>
              leb128Size (UInt32.ofNat (units.kbps value))).sum).sum := by
      rw [List.length_flatMap]
      congr 1
      refine List.map_congr_left fun layer _ => ?_
      rw [writeBitrates_eq, List.length_flatMap]
      congr 1
      exact List.map_congr_left fun rate _ => (leb128Size_eq _).symm
    rw [valueSize, if_neg (by simpa using hlayers), write_of_layers units hlayers, List.length_append,
      writeBitmasks_length, writeLayers_length hvalid, hrates]
    dsimp only
    omega

/-- What is written fills the space asked for, and comes back just when it can be expressed. -/
theorem round_trip_iff (units : DataRates Rate) {allocation : VideoLayersAllocation Rate}
    (hvalid : allocation.AllocationIsValid) :
    (allocation.write units).length = allocation.valueSize units ∧
      (parse units (allocation.write units) = some allocation ↔ allocation.Expressible units) :=
  ⟨(valueSize_eq hvalid).symm, fun h => (parse_sound h).1, parse_write⟩

/-- Two streams, of which the second has a layer less. -/
def simulcast : VideoLayersAllocation ℕ :=
  { rtpStreamIndex := 1, resolutionAndFrameRateIsValid := true,
    activeSpatialLayers := [⟨0, 0, [100000, 300000], 320, 180, 30⟩, ⟨0, 1, [900000], 640, 360, 30⟩,
      ⟨1, 0, [150000, 1000000000], 1280, 720, 15⟩] }

theorem round_trip_iff_simulcast :
    (simulcast.write bitsPerSecond).length = simulcast.valueSize bitsPerSecond ∧
      (parse bitsPerSecond (simulcast.write bitsPerSecond) = some simulcast ↔
        simulcast.Expressible bitsPerSecond) :=
  round_trip_iff bitsPerSecond (by decide)

/-- Every value accepted is valid, and its own spelling is accepted as the same value and is no
longer. -/
theorem accepted_respelled (units : DataRates Rate) {data : Bytes}
    {allocation : VideoLayersAllocation Rate} (h : parse units data = some allocation) :
    allocation.Expressible units ∧ parse units (allocation.write units) = some allocation ∧
      (allocation.write units).length ≤ data.length :=
  ⟨(parse_sound h).1, parse_write (parse_sound h).1, (parse_sound h).2⟩

/-- A rate of 200 kbps spelled in three bytes. -/
theorem accepted_respelled_long :
    ∃ allocation, parse bitsPerSecond [0x01, 0x00, 0xC8, 0x81, 0x00] = some allocation ∧
      allocation.Expressible bitsPerSecond ∧
      parse bitsPerSecond (allocation.write bitsPerSecond) = some allocation ∧
      (allocation.write bitsPerSecond).length ≤ 5 := by
  obtain ⟨allocation, h⟩ : ∃ allocation,
      parse bitsPerSecond [0x01, 0x00, 0xC8, 0x81, 0x00] = some allocation := ⟨_, rfl⟩
  exact ⟨allocation, h, accepted_respelled bitsPerSecond h⟩

end VideoLayersAllocation

end Rtp
end XrtcServer
