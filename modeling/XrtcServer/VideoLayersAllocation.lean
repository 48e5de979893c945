import XrtcServer.Leb128
import Mathlib.Data.Prod.Lex
import Mathlib.Data.List.Sort
import Mathlib.Data.Nat.Bitwise

/-! The header extension that tells which spatial layers of which RTP streams are sent, and
at which bitrates. -/
namespace XrtcServer
namespace Rtp
open ByteFormat

/-- `webrtc::DataRate`: whole kilobits come back as they went in. -/
structure DataRates (Rate : Type) where
  kbps : Rate → ℕ
  kilobitsPerSec : ℕ → Rate
  zero : Rate
  kbps_kilobitsPerSec : ∀ k, kbps (kilobitsPerSec k) = k

/-- Rates counted in bits, rounded to the nearest kilobit. -/
def bitsPerSecond : DataRates ℕ where
  kbps bps := (bps + 500) / 1000
  kilobitsPerSec k := k * 1000
  zero := 0
  kbps_kilobitsPerSec k := by omega

structure SpatialLayer (Rate : Type) where
  rtpStreamIndex : ℤ
  spatialId : ℤ
  targetBitratePerTemporalLayer : List Rate
  width : UInt16
  height : UInt16
  frameRateFps : UInt8
  deriving DecidableEq

structure VideoLayersAllocation (Rate : Type) where
  rtpStreamIndex : ℤ
  resolutionAndFrameRateIsValid : Bool
  activeSpatialLayers : List (SpatialLayer Rate)
  deriving DecidableEq

section Leb

def leb128Size (value : UInt32) : ℕ :=
  if 0x80 ≤ value.toNat then leb128Size (value >>> 7) + 1 else 1
termination_by value.toNat
decreasing_by simp [Nat.shiftRight_eq_div_pow]; omega

def writeLeb128 (value : UInt32) : Bytes :=
  if 0x80 ≤ value.toNat then
    UInt8.ofNat (0x80 ||| (value &&& 0x7F).toNat) :: writeLeb128 (value >>> 7)
  else [UInt8.ofNat value.toNat]
termination_by value.toNat
decreasing_by simp [Nat.shiftRight_eq_div_pow]; omega

def readLeb128 : Bytes → UInt64 → ℕ → Option (UInt64 × Bytes)
  | [], _, _ => none
  | leb128Byte :: readAt, value, fillBits =>
    if fillBits < 64 - 7 then
      let value := value ||| ((leb128Byte &&& 0x7F).toUInt64 <<< UInt64.ofNat fillBits)
      if leb128Byte &&& 0x80 = 0 then some (value, readAt)
      else readLeb128 readAt value (fillBits + 7)
    -- no terminator found
    else none

theorem and_seven_bits (n : ℕ) : n &&& 127 = n % 128 := Nat.and_two_pow_sub_one_eq_mod n 7

theorem or_eighth_bit {n : ℕ} (h : n < 128) : 128 ||| n = n + 128 := by
  have hor : 1 <<< 7 + n = 1 <<< 7 ||| n := Nat.shiftLeft_add_eq_or_of_lt (i := 7) h 1
  calc 128 ||| n = 1 <<< 7 + n := hor.symm
    _ = n + 128 := Nat.add_comm 128 n

theorem eighth_bit_clear (b : UInt8) : b &&& 0x80 = 0 ↔ b.toNat < 128 := by
  have hb : b.toNat < 256 := b.toNat_lt
  have hbit : b.toNat &&& 128 = (b.toNat.testBit 7).toNat * 128 := Nat.and_two_pow b.toNat 7
  rw [← UInt8.toNat_inj, UInt8.toNat_and, UInt8.toNat_ofNat, UInt8.toNat_ofNat]
  norm_num
  rw [hbit, Nat.testBit_eq_decide_div_mod_eq]
  by_cases h : b.toNat / 2 ^ 7 % 2 = 1
  · simp only [h]
    norm_num
    omega
  · simp only [h]
    norm_num
    omega

theorem writeLeb128_eq (value : UInt32) : writeLeb128 value = Leb128.encode value.toNat := by
  induction value using writeLeb128.induct with
  | case1 value h ih =>
    have hlow : (0x80 ||| (value &&& 0x7F).toNat) = value.toNat % 128 + 128 := by
      rw [UInt32.toNat_and]
      change 128 ||| (value.toNat &&& 127) = _
      rw [and_seven_bits, or_eighth_bit (by omega)]
    have hshift : (value >>> 7).toNat = value.toNat / 128 := by
      simp [Nat.shiftRight_eq_div_pow]
    rw [writeLeb128, if_pos h, Leb128.encode_large h, ih, hlow, hshift]
  | case2 value h =>
    rw [writeLeb128, if_neg h, Leb128.encode_small (by omega)]

theorem leb128Size_eq (value : UInt32) : leb128Size value = (writeLeb128 value).length := by
  induction value using leb128Size.induct with
  | case1 value h ih => rw [leb128Size, if_pos h, writeLeb128, if_pos h, ih, List.length_cons]
  | case2 value h => rw [leb128Size, if_neg h, writeLeb128, if_neg h, List.length_singleton]

/-- The digit read goes above the digits already there. -/
theorem or_digit {value : UInt64} {j : ℕ} (hvalue : value.toNat < 128 ^ j) (hj : j < 9) (b : UInt8) :
    (value ||| ((b &&& 0x7F).toUInt64 <<< UInt64.ofNat (7 * j))).toNat
      = value.toNat + 128 ^ j * (b.toNat % 128) := by
  have hpow : 128 ^ j = 2 ^ (7 * j) := by rw [pow_mul]; norm_num
  have hlow : (b &&& 0x7F).toUInt64.toNat = b.toNat % 128 := by
    rw [UInt8.toNat_toUInt64, UInt8.toNat_and]
    exact and_seven_bits b.toNat
  have hfits : (b.toNat % 128) <<< (7 * j) < 2 ^ 64 := by
    have hmul : b.toNat % 128 * 2 ^ (7 * j) < 2 ^ 7 * 2 ^ (7 * j) :=
      Nat.mul_lt_mul_of_pos_right (by omega) (by positivity)
    have hle : 2 ^ 7 * 2 ^ (7 * j) ≤ 2 ^ 64 := by
      rw [← pow_add]
      exact Nat.pow_le_pow_right (by norm_num) (by omega)
    rw [Nat.shiftLeft_eq]
    omega
  have hshift : (UInt64.ofNat (7 * j)).toNat = 7 * j :=
    UInt64.toNat_ofNat_of_lt' (show 7 * j < 2 ^ 64 by omega)
  rw [UInt64.toNat_or, UInt64.toNat_shiftLeft, hlow, hshift,
    Nat.mod_eq_of_lt (show 7 * j < 64 by omega), Nat.mod_eq_of_lt hfits, Nat.lor_comm,
    ← Nat.shiftLeft_add_eq_or_of_lt (hpow ▸ hvalue), Nat.shiftLeft_eq, hpow]
  ring

theorem readLeb128_eq (bs : Bytes) {value : UInt64} {j : ℕ} (hvalue : value.toNat < 128 ^ j)
    (hj : j ≤ 9) :
    readLeb128 bs value (7 * j) = (Leb128.decode (9 - j) bs).map fun p =>
      (UInt64.ofNat (value.toNat + 128 ^ j * p.1), p.2) := by
  induction bs generalizing value j with
  | nil => cases h : 9 - j <;> simp [readLeb128, Leb128.decode]
  | cons b bs ih =>
    by_cases hlast : j = 9
    · subst hlast
      simp [readLeb128, Leb128.decode]
    · obtain ⟨k, hk⟩ : ∃ k, 9 - j = k + 1 := ⟨8 - j, by omega⟩
      have hdigit := or_digit hvalue (by omega) b
      rw [readLeb128, if_pos (by omega), hk, Leb128.decode]
      by_cases hb : b.toNat < 128
      · rw [if_pos ((eighth_bit_clear b).mpr hb), if_pos hb, Option.map_some]
        refine congrArg some (Prod.ext ?_ rfl)
        rw [← UInt64.toNat_inj, hdigit, UInt64.toNat_ofNat_of_lt', Nat.mod_eq_of_lt hb]
        have := UInt64.toNat_lt (value ||| ((b &&& 0x7F).toUInt64 <<< UInt64.ofNat (7 * j)))
        rw [hdigit, Nat.mod_eq_of_lt hb] at this
        exact this
      · have hgrown : (value ||| ((b &&& 0x7F).toUInt64 <<< UInt64.ofNat (7 * j))).toNat
            < 128 ^ (j + 1) := by
          have : 128 ^ j * (b.toNat % 128) ≤ 128 ^ j * 127 := Nat.mul_le_mul_left _ (by omega)
          rw [hdigit, pow_succ]
          omega
        have hnext := ih hgrown (by omega)
        rw [if_neg (by rw [eighth_bit_clear]; exact hb), if_neg hb, Option.map_map,
          show 7 * j + 7 = 7 * (j + 1) by ring, hnext, show 9 - (j + 1) = k by omega]
        refine congrArg (fun f => (Leb128.decode k bs).map f) (funext fun p => ?_)
        refine Prod.ext ?_ rfl
        simp only [Function.comp_apply, hdigit, pow_succ]
        congr 1
        ring

/-- From the start of a value. -/
theorem readLeb128_zero (bs : Bytes) :
    readLeb128 bs 0 0 = (Leb128.decode 9 bs).map fun p => (UInt64.ofNat p.1, p.2) := by
  have h : readLeb128 bs 0 (7 * 0) = _ := readLeb128_eq bs (by simp) (by omega)
  simpa using h

end Leb

variable {Rate : Type}

namespace SpatialLayer

/-- Streams before spatial ids. -/
def order (layer : SpatialLayer Rate) : ℤ ×ₗ ℤ := toLex (layer.rtpStreamIndex, layer.spatialId)

/-- The place of the layer in the bitmasks. -/
def position (layer : SpatialLayer Rate) : ℕ × ℕ :=
  (layer.rtpStreamIndex.toNat, layer.spatialId.toNat)

structure IsValid (withResolution : Bool) (layer : SpatialLayer Rate) : Prop where
  stream : 0 ≤ layer.rtpStreamIndex ∧ layer.rtpStreamIndex < 4
  spatial : 0 ≤ layer.spatialId ∧ layer.spatialId < 4
  temporal : layer.targetBitratePerTemporalLayer ≠ [] ∧
    layer.targetBitratePerTemporalLayer.length ≤ 4
  resolution : withResolution = true →
    0 < layer.width ∧ 0 < layer.height ∧ layer.frameRateFps.toNat ≤ 255

instance (withResolution : Bool) (layer : SpatialLayer Rate) :
    Decidable (layer.IsValid withResolution) :=
  decidable_of_iff ((0 ≤ layer.rtpStreamIndex ∧ layer.rtpStreamIndex < 4) ∧
      (0 ≤ layer.spatialId ∧ layer.spatialId < 4) ∧
      (layer.targetBitratePerTemporalLayer.isEmpty = false ∧
        layer.targetBitratePerTemporalLayer.length ≤ 4) ∧
      (withResolution = true → 0 < layer.width ∧ 0 < layer.height ∧ layer.frameRateFps.toNat ≤ 255))
    ⟨fun ⟨a, b, c, d⟩ => ⟨a, b, by simpa using c, d⟩, fun ⟨a, b, c, d⟩ => ⟨a, b, by simpa using c, d⟩⟩

end SpatialLayer

def maxRtpStreamId (layers : List (SpatialLayer Rate)) : ℤ :=
  layers.foldl (fun m layer => if m < layer.rtpStreamIndex then layer.rtpStreamIndex else m) 0

namespace VideoLayersAllocation

structure AllocationIsValid (allocation : VideoLayersAllocation Rate) : Prop where
  sorted : allocation.activeSpatialLayers.IsChain fun lhs rhs => ¬rhs.order < lhs.order
  layers : ∀ layer ∈ allocation.activeSpatialLayers,
    layer.IsValid allocation.resolutionAndFrameRateIsValid
  stream : 0 ≤ allocation.rtpStreamIndex ∧ (allocation.activeSpatialLayers.isEmpty = false →
    allocation.rtpStreamIndex ≤ maxRtpStreamId allocation.activeSpatialLayers)

instance (allocation : VideoLayersAllocation Rate) : Decidable allocation.AllocationIsValid :=
  decidable_of_iff
    ((allocation.activeSpatialLayers.IsChain fun lhs rhs => ¬rhs.order < lhs.order) ∧
      (∀ layer ∈ allocation.activeSpatialLayers,
        layer.IsValid allocation.resolutionAndFrameRateIsValid) ∧
      (0 ≤ allocation.rtpStreamIndex ∧ (allocation.activeSpatialLayers.isEmpty = false →
        allocation.rtpStreamIndex ≤ maxRtpStreamId allocation.activeSpatialLayers)))
    ⟨fun ⟨a, b, c⟩ => ⟨a, b, c⟩, fun ⟨a, b, c⟩ => ⟨a, b, c⟩⟩

end VideoLayersAllocation

structure SpatialLayersBitmasks where
  maxRtpStreamId : ℕ
  spatialLayerBitmask : ℕ → ℕ
  bitmasksAreTheSame : Bool

/-- The mask of each stream after one more layer. -/
def setLayerBit (masks : ℕ → ℕ) (layer : SpatialLayer Rate) : ℕ → ℕ :=
  Function.update masks layer.position.1 (masks layer.position.1 ||| 1 <<< layer.position.2)

def spatialLayersBitmasksPerRtpStream (layers : List (SpatialLayer Rate)) :
    SpatialLayersBitmasks :=
  let masks := layers.foldl setLayerBit fun _ => 0
  let maxId := (maxRtpStreamId layers).toNat
  { maxRtpStreamId := maxId, spatialLayerBitmask := masks,
    bitmasksAreTheSame := (List.range maxId).all fun i => masks (i + 1) = masks 0 }

/-- The header byte and the bitmasks that did not fit in it. -/
def writeBitmasks (rtpStreamIndex : ℤ) (slb : SpatialLayersBitmasks) : Bytes :=
  let first := rtpStreamIndex.toNat <<< 6 ||| slb.maxRtpStreamId <<< 4
  let mask := slb.spatialLayerBitmask
  if slb.bitmasksAreTheSame then [UInt8.ofNat (first ||| mask 0)]
  else
    UInt8.ofNat first :: UInt8.ofNat (mask 0 <<< 4 ||| mask 1) ::
      if 2 ≤ slb.maxRtpStreamId then [UInt8.ofNat (mask 2 <<< 4 ||| mask 3)] else []

/-- Two bits for each number of temporal layers, from the top of each byte; `writeAt` is the
byte begun, of which the low `bitOffset` bits are free. -/
def writeTemporalCounts : List ℕ → ℕ → ℕ → Bytes
  | [], writeAt, _ => [UInt8.ofNat writeAt]
  | n :: ns, writeAt, 0 => UInt8.ofNat writeAt :: writeTemporalCounts ns ((n - 1) <<< 6) 6
  | n :: ns, writeAt, bitOffset + 1 =>
    writeTemporalCounts ns (writeAt ||| (n - 1) <<< (bitOffset + 1 - 2)) (bitOffset + 1 - 2)

namespace SpatialLayer

def writeBitrates (units : DataRates Rate) (layer : SpatialLayer Rate) : Bytes :=
  layer.targetBitratePerTemporalLayer.flatMap fun bitrate =>
    writeLeb128 (UInt32.ofNat (units.kbps bitrate))

def writeResolution (layer : SpatialLayer Rate) : Bytes :=
  toBE 2 (layer.width - 1).toNat ++ toBE 2 (layer.height - 1).toNat ++ [layer.frameRateFps]

end SpatialLayer

/-- The streams and spatial ids whose bits are set, in the order in which they are visited. -/
def layerPositions (masks : List ℕ) (numRtpStreams : ℕ) : List (ℕ × ℕ) :=
  (List.range numRtpStreams).flatMap fun streamIdx =>
    ((List.range 4).filter fun sid => masks.getD streamIdx 0 &&& 1 <<< sid ≠ 0).map fun sid =>
      (streamIdx, sid)

/-- The bitmasks of the streams and the bytes after the last byte that held one. -/
def readBitmasks (header : UInt8) (numRtpStreams : ℕ) (readAt : Bytes) : Option (List ℕ × Bytes) :=
  let mask := header.toNat &&& 0b1111
  if mask ≠ 0 then some (List.replicate numRtpStreams mask, readAt)
  else
    match readAt with
    | [] => none
    | b :: readAt =>
      let masks := [b.toNat >>> 4, b.toNat &&& 0b1111]
      if 2 < numRtpStreams then
        match readAt with
        | [] => none
        | c :: readAt => some (masks ++ [c.toNat >>> 4, c.toNat &&& 0b1111], readAt)
      else some (masks, readAt)

/-- One layer for each position; what is left begins with the byte last read from. -/
def readTemporalCounts (units : DataRates Rate) :
    List (ℕ × ℕ) → Bytes → ℕ → Option (List (SpatialLayer Rate) × Bytes)
  | [], readAt, _ => some ([], readAt)
  | (streamIdx, sid) :: positions, readAt, bitOffset =>
    let readAt := if bitOffset = 0 then readAt.tail else readAt
    let bitOffset := if bitOffset = 0 then 6 else bitOffset - 2
    match readAt with
    | [] => none
    | b :: rest =>
      let numTemporalLayers := 1 + (b.toNat >>> bitOffset &&& 0b11)
      let layer := { rtpStreamIndex := streamIdx, spatialId := sid,
                     targetBitratePerTemporalLayer := List.replicate numTemporalLayers units.zero,
                     width := 0, height := 0, frameRateFps := 0 }
      (readTemporalCounts units positions (b :: rest) bitOffset).map fun p => (layer :: p.1, p.2)

def readRates (units : DataRates Rate) : List Rate → Bytes → Option (List Rate × Bytes)
  | [], readAt => some ([], readAt)
  | _ :: rates, readAt =>
    match readLeb128 readAt 0 0 with
    | none => none
    | some (bitrateKbps, readAt) =>
      -- more than a rate can be
      if 1000000 < bitrateKbps.toNat then none
      else (readRates units rates readAt).map fun p =>
        (units.kilobitsPerSec bitrateKbps.toNat :: p.1, p.2)

def readBitrates (units : DataRates Rate) :
    List (SpatialLayer Rate) → Bytes → Option (List (SpatialLayer Rate) × Bytes)
  | [], readAt => some ([], readAt)
  | layer :: layers, readAt =>
    match readRates units layer.targetBitratePerTemporalLayer readAt with
    | none => none
    | some (rates, readAt) =>
      (readBitrates units layers readAt).map fun p =>
        ({ layer with targetBitratePerTemporalLayer := rates } :: p.1, p.2)

def readResolutions : List (SpatialLayer Rate) → Bytes → List (SpatialLayer Rate)
  | [], _ => []
  | layer :: layers, readAt =>
    { layer with width := 1 + UInt16.ofNat (beNat (readAt.take 2)),
                 height := 1 + UInt16.ofNat (beNat ((readAt.drop 2).take 2)),
                 frameRateFps := readAt.getD 4 0 } :: readResolutions layers (readAt.drop 5)

namespace VideoLayersAllocation

def write (units : DataRates Rate) (allocation : VideoLayersAllocation Rate) : Bytes :=
  let layers := allocation.activeSpatialLayers
  if layers.isEmpty then [0]
  else
    writeBitmasks allocation.rtpStreamIndex (spatialLayersBitmasksPerRtpStream layers) ++
      writeTemporalCounts (layers.map fun layer => layer.targetBitratePerTemporalLayer.length) 0 8 ++
      layers.flatMap (SpatialLayer.writeBitrates units) ++
      if allocation.resolutionAndFrameRateIsValid then layers.flatMap SpatialLayer.writeResolution
      else []

def valueSize (units : DataRates Rate) (allocation : VideoLayersAllocation Rate) : ℕ :=
  let layers := allocation.activeSpatialLayers
  if layers.isEmpty then 1
  else
    let slb := spatialLayersBitmasksPerRtpStream layers
    1 + (if slb.bitmasksAreTheSame then 0 else if 2 ≤ slb.maxRtpStreamId then 2 else 1) +
      (layers.length + 3) / 4 +
      (layers.map fun layer => (layer.targetBitratePerTemporalLayer.map fun value =>
        leb128Size (UInt32.ofNat (units.kbps value))).sum).sum +
      if allocation.resolutionAndFrameRateIsValid then 5 * layers.length else 0

/-- The check that ends every way of reading an allocation. -/
def checked (allocation : VideoLayersAllocation Rate) : Option (VideoLayersAllocation Rate) :=
  if allocation.AllocationIsValid then some allocation else none

/-- The layers, and then the resolutions if any bytes are left. -/
def parseLayers (units : DataRates Rate) (rtpStreamIndex : ℤ) (positions : List (ℕ × ℕ))
    (readAt : Bytes) : Option (VideoLayersAllocation Rate) :=
  match readTemporalCounts units positions readAt 8 with
  | none => none
  | some (layers, readAt) =>
    if readAt.tail = [] then none
    else
      match readBitrates units layers readAt.tail with
      | none => none
      | some (layers, readAt) =>
        if readAt = [] then
          checked { rtpStreamIndex, resolutionAndFrameRateIsValid := false,
                    activeSpatialLayers := layers }
        else if readAt.length ≠ 5 * layers.length then none
        else checked { rtpStreamIndex, resolutionAndFrameRateIsValid := true,
                       activeSpatialLayers := readResolutions layers readAt }

def parse (units : DataRates Rate) : Bytes → Option (VideoLayersAllocation Rate)
  | [] => none
  | header :: readAt =>
    if readAt = [] ∧ header = 0 then
      checked { rtpStreamIndex := 0, resolutionAndFrameRateIsValid := true, activeSpatialLayers := [] }
    else
      let numRtpStreams := 1 + (header.toNat >>> 4 &&& 0b11)
      match readBitmasks header numRtpStreams readAt with
      | none => none
      | some (masks, readAt) =>
        if readAt = [] then none
        else parseLayers units (header.toNat >>> 6 : ℕ) (layerPositions masks numRtpStreams) readAt

end VideoLayersAllocation

end Rtp
end XrtcServer
