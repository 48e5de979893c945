import XrtcServer.StructLayout
import Mathlib.Data.List.OfFn
import Mathlib.Data.UInt

/-! The header of a signaling packet in its two forms: `Header` of the Go client, written
at explicit offsets, and the C struct `xhead_t` of the server. -/
namespace XrtcServer
namespace Signaling
open ByteFormat StructLayout

def headerSize : ℕ := 36
def headerMagicnum : UInt32 := 0xfb202212

structure Header where
  id : UInt16
  version : UInt16
  logId : UInt32
  provider : Fin 16 → UInt8
  magicNum : UInt32
  reserved : UInt32
  bodyLen : UInt32

def putUint16 (b : Bytes) (pos : ℕ) (n : UInt16) : Bytes := put b pos (toLE 2 n.toNat)
def putUint32 (b : Bytes) (pos : ℕ) (n : UInt32) : Bytes := put b pos (toLE 4 n.toNat)
def uint16At (b : Bytes) (pos : ℕ) : UInt16 := UInt16.ofNat (leNat (load b pos 2))
def uint32At (b : Bytes) (pos : ℕ) : UInt32 := UInt32.ofNat (leNat (load b pos 4))
def bytesAt (b : Bytes) (pos n : ℕ) (i : Fin n) : UInt8 := (load b pos n).getD i 0

/-- The buffer after `Marshal`, or its error. -/
def Header.marshal (h : Header) (b : Bytes) : Except String Bytes :=
  if b.length < headerSize then .error "no enough buffer for header"
  else
    let b := putUint16 b 0 h.id
    let b := putUint16 b 2 h.version
    let b := putUint32 b 4 h.logId
    let b := put b 8 (List.ofFn h.provider)
    let b := putUint32 b 24 h.magicNum
    let b := putUint32 b 28 h.reserved
    .ok (putUint32 b 32 h.bodyLen)

/-- What `Write` sends. -/
def Header.write (h : Header) : Except String Bytes := h.marshal (List.replicate headerSize 0)

def Header.unMarshal (b : Bytes) : Except String Header :=
  if b.length < headerSize then .error "incomplete header"
  else
    .ok { id := uint16At b 0
          version := uint16At b 2
          logId := uint32At b 4
          provider := bytesAt b 8 16
          magicNum := uint32At b 24
          reserved := uint32At b 28
          bodyLen := uint32At b 32 }

/-- `xhead_t`. -/
structure Xhead where
  id : UInt16
  version : UInt16
  logId : UInt16
  provider : Fin 16 → UInt8
  magicNum : UInt32
  reserved : UInt32
  bodyLen : UInt32

namespace Xhead

def uint16 : Field := ⟨2, 2⟩
def uint32 : Field := ⟨4, 4⟩
def chars (n : ℕ) : Field := ⟨n, 1⟩

/-- The types of the members. -/
def fields : List Field := [uint16, uint16, uint16, chars 16, uint32, uint32, uint32]

def offset (i : ℕ) : ℕ := (offsets 0 fields).getD i 0

/-- What a program reads through a pointer to `xhead_t`. -/
def ofMemory (b : Bytes) : Xhead where
  id := uint16At b (offset 0)
  version := uint16At b (offset 1)
  logId := uint16At b (offset 2)
  provider := bytesAt b (offset 3) 16
  magicNum := uint32At b (offset 4)
  reserved := uint32At b (offset 5)
  bodyLen := uint32At b (offset 6)

def members (x : Xhead) : List (Field × Bytes) :=
  [(uint16, toLE 2 x.id.toNat), (uint16, toLE 2 x.version.toNat), (uint16, toLE 2 x.logId.toNat),
    (chars 16, List.ofFn x.provider), (uint32, toLE 4 x.magicNum.toNat), (uint32, toLE 4 x.reserved.toNat),
    (uint32, toLE 4 x.bodyLen.toNat)]

/-- The bytes of the struct, with `fill` in its padding. -/
def toMemory (fill : ℕ → UInt8) (x : Xhead) : Bytes :=
  store fill 0 x.members

example : offsets 0 fields = [0, 2, 4, 6, 24, 28, 32] := by decide

example : structSize fields = headerSize := by decide

end Xhead

/-- The two forms of a header agree field by field. -/
structure Agree (h : Header) (x : Xhead) : Prop where
  id : x.id = h.id
  version : x.version = h.version
  logId : x.logId.toNat = h.logId.toNat
  provider : x.provider = h.provider
  magicNum : x.magicNum = h.magicNum
  reserved : x.reserved = h.reserved
  bodyLen : x.bodyLen = h.bodyLen

section Fields

theorem uint16At_of_load {b : Bytes} {pos : ℕ} {n : UInt16} (h : load b pos 2 = toLE 2 n.toNat) :
    uint16At b pos = n := by
  rw [uint16At, h, leNat_toLE_of_lt (by have := n.toNat_lt; omega), UInt16.ofNat_toNat]

theorem uint32At_of_load {b : Bytes} {pos : ℕ} {n : UInt32} (h : load b pos 4 = toLE 4 n.toNat) :
    uint32At b pos = n := by
  rw [uint32At, h, leNat_toLE_of_lt (by have := n.toNat_lt; omega), UInt32.ofNat_toNat]

theorem bytesAt_of_load {b : Bytes} {pos n : ℕ} {f : Fin n → UInt8} (h : load b pos n = List.ofFn f) :
    bytesAt b pos n = f := by
  funext i
  simp [bytesAt, h]

end Fields

namespace Xhead

theorem members_size (x : Xhead) : ∀ f ∈ x.members, f.2.length = f.1.size := by
  simp [members, uint16, uint32, chars]

/-- The server reads back what a struct holds. -/
theorem ofMemory_toMemory (fill : ℕ → UInt8) (x : Xhead) (tail : Bytes) :
    ofMemory (x.toMemory fill ++ tail) = x := by
  have hload {i : ℕ} {f : Field} {v : Bytes} {offset : ℕ} (hi : x.members[i]? = some (f, v))
      (hoffset : (offsets 0 fields)[i]? = some offset) : load (x.toMemory fill ++ tail) offset f.size = v :=
    load_store x.members_size tail hi hoffset
  obtain ⟨id, version, logId, provider, magicNum, reserved, bodyLen⟩ := x
  simp only [ofMemory, Xhead.mk.injEq]
  exact ⟨uint16At_of_load (hload (i := 0) rfl rfl), uint16At_of_load (hload (i := 1) rfl rfl),
    uint16At_of_load (hload (i := 2) rfl rfl), bytesAt_of_load (hload (i := 3) rfl rfl),
    uint32At_of_load (hload (i := 4) rfl rfl), uint32At_of_load (hload (i := 5) rfl rfl),
    uint32At_of_load (hload (i := 6) rfl rfl)⟩

end Xhead

namespace Header

/-- The types of the fields in the order of their offsets, which leaves no padding. -/
def fields : List Field :=
  [Xhead.uint16, Xhead.uint16, Xhead.uint32, Xhead.chars 16, Xhead.uint32, Xhead.uint32, Xhead.uint32]

def members (h : Header) : List (Field × Bytes) :=
  [(Xhead.uint16, toLE 2 h.id.toNat), (Xhead.uint16, toLE 2 h.version.toNat), (Xhead.uint32, toLE 4 h.logId.toNat),
    (Xhead.chars 16, List.ofFn h.provider), (Xhead.uint32, toLE 4 h.magicNum.toNat),
    (Xhead.uint32, toLE 4 h.reserved.toNat), (Xhead.uint32, toLE 4 h.bodyLen.toNat)]

def bytes (h : Header) : Bytes := store 0 0 h.members

theorem members_size (h : Header) : ∀ f ∈ h.members, f.2.length = f.1.size := by
  simp [members, Xhead.uint16, Xhead.uint32, Xhead.chars]

theorem bytes_eq (h : Header) :
    h.bytes = toLE 2 h.id.toNat ++ (toLE 2 h.version.toNat ++ (toLE 4 h.logId.toNat ++ (List.ofFn h.provider ++
      (toLE 4 h.magicNum.toNat ++ (toLE 4 h.reserved.toNat ++ toLE 4 h.bodyLen.toNat))))) := by
  simp [bytes, members, store, Xhead.uint16, Xhead.uint32, Xhead.chars, alignUp, padding]

@[simp] theorem bytes_length (h : Header) : h.bytes.length = headerSize := by
  simp [bytes_eq, headerSize]

theorem marshal_eq (h : Header) {b : Bytes} (hb : headerSize ≤ b.length) :
    h.marshal b = .ok (h.bytes ++ b.drop headerSize) := by
  rw [marshal, if_neg (by omega)]
  simp only [putUint16, putUint32, put_zero]
  rw [put_append (by simp), put_append (by simp), put_append (by simp), put_append (by simp), put_append (by simp),
    put_append (by simp), bytes_eq]
  simp [headerSize]

theorem write_eq (h : Header) : h.write = .ok h.bytes := by
  rw [write, marshal_eq h (by simp)]
  simp

theorem unMarshal_bytes (h : Header) (tail : Bytes) : unMarshal (h.bytes ++ tail) = .ok h := by
  have hload {i : ℕ} {f : Field} {v : Bytes} {offset : ℕ} (hi : h.members[i]? = some (f, v))
      (hoffset : (offsets 0 fields)[i]? = some offset) : load (h.bytes ++ tail) offset f.size = v :=
    load_store h.members_size tail hi hoffset
  have hlen : ¬ (h.bytes ++ tail).length < headerSize := by
    rw [List.length_append, bytes_length]
    omega
  obtain ⟨id, version, logId, provider, magicNum, reserved, bodyLen⟩ := h
  simp only [unMarshal, if_neg hlen, Except.ok.injEq, Header.mk.injEq]
  exact ⟨uint16At_of_load (hload (i := 0) rfl rfl), uint16At_of_load (hload (i := 1) rfl rfl),
    uint32At_of_load (hload (i := 2) rfl rfl), bytesAt_of_load (hload (i := 3) rfl rfl),
    uint32At_of_load (hload (i := 4) rfl rfl), uint32At_of_load (hload (i := 5) rfl rfl),
    uint32At_of_load (hload (i := 6) rfl rfl)⟩

end Header

section Shift

/-- What the server reads of a client's header: the high half of the log id goes into the
provider, and the end of the provider falls into the padding. -/
def Header.toXhead (h : Header) : Xhead where
  id := h.id
  version := h.version
  logId := h.logId.toUInt16
  provider := fun i => ((toLE 2 (h.logId.toNat / 256^2) ++ List.ofFn h.provider).take 16).getD i 0
  magicNum := h.magicNum
  reserved := h.reserved
  bodyLen := h.bodyLen

/-- What the client reads of a server's struct with `fill` in its padding. -/
def Xhead.toHeader (fill : ℕ → UInt8) (x : Xhead) : Header where
  id := x.id
  version := x.version
  logId := UInt32.ofNat (leNat (toLE 2 x.logId.toNat ++ (List.ofFn x.provider).take 2))
  provider := fun i => ((List.ofFn x.provider).drop 2 ++ [fill 22, fill 23]).getD i 0
  magicNum := x.magicNum
  reserved := x.reserved
  bodyLen := x.bodyLen

theorem ofFn_getD {n : ℕ} {bs : Bytes} (h : bs.length = n) : (List.ofFn fun i : Fin n => bs.getD i 0) = bs := by
  subst h
  simp

theorem Xhead.toMemory_eq (fill : ℕ → UInt8) (x : Xhead) :
    x.toMemory fill = toLE 2 x.id.toNat ++ (toLE 2 x.version.toNat ++ (toLE 2 x.logId.toNat ++ (List.ofFn x.provider ++
      ([fill 22, fill 23] ++ (toLE 4 x.magicNum.toNat ++ (toLE 4 x.reserved.toNat ++ toLE 4 x.bodyLen.toNat)))))) := by
  simp [toMemory, members, store, uint16, uint32, chars, alignUp, padding, List.range']

theorem Header.ofFn_provider (h : Header) : List.ofFn h.toXhead.provider =
    (toLE 2 (h.logId.toNat / 256^2) ++ List.ofFn h.provider).take 16 :=
  ofFn_getD (by simp)

theorem Xhead.ofFn_provider (fill : ℕ → UInt8) (x : Xhead) :
    List.ofFn (x.toHeader fill).provider = (List.ofFn x.provider).drop 2 ++ [fill 22, fill 23] :=
  ofFn_getD (by simp)

theorem Header.bytes_eq_toMemory (h : Header) :
    h.bytes = h.toXhead.toMemory fun i => (List.ofFn h.provider).getD (i - 8) 0 := by
  have hlow : toLE 2 h.logId.toUInt16.toNat = toLE 2 h.logId.toNat := by
    simpa using toLE_mod 2 h.logId.toNat
  have hlog : toLE 4 h.logId.toNat = toLE 2 h.logId.toNat ++ toLE 2 (h.logId.toNat / 256^2) := toLE_add 2 2 _
  have htail : List.ofFn h.provider = (List.ofFn h.provider).take 14 ++
      [(List.ofFn h.provider).getD 14 0, (List.ofFn h.provider).getD 15 0] := rfl
  have htake : (toLE 2 (h.logId.toNat / 256^2) ++ List.ofFn h.provider).take 16 =
      toLE 2 (h.logId.toNat / 256^2) ++ (List.ofFn h.provider).take 14 := by
    rw [List.take_append, List.take_of_length_le (by simp), toLE_length]
  rw [bytes_eq, Xhead.toMemory_eq, ofFn_provider, htake, hlog]
  nth_rewrite 1 [htail]
  simp only [toXhead, hlow, List.append_assoc]

theorem Xhead.toLE_logId (fill : ℕ → UInt8) (x : Xhead) :
    toLE 4 (x.toHeader fill).logId.toNat = toLE 2 x.logId.toNat ++ (List.ofFn x.provider).take 2 := by
  have h := toLE_leNat (toLE 2 x.logId.toNat ++ (List.ofFn x.provider).take 2)
  rw [← toLE_mod] at h
  simpa [toHeader] using h

theorem Xhead.toMemory_eq_bytes (fill : ℕ → UInt8) (x : Xhead) : x.toMemory fill = (x.toHeader fill).bytes := by
  have hsplit : List.ofFn x.provider = (List.ofFn x.provider).take 2 ++ (List.ofFn x.provider).drop 2 :=
    (List.take_append_drop 2 _).symm
  rw [toMemory_eq, Header.bytes_eq, toLE_logId, ofFn_provider]
  nth_rewrite 1 [hsplit]
  simp only [toHeader, List.append_assoc]

/-- Zeros that can be moved from one end to the other. -/
theorem zeros_of_commute {l t : Bytes} (h : [0, 0] ++ l = l ++ t) : (∀ b ∈ l, b = 0) ∧ t = [0, 0] := by
  induction l with
  | nil => exact ⟨by simp, by simpa using h.symm⟩
  | cons b l ih =>
    obtain ⟨hb, htail⟩ := List.cons.inj h
    have hl : [0, 0] ++ l = l ++ t := by simpa [← hb] using htail
    have ih := ih hl
    exact ⟨List.forall_mem_cons.mpr ⟨hb.symm, ih.1⟩, ih.2⟩

theorem provider_eq_zero {n : ℕ} {f : Fin n → UInt8} (h : ∀ b ∈ List.ofFn f, b = 0) : f = 0 := by
  funext i
  exact h (f i) (List.mem_ofFn.mpr ⟨i, rfl⟩)

theorem agree_toXhead_iff (h : Header) : Agree h h.toXhead ↔ h.logId.toNat < 2^16 ∧ h.provider = 0 := by
  constructor
  · intro hagree
    have hlog : h.logId.toNat < 2^16 := hagree.logId ▸ h.logId.toUInt16.toNat_lt
    have hhigh : toLE 2 (h.logId.toNat / 256^2) = [0, 0] := by
      rw [Nat.div_eq_of_lt (by omega)]
      rfl
    have hprovider : ([0, 0] ++ List.ofFn h.provider).take 16 = List.ofFn h.provider := by
      rw [← hhigh, ← h.ofFn_provider, hagree.provider]
    have hcommute : [0, 0] ++ List.ofFn h.provider =
        List.ofFn h.provider ++ ([0, 0] ++ List.ofFn h.provider).drop 16 := by
      nth_rewrite 2 [← hprovider]
      exact (List.take_append_drop 16 _).symm
    exact ⟨hlog, provider_eq_zero (zeros_of_commute hcommute).1⟩
  · rintro ⟨hlog, hprovider⟩
    refine ⟨rfl, rfl, ?_, ?_, rfl, rfl, rfl⟩
    · simpa [Header.toXhead] using hlog
    · rw [hprovider]
      refine provider_eq_zero fun b hb => ?_
      rw [h.ofFn_provider, hprovider, Nat.div_eq_of_lt (show h.logId.toNat < 256^2 from hlog)] at hb
      have hlist : (toLE 2 0 ++ List.ofFn (0 : Fin 16 → UInt8)).take 16 = List.replicate 16 0 := rfl
      exact List.eq_of_mem_replicate (hlist ▸ hb)

theorem agree_toHeader_iff (fill : ℕ → UInt8) (x : Xhead) :
    Agree (x.toHeader fill) x ↔ x.provider = 0 ∧ fill 22 = 0 ∧ fill 23 = 0 := by
  have hlow : toLE 4 x.logId.toNat = toLE 2 x.logId.toNat ++ [0, 0] := by
    have hlt : x.logId.toNat < 256^2 := x.logId.toNat_lt
    rw [show 4 = 2 + 2 from rfl, toLE_add, Nat.div_eq_of_lt hlt]
    rfl
  have hlog := x.toLE_logId fill
  have hprovider := x.ofFn_provider fill
  constructor
  · intro hagree
    rw [← hagree.logId, hlow] at hlog
    have htake := List.append_cancel_left hlog
    rw [← hagree.provider] at hprovider
    have hcommute : [0, 0] ++ List.ofFn x.provider = List.ofFn x.provider ++ [fill 22, fill 23] := by
      nth_rewrite 1 [hprovider]
      rw [htake, ← List.append_assoc, List.take_append_drop]
    obtain ⟨hzero, hfill⟩ := zeros_of_commute hcommute
    simp only [List.cons.injEq, and_true] at hfill
    exact ⟨provider_eq_zero hzero, hfill⟩
  · rintro ⟨hzero, hfill⟩
    have htake : (List.ofFn x.provider).take 2 = [0, 0] := by
      rw [hzero]
      rfl
    refine ⟨rfl, rfl, ?_, ?_, rfl, rfl, rfl⟩
    · rw [htake, ← hlow] at hlog
      have hnat := congrArg leNat hlog
      have hlt : x.logId.toNat < 256^2 := x.logId.toNat_lt
      rw [leNat_toLE_of_lt (x.toHeader fill).logId.toNat_lt, leNat_toLE_of_lt (by omega)] at hnat
      exact hnat.symm
    · rw [hzero]
      refine (provider_eq_zero fun b hb => ?_).symm
      rw [hprovider, hzero, hfill.1, hfill.2] at hb
      have hlist : (List.ofFn (0 : Fin 16 → UInt8)).drop 2 ++ [0, 0] = List.replicate 16 0 := rfl
      exact List.eq_of_mem_replicate (hlist ▸ hb)

/-- The two formats agree on a header exactly when its provider is empty and its log id is
of 16 bits, and on a struct exactly when its provider and its padding are empty. -/
theorem header_agrees_iff (h : Header) (fill : ℕ → UInt8) (x : Xhead) :
    (∃ bytes, h.write = .ok bytes ∧
      (Agree h (Xhead.ofMemory bytes) ↔ h.logId.toNat < 2^16 ∧ h.provider = 0)) ∧
    ∃ h', Header.unMarshal (x.toMemory fill) = .ok h' ∧
      (Agree h' x ↔ x.provider = 0 ∧ fill 22 = 0 ∧ fill 23 = 0) := by
  constructor
  · have hread := Xhead.ofMemory_toMemory (fun i => (List.ofFn h.provider).getD (i - 8) 0) h.toXhead []
    rw [List.append_nil, ← Header.bytes_eq_toMemory] at hread
    exact ⟨h.bytes, h.write_eq, by rw [hread, agree_toXhead_iff]⟩
  · have hread := (x.toHeader fill).unMarshal_bytes []
    rw [List.append_nil, ← Xhead.toMemory_eq_bytes] at hread
    exact ⟨x.toHeader fill, hread, agree_toHeader_iff fill x⟩

/-- The header of a request with a log id of 32 bits. -/
def longLogId : Header where
  id := 0
  version := 0
  logId := 0x12345678
  provider := 0
  magicNum := headerMagicnum
  reserved := 0
  bodyLen := 0

theorem longLogId_disagrees :
    ∃ bytes, longLogId.write = .ok bytes ∧ ¬ Agree longLogId (Xhead.ofMemory bytes) := by
  refine ⟨longLogId.bytes, longLogId.write_eq, fun hagree => ?_⟩
  exact absurd hagree.logId (by decide)

end Shift

end Signaling
end XrtcServer
