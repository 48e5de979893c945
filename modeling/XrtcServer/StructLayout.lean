import XrtcServer.ByteFormat

/-! Little-endian numbers and the layout of C structs with natural alignment: each field
begins at the next multiple of its alignment, and padding of any content fills the gaps. -/
namespace StructLayout
open ByteFormat

/-- The number spelled by a byte string, least significant byte first. -/
def leNat (bs : Bytes) : ℕ := beNat bs.reverse

/-- The `k` low-order bytes of `n`, least significant first. -/
def toLE (k n : ℕ) : Bytes := (toBE k n).reverse

@[simp] theorem toLE_length (k n : ℕ) : (toLE k n).length = k := by
  simp [toLE]

theorem leNat_toLE (k n : ℕ) : leNat (toLE k n) = n % 256^k := by
  rw [leNat, toLE, List.reverse_reverse, beNat_toBE]

theorem leNat_toLE_of_lt {k n : ℕ} (h : n < 256^k) : leNat (toLE k n) = n := by
  rw [leNat_toLE, Nat.mod_eq_of_lt h]

theorem toLE_leNat (bs : Bytes) : toLE bs.length (leNat bs) = bs := by
  rw [toLE, leNat, ← List.length_reverse, toBE_beNat, List.reverse_reverse]

theorem toLE_mod (k n : ℕ) : toLE k (n % 256^k) = toLE k n := by
  have h := toLE_leNat (toLE k n)
  rwa [toLE_length, leNat_toLE] at h

/-- The low-order bytes come first. -/
theorem toLE_add (j k n : ℕ) : toLE (j + k) n = toLE j n ++ toLE k (n / 256^j) := by
  induction j generalizing n with
  | zero => simp [toLE, toBE]
  | succ j ih =>
    have hdiv : n / 256 / 256^j = n / 256^(j+1) := by
      rw [Nat.div_div_eq_div_mul, pow_succ']
    have hsucc (k : ℕ) : toLE (k + 1) n = UInt8.ofNat n :: toLE k (n / 256) := by
      simp [toLE, toBE]
    rw [Nat.add_right_comm, hsucc, hsucc, ih, hdiv]
    rfl

/-- `size` bytes of memory from an address on. -/
def load (mem : Bytes) (pos size : ℕ) : Bytes := (mem.drop pos).take size

theorem load_append_of_le {pre mem : Bytes} {pos : ℕ} (h : pre.length ≤ pos) (size : ℕ) :
    load (pre ++ mem) pos size = load mem (pos - pre.length) size := by
  rw [load, List.drop_append, List.drop_eq_nil_of_le h]
  rfl

theorem load_append (v mem : Bytes) : load (v ++ mem) 0 v.length = v := by
  simp [load]

theorem load_append_left {pre : Bytes} {pos size : ℕ} (h : pos + size ≤ pre.length) (mem : Bytes) :
    load (pre ++ mem) pos size = load pre pos size := by
  rw [load, load, List.drop_append_of_le_length (by omega), List.take_append_of_le_length (by simp; omega)]

/-- Bytes written over those at an address. -/
def put (mem : Bytes) (pos : ℕ) (v : Bytes) : Bytes := mem.take pos ++ (v ++ mem.drop (pos + v.length))

theorem put_zero (mem v : Bytes) : put mem 0 v = v ++ mem.drop v.length := by
  simp [put]

theorem put_append {pre mem : Bytes} {pos : ℕ} (hpos : pre.length = pos) (v : Bytes) :
    put (pre ++ mem) pos v = pre ++ v ++ mem.drop v.length := by
  subst hpos
  simp [put, List.drop_append]

@[simp] theorem put_length {mem v : Bytes} {pos : ℕ} (h : pos + v.length ≤ mem.length) :
    (put mem pos v).length = mem.length := by
  simp [put]
  omega

theorem put_append_left {pre : Bytes} {pos : ℕ} {v : Bytes} (h : pos + v.length ≤ pre.length) (mem : Bytes) :
    put (pre ++ mem) pos v = put pre pos v ++ mem := by
  rw [put, put, List.take_append_of_le_length (by omega), List.drop_append_of_le_length h]
  simp

theorem load_put {mem : Bytes} {pos : ℕ} (h : pos ≤ mem.length) (v : Bytes) : load (put mem pos v) pos v.length = v := by
  rw [put, load_append_of_le (by simp), List.length_take_of_le h, Nat.sub_self, load_append]

theorem load_put_before {mem : Bytes} {pos i size : ℕ} (h : i + size ≤ pos) (hpos : pos ≤ mem.length) (v : Bytes) :
    load (put mem pos v) i size = load mem i size := by
  have hlen := List.length_take_of_le hpos
  rw [put, load, load, List.drop_append_of_le_length (by omega), List.take_append_of_le_length (by simp; omega),
    List.drop_take, List.take_take, Nat.min_eq_left (by omega)]

structure Field where
  size : ℕ
  align : ℕ

def alignUp (n a : ℕ) : ℕ := n + (a - n % a) % a

theorem le_alignUp (n a : ℕ) : n ≤ alignUp n a := Nat.le_add_right _ _

/-- Where the fields begin, when the memory before `pos` is taken. -/
def offsets (pos : ℕ) : List Field → List ℕ
  | [] => []
  | f :: fs => alignUp pos f.align :: offsets (alignUp pos f.align + f.size) fs

def endOffset (pos : ℕ) : List Field → ℕ
  | [] => pos
  | f :: fs => endOffset (alignUp pos f.align + f.size) fs

def structSize (fs : List Field) : ℕ := alignUp (endOffset 0 fs) ((fs.map Field.align).foldl max 1)

/-- The padding from one offset to another. -/
def padding (fill : ℕ → UInt8) (i j : ℕ) : Bytes := (List.range' i (j - i)).map fill

@[simp] theorem padding_length (fill : ℕ → UInt8) (i j : ℕ) : (padding fill i j).length = j - i := by
  simp [padding]

/-- Field values in memory, from offset `pos` on. -/
def store (fill : ℕ → UInt8) (pos : ℕ) : List (Field × Bytes) → Bytes
  | [] => []
  | (f, v) :: fs =>
    padding fill pos (alignUp pos f.align) ++ (v ++ store fill (alignUp pos f.align + f.size) fs)

theorem le_of_mem_offsets {pos offset : ℕ} {fs : List Field} (h : offset ∈ offsets pos fs) : pos ≤ offset := by
  induction fs generalizing pos with
  | nil => simp [offsets] at h
  | cons f fs ih =>
    have hle := le_alignUp pos f.align
    rcases List.mem_cons.mp h with rfl | h
    · exact hle
    · have := ih h
      omega

/-- Each field is read back, whatever the padding has. -/
theorem load_store {fill : ℕ → UInt8} {pos : ℕ} {fs : List (Field × Bytes)}
    (hsize : ∀ f ∈ fs, f.2.length = f.1.size) (tail : Bytes) {i : ℕ} {f : Field} {v : Bytes} {offset : ℕ}
    (hi : fs[i]? = some (f, v)) (hoffset : (offsets pos (fs.map Prod.fst))[i]? = some offset) :
    load (store fill pos fs ++ tail) (offset - pos) f.size = v := by
  induction fs generalizing pos i with
  | nil => simp at hi
  | cons head fs ih =>
    obtain ⟨g, w⟩ := head
    have hw : w.length = g.size := hsize (g, w) (by simp)
    have hle := le_alignUp pos g.align
    have hpad : (padding fill pos (alignUp pos g.align)).length = alignUp pos g.align - pos := by simp
    rw [store, List.append_assoc, List.append_assoc]
    cases i with
    | zero =>
      simp only [List.getElem?_cons_zero, Option.some.injEq, Prod.mk.injEq] at hi
      obtain ⟨rfl, rfl⟩ := hi
      have hoffset : alignUp pos g.align = offset := by simpa [offsets] using hoffset
      rw [load_append_of_le (by omega), hpad, hoffset, Nat.sub_self, ← hw, load_append]
    | succ i =>
      have hi : fs[i]? = some (f, v) := by simpa using hi
      have hoffset : (offsets (alignUp pos g.align + g.size) (fs.map Prod.fst))[i]? = some offset := by
        simpa [offsets] using hoffset
      have hafter : alignUp pos g.align + g.size ≤ offset :=
        le_of_mem_offsets (List.mem_of_getElem? hoffset)
      have ih := ih (fun f hf => hsize f (by simp [hf])) hi hoffset
      rw [load_append_of_le (by omega), hpad, load_append_of_le (by omega), hw]
      rwa [show offset - pos - (alignUp pos g.align - pos) - g.size = offset - (alignUp pos g.align + g.size) by omega]

end StructLayout
