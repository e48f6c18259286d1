import Mathlib.Data.List.Basic
import Mathlib.Data.List.GetD
import Mathlib.Data.Nat.Basic

/-!
# Byte memory

A memory is a byte at every address; a buffer is the addresses from a start on, and what lies
behind its end is readable with some value. Two-byte numbers are read and written in network
byte order.

## Main definitions

* `Mem.be16`, `be16Bytes`: two-byte numbers in network byte order.
* `Mem.read`, `Mem.write`: blocks of bytes.
* `Mem.AgreeOn`: two memories with the same bytes in a range.
* `Mem.byteIn`, `Mem.be16In`: reads that have a value inside a buffer only.

## Main results

* `Mem.read_write`: a block that was written reads back.
* `Mem.write_of_notMem`: a write changes nothing outside its block.
* `Mem.map_range_of_read_flatMap`: records that are written behind each other read back.
-/

/-- A byte at every address. -/
abbrev Mem := ℕ → UInt8

/-- The two bytes of `n` in network byte order. -/
def be16Bytes (n : ℕ) : List UInt8 := [UInt8.ofNat (n / 256), UInt8.ofNat (n % 256)]

@[simp] theorem length_be16Bytes (n : ℕ) : (be16Bytes n).length = 2 := rfl

namespace Mem

/-- The two bytes at `a`, read in network byte order. -/
def be16 (m : Mem) (a : ℕ) : ℕ := 256 * (m a).toNat + (m (a + 1)).toNat

/-- The block of `n` bytes at `a`. -/
def read (m : Mem) (a n : ℕ) : List UInt8 := (List.range n).map fun i => m (a + i)

/-- Store a block of bytes at `a`. -/
def write (m : Mem) (a : ℕ) (bs : List UInt8) : Mem :=
  fun i => if a ≤ i then bs.getD (i - a) (m i) else m i

/-- The memory that holds zero everywhere. -/
def zero : Mem := fun _ => 0

theorem be16_lt (m : Mem) (a : ℕ) : m.be16 a < 65536 := by
  have h0 := (m a).toNat_lt
  have h1 := (m (a + 1)).toNat_lt
  unfold be16
  omega

/-- Two-byte numbers are equal when their bytes are. -/
theorem be16_inj {m m' : Mem} {a a' : ℕ} :
    m.be16 a = m'.be16 a' ↔ m a = m' a' ∧ m (a + 1) = m' (a' + 1) := by
  have h0 := (m (a + 1)).toNat_lt
  have h0' := (m' (a' + 1)).toNat_lt
  rw [be16, be16, ← UInt8.toNat_inj, ← UInt8.toNat_inj]
  omega

/-! ### Reading -/

@[simp] theorem length_read (m : Mem) (a n : ℕ) : (m.read a n).length = n := by
  simp [read]

theorem getElem_read {m : Mem} {a n i : ℕ} (h : i < (m.read a n).length) :
    (m.read a n)[i] = m (a + i) := by
  simp [read]

theorem read_eq_iff {m m' : Mem} {a a' n : ℕ} :
    m.read a n = m'.read a' n ↔ ∀ i < n, m (a + i) = m' (a' + i) := by
  simp [read]

/-! ### Writing -/

theorem write_of_lt {m : Mem} {a i : ℕ} {bs : List UInt8} (h : i < bs.length) :
    m.write a bs (a + i) = bs[i] := by
  simp [write, h]

/-- A write changes nothing outside its block. -/
theorem write_of_notMem {m : Mem} {a i : ℕ} {bs : List UInt8}
    (h : i < a ∨ a + bs.length ≤ i) : m.write a bs i = m i := by
  unfold write
  split
  · rw [List.getD_eq_default _ _ (by omega)]
  · rfl

@[simp] theorem write_nil (m : Mem) (a : ℕ) : m.write a [] = m := by
  funext i
  exact write_of_notMem (by simp; omega)

/-- A block that was written reads back. -/
theorem read_write (m : Mem) (a : ℕ) (bs : List UInt8) :
    (m.write a bs).read a bs.length = bs := by
  refine List.ext_getElem (by simp) fun i hi _ => ?_
  rw [getElem_read, write_of_lt]

/-- Two blocks behind each other are one. -/
theorem write_append (m : Mem) (a : ℕ) (bs cs : List UInt8) :
    (m.write a bs).write (a + bs.length) cs = m.write a (bs ++ cs) := by
  funext i
  by_cases hbefore : i < a + bs.length
  · rw [write_of_notMem (.inl hbefore)]
    unfold write
    by_cases ha : a ≤ i
    · rw [if_pos ha, if_pos ha, List.getD_append _ _ _ _ (by omega)]
    · rw [if_neg ha, if_neg ha]
  · have hoffset : i - (a + bs.length) = i - a - bs.length := by omega
    have hkept : m.write a bs i = m i := write_of_notMem (.inr (by omega))
    rw [write, hkept, if_pos (by omega), hoffset, write, if_pos (by omega),
      List.getD_append_right _ _ _ _ (by omega)]

/-! ### Records -/

theorem read_append (m : Mem) (a n k : ℕ) : m.read a (n + k) = m.read a n ++ m.read (a + n) k := by
  simp only [read, List.range_add, List.map_append, List.map_map]
  congr 1
  exact List.map_congr_left fun i _ => by rw [Function.comp_apply, Nat.add_assoc]

/-- A block in two parts reads back part by part. -/
theorem read_eq_append {m : Mem} {a : ℕ} {bs cs : List UInt8}
    (h : m.read a (bs ++ cs).length = bs ++ cs) :
    m.read a bs.length = bs ∧ m.read (a + bs.length) cs.length = cs := by
  rw [List.length_append, read_append] at h
  exact List.append_inj h (length_read _ _ _)

/-- The bytes of a block, as a vector. -/
theorem ofFn_of_read {m : Mem} {a n : ℕ} {v : Vector UInt8 n} (h : m.read a n = v.toList) :
    (Vector.ofFn fun i : Fin n => m (a + i)) = v := by
  refine Vector.ext fun i hi => ?_
  have hread : i < (m.read a n).length := by rwa [length_read]
  rw [Vector.getElem_ofFn, ← getElem_read hread, ← Vector.getElem_toList (by simpa using hi)]
  exact List.getElem_of_eq h hread

/-- A two-byte number reads back. -/
theorem be16_of_read {m : Mem} {a n : ℕ} (hn : n < 65536) (h : m.read a 2 = be16Bytes n) :
    m.be16 a = n := by
  have hbytes : [m a, m (a + 1)] = [UInt8.ofNat (n / 256), UInt8.ofNat (n % 256)] := h
  simp only [List.cons.injEq, and_true] at hbytes
  rw [be16, hbytes.1, hbytes.2, UInt8.toNat_ofNat', UInt8.toNat_ofNat']
  omega

/-- Records of one size that stand behind each other. -/
theorem length_flatMap_of_length {α : Type*} {records : List α} {encode : α → List UInt8} {k : ℕ}
    (h : ∀ r ∈ records, (encode r).length = k) :
    (records.flatMap encode).length = records.length * k := by
  rw [List.length_flatMap, List.map_congr_left h, List.map_const', List.sum_replicate_nat]

/-- **Records.** Records of `k` bytes that are written behind each other read back one by one. -/
theorem map_range_of_read_flatMap {α β : Type*} {m : Mem} {a k : ℕ} {records : List α}
    {encode : α → List UInt8} {decode : ℕ → β} {value : α → β}
    (hsize : ∀ r ∈ records, (encode r).length = k)
    (hdecode : ∀ r ∈ records, ∀ o, m.read o k = encode r → decode o = value r)
    (hread : m.read a (records.flatMap encode).length = records.flatMap encode) :
    (List.range records.length).map (fun i => decode (a + i * k)) = records.map value := by
  induction records generalizing a with
  | nil => rfl
  | cons r records ih =>
    obtain ⟨hfirst, hrest⟩ := read_eq_append hread
    have hk : (encode r).length = k := hsize r List.mem_cons_self
    rw [hk] at hfirst hrest
    have ih := ih (fun r hr => hsize r (List.mem_cons_of_mem _ hr))
      (fun r hr => hdecode r (List.mem_cons_of_mem _ hr)) hrest
    have hstep (i : ℕ) : a + (i + 1) * k = a + k + i * k := by rw [Nat.add_mul]; omega
    simp only [List.length_cons, List.range_succ_eq_map, List.map_cons, List.map_map,
      Function.comp_def, Nat.zero_mul, Nat.add_zero, Nat.succ_eq_add_one, hstep, ih]
    rw [hdecode r List.mem_cons_self a hfirst]

/-! ### Agreement -/

/-- Two memories hold the same bytes from `a` up to `b`. -/
def AgreeOn (m m' : Mem) (a b : ℕ) : Prop := ∀ i, a ≤ i → i < b → m i = m' i

theorem AgreeOn.mono {m m' : Mem} {a b a' b' : ℕ} (h : AgreeOn m m' a b) (ha : a ≤ a')
    (hb : b' ≤ b) : AgreeOn m m' a' b' :=
  fun i hi hi' => h i (Nat.le_trans ha hi) (Nat.lt_of_lt_of_le hi' hb)

theorem AgreeOn.symm {m m' : Mem} {a b : ℕ} (h : AgreeOn m m' a b) : AgreeOn m' m a b :=
  fun i hi hi' => (h i hi hi').symm

theorem AgreeOn.be16 {m m' : Mem} {a b c : ℕ} (h : AgreeOn m m' a b) (ha : a ≤ c)
    (hb : c + 2 ≤ b) : m.be16 c = m'.be16 c := by
  unfold Mem.be16
  rw [h c ha (by omega), h (c + 1) (by omega) (by omega)]

theorem AgreeOn.read {m m' : Mem} {a b c n : ℕ} (h : AgreeOn m m' a b) (ha : a ≤ c)
    (hb : c + n ≤ b) : m.read c n = m'.read c n :=
  read_eq_iff.2 fun i _ => h (c + i) (by omega) (by omega)

/-- Writing the same block keeps the agreement of two memories. -/
theorem AgreeOn.write {m m' : Mem} {a b : ℕ} (h : AgreeOn m m' a b) (c : ℕ) (bs : List UInt8) :
    AgreeOn (m.write c bs) (m'.write c bs) a b := by
  intro i hi hi'
  have := h i hi hi'
  simp only [Mem.write, this]

/-! ### Reads inside a buffer -/

/-- The byte at an offset of a buffer of `size` bytes; `none` is a read behind the buffer. -/
def byteIn (m : Mem) (size a : ℕ) : Option UInt8 := if a < size then some (m a) else none

/-- The two-byte number at an offset of a buffer of `size` bytes. -/
def be16In (m : Mem) (size a : ℕ) : Option ℕ :=
  (m.byteIn size a).bind fun high =>
    (m.byteIn size (a + 1)).bind fun low => some (256 * high.toNat + low.toNat)

theorem byteIn_of_lt {m : Mem} {size a : ℕ} (h : a < size) : m.byteIn size a = some (m a) :=
  if_pos h

theorem byteIn_of_le {m : Mem} {size a : ℕ} (h : size ≤ a) : m.byteIn size a = none :=
  if_neg (Nat.not_lt.2 h)

theorem be16In_of_le {m : Mem} {size a : ℕ} (h : a + 2 ≤ size) :
    m.be16In size a = some (m.be16 a) := by
  rw [be16In, byteIn_of_lt (by omega), byteIn_of_lt (by omega)]
  rfl

theorem be16In_of_lt {m : Mem} {size a : ℕ} (h : size < a + 2) : m.be16In size a = none := by
  rw [be16In]
  by_cases ha : a < size
  · rw [byteIn_of_lt ha, byteIn_of_le (by omega)]
    rfl
  · rw [byteIn_of_le (by omega)]
    rfl

end Mem
