/-!
# Byte strings of a known size

`Bytes n` is a packed string of `n` bytes. Records of the disk format, sectors and the answers of a
storage have sizes that are known beforehand, and carrying the size in the type leaves no short
record to handle.

Each operation is described by the byte it puts at every position: `getElem_replicate`,
`getElem_slice`, `getElem_copy`, `getElem_overwrite`. With `Bytes.ext` these lemmas are all that a
caller needs; the packed array underneath does not have to be opened again.
-/

namespace VirtualDisk

-- Powers of numbers and equality of packed arrays are the core ones, whatever else is in scope.
@[default_instance 20000]
instance natPow : Pow Nat Nat := instPowNat

instance byteArrayEq : DecidableEq ByteArray := ByteArray.instDecidableEq

/-- A string of `n` bytes. -/
structure Bytes (n : Nat) where
  toByteArray : ByteArray
  size_toByteArray : toByteArray.size = n
  deriving DecidableEq

namespace Bytes

variable {m n : Nat}

instance : GetElem (Bytes n) Nat UInt8 (fun _ i => i < n) where
  getElem b i h := getElem b.toByteArray i (by rw [b.size_toByteArray]; exact h)

theorem getElem_mk (a : ByteArray) (size : a.size = n) (i : Nat) (h : i < n) :
    (Bytes.mk a size)[i] = getElem a i (by rw [size]; exact h) := rfl

theorem getElem_toByteArray (b : Bytes n) (i : Nat) (h : i < b.toByteArray.size) :
    b.toByteArray[i] = getElem b i (by rw [← b.size_toByteArray]; exact h) := rfl

@[ext] theorem ext {a b : Bytes n} (h : ∀ (i : Nat) (hi : i < n), a[i] = b[i]) : a = b := by
  obtain ⟨a, ha⟩ := a
  obtain ⟨b, hb⟩ := b
  congr 1
  refine ByteArray.ext_getElem (by rw [ha, hb]) fun i hi _ => h i (by rw [← ha]; exact hi)

/-- A whole packed array as a byte string of its own size. -/
def ofByteArray (a : ByteArray) : Bytes a.size := ⟨a, rfl⟩

@[simp] theorem getElem_ofByteArray (a : ByteArray) (i : Nat) (h : i < a.size) :
    (ofByteArray a)[i] = a[i] := rfl

/-- The bytes of a list, in order. -/
def ofList (l : List UInt8) : Bytes l.length := ⟨l.toByteArray, List.size_toByteArray⟩

@[simp] theorem getElem_ofList (l : List UInt8) (i : Nat) (h : i < l.length) :
    (ofList l)[i] = l[i] :=
  List.getElem_toByteArray

/-- The empty byte string. -/
def empty : Bytes 0 := ⟨ByteArray.empty, ByteArray.size_empty⟩

/-- One byte more at the end. -/
def push (b : Bytes n) (v : UInt8) : Bytes (n + 1) :=
  ⟨b.toByteArray.push v, by rw [ByteArray.size_push, b.size_toByteArray]⟩

theorem getElem_push (b : Bytes n) (v : UInt8) (i : Nat) (h : i < n + 1) :
    (b.push v)[i] = if hi : i < n then b[i] else v := by
  have hsize : b.toByteArray.data.size = n := b.size_toByteArray
  simp only [push, getElem_mk, ByteArray.getElem_eq_getElem_data, ByteArray.data_push,
    Array.getElem_push, hsize]
  rfl

/-- The array followed by itself, `k` times over. -/
def doubled (a : ByteArray) : Nat → ByteArray
  | 0 => a
  | k + 1 => doubled (a ++ a) k

theorem size_doubled (k : Nat) (a : ByteArray) : (doubled a k).size = a.size * 2 ^ k := by
  induction k generalizing a with
  | zero => simp [doubled]
  | succ k ih => rw [doubled, ih, ByteArray.size_append, Nat.pow_succ, ← Nat.two_mul,
      Nat.mul_comm 2 a.size, Nat.mul_assoc, Nat.mul_comm 2]

theorem getElem_doubled {v : UInt8} (k : Nat) {a : ByteArray} (ha : ∀ i (h : i < a.size), a[i] = v)
    (i : Nat) (h : i < (doubled a k).size) : (doubled a k)[i] = v := by
  induction k generalizing a with
  | zero => exact ha i h
  | succ k ih =>
    refine ih (a := a ++ a) (fun j hj => ?_) h
    by_cases hja : j < a.size
    · rw [ByteArray.getElem_append_left hja, ha]
    · rw [ByteArray.getElem_append_right (by omega), ha]

/-- The byte `v`, `n` times. The string is doubled until it is long enough, so that long ones are
built by few block copies. -/
def replicate (n : Nat) (v : UInt8) : Bytes n :=
  ⟨(doubled [v].toByteArray (n.log2 + 1)).extract 0 n, by
    have hsize := size_doubled (n.log2 + 1) [v].toByteArray
    have hlog : n < 2 ^ (n.log2 + 1) := Nat.lt_log2_self
    rw [List.size_toByteArray, List.length_singleton, Nat.one_mul] at hsize
    rw [ByteArray.size_extract, hsize]
    omega⟩

@[simp] theorem getElem_replicate (n : Nat) (v : UInt8) (i : Nat) (h : i < n) :
    (replicate n v)[i] = v := by
  rw [replicate, getElem_mk, ByteArray.getElem_extract]
  refine getElem_doubled _ (fun j hj => ?_) _ _
  rw [List.size_toByteArray, List.length_singleton] at hj
  obtain rfl : j = 0 := by omega
  rw [List.getElem_toByteArray]
  rfl

/-- As many zero bytes as asked for. -/
def zero (n : Nat) : Bytes n := replicate n 0

@[simp] theorem getElem_zero (n i : Nat) (h : i < n) : (zero n)[i] = 0 :=
  getElem_replicate n 0 i h

/-- The `size` bytes from `start` on. -/
def slice (b : Bytes n) (start size : Nat) (h : start + size ≤ n) : Bytes size :=
  ⟨b.toByteArray.extract start (start + size), by
    rw [ByteArray.size_extract, b.size_toByteArray]
    omega⟩

@[simp] theorem getElem_slice (b : Bytes n) (start size : Nat) (h : start + size ≤ n) (i : Nat)
    (hi : i < size) : (b.slice start size h)[i] = b[start + i] := by
  rw [slice, getElem_mk, ByteArray.getElem_extract]
  rfl

/-- The string `target` with its bytes from `start` on replaced by the `size` bytes of `source` that
begin at `sourceStart`. The packed array of `target` is updated in place when nothing else refers to
it. -/
def copy (source : Bytes m) (sourceStart : Nat) (target : Bytes n) (start size : Nat)
    (hs : sourceStart + size ≤ m) (ht : start + size ≤ n) : Bytes n :=
  ⟨source.toByteArray.copySlice sourceStart target.toByteArray start size, by
    rw [ByteArray.copySlice_eq_append, ByteArray.size_append, ByteArray.size_append,
      ByteArray.size_extract, ByteArray.size_extract, ByteArray.size_extract]
    have h₁ := source.size_toByteArray
    have h₂ := target.size_toByteArray
    simp only [ByteArray.size_data]
    omega⟩

theorem getElem_copy (source : Bytes m) (sourceStart : Nat) (target : Bytes n) (start size : Nat)
    (hs : sourceStart + size ≤ m) (ht : start + size ≤ n) (i : Nat) (h : i < n) :
    (copy source sourceStart target start size hs ht)[i] =
      if hi : start ≤ i ∧ i < start + size then source[sourceStart + (i - start)]
      else target[i] := by
  have h₁ := source.size_toByteArray
  have h₂ := target.size_toByteArray
  have hleft : (target.toByteArray.extract 0 start).size = start := by
    rw [ByteArray.size_extract]; omega
  have hmid : (source.toByteArray.extract sourceStart (sourceStart + size)).size = size := by
    rw [ByteArray.size_extract]; omega
  simp only [copy, getElem_mk, ByteArray.copySlice_eq_append, ByteArray.size_data]
  by_cases hi : i < start
  · rw [ByteArray.getElem_append_left (by rw [ByteArray.size_append]; omega),
      ByteArray.getElem_append_left (by omega), ByteArray.getElem_extract, dif_neg (by omega)]
    simp only [Nat.zero_add, getElem_toByteArray]
  · by_cases hj : i < start + size
    · rw [ByteArray.getElem_append_left (by rw [ByteArray.size_append]; omega),
        ByteArray.getElem_append_right (by omega), ByteArray.getElem_extract, dif_pos (by omega)]
      simp only [hleft, getElem_toByteArray]
    · rw [ByteArray.getElem_append_right (by rw [ByteArray.size_append]; omega),
        ByteArray.getElem_extract, dif_neg (by omega)]
      have : start + min size (m - sourceStart) + (i - (start + size)) = i := by omega
      simp only [ByteArray.size_append, hleft, hmid, h₁, this, getElem_toByteArray]

/-- The string `b` with the bytes from `start` on replaced by `part`. -/
def overwrite (b : Bytes n) (start : Nat) (part : Bytes m) (h : start + m ≤ n) : Bytes n :=
  copy part 0 b start m (by omega) h

theorem getElem_overwrite (b : Bytes n) (start : Nat) (part : Bytes m) (h : start + m ≤ n) (i : Nat)
    (hi : i < n) :
    (b.overwrite start part h)[i] =
      if hj : start ≤ i ∧ i < start + m then part[i - start] else b[i] := by
  rw [overwrite, getElem_copy]
  simp only [Nat.zero_add]

@[simp] theorem slice_overwrite_same (b : Bytes n) (start : Nat) (part : Bytes m)
    (h : start + m ≤ n) : (b.overwrite start part h).slice start m h = part := by
  refine Bytes.ext fun i hi => ?_
  rw [getElem_slice, getElem_overwrite, dif_pos (by omega)]
  simp only [Nat.add_sub_cancel_left]

theorem slice_overwrite_of_disjoint (b : Bytes n) (start : Nat) (part : Bytes m)
    (h : start + m ≤ n) (start' size : Nat) (h' : start' + size ≤ n)
    (hd : start' + size ≤ start ∨ start + m ≤ start') :
    (b.overwrite start part h).slice start' size h' = b.slice start' size h' := by
  refine Bytes.ext fun i hi => ?_
  rw [getElem_slice, getElem_overwrite, dif_neg (by omega), getElem_slice]

theorem getElem_eq_of_slice_eq {a b : Bytes n} {start size : Nat} {h : start + size ≤ n}
    (hslice : a.slice start size h = b.slice start size h) {i : Nat} (hstart : start ≤ i)
    (hend : i < start + size) : a[i] = b[i] := by
  obtain ⟨j, rfl⟩ := Nat.exists_eq_add_of_le hstart
  rw [← getElem_slice a start size h j (by omega), hslice, getElem_slice]

theorem slice_eq_replicate_iff {b : Bytes n} {start size : Nat} {h : start + size ≤ n} {v : UInt8} :
    b.slice start size h = replicate size v ↔
      ∀ (i : Nat) (hi : i < n), start ≤ i → i < start + size → b[i] = v := by
  constructor
  · intro hslice i hi hstart hend
    obtain ⟨j, rfl⟩ := Nat.exists_eq_add_of_le hstart
    rw [← getElem_slice b start size h j (by omega), hslice, getElem_replicate]
  · intro hbytes
    refine Bytes.ext fun j hj => ?_
    rw [getElem_slice, getElem_replicate]
    exact hbytes (start + j) (by omega) (by omega) (by omega)

/-- The sum of the values of all bytes. -/
def sum (b : Bytes n) : Nat := Nat.fold n (fun i h total => total + b[i].toNat) 0

end Bytes

end VirtualDisk
