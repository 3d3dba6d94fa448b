import VirtualDisk.Bytes.Basic

/-!
# Numbers in big-endian order

`Bytes.number` reads the base-256 numeral in a stretch of a byte string, most significant digit
first, and `Bytes.ofNumber` writes one of a given width. Both peel off the last digit, so each of
the two laws, `number_ofNumber` and `ofNumber_number`, is one induction on the width.
-/

namespace VirtualDisk.Bytes

variable {n : Nat}

/-- The number whose base-256 digits are the `width` bytes from `start` on. -/
def number (b : Bytes n) (start : Nat) : (width : Nat) → start + width ≤ n → Nat
  | 0, _ => 0
  | width + 1, h => number b start width (by omega) * 256 + b[start + width].toNat

/-- The last `width` base-256 digits of a number. -/
def ofNumber : (width : Nat) → Nat → Bytes width
  | 0, _ => empty
  | width + 1, v => (ofNumber width (v / 256)).push (UInt8.ofNat (v % 256))

theorem number_lt (b : Bytes n) (start width : Nat) (h : start + width ≤ n) :
    b.number start width h < 256 ^ width := by
  induction width with
  | zero => simp [number]
  | succ width ih =>
    have hdigit := (b[start + width]).toNat_lt
    have := ih (by omega)
    rw [number, Nat.pow_succ]
    omega

theorem number_congr {m : Nat} {a : Bytes m} {b : Bytes n} {s t : Nat} (width : Nat)
    (ha : s + width ≤ m) (hb : t + width ≤ n)
    (h : ∀ i (hi : i < width), a[s + i] = b[t + i]) :
    a.number s width ha = b.number t width hb := by
  induction width with
  | zero => rfl
  | succ width ih =>
    rw [number, number, h width (by omega), ih (by omega) (by omega) fun i hi => h i (by omega)]

theorem number_slice (b : Bytes n) (start width : Nat) (h : start + width ≤ n) :
    (b.slice start width h).number 0 width (by omega) = b.number start width h :=
  number_congr width _ _ fun i hi => by rw [getElem_slice]; simp only [Nat.zero_add]

/-- A number is read back from its digits, less what does not fit into the width. -/
@[simp] theorem number_ofNumber (width v : Nat) :
    (ofNumber width v).number 0 width (by omega) = v % 256 ^ width := by
  induction width generalizing v with
  | zero => simp [number, Nat.mod_one]
  | succ width ih =>
    have hrest : ((ofNumber width (v / 256)).push (UInt8.ofNat (v % 256))).number 0 width (by omega)
        = (ofNumber width (v / 256)).number 0 width (by omega) :=
      number_congr width _ _ fun i hi => by rw [getElem_push, dif_pos (by omega)]
    have hdigit : (UInt8.ofNat (v % 256)).toNat = v % 256 := by
      rw [UInt8.toNat_ofNat']
      omega
    rw [ofNumber, number, hrest, ih, getElem_push, dif_neg (by omega), hdigit, Nat.pow_succ,
      Nat.mul_comm (256 ^ width), Nat.mod_mul, Nat.mul_comm, Nat.add_comm]

@[simp] theorem ofNumber_number (b : Bytes n) (start width : Nat) (h : start + width ≤ n) :
    ofNumber width (b.number start width h) = b.slice start width h := by
  refine Bytes.ext fun i hi => ?_
  rw [getElem_slice]
  induction width generalizing i with
  | zero => omega
  | succ width ih =>
    have hdigit := (b[start + width]).toNat_lt
    have hlast : (number b start width (by omega) * 256 + b[start + width].toNat) % 256
        = b[start + width].toNat := by omega
    have hrest : (number b start width (by omega) * 256 + b[start + width].toNat) / 256
        = number b start width (by omega) := by omega
    simp only [number, ofNumber, hlast, hrest, getElem_push]
    split
    · next hi' => exact ih (by omega) i hi'
    · next hi' =>
      obtain rfl : i = width := by omega
      simp

theorem slice_eq_of_number_eq {a b : Bytes n} {start width : Nat} {h : start + width ≤ n}
    (hnumber : a.number start width h = b.number start width h) :
    a.slice start width h = b.slice start width h := by
  rw [← ofNumber_number, hnumber, ofNumber_number]

end VirtualDisk.Bytes
