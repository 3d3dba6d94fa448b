import Mathlib.Algebra.BigOperators.Fin
import VirtualDisk.Bytes.Field

/-!
# Checksums

A record keeps the one's complement of the sum of its other bytes. Here the sum is one over
positions, the four of the checksum left out, and no record with zeros in their place is built.

A record with the right checksum is determined by the bytes outside of it, and none that differs
from it in a single byte has the right checksum: outside, the sum changes by less than 256 and does
not wrap around, and inside it does not change at all.
-/

namespace VirtualDisk

open Finset

variable {n w : Nat}

namespace Bytes

/-- The sum of the bytes at all positions but the `width` ones from `start` on. -/
def sumOutside (b : Bytes n) (start width : Nat) : Nat :=
  ∑ i : Fin n, if start ≤ i.val ∧ i.val < start + width then 0 else b[i.val].toNat

/-- The four bytes from `start` on hold, in big-endian order, the one's complement of the sum of
all other bytes. -/
def HasChecksum (b : Bytes n) (start : Nat) (h : start + 4 ≤ n) : Prop :=
  b.number start 4 h = (~~~ UInt32.ofNat (b.sumOutside start 4)).toNat

/-- The byte at one position is another one, and all others are the same. -/
structure DifferAt (a b : Bytes n) (i : Nat) : Prop where
  lt : i < n
  ne : a[i] ≠ b[i]
  agree : ∀ (j : Nat) (hj : j < n), j ≠ i → a[j] = b[j]

variable {a b : Bytes n} {start width i : Nat}

theorem fold_add_eq_sum (f : (i : Nat) → i < n → Nat) :
    Nat.fold n (fun i h total => total + f i h) 0 = ∑ i : Fin n, f i.val i.isLt := by
  induction n with
  | zero => rfl
  | succ n ih =>
    rw [Nat.fold_succ, ih, Fin.sum_univ_castSucc]
    rfl

theorem sum_eq (b : Bytes n) : b.sum = ∑ i : Fin n, b[i.val].toNat :=
  fold_add_eq_sum fun i h => b[i].toNat

theorem sumOutside_congr
    (h : ∀ (j : Nat) (hj : j < n), j < start ∨ start + width ≤ j → a[j] = b[j]) :
    a.sumOutside start width = b.sumOutside start width := by
  refine sum_congr rfl fun j _ => ?_
  split
  · rfl
  · next houtside => rw [h j.val j.isLt (by omega)]

/-- Where a single byte differs, the sums differ as this byte does. -/
theorem DifferAt.sumOutside_add (h : DifferAt a b i) (hi : i < n)
    (houtside : i < start ∨ start + width ≤ i) :
    a.sumOutside start width + b[i].toNat = b.sumOutside start width + a[i].toNat := by
  have hmem : (⟨i, hi⟩ : Fin n) ∈ univ := mem_univ _
  have hrest : ∀ j ∈ univ.erase (⟨i, hi⟩ : Fin n),
      (if start ≤ j.val ∧ j.val < start + width then 0 else a[j.val].toNat) =
        if start ≤ j.val ∧ j.val < start + width then 0 else b[j.val].toNat := by
    intro j hj
    have hne : j.val ≠ i := fun heq => (mem_erase.mp hj).1 (Fin.ext heq)
    rw [h.agree j.val j.isLt hne]
  rw [sumOutside, sumOutside, ← add_sum_erase univ _ hmem, ← add_sum_erase univ _ hmem,
    sum_congr rfl hrest]
  dsimp only
  rw [if_neg (by omega), if_neg (by omega)]
  omega

namespace HasChecksum

variable {h : start + 4 ≤ n}

/-- All other bytes determine a record that has the right checksum. -/
theorem eq_of_agree (ha : a.HasChecksum start h) (hb : b.HasChecksum start h)
    (hagree : ∀ (j : Nat) (hj : j < n), j < start ∨ start + 4 ≤ j → a[j] = b[j]) : a = b := by
  have hnumber : a.number start 4 h = b.number start 4 h := by
    rw [ha, hb, sumOutside_congr hagree]
  refine Bytes.ext fun i hi => ?_
  by_cases hinside : start ≤ i ∧ i < start + 4
  · exact getElem_eq_of_slice_eq (slice_eq_of_number_eq hnumber) hinside.1 hinside.2
  · exact hagree i hi (by omega)

theorem not_of_differAt (ha : a.HasChecksum start h) (hdiffer : DifferAt a b i) :
    ¬ b.HasChecksum start h := by
  intro hb
  by_cases hinside : start ≤ i ∧ i < start + 4
  · -- The sum is the same, so the checksum is, and with it the byte.
    have heq : a = b := ha.eq_of_agree hb fun j hj houtside => hdiffer.agree j hj (by omega)
    subst heq
    exact hdiffer.ne rfl
  · -- The checksum is the same, so the sums agree but for multiples of 2 ^ 32.
    have houtside : i < start ∨ start + 4 ≤ i := by omega
    have hnumber : a.number start 4 h = b.number start 4 h :=
      number_congr 4 h h fun j hj => hdiffer.agree (start + j) (by omega) (by omega)
    have hcomplement : UInt32.ofNat (a.sumOutside start 4) = UInt32.ofNat (b.sumOutside start 4) :=
      UInt32.not_inj.mp (UInt32.toNat_inj.mp (ha.symm.trans (hnumber.trans hb)))
    have hmod : a.sumOutside start 4 % 2 ^ 32 = b.sumOutside start 4 % 2 ^ 32 := by
      simpa using congrArg UInt32.toNat hcomplement
    have hi := hdiffer.lt
    have hsum := hdiffer.sumOutside_add hi houtside
    have hne : a[i].toNat ≠ b[i].toNat := fun heq => hdiffer.ne (UInt8.toNat_inj.mp heq)
    have hbefore := a[i].toNat_lt
    have hafter := b[i].toNat_lt
    omega

end HasChecksum

end Bytes

/-- The checksum of a field does not depend on how the field is left out of the sum. -/
theorem Field.stamped_iff (f : Field n 4) (record : Bytes n) :
    f.Stamped record ↔ record.HasChecksum f.start f.start_add_le := by
  have hsum : (f.set (Bytes.zero 4) record).sum = record.sumOutside f.start 4 := by
    rw [Bytes.sum_eq]
    refine sum_congr rfl fun i _ => ?_
    rw [set, Bytes.getElem_overwrite]
    split
    · simp
    · rfl
  rw [Stamped, checksum, hsum]
  exact Iff.rfl

end VirtualDisk
