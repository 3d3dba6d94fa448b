import VirtualDisk.Storage.ZeroFill
import VirtualDisk.Proofs.Storage.Ranges
import VirtualDisk.Proofs.Storage.Ensures
import VirtualDisk.Proofs.Storage.Buffers

/-!
# Runs of zeros

`Zeroed` describes a content while zeros are written from a position on. Chunk by chunk there are
more of them; a failing chunk is not there at all.
-/

namespace VirtualDisk.Storage

variable {ι : Type} {S : Setting ι} {content content' current : Content} {position n m : Nat}

namespace Content

/-- The second content has zeros in the `n` bytes from `position` on, and is as the first
elsewhere. -/
structure Zeroed (content content' : Content) (position n : Nat) : Prop where
  size_eq : content'.size = max content.size (position + n)
  byte_eq : ∀ p, content'.byte p = if position ≤ p ∧ p < position + n then 0 else content.byte p

namespace Zeroed

theorem refl (h : position ≤ content.size) : content.Zeroed content position 0 where
  size_eq := by omega
  byte_eq p := by rw [if_neg (by omega)]

theorem write (h : content.Zeroed content' position n) {data : Bytes m}
    (zero : ∀ i (hi : i < m), data[i] = 0) :
    content.Zeroed (content'.write (position + n) data) position (n + m) where
  size_eq := by
    rw [size_write, h.size_eq]
    omega
  byte_eq p := by
    rw [byte_write, h.byte_eq]
    by_cases hdata : position + n ≤ p ∧ p < position + n + m
    · rw [dif_pos hdata, if_pos (by omega)]
      exact zero _ _
    · rw [dif_neg hdata]
      by_cases hzero : position ≤ p ∧ p < position + n
      · rw [if_pos hzero, if_pos (by omega)]
      · rw [if_neg hzero, if_neg (by omega)]

theorem grown (h : content.Zeroed content' position n) (hsize : content.size ≤ position + 512) :
    content.Grown content' where
  size_le := by
    rw [h.size_eq]
    omega
  agree p _ hp := by rw [h.byte_eq, if_neg (by omega)]

end Zeroed

end Content

/-- Of `size` zeros from `n` bytes behind the position on, another chunk may be written, after any
number of whole ones. -/
def Setting.PermitsZeros (S : Setting ι) (content : Content) (position n size : Nat) : Prop :=
  ∀ d m (zeros : Bytes m) current, content.Zeroed current position (n + d) →
    (∀ i (hi : i < m), zeros[i] = 0) → d % 65536 = 0 → d ≤ size → m = min (size - d) 65536 →
      S.permits (.write (position + (n + d)) zeros.toByteArray) current

theorem Setting.PermitsZeros.next {size : Nat} (h : S.PermitsZeros content position n size)
    (hsize : 65536 ≤ size) :
    S.PermitsZeros content position (n + 65536) (size - 65536) := by
  intro d m zeros current zeroed zero hd hle hm
  rw [Nat.add_assoc] at zeroed ⊢
  exact h (65536 + d) m zeros current zeroed zero (by omega) (by omega) (by omega)

namespace Access

/-- Chunk by chunk the zeros grow. A failure leaves whole chunks of them. -/
theorem zeroChunks_ensures (count size n : Nat) {current : Content}
    (permits : S.PermitsZeros content position n size) (zeroed : content.Zeroed current position n)
    (hfits : position + n + size < 2 ^ 64) (hcount : count = (size + 65535) / 65536) :
    (zeroChunks S.disk count (position + n) size).Ensures S
      (fun next current' => next = position + (n + size) ∧
        content.Zeroed current' position (n + size))
      (fun _ current' => S.mayFail ∧
        ∃ d, d % 65536 = 0 ∧ d ≤ size ∧ content.Zeroed current' position (n + d)) current := by
  induction count generalizing size n current with
  | zero =>
    obtain rfl : size = 0 := by omega
    rw [zeroChunks, ensures_pure]
    exact fun _ => ⟨rfl, zeroed⟩
  | succ count ih =>
    have hfailed : S.mayFail → ∀ e : Error, S.mayFail ∧
        ∃ d, d % 65536 = 0 ∧ d ≤ size ∧ content.Zeroed current position (n + d) :=
      fun hm _ => ⟨hm, 0, rfl, Nat.zero_le _, zeroed⟩
    have hlimit : ¬ 2 ^ 64 ≤ position + n + min size 65536 := by omega
    simp only [zeroChunks, if_neg hlimit]
    split
    · next hlarge =>
      have zero : ∀ i (hi : i < 65536), zeroChunk[i] = 0 := fun i hi => Bytes.getElem_zero _ i hi
      have hnext : n + 65536 + (size - 65536) = n + size := by omega
      have hrest := ih (size - 65536) (n + 65536) (permits.next hlarge) (zeroed.write zero)
        (by omega) (by omega)
      rw [hnext, ← Nat.add_assoc] at hrest
      rw [ensures_bind, Nat.min_eq_right hlarge]
      refine .write (by omega) ?_ (fun _ => hrest.mono (fun _ _ _ hdone => hdone) ?_) hfailed
      · exact permits 0 65536 zeroChunk current zeroed zero rfl (Nat.zero_le _) (by omega)
      · rintro _ current' _ ⟨hm, d, hd, hle, zeroed'⟩
        rw [Nat.add_assoc] at zeroed'
        exact ⟨hm, 65536 + d, by omega, by omega, zeroed'⟩
    · next hsmall =>
      obtain rfl : count = 0 := by omega
      have zero : ∀ i (hi : i < size), (zeroChunk.slice 0 size (by omega))[i] = 0 := by
        intro i hi
        rw [Bytes.getElem_slice]
        exact Bytes.getElem_zero _ _ _
      rw [ensures_bind, Nat.min_eq_left (by omega)]
      refine .write (by omega) ?_ (fun _ => ?_) hfailed
      · exact permits 0 size _ current zeroed zero rfl (Nat.zero_le _) (by omega)
      · rw [zeroChunks, ensures_pure]
        exact fun _ => ⟨Nat.add_assoc _ _ _, zeroed.write zero⟩

theorem zeroFill_ensures {size n : Nat} (permits : S.PermitsZeros content position n size)
    (zeroed : content.Zeroed current position n) (hfits : position + n + size < 2 ^ 64) :
    (zeroFill S.disk (position + n) size).Ensures S
      (fun next current' => next = position + (n + size) ∧
        content.Zeroed current' position (n + size))
      (fun _ current' => S.mayFail ∧
        ∃ d, d % 65536 = 0 ∧ d ≤ size ∧ content.Zeroed current' position (n + d)) current :=
  zeroChunks_ensures _ size n permits zeroed hfits rfl

/-- Whole sectors of zeros are written, or some of them are. -/
theorem zeroSectors_ensures {count n : Nat}
    (permits : S.PermitsZeros content position n (count * 512))
    (zeroed : content.Zeroed current position n) (hfits : position + n + count * 512 < 2 ^ 64) :
    (zeroSectors S.disk (position + n) count).Ensures S
      (fun next current' => next = position + (n + count * 512) ∧
        content.Zeroed current' position (n + count * 512))
      (fun _ current' => S.mayFail ∧
        ∃ d, d % 65536 = 0 ∧ d ≤ count * 512 ∧ content.Zeroed current' position (n + d))
      current := by
  simp only [zeroSectors, Sector.position_eq (show count * 512 < 2 ^ 64 by omega), ensures_bind,
    ensures_liftExcept_ok]
  exact fun _ => zeroFill_ensures permits zeroed hfits

end Access

end VirtualDisk.Storage
