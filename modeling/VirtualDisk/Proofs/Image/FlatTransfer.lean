import VirtualDisk.Proofs.Image.Flat
import VirtualDisk.Proofs.Storage.Parts
import VirtualDisk.Proofs.Storage.SameBytes

/-!
# Transfers of a row of sectors in two parts

A request of a fixed image against the two requests that it can be divided into: what is transferred
and what is cut off add up, the storage has the sectors of the whole if it has those of the parts,
and the parts store the slots of the buffer as the whole does.
-/

namespace VirtualDisk

open Storage

variable {ι : Type} {image : Image ι} {content : Content} {offset count : Nat}
variable {buffer : ByteArray}

namespace Image

theorem transfer_add (image : Image ι) (offset first second : Nat) :
    image.transfer offset (first + second) =
      image.transfer offset first + image.transfer (offset + first) second := by
  simp only [transfer]
  omega

/-- Behind a part that was cut there is nothing to transfer. -/
theorem transfer_eq_of_ne_zero {first second : Nat}
    (h : image.transfer (offset + first) second ≠ 0) : image.transfer offset first = first := by
  simp only [transfer] at h ⊢
  omega

theorem transfer_le_count (image : Image ι) (offset count : Nat) :
    image.transfer offset count ≤ count :=
  Nat.min_le_left _ _

theorem truncated_add (image : Image ι) (offset first second : Nat) :
    first + second - image.transfer offset (first + second) =
      first - image.transfer offset first + (second - image.transfer (offset + first) second) := by
  have hfirst := image.transfer_le_count offset first
  have hsecond := image.transfer_le_count (offset + first) second
  rw [transfer_add]
  omega

theorem inside_add {first second : Nat} :
    image.Inside offset (first + second) content ↔
      image.Inside offset first content ∧ image.Inside (offset + first) second content := by
  simp only [Inside, transfer]
  omega

namespace RowStored

variable {content' content'' : Content}

theorem unique (h : RowStored content offset count buffer content')
    (h' : RowStored content offset count buffer content'') : content'.SameBytes content'' := by
  refine ⟨h'.size_eq.trans h.size_eq.symm, fun position _ => ?_⟩
  by_cases hinside : offset * 512 ≤ position ∧ position < (offset + count) * 512
  · obtain ⟨i, rfl⟩ := Nat.exists_eq_add_of_le hinside.1
    have hbyte := h'.inside i (by lia)
    rw [h.inside i (by lia), Option.some.injEq] at hbyte
    exact hbyte.symm
  · rw [h.outside position (by omega), h'.outside position (by omega)]

/-- A row that is stored in two parts, the front of the buffer and then the back. -/
theorem append {first shown second : Nat} (hfront : first * 512 ≤ buffer.size)
    (h : RowStored content offset shown (Buffer.front buffer first) content')
    (h' : RowStored content' (offset + first) second (Buffer.back buffer first) content'')
    (hle : shown ≤ first) (full : second ≠ 0 → shown = first) :
    RowStored content offset (shown + second) buffer content'' := by
  have hsize := h.size_eq
  have hsize' := h'.size_eq
  have hparts := Buffer.size_front hfront
  have hbuffer := Buffer.front_append_back hfront
  refine ⟨?_, fun i hi => ?_, fun position hposition => ?_⟩
  · split at hsize
    · split at hsize' <;> split <;> omega
    · split at hsize' <;> split <;> omega
  · rw [← hbuffer]
    by_cases hlt : i < shown * 512
    · rw [ByteArray.getElem?_append_left (by omega), h.inside i hlt,
        h'.outside _ (.inl (by lia))]
    · obtain ⟨j, rfl⟩ : ∃ j, i = first * 512 + j := ⟨i - first * 512, by omega⟩
      rw [ByteArray.getElem?_append_right (by omega), hparts, Nat.add_sub_cancel_left,
        h'.inside j (by omega), Nat.add_mul, Nat.add_assoc]
  · rw [h'.outside position (by lia), h.outside position (by lia)]

end RowStored

end Image

end VirtualDisk
