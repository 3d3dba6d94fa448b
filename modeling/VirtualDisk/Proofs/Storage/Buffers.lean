import VirtualDisk.Sector

/-!
# The buffers of transfers

A buffer is a row of slots of one sector each. `Buffer.slot` is what a slot holds. A read fills
slots one after the other and leaves all bytes behind the last of them alone: `Shows` says so
about the buffer that it returns.
-/

namespace VirtualDisk

theorem Sector.position_eq {sector : Nat} (h : sector * 512 < 2 ^ 64) :
    Sector.position sector = .ok (sector * 512) := by
  rw [Sector.position, if_pos h]

theorem Sector.align_eq {position : Nat} (h : position + 511 < 2 ^ 64) :
    Sector.align position = .ok ((position + 511) / 512 * 512) := by
  simp only [align]
  split
  · exact congrArg Except.ok (by omega)
  · rw [if_pos (by omega)]
    exact congrArg Except.ok (by omega)

theorem Bytes.getElem?_toByteArray {n i : Nat} (b : Bytes n) (hi : i < n) :
    b.toByteArray[i]? = some b[i] :=
  getElem?_pos b.toByteArray i (by rw [b.size_toByteArray]; exact hi)

namespace Buffer

/-- The buffer can hold the sectors, and their size fits into 64 bits. -/
structure Holds (size count : Nat) : Prop where
  fits : count * 512 < 2 ^ 64
  le_size : count * 512 ≤ size

theorem holds_sector (content : Sector) : Holds content.toByteArray.size 1 :=
  ⟨by decide, Nat.le_of_eq (Bytes.size_toByteArray content).symm⟩

theorem check_eq {size count : Nat} (h : Holds size count) : check size count = .ok () := by
  rw [check, Sector.position_eq h.fits]
  change (if size < count * 512 then _ else _) = _
  rw [if_neg (Nat.not_lt.mpr h.le_size)]
  rfl

theorem check_eq_error {size count : Nat} (h : ¬ Holds size count) :
    ∃ e, check size count = .error e := by
  by_cases hfits : count * 512 < 2 ^ 64
  · have hsize : size < count * 512 := Nat.not_le.mp fun hle => h ⟨hfits, hle⟩
    refine ⟨.bufferTooSmall size (count * 512), ?_⟩
    rw [check, Sector.position_eq hfits]
    change (if size < count * 512 then _ else _) = _
    rw [if_pos hsize]
    rfl
  · refine ⟨.offsetOverflow, ?_⟩
    rw [check, Sector.position, if_neg hfits]
    rfl

theorem holds_of_check {size count : Nat} (h : check size count = .ok ()) : Holds size count := by
  refine Classical.byContradiction fun hnot => ?_
  obtain ⟨e, he⟩ := check_eq_error hnot
  cases he.symm.trans h

/-- The sector in a slot; zeros behind the end. -/
def slot (buffer : ByteArray) (k : Nat) : Sector :=
  if h : k * 512 + 512 ≤ buffer.size then (Bytes.ofByteArray buffer).slice (k * 512) 512 h
  else Bytes.zero 512

theorem sector_eq {buffer : ByteArray} {k : Nat} (h : k * 512 + 512 ≤ buffer.size) :
    sector buffer k = .ok (slot buffer k) := by
  rw [sector, window, dif_pos h, slot, dif_pos h]

theorem getElem_slot {buffer : ByteArray} {k i : Nat} (h : k * 512 + 512 ≤ buffer.size)
    (hi : i < 512) : (slot buffer k)[i] = buffer[k * 512 + i] := by
  simp only [slot, dif_pos h, Bytes.getElem_slice, Bytes.getElem_ofByteArray]

/-- A buffer with its first bytes from `start` on replaced. -/
structure Filled {n : Nat} (buffer : ByteArray) (start : Nat) (part : Bytes n)
    (buffer' : ByteArray) : Prop where
  size_eq : buffer'.size = buffer.size
  inside : ∀ i (hi : i < n), buffer'[start + i]? = some part[i]
  outside : ∀ i, i < start ∨ start + n ≤ i → buffer'[i]? = buffer[i]?

theorem exists_fill {n : Nat} {buffer : ByteArray} {start : Nat} (part : Bytes n)
    (h : start + n ≤ buffer.size) :
    ∃ buffer', fill buffer start part = .ok buffer' ∧ Filled buffer start part buffer' := by
  have hsize : ((Bytes.ofByteArray buffer).overwrite start part h).toByteArray.size = buffer.size :=
    Bytes.size_toByteArray _
  refine ⟨_, by rw [fill, dif_pos h], hsize, fun i hi => ?_, fun i hi => ?_⟩
  · rw [Bytes.getElem?_toByteArray _ (show start + i < buffer.size by omega),
      Bytes.getElem_overwrite, dif_pos (by omega)]
    simp only [Nat.add_sub_cancel_left]
  · by_cases hlt : i < buffer.size
    · rw [Bytes.getElem?_toByteArray _ hlt, Bytes.getElem_overwrite, dif_neg (by omega),
        getElem?_pos buffer i hlt, Bytes.getElem_ofByteArray]
    · rw [getElem?_neg buffer i hlt]
      exact getElem?_neg _ i (by rw [hsize]; exact hlt)

/-- The buffer after a read into its slots from `start` on, of as many sectors as said, of which the
first is `sector`. -/
structure Shows (view : Nat → Sector) (sector start count : Nat) (buffer buffer' : ByteArray) :
    Prop where
  size_eq : buffer'.size = buffer.size
  slot_eq : ∀ k, k < count → slot buffer' (start + k) = view (sector + k)
  rest : ∀ i, i < start * 512 ∨ (start + count) * 512 ≤ i → buffer'[i]? = buffer[i]?

namespace Shows

variable {view : Nat → Sector} {sector start count : Nat} {buffer buffer' buffer'' : ByteArray}

theorem nothing (view : Nat → Sector) (sector start : Nat) (buffer : ByteArray) :
    Shows view sector start 0 buffer buffer :=
  ⟨rfl, fun _ hk => absurd hk (Nat.not_lt_zero _), fun _ _ => rfl⟩

theorem slot_of_filled {content : Sector} (h : Filled buffer (start * 512) content buffer')
    (hroom : start * 512 + 512 ≤ buffer.size) : slot buffer' start = content := by
  have hroom' : start * 512 + 512 ≤ buffer'.size := by
    rw [h.size_eq]
    exact hroom
  refine Bytes.ext fun i hi => ?_
  have hbyte := h.inside i hi
  rw [getElem?_pos _ _ (by omega), Option.some.injEq] at hbyte
  rw [getElem_slot hroom' hi, hbyte]

theorem slot_congr {k : Nat} (hsize : buffer'.size = buffer.size)
    (h : ∀ i, k * 512 ≤ i → i < k * 512 + 512 → buffer'[i]? = buffer[i]?) :
    slot buffer' k = slot buffer k := by
  by_cases hroom : k * 512 + 512 ≤ buffer.size
  · have hroom' : k * 512 + 512 ≤ buffer'.size := by
      rw [hsize]
      exact hroom
    refine Bytes.ext fun i hi => ?_
    have hbyte := h (k * 512 + i) (Nat.le_add_right _ _) (Nat.add_lt_add_left hi _)
    rw [getElem?_pos _ _ (by omega), getElem?_pos _ _ (by omega), Option.some.injEq] at hbyte
    rw [getElem_slot hroom' hi, getElem_slot hroom hi, hbyte]
  · rw [slot, slot, dif_neg hroom, dif_neg (by rw [hsize]; exact hroom)]

theorem cons (first : Filled buffer (start * 512) (view sector) buffer')
    (hroom : start * 512 + 512 ≤ buffer.size)
    (others : Shows view (sector + 1) (start + 1) count buffer' buffer'') :
    Shows view sector start (count + 1) buffer buffer'' := by
  refine ⟨others.size_eq.trans first.size_eq, fun k hk => ?_, fun i hi => ?_⟩
  · cases k with
    | zero =>
      have hslot : slot buffer'' start = slot buffer' start :=
        slot_congr others.size_eq fun i hi hi' => others.rest i (.inl (by lia))
      rw [Nat.add_zero, Nat.add_zero, hslot, slot_of_filled first hroom]
    | succ k =>
      have hslot := others.slot_eq k (by omega)
      rw [show start + (k + 1) = start + 1 + k by omega, hslot,
        show sector + 1 + k = sector + (k + 1) by omega]
  · rw [others.rest i (by lia), first.outside i (by lia)]

end Shows

/-- Of a row of sectors, as many as said from `sector` on have the bytes of the slots of the buffer
from `start` on, and the others are as before. -/
structure Laid (buffer : ByteArray) (sector start count : Nat) (old new : Nat → Option Sector) :
    Prop where
  inside : ∀ k, k < count → new (sector + k) = some (slot buffer (start + k))
  outside : ∀ s, s < sector ∨ sector + count ≤ s → new s = old s

namespace Laid

variable {sector start count : Nat} {buffer : ByteArray} {old new newer : Nat → Option Sector}

theorem nothing (buffer : ByteArray) (sector start : Nat) (h : ∀ s, new s = old s) :
    Laid buffer sector start 0 old new :=
  ⟨fun _ hk => absurd hk (Nat.not_lt_zero _), fun s _ => h s⟩

theorem snoc (h : Laid buffer sector start count old new)
    (self : newer (sector + count) = some (slot buffer (start + count)))
    (ne : ∀ s, s ≠ sector + count → newer s = new s) :
    Laid buffer sector start (count + 1) old newer := by
  refine ⟨fun k hk => ?_, fun s hs => ?_⟩
  · by_cases hlast : k = count
    · subst hlast
      exact self
    · rw [ne (sector + k) (by omega), h.inside k (by omega)]
  · rw [ne s (by omega), h.outside s (by omega)]

theorem congr (h : Laid buffer sector start count old new) (same : ∀ s, newer s = new s) :
    Laid buffer sector start count old newer :=
  ⟨fun k hk => (same _).trans (h.inside k hk), fun s hs => (same s).trans (h.outside s hs)⟩

end Laid

end Buffer

end VirtualDisk
