import VirtualDisk.Proofs.Storage.Buffers

/-!
# Buffers in two parts

A request that is made in two parts has its buffer cut in two: `front` are the slots of the first
part, and `back` is what comes behind them. Slots are filled in the one part or in the other, and
the parts together are the buffer again.
-/

namespace VirtualDisk

theorem ByteArray.getElem?_append_left {a b : ByteArray} {i : Nat} (h : i < a.size) :
    (a ++ b)[i]? = a[i]? := by
  rw [getElem?_pos a i h, getElem?_pos (a ++ b) i (by rw [ByteArray.size_append]; omega),
    ByteArray.getElem_append_left h]

theorem ByteArray.getElem?_append_right {a b : ByteArray} {i : Nat} (h : a.size ≤ i) :
    (a ++ b)[i]? = b[i - a.size]? := by
  by_cases hi : i < (a ++ b).size
  · have hsize := ByteArray.size_append (a := a) (b := b)
    rw [getElem?_pos _ i hi, getElem?_pos b _ (by omega), ByteArray.getElem_append_right h]
  · have hsize := ByteArray.size_append (a := a) (b := b)
    rw [getElem?_neg _ i hi, getElem?_neg b _ (by omega)]

theorem ByteArray.ext_getElem? {a b : ByteArray} (hsize : a.size = b.size)
    (h : ∀ i : Nat, a[i]? = b[i]?) : a = b := by
  refine ByteArray.ext_getElem hsize fun i hi hi' => ?_
  have hbyte := h i
  rwa [getElem?_pos a i hi, getElem?_pos b i hi', Option.some.injEq] at hbyte

namespace Buffer

variable {buffer buffer' buffer'' : ByteArray} {count start first second : Nat}

/-- The slots of the first sectors. -/
def front (buffer : ByteArray) (count : Nat) : ByteArray := buffer.extract 0 (count * 512)

/-- What comes behind the slots of the first sectors. -/
def back (buffer : ByteArray) (count : Nat) : ByteArray := buffer.extract (count * 512) buffer.size

theorem size_front (h : count * 512 ≤ buffer.size) : (front buffer count).size = count * 512 := by
  rw [front, ByteArray.size_extract]
  omega

theorem size_back (buffer : ByteArray) (count : Nat) :
    (back buffer count).size = buffer.size - count * 512 := by
  rw [back, ByteArray.size_extract, Nat.min_self]

theorem front_append_back (h : count * 512 ≤ buffer.size) :
    front buffer count ++ back buffer count = buffer := by
  rw [front, back, ByteArray.extract_append_extract, Nat.zero_min, Nat.max_eq_right h,
    ByteArray.extract_zero_size]

theorem holds_front (h : Holds buffer.size (first + second)) :
    Holds (front buffer first).size first := by
  obtain ⟨hfits, hsize⟩ := h
  rw [size_front (by lia)]
  exact ⟨by lia, Nat.le_refl _⟩

theorem holds_back (h : Holds buffer.size (first + second)) :
    Holds (back buffer first).size second := by
  obtain ⟨hfits, hsize⟩ := h
  rw [size_back]
  exact ⟨by lia, by lia⟩

theorem slot_append_left {a b : ByteArray} {k : Nat} (h : k * 512 + 512 ≤ a.size) :
    slot (a ++ b) k = slot a k := by
  have hsize := ByteArray.size_append (a := a) (b := b)
  refine Bytes.ext fun i hi => ?_
  rw [getElem_slot (by omega) hi, getElem_slot h hi, ByteArray.getElem_append_left (by omega)]

theorem slot_append_right {a b : ByteArray} {k : Nat} (hsize : a.size = count * 512)
    (h : k * 512 + 512 ≤ b.size) : slot (a ++ b) (count + k) = slot b k := by
  have happend := ByteArray.size_append (a := a) (b := b)
  refine Bytes.ext fun i hi => ?_
  rw [getElem_slot (by lia) hi, getElem_slot h hi, ByteArray.getElem_append_right (by lia)]
  congr 1
  lia

theorem sector_front {k : Nat} (hk : k < count) (h : count * 512 ≤ buffer.size) :
    sector (front buffer count) k = sector buffer k := by
  have hfront := size_front h
  have hslot : k * 512 + 512 ≤ (front buffer count).size := by lia
  have happend := slot_append_left (b := back buffer count) hslot
  rw [front_append_back h] at happend
  rw [sector_eq hslot, sector_eq (by lia), happend]

theorem sector_back {k : Nat} (h : (count + k) * 512 + 512 ≤ buffer.size) :
    sector (back buffer count) k = sector buffer (count + k) := by
  have hcount : count * 512 ≤ buffer.size := by lia
  have hslot : k * 512 + 512 ≤ (back buffer count).size := by
    rw [size_back]
    lia
  have happend := slot_append_right (size_front hcount) hslot
  rw [front_append_back hcount] at happend
  rw [sector_eq hslot, sector_eq h, happend]

theorem Filled.unique {n : Nat} {part : Bytes n} (h : Filled buffer start part buffer')
    (h' : Filled buffer start part buffer'') : buffer' = buffer'' := by
  refine ByteArray.ext_getElem? (h.size_eq.trans h'.size_eq.symm) fun i => ?_
  by_cases hi : start ≤ i ∧ i < start + n
  · obtain ⟨k, rfl⟩ := Nat.exists_eq_add_of_le hi.1
    rw [h.inside k (by omega), h'.inside k (by omega)]
  · rw [h.outside i (by omega), h'.outside i (by omega)]

theorem Filled.append_left {n : Nat} {part : Bytes n} {a a' : ByteArray}
    (h : Filled a start part a') (hend : start + n ≤ a.size) (b : ByteArray) :
    Filled (a ++ b) start part (a' ++ b) := by
  have hsize := h.size_eq
  refine ⟨?_, fun i hi => ?_, fun i hi => ?_⟩
  · rw [ByteArray.size_append, ByteArray.size_append, hsize]
  · rw [ByteArray.getElem?_append_left (by omega), h.inside i hi]
  · by_cases hlt : i < a.size
    · rw [ByteArray.getElem?_append_left hlt, ByteArray.getElem?_append_left (by omega),
        h.outside i hi]
    · rw [ByteArray.getElem?_append_right (by omega), ByteArray.getElem?_append_right (by omega),
        hsize]

theorem Filled.append_right {n : Nat} {part : Bytes n} {b b' : ByteArray}
    (h : Filled b start part b') (a : ByteArray) :
    Filled (a ++ b) (a.size + start) part (a ++ b') := by
  refine ⟨?_, fun i hi => ?_, fun i hi => ?_⟩
  · rw [ByteArray.size_append, ByteArray.size_append, h.size_eq]
  · rw [ByteArray.getElem?_append_right (by omega), ← h.inside i hi]
    congr 1
    omega
  · by_cases hlt : i < a.size
    · rw [ByteArray.getElem?_append_left hlt, ByteArray.getElem?_append_left hlt]
    · rw [ByteArray.getElem?_append_right (by omega), ByteArray.getElem?_append_right (by omega),
        h.outside _ (by omega)]

theorem fill_eq_ok {n : Nat} {part : Bytes n} (h : Filled buffer start part buffer')
    (hend : start + n ≤ buffer.size) : fill buffer start part = .ok buffer' := by
  obtain ⟨filled, hfill, hfilled⟩ := exists_fill part hend
  rw [hfill, hfilled.unique h]

theorem filled_of_fillSector {content : Sector} {k : Nat}
    (h : fillSector buffer k content = .ok buffer') :
    k * 512 + 512 ≤ buffer.size ∧ Filled buffer (k * 512) content buffer' := by
  by_cases hroom : k * 512 + 512 ≤ buffer.size
  · obtain ⟨filled, hfill, hfilled⟩ := exists_fill content hroom
    obtain rfl := Except.ok.inj (hfill.symm.trans h)
    exact ⟨hroom, hfilled⟩
  · rw [fillSector, fill, dif_neg hroom] at h
    cases h

theorem exists_fillSector_append_left {a : ByteArray} {k : Nat} (b : ByteArray)
    (content : Sector) (h : k * 512 + 512 ≤ a.size) :
    ∃ a', a'.size = a.size ∧ fillSector a k content = .ok a' ∧
      fillSector (a ++ b) k content = .ok (a' ++ b) := by
  obtain ⟨a', hfill, filled⟩ := exists_fill content h
  refine ⟨a', filled.size_eq, hfill, fill_eq_ok (filled.append_left h b) ?_⟩
  rw [ByteArray.size_append]
  omega

theorem exists_fillSector_append_right {a b : ByteArray} {k : Nat} (content : Sector)
    (hsize : a.size = count * 512) (h : k * 512 + 512 ≤ b.size) :
    ∃ b', b'.size = b.size ∧ fillSector b k content = .ok b' ∧
      fillSector (a ++ b) (count + k) content = .ok (a ++ b') := by
  obtain ⟨b', hfill, filled⟩ := exists_fill content h
  have hslot : a.size + k * 512 = (count + k) * 512 := by lia
  refine ⟨b', filled.size_eq, hfill, fill_eq_ok (hslot ▸ filled.append_right a) ?_⟩
  rw [ByteArray.size_append]
  lia

namespace Shows

variable {view : Nat → Sector} {sector : Nat}

theorem unique (h : Shows view sector 0 count buffer buffer')
    (h' : Shows view sector 0 count buffer buffer'') (hroom : count * 512 ≤ buffer.size) :
    buffer' = buffer'' := by
  have hsize := h.size_eq
  have hsize' := h'.size_eq
  refine ByteArray.ext_getElem? (hsize.trans hsize'.symm) fun i => ?_
  by_cases hi : i < count * 512
  · have hmod : i % 512 < 512 := Nat.mod_lt i (by decide)
    have hslot : slot buffer' (0 + i / 512) = slot buffer'' (0 + i / 512) := by
      rw [h.slot_eq (i / 512) (by omega), h'.slot_eq (i / 512) (by omega)]
    have hi' : (0 + i / 512) * 512 + i % 512 = i := by omega
    have hroom' : (0 + i / 512) * 512 + 512 ≤ buffer'.size := by lia
    have hroom'' : (0 + i / 512) * 512 + 512 ≤ buffer''.size := by lia
    have hbyte := getElem_slot hroom' hmod
    simp only [hslot, getElem_slot hroom'' hmod, hi'] at hbyte
    rw [getElem?_pos _ i (by omega), getElem?_pos _ i (by omega), hbyte]
  · rw [h.rest i (by omega), h'.rest i (by omega)]

/-- What is shown in the front and in the back is shown in the whole buffer, if the front is shown
in full or nothing is shown behind it. -/
theorem append {a a' b b' : ByteArray} {shown : Nat} (hsize : a.size = count * 512)
    (h : Shows view sector 0 shown a a') (h' : Shows view (sector + count) 0 second b b')
    (hle : shown ≤ count) (full : second ≠ 0 → shown = count) (hroom : second * 512 ≤ b.size) :
    Shows view sector 0 (shown + second) (a ++ b) (a' ++ b') := by
  have ha := h.size_eq
  have hb := h'.size_eq
  refine ⟨?_, fun k hk => ?_, fun i hi => ?_⟩
  · rw [ByteArray.size_append, ByteArray.size_append, ha, hb]
  · rw [Nat.zero_add]
    by_cases hlt : k < shown
    · have hslot := h.slot_eq k hlt
      have hk' : k * 512 + 512 ≤ a'.size := by lia
      rw [Nat.zero_add] at hslot
      rw [slot_append_left hk', hslot]
    · obtain ⟨j, rfl⟩ : ∃ j, k = count + j := ⟨k - count, by omega⟩
      have hslot := h'.slot_eq j (by omega)
      have hj : j * 512 + 512 ≤ b'.size := by lia
      rw [Nat.zero_add] at hslot
      rw [slot_append_right (ha.trans hsize) hj, hslot, Nat.add_assoc]
  · by_cases hlt : i < a.size
    · rw [ByteArray.getElem?_append_left hlt, ByteArray.getElem?_append_left (by omega),
        h.rest i (by lia)]
    · rw [ByteArray.getElem?_append_right (by omega), ByteArray.getElem?_append_right (by omega),
        ha, h'.rest _ (by omega)]

end Shows

end Buffer

end VirtualDisk
