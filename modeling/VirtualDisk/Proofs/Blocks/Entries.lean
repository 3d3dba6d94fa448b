import VirtualDisk.Blocks.Table
import VirtualDisk.Proofs.Storage.Ranges

/-!
# Places of blocks

`BlockTable.place? table block` is where a block is stored, without the failure that a block
number out of range is; inside the table, `sector?` and `isAllocated` say the same. A table is
recorded in a content if the content holds every one of its entries, and a recorded table is what
`decode` reads.
-/

namespace VirtualDisk

open Storage

namespace BlockTable

/-- The sector at which a block is stored, if there is such a block and it is allocated. -/
def place? (table : BlockTable) (block : Nat) : Option Nat :=
  match table.entries[block]? with
  | some entry => if entry = unallocated then none else some entry.toNat
  | none => none

/-- The table with another entry for a block. -/
def withEntry (table : BlockTable) (block : Nat) (sector : UInt32) : BlockTable :=
  { table with entries := table.entries.setIfInBounds block sector }

/-- The number of blocks that are not allocated. -/
def vacant (table : BlockTable) : Nat := table.entries.count unallocated

variable {table : BlockTable} {block : Nat}

theorem entry_eq (h : block < table.entries.size) :
    table.entry block = .ok table.entries[block] := by
  simp only [entry, Array.getElem?_eq_getElem h]

theorem entry_eq_error (h : table.size ≤ block) :
    table.entry block = .error (.corrupt .blockOutOfRange) := by
  have hnone : table.entries[block]? = none := Array.getElem?_eq_none h
  simp only [entry, hnone]

theorem sector?_eq (h : block < table.size) : table.sector? block = .ok (table.place? block) := by
  have h' : block < table.entries.size := h
  rw [sector?, entry_eq h, place?, Array.getElem?_eq_getElem h']
  rfl

theorem isAllocated_eq (h : block < table.size) :
    table.isAllocated block = .ok (table.place? block).isSome := by
  have h' : block < table.entries.size := h
  rw [isAllocated, entry_eq h, place?, Array.getElem?_eq_getElem h']
  change Except.ok (table.entries[block] != unallocated) = .ok (Option.isSome (if _ then _ else _))
  by_cases hu : table.entries[block] = unallocated
  · rw [if_pos hu, hu, bne_self_eq_false]
    rfl
  · rw [if_neg hu, bne_iff_ne.mpr hu]
    rfl

theorem lt_size_of_place? {start : Nat} (h : table.place? block = some start) :
    block < table.size := by
  unfold place? at h
  split at h
  · next entry hentry => exact (Array.getElem?_eq_some_iff.mp hentry).1
  · cases h

theorem place?_lt {start : Nat} (h : table.place? block = some start) : start < 2 ^ 32 := by
  unfold place? at h
  split at h
  · next entry hentry =>
    split at h
    · cases h
    · cases h
      exact entry.toNat_lt
  · cases h

@[simp] theorem withEntry_offset (sector : UInt32) :
    (table.withEntry block sector).offset = table.offset := rfl

@[simp] theorem withEntry_size (sector : UInt32) :
    (table.withEntry block sector).size = table.size := Array.size_setIfInBounds

theorem place?_withEntry_same {sector : UInt32} (h : block < table.size)
    (hs : sector ≠ unallocated) :
    (table.withEntry block sector).place? block = some sector.toNat := by
  have h' : block < table.entries.size := h
  simp [place?, withEntry, Array.getElem?_setIfInBounds_self_of_lt h', hs]

theorem place?_withEntry_of_ne {sector : UInt32} {other : Nat} (h : other ≠ block) :
    (table.withEntry block sector).place? other = table.place? other := by
  simp only [place?, withEntry, Array.getElem?_setIfInBounds_ne (Ne.symm h)]

theorem entry_eq_unallocated (h : block < table.size) (hn : table.place? block = none) :
    table.entries[block]? = some unallocated := by
  have h' : block < table.entries.size := h
  rw [place?, Array.getElem?_eq_getElem h'] at hn
  rw [Array.getElem?_eq_getElem h']
  by_cases hu : table.entries[block] = unallocated
  · rw [hu]
  · simp [hu] at hn

theorem withEntry_unallocated (h : block < table.size) (hn : table.place? block = none) :
    table.withEntry block unallocated = table := by
  have hentry := entry_eq_unallocated h hn
  obtain ⟨hlt, hu⟩ := Array.getElem?_eq_some_iff.mp hentry
  have hsame : table.entries.setIfInBounds block unallocated = table.entries := by
    rw [Array.setIfInBounds_def, dif_pos hlt, ← hu]
    exact Array.set_getElem_self hlt
  rw [withEntry, hsame]

theorem vacant_pos (h : block < table.size) (hn : table.place? block = none) :
    0 < table.vacant := by
  have h' : block < table.entries.size := h
  have hu := entry_eq_unallocated h hn
  rw [Array.getElem?_eq_getElem h', Option.some.injEq] at hu
  exact Array.count_pos_iff.mpr (hu ▸ Array.getElem_mem h')

theorem vacant_withEntry {sector : UInt32} (h : block < table.size) (hn : table.place? block = none)
    (hs : sector ≠ unallocated) : (table.withEntry block sector).vacant + 1 = table.vacant := by
  have h' : block < table.entries.size := h
  have hpos : 0 < table.entries.count unallocated := vacant_pos h hn
  have hu := entry_eq_unallocated h hn
  rw [Array.getElem?_eq_getElem h', Option.some.injEq] at hu
  simp only [vacant, withEntry, Array.setIfInBounds_def, dif_pos h', Array.count_set, hu]
  simp [hs]
  omega

/-- The entry of a block as the content holds it. -/
def storedEntry (table : BlockTable) (content : Content) (block : Nat) : UInt32 :=
  UInt32.ofNat ((content.read (table.offset + block * 4) 4).number 0 4 (by decide))

/-- The content holds the entries of the table. -/
def Recorded (table : BlockTable) (content : Content) : Prop :=
  ∀ block, block < table.size → table.entries[block]? = some (table.storedEntry content block)

variable {content content' : Content}

theorem Recorded.of_agree (h : table.Recorded content)
    (agree : content.AgreeOn content' table.offset (table.size * 4)) : table.Recorded content' := by
  intro block hblock
  have hentry : content.AgreeOn content' (table.offset + block * 4) 4 :=
    agree.mono (by omega) (by omega)
  rw [h block hblock, storedEntry, storedEntry, hentry.read_eq]

/-- The entries that are read from the place of a recorded table are those of the table. -/
theorem Recorded.decode_eq (h : table.Recorded content) :
    decode (content.read table.offset (table.size * 4)) = table.entries := by
  have hsize : table.size = table.entries.size := rfl
  refine Array.ext (by rw [decode, Array.size_ofFn, hsize]; omega) fun block _ hblock => ?_
  have hentry := h block hblock
  rw [Array.getElem?_eq_getElem hblock, Option.some.injEq] at hentry
  rw [hentry, storedEntry]
  simp only [decode, Array.getElem_ofFn]
  refine congrArg UInt32.ofNat (Bytes.number_congr 4 (by omega) (by decide) fun i hi => ?_)
  rw [Content.getElem_read, Content.getElem_read]
  congr 1
  omega

theorem recorded_decode (content : Content) (offset count : Nat) :
    (BlockTable.mk offset (decode (content.read offset (count * 4)))).Recorded content := by
  intro block hblock
  have hlt : block < (decode (content.read offset (count * 4))).size := hblock
  have hcount : block < count := by
    rw [decode, Array.size_ofFn] at hlt
    omega
  rw [Array.getElem?_eq_getElem hlt, storedEntry]
  simp only [decode, Array.getElem_ofFn]
  refine congrArg (fun n => some (UInt32.ofNat n))
    (Bytes.number_congr 4 (by omega) (by decide) fun i hi => ?_)
  rw [Content.getElem_read, Content.getElem_read]
  congr 1
  omega

theorem size_decode (content : Content) (offset count : Nat) :
    (BlockTable.mk offset (decode (content.read offset (count * 4)))).size = count := by
  rw [size, decode, Array.size_ofFn]
  omega

/-- Recording one entry records the table that has this entry. -/
theorem Recorded.withEntry (h : table.Recorded content) (sector : UInt32) :
    (table.withEntry block sector).Recorded
      (content.write (table.offset + block * 4) (Bytes.ofNumber 4 sector.toNat)) := by
  intro other hother
  rw [withEntry_size] at hother
  have hentries : (table.withEntry block sector).entries[other]? =
      if block = other then some sector else table.entries[other]? := by
    have hother' : other < table.entries.size := hother
    by_cases hb : block = other
    · subst hb
      simp [BlockTable.withEntry, hother']
    · simp [BlockTable.withEntry, hb]
  rw [hentries, storedEntry, withEntry_offset]
  by_cases hb : block = other
  · subst hb
    have hlt := sector.toNat_lt
    rw [if_pos rfl, Content.read_write_same, Bytes.number_ofNumber,
      Nat.mod_eq_of_lt (by omega), UInt32.ofNat_toNat]
  · rw [if_neg hb, Content.read_write_of_disjoint _ _ (by omega)]
    exact h other hother

end BlockTable

end VirtualDisk
