import VirtualDisk.Proofs.Blocks.Arranged

/-!
# What no request undoes

`Later` compares two contents of one storage. The copy of the footer and the header are the same,
entries of the table that record a block are kept, and an entry that is new is larger than those
that were there. `Progress` says more about a single request: if it records a block, the storage
ends with the copy of the footer.
-/

namespace VirtualDisk

open Storage

variable {footer : Footer} {table table' : BlockTable} {content content' content'' : Content}

namespace BlockTable

theorem storedEntry_congr (h : table'.offset = table.offset) (content : Content) (block : Nat) :
    table'.storedEntry content block = table.storedEntry content block := by
  rw [storedEntry, storedEntry, h]

theorem storedEntry_of_agree (agree : content.AgreeOn content' table.offset (table.size * 4))
    {block : Nat} (hblock : block < table.size) :
    table.storedEntry content' block = table.storedEntry content block := by
  have hentry : content.AgreeOn content' (table.offset + block * 4) 4 :=
    agree.mono (by omega) (by omega)
  rw [storedEntry, storedEntry, hentry.read_eq]

theorem Recorded.place?_eq (h : table.Recorded content) {block : Nat}
    (hblock : block < table.size) :
    table.place? block =
      if table.storedEntry content block = unallocated then none
      else some (table.storedEntry content block).toNat := by
  rw [place?, h block hblock]

end BlockTable

/-- The second content is from a later time than the first. -/
structure Later (footer : Footer) (table : BlockTable) (content content' : Content) : Prop where
  copy : content'.read 0 512 = content.read 0 512
  header : content'.read footer.dataOffset.toNat 1024 = content.read footer.dataOffset.toNat 1024
  kept : ∀ block, block < table.size → table.storedEntry content block ≠ BlockTable.unallocated →
    table.storedEntry content' block = table.storedEntry content block
  larger : ∀ block other, block < table.size → other < table.size →
    table.storedEntry content block = BlockTable.unallocated →
    table.storedEntry content' block ≠ BlockTable.unallocated →
    table.storedEntry content other ≠ BlockTable.unallocated →
      table.storedEntry content other < table.storedEntry content' block

namespace Later

theorem refl (content : Content) : Later footer table content content where
  copy := rfl
  header := rfl
  kept _ _ _ := rfl
  larger _ _ _ _ vacant recorded := absurd vacant recorded

theorem trans (h : Later footer table content content')
    (h' : Later footer table content' content'') : Later footer table content content'' where
  copy := h'.copy.trans h.copy
  header := h'.header.trans h.header
  kept block hblock recorded := by
    have hkept := h.kept block hblock recorded
    rw [← hkept] at recorded ⊢
    exact h'.kept block hblock recorded
  larger block other hblock hother vacant recorded present := by
    have hkept := h.kept other hother present
    by_cases hnew : table.storedEntry content' block = BlockTable.unallocated
    · rw [← hkept] at present ⊢
      exact h'.larger block other hblock hother hnew recorded present
    · rw [h'.kept block hblock hnew]
      exact h.larger block other hblock hother vacant hnew present

instance : Trans (Later footer table) (Later footer table) (Later footer table) := ⟨trans⟩

theorem congr (h : Later footer table content content') (offset : table'.offset = table.offset)
    (size : table'.size = table.size) : Later footer table' content content' := by
  refine ⟨h.copy, h.header, fun block hblock => ?_, fun block other hblock hother => ?_⟩
  · rw [BlockTable.storedEntry_congr offset, BlockTable.storedEntry_congr offset]
    exact h.kept block (size ▸ hblock)
  · rw [BlockTable.storedEntry_congr offset, BlockTable.storedEntry_congr offset,
      BlockTable.storedEntry_congr offset]
    exact h.larger block other (size ▸ hblock) (size ▸ hother)

end Later

/-- The second content comes from the first by one request. -/
structure Progress (footer : Footer) (table : BlockTable) (content content' : Content) : Prop
    extends Later footer table content content' where
  sealed_by_copy : ∀ block, block < table.size →
    table.storedEntry content block = BlockTable.unallocated →
    table.storedEntry content' block ≠ BlockTable.unallocated →
      content'.tail = content'.read 0 512

namespace Progress

theorem refl (content : Content) : Progress footer table content content :=
  ⟨.refl content, fun _ _ vacant recorded => absurd vacant recorded⟩

theorem congr (h : Progress footer table content content') (offset : table'.offset = table.offset)
    (size : table'.size = table.size) : Progress footer table' content content' := by
  refine ⟨h.toLater.congr offset size, fun block hblock => ?_⟩
  rw [BlockTable.storedEntry_congr offset, BlockTable.storedEntry_congr offset]
  exact h.sealed_by_copy block (size ▸ hblock)

theorem write {position n : Nat} (clear : Clear footer table position n) (data : Bytes n) :
    Progress footer table content (content.write position data) := by
  have hcopy := clear.copy
  have hentry : ∀ block, block < table.size →
      table.storedEntry (content.write position data) block = table.storedEntry content block :=
    fun block => BlockTable.storedEntry_of_agree (content.agreeOn_write data clear.table.symm)
  refine ⟨⟨?_, ?_, fun block hblock _ => hentry block hblock, ?_⟩, ?_⟩
  · exact content.read_write_of_disjoint data (.inl (by omega))
  · exact content.read_write_of_disjoint data clear.header.symm
  · intro block other hblock hother vacant recorded
    rw [hentry block hblock] at recorded
    exact absurd vacant recorded
  · intro block hblock vacant recorded
    rw [hentry block hblock] at recorded
    exact absurd vacant recorded

end Progress

namespace Storage

theorem Content.write_toByteArray {n : Nat} (content : Content) (offset : Nat) (data : Bytes n) :
    content.write offset (Bytes.ofByteArray data.toByteArray) = content.write offset data := by
  obtain ⟨data, rfl⟩ := data
  rfl

/-- A write is carried out, or refused without effect. -/
theorem Medium.serve_write {n : Nat} (content : Content) (offset : Nat) (data : Bytes n) :
    (memory.serve (.write offset data.toByteArray) content).2 = content ∨
      (memory.serve (.write offset data.toByteArray) content).2 = content.write offset data := by
  simp only [serve, write]
  split
  · exact .inl rfl
  · exact .inr (content.write_toByteArray offset data)

end Storage

theorem Progress.of_write {n position : Nat} {data : Bytes n}
    (h : Progress footer table content (content.write position data)) :
    Progress footer table content
      (Medium.memory.serve (.write position data.toByteArray) content).2 := by
  obtain hsame | hwritten := Medium.serve_write content position data
  · rw [hsame]
    exact .refl _
  · rw [hwritten]
    exact h

namespace Arranged

variable {map : BlockMap} {current : Content} {block start : Nat}

theorem progress_withEntry (h : Arranged footer map content) {wanted : Nat → Prop}
    (missing : Missing wanted map.table block)
    (extended : Extended map.header content start current) (recordable : start < 2 ^ 32 - 1) :
    Progress footer map.table current (current.withEntry map.table block start) := by
  have hextended := h.extended extended
  have hdisk := hextended.onDisk
  have hafter := hdisk.table_after
  have hrecorded : (map.table.withEntry block (UInt32.ofNat start)).Recorded
      (current.withEntry map.table block start) := hdisk.recorded.withEntry _
  have hvacant : map.table.storedEntry current block = BlockTable.unallocated := by
    have hentry := BlockTable.entry_eq_unallocated missing.inside missing.vacant
    rw [hdisk.recorded block missing.inside, Option.some.injEq] at hentry
    exact hentry
  have hsame : ∀ other, other ≠ block →
      map.table.storedEntry (current.withEntry map.table block start) other =
        map.table.storedEntry current other := by
    intro other hne
    have hread := current.read_write_of_disjoint (Bytes.ofNumber 4 (UInt32.ofNat start).toNat)
      (show map.table.offset + other * 4 + 4 ≤ map.table.offset + block * 4 ∨
        map.table.offset + block * 4 + 4 ≤ map.table.offset + other * 4 by omega)
    rw [BlockTable.storedEntry, Content.withEntry, hread, BlockTable.storedEntry]
  have hnew : map.table.storedEntry (current.withEntry map.table block start) block =
      UInt32.ofNat start := by
    have hblock : block < map.table.entries.size := missing.inside
    have hentry := hrecorded block (by
      rw [BlockTable.withEntry_size]
      exact missing.inside)
    rw [BlockTable.withEntry, Array.getElem?_setIfInBounds_self_of_lt hblock,
      Option.some.injEq] at hentry
    exact hentry.symm
  refine ⟨⟨?_, ?_, ?_, ?_⟩, ?_⟩
  · exact (current.agreeOn_withEntry missing.inside (.inr (by omega))).read_eq
  · exact (current.agreeOn_withEntry missing.inside hdisk.table_apart).read_eq
  · intro other hother recorded
    refine hsame other ?_
    rintro rfl
    exact recorded hvacant
  · intro other one hother hone vacant recorded present
    obtain rfl : other = block := by
      by_cases heq : other = block
      · exact heq
      · rw [hsame other heq] at recorded
        exact absurd vacant recorded
    have hne : one ≠ other := by
      rintro rfl
      exact present hvacant
    have hplace : map.table.place? one = some (map.table.storedEntry current one).toNat := by
      rw [hdisk.recorded.place?_eq hone, if_neg present]
    have hroom := h.region_room one _ hplace
    have hstart := extended.front_le
    have hback := content.size_le_front
    have hfiller := map.header.regionSectors_le_allocationBytes
    rw [hnew, UInt32.lt_iff_toNat_lt, UInt32.toNat_ofNat', Nat.mod_eq_of_lt (by omega)]
    omega
  · intro other hother vacant recorded
    rw [hdisk.tail_withEntry missing.inside, (current.agreeOn_withEntry missing.inside
      (.inr (by omega))).read_eq, hdisk.copy_eq.1]
    exact extended.tail_eq.trans h.trailer_eq

theorem progress_region (h : Arranged footer map content)
    (place : map.table.place? block = some start) {position n : Nat}
    (hstart : start * 512 ≤ position)
    (hend : position + n ≤ start * 512 + map.header.regionSectors * 512) (data : Bytes n) :
    Progress footer map.table content (content.write position data) :=
  .write ((h.onDisk.region_clear block start place).mono hstart hend) data

/-- Whatever an operation asks for is progress, as long as the storage is not too large. -/
theorem progress (h : Arranged footer map content) {wanted : Nat → Prop} {request : Request}
    (asked : Asked wanted map content current request) (small : content.size < sizeLimit)
    (small' : (Medium.memory.serve request current).2.size < sizeLimit) :
    Progress footer map.table current (Medium.memory.serve request current).2 := by
  cases asked with
  | loadBitmap asked place => exact .refl _
  | readData asked place inside => exact .refl _
  | storeBitmap cached place =>
    have hprogress := h.progress_region place (Nat.le_refl _) (by
      rw [h.wellSized.size_bytes, BlockHeader.regionSectors_eq]
      omega) (Bytes.ofByteArray map.bitmap.bytes)
    exact hprogress.of_write
  | @writeData block start i bytes asked place inside =>
    obtain ⟨hstart, hend⟩ := map.dataPlace_in_region start inside (Nat.le_refl 512)
    exact .of_write (h.progress_region place hstart hend bytes)
  | measure missing => exact .refl _
  | findFooter missing => exact .refl _
  | @zeros block n m zeros current missing zeroed zero =>
    exact .of_write (.write (h.clear_behind (Nat.le_add_right _ n) m) zeros)
  | @trailer block start n current missing zeroed extended =>
    have hbehind := Nat.le_trans extended.front_le
      (Nat.le_add_right (start * 512) map.header.allocationBytes)
    exact .of_write (.write (h.clear_behind hbehind 512) content.trailer)
  | @record block start current missing extended =>
    have hstart := h.start_eq extended
    have hfront := content.front_le
    rw [sizeLimit] at small
    exact .of_write (h.progress_withEntry missing extended (by omega))
  | @stray block start i current bytes missing extended far inside =>
    obtain hsame | hwritten := Medium.serve_write (current.withEntry map.table block start)
      (map.dataPlace start i) bytes
    · rw [hsame]
      exact .refl _
    · have hplace := (map.dataPlace_in_region start inside (Nat.le_refl 512)).1
      have hsize :=
        (current.withEntry map.table block start).size_write (map.dataPlace start i) bytes
      rw [hwritten, sizeLimit] at small'
      omega
  | sync => exact .refl _

end Arranged

end VirtualDisk
