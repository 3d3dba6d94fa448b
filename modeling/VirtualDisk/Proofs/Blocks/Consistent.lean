import VirtualDisk.Proofs.Blocks.View

/-!
# Consistent images with blocks

`OnDisk` says what the storage of an image with blocks has to look like for the image to be opened
again: the copy of the footer, the header and the table are where they belong, no region of a block
touches them or another region or the last sector, and the last sector is the footer or is
recognisably none. A change of the storage that spares copy, header and table keeps all of this, so
writes inside a region and whatever is appended keep it.

`Coherent` relates the cached bitmap to the storage: every stored bit is also cached, and a bitmap
without changes is the stored one.
-/

namespace VirtualDisk

open Storage

/-- Ranges without a byte in common. -/
def Apart (start size start' size' : Nat) : Prop :=
  start + size ≤ start' ∨ start' + size' ≤ start

theorem Apart.symm {start size start' size' : Nat} (h : Apart start size start' size') :
    Apart start' size' start size :=
  Or.symm h

/-- Header and table are ones that an image with this footer can be opened with. -/
structure Fits (footer : Footer) (header : BlockHeader) (table : BlockTable) : Prop where
  position_aligned : footer.dataOffset.toNat % 512 = 0
  position_fits : footer.dataOffset.toNat + 1024 < 2 ^ 64
  sectors_pos : 0 < header.sectorsPerBlock
  offset_eq : table.offset = header.tableOffset.toNat
  size_eq : table.size =
    (footer.currentSize.toNat + header.blockSize.toNat - 1) / header.blockSize.toNat
  size_le : table.size ≤ header.maxTableEntries.toNat
  bytes_le : table.size * 4 ≤ BlockTable.maxBytes
  table_fits : table.offset + table.size * 4 < 2 ^ 64
  bitmap_le : header.bitmapSectors * 512 ≤ BitmapCache.maxBytes
  covered : footer.geometry.totalSectors ≤ table.size * header.sectorsPerBlock

/-- A range that has no byte of the copy of the footer, of the header and of the table. -/
structure Clear (footer : Footer) (table : BlockTable) (position size : Nat) : Prop where
  copy : 512 ≤ position
  header : Apart position size footer.dataOffset.toNat 1024
  table : Apart position size table.offset (table.size * 4)

theorem Clear.mono {footer : Footer} {table : BlockTable} {position size position' size' : Nat}
    (h : Clear footer table position size) (hstart : position ≤ position')
    (hend : position' + size' ≤ position + size) : Clear footer table position' size' where
  copy := Nat.le_trans h.copy hstart
  header := by
    obtain hbefore | hbehind := h.header
    · exact .inl (Nat.le_trans hend hbefore)
    · exact .inr (Nat.le_trans hbehind hstart)
  table := by
    obtain hbefore | hbehind := h.table
    · exact .inl (Nat.le_trans hend hbefore)
    · exact .inr (Nat.le_trans hbehind hstart)

/-- The last sector of the content is the footer, or no footer is found there. -/
def NoForeignFooter (footer : Footer) (content : Content) : Prop :=
  content.tail = footer.raw ∨ ∃ e, Footer.parse content.tail = .error e

/-- The storage of an image with blocks. -/
structure OnDisk (footer : Footer) (header : BlockHeader) (table : BlockTable) (content : Content) :
    Prop where
  fits : Fits footer header table
  footer_copy : Footer.parse (content.read 0 512) = .ok footer
  header_bytes : BlockHeader.parse (content.read footer.dataOffset.toNat 1024) = .ok header
  recorded : table.Recorded content
  copy_room : 1024 ≤ content.size
  header_room : footer.dataOffset.toNat + 1536 ≤ content.size
  table_room : table.offset + table.size * 4 + 512 ≤ content.size
  table_after : 512 ≤ table.offset
  table_apart : Apart table.offset (table.size * 4) footer.dataOffset.toNat 1024
  region_clear : ∀ block start, table.place? block = some start →
    Clear footer table (start * 512) (header.regionSectors * 512)
  region_room : ∀ block start, table.place? block = some start →
    start * 512 + header.regionSectors * 512 + 512 ≤ content.size
  regions_apart : ∀ block other start start', block ≠ other →
    table.place? block = some start → table.place? other = some start' →
      Apart (start * 512) (header.regionSectors * 512) (start' * 512) (header.regionSectors * 512)
  tail : NoForeignFooter footer content

/-- The last sector of the content is the footer. -/
def Sealed (footer : Footer) (content : Content) : Prop := content.tail = footer.raw

variable {footer : Footer} {header : BlockHeader} {table : BlockTable} {content content' : Content}

namespace OnDisk

/-- Only copy, header, entries and the last sector matter. -/
theorem of_recorded (h : OnDisk footer header table content)
    (copy : content.AgreeOn content' 0 512)
    (header_agree : content.AgreeOn content' footer.dataOffset.toNat 1024)
    (recorded : table.Recorded content') (size_le : content.size ≤ content'.size)
    (tail : NoForeignFooter footer content') : OnDisk footer header table content' where
  fits := h.fits
  footer_copy := by rw [copy.read_eq]; exact h.footer_copy
  header_bytes := by rw [header_agree.read_eq]; exact h.header_bytes
  recorded := recorded
  copy_room := Nat.le_trans h.copy_room size_le
  header_room := Nat.le_trans h.header_room size_le
  table_room := Nat.le_trans h.table_room size_le
  table_after := h.table_after
  table_apart := h.table_apart
  region_clear := h.region_clear
  region_room block start hplace := Nat.le_trans (h.region_room block start hplace) size_le
  regions_apart := h.regions_apart
  tail := tail

theorem of_agree (h : OnDisk footer header table content)
    (copy : content.AgreeOn content' 0 512)
    (header_agree : content.AgreeOn content' footer.dataOffset.toNat 1024)
    (table_agree : content.AgreeOn content' table.offset (table.size * 4))
    (size_le : content.size ≤ content'.size) (tail : NoForeignFooter footer content') :
    OnDisk footer header table content' :=
  h.of_recorded copy header_agree (h.recorded.of_agree table_agree) size_le tail

/-- A write behind the copy and apart from header and table leaves an image, if the storage goes on
for a sector behind it. -/
theorem write_clear (h : OnDisk footer header table content) {position n : Nat}
    (clear : Clear footer table position n) (hroom : position + n + 512 ≤ content.size)
    (data : Bytes n) : OnDisk footer header table (content.write position data) := by
  have hsize : (content.write position data).size = content.size := by
    rw [Content.size_write]
    omega
  obtain ⟨hcopy, hheader, htable⟩ := clear
  refine h.of_agree (content.agreeOn_write data (by omega)) (content.agreeOn_write data ?_)
    (content.agreeOn_write data ?_) (Nat.le_of_eq hsize.symm) ?_
  · rcases hheader with hheader | hheader
    · exact .inr hheader
    · exact .inl hheader
  · rcases htable with htable | htable
    · exact .inr htable
    · exact .inl htable
  · have htail : (content.write position data).tail = content.tail := by
      rw [Content.tail, hsize]
      exact Content.read_write_of_disjoint content data (by omega)
    rw [NoForeignFooter, htail]
    exact h.tail

/-- Whatever is done to the last sector and past the end leaves an image, if it leaves no wrong
footer. -/
theorem grown (h : OnDisk footer header table content) (grown : content.Grown content')
    (tail : NoForeignFooter footer content') : OnDisk footer header table content' := by
  have hcopy := h.copy_room
  have hheader := h.header_room
  have htable := h.table_room
  exact h.of_agree (grown.agreeOn (by omega)) (grown.agreeOn (by omega)) (grown.agreeOn (by omega))
    grown.size_le tail

theorem sameRegion_grown (h : OnDisk footer header table content)
    (grown : content.Grown content') {block start : Nat} (place : table.place? block = some start) :
    BlockMap.SameRegion header content content' start :=
  grown.agreeOn (h.region_room block start place)

variable {block start position n : Nat}

theorem size_write_region (h : OnDisk footer header table content)
    (place : table.place? block = some start)
    (hend : position + n ≤ start * 512 + header.regionSectors * 512) (data : Bytes n) :
    (content.write position data).size = content.size := by
  have hroom := h.region_room block start place
  rw [Content.size_write]
  omega

theorem write_region (h : OnDisk footer header table content)
    (place : table.place? block = some start) (hstart : start * 512 ≤ position)
    (hend : position + n ≤ start * 512 + header.regionSectors * 512) (data : Bytes n) :
    OnDisk footer header table (content.write position data) := by
  have hroom := h.region_room block start place
  exact h.write_clear ((h.region_clear block start place).mono hstart hend) (by omega) data

theorem tail_write_region (h : OnDisk footer header table content)
    (place : table.place? block = some start)
    (hend : position + n ≤ start * 512 + header.regionSectors * 512) (data : Bytes n) :
    (content.write position data).tail = content.tail := by
  have hroom := h.region_room block start place
  rw [Content.tail, h.size_write_region place hend data]
  exact Content.read_write_of_disjoint content data (by omega)

theorem sameRegion_write (h : OnDisk footer header table content)
    (place : table.place? block = some start) (hstart : start * 512 ≤ position)
    (hend : position + n ≤ start * 512 + header.regionSectors * 512) (data : Bytes n)
    {other start' : Nat} (hne : other ≠ block) (place' : table.place? other = some start') :
    BlockMap.SameRegion header content (content.write position data) start' := by
  refine content.agreeOn_write data ?_
  rcases h.regions_apart block other start start' hne.symm place place' with hapart | hapart
  · exact .inr (Nat.le_trans hend hapart)
  · exact .inl (Nat.le_trans hapart hstart)

end OnDisk

/-- The cached bitmap goes with the storage. -/
structure Coherent (map : BlockMap) (content : Content) : Prop where
  size_bytes : map.bitmap.bytes.size = map.header.bitmapSectors * 512
  block_lt : ∀ block, map.bitmap.block = some block → block < map.table.size
  test_of_stored : ∀ block i, map.bitmap.block = some block → i < map.header.sectorsPerBlock →
    map.storedBit content block i = true → map.bitmap.test i = true
  stored_of_test : map.bitmap.dirty = false → ∀ block i, map.bitmap.block = some block →
    i < map.header.sectorsPerBlock → map.bitmap.test i = true →
      map.storedBit content block i = true
  allocated : map.bitmap.dirty = true →
    ∃ block start, map.bitmap.block = some block ∧ map.table.place? block = some start

/-- An image with blocks, between any two operations: storage and cache are as they should be, and
the storage ends with a sector. -/
structure Consistent (footer : Footer) (map : BlockMap) (content : Content) : Prop where
  onDisk : OnDisk footer map.header map.table content
  aligned : content.size % 512 = 0
  coherent : Coherent map content

namespace Coherent

variable {map map' : BlockMap} {i block : Nat}

theorem heldBit_eq (h : Coherent map content) (clean : map.bitmap.dirty = false)
    (hi : i < map.header.sectorsPerBlock) :
    map.heldBit content block i = map.storedBit content block i := by
  by_cases hcached : map.bitmap.block = some block
  · rw [BlockMap.heldBit_of_cached hcached, Bool.eq_iff_iff]
    exact ⟨h.stored_of_test clean block i hcached hi, h.test_of_stored block i hcached hi⟩
  · rw [BlockMap.heldBit_of_ne hcached]

/-- With no changes cached, the image holds what its storage holds. -/
theorem held_eq (h : Coherent map content) (clean : map.bitmap.dirty = false)
    (hpos : 0 < map.header.sectorsPerBlock) (sector : Nat) :
    map.held content sector = map.stored content sector := by
  simp only [BlockMap.held, BlockMap.stored, h.heldBit_eq clean (Nat.mod_lt _ hpos)]

theorem isSome_place_of_heldBit (h : Coherent map content) (hi : i < map.header.sectorsPerBlock)
    (hbit : map.heldBit content block i = true) : (map.table.place? block).isSome := by
  by_cases hcached : map.bitmap.block = some block
  · cases hdirty : map.bitmap.dirty with
    | true =>
      obtain ⟨other, start, hother, hplace⟩ := h.allocated hdirty
      rw [hcached, Option.some.injEq] at hother
      rw [hother, hplace]
      rfl
    | false =>
      rw [BlockMap.heldBit_of_cached hcached] at hbit
      exact BlockMap.isSome_place_of_storedBit (h.stored_of_test hdirty block i hcached hi hbit)
  · rw [BlockMap.heldBit_of_ne hcached] at hbit
    exact BlockMap.isSome_place_of_storedBit hbit

theorem held_congr (h : Coherent map content) {sector : Nat} (hpos : 0 < map.header.sectorsPerBlock)
    (bitmap : map'.bitmap = map.bitmap) (header : map'.header = map.header)
    (place : map'.table.place? (sector / map.header.sectorsPerBlock) =
      map.table.place? (sector / map.header.sectorsPerBlock))
    (same : ∀ start, map.table.place? (sector / map.header.sectorsPerBlock) = some start →
      BlockMap.SameRegion map.header content content' start) :
    map'.held content' sector = map.held content sector := by
  have hi := Nat.mod_lt sector hpos
  unfold BlockMap.held
  rw [header]
  refine BlockMap.present_congr ?_ fun hbit =>
    BlockMap.data_congr hi header place same (h.isSome_place_of_heldBit hi hbit)
  unfold BlockMap.heldBit
  rw [bitmap, BlockMap.storedBit_congr hi place same]

/-- The cache goes with the storage if it is of a block that is stored as before. -/
theorem of_sameRegion (h : Coherent map content) (bitmap : map'.bitmap = map.bitmap)
    (header : map'.header = map.header) (size : map'.table.size = map.table.size)
    (place : ∀ block, map.bitmap.block = some block →
      map'.table.place? block = map.table.place? block)
    (same : ∀ block start, map.bitmap.block = some block → map.table.place? block = some start →
      BlockMap.SameRegion map.header content content' start) :
    Coherent map' content' where
  size_bytes := by rw [bitmap, header]; exact h.size_bytes
  block_lt block hblock := by
    rw [bitmap] at hblock
    rw [size]
    exact h.block_lt block hblock
  test_of_stored block i hblock hi hbit := by
    rw [bitmap] at hblock
    rw [header] at hi
    rw [BlockMap.storedBit_congr hi (place block hblock)
      fun start => same block start hblock] at hbit
    rw [bitmap]
    exact h.test_of_stored block i hblock hi hbit
  stored_of_test clean block i hblock hi htest := by
    rw [bitmap] at clean hblock htest
    rw [header] at hi
    rw [BlockMap.storedBit_congr hi (place block hblock) fun start => same block start hblock]
    exact h.stored_of_test clean block i hblock hi htest
  allocated dirty := by
    rw [bitmap] at dirty
    obtain ⟨block, start, hblock, hplace⟩ := h.allocated dirty
    exact ⟨block, start, by rw [bitmap, hblock], by rw [place block hblock, hplace]⟩

end Coherent

end VirtualDisk
