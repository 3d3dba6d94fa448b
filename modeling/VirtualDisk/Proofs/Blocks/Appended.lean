import VirtualDisk.Proofs.Format.Footer
import VirtualDisk.Proofs.Storage.Zeros
import VirtualDisk.Proofs.Blocks.Steps

/-!
# Appending a block

A block is appended in four kinds of writes. Zeros for bitmap, data and filler go where the
storage ends, or over the footer at its end; a footer goes after them; the entry in the table is
written last. `Zeroed` describes the storage while zeros are written and `Appended` what it is
like before the entry is. Up to there the image has not changed. With the entry it has an
allocated block more, and since the region is all zeros, no sector more than before.

In between, the last sector of the storage is never mistaken for a footer: it begins with a zero,
or it is a footer.
-/

namespace VirtualDisk

open Storage

variable {footer : Footer} {header : BlockHeader} {table : BlockTable}
variable {content content' : Content} {position n m : Nat}

/-- Where appending begins, and the footer that is to be appended. -/
structure EndFound (footer : Footer) (content : Content) (position : Nat) (bytes : Sector) :
    Prop where
  size_le : content.size ≤ position + 512
  le_size : position ≤ content.size
  aligned : position % 512 = 0
  own_or_none : bytes = footer.raw ∨ ∃ e, Footer.parse bytes = .error e
  of_sealed : Sealed footer content → position + 512 = content.size ∧ bytes = footer.raw

theorem NoForeignFooter.of_byte (h : content.byte (content.size - 512) = 0) :
    NoForeignFooter footer content := by
  refine .inr (Footer.parse_eq_error ?_)
  rw [Content.tail, Content.getElem_read, Nat.add_zero, h]
  decide

/-- While zeros are written the last sector is no foreign footer, if they come in whole sectors or
begin with the footer at the end. -/
theorem NoForeignFooter.zeroed (h : content.Zeroed content' position n) (hsize : 512 ≤ content.size)
    (hstart : content.size ≤ position + 512) (hend : position ≤ content.size)
    (tail : NoForeignFooter footer content)
    (hn : n = 0 ∨ 512 ≤ n ∨ position + 512 = content.size) : NoForeignFooter footer content' := by
  have hsize' := h.size_eq
  by_cases hzero : n = 0
  · have htail : content'.tail = content.tail := by
      have hkept : content'.size = content.size := by omega
      rw [Content.tail, hkept]
      refine Content.AgreeOn.read_eq fun p _ _ => ?_
      rw [h.byte_eq, if_neg (by omega)]
    rw [NoForeignFooter, htail]
    exact tail
  · refine .of_byte ?_
    rw [h.byte_eq, if_pos (by omega)]

/-- A footer behind at least a sector of zeros leaves no foreign footer at the end, however
much of it is written. -/
theorem NoForeignFooter.footer_begun (h : content.Zeroed content' position n) (hn : 512 ≤ n)
    (hend : content.size ≤ position + n) {bytes : Sector}
    (own_or_none : bytes = footer.raw ∨ ∃ e, Footer.parse bytes = .error e)
    {part : Bytes m} (hm : m ≤ 512) (hpart : ∀ i (hi : i < m), part[i] = bytes[i]) :
    NoForeignFooter footer (content'.write (position + n) part) := by
  have hsize' := h.size_eq
  have hsize : (content'.write (position + n) part).size = position + n + m := by
    rw [Content.size_write]
    omega
  by_cases hwhole : m = 512
  · subst hwhole
    obtain rfl : part = bytes := Bytes.ext hpart
    have htail : (content'.write (position + n) part).tail = part := by
      rw [Content.tail, hsize, Nat.add_sub_cancel]
      exact Content.read_write_same _ _ _
    rw [NoForeignFooter, htail]
    exact own_or_none
  · refine .of_byte ?_
    rw [hsize, Content.byte_write, dif_neg (by omega), h.byte_eq, if_pos (by omega)]

/-- A region was appended for a block that is not recorded in the table yet. -/
structure Appended (footer : Footer) (header : BlockHeader) (content : Content) (start : Nat)
    (content' : Content) : Prop where
  grown : content.Grown content'
  found : ∃ bytes, EndFound footer content (start * 512) bytes
  start_lt : start < 2 ^ 32
  size_eq : content'.size = start * 512 + header.allocationBytes + 512
  zero : ∀ p, start * 512 ≤ p → p < start * 512 + header.regionSectors * 512 → content'.byte p = 0
  tail : NoForeignFooter footer content'
  of_sealed : Sealed footer content →
    Sealed footer content' ∧ content'.size = content.size + header.allocationBytes

namespace BlockHeader

theorem regionSectors_le_allocationBytes (header : BlockHeader) :
    header.regionSectors * 512 + 2560 = header.allocationBytes := by
  unfold allocationBytes BlockMap.fillerSectors
  rw [Nat.add_mul]

theorem allocationBytes_aligned (header : BlockHeader) : header.allocationBytes % 512 = 0 := by
  unfold allocationBytes
  exact Nat.mul_mod_left _ _

theorem allocationBytes_lt (header : BlockHeader) : header.allocationBytes < 2 ^ 34 := by
  have := header.regionSectors_lt
  unfold allocationBytes BlockMap.fillerSectors
  omega

end BlockHeader

theorem Appended.start_ge {start : Nat} (h : Appended footer header content start content') :
    content.size ≤ start * 512 + 512 := by
  obtain ⟨bytes, hfound⟩ := h.found
  exact hfound.size_le

theorem Appended.size_lt {start : Nat} (h : Appended footer header content start content') :
    content'.size < 2 ^ 63 := by
  have hsize := h.size_eq
  have hstart := h.start_lt
  have hbytes := header.allocationBytes_lt
  omega

/-- The map in which a block is stored at a sector. -/
def BlockMap.allocated (map : BlockMap) (block start : Nat) : BlockMap :=
  { map with table := map.table.withEntry block (UInt32.ofNat start) }

section Recorded

variable {map : BlockMap} {block start : Nat}

/-- The content with the entry of a block. -/
def Storage.Content.withEntry (content : Content) (table : BlockTable) (block start : Nat) :
    Content :=
  content.write (table.offset + block * 4) (Bytes.ofNumber 4 (UInt32.ofNat start).toNat)

theorem BlockTable.ofNat_ne_unallocated (h : start < 2 ^ 32 - 1) :
    UInt32.ofNat start ≠ BlockTable.unallocated := by
  intro heq
  have hnat := congrArg UInt32.toNat heq
  rw [UInt32.toNat_ofNat'] at hnat
  change start % 2 ^ 32 = 2 ^ 32 - 1 at hnat
  omega

theorem BlockTable.place?_withEntry_ofNat (hblock : block < table.size) (h : start < 2 ^ 32 - 1) :
    (table.withEntry block (UInt32.ofNat start)).place? block = some start := by
  rw [place?_withEntry_same hblock (ofNat_ne_unallocated h), UInt32.toNat_ofNat',
    Nat.mod_eq_of_lt (by omega)]

theorem Storage.Content.agreeOn_withEntry (content : Content) (hblock : block < table.size)
    {position size : Nat}
    (hapart : Apart table.offset (table.size * 4) position size) :
    content.AgreeOn (content.withEntry table block start) position size := by
  refine content.agreeOn_write _ ?_
  rcases hapart with hapart | hapart
  · exact .inr (by omega)
  · exact .inl (by omega)

theorem OnDisk.size_withEntry (hdisk : OnDisk footer header table content)
    (hblock : block < table.size) (start : Nat) :
    (content.withEntry table block start).size = content.size := by
  have hroom := hdisk.table_room
  rw [Content.withEntry, Content.size_write]
  omega

theorem OnDisk.tail_withEntry (hdisk : OnDisk footer header table content)
    (hblock : block < table.size) (start : Nat) :
    (content.withEntry table block start).tail = content.tail := by
  have hroom := hdisk.table_room
  rw [Content.tail, hdisk.size_withEntry hblock]
  exact (content.agreeOn_withEntry hblock (.inl (by omega))).read_eq

theorem Appended.clear (h : Appended footer header content start content')
    (hdisk : OnDisk footer header table content) (size : Nat) :
    Clear footer table (start * 512) size := by
  have hstart := h.start_ge
  have hcopy := hdisk.copy_room
  have hheader := hdisk.header_room
  have htable := hdisk.table_room
  exact ⟨by omega, .inr (by omega), .inr (by omega)⟩

theorem Appended.byte_withEntry (h : Appended footer header content start content')
    (hdisk : OnDisk footer header table content) (hblock : block < table.size) {p : Nat}
    (hp : start * 512 ≤ p) (hp' : p < start * 512 + header.regionSectors * 512) :
    (content'.withEntry table block start).byte p = 0 := by
  have hclear := (h.clear hdisk (header.regionSectors * 512)).table
  rw [content'.agreeOn_withEntry hblock hclear.symm p hp hp']
  exact h.zero p hp hp'

/-- A place in the new table is that of the new block, or an old place of another block. -/
theorem BlockTable.of_place?_withEntry {other start' : Nat} (hblock : block < table.size)
    (recordable : start < 2 ^ 32 - 1)
    (h : (table.withEntry block (UInt32.ofNat start)).place? other = some start') :
    other = block ∧ start' = start ∨ other ≠ block ∧ table.place? other = some start' := by
  by_cases hne : other = block
  · subst hne
    rw [place?_withEntry_ofNat hblock recordable, Option.some.injEq] at h
    exact .inl ⟨rfl, h.symm⟩
  · rw [place?_withEntry_of_ne hne] at h
    exact .inr ⟨hne, h⟩

theorem Fits.withEntry (h : Fits footer header table) (sector : UInt32) :
    Fits footer header (table.withEntry block sector) := by
  have hsize : (table.withEntry block sector).size = table.size := BlockTable.withEntry_size sector
  exact { h with
    size_eq := hsize.trans h.size_eq
    size_le := by rw [hsize]; exact h.size_le
    bytes_le := by rw [hsize]; exact h.bytes_le
    table_fits := by rw [hsize]; exact h.table_fits
    covered := by rw [hsize]; exact h.covered }

theorem Clear.withEntry {size : Nat} (h : Clear footer table position size) (sector : UInt32) :
    Clear footer (table.withEntry block sector) position size := by
  refine ⟨h.copy, h.header, ?_⟩
  rw [BlockTable.withEntry_size]
  exact h.table

theorem Appended.regions_before (h : Appended footer header content start content')
    (hdisk : OnDisk footer header table content) {other start' : Nat}
    (place : table.place? other = some start') :
    start' * 512 + header.regionSectors * 512 ≤ start * 512 :=
  Nat.le_of_add_le_add_right (Nat.le_trans (hdisk.region_room other start' place) h.start_ge)

/-- With the entry, the storage is that of an image with one block more. -/
theorem Appended.onDisk (h : Appended footer header content start content')
    (hdisk : OnDisk footer header table content) (hblock : block < table.size)
    (recordable : start < 2 ^ 32 - 1) :
    OnDisk footer header (table.withEntry block (UInt32.ofNat start))
      (content'.withEntry table block start) := by
  have hgrown := hdisk.grown h.grown h.tail
  have hsize := hgrown.size_withEntry hblock start
  refine {
    fits := hdisk.fits.withEntry _
    footer_copy := ?_
    header_bytes := ?_
    recorded := hgrown.recorded.withEntry _
    copy_room := by rw [hsize]; exact hgrown.copy_room
    header_room := by rw [hsize]; exact hgrown.header_room
    table_room := by rw [hsize, BlockTable.withEntry_size]; exact hgrown.table_room
    table_after := hdisk.table_after
    table_apart := by rw [BlockTable.withEntry_size]; exact hdisk.table_apart
    region_clear := ?_
    region_room := ?_
    regions_apart := ?_
    tail := by rw [NoForeignFooter, hgrown.tail_withEntry hblock]; exact h.tail }
  · have hcopy := hdisk.table_after
    rw [(content'.agreeOn_withEntry hblock (.inr (by omega))).read_eq]
    exact hgrown.footer_copy
  · rw [(content'.agreeOn_withEntry hblock hdisk.table_apart).read_eq]
    exact hgrown.header_bytes
  · intro other start' place'
    obtain ⟨-, rfl⟩ | ⟨-, hold⟩ := BlockTable.of_place?_withEntry hblock recordable place'
    · exact (h.clear hdisk _).withEntry _
    · exact (hdisk.region_clear other start' hold).withEntry _
  · intro other start' place'
    rw [hsize]
    obtain ⟨-, rfl⟩ | ⟨-, hold⟩ := BlockTable.of_place?_withEntry hblock recordable place'
    · have hregion := header.regionSectors_le_allocationBytes
      have hend := h.size_eq
      omega
    · exact hgrown.region_room other start' hold
  · intro one other start₁ start₂ hne place₁ place₂
    obtain ⟨rfl, rfl⟩ | ⟨-, hold₁⟩ := BlockTable.of_place?_withEntry hblock recordable place₁
    · obtain ⟨rfl, -⟩ | ⟨-, hold₂⟩ := BlockTable.of_place?_withEntry hblock recordable place₂
      · exact absurd rfl hne
      · exact .inr (h.regions_before hdisk hold₂)
    · obtain ⟨rfl, rfl⟩ | ⟨-, hold₂⟩ := BlockTable.of_place?_withEntry hblock recordable place₂
      · exact .inl (h.regions_before hdisk hold₁)
      · exact hdisk.regions_apart one other start₁ start₂ hne hold₁ hold₂

theorem OnDisk.sameRegion_withEntry (hdisk : OnDisk footer header table content)
    (hblock : block < table.size) {other start' : Nat} (place : table.place? other = some start') :
    BlockMap.SameRegion header content (content.withEntry table block start) start' :=
  content.agreeOn_withEntry hblock (hdisk.region_clear other start' place).table.symm

theorem Appended.quiet (h : Appended footer map.header content start content')
    (hmap : Consistent footer map content) : Quiet footer map content map content' := by
  have haligned := map.header.allocationBytes_aligned
  have hsize := h.size_eq
  exact hmap.grown h.grown h.tail (by omega)

/-- No other sector than `2 ^ 32 - 1` is too far behind to be recorded. -/
theorem Appended.entry_eq_unallocated (h : Appended footer header content start content')
    (unrecordable : 2 ^ 32 - 1 ≤ start) : UInt32.ofNat start = BlockTable.unallocated := by
  have hlt := h.start_lt
  obtain rfl : start = 2 ^ 32 - 1 := by omega
  rfl

/-- Sector `2 ^ 32 - 1` has the number that stands for no sector. The entry of a region there leaves
the table as it was. -/
theorem Appended.onDisk_lost (h : Appended footer header content start content')
    (hdisk : OnDisk footer header table content) (hblock : block < table.size)
    (vacant : table.place? block = none) (unrecordable : 2 ^ 32 - 1 ≤ start) :
    OnDisk footer header table (content'.withEntry table block start) := by
  have hgrown := hdisk.grown h.grown h.tail
  have hrecorded : table.Recorded (content'.withEntry table block start) := by
    have hwritten : (table.withEntry block (UInt32.ofNat start)).Recorded
        (content'.withEntry table block start) := hgrown.recorded.withEntry _
    rwa [h.entry_eq_unallocated unrecordable, BlockTable.withEntry_unallocated hblock vacant]
      at hwritten
  have hsize := hgrown.size_withEntry hblock start
  have hcopy := hgrown.table_after
  refine hgrown.of_recorded (content'.agreeOn_withEntry hblock (.inr (by omega)))
    (content'.agreeOn_withEntry hblock hgrown.table_apart) hrecorded (Nat.le_of_eq hsize.symm) ?_
  rw [NoForeignFooter, hgrown.tail_withEntry hblock]
  exact hgrown.tail

theorem Appended.lost (h : Appended footer map.header content start content')
    (hmap : Consistent footer map content) (hblock : block < map.table.size)
    (vacant : map.table.place? block = none) (unrecordable : 2 ^ 32 - 1 ≤ start) :
    Quiet footer map content map (content'.withEntry map.table block start) := by
  have hgrown := h.quiet hmap
  have hdisk := hgrown.consistent.onDisk
  refine hgrown.trans (.of_sameRegion hgrown.consistent
    (h.onDisk_lost hmap.onDisk hblock vacant unrecordable) ?_ ?_)
  · rw [hdisk.size_withEntry hblock start]
    exact hgrown.consistent.aligned
  · intro other start' place'
    exact hdisk.sameRegion_withEntry hblock place'

section Allocated

variable (h : Appended footer map.header content start content')
    (hmap : Consistent footer map content)
variable (hblock : block < map.table.size) (vacant : map.table.place? block = none)
variable (recordable : start < 2 ^ 32 - 1)
include h hmap hblock vacant recordable

/-- The bits of all blocks are stored as before. The region of the new block has none set, and
before the block had no region. -/
theorem Appended.storedBit_allocated {other i : Nat} (hi : i < map.header.sectorsPerBlock) :
    (map.allocated block start).storedBit (content'.withEntry map.table block start) other i =
      map.storedBit content' other i := by
  have hplace : (map.allocated block start).table.place? block = some start :=
    BlockTable.place?_withEntry_ofNat hblock recordable
  by_cases hne : other = block
  · subst hne
    have hlt := BlockHeader.div_lt_bitmapSectors hi
    have hin : start * 512 + i / 8 < start * 512 + map.header.regionSectors * 512 := by
      rw [BlockHeader.regionSectors_eq]
      omega
    rw [BlockMap.storedBit_of_place hplace, BlockMap.storedBit_of_vacant vacant]
    apply Content.bit_eq_false
    exact h.byte_withEntry hmap.onDisk hblock (Nat.le_add_right _ _) hin
  · apply BlockMap.storedBit_congr hi (BlockTable.place?_withEntry_of_ne hne)
    intro start' place'
    exact (h.quiet hmap).consistent.onDisk.sameRegion_withEntry hblock place'

omit recordable in
theorem Appended.data_allocated {other i : Nat} (hi : i < map.header.sectorsPerBlock)
    (hsome : (map.table.place? other).isSome) :
    (map.allocated block start).data (content'.withEntry map.table block start) other i =
      map.data content' other i := by
  have hne : other ≠ block := by
    rintro rfl
    rw [vacant] at hsome
    cases hsome
  refine BlockMap.data_congr hi rfl (BlockTable.place?_withEntry_of_ne hne) ?_ hsome
  intro start' place'
  exact (h.quiet hmap).consistent.onDisk.sameRegion_withEntry hblock place'

theorem Appended.coherent_allocated :
    Coherent (map.allocated block start) (content'.withEntry map.table block start) := by
  have hcoherent := (h.quiet hmap).consistent.coherent
  refine ⟨hcoherent.size_bytes, fun other hcached => ?_, fun other i hcached hi hset => ?_,
    fun hclean other i hcached hi hset => ?_, fun hdirty => ?_⟩
  · exact Nat.lt_of_lt_of_eq (hcoherent.block_lt other hcached) (BlockTable.withEntry_size _).symm
  · rw [h.storedBit_allocated hmap hblock vacant recordable hi] at hset
    exact hcoherent.test_of_stored other i hcached hi hset
  · rw [h.storedBit_allocated hmap hblock vacant recordable hi]
    exact hcoherent.stored_of_test hclean other i hcached hi hset
  · obtain ⟨other, start', hcached, place'⟩ := hcoherent.allocated hdirty
    have hne : other ≠ block := by
      rintro rfl
      rw [vacant] at place'
      cases place'
    exact ⟨other, start', hcached, (BlockTable.place?_withEntry_of_ne hne).trans place'⟩

/-- The entry is a quiet step: none of the sectors of the new block is held. -/
theorem Appended.quiet_allocated : Quiet footer map content' (map.allocated block start)
    (content'.withEntry map.table block start) := by
  have hpos := hmap.onDisk.fits.sectors_pos
  have hconsistent := (h.quiet hmap).consistent
  have hstored : ∀ other i, i < map.header.sectorsPerBlock →
      (map.allocated block start).storedBit (content'.withEntry map.table block start) other i =
        map.storedBit content' other i :=
    fun _ _ hi => h.storedBit_allocated hmap hblock vacant recordable hi
  refine ⟨⟨h.onDisk hmap.onDisk hblock recordable, ?_,
    h.coherent_allocated hmap hblock vacant recordable⟩, rfl, fun sector => .inl ?_,
    fun sector => .inl ?_⟩
  · rw [hconsistent.onDisk.size_withEntry hblock start]
    exact hconsistent.aligned
  · have hi := Nat.mod_lt sector hpos
    refine BlockMap.present_congr ?_ fun hset => h.data_allocated hmap hblock vacant hi
      (hconsistent.coherent.isSome_place_of_heldBit hi hset)
    unfold BlockMap.heldBit
    rw [← hstored _ _ hi]
    rfl
  · have hi := Nat.mod_lt sector hpos
    exact BlockMap.present_congr (hstored _ _ hi) fun hset =>
      h.data_allocated hmap hblock vacant hi (BlockMap.isSome_place_of_storedBit hset)

/-- An allocation takes one of the vacant blocks, and the storage grows by what was appended. -/
theorem Appended.allocate :
    Advance footer (fun _ _ => False) map content (map.allocated block start)
      (content'.withEntry map.table block start) := by
  have hdisk := (h.quiet hmap).consistent.onDisk
  refine ⟨(h.quiet hmap).trans (h.quiet_allocated hmap hblock vacant recordable), fun hsealed => ?_⟩
  obtain ⟨hsealed', hsize'⟩ := h.of_sealed hsealed
  refine ⟨(hdisk.tail_withEntry hblock start).trans hsealed', ?_⟩
  have hvacant : (map.allocated block start).table.vacant + 1 = map.table.vacant :=
    BlockTable.vacant_withEntry hblock vacant (BlockTable.ofNat_ne_unallocated recordable)
  rw [hdisk.size_withEntry hblock start, hsize', ← hvacant, Nat.mul_add, Nat.mul_one]
  omega

end Allocated

end Recorded

end VirtualDisk
