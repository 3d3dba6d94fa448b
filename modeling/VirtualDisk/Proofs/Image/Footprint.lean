import VirtualDisk.Proofs.Blocks.Tidy
import VirtualDisk.Proofs.Image.Appending
import VirtualDisk.Proofs.Image.Splitting

/-!
# Writing to images that others made

An image that comes from elsewhere may be laid out in many ways. If it is opened, if its header, its
table and its blocks are apart from one another, and if a footer is at the end, a write changes
nothing but what it has to: the sectors that are written, their bits, and the entries of the blocks
that are missing. These are appended where the footer was, and the footer is at the end again.
-/

namespace VirtualDisk

open Storage

variable {ι : Type}

theorem Consistent.partsApart {footer : Footer} {map : BlockMap} {content : Content}
    (h : Consistent footer map content) (isSealed : Sealed footer content) :
    PartsApart footer.dataOffset.toNat map.header map.table content where
  aligned := h.aligned
  tail := by
    rw [isSealed, ← h.onDisk.copy_eq.1]
    exact ⟨footer, h.onDisk.footer_copy⟩
  header_room := h.onDisk.header_room
  table_room := h.onDisk.table_room
  region_room := h.onDisk.region_room
  header_table := h.onDisk.table_apart.symm
  header_region block start place := (h.onDisk.region_clear block start place).header.symm
  table_region block start place := (h.onDisk.region_clear block start place).table.symm
  regions_apart := h.onDisk.regions_apart

theorem BlockMap.Twin.wellSized {map map' : BlockMap} {content : Content}
    (h : map.Twin map' content) (hmap : WellSized map) : WellSized map' := by
  have hbitmap : WellSized { map with bitmap := map'.bitmap } := by
    refine hmap.withBitmap h.size_eq fun block cached => ?_
    have hlt := BitmapCache.lt_size_of_stored (h.exact'.stored block cached)
    rwa [h.table_eq] at hlt
  have heq : { map with bitmap := map'.bitmap } = map' := by
    rw [← h.header_eq, ← h.table_eq]
  exact heq ▸ hbitmap

namespace Image

/-- An image with blocks that was opened on a storage where nothing overlaps. The cache has nothing
but what is stored. -/
structure WellFormed (image : Image ι) (map : BlockMap) (content : Content) : Prop where
  opened : ∃ (disk : ι) (readOnly : Bool) (opened : Image ι),
    (ofDisk disk readOnly).runOn sole content = (.ok opened, content) ∧
      opened.Twin image content
  blocks : image.blocks? = some map
  apart : PartsApart image.footer.dataOffset.toNat map.header map.table content

/-- The blocks of a request that are not allocated. -/
def missing (image : Image ι) (map : BlockMap) (offset count : Nat) : Finset Nat :=
  ((Finset.range (image.transfer offset count)).image fun k =>
    (offset + k) / map.header.sectorsPerBlock).filter fun block => map.table.place? block = none

variable {image image' : Image ι} {map : BlockMap} {content content' : Content}
variable {offset count : Nat}

theorem mem_missing {block : Nat} : block ∈ image.missing map offset count ↔
    Lacks map.header map.table
      (fun sector => offset ≤ sector ∧ sector < offset + image.transfer offset count) block := by
  rw [missing, Finset.mem_filter, Finset.mem_image, Lacks, and_comm]
  refine and_congr_right fun _ => ⟨?_, ?_⟩
  · rintro ⟨k, hk, rfl⟩
    have hlt := Finset.mem_range.mp hk
    exact ⟨offset + k, ⟨Nat.le_add_right .., by omega⟩, rfl⟩
  · rintro ⟨sector, ⟨hle, hlt⟩, rfl⟩
    refine ⟨sector - offset, Finset.mem_range.mpr (by omega), ?_⟩
    rw [Nat.add_sub_of_le hle]

/-- The map can be worked with, and the bitmap that is cached is the right one. -/
theorem WellFormed.wellSized (h : image.WellFormed map content) (hsize : content.size < 2 ^ 64) :
    WellSized map ∧ map.Exact content := by
  obtain ⟨disk, readOnly, opened, run, twin⟩ := h.opened
  obtain ⟨-, hopened⟩ := openedAs_of_ofDisk hsize run
  obtain ⟨found, hfound⟩ : ∃ found, opened.blocks? = some found := by
    rw [exists_blocks_iff, ← twin.diskType_eq, ← exists_blocks_iff]
    exact ⟨map, h.blocks⟩
  obtain ⟨map', hmap', htwin⟩ := twin.blocks found hfound
  obtain rfl := Option.some.inj (h.blocks.symm.trans hmap')
  exact ⟨htwin.wellSized (hopened.covering found hfound).1, htwin.exact'⟩

/-- A write to a well-formed image leaves no more than its footprint, and appends each block that is
missing once, at the price of its region and of five sectors. What it leaves is in order again. -/
theorem writes_leave_footprint {buffer : ByteArray} {truncated : Nat}
    (h : image.WellFormed map content)
    (run : (writeBlocks offset count buffer).runOn sole image content =
      ((.ok truncated, image'), content')) (small : content'.size < sizeLimit) :
    ∃ map', image' = image.withBlocks map' ∧ map'.header = map.header ∧ map'.Exact content' ∧
      PartsApart image.footer.dataOffset.toNat map.header map'.table content' ∧
      content'.size = content.size + (image.missing map offset count).card *
        ((map.header.bitmapSectors + map.header.sectorsPerBlock + 5) * 512) ∧
      Footprint map.header
        (fun sector => offset ≤ sector ∧ sector < offset + image.transfer offset count)
        map.table content map'.table content' := by
  have hle := (grows_writeBlocks offset count buffer).size_le_of_run run
  have hsize : content.size < 2 ^ 64 :=
    Nat.lt_of_le_of_lt hle (Nat.lt_trans small (by decide))
  obtain ⟨hsized, hexact⟩ := h.wellSized hsize
  obtain ⟨-, -, map', rfl, hwrite⟩ := of_runOn_writeBlocks h.blocks run
  obtain ⟨htidy', hexact', hheader, hfootprint⟩ :=
    (BlockMap.Tidy.of_exact hsized hexact h.apart).of_write hwrite small
  have hapart := htidy'.partsApart
  rw [BlockMap.flushed_of_clean hexact'.clean, hheader] at hapart
  rw [BlockMap.flushed_of_clean hexact.clean] at hfootprint
  obtain ⟨missing, hmissing, hgrowth⟩ := hfootprint.growth
  obtain rfl : missing = image.missing map offset count := by
    ext block
    rw [hmissing, mem_missing]
  exact ⟨map', rfl, hheader, hexact', hapart, hgrowth, hfootprint⟩

/-- A write over the last sectors of a block that is stored and the first ones of a block that is
missing. -/
theorem writes_leave_footprint_small : ∃ (image image' : Image Unit) (map map' : BlockMap)
    (content content' : Content) (truncated : Nat), image.WellFormed map content ∧
      (writeBlocks 6 4 (Bytes.replicate 2048 0x5a).toByteArray).runOn sole image content =
        ((.ok truncated, image'), content') ∧
      content'.size < sizeLimit ∧ image.missing map 6 4 = {1} ∧
      content'.size = content.size + 7168 ∧
      Footprint map.header (fun sector => 6 ≤ sector ∧ sector < 10) map.table content map'.table
        content' := by
  obtain ⟨⟨_, footer, _, _⟩, _, content, map, _, -, -, -, h⟩ := exists_halfWritten
  have hdisk := h.sealedWithRoom.consistent.onDisk
  have hblocks := blocks?_opened () h.kind map.header map.table false
  have hsize := h.sealedWithRoom_fresh.size_lt
  have hopen := runOn_ofDisk () hdisk h.kind hsize false
  have hwell : (opened () footer map.header map.table false).WellFormed
      (.fresh map.header map.table) content :=
    ⟨⟨(), false, _, hopen, (openedAs_of_ofDisk hsize hopen).2.exact.twin⟩, hblocks,
      h.sealedWithRoom.consistent.partsApart h.sealedWithRoom.isSealed⟩
  have hholds : Buffer.Holds (Bytes.replicate 2048 0x5a).toByteArray.size 4 :=
    ⟨by decide, Nat.le_of_eq (Bytes.size_toByteArray _).symm⟩
  obtain ⟨truncated, map', content', hwrite, -, hadvance⟩ :=
    exists_writeBlocks hblocks h.sealedWithRoom_fresh 6 hholds
  have hsmall := h.size_lt_of_advance hadvance
  have htransfer : (opened () footer map.header map.table false).transfer 6 4 = 4 := by
    change min 4 (footer.geometry.totalSectors - 6) = 4
    rw [h.totalSectors_eq]
    rfl
  have hmissing : (opened () footer map.header map.table false).missing
      (.fresh map.header map.table) 6 4 = {1} := by
    have hrange : ((Finset.range 4).image fun k => (6 + k) / 8) = {0, 1} := by decide
    have hfirst : map.table.place? 0 ≠ none := Option.isSome_iff_ne_none.mp h.first
    rw [missing, htransfer]
    change (((Finset.range 4).image fun k => (6 + k) / map.header.sectorsPerBlock).filter
      fun block => map.table.place? block = none) = {1}
    rw [h.sectors_eq, hrange, Finset.filter_insert, if_neg hfirst, Finset.filter_singleton,
      if_pos h.second]
  obtain ⟨map'', -, -, -, -, hgrowth, hfootprint⟩ := writes_leave_footprint hwell hwrite hsmall
  rw [hmissing, Finset.card_singleton, Nat.one_mul] at hgrowth
  rw [htransfer] at hfootprint
  refine ⟨_, _, _, map'', content, content', truncated, hwell, hwrite, hsmall, hmissing, ?_,
    hfootprint⟩
  rw [hgrowth]
  change content.size + (map.header.bitmapSectors + map.header.sectorsPerBlock + 5) * 512 = _
  rw [BlockHeader.bitmapSectors, h.sectors_eq]

end Image

end VirtualDisk
