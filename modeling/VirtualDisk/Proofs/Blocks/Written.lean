import VirtualDisk.Proofs.Storage.Buffers
import VirtualDisk.Proofs.Blocks.Steps

/-!
# Storing a sector of data

The bytes of a sector go into the region of its block, behind the bitmap. No bit that is stored
changes with them, and no other sector does. Afterwards the bit of the sector is set in the cached
bitmap, and the image holds the new bytes.
-/

namespace VirtualDisk

open Storage

/-- Position of a sector of data in the block that is stored at `start`. -/
def BlockMap.dataPlace (map : BlockMap) (start i : Nat) : Nat :=
  (start + map.header.bitmapSectors + i) * 512

variable {footer : Footer} {map : BlockMap} {content : Content} {block start i m : Nat}

theorem BlockMap.dataPlace_eq (map : BlockMap) (start i : Nat) :
    map.dataPlace start i = start * 512 + map.header.bitmapSectors * 512 + i * 512 := by
  rw [dataPlace, Nat.add_mul, Nat.add_mul]

theorem BlockMap.dataPlace_in_region (map : BlockMap) (start : Nat)
    (hi : i < map.header.sectorsPerBlock) (hm : m ≤ 512) :
    start * 512 ≤ map.dataPlace start i ∧
      map.dataPlace start i + m ≤ start * 512 + map.header.regionSectors * 512 := by
  rw [dataPlace_eq, BlockHeader.regionSectors_eq, Nat.add_mul]
  omega

theorem BlockMap.dataPlace_lt_of_lt (hstart : start < 2 ^ 32)
    (hi : i < map.header.sectorsPerBlock) : map.dataPlace start i + 512 < 2 ^ 64 := by
  have hbitmap := map.header.bitmapSectors_lt
  have hblock := map.header.sectorsPerBlock_lt
  rw [dataPlace]
  omega

theorem BlockMap.dataPosition_of_lt (hstart : start < 2 ^ 32)
    (hi : i < map.header.sectorsPerBlock) :
    map.dataPosition start i = .ok (map.dataPlace start i) := by
  have hlt := dataPlace_lt_of_lt hstart hi
  rw [dataPosition, dataPlace]
  exact Sector.position_eq (Nat.lt_of_le_of_lt (Nat.le_add_right _ _) hlt)

namespace OnDisk

theorem storedBit_write_data (h : OnDisk footer map.header map.table content)
    (place : map.table.place? block = some start) (hi : i < map.header.sectorsPerBlock)
    (hm : m ≤ 512) (part : Bytes m) (other : Nat) {j : Nat} (hj : j < map.header.sectorsPerBlock) :
    map.storedBit (content.write (map.dataPlace start i) part) other j =
      map.storedBit content other j := by
  obtain ⟨hstart, hend⟩ := map.dataPlace_in_region start hi hm
  by_cases hother : other = block
  · subst hother
    have hlt := BlockHeader.div_lt_bitmapSectors hj
    rw [BlockMap.storedBit_of_place place, BlockMap.storedBit_of_place place]
    refine Content.bit_of_agree (content.agreeOn_write part (.inl ?_)) hlt
    rw [BlockMap.dataPlace_eq]
    exact Nat.le_add_right _ _
  · exact BlockMap.storedBit_congr hj rfl fun start' place' =>
      h.sameRegion_write place hstart hend part hother place'

theorem data_write_data_of_ne (h : OnDisk footer map.header map.table content)
    (place : map.table.place? block = some start) (hi : i < map.header.sectorsPerBlock)
    (hm : m ≤ 512) (part : Bytes m) {other j : Nat} (hj : j < map.header.sectorsPerBlock)
    (allocated : (map.table.place? other).isSome) (hne : other = block → j ≠ i) :
    map.data (content.write (map.dataPlace start i) part) other j = map.data content other j := by
  obtain ⟨hstart, hend⟩ := map.dataPlace_in_region start hi hm
  by_cases hother : other = block
  · have hne := hne hother
    subst hother
    rw [BlockMap.data_of_place place, BlockMap.data_of_place place]
    refine Content.read_write_of_disjoint content part ?_
    rw [BlockMap.dataPlace]
    omega
  · exact BlockMap.data_congr hj rfl rfl
      (fun start' place' => h.sameRegion_write place hstart hend part hother place') allocated

end OnDisk

theorem BlockMap.data_write_data (place : map.table.place? block = some start) (content : Content)
    (i : Nat) (bytes : Sector) :
    map.data (content.write (map.dataPlace start i) bytes) block i = bytes := by
  rw [data_of_place place]
  exact Content.read_write_same content _ bytes

variable {sector : Nat} {bitmap : BitmapCache}

theorem OnDisk.stored_write_data_of_ne (h : OnDisk footer map.header map.table content)
    (place : map.table.place? (sector / map.header.sectorsPerBlock) = some start) (hm : m ≤ 512)
    (part : Bytes m) {other : Nat} (hne : other ≠ sector) :
    map.stored (content.write (map.dataPlace start (sector % map.header.sectorsPerBlock)) part)
      other =
      map.stored content other := by
  have hi := Nat.mod_lt sector h.fits.sectors_pos
  have hj := Nat.mod_lt other h.fits.sectors_pos
  apply BlockMap.present_congr (h.storedBit_write_data place hi hm part _ hj)
  intro hset
  apply h.data_write_data_of_ne place hi hm part hj (BlockMap.isSome_place_of_storedBit hset)
  intro hdiv hmod
  exact hne (BlockMap.eq_of_div_of_mod hdiv hmod)

/-- A sector whose bit is not stored is not stored by its bytes. -/
theorem OnDisk.stored_write_data_of_unset (h : OnDisk footer map.header map.table content)
    (place : map.table.place? (sector / map.header.sectorsPerBlock) = some start) (hm : m ≤ 512)
    (part : Bytes m) (unset : map.storedBit content (sector / map.header.sectorsPerBlock)
      (sector % map.header.sectorsPerBlock) = false) :
    map.stored (content.write (map.dataPlace start (sector % map.header.sectorsPerBlock)) part)
      sector = map.stored content sector := by
  have hi := Nat.mod_lt sector h.fits.sectors_pos
  apply BlockMap.present_congr (h.storedBit_write_data place hi hm part _ hi)
  intro hset
  exact absurd (unset.symm.trans hset) Bool.false_ne_true

section Setting

variable (h : Consistent footer map content)
variable (cached : map.bitmap.block = some (sector / map.header.sectorsPerBlock))
variable (place : map.table.place? (sector / map.header.sectorsPerBlock) = some start)
variable (hset : BitmapCache.HasSet (sector % map.header.sectorsPerBlock) map.bitmap bitmap)
variable (bytes : Sector)
include h cached place hset

/-- The bit that was set is one of the cached bitmap, which still goes with the storage. -/
theorem Coherent.write_data : Coherent { map with bitmap }
    (content.write (map.dataPlace start (sector % map.header.sectorsPerBlock)) bytes) := by
  have hi := Nat.mod_lt sector h.onDisk.fits.sectors_pos
  have hbit := fun other j (hj : j < map.header.sectorsPerBlock) =>
    h.onDisk.storedBit_write_data place hi (Nat.le_refl 512) bytes other hj
  refine ⟨hset.size_bytes.trans h.coherent.size_bytes, fun other hother => ?_,
    fun other j hother hj hstored => ?_, fun hclean other j hother hj htest => ?_, fun _ => ?_⟩
  · exact h.coherent.block_lt other (hset.block.symm.trans hother)
  · have hold : map.storedBit content other j = true := (hbit other j hj).symm.trans hstored
    have htest := h.coherent.test_of_stored other j (hset.block.symm.trans hother) hj hold
    by_cases hj' : j = sector % map.header.sectorsPerBlock
    · rw [hj']
      exact hset.test_self
    · exact (hset.test_of_ne j hj').trans htest
  · obtain rfl := hset.clean hclean
    exact (hbit other j hj).trans (h.coherent.stored_of_test hclean other j hother hj htest)
  · exact ⟨_, start, hset.block.trans cached, place⟩

omit h in
theorem BlockMap.held_write_data : BlockMap.held { map with bitmap }
    (content.write (map.dataPlace start (sector % map.header.sectorsPerBlock)) bytes) sector =
      some bytes := by
  have hcached : bitmap.block = some (sector / map.header.sectorsPerBlock) :=
    hset.block.trans cached
  refine BlockMap.present_eq_some.mpr ⟨?_, BlockMap.data_write_data place content _ bytes⟩
  rw [BlockMap.heldBit_of_cached (by exact hcached)]
  exact hset.test_self

theorem Consistent.held_write_data_of_ne {other : Nat} (hne : other ≠ sector) :
    BlockMap.held { map with bitmap }
      (content.write (map.dataPlace start (sector % map.header.sectorsPerBlock)) bytes) other =
        map.held content other := by
  have hi := Nat.mod_lt sector h.onDisk.fits.sectors_pos
  have hj := Nat.mod_lt other h.onDisk.fits.sectors_pos
  have hmod : other / map.header.sectorsPerBlock = sector / map.header.sectorsPerBlock →
      other % map.header.sectorsPerBlock ≠ sector % map.header.sectorsPerBlock :=
    fun hdiv hmod => hne (BlockMap.eq_of_div_of_mod hdiv hmod)
  refine BlockMap.present_congr ?_ fun hheld => h.onDisk.data_write_data_of_ne place hi
    (Nat.le_refl 512) bytes hj (h.coherent.isSome_place_of_heldBit hj hheld) hmod
  by_cases hblock : other / map.header.sectorsPerBlock = sector / map.header.sectorsPerBlock
  · rw [← hblock] at cached
    have hcached : bitmap.block = some (other / map.header.sectorsPerBlock) :=
      hset.block.trans cached
    rw [BlockMap.heldBit_of_cached cached]
    exact (BlockMap.heldBit_of_cached (by exact hcached) _).trans (hset.test_of_ne _ (hmod hblock))
  · have hother : map.bitmap.block ≠ some (other / map.header.sectorsPerBlock) := by
      rw [cached]
      exact fun heq => hblock (Option.some.inj heq).symm
    have hother' : bitmap.block ≠ some (other / map.header.sectorsPerBlock) :=
      fun heq => hother (hset.block.symm.trans heq)
    rw [BlockMap.heldBit_of_ne hother]
    exact (BlockMap.heldBit_of_ne (by exact hother') _).trans
      (h.onDisk.storedBit_write_data place hi (Nat.le_refl 512) bytes _ hj)

/-- Storing a sector of data and setting its bit gives the sector its bytes, and no other sector. -/
theorem Consistent.write_data :
    Advance footer (fun other other' => other = sector ∧ other' = bytes) map content
        { map with bitmap }
        (content.write (map.dataPlace start (sector % map.header.sectorsPerBlock)) bytes) := by
  have hi := Nat.mod_lt sector h.onDisk.fits.sectors_pos
  obtain ⟨hstart, hend⟩ := map.dataPlace_in_region start hi (Nat.le_refl 512)
  have hsize := h.onDisk.size_write_region place hend bytes
  refine ⟨⟨⟨h.onDisk.write_region place hstart hend bytes, ?_,
    .write_data h cached place hset bytes⟩,
    rfl, fun other => ?_, fun other => ?_⟩,
    .of_eq rfl hsize (h.onDisk.tail_write_region place hend bytes)⟩
  · rw [hsize]
    exact h.aligned
  · by_cases hother : other = sector
    · subst hother
      exact .inr ⟨bytes, ⟨rfl, rfl⟩, BlockMap.held_write_data cached place hset bytes⟩
    · exact .inl (h.held_write_data_of_ne cached place hset bytes hother)
  · by_cases hother : other = sector
    · subst hother
      cases hold : map.storedBit content (other / map.header.sectorsPerBlock)
          (other % map.header.sectorsPerBlock) with
      | true =>
        have hstored := (h.onDisk.storedBit_write_data place hi (Nat.le_refl 512) bytes _ hi).trans
          hold
        exact .inr (.inr ⟨bytes, ⟨rfl, rfl⟩, BlockMap.present_eq_some.mpr
          ⟨hstored, BlockMap.data_write_data place content _ bytes⟩⟩)
      | false => exact .inl (h.onDisk.stored_write_data_of_unset place (Nat.le_refl 512) bytes hold)
    · exact .inl (h.onDisk.stored_write_data_of_ne place (Nat.le_refl 512) bytes hother)

end Setting

end VirtualDisk
