import VirtualDisk.Proofs.Image.Opening

/-!
# Where a sector is

A sector number is a block and a place in the block. As long as blocks have sectors at all, there
is one such pair for each number and one number for each pair; the bitmap of the block has a bit for
the place, and the table has the block if and only if the sector is one of those that it covers.

Headers that are read or made for an image are checked. A header may also be put together by hand,
with blocks that are smaller than a sector. A map is made of it as of any other, but there are no
places in its blocks, and no sector is found.
-/

namespace VirtualDisk

open Storage

namespace BlockHeader

variable {header : BlockHeader}

theorem sectorsPerBlock_pos (large : 512 ≤ header.blockSize.toNat) :
    0 < header.sectorsPerBlock := by
  unfold sectorsPerBlock
  omega

/-- No bitmap is too large for a cache. -/
theorem bitmapSectors_le (header : BlockHeader) :
    header.bitmapSectors * 512 ≤ BitmapCache.maxBytes := by
  have hlt := header.sectorsPerBlock_lt
  unfold bitmapSectors BitmapCache.maxBytes
  omega

end BlockHeader

namespace BlockMap

variable {map : BlockMap} {sector : Nat}

theorem locate_eq_ok (hpos : 0 < map.header.sectorsPerBlock)
    (inside : sector / map.header.sectorsPerBlock < 2 ^ 32) :
    map.locate sector =
      .ok (sector / map.header.sectorsPerBlock, sector % map.header.sectorsPerBlock) := by
  simp only [locate]
  rw [if_neg (Nat.ne_of_gt hpos), if_pos inside]

theorem locate_eq_error (hpos : 0 < map.header.sectorsPerBlock)
    (outside : 2 ^ 32 ≤ sector / map.header.sectorsPerBlock) :
    map.locate sector = .error (.corrupt .blockOutOfRange) := by
  simp only [locate]
  rw [if_neg (Nat.ne_of_gt hpos), if_neg (Nat.not_lt.mpr outside)]

theorem lt_capacity_iff (hpos : 0 < map.header.sectorsPerBlock) :
    sector < map.capacity ↔ sector / map.header.sectorsPerBlock < map.table.size :=
  (Nat.div_lt_iff_lt_mul hpos).symm

/-- The sectors that a table covers are numbered with 64 bits. -/
theorem capacity_lt (few : map.table.size ≤ 2 ^ 32) : map.capacity < 2 ^ 64 := by
  have hlt := map.header.sectorsPerBlock_lt
  calc map.table.size * map.header.sectorsPerBlock
      ≤ 2 ^ 32 * map.header.sectorsPerBlock := Nat.mul_le_mul_right _ few
    _ < 2 ^ 64 := by omega

theorem locate_mul_add {block place : Nat} (hplace : place < map.header.sectorsPerBlock)
    (hblock : block < 2 ^ 32) :
    map.locate (block * map.header.sectorsPerBlock + place) = .ok (block, place) := by
  obtain ⟨hdiv, hmod⟩ := mul_add_div_mod block hplace
  rw [locate_eq_ok (Nat.zero_lt_of_lt hplace) (by rw [hdiv]; exact hblock), hdiv, hmod]

/-- Sectors are blocks and places in them. -/
theorem locate_splits (header : BlockHeader) (table : BlockTable)
    (large : 512 ≤ header.blockSize.toNat) (few : table.size ≤ 2 ^ 32) :
    ∃ map, ofTable header table = .ok map ∧ map.capacity < 2 ^ 64 ∧
      (∀ sector, sector / header.sectorsPerBlock < 2 ^ 32 → ∃ block place,
        map.locate sector = .ok (block, place) ∧
        block * header.sectorsPerBlock + place = sector ∧ place < header.sectorsPerBlock ∧
        map.bitmap.bytes.size = header.bitmapSectors * 512 ∧ place / 8 < map.bitmap.bytes.size ∧
        (sector < map.capacity ↔ block < table.size)) ∧
      (∀ sector, 2 ^ 32 ≤ sector / header.sectorsPerBlock →
        map.locate sector = .error (.corrupt .blockOutOfRange) ∧ map.capacity ≤ sector) ∧
      ∀ block place, block < 2 ^ 32 → place < header.sectorsPerBlock →
        map.locate (block * header.sectorsPerBlock + place) = .ok (block, place) := by
  have hpos := BlockHeader.sectorsPerBlock_pos large
  have hbytes : (fresh header table).bitmap.bytes.size = header.bitmapSectors * 512 :=
    Bytes.size_toByteArray _
  refine ⟨fresh header table, ofTable_eq header.bitmapSectors_le, capacity_lt few,
    fun sector inside => ?_, fun sector outside => ⟨locate_eq_error hpos outside, ?_⟩,
    fun block place hblock hplace => locate_mul_add hplace hblock⟩
  · have hplace := Nat.mod_lt sector hpos
    refine ⟨_, _, locate_eq_ok hpos inside, ?_, hplace, hbytes, ?_, lt_capacity_iff hpos⟩
    · rw [Nat.mul_comm]
      exact Nat.div_add_mod _ _
    · rw [hbytes]
      exact BlockHeader.div_lt_bitmapSectors hplace
  · rw [← Nat.not_lt, lt_capacity_iff hpos]
    exact Nat.not_lt.mpr (Nat.le_trans few outside)

/-- Blocks of one sector and a part of another. -/
theorem locate_splits_odd : 512 ≤ (1000 : UInt32).toNat ∧ (BlockTable.blank 0 3).size ≤ 2 ^ 32 ∧
    ∃ map, ofTable ⟨0, 3, 1000, Bytes.zero 16, 0⟩ (BlockTable.blank 0 3) = .ok map ∧
      map.locate 2 = .ok (2, 0) := by
  have few : (BlockTable.blank 0 3).size ≤ 2 ^ 32 := by decide
  obtain ⟨map, hmap, -, -, -, back⟩ := locate_splits ⟨0, 3, 1000, Bytes.zero 16, 0⟩
    (BlockTable.blank 0 3) (by decide) few
  exact ⟨by decide, few, map, hmap, back 2 0 (by decide) (by decide)⟩

/-- A block that is smaller than a sector has no places. -/
theorem locate_divides_by_zero :
    ∃ map, ofTable ⟨0, 1, 511, Bytes.zero 16, 0⟩ (BlockTable.blank 0 1) = .ok map ∧
      map.locate 0 = .error (.trap .divisionByZero) :=
  ⟨_, ofTable_eq (BlockHeader.bitmapSectors_le _), rfl⟩

end BlockMap

end VirtualDisk
