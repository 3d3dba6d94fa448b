import VirtualDisk.Blocks.Map
import VirtualDisk.Proofs.Blocks.Entries
import VirtualDisk.Proofs.Blocks.Bits

/-!
# The sectors that an image holds

An image with blocks holds a sector itself if the bit of the sector is set. On the storage this is a
bit of the bitmap of the sector's block; the cached bitmap, which may have bits that are not stored
yet, stands in for the bitmap of its own block.

`BlockMap.stored` is what the storage alone says about a sector: its bytes, or nothing.
`BlockMap.held` is what storage and cache say together. A change of the storage that spares the
region of a block, bitmap and data, changes neither for the sectors of that block.
-/

namespace VirtualDisk

open Storage

namespace BlockHeader

variable {header : BlockHeader}

theorem div_lt_bitmapSectors {i : Nat} (h : i < header.sectorsPerBlock) :
    i / 8 < header.bitmapSectors * 512 := by
  unfold bitmapSectors
  omega

theorem sectorsPerBlock_lt (header : BlockHeader) : header.sectorsPerBlock < 2 ^ 23 := by
  have := header.blockSize.toNat_lt
  unfold sectorsPerBlock
  omega

theorem bitmapSectors_lt (header : BlockHeader) : header.bitmapSectors < 2 ^ 23 := by
  have := header.sectorsPerBlock_lt
  unfold bitmapSectors
  omega

theorem bitmapSectors_pos (h : 0 < header.sectorsPerBlock) : 0 < header.bitmapSectors := by
  unfold bitmapSectors
  omega

theorem regionSectors_eq (header : BlockHeader) :
    header.regionSectors = header.bitmapSectors + header.sectorsPerBlock := rfl

theorem regionSectors_lt (header : BlockHeader) : header.regionSectors < 2 ^ 24 := by
  have := header.sectorsPerBlock_lt
  have := header.bitmapSectors_lt
  rw [regionSectors_eq]
  omega

end BlockHeader

namespace BlockMap

/-- A bit of the bitmap of a block, as it is stored. -/
def storedBit (map : BlockMap) (content : Content) (block i : Nat) : Bool :=
  match map.table.place? block with
  | some start => content.bit (start * 512) i
  | none => false

/-- A bit of the bitmap of a block, as the cache has it or else as it is stored. -/
def heldBit (map : BlockMap) (content : Content) (block i : Nat) : Bool :=
  if map.bitmap.block = some block then map.bitmap.test i else map.storedBit content block i

/-- The bytes in the place of a sector of a block, whether or not the bit of the sector is set. -/
def data (map : BlockMap) (content : Content) (block i : Nat) : Sector :=
  content.read (((map.table.place? block).getD 0 + map.header.bitmapSectors + i) * 512) 512

/-- A sector that is there if its bit is set. -/
def present (bit : Bool) (bytes : Sector) : Option Sector := if bit then some bytes else none

/-- The sector as the storage holds it. -/
def stored (map : BlockMap) (content : Content) (sector : Nat) : Option Sector :=
  let block := sector / map.header.sectorsPerBlock
  let i := sector % map.header.sectorsPerBlock
  present (map.storedBit content block i) (map.data content block i)

/-- The sector as the image holds it, changes of the cached bitmap included. -/
def held (map : BlockMap) (content : Content) (sector : Nat) : Option Sector :=
  let block := sector / map.header.sectorsPerBlock
  let i := sector % map.header.sectorsPerBlock
  present (map.heldBit content block i) (map.data content block i)

/-- The bytes that a read of the image itself returns. -/
def shown (map : BlockMap) (content : Content) (sector : Nat) : Sector :=
  (map.held content sector).getD (Bytes.zero 512)

/-- The bytes matter only if the bit is set. -/
theorem present_congr {bit bit' : Bool} {bytes bytes' : Sector} (hbit : bit' = bit)
    (hbytes : bit = true → bytes' = bytes) : present bit' bytes' = present bit bytes := by
  subst hbit
  cases bit' with
  | false => rfl
  | true => rw [hbytes rfl]

theorem present_eq_some {bit : Bool} {bytes other : Sector} :
    present bit bytes = some other ↔ bit = true ∧ bytes = other := by
  cases bit with
  | false => simp [present]
  | true => simp [present]

variable {map map' : BlockMap} {content content' : Content}

theorem storedBit_of_place {block start : Nat} (h : map.table.place? block = some start) (i : Nat) :
    map.storedBit content block i = content.bit (start * 512) i := by
  rw [storedBit, h]

theorem storedBit_of_vacant {block : Nat} (h : map.table.place? block = none) (i : Nat) :
    map.storedBit content block i = false := by
  rw [storedBit, h]

theorem data_of_place {block start : Nat} (h : map.table.place? block = some start) (i : Nat) :
    map.data content block i =
      content.read ((start + map.header.bitmapSectors + i) * 512) 512 := by
  rw [data, h, Option.getD_some]

theorem heldBit_of_cached {block : Nat} (h : map.bitmap.block = some block) (i : Nat) :
    map.heldBit content block i = map.bitmap.test i := by
  rw [heldBit, if_pos h]

theorem heldBit_of_ne {block : Nat} (h : map.bitmap.block ≠ some block) (i : Nat) :
    map.heldBit content block i = map.storedBit content block i := by
  rw [heldBit, if_neg h]

/-- The block at `start` is stored in the same way in both contents. -/
def SameRegion (header : BlockHeader) (content content' : Content) (start : Nat) : Prop :=
  content.AgreeOn content' (start * 512) (header.regionSectors * 512)

/-- The bitmap at `start` is stored in the same way in both contents. -/
def SameBitmap (header : BlockHeader) (content content' : Content) (start : Nat) : Prop :=
  content.AgreeOn content' (start * 512) (header.bitmapSectors * 512)

theorem SameRegion.sameBitmap {header : BlockHeader} {start : Nat}
    (h : SameRegion header content content' start) : SameBitmap header content content' start := by
  refine Content.AgreeOn.mono h (Nat.le_refl _) ?_
  rw [BlockHeader.regionSectors_eq]
  omega

theorem storedBit_of_sameBitmap {block i : Nat} (hi : i / 8 < map.header.bitmapSectors * 512)
    (place : map'.table.place? block = map.table.place? block)
    (same : ∀ start, map.table.place? block = some start →
      SameBitmap map.header content content' start) :
    map'.storedBit content' block i = map.storedBit content block i := by
  unfold storedBit
  rw [place]
  cases h : map.table.place? block with
  | none => rfl
  | some start => exact Content.bit_of_agree (same start h) hi

theorem storedBit_congr {block i : Nat} (hi : i < map.header.sectorsPerBlock)
    (place : map'.table.place? block = map.table.place? block)
    (same : ∀ start, map.table.place? block = some start →
      SameRegion map.header content content' start) :
    map'.storedBit content' block i = map.storedBit content block i :=
  storedBit_of_sameBitmap (BlockHeader.div_lt_bitmapSectors hi) place fun start h =>
    (same start h).sameBitmap

/-- The bytes of a sector are those of the region of its block. They are of interest only where the
block is allocated. -/
theorem data_congr {block i : Nat} (hi : i < map.header.sectorsPerBlock)
    (header : map'.header = map.header) (place : map'.table.place? block = map.table.place? block)
    (same : ∀ start, map.table.place? block = some start →
      SameRegion map.header content content' start)
    (allocated : (map.table.place? block).isSome) :
    map'.data content' block i = map.data content block i := by
  obtain ⟨start, h⟩ := Option.isSome_iff_exists.mp allocated
  have agree : content.AgreeOn content' ((start + map.header.bitmapSectors + i) * 512) 512 := by
    refine (same start h).mono (by omega) ?_
    rw [BlockHeader.regionSectors_eq]
    omega
  rw [data_of_place h, data_of_place (place.trans h), header, agree.read_eq]

theorem isSome_place_of_storedBit {block i : Nat} (h : map.storedBit content block i = true) :
    (map.table.place? block).isSome := by
  unfold storedBit at h
  split at h
  · next start hplace => rw [hplace]; rfl
  · cases h

theorem stored_congr {sector : Nat} (hpos : 0 < map.header.sectorsPerBlock)
    (header : map'.header = map.header)
    (place : map'.table.place? (sector / map.header.sectorsPerBlock) =
      map.table.place? (sector / map.header.sectorsPerBlock))
    (same : ∀ start, map.table.place? (sector / map.header.sectorsPerBlock) = some start →
      SameRegion map.header content content' start) :
    map'.stored content' sector = map.stored content sector := by
  have hi := Nat.mod_lt sector hpos
  unfold stored
  rw [header]
  exact present_congr (storedBit_congr hi place same) fun hbit =>
    data_congr hi header place same (isSome_place_of_storedBit hbit)

theorem div_lt_of_lt_capacity {sector : Nat} (hpos : 0 < map.header.sectorsPerBlock)
    (h : sector < map.capacity) : sector / map.header.sectorsPerBlock < map.table.size :=
  (Nat.div_lt_iff_lt_mul hpos).mpr h

theorem locate_of_lt {sector : Nat} (hpos : 0 < map.header.sectorsPerBlock)
    (hsize : map.table.size < 2 ^ 32) (hsector : sector < map.capacity) :
    map.locate sector =
      .ok (sector / map.header.sectorsPerBlock, sector % map.header.sectorsPerBlock) := by
  have hblock := div_lt_of_lt_capacity hpos hsector
  simp only [locate]
  rw [if_neg (by omega), if_pos (by omega)]

theorem mul_add_div_mod {perBlock i : Nat} (block : Nat) (hi : i < perBlock) :
    (block * perBlock + i) / perBlock = block ∧ (block * perBlock + i) % perBlock = i := by
  constructor
  · rw [Nat.mul_comm, Nat.mul_add_div (Nat.zero_lt_of_lt hi), Nat.div_eq_of_lt hi, Nat.add_zero]
  · rw [Nat.mul_comm, Nat.mul_add_mod, Nat.mod_eq_of_lt hi]

theorem held_mul_add (map : BlockMap) (content : Content) (block : Nat) {i : Nat}
    (hi : i < map.header.sectorsPerBlock) :
    map.held content (block * map.header.sectorsPerBlock + i) =
      present (map.heldBit content block i) (map.data content block i) := by
  obtain ⟨hdiv, hmod⟩ := mul_add_div_mod block hi
  rw [held, hdiv, hmod]

theorem eq_of_div_of_mod {sector other perBlock : Nat} (hdiv : sector / perBlock = other / perBlock)
    (hmod : sector % perBlock = other % perBlock) : sector = other := by
  rw [← Nat.div_add_mod sector perBlock, ← Nat.div_add_mod other perBlock, hdiv, hmod]

end BlockMap

end VirtualDisk
