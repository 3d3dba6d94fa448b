import VirtualDisk.Blocks.Bitmap

/-!
# Where the sectors of a disk are

A `BlockMap` is what an image with blocks keeps in memory: its header, its block table, and the
bitmap of the block that was used last. A sector of the disk is found in two steps. `locate` splits
its number into a block and a place in the block; table and bitmap then say whether the image holds
the sector and at which position.
-/

namespace VirtualDisk

open Storage

/-- Header, table and cached bitmap of an image with blocks. -/
structure BlockMap where
  header : BlockHeader
  table : BlockTable
  bitmap : BitmapCache
  deriving DecidableEq

namespace BlockMap

/-- A map that has no bitmap cached. -/
def ofTable (header : BlockHeader) (table : BlockTable) : Except Error BlockMap := do
  return { header, table, bitmap := ← BitmapCache.blank header.bitmapSectors }

/-- Sectors that the table covers. -/
def capacity (map : BlockMap) : Nat := map.table.size * map.header.sectorsPerBlock

/-- The block of a sector and its place in the block. Blocks are numbered with 32 bits. -/
def locate (map : BlockMap) (sector : Nat) : Except Error (Nat × Nat) :=
  let perBlock := map.header.sectorsPerBlock
  if perBlock = 0 then .error (.trap .divisionByZero)
  else if sector / perBlock < 2 ^ 32 then .ok (sector / perBlock, sector % perBlock)
  else .error (.corrupt .blockOutOfRange)

/-- Position of a sector of data in the block that is stored at `start`. -/
def dataPosition (map : BlockMap) (start sectorInBlock : Nat) : Except Error Nat :=
  Sector.position (start + map.header.bitmapSectors + sectorInBlock)

variable {ι : Type}

/-- Stores the cached bitmap, if it has changes. -/
def flush (disk : ι) : Engine ι BlockMap Unit := do
  let map ← get
  let bitmap ← (map.bitmap.flush disk map.table : Access ι BitmapCache)
  set { map with bitmap }

/-- Makes the bitmap of a block the cached one. The bitmap that was cached is stored first; if it is
the one asked for, nothing happens. -/
def select (disk : ι) (block : Nat) : Engine ι BlockMap Unit := do
  if (← get).bitmap.block = some block then return
  flush disk
  let map ← get
  let bitmap ← (map.bitmap.load disk map.table block : Access ι BitmapCache)
  set { map with bitmap }

/-- The image itself holds the sector. -/
def holds (disk : ι) (sector : Nat) : Engine ι BlockMap Bool := do
  let (block, sectorInBlock) ← (← get).locate sector
  select disk block
  return (← get).bitmap.test sectorInBlock

end BlockMap

end VirtualDisk
