import VirtualDisk.Blocks.Allocation

/-!
# Reading and writing sectors in blocks

A request is served sector by sector, in ascending order. A sector that the image does not hold
reads as zeros; a write allocates the block of its sector where needed. Data is stored before the
bit that declares it present, and the last bitmap is stored when the write is done, so the bitmaps
of all written blocks are on disk by then.
-/

namespace VirtualDisk

open Storage

namespace BlockMap

variable {ι : Type}

/-- The sector as the image itself holds it, or zeros. -/
def readSector (disk : ι) (sector : Nat) : Engine ι BlockMap Sector := do
  let (block, sectorInBlock) ← (← get).locate sector
  select disk block
  let map ← get
  if map.bitmap.test sectorInBlock then
    let some start ← map.table.sector? block
      | throw (.corrupt .presentUnallocated)
    let position ← map.dataPosition start sectorInBlock
    (Access.readWithin disk position 512 .dataTruncated : Access ι Sector)
  else return Bytes.zero 512

/-- Reads `count` sectors from `sector` on into the slots of a buffer from `slot` on. -/
def readSectors (disk : ι) : (count sector slot : Nat) → ByteArray → Engine ι BlockMap ByteArray
  | 0, _, _, buffer => return buffer
  | count + 1, sector, slot, buffer => do
    let content ← readSector disk sector
    let buffer ← Buffer.fillSector buffer slot content
    readSectors disk count (sector + 1) (slot + 1) buffer

/-- Where a block is stored. The block is allocated if it is not stored yet. -/
def ensureAllocated (disk : ι) (block : Nat) : Engine ι BlockMap Nat := do
  let map ← get
  match ← map.table.sector? block with
  | some start => return start
  | none =>
    let (start, table) ← (map.allocate disk block : Access ι (Nat × BlockTable))
    set { map with table }
    return start

/-- Stores one sector and declares it present. -/
def writeSector (disk : ι) (sector : Nat) (content : Sector) : Engine ι BlockMap Unit := do
  let (block, sectorInBlock) ← (← get).locate sector
  select disk block
  let start ← ensureAllocated disk block
  let map ← get
  let position ← map.dataPosition start sectorInBlock
  (Access.write disk position content : Access ι Unit)
  let bitmap ← map.bitmap.set sectorInBlock
  set { map with bitmap }

/-- Writes `count` sectors from `sector` on from the slots of a buffer from `slot` on. -/
def writeSectors (disk : ι) (buffer : ByteArray) :
    (count sector slot : Nat) → Engine ι BlockMap Unit
  | 0, _, _ => return
  | count + 1, sector, slot => do
    let content ← Buffer.sector buffer slot
    writeSector disk sector content
    writeSectors disk buffer count (sector + 1) (slot + 1)

end BlockMap

end VirtualDisk
