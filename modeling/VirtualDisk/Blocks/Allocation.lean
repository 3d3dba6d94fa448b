import VirtualDisk.Blocks.Map
import VirtualDisk.Storage.ZeroFill

/-!
# Allocation of blocks

A block is allocated by appending it to the storage: bitmap and data, all zeros, then some filler,
then the footer again. It takes the place of the footer at the end, if there is one; otherwise it
goes after whatever the storage ends with, and the copy of the footer at the beginning is appended.

The entry in the table is changed last. Whatever fails before leaves the block unallocated, and the
next attempt starts over from the storage as it then is.
-/

namespace VirtualDisk

open Storage

namespace BlockMap

variable {ι : Type}

/-- Sectors of filler between a block and the footer after it. -/
def fillerSectors : Nat := 5

/-- Where the storage ends, but for its footer, and the footer to append. Only the cookie is looked
at to tell a footer. -/
def findEnd (disk : ι) : Access ι (Nat × Sector) := do
  let size ← Access.length disk
  if 512 ≤ size then
    let last ← Access.read disk (size - 512) 512
    if Footer.hasCookie last.toByteArray then return (size - 512, last)
  let first ← Access.readWithin disk 0 512 .footerMissing
  if Footer.hasCookie first.toByteArray then return (size, first)
  throw (.corrupt .footerMissing)

/-- Fills up the last sector with zeros if the storage ends within it. -/
def padEnd (disk : ι) (position : Nat) : Access ι Nat := do
  if position % 512 = 0 then return position
  let aligned ← Sector.align position
  Access.zeroFill disk position (aligned - position)

/-- Appends a block that is not allocated yet. Returns the sector at which it is stored and the
table with its entry. -/
def allocate (disk : ι) (map : BlockMap) (block : Nat) : Access ι (Nat × BlockTable) := do
  if ← map.table.isAllocated block then throw (.corrupt .alreadyAllocated)
  let (position, footer) ← findEnd disk
  let position ← padEnd disk position
  let sector := position / 512
  if 2 ^ 32 ≤ sector then throw (.unsupported .blockOffset)
  let position ← Access.zeroSectors disk position map.header.regionSectors
  let position ← Access.zeroSectors disk position fillerSectors
  Access.write disk position footer
  let table ← map.table.setEntry disk block (UInt32.ofNat sector)
  return (sector, table)

end BlockMap

end VirtualDisk
