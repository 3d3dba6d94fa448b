import VirtualDisk.Storage.Access
import VirtualDisk.Format.BlockHeader

/-!
# The block table

The table has one entry for each block of the disk: the sector at which the block is stored, or all
ones while the block is not allocated. Tables are read as a whole and kept in memory. An entry is
changed on disk first, so that a failed write leaves it as it was in both places.
-/

namespace VirtualDisk

open Storage

/-- The block table of an image. -/
structure BlockTable where
  /-- Position of the first entry. -/
  offset : Nat
  entries : Array UInt32
  deriving DecidableEq

namespace BlockTable

/-- The entry of a block that is not allocated. -/
def unallocated : UInt32 := 0xffffffff

/-- Larger tables are refused, so that an image cannot ask for any amount of memory. -/
def maxBytes : Nat := 128 * 1024 * 1024

/-- A table in which no block is allocated. -/
def blank (offset count : Nat) : BlockTable := ⟨offset, Array.replicate count unallocated⟩

/-- Number of blocks. -/
def size (table : BlockTable) : Nat := table.entries.size

/-- The big-endian entries that a byte string holds. -/
def decode {n : Nat} (bytes : Bytes n) : Array UInt32 :=
  Array.ofFn fun i : Fin (n / 4) => UInt32.ofNat (bytes.number (4 * i.val) 4 (by omega))

/-- Reads a table of `count` entries. -/
def load {ι : Type} (disk : ι) (offset count : Nat) : Access ι BlockTable := do
  let size := count * 4
  if 2 ^ 64 ≤ size then throw .offsetOverflow
  if maxBytes < size then throw (.unsupported .tableSize)
  let bytes ← Access.readWithin disk offset size .tableTruncated
  return ⟨offset, decode bytes⟩

/-- The entry of a block. -/
def entry (table : BlockTable) (block : Nat) : Except Error UInt32 :=
  match table.entries[block]? with
  | some entry => .ok entry
  | none => .error (.corrupt .blockOutOfRange)

/-- The block is stored somewhere. -/
def isAllocated (table : BlockTable) (block : Nat) : Except Error Bool := do
  return (← table.entry block) != unallocated

/-- The sector at which a block is stored, if it is. -/
def sector? (table : BlockTable) (block : Nat) : Except Error (Option Nat) := do
  let entry ← table.entry block
  return if entry = unallocated then none else some entry.toNat

/-- Changes the entry of a block, on disk and then in the table. -/
def setEntry {ι : Type} (disk : ι) (table : BlockTable) (block : Nat) (sector : UInt32) :
    Access ι BlockTable := do
  let _ ← table.entry block
  let position := table.offset + block * 4
  if 2 ^ 64 ≤ position then throw .offsetOverflow
  Access.write disk position (Bytes.ofNumber 4 sector.toNat)
  return { table with entries := table.entries.setIfInBounds block sector }

end BlockTable

end VirtualDisk
