import VirtualDisk.Blocks.Table

/-!
# The bitmap of a block

Every stored block begins with a bitmap that has one bit for each of its sectors, most significant
bit first. A set bit means that the image itself holds the sector.

A `BitmapCache` holds the bitmap of one block in memory. It is changed there and written back by
`flush`; whoever loads another block has to flush first.
-/

namespace VirtualDisk

open Storage

/-- The bitmap of one block, and whether it has changes that are not stored yet. -/
structure BitmapCache where
  bytes : ByteArray
  /-- The block whose bitmap this is, once one was loaded. -/
  block : Option Nat
  dirty : Bool
  deriving DecidableEq

namespace BitmapCache

/-- Larger bitmaps are refused, so that an image cannot ask for any amount of memory. -/
def maxBytes : Nat := 32 * 1024 * 1024

/-- A cache for bitmaps of the given number of sectors that holds none yet. -/
def blank (sectors : Nat) : Except Error BitmapCache := do
  let size ← Sector.position sectors
  if maxBytes < size then throw (.unsupported .bitmapSize)
  return { bytes := (Bytes.zero size).toByteArray, block := none, dirty := false }

/-- The mask of a bit within its byte. -/
def mask (bit : Nat) : UInt8 := 0x80 >>> UInt8.ofNat (bit % 8)

/-- The bit is set. Bits past the end are not. -/
def test (cache : BitmapCache) (bit : Nat) : Bool :=
  match cache.bytes[bit / 8]? with
  | some byte => byte &&& mask bit != 0
  | none => false

/-- Sets a bit. The cache has changes only if the bit was not set before. -/
def set (cache : BitmapCache) (bit : Nat) : Except Error BitmapCache :=
  if h : bit / 8 < cache.bytes.size then
    let byte := cache.bytes[bit / 8]
    if byte &&& mask bit = 0 then
      .ok { cache with bytes := cache.bytes.set (bit / 8) (byte ||| mask bit), dirty := true }
    else .ok cache
  else .error (.corrupt .bitmapTooSmall)

/-- Loads the bitmap of a block. The bitmap of a block that is not allocated is all zeros and asks
nothing of the storage. -/
def load {ι : Type} (disk : ι) (table : BlockTable) (cache : BitmapCache) (block : Nat) :
    Access ι BitmapCache := do
  let bytes ← match ← table.sector? block with
    | some sector =>
      Access.readWithin disk (← Sector.position sector) cache.bytes.size .bitmapTruncated
    | none => pure (Bytes.zero cache.bytes.size)
  return { bytes := bytes.toByteArray, block := some block, dirty := false }

/-- Stores the bitmap, if it has changes. -/
def flush {ι : Type} (disk : ι) (table : BlockTable) (cache : BitmapCache) :
    Access ι BitmapCache := do
  match cache.block, cache.dirty with
  | some block, true =>
    let some sector ← table.sector? block
      | throw (.corrupt .dirtyUnallocated)
    Access.write disk (← Sector.position sector) (Bytes.ofByteArray cache.bytes)
    return { cache with dirty := false }
  | _, _ => return cache

end BitmapCache

end VirtualDisk
