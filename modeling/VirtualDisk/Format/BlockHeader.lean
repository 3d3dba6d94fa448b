import VirtualDisk.Format.Footer

/-!
# The header of the block table

Dynamic and differencing images have a header of two sectors. It says where the block table is, how
many entries it may have and how large a block is; a differencing image records its parent there.

The sizes of a block follow from the header alone: `sectorsPerBlock` sectors of data, after a bitmap
with one bit for each of them, rounded up to whole sectors.
-/

namespace VirtualDisk

/-- The header of a dynamic or differencing image. -/
structure BlockHeader where
  tableOffset : UInt64
  maxTableEntries : UInt32
  /-- The size of the data of a block in bytes. -/
  blockSize : UInt32
  parentUniqueId : Bytes 16
  parentTimestamp : UInt32
  deriving DecidableEq

namespace BlockHeader

/-- The text "cxsparse", by which a header is recognised. -/
def cookie : Bytes 8 := Bytes.ofList [0x63, 0x78, 0x73, 0x70, 0x61, 0x72, 0x73, 0x65]

def cookieField : Field 1024 8 := ⟨0, by decide⟩
def nextOffsetField : Field 1024 8 := ⟨8, by decide⟩
def tableOffsetField : Field 1024 8 := ⟨16, by decide⟩
def versionField : Field 1024 4 := ⟨24, by decide⟩
def maxTableEntriesField : Field 1024 4 := ⟨28, by decide⟩
def blockSizeField : Field 1024 4 := ⟨32, by decide⟩
def checksumField : Field 1024 4 := ⟨36, by decide⟩
def parentUniqueIdField : Field 1024 16 := ⟨40, by decide⟩
def parentTimestampField : Field 1024 4 := ⟨56, by decide⟩

/-- Reads a header. It must have the cookie, a right checksum and the known version; its table must
begin at a sector and have entries, and a block must be one or more whole sectors. The first of
these that fails is reported. -/
def parse (raw : Bytes 1024) : Except Error BlockHeader := do
  if cookieField.get raw ≠ cookie then throw (.corrupt .headerCookie)
  if ¬ checksumField.Stamped raw then throw (.corrupt .headerChecksum)
  if versionField.number raw ≠ formatVersion then throw (.unsupported .headerVersion)
  let tableOffset := tableOffsetField.number raw
  let maxTableEntries := maxTableEntriesField.number raw
  let blockSize := blockSizeField.number raw
  if tableOffset % 512 ≠ 0 then throw (.corrupt .tableMisaligned)
  if maxTableEntries = 0 then throw (.corrupt .tableEmpty)
  if blockSize = 0 ∨ blockSize % 512 ≠ 0 then throw (.corrupt .blockSize)
  return {
    tableOffset := UInt64.ofNat tableOffset
    maxTableEntries := UInt32.ofNat maxTableEntries
    blockSize := UInt32.ofNat blockSize
    parentUniqueId := parentUniqueIdField.get raw
    parentTimestamp := UInt32.ofNat (parentTimestampField.number raw) }

/-- The bytes of a header. Nothing is checked: a header that `parse` would refuse is written too. -/
def toBytes (header : BlockHeader) : Bytes 1024 :=
  Bytes.zero 1024
    |> cookieField.set cookie
    |> nextOffsetField.set (Bytes.replicate 8 0xff)
    |> tableOffsetField.setNumber header.tableOffset.toNat
    |> versionField.setNumber formatVersion
    |> maxTableEntriesField.setNumber header.maxTableEntries.toNat
    |> blockSizeField.setNumber header.blockSize.toNat
    |> parentUniqueIdField.set header.parentUniqueId
    |> parentTimestampField.setNumber header.parentTimestamp.toNat
    |> checksumField.stamp

/-- Sectors of data in a block. -/
def sectorsPerBlock (header : BlockHeader) : Nat := header.blockSize.toNat / 512

/-- Sectors that the bitmap of a block takes: one bit for each sector of data. Arithmetic about
positions takes it for an unknown. -/
@[irreducible] def bitmapSectors (header : BlockHeader) : Nat :=
  ((header.sectorsPerBlock + 7) / 8 + 511) / 512

/-- Sectors of a block with its bitmap. -/
def regionSectors (header : BlockHeader) : Nat := header.bitmapSectors + header.sectorsPerBlock

end BlockHeader

end VirtualDisk
