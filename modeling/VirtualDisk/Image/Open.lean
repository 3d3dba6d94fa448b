import VirtualDisk.Image.Basic

/-!
# Opening an image

An image is found on a disk by its footer. The footer at the end counts; if it is damaged, the copy
at the beginning stands in for it. An image with blocks also has its header and its table read. What
the image claims is checked against the storage before anything is built on it.
-/

namespace VirtualDisk

open Storage

namespace Image

variable {ι : Type}

/-- Finds the footer of a storage of `size` bytes. If neither place has one, the failure is that of
the end of the storage. -/
def findFooter (disk : ι) (size : Nat) : Access ι Footer := do
  match Footer.parse (← Access.read disk (size - 512) 512) with
  | .ok footer => return footer
  | .error e =>
    match Footer.parse (← Access.read disk 0 512) with
    | .ok footer => return footer
    | .error _ => throw e

/-- Where the header of an image with blocks is, if the footer names a place for it within a storage
of `size` bytes. -/
def findHeader (footer : Footer) (size : Nat) : Except Error Nat := do
  let position := footer.dataOffset.toNat
  if position = 2 ^ 64 - 1 then throw (.corrupt .headerOffset)
  if position % 512 ≠ 0 then throw (.corrupt .headerMisaligned)
  if 2 ^ 64 ≤ position + 1024 then throw .offsetOverflow
  if size < position + 1024 then throw (.corrupt .headerTruncated)
  return position

/-- Reads the table of an image with blocks. It may be larger than the disk needs; only the entries
that the size of the disk calls for are read. -/
def readTable (disk : ι) (footer : Footer) (header : BlockHeader) : Access ι BlockMap := do
  let blockSize := header.blockSize.toNat
  let blocks := (footer.currentSize.toNat + blockSize - 1) / blockSize
  if header.maxTableEntries.toNat < blocks then throw (.corrupt .tableTooSmall)
  let table ← BlockTable.load disk header.tableOffset.toNat blocks
  let map ← BlockMap.ofTable header table
  if map.capacity < footer.geometry.totalSectors then throw (.corrupt .geometryExceedsTable)
  return map

/-- Reads the header and the table of an image with blocks, whose storage has `size` bytes. -/
def readBlockMap (disk : ι) (footer : Footer) (size : Nat) : Access ι BlockMap := do
  let position ← findHeader footer size
  let header ← BlockHeader.parse (← Access.read disk position 1024)
  readTable disk footer header

/-- Opens the image on a disk. -/
def ofDisk (disk : ι) (readOnly : Bool) : Access ι (Image ι) := do
  let size ← Access.length disk
  if size < 512 then throw (.corrupt .fileTooSmall)
  let footer ← findFooter disk size
  let layout ← match footer.diskType with
    | .fixed => do
      if size < footer.geometry.totalSectors * 512 + 512 then throw (.corrupt .diskTruncated)
      pure .fixed
    | .dynamic => Layout.dynamic <$> readBlockMap disk footer size
    | .differencing => Layout.differencing <$> readBlockMap disk footer size
  return { disk, footer, layout, readOnly }

end Image

end VirtualDisk
