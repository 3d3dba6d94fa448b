import VirtualDisk.Image.Open

/-!
# Creating images

A new image replaces whatever its storage held. A fixed image is written at full size, zeros and
then the footer. An image with blocks begins small: footer, header and a table without entries, and
the footer again. The options are checked before the storage is touched, and what was written is
opened like any other image.

Size and geometry of a differencing image are those of its parent, whose unique id and timestamp it
records.
-/

namespace VirtualDisk

open Storage

/-- What a new image should be like. -/
structure CreateOptions where
  /-- The size of the disk in bytes. -/
  size : UInt64
  /-- The size of a block in bytes. -/
  blockSize : UInt32
  /-- The geometry, if it shall not be derived from the size. -/
  geometry? : Option Geometry
  uniqueId : Bytes 16
  timestamp : UInt32
  creatorApp : Bytes 4

namespace CreateOptions

/-- The geometry of a new image, if size and geometry go together. -/
def checkedGeometry (options : CreateOptions) : Except Error Geometry := do
  let size := options.size.toNat
  if size = 0 ∨ size % 512 ≠ 0 then throw (.invalidOption .size)
  let geometry := options.geometry?.getD (Geometry.ofSize size)
  if geometry.totalSectors = 0 then throw (.invalidOption .noSectors)
  if size / 512 < geometry.totalSectors then throw (.invalidOption .geometryTooLarge)
  return geometry

/-- The footer fields of a new image. -/
def footerFields (options : CreateOptions) (dataOffset size : UInt64) (geometry : Geometry)
    (diskType : DiskType) : FooterFields where
  dataOffset
  timestamp := options.timestamp
  creatorApp := options.creatorApp
  size
  geometry
  diskType
  uniqueId := options.uniqueId

end CreateOptions

namespace Image

variable {ι : Type}

/-- Where the header of a new image with blocks is. -/
def headerPosition : Nat := 512

/-- Where the table of a new image with blocks is. -/
def tablePosition : Nat := 1536

/-- Creates a fixed image. -/
def createFixed (disk : ι) (options : CreateOptions) : Access ι (Image ι) := do
  let geometry ← options.checkedGeometry
  let footer ← Footer.build
    (options.footerFields 0xffffffffffffffff options.size geometry .fixed)
  Access.resize disk 0
  Access.resize disk options.size.toNat
  Access.write disk options.size.toNat footer.raw
  ofDisk disk false

/-- What an image with blocks records of its parent. -/
structure ParentRecord where
  uniqueId : Bytes 16
  timestamp : UInt32

/-- Creates an image with blocks, none of which is allocated. -/
def createWithBlocks (disk : ι) (options : CreateOptions) (size : UInt64) (geometry : Geometry)
    (diskType : DiskType) (parent : ParentRecord) : Access ι (Image ι) := do
  let blockSize := options.blockSize.toNat
  if blockSize = 0 ∨ blockSize % 512 ≠ 0 then throw (.invalidOption .blockSize)
  let blocks := (size.toNat + blockSize - 1) / blockSize
  if 2 ^ 32 ≤ blocks then throw (.invalidOption .tooManyBlocks)
  let tableSize ← Sector.align (blocks * 4)
  let footer ← Footer.build
    (options.footerFields (UInt64.ofNat headerPosition) size geometry diskType)
  let header : BlockHeader := {
    tableOffset := UInt64.ofNat tablePosition
    maxTableEntries := UInt32.ofNat blocks
    blockSize := options.blockSize
    parentUniqueId := parent.uniqueId
    parentTimestamp := parent.timestamp }
  Access.resize disk 0
  Access.write disk 0 footer.raw
  Access.write disk headerPosition header.toBytes
  Access.write disk tablePosition (Bytes.replicate tableSize 0xff)
  Access.write disk (tablePosition + tableSize) footer.raw
  ofDisk disk false

/-- Creates a dynamic image. -/
def createDynamic (disk : ι) (options : CreateOptions) : Access ι (Image ι) := do
  let geometry ← options.checkedGeometry
  createWithBlocks disk options options.size geometry .dynamic ⟨Bytes.zero 16, 0⟩

/-- Creates a differencing image on top of a parent. The size and geometry among the options do not
count. -/
def createDifferencing {κ : Type} (disk : ι) (parent : Image κ) (options : CreateOptions) :
    Access ι (Image ι) :=
  createWithBlocks disk options parent.footer.currentSize parent.footer.geometry .differencing
    ⟨parent.footer.uniqueId, parent.footer.timestamp⟩

end Image

end VirtualDisk
