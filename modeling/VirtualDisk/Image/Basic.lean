import VirtualDisk.Blocks.Transfer

/-!
# Images

An image is a disk whose bytes make up a virtual disk. It has a footer and a layout: the sectors of
a fixed image lie one after the other from the beginning of the storage, those of a dynamic or
differencing image lie in blocks. The number of sectors is that of the geometry, which may be less
than the size that the footer records.

An image names its storage by a handle of type `ι`; several images may name the same one.
-/

namespace VirtualDisk

open Storage

/-- How the sectors of an image are stored. -/
inductive Layout where
  | fixed
  | dynamic (map : BlockMap)
  | differencing (map : BlockMap)
  deriving DecidableEq

namespace Layout

/-- The kind of disk that has this layout. -/
def diskType : Layout → DiskType
  | fixed => .fixed
  | dynamic _ => .dynamic
  | differencing _ => .differencing

/-- The blocks, if there are any. -/
def blocks? : Layout → Option BlockMap
  | fixed => none
  | dynamic map => some map
  | differencing map => some map

/-- The same layout with other blocks. -/
def setBlocks (map : BlockMap) : Layout → Layout
  | fixed => fixed
  | dynamic _ => dynamic map
  | differencing _ => differencing map

@[simp] theorem diskType_setBlocks (map : BlockMap) (layout : Layout) :
    (layout.setBlocks map).diskType = layout.diskType := by cases layout <;> rfl

theorem setBlocks_of_blocks? {map : BlockMap} {layout : Layout} (h : layout.blocks? = some map) :
    layout.setBlocks map = layout := by
  cases layout with
  | fixed => rfl
  | dynamic => exact congrArg dynamic (Option.some.inj h).symm
  | differencing => exact congrArg differencing (Option.some.inj h).symm

end Layout

/-- An open image. -/
structure Image (ι : Type) where
  disk : ι
  footer : Footer
  layout : Layout
  /-- Writes are accepted and ignored. -/
  readOnly : Bool
  deriving DecidableEq

namespace Image

variable {ι α : Type}

/-- The kind of disk. -/
def diskType (image : Image ι) : DiskType := image.layout.diskType

/-- The number of sectors of the virtual disk. -/
def totalSectors (image : Image ι) : Nat := image.footer.geometry.totalSectors

/-- The size of the virtual disk in bytes. -/
def capacity (image : Image ι) : Nat := image.totalSectors * 512

/-- The blocks, unless the image is fixed. -/
def blocks? (image : Image ι) : Option BlockMap := image.layout.blocks?

/-- The size of a block in bytes, unless the image is fixed. -/
def blockSize? (image : Image ι) : Option Nat := image.blocks?.map (·.header.blockSize.toNat)

/-- The unique id of the parent, as a differencing image records it. -/
def parentUniqueId? (image : Image ι) : Option (Bytes 16) :=
  match image.layout with
  | .differencing map => some map.header.parentUniqueId
  | _ => none

/-- A block has storage. In a fixed image every block has. -/
def isAllocated (image : Image ι) (block : Nat) : Except Error Bool :=
  match image.blocks? with
  | some map => map.table.isAllocated block
  | none => .ok true

/-- Runs an engine on the blocks of the image, which must not be fixed. -/
def onBlocks (engine : ι → Engine ι BlockMap α) : Engine ι (Image ι) α := do
  let image ← get
  match image.blocks? with
  | some map =>
    Engine.on map (fun map => { image with layout := image.layout.setBlocks map })
      (engine image.disk)
  | none => throw (.unsupported .noBlockTable)

end Image

end VirtualDisk
