import VirtualDisk.Image.Basic

/-!
# Reading and writing images

Every transfer takes a buffer that can hold the whole request, is cut at the end of the disk, and
reports how many sectors were cut off. What a read does not transfer stays in the buffer as it was.

A fixed image is transferred in one piece and an image with blocks sector by sector. A differencing
image cannot be read on its own: what it does not hold itself is held by its parent. It can be
written on its own, because a write is never passed on to the parent.
-/

namespace VirtualDisk

open Storage

/-- What a read leaves: the sectors cut off, and the buffer. -/
structure ReadResult where
  truncated : Nat
  buffer : ByteArray
  deriving DecidableEq

namespace Image

variable {ι : Type}

/-- How a request is cut at the end of the image. -/
def span (image : Image ι) (offset count : Nat) : Span :=
  Span.clamp offset count image.totalSectors

/-- Reads sectors that lie one after the other from the beginning of the storage. -/
def readFlat (image : Image ι) (offset count : Nat) (buffer : ByteArray) : Access ι ReadResult := do
  Buffer.check buffer.size count
  let span := image.span offset count
  if span.transfer = 0 then return ⟨span.truncated, buffer⟩
  let size ← Sector.position span.transfer
  let bytes ← Access.readWithin image.disk (← Sector.position offset) size .diskTruncated
  return ⟨span.truncated, ← Buffer.fill buffer 0 bytes⟩

/-- Writes sectors that lie one after the other from the beginning of the storage. Returns the
number of sectors cut off. -/
def writeFlat (image : Image ι) (offset count : Nat) (buffer : ByteArray) : Access ι Nat := do
  Buffer.check buffer.size count
  let span := image.span offset count
  if span.transfer = 0 then return span.truncated
  let size ← Sector.position span.transfer
  let position ← Sector.position offset
  Access.write image.disk position (← Buffer.window buffer 0 size)
  return span.truncated

/-- Reads what the image itself holds in its blocks, and zeros for the rest. -/
def readBlocks (offset count : Nat) (buffer : ByteArray) : Engine ι (Image ι) ReadResult := do
  Buffer.check buffer.size count
  let span := (← get).span offset count
  let buffer ← onBlocks fun disk => BlockMap.readSectors disk span.transfer offset 0 buffer
  return ⟨span.truncated, buffer⟩

/-- Writes to blocks, and stores the bitmap that was changed last. Returns the number of sectors cut
off. -/
def writeBlocks (offset count : Nat) (buffer : ByteArray) : Engine ι (Image ι) Nat := do
  Buffer.check buffer.size count
  let span := (← get).span offset count
  onBlocks fun disk => do
    BlockMap.writeSectors disk buffer span.transfer offset 0
    BlockMap.flush disk
  return span.truncated

/-- Accepts a write and stores nothing. -/
def ignoreWrite (_offset _count : Nat) (_buffer : ByteArray) : Engine ι (Image ι) Nat := return 0

/-- Reads `count` sectors from `offset` on. -/
def read (offset count : Nat) (buffer : ByteArray) : Engine ι (Image ι) ReadResult := do
  let image ← get
  match image.layout with
  | .fixed => (image.readFlat offset count buffer : Access ι ReadResult)
  | .dynamic _ => readBlocks offset count buffer
  | .differencing _ => throw .parentUnavailable

/-- Writes `count` sectors from `offset` on. Returns the number of sectors cut off. -/
def write (offset count : Nat) (buffer : ByteArray) : Engine ι (Image ι) Nat := do
  let image ← get
  if image.readOnly then ignoreWrite offset count buffer
  else match image.layout with
    | .fixed => (image.writeFlat offset count buffer : Access ι Nat)
    | _ => writeBlocks offset count buffer

/-- Stores what is cached and makes the storage durable. -/
def flush : Engine ι (Image ι) Unit := do
  let image ← get
  if image.blocks?.isSome then onBlocks BlockMap.flush
  (Access.flush image.disk : Access ι Unit)

end Image

end VirtualDisk
