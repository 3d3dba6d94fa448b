import VirtualDisk.ImageSet.Basic

/-!
# Reading through differencing chains

Every sector is resolved on its own. From the image asked for, the chain is followed towards its end
until an image holds the sector itself or is no differencing image. Sectors of one request may be
found at different depths. An ancestor may be smaller than its descendant; sectors past its end are
zeros.
-/

namespace VirtualDisk

open Storage

namespace ImageSet

variable {ι : Type}

/-- The image of the chain of `id` that answers for a sector. -/
def resolve (sector id : Nat) : Engine ι (ImageSet ι) Nat := do
  let set ← get
  let member ← set.member id
  if member.image.diskType ≠ .differencing ∨ member.image.totalSectors ≤ sector then return id
  if ← onImage id (Image.onBlocks fun disk => BlockMap.holds disk sector) then return id
  match member.parent with
  | none => throw .parentUnavailable
  | some parent =>
    if _h : parent < id then resolve sector parent
    else throw (.trap .linkNotDescending)
termination_by id

/-- Reads one sector from the image that answers for it. -/
def readSector (id sector : Nat) : Engine ι (ImageSet ι) Sector := do
  let owner ← resolve sector id
  let image ← (← get).image owner
  let blank := (Bytes.zero 512).toByteArray
  let result ← match image.layout with
    | .fixed => (image.readFlat sector 1 blank : Access ι ReadResult)
    | _ => onImage owner (Image.readBlocks sector 1 blank)
  if result.truncated ≠ 0 then return Bytes.zero 512
  Buffer.sector result.buffer 0

/-- Reads `count` sectors from `sector` on into the slots of a buffer from `slot` on. -/
def readSectors (id : Nat) :
    (count sector slot : Nat) → ByteArray → Engine ι (ImageSet ι) ByteArray
  | 0, _, _, buffer => return buffer
  | count + 1, sector, slot, buffer => do
    let content ← readSector id sector
    let buffer ← Buffer.fillSector buffer slot content
    readSectors id count (sector + 1) (slot + 1) buffer

/-- Reads through the chain of an image. -/
def readChain (id offset count : Nat) (buffer : ByteArray) :
    Engine ι (ImageSet ι) ReadResult := do
  Buffer.check buffer.size count
  let span := (← (← get).image id).span offset count
  return ⟨span.truncated, ← readSectors id span.transfer offset 0 buffer⟩

/-- Reads an image, through its chain where it is a differencing one. -/
def read (id offset count : Nat) (buffer : ByteArray) : Engine ι (ImageSet ι) ReadResult := do
  let image ← (← get).image id
  if image.diskType = .differencing then readChain id offset count buffer
  else onImage id (Image.read offset count buffer)

/-- Writes to an image. Nothing is passed on to its parent. -/
def write (id offset count : Nat) (buffer : ByteArray) : Engine ι (ImageSet ι) Nat :=
  onImage id (Image.write offset count buffer)

/-- Flushes the images from `first` on, `count` of them, in order, up to the first failure. -/
def flushFrom : (count first : Nat) → Engine ι (ImageSet ι) Unit
  | 0, _ => return
  | count + 1, first => do
    onImage first Image.flush
    flushFrom count (first + 1)

/-- Flushes all images, in order, up to the first failure. -/
def flush : Engine ι (ImageSet ι) Unit := do
  flushFrom (← get).size 0

end ImageSet

end VirtualDisk
