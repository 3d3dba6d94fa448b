import VirtualDisk.Sector

/-!
# Disk geometry

A disk is described by cylinders, heads and sectors per track, and has as many sectors as their
product. Not every size is such a product, so a geometry that is derived from a size may fall short
of it by less than one cylinder.
-/

namespace VirtualDisk

/-- Cylinders, heads and sectors per track, in the widths that the footer has for them. -/
structure Geometry where
  cylinders : UInt16
  heads : UInt8
  sectorsPerTrack : UInt8
  deriving DecidableEq, Repr

namespace Geometry

/-- The number of sectors that a disk of this geometry has. -/
def totalSectors (g : Geometry) : Nat :=
  g.cylinders.toNat * g.heads.toNat * g.sectorsPerTrack.toNat

/-- No derived geometry has more sectors than this. -/
def maxSectors : Nat := 65535 * 16 * 255

/-- The geometry with a given number of heads and of sectors per track, and with as many cylinders
as that many tracks fill. -/
def ofTracks (sectorsPerTrack heads tracks : Nat) : Geometry where
  cylinders := UInt16.ofNat (min (tracks / heads) 65535)
  heads := UInt8.ofNat heads
  sectorsPerTrack := UInt8.ofNat sectorsPerTrack

/-- The geometry that is derived from a size in bytes. Tracks grow from 17 to 31, 63 and 255 sectors
as the disk grows; with 17, the heads grow from 4 to 16 so that there are at most 1024 cylinders. -/
def ofSize (size : Nat) : Geometry :=
  let total := min (size / 512) maxSectors
  if 65535 * 16 * 63 ≤ total then ofTracks 255 16 (total / 255)
  else
    let heads := max ((total / 17 + 1023) / 1024) 4
    if total / 17 < heads * 1024 ∧ heads ≤ 16 then ofTracks 17 heads (total / 17)
    else if total / 31 < 16 * 1024 then ofTracks 31 16 (total / 31)
    else ofTracks 63 16 (total / 63)

end Geometry

end VirtualDisk
