import VirtualDisk.Error
import VirtualDisk.Bytes.Basic

/-!
# Sectors, positions and transfers

A disk is a sequence of sectors of 512 bytes. Sector numbers and byte positions are natural
numbers here; the format stores positions in 64 bits, so a position that does not fit is an error
of its own and never wraps around.

A request for sectors is cut at the end of the disk. `Span.clamp` says how many sectors are
transferred and how many are cut off; the two add up to the request.
-/

namespace VirtualDisk

/-- The content of one sector. -/
abbrev Sector := Bytes 512

namespace Sector

/-- Byte position of the first byte of a sector. -/
def position (sector : Nat) : Except Error Nat :=
  if sector * 512 < 2 ^ 64 then .ok (sector * 512) else .error .offsetOverflow

/-- The next position, this one included, at which a sector begins. -/
def align (position : Nat) : Except Error Nat :=
  let excess := position % 512
  if excess = 0 then .ok position
  else if position + (512 - excess) < 2 ^ 64 then .ok (position + (512 - excess))
  else .error .offsetOverflow

end Sector

/-- How a request for sectors is served by a disk of limited size. -/
structure Span where
  /-- Sectors that are transferred. -/
  transfer : Nat
  /-- Sectors past the end of the disk. -/
  truncated : Nat
  deriving DecidableEq, Repr

/-- Cuts the request for `count` sectors from `offset` on at the end of a disk of `total`
sectors. -/
def Span.clamp (offset count total : Nat) : Span :=
  let transfer := min count (total - offset)
  { transfer, truncated := count - transfer }

theorem Span.transfer_add_truncated (offset count total : Nat) :
    (clamp offset count total).transfer + (clamp offset count total).truncated = count := by
  simp only [clamp]
  omega

namespace Buffer

/-- Refuses a buffer of `size` bytes that cannot hold `count` sectors. -/
def check (size count : Nat) : Except Error Unit := do
  let required ← Sector.position count
  if size < required then throw (.bufferTooSmall size required)

/-- The `size` bytes of a buffer from `start` on. -/
def window (buffer : ByteArray) (start size : Nat) : Except Error (Bytes size) :=
  if h : start + size ≤ buffer.size then .ok ((Bytes.ofByteArray buffer).slice start size h)
  else .error (.trap .windowOutOfRange)

/-- A buffer with its bytes from `start` on replaced. -/
def fill {n : Nat} (buffer : ByteArray) (start : Nat) (part : Bytes n) : Except Error ByteArray :=
  if h : start + n ≤ buffer.size then
    .ok ((Bytes.ofByteArray buffer).overwrite start part h).toByteArray
  else .error (.trap .windowOutOfRange)

/-- The bytes of a buffer that belong to the sector in the given slot. -/
def sector (buffer : ByteArray) (slot : Nat) : Except Error Sector := window buffer (slot * 512) 512

/-- A buffer with the sector in the given slot replaced. -/
def fillSector (buffer : ByteArray) (slot : Nat) (content : Sector) : Except Error ByteArray :=
  fill buffer (slot * 512) content

end Buffer

end VirtualDisk
