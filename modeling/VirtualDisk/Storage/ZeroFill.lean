import VirtualDisk.Storage.Access

/-!
# Filling with zeros

A long run of zeros is written in chunks of 64 KiB. Each chunk is a request of its own, so a run
that fails half-way leaves the chunks before the failure written.
-/

namespace VirtualDisk.Storage.Access

variable {ι : Type}

/-- A chunk of zeros. All chunks but the last have this size. -/
def zeroChunk : Bytes 65536 := Bytes.zero 65536

/-- Writes at most `count` chunks, `size` bytes in all, and returns the position after them. -/
def zeroChunks (disk : ι) : (count offset size : Nat) → Access ι Nat
  | 0, offset, _ => pure offset
  | count + 1, offset, size => do
    if h : 65536 ≤ size then
      write disk offset zeroChunk
    else
      write disk offset (zeroChunk.slice 0 size (by omega))
    let next := offset + min size 65536
    if 2 ^ 64 ≤ next then throw .offsetOverflow
    zeroChunks disk count next (size - 65536)

/-- Writes `size` zero bytes from `offset` on and returns the position after them. -/
def zeroFill (disk : ι) (offset size : Nat) : Access ι Nat :=
  zeroChunks disk ((size + 65535) / 65536) offset size

/-- Writes `count` sectors of zeros from the position `offset` on and returns the position after
them. -/
def zeroSectors (disk : ι) (offset count : Nat) : Access ι Nat := do
  let size ← Sector.position count
  zeroFill disk offset size

end VirtualDisk.Storage.Access
