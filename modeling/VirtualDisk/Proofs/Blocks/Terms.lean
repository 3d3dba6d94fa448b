import VirtualDisk.Proofs.Storage.Ensures
import VirtualDisk.Proofs.Blocks.Appended
import VirtualDisk.Proofs.Blocks.Written

/-!
# The writes of an image with blocks

`Issued` lists the writes that operations on blocks issue, each with what is known of image and
storage at that moment. The base of a write is the last consistent state before it; while a block
is appended the storage has moved on from there. `Terms` are what a user of the specifications may
choose: an invariant of the consistent states, preserved by every step, and the right to issue these
writes.
-/

namespace VirtualDisk

open Storage

/-- Below this size a storage has room for another block. -/
def sizeLimit : Nat := (2 ^ 32 - 1) * 512

/-- A write of an operation on blocks, from the consistent state `map`, `content`. -/
inductive Issued (footer : Footer) (allowed : Nat → Sector → Prop) (map : BlockMap)
    (content : Content) : (current : Content) → (offset : Nat) → (data : ByteArray) → Prop where
  /-- The cached bitmap is stored. -/
  | bitmap {block start : Nat} (cached : map.bitmap.block = some block)
      (place : map.table.place? block = some start) :
      Issued footer allowed map content content (start * 512) map.bitmap.bytes
  /-- More zeros are appended. -/
  | zeros {position n m : Nat} {bytes : Sector} {current : Content} {zeros : Bytes m}
      (found : EndFound footer content position bytes)
      (zeroed : content.Zeroed current position n) (zero : ∀ i (hi : i < m), zeros[i] = 0)
      (fits : position + n + m < 2 ^ 64) :
      Issued footer allowed map content current (position + n) zeros.toByteArray
  /-- A footer is appended behind the zeros. -/
  | footer {position n : Nat} {bytes : Sector} {current : Content}
      (found : EndFound footer content position bytes)
      (zeroed : content.Zeroed current position n) (behind : content.size ≤ position + n)
      (some_zeros : 512 ≤ n) (fits : position + n + 512 < 2 ^ 64) :
      Issued footer allowed map content current (position + n) bytes.toByteArray
  /-- A block whose region was appended is recorded in the table. -/
  | entry {block start : Nat} {current : Content} (inside : block < map.table.size)
      (vacant : map.table.place? block = none)
      (appended : Appended footer map.header content start current) :
      Issued footer allowed map content current (map.table.offset + block * 4)
        (Bytes.ofNumber 4 (UInt32.ofNat start).toNat).toByteArray
  /-- A sector of data is stored. -/
  | data {sector start : Nat} {bytes : Sector}
      (place : map.table.place? (sector / map.header.sectorsPerBlock) = some start)
      (permitted : allowed sector bytes) :
      Issued footer allowed map content content
        (map.dataPlace start (sector % map.header.sectorsPerBlock)) bytes.toByteArray
  /-- A sector is stored in a region that was lost, because the table could not record it. -/
  | stray {position : Nat} {bytes : Sector} (unused : Unused footer map content position) :
      Issued footer allowed map content content position bytes.toByteArray

/-- On these terms operations on blocks use a disk. -/
structure Terms {ι : Type} (S : Setting ι) (footer : Footer) (allowed : Nat → Sector → Prop)
    (I : BlockMap → Content → Prop) : Prop where
  length : ∀ content, S.permits .length content
  read : ∀ offset size content, S.permits (.read offset size) content
  flush : ∀ content, S.permits .flush content
  write : ∀ map content current offset data, I map content →
    Issued footer allowed map content current offset data →
      S.permits (.write offset data) current
  advance : ∀ map content map' content', I map content →
    Advance footer allowed map content map' content' → I map' content'
  consistent : ∀ map content, I map content → Consistent footer map content

/-- As long as there is a block to allocate, there is room for it. -/
def Spacious {ι : Type} (S : Setting ι) (I : BlockMap → Content → Prop) : Prop :=
  ∀ map content, I map content → S.within content → 0 < map.table.vacant → content.size < sizeLimit

section Free

variable {ι : Type} {S : Setting ι} {footer : Footer} {allowed : Nat → Sector → Prop}

/-- Consistency is all that has to be kept. -/
theorem Terms.of_consistent (free : ∀ request content, S.permits request content) :
    Terms S footer allowed (Consistent footer) where
  length content := free _ content
  read _ _ content := free _ content
  flush content := free _ content
  write _ _ content _ _ _ _ := free _ content
  advance _ _ _ _ _ hadvance := hadvance.consistent
  consistent _ _ h := h

theorem Terms.free {ι : Type} (disk : ι) (mayFail : Prop) (within : Content → Prop)
    (footer : Footer) (allowed : Nat → Sector → Prop) :
    Terms (.free disk mayFail within) footer allowed (Consistent footer) :=
  .of_consistent fun _ _ => trivial

theorem Spacious.of_small {I : BlockMap → Content → Prop}
    (small : ∀ content, S.within content → content.size < sizeLimit) : Spacious S I :=
  fun _ content _ hw _ => small content hw

/-- There is room for all blocks that are not allocated yet. -/
structure SealedWithRoom (footer : Footer) (map : BlockMap) (content : Content) : Prop where
  consistent : Consistent footer map content
  isSealed : Sealed footer content
  size_le : content.size + map.header.allocationBytes * map.table.vacant ≤ sizeLimit

/-- Every block that is allocated takes a share of the room that was there for it. -/
theorem Terms.of_sealedWithRoom (free : ∀ request content, S.permits request content) :
    Terms S footer allowed (SealedWithRoom footer) where
  length content := free _ content
  read _ _ content := free _ content
  flush content := free _ content
  write _ _ content _ _ _ _ := free _ content
  advance map content map' content' h hadvance := by
    obtain ⟨hsealed, hsize⟩ := hadvance.balance h.isSealed
    refine ⟨hadvance.consistent, hsealed, ?_⟩
    rw [hadvance.header, hsize]
    exact h.size_le
  consistent _ _ h := h.consistent

theorem SealedWithRoom.spacious : Spacious S (SealedWithRoom footer) := by
  intro map content h _ hvacant
  have hle := h.size_le
  have hbytes := map.header.regionSectors_le_allocationBytes
  have hmul : 0 < map.header.allocationBytes * map.table.vacant := Nat.mul_pos (by omega) hvacant
  omega

theorem SealedWithRoom.size_lt {map : BlockMap} {content : Content}
    (h : SealedWithRoom footer map content) :
    content.size < 2 ^ 64 := by
  have hle := h.size_le
  rw [sizeLimit] at hle
  omega

end Free

end VirtualDisk
