import VirtualDisk.Proofs.Blocks.Appended
import VirtualDisk.Proofs.Blocks.Terms
import VirtualDisk.Proofs.Blocks.Written

/-!
# What operations on blocks do to any storage

Nothing is assumed here about the storage: it may hold any bytes, and what header and table say
about it may be wrong. The map in memory is `WellSized`, which is all that opening an image
guarantees. Then an operation on blocks is a sequence of the steps that `Effect` lists, and issues
the requests that `Asked` lists. The two are parametrised by the blocks that the operation wants.

A `Regime` is an invariant that every effect keeps, together with the right to issue these
requests.
-/

namespace VirtualDisk

open Storage

/-- The causes that blame the library: a number that was computed has left its range. All other
causes lie in the image, in the storage or in the request. -/
def Error.IsSlip : Error → Prop
  | .offsetOverflow => True
  | .corrupt .blockOutOfRange => True
  | .corrupt .bitmapTooSmall => True
  | .trap _ => True
  | _ => False

/-- The numbers of the map in memory are in their ranges, whatever the storage holds. -/
structure WellSized (map : BlockMap) : Prop where
  sectors_pos : 0 < map.header.sectorsPerBlock
  bytes_le : map.table.size * 4 ≤ BlockTable.maxBytes
  table_fits : map.table.offset + map.table.size * 4 < 2 ^ 64
  size_bytes : map.bitmap.bytes.size = map.header.bitmapSectors * 512
  block_lt : ∀ block, map.bitmap.block = some block → block < map.table.size

namespace WellSized

variable {map : BlockMap} {sector : Nat}

theorem size_lt (h : WellSized map) : map.table.size < 2 ^ 32 := by
  have hbytes := h.bytes_le
  rw [BlockTable.maxBytes] at hbytes
  omega

theorem locate_eq (h : WellSized map) (hsector : sector < map.capacity) :
    map.locate sector =
      .ok (sector / map.header.sectorsPerBlock, sector % map.header.sectorsPerBlock) :=
  BlockMap.locate_of_lt h.sectors_pos h.size_lt hsector

theorem div_lt_size_bytes (h : WellSized map) {i : Nat} (hi : i < map.header.sectorsPerBlock) :
    i / 8 < map.bitmap.bytes.size := by
  rw [h.size_bytes]
  exact BlockHeader.div_lt_bitmapSectors hi

theorem withBitmap (h : WellSized map) {bitmap : BitmapCache}
    (size : bitmap.bytes.size = map.bitmap.bytes.size)
    (block_lt : ∀ block, bitmap.block = some block → block < map.table.size) :
    WellSized { map with bitmap } :=
  ⟨h.sectors_pos, h.bytes_le, h.table_fits, size.trans h.size_bytes, block_lt⟩

theorem allocated (h : WellSized map) (block start : Nat) :
    WellSized (map.allocated block start) := by
  have hsize : (map.allocated block start).table.size = map.table.size :=
    BlockTable.withEntry_size _
  refine ⟨h.sectors_pos, ?_, ?_, h.size_bytes, fun other hother => ?_⟩
  · rw [hsize]
    exact h.bytes_le
  · rw [hsize]
    exact h.table_fits
  · rw [hsize]
    exact h.block_lt other hother

end WellSized

namespace Storage.Content

/-- The last sector begins with the cookie of a footer. -/
def EndsLikeFooter (content : Content) : Prop :=
  512 ≤ content.size ∧ Footer.hasCookie content.tail.toByteArray = true

instance (content : Content) : Decidable content.EndsLikeFooter :=
  inferInstanceAs (Decidable (_ ∧ _))

/-- Where the storage ends, but for what looks like its footer. -/
def front (content : Content) : Nat :=
  if content.EndsLikeFooter then content.size - 512 else content.size

/-- What is appended behind a new block: the last sector, if it looks like a footer, or else the
first one. -/
def trailer (content : Content) : Sector :=
  if content.EndsLikeFooter then content.tail else content.read 0 512

/-- Another block can be appended: there is a trailer, and the storage is not too large. -/
structure Appendable (content : Content) : Prop where
  size_ge : 512 ≤ content.size
  hasCookie : Footer.hasCookie content.trailer.toByteArray = true
  size_le : content.size ≤ sizeLimit

variable (content : Content)

theorem front_le : content.front ≤ content.size := by
  unfold front
  split
  · exact Nat.sub_le _ _
  · exact Nat.le_refl _

theorem size_le_front : content.size ≤ content.front + 512 := by
  unfold front
  split <;> omega

end Storage.Content

/-- Zeros for a block and its filler were written where the storage ended, beginning with the next
whole sector, and the trailer behind them. -/
structure Extended (header : BlockHeader) (content : Content) (start : Nat) (content' : Content) :
    Prop where
  start_lt : start < 2 ^ 32
  front_le : content.front ≤ start * 512
  start_le : start * 512 < content.front + 512
  hasCookie : Footer.hasCookie content.trailer.toByteArray = true
  size_eq : content'.size = start * 512 + header.allocationBytes + 512
  agree : content.AgreeOn content' 0 content.front
  zero : ∀ p, content.front ≤ p → p < start * 512 + header.allocationBytes → content'.byte p = 0
  tail_eq : content'.tail = content.trailer

theorem Storage.Content.Zeroed.extended {header : BlockHeader} {content current : Content}
    {start n : Nat} (zeroed : content.Zeroed current content.front n)
    (hend : content.front + n = start * 512 + header.allocationBytes) (start_lt : start < 2 ^ 32)
    (front_le : content.front ≤ start * 512) (start_le : start * 512 < content.front + 512)
    (hasCookie : Footer.hasCookie content.trailer.toByteArray = true) :
    Extended header content start
      (current.write (start * 512 + header.allocationBytes) content.trailer) := by
  have hregion := header.regionSectors_le_allocationBytes
  have hsize := zeroed.size_eq
  have hfront := content.front_le
  have hback := content.size_le_front
  have hsize' : (current.write (start * 512 + header.allocationBytes) content.trailer).size =
      start * 512 + header.allocationBytes + 512 := by
    rw [Content.size_write]
    omega
  refine ⟨start_lt, front_le, start_le, hasCookie, hsize', fun p _ hp => ?_, fun p hp hp' => ?_, ?_⟩
  · rw [Content.byte_write, dif_neg (by omega), zeroed.byte_eq, if_neg (by omega)]
  · rw [Content.byte_write, dif_neg (by omega), zeroed.byte_eq, if_pos (by omega)]
  · rw [Content.tail, hsize', Nat.add_sub_cancel]
    exact Content.read_write_same _ _ _

theorem Extended.grown {header : BlockHeader} {content content' : Content} {start : Nat}
    (extended : Extended header content start content') : content.Grown content' := by
  have hback := content.size_le_front
  have hfront := extended.front_le
  have hfiller := header.regionSectors_le_allocationBytes
  have hsize := extended.size_eq
  exact ⟨by omega, extended.agree.mono (Nat.le_refl _) (by omega)⟩

namespace BlockMap

/-- The cache once the bitmap of a block was loaded. A block that is not stored has no bit set. -/
def fetched (map : BlockMap) (content : Content) (block : Nat) : BitmapCache where
  bytes := match map.table.place? block with
    | some start => (content.read (start * 512) map.bitmap.bytes.size).toByteArray
    | none => (Bytes.zero map.bitmap.bytes.size).toByteArray
  block := some block
  dirty := false

variable {map : BlockMap} {content : Content} {block start : Nat}

theorem size_bytes_fetched (map : BlockMap) (content : Content) (block : Nat) :
    (map.fetched content block).bytes.size = map.bitmap.bytes.size := by
  unfold fetched
  dsimp only
  split
  · exact Bytes.size_toByteArray _
  · exact Bytes.size_toByteArray _

theorem fetched_of_place (place : map.table.place? block = some start) :
    map.fetched content block =
      ⟨(content.read (start * 512) map.bitmap.bytes.size).toByteArray, some block, false⟩ := by
  simp only [fetched, place]

theorem fetched_of_vacant (vacant : map.table.place? block = none) :
    map.fetched content block =
      ⟨(Bytes.zero map.bitmap.bytes.size).toByteArray, some block, false⟩ := by
  simp only [fetched, vacant]

theorem test_fetched (content : Content) (block : Nat) {i : Nat}
    (hi : i / 8 < map.bitmap.bytes.size) :
    (map.fetched content block).test i = map.storedBit content block i := by
  cases h : map.table.place? block with
  | none => rw [fetched_of_vacant h, storedBit_of_vacant h, BitmapCache.test_zero]
  | some start =>
    rw [fetched_of_place h, storedBit_of_place h]
    exact content.test_read (some block) false hi

end BlockMap

/-- A block that is wanted if it is stored. -/
def Sought (wanted : Nat → Prop) (table : BlockTable) (block : Nat) : Prop :=
  ∀ start, table.place? block = some start → wanted block

theorem Sought.of_wanted {wanted : Nat → Prop} {block : Nat} (asked : wanted block)
    (table : BlockTable) : Sought wanted table block :=
  fun _ _ => asked

/-- A block that is wanted and not allocated. -/
structure Missing (wanted : Nat → Prop) (table : BlockTable) (block : Nat) : Prop where
  wanted : wanted block
  inside : block < table.size
  vacant : table.place? block = none

/-- A block that is appended too far behind is not recorded by its entry. -/
theorem Extended.allocated_eq {wanted : Nat → Prop} {map : BlockMap} {content content' : Content}
    {block start : Nat} (h : Extended map.header content start content')
    (missing : Missing wanted map.table block) (far : 2 ^ 32 - 1 ≤ start) :
    map.allocated block start = map := by
  have hlt := h.start_lt
  obtain rfl : start = 2 ^ 32 - 1 := by omega
  have hentry : map.table.withEntry block (UInt32.ofNat (2 ^ 32 - 1)) = map.table :=
    BlockTable.withEntry_unallocated missing.inside missing.vacant
  rw [BlockMap.allocated, hentry]

/-- One step of an operation that wants certain blocks. -/
inductive Effect (wanted : Nat → Prop) (map : BlockMap) (content : Content) :
    BlockMap → Content → Prop where
  /-- The cached bitmap is stored. -/
  | stored {block start : Nat} (cached : map.bitmap.block = some block)
      (place : map.table.place? block = some start) :
      Effect wanted map content map.cleaned
        (content.write (start * 512) (Bytes.ofByteArray map.bitmap.bytes))
  /-- The bitmap of a block is cached. -/
  | loaded {block : Nat} (sought : Sought wanted map.table block)
      (inside : block < map.table.size) :
      Effect wanted map content { map with bitmap := map.fetched content block } content
  /-- Zeros are appended for a missing block, up to a whole sector. -/
  | begun {block n : Nat} {content' : Content} (missing : Missing wanted map.table block)
      (zeroed : content.Zeroed content' content.front n)
      (whole : n = 0 ∨ (content.front + n) % 512 = 0) : Effect wanted map content map content'
  /-- Zeros and a trailer are appended for a missing block. -/
  | extended {block start : Nat} {content' : Content} (missing : Missing wanted map.table block)
      (extended : Extended map.header content start content') :
      Effect wanted map content map content'
  /-- A missing block is appended and recorded in the table. -/
  | allocated {block start : Nat} {content' : Content} (missing : Missing wanted map.table block)
      (extended : Extended map.header content start content') :
      Effect wanted map content (map.allocated block start)
        (content'.withEntry map.table block start)
  /-- A sector of the block whose bitmap is cached is stored, and its bit is set. -/
  | written {block start i : Nat} {bitmap : BitmapCache} {bytes : Sector} (asked : wanted block)
      (cached : map.bitmap.block = some block) (place : map.table.place? block = some start)
      (inside : i < map.header.sectorsPerBlock) (hasSet : BitmapCache.HasSet i map.bitmap bitmap) :
      Effect wanted map content { map with bitmap } (content.write (map.dataPlace start i) bytes)
  /-- A missing block is appended too far behind to be recorded, and a sector of it is stored. -/
  | stray {block start i : Nat} {content' : Content} {bitmap : BitmapCache} {bytes : Sector}
      (missing : Missing wanted map.table block)
      (extended : Extended map.header content start content') (far : 2 ^ 32 - 1 ≤ start)
      (inside : i < map.header.sectorsPerBlock) (hasSet : BitmapCache.HasSet i map.bitmap bitmap) :
      Effect wanted map content { map with bitmap }
        ((content'.withEntry map.table block start).write (map.dataPlace start i) bytes)

/-- A request of an operation that wants certain blocks. The storage may have moved on since the
last effect, while a block is appended. -/
inductive Asked (wanted : Nat → Prop) (map : BlockMap) (content : Content) :
    (current : Content) → Request → Prop where
  /-- The bitmap of a wanted block is read. -/
  | loadBitmap {block start : Nat} (asked : wanted block)
      (place : map.table.place? block = some start) :
      Asked wanted map content content (.read (start * 512) map.bitmap.bytes.size)
  /-- A sector of a wanted block is read. -/
  | readData {block start i : Nat} (asked : wanted block)
      (place : map.table.place? block = some start) (inside : i < map.header.sectorsPerBlock) :
      Asked wanted map content content (.read (map.dataPlace start i) 512)
  /-- The cached bitmap is stored. -/
  | storeBitmap {block start : Nat} (cached : map.bitmap.block = some block)
      (place : map.table.place? block = some start) :
      Asked wanted map content content (.write (start * 512) map.bitmap.bytes)
  /-- A sector of a wanted block is stored. -/
  | writeData {block start i : Nat} {bytes : Sector} (asked : wanted block)
      (place : map.table.place? block = some start) (inside : i < map.header.sectorsPerBlock) :
      Asked wanted map content content (.write (map.dataPlace start i) bytes.toByteArray)
  /-- The end of the storage is looked for. -/
  | measure {block : Nat} (missing : Missing wanted map.table block) :
      Asked wanted map content content .length
  /-- A footer is looked for. -/
  | findFooter {block position : Nat} (missing : Missing wanted map.table block) :
      Asked wanted map content content (.read position 512)
  /-- More zeros are appended. -/
  | zeros {block n m : Nat} {zeros : Bytes m} {current : Content}
      (missing : Missing wanted map.table block)
      (zeroed : content.Zeroed current content.front n) (zero : ∀ i (hi : i < m), zeros[i] = 0) :
      Asked wanted map content current (.write (content.front + n) zeros.toByteArray)
  /-- The trailer is appended. -/
  | trailer {block start n : Nat} {current : Content} (missing : Missing wanted map.table block)
      (zeroed : content.Zeroed current content.front n)
      (extended : Extended map.header content start
        (current.write (start * 512 + map.header.allocationBytes) content.trailer)) :
      Asked wanted map content current
        (.write (start * 512 + map.header.allocationBytes) content.trailer.toByteArray)
  /-- A block that was appended is recorded in the table. -/
  | record {block start : Nat} {current : Content} (missing : Missing wanted map.table block)
      (extended : Extended map.header content start current) :
      Asked wanted map content current
        (.write (map.table.offset + block * 4)
          (Bytes.ofNumber 4 (UInt32.ofNat start).toNat).toByteArray)
  /-- A sector is stored in a region that was too far behind to be recorded. -/
  | stray {block start i : Nat} {current : Content} {bytes : Sector}
      (missing : Missing wanted map.table block)
      (extended : Extended map.header content start current) (far : 2 ^ 32 - 1 ≤ start)
      (inside : i < map.header.sectorsPerBlock) :
      Asked wanted map content (current.withEntry map.table block start)
        (.write (map.dataPlace start i) bytes.toByteArray)
  /-- The storage is made durable. -/
  | sync : Asked wanted map content content .flush

/-- An invariant that all effects keep, and the right to issue the requests. -/
structure Regime {ι : Type} (S : Setting ι) (wanted : Nat → Prop)
    (I : BlockMap → Content → Prop) : Prop where
  small : ∀ content, S.within content → content.size < 2 ^ 63
  wellSized : ∀ map content, I map content → WellSized map
  ask : ∀ map content current request, I map content → S.within content →
    Asked wanted map content current request → S.permits request current
  effect : ∀ map content map' content', I map content → S.within content → S.within content' →
    Effect wanted map content map' content' → I map' content'

namespace Effect

variable {wanted : Nat → Prop} {map map' : BlockMap} {content content' : Content}

theorem header_eq (effect : Effect wanted map content map' content') :
    map'.header = map.header := by
  cases effect with
  | _ => rfl

theorem offset_eq (effect : Effect wanted map content map' content') :
    map'.table.offset = map.table.offset := by
  cases effect with
  | _ => rfl

theorem size_eq (effect : Effect wanted map content map' content') :
    map'.table.size = map.table.size := by
  cases effect with
  | allocated => exact BlockTable.withEntry_size _
  | _ => rfl

theorem capacity_eq (effect : Effect wanted map content map' content') :
    map'.capacity = map.capacity := by
  rw [BlockMap.capacity, effect.header_eq, effect.size_eq, BlockMap.capacity]

/-- Only wanted blocks are given a place. -/
theorem place?_eq (effect : Effect wanted map content map' content') {block : Nat}
    (unasked : ¬ wanted block) : map'.table.place? block = map.table.place? block := by
  cases effect with
  | allocated missing extended =>
    refine BlockTable.place?_withEntry_of_ne ?_
    rintro rfl
    exact unasked missing.wanted
  | _ => rfl

end Effect

/-- Every effect keeps the numbers of the map in their ranges. -/
theorem WellSized.effect {wanted : Nat → Prop} {map map' : BlockMap} {content content' : Content}
    (h : WellSized map) (effect : Effect wanted map content map' content') : WellSized map' := by
  cases effect with
  | stored cached place => exact h.withBitmap rfl h.block_lt
  | @loaded block sought inside =>
    refine h.withBitmap (map.size_bytes_fetched content block) fun other hother => ?_
    obtain rfl := Option.some.inj hother
    exact inside
  | begun missing zeroed whole => exact h
  | extended missing extended => exact h
  | allocated missing extended => exact h.allocated _ _
  | written asked cached place inside hasSet =>
    refine h.withBitmap hasSet.size_bytes ?_
    rw [hasSet.block]
    exact h.block_lt
  | stray missing extended far inside hasSet =>
    refine h.withBitmap hasSet.size_bytes ?_
    rw [hasSet.block]
    exact h.block_lt

end VirtualDisk
