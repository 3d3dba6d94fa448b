import VirtualDisk.Blocks.Allocation
import VirtualDisk.Proofs.Blocks.Consistent

/-!
# Steps of an image with blocks

An operation on blocks is a sequence of few kinds of steps: the cached bitmap is stored, another
one is loaded, a region is appended, the entry of a block is recorded, a sector of data is stored
and its bit set. Each step leads from one consistent image to another. `Follows` says what a step
may do to the sectors: none gets other bytes but those that are allowed, and what the storage
holds of a sector stays or becomes what the image holds of it. Sequences of steps follow again.

`Balance` accounts for the size. As long as the storage ends with its footer, a block that gets
allocated costs a fixed number of bytes.
-/

namespace VirtualDisk

open Storage

/-- The second state comes from the first, and only allowed bytes were given to sectors. -/
structure Follows (footer : Footer) (allowed : Nat → Sector → Prop) (map : BlockMap)
    (content : Content) (map' : BlockMap) (content' : Content) : Prop where
  consistent : Consistent footer map' content'
  header : map'.header = map.header
  held : ∀ sector, map'.held content' sector = map.held content sector ∨
    ∃ bytes, allowed sector bytes ∧ map'.held content' sector = some bytes
  stored : ∀ sector, map'.stored content' sector = map.stored content sector ∨
    map'.stored content' sector = map.held content sector ∨
    ∃ bytes, allowed sector bytes ∧ map'.stored content' sector = some bytes

/-- Steps that give no sector other bytes. -/
abbrev Quiet (footer : Footer) := Follows footer fun _ _ => False

namespace BlockHeader

/-- What the storage grows by when a block takes the place of the footer. -/
def allocationBytes (header : BlockHeader) : Nat :=
  (header.regionSectors + BlockMap.fillerSectors) * 512

end BlockHeader

/-- Sealed storages stay sealed, and pay the same price for every block. -/
def Balance (footer : Footer) (map : BlockMap) (content : Content) (map' : BlockMap)
    (content' : Content) : Prop :=
  Sealed footer content → Sealed footer content' ∧
    content'.size + map.header.allocationBytes * map'.table.vacant =
      content.size + map.header.allocationBytes * map.table.vacant

/-- A step that did not fail. -/
structure Advance (footer : Footer) (allowed : Nat → Sector → Prop) (map : BlockMap)
    (content : Content) (map' : BlockMap) (content' : Content) : Prop extends
    Follows footer allowed map content map' content' where
  balance : Balance footer map content map' content'

section Composition

variable {footer : Footer} {allowed : Nat → Sector → Prop} {map map' map'' : BlockMap}
variable {content content' content'' : Content}

namespace Follows

theorem refl (h : Consistent footer map content) :
    Follows footer allowed map content map content :=
  ⟨h, rfl, fun _ => .inl rfl, fun _ => .inl rfl⟩

theorem mono {allowed' : Nat → Sector → Prop} (h : Follows footer allowed map content map' content')
    (imp : ∀ sector bytes, allowed sector bytes → allowed' sector bytes) :
    Follows footer allowed' map content map' content' where
  consistent := h.consistent
  header := h.header
  held sector := (h.held sector).imp_right fun ⟨bytes, hbytes, heq⟩ => ⟨bytes, imp _ _ hbytes, heq⟩
  stored sector := (h.stored sector).imp_right fun hs =>
    hs.imp_right fun ⟨bytes, hbytes, heq⟩ => ⟨bytes, imp _ _ hbytes, heq⟩

theorem trans (h : Follows footer allowed map content map' content')
    (h' : Follows footer allowed map' content' map'' content'') :
    Follows footer allowed map content map'' content'' where
  consistent := h'.consistent
  header := h'.header.trans h.header
  held sector := by
    obtain heq | hallowed := h'.held sector
    · rw [heq]
      exact h.held sector
    · exact .inr hallowed
  stored sector := by
    obtain heq | heq | hallowed := h'.stored sector
    · rw [heq]
      exact h.stored sector
    · rw [heq]
      exact .inr (h.held sector)
    · exact .inr (.inr hallowed)

theorem of_quiet (h : Quiet footer map content map' content') :
    Follows footer allowed map content map' content' :=
  h.mono fun _ _ hfalse => hfalse.elim

theorem held_eq (h : Quiet footer map content map' content') (sector : Nat) :
    map'.held content' sector = map.held content sector :=
  (h.held sector).resolve_right fun ⟨_, hfalse, _⟩ => hfalse

theorem held_eq_of_ne {sector : Nat} {bytes : Sector} (h : Follows footer
    (fun other other' => other = sector ∧ other' = bytes) map content map' content') (other : Nat)
    (hne : other ≠ sector) : map'.held content' other = map.held content other :=
  (h.held other).resolve_right fun ⟨_, ⟨heq, _⟩, _⟩ => hne heq

theorem size_eq (h : Follows footer allowed map content map' content')
    (start : Consistent footer map content) : map'.table.size = map.table.size := by
  rw [h.consistent.onDisk.fits.size_eq, start.onDisk.fits.size_eq, h.header]

theorem capacity_eq (h : Follows footer allowed map content map' content')
    (start : Consistent footer map content) : map'.capacity = map.capacity := by
  rw [BlockMap.capacity, h.size_eq start, h.header, BlockMap.capacity]

end Follows

theorem Balance.refl : Balance footer map content map content := fun h => ⟨h, rfl⟩

theorem Balance.trans (h : Balance footer map content map' content')
    (header : map'.header = map.header) (h' : Balance footer map' content' map'' content'') :
    Balance footer map content map'' content'' := by
  intro hsealed
  obtain ⟨hsealed', hsize⟩ := h hsealed
  obtain ⟨hsealed'', hsize'⟩ := h' hsealed'
  rw [header] at hsize'
  exact ⟨hsealed'', hsize'.trans hsize⟩

theorem Balance.of_eq (table : map'.table = map.table) (size : content'.size = content.size)
    (tail : content'.tail = content.tail) : Balance footer map content map' content' := by
  intro hsealed
  rw [Sealed, tail, table, size]
  exact ⟨hsealed, rfl⟩

namespace Advance

theorem refl (h : Consistent footer map content) :
    Advance footer allowed map content map content :=
  ⟨.refl h, .refl⟩

theorem trans (h : Advance footer allowed map content map' content')
    (h' : Advance footer allowed map' content' map'' content'') :
    Advance footer allowed map content map'' content'' :=
  ⟨h.toFollows.trans h'.toFollows, h.balance.trans h.header h'.balance⟩

theorem mono {allowed' : Nat → Sector → Prop} (h : Advance footer allowed map content map' content')
    (imp : ∀ sector bytes, allowed sector bytes → allowed' sector bytes) :
    Advance footer allowed' map content map' content' :=
  ⟨h.toFollows.mono imp, h.balance⟩

theorem of_quiet (h : Advance footer (fun _ _ => False) map content map' content') :
    Advance footer allowed map content map' content' :=
  h.mono fun _ _ hfalse => hfalse.elim

end Advance

end Composition

section Bitmap

variable {footer : Footer} {map : BlockMap} {content : Content} {block start m : Nat}

/-- A beginning of the cached bitmap was stored. -/
structure BitmapPart (map : BlockMap) (part : Bytes m) : Prop where
  size_le : m ≤ map.header.bitmapSectors * 512
  bytes : ∀ i (hi : i < m), map.bitmap.bytes[i]? = some part[i]

theorem BitmapPart.storedBit {part : Bytes m} (h : BitmapPart map part) (content : Content)
    (place : map.table.place? block = some start) (i : Nat) :
    map.storedBit (content.write (start * 512) part) block i =
      if i / 8 < m then map.bitmap.test i else map.storedBit content block i := by
  rw [BlockMap.storedBit_of_place place, BlockMap.storedBit_of_place place, Content.bit,
    Content.byte_write]
  by_cases hi : i / 8 < m
  · have hbyte := h.bytes (i / 8) hi
    rw [dif_pos (by omega), if_pos hi, BitmapCache.test]
    simp only [hbyte, Nat.add_sub_cancel_left]
  · rw [dif_neg (by omega), if_neg hi, Content.bit]

theorem BitmapPart.data {part : Bytes m} (h : BitmapPart map part)
    (hdisk : OnDisk footer map.header map.table content)
    (place : map.table.place? block = some start) {other i : Nat}
    (hi : i < map.header.sectorsPerBlock) (allocated : (map.table.place? other).isSome) :
    map.data (content.write (start * 512) part) other i = map.data content other i := by
  have hsize := h.size_le
  by_cases hother : other = block
  · subst hother
    rw [BlockMap.data_of_place place, BlockMap.data_of_place place]
    exact Content.read_write_of_disjoint content part (by omega)
  · refine BlockMap.data_congr hi rfl rfl (fun start' place' => ?_) allocated
    refine hdisk.sameRegion_write place (Nat.le_refl _) ?_ part hother place'
    rw [BlockHeader.regionSectors_eq]
    omega

theorem BitmapPart.onDisk {part : Bytes m} (h : BitmapPart map part)
    (hdisk : OnDisk footer map.header map.table content)
    (place : map.table.place? block = some start) :
    OnDisk footer map.header map.table (content.write (start * 512) part) := by
  have hsize := h.size_le
  refine hdisk.write_region place (Nat.le_refl _) ?_ part
  rw [BlockHeader.regionSectors_eq]
  omega

/-- Of every sector the storage holds what it held before or what the image holds. -/
theorem BitmapPart.stored {part : Bytes m} (h : BitmapPart map part)
    (hmap : Consistent footer map content) (cached : map.bitmap.block = some block)
    (place : map.table.place? block = some start) (sector : Nat) :
    map.stored (content.write (start * 512) part) sector = map.stored content sector ∨
      map.stored (content.write (start * 512) part) sector = map.held content sector := by
  have hpos := hmap.onDisk.fits.sectors_pos
  have hi := Nat.mod_lt sector hpos
  by_cases hblock : sector / map.header.sectorsPerBlock = block
  · have hsome : (map.table.place? block).isSome := by rw [place]; rfl
    have hdata := h.data hmap.onDisk place hi hsome
    have hbit := h.storedBit content place (sector % map.header.sectorsPerBlock)
    simp only [BlockMap.stored, BlockMap.held, hblock, hdata, hbit,
      BlockMap.heldBit_of_cached cached]
    split
    · exact .inr rfl
    · exact .inl rfl
  · have hsize := h.size_le
    refine .inl (BlockMap.stored_congr hpos rfl rfl fun start' place' => ?_)
    refine hmap.onDisk.sameRegion_write place (Nat.le_refl _) ?_ part hblock place'
    rw [BlockHeader.regionSectors_eq]
    omega

theorem BitmapPart.whole (hmap : Coherent map content) :
    BitmapPart map (Bytes.ofByteArray map.bitmap.bytes) where
  size_le := Nat.le_of_eq hmap.size_bytes
  bytes i hi := getElem?_pos map.bitmap.bytes i hi

/-- The map after its bitmap was stored. -/
def BlockMap.cleaned (map : BlockMap) : BlockMap :=
  { map with bitmap := { map.bitmap with dirty := false } }

/-- Storing the cached bitmap is a quiet step. -/
theorem Consistent.store_bitmap (hmap : Consistent footer map content)
    (cached : map.bitmap.block = some block) (place : map.table.place? block = some start) :
    Advance footer (fun _ _ => False) map content map.cleaned
      (content.write (start * 512) (Bytes.ofByteArray map.bitmap.bytes)) := by
  have hpart := BitmapPart.whole hmap.coherent
  have hpos := hmap.onDisk.fits.sectors_pos
  have hregion : start * 512 + map.bitmap.bytes.size ≤
      start * 512 + map.header.regionSectors * 512 := by
    have := hpart.size_le
    rw [BlockHeader.regionSectors_eq]
    omega
  have hsize := hmap.onDisk.size_write_region place hregion (Bytes.ofByteArray map.bitmap.bytes)
  have hbit : ∀ i, i < map.header.sectorsPerBlock →
      map.storedBit (content.write (start * 512) (Bytes.ofByteArray map.bitmap.bytes)) block i =
        map.bitmap.test i := by
    intro i hi
    have hlt := BlockHeader.div_lt_bitmapSectors hi
    rw [hpart.storedBit content place, if_pos (by rw [hmap.coherent.size_bytes]; exact hlt)]
  have hother : ∀ other, other ≠ block → ∀ start', map.table.place? other = some start' →
      BlockMap.SameRegion map.header content
        (content.write (start * 512) (Bytes.ofByteArray map.bitmap.bytes)) start' :=
    fun other hne start' place' =>
      hmap.onDisk.sameRegion_write place (Nat.le_refl _) hregion _ hne place'
  refine ⟨⟨⟨hpart.onDisk hmap.onDisk place, ?_, ?_⟩, rfl, fun sector => .inl ?_, fun sector => ?_⟩,
    .of_eq rfl hsize (hmap.onDisk.tail_write_region place hregion _)⟩
  · rw [hsize]
    exact hmap.aligned
  · refine ⟨hmap.coherent.size_bytes, hmap.coherent.block_lt, ?_, ?_, fun hdirty => by cases hdirty⟩
    · intro other i hblock hi hstored
      obtain rfl : block = other := Option.some.inj (cached.symm.trans hblock)
      exact (hbit i hi).symm.trans hstored
    · intro _ other i hblock hi htest
      obtain rfl : block = other := Option.some.inj (cached.symm.trans hblock)
      exact (hbit i hi).trans htest
  · have hi := Nat.mod_lt sector hpos
    by_cases hblock : sector / map.header.sectorsPerBlock = block
    · refine BlockMap.present_congr ?_ fun hheld => ?_
      · change map.cleaned.heldBit _ (sector / map.header.sectorsPerBlock) _ = _
        rw [hblock, BlockMap.heldBit_of_cached cached, BlockMap.heldBit_of_cached (by exact cached)]
        rfl
      · exact hpart.data hmap.onDisk place hi (hmap.coherent.isSome_place_of_heldBit hi hheld)
    · have hne : map.bitmap.block ≠ some (sector / map.header.sectorsPerBlock) := by
        rw [cached]
        exact fun heq => hblock (Option.some.inj heq).symm
      refine BlockMap.present_congr ?_ fun hheld => ?_
      · change map.cleaned.heldBit _ (sector / map.header.sectorsPerBlock) _ = _
        rw [BlockMap.heldBit_of_ne hne, BlockMap.heldBit_of_ne (by exact hne)]
        exact BlockMap.storedBit_congr hi rfl (hother _ hblock)
      · exact hpart.data hmap.onDisk place hi (hmap.coherent.isSome_place_of_heldBit hi hheld)
  · obtain heq | heq := hpart.stored hmap cached place sector
    · exact .inl heq
    · exact .inr (.inl heq)

/-- Caching the bitmap of a block is a quiet step, if there are no changes to lose. -/
theorem Consistent.load_bitmap (hmap : Consistent footer map content)
    (clean : map.bitmap.dirty = false) (hblock : block < map.table.size) {bitmap : BitmapCache}
    (cached : bitmap.block = some block) (clean' : bitmap.dirty = false)
    (size : bitmap.bytes.size = map.header.bitmapSectors * 512)
    (bits : ∀ i, i < map.header.sectorsPerBlock →
      bitmap.test i = map.storedBit content block i) :
    Advance footer (fun _ _ => False) map content { map with bitmap } content := by
  have hpos := hmap.onDisk.fits.sectors_pos
  have hcoherent : Coherent { map with bitmap } content := by
    refine ⟨size, fun other hother => ?_, fun other i hother hi hbit => ?_,
      fun _ other i hother hi hbit => ?_, fun hdirty => ?_⟩
    · obtain rfl : block = other := Option.some.inj (cached.symm.trans hother)
      exact hblock
    · obtain rfl : block = other := Option.some.inj (cached.symm.trans hother)
      exact (bits i hi).trans hbit
    · obtain rfl : block = other := Option.some.inj (cached.symm.trans hother)
      exact (bits i hi).symm.trans hbit
    · exact absurd (clean'.symm.trans hdirty) Bool.false_ne_true
  refine ⟨⟨⟨hmap.onDisk, hmap.aligned, hcoherent⟩, rfl, fun sector => .inl ?_, fun _ => .inl rfl⟩,
    .of_eq rfl rfl rfl⟩
  rw [hcoherent.held_eq clean' hpos, hmap.coherent.held_eq clean hpos]
  rfl

end Bitmap

section Growth

variable {footer : Footer} {map : BlockMap} {content content' : Content}

theorem Follows.of_sameRegion (hmap : Consistent footer map content)
    (hdisk : OnDisk footer map.header map.table content') (aligned : content'.size % 512 = 0)
    (same : ∀ block start, map.table.place? block = some start →
      BlockMap.SameRegion map.header content content' start) :
    Quiet footer map content map content' := by
  have hpos := hmap.onDisk.fits.sectors_pos
  refine ⟨⟨hdisk, aligned, ?_⟩, rfl, fun sector => .inl ?_, fun sector => .inl ?_⟩
  · exact hmap.coherent.of_sameRegion rfl rfl rfl (fun _ _ => rfl) fun block start _ =>
      same block start
  · exact hmap.coherent.held_congr hpos rfl rfl rfl (same _)
  · exact BlockMap.stored_congr hpos rfl rfl (same _)

theorem Consistent.grown (hmap : Consistent footer map content) (grown : content.Grown content')
    (tail : NoForeignFooter footer content') (aligned : content'.size % 512 = 0) :
    Quiet footer map content map content' :=
  .of_sameRegion hmap (hmap.onDisk.grown grown tail) aligned fun _ _ place =>
    hmap.onDisk.sameRegion_grown grown place

/-- A place in the storage that the image does not use. -/
structure Unused (footer : Footer) (map : BlockMap) (content : Content) (position : Nat) :
    Prop where
  clear : Clear footer map.table position 512
  behind : ∀ block start, map.table.place? block = some start →
    start * 512 + map.header.regionSectors * 512 ≤ position
  room : position + 512 + 512 ≤ content.size

variable {position n : Nat}

theorem Unused.size_write (h : Unused footer map content position) (hn : n ≤ 512) (data : Bytes n) :
    (content.write position data).size = content.size := by
  have hroom := h.room
  rw [Content.size_write]
  omega

theorem Unused.tail_write (h : Unused footer map content position) (hn : n ≤ 512) (data : Bytes n) :
    (content.write position data).tail = content.tail := by
  have hroom := h.room
  rw [Content.tail, h.size_write hn]
  exact Content.read_write_of_disjoint content data (by omega)

theorem Unused.quiet (h : Unused footer map content position) (hmap : Consistent footer map content)
    (hn : n ≤ 512) (data : Bytes n) :
    Quiet footer map content map (content.write position data) := by
  have hroom := h.room
  refine .of_sameRegion hmap
    (hmap.onDisk.write_clear (h.clear.mono (Nat.le_refl _) (by omega)) (by omega) data) ?_ ?_
  · rw [h.size_write hn]
    exact hmap.aligned
  · intro block start place
    exact content.agreeOn_write data (.inl (h.behind block start place))

end Growth

end VirtualDisk
