import VirtualDisk.Proofs.Blocks.Torn
import VirtualDisk.Proofs.Blocks.Transferring

/-!
# Writes that outgrow the table

An entry cannot record sector `2 ^ 32 - 1`, whose number stands for no sector. A block whose
region is appended just there is recorded in vain: the region is lost, but a sector is stored in
it and its bit is set in the cached bitmap, which now has changes for a block that the table does
not know. The image is stranded, and whatever is written next fails before anything else reaches
the storage. The storage still is that of an image with old and new sectors.
-/

namespace VirtualDisk

open Storage

variable {ι : Type} {S : Setting ι} {footer : Footer} {header : BlockHeader}
variable {allowed : Nat → Sector → Prop} {old : Nat → Option Sector} {base map map' : BlockMap}
variable {content content' current : Content} {sector block start : Nat} {bytes : Sector}

/-- The cached bitmap has changes for a block that is not stored, and the storage has more sectors
than can be numbered. -/
structure Stranded (footer : Footer) (header : BlockHeader) (allowed : Nat → Sector → Prop)
    (old : Nat → Option Sector) (base map : BlockMap) (content : Content) : Prop where
  underway : Underway footer header allowed old base content
  eq_base : map = { base with bitmap := map.bitmap }
  dirty : map.bitmap.dirty = true
  unplaced : ∃ block, map.bitmap.block = some block ∧ block < base.table.size ∧
    base.table.place? block = none
  overfull : 2 ^ 32 * 512 + 512 ≤ content.size

theorem Underway.capacity_eq (h : Underway footer header allowed old map content)
    (h' : Underway footer header allowed old map' content') : map'.capacity = map.capacity := by
  have hheader : map'.header = map.header := h'.header_eq.trans h.header_eq.symm
  rw [BlockMap.capacity, BlockMap.capacity, h'.consistent.onDisk.fits.size_eq,
    h.consistent.onDisk.fits.size_eq, hheader]

theorem Appended.unrecordable (h : Appended footer header content start current)
    (isSealed : Sealed footer content) (full : sizeLimit < content.size) : 2 ^ 32 - 1 ≤ start := by
  obtain ⟨bytes, found⟩ := h.found
  have hend := (found.of_sealed isSealed).1
  rw [sizeLimit] at full
  omega

theorem Appended.unused (h : Appended footer map.header content start current)
    (hdisk : OnDisk footer map.header map.table content) (hsize : content'.size = current.size)
    {i : Nat} (hi : i < map.header.sectorsPerBlock) :
    Unused footer map content' (map.dataPlace start i) := by
  obtain ⟨hstart, hend⟩ := map.dataPlace_in_region start hi (Nat.le_refl 512)
  have hregion := map.header.regionSectors_le_allocationBytes
  have hcurrent := h.size_eq
  refine ⟨(h.clear hdisk (map.header.regionSectors * 512)).mono hstart hend, ?_, by omega⟩
  intro block start' place
  have hroom := hdisk.region_room block start' place
  exact Nat.le_trans (Nat.le_of_add_le_add_right (Nat.le_trans hroom h.start_ge)) hstart

namespace Stranded

theorem flush_ensures (h : Stranded footer header allowed old base map content) :
    (BlockMap.flush S.disk).Ensures S (fun _ _ _ => False) (fun _ _ content' => content' = content)
      map content := by
  obtain ⟨block, cached, hblock, vacant⟩ := h.unplaced
  have htable : map.table = base.table := by rw [h.eq_base]
  simp only [BlockMap.flush, Engine.ensures_bind, Engine.ensures_get, Engine.ensures_liftAccess,
    BitmapCache.flush, cached, h.dirty, htable, BlockTable.sector?_of_vacant hblock vacant,
    Access.ensures_bind, Access.ensures_liftExcept_ok, Access.ensures_throw]
  exact fun _ _ _ => trivial

theorem allocate_ensures (T : Terms S footer allowed (Underway footer header allowed old))
    (never : ¬ S.mayFail) (h : Stranded footer header allowed old base map content)
    (hblock : block < base.table.size) (vacant : base.table.place? block = none) :
    (BlockMap.allocate S.disk map block).Ensures S (fun _ _ => False)
      (fun _ content' => content' = content) content := by
  have heq : BlockMap.allocate S.disk map block = BlockMap.allocate S.disk base block := by
    rw [h.eq_base]
    rfl
  rw [heq]
  refine (BlockMap.allocate_ensures T h.underway h.underway.size_lt hblock vacant).mono ?_ ?_
  · rintro result content' _ ⟨current, appended, -, -⟩
    obtain ⟨bytes, found⟩ := appended.found
    have hend := (found.of_sealed h.underway.isSealed).1
    have hlt := appended.start_lt
    have hoverfull := h.overfull
    omega
  · rintro _ content' _ ⟨hm | ⟨-, hcontent⟩, -⟩
    · exact absurd hm never
    · exact hcontent

/-- No other sector can be written, be it of the block whose bitmap is cached or of another one. -/
theorem writeSector_ensures (T : Terms S footer allowed (Underway footer header allowed old))
    (never : ¬ S.mayFail) (h : Stranded footer header allowed old base map content)
    (hsector : sector < base.capacity) (bytes : Sector) :
    (BlockMap.writeSector S.disk sector bytes).Ensures S (fun _ _ _ => False)
      (fun _ _ content' => content' = content) map content := by
  obtain ⟨block, cached, hblock, vacant⟩ := h.unplaced
  have hfits := h.underway.consistent.onDisk.fits
  have hlocate : map.locate sector =
      .ok (sector / map.header.sectorsPerBlock, sector % map.header.sectorsPerBlock) := by
    rw [h.eq_base]
    exact BlockMap.locate_eq hfits hsector
  have htable : map.table = base.table := by rw [h.eq_base]
  simp only [BlockMap.writeSector, BlockMap.select, Engine.ensures_bind, Engine.ensures_get,
    hlocate, Engine.ensures_liftExcept_ok]
  intro _ _ _
  split
  · next hsame =>
    rw [cached, Option.some.injEq] at hsame
    subst hsame
    simp only [BlockMap.ensureAllocated, Engine.ensures_pure, Engine.ensures_bind,
      Engine.ensures_get, htable, BlockTable.sector?_of_vacant hblock vacant,
      Engine.ensures_liftExcept_ok, Engine.ensures_liftAccess]
    intro _ _ _
    exact (h.allocate_ensures T never hblock vacant).mono (fun _ _ _ => False.elim)
      fun _ _ _ hcontent => hcontent
  · rw [Engine.ensures_bind]
    exact h.flush_ensures.mono (fun _ _ _ _ => False.elim) fun _ _ _ _ hcontent => hcontent

theorem writeSectors_ensures (T : Terms S footer allowed (Underway footer header allowed old))
    (never : ¬ S.mayFail) (h : Stranded footer header allowed old base map content)
    (buffer : ByteArray) (count slot : Nat) (hsector : 0 < count → sector < base.capacity)
    (hbuffer : (slot + count) * 512 ≤ buffer.size) :
    (BlockMap.writeSectors S.disk buffer count sector slot).Ensures S
      (fun _ map' content' => Stranded footer header allowed old base map' content')
      (fun _ _ content' => content' = content) map content := by
  cases count with
  | zero =>
    rw [BlockMap.writeSectors, Engine.ensures_pure]
    exact fun _ => h
  | succ count =>
    have hroom : slot * 512 + 512 ≤ buffer.size := by omega
    simp only [BlockMap.writeSectors, Buffer.sector_eq hroom, Engine.ensures_bind,
      Engine.ensures_liftExcept_ok]
    intro _
    exact (h.writeSector_ensures T never (hsector (Nat.succ_pos count)) _).mono
      (fun _ _ _ _ => False.elim) fun _ _ _ _ hcontent => hcontent

end Stranded

theorem Coherent.dirty_of_hasSet {bitmap : BitmapCache} {i : Nat} (h : Coherent map content)
    (cached : map.bitmap.block = some block) (vacant : map.table.place? block = none)
    (hasSet : BitmapCache.HasSet i map.bitmap bitmap) (hi : i < map.header.sectorsPerBlock) :
    bitmap.dirty = true := by
  apply Bool.of_not_eq_false
  intro hclean
  have htest := hasSet.test_self
  rw [hasSet.clean hclean, ← BlockMap.heldBit_of_cached cached] at htest
  have hsome := h.isSome_place_of_heldBit hi htest
  rw [vacant] at hsome
  cases hsome

section Lost

variable (h : Underway footer header allowed old map content) (hblock : block < map.table.size)
variable (appended : Appended footer map.header content start current)
include h hblock appended

theorem Underway.unused_lost {i : Nat} (hi : i < map.header.sectorsPerBlock) :
    Unused footer map (current.withEntry map.table block start) (map.dataPlace start i) := by
  have hgrown := h.consistent.onDisk.grown appended.grown appended.tail
  exact appended.unused h.consistent.onDisk (hgrown.size_withEntry hblock start) hi

/-- Storing a sector in a region that was lost strands the image. -/
theorem Underway.strand {bitmap : BitmapCache} {i : Nat} (unrecordable : 2 ^ 32 - 1 ≤ start)
    (vacant : map.table.place? block = none) (cached : map.bitmap.block = some block)
    (hi : i < map.header.sectorsPerBlock)
    (hasSet : BitmapCache.HasSet i map.bitmap bitmap) (bytes : Sector) :
    Stranded footer header allowed old map { map with bitmap }
      ((current.withEntry map.table block start).write (map.dataPlace start i) bytes) := by
  have hlost := h.lost hblock vacant appended unrecordable
  have unused := h.unused_lost hblock appended hi
  have hsize := unused.size_write (Nat.le_refl 512) bytes
  refine ⟨hlost.of_quiet (unused.quiet hlost.consistent (Nat.le_refl 512) bytes) ?_ ?_, rfl,
    h.consistent.coherent.dirty_of_hasSet cached vacant hasSet hi,
    ⟨block, hasSet.block.trans cached, hblock, vacant⟩, ?_⟩
  · exact (unused.tail_write (Nat.le_refl 512) bytes).trans hlost.isSealed
  · rw [hsize]
    exact hlost.room
  · have hgrown := h.consistent.onDisk.grown appended.grown appended.tail
    have hregion := map.header.regionSectors_le_allocationBytes
    rw [hsize, hgrown.size_withEntry hblock start, appended.size_eq]
    omega

end Lost

namespace BlockMap

theorem writeSector_ensures_full (T : Terms S footer allowed (Underway footer header allowed old))
    (never : ¬ S.mayFail) (h : Underway footer header allowed old map content)
    (hsector : sector < map.capacity)
    (vacant : map.table.place? (sector / map.header.sectorsPerBlock) = none)
    (full : sizeLimit < content.size) :
    (writeSector S.disk sector bytes).Ensures S
      (fun _ map' content' => ∃ base, Stranded footer header allowed old base map' content')
      (fun _ _ content' => ∃ base, Underway footer header allowed old base content')
      map content := by
  have hfits := h.consistent.onDisk.fits
  have hi := Nat.mod_lt sector hfits.sectors_pos
  have hblock := div_lt_of_lt_capacity hfits.sectors_pos hsector
  simp only [writeSector_eq, Engine.ensures_bind, Engine.ensures_get, locate_eq hfits hsector,
    Engine.ensures_liftExcept_ok]
  intro _ _
  refine (select_ensures T h hblock).mono ?_ fun _ _ _ _ hfailed => absurd hfailed.1 never
  rintro _ map₁ content₁ _ selected
  have h₁ := h.advance selected.advance.of_quiet
  have hheader : map₁.header = map.header := selected.advance.header
  rw [← selected.table] at hblock vacant
  rw [← selected.size_eq] at full
  rw [← hheader] at hi hblock vacant ⊢
  have hcached : map₁.bitmap.block = some (sector / map₁.header.sectorsPerBlock) := by
    rw [hheader]
    exact selected.block
  simp only [ensureAllocated, Engine.ensures_bind, Engine.ensures_get,
    BlockTable.sector?_of_vacant hblock vacant, Engine.ensures_liftExcept_ok,
    Engine.ensures_liftAccess, Engine.ensures_set, Engine.ensures_pure]
  intro _ _
  refine (allocate_ensures T h₁ h₁.size_lt hblock vacant).mono ?_ ?_
  · rintro ⟨start, table⟩ content₂ _ ⟨current, appended, htable, rfl⟩
    change Appended footer map₁.header content₁ start current at appended
    change table = map₁.table.withEntry _ (UInt32.ofNat start) at htable
    have unrecordable := appended.unrecordable h₁.isSealed full
    have h₂ := h₁.lost hblock vacant appended unrecordable
    have unused := h₁.unused_lost hblock appended hi
    have hsame : table = map₁.table := by
      rw [htable, appended.entry_eq_unallocated unrecordable,
        BlockTable.withEntry_unallocated hblock vacant]
    intro _ _
    rw [hsame]
    refine (storeSector_stores appended.start_lt hi h₁.consistent.coherent.size_bytes
      (T.write _ _ _ _ _ h₂ (.stray unused))).mono ?_ fun _ _ _ _ hfailed => absurd hfailed.1 never
    rintro _ map₂ content₃ _ ⟨bitmap, hasSet, rfl, rfl⟩
    exact ⟨map₁, h₁.strand hblock appended unrecordable vacant hcached hi hasSet bytes⟩
  · rintro _ content₂ _ ⟨hm | ⟨-, rfl⟩, -⟩
    · exact absurd hm never
    · exact ⟨map₁, h₁⟩

/-- A write stores all its sectors or strands the image. However far it gets, there is an image with
old and new sectors on the storage. -/
theorem writeSectors_ensures_underway
    (T : Terms S footer allowed (Underway footer header allowed old)) (never : ¬ S.mayFail)
    (buffer : ByteArray) (count sector slot : Nat)
    (h : Underway footer header allowed old map content)
    (hsector : ∀ k, k < count → sector + k < map.capacity)
    (hbuffer : (slot + count) * 512 ≤ buffer.size)
    (permitted : ∀ k, k < count → allowed (sector + k) (Buffer.slot buffer (slot + k))) :
    (writeSectors S.disk buffer count sector slot).Ensures S
      (fun _ map' content' =>
        Buffer.Laid buffer sector slot count (map.held content) (map'.held content') ∧
          Underway footer header allowed old map' content' ∨
        ∃ base, Stranded footer header allowed old base map' content')
      (fun _ _ content' => ∃ base, Underway footer header allowed old base content')
      map content := by
  refine writeSectors_steps (P := fun k map' content' =>
    Buffer.Laid buffer sector slot k (map.held content) (map'.held content') ∧
        Underway footer header allowed old map' content' ∨
      ∃ base, Stranded footer header allowed old base map' content') hbuffer
    (.inl ⟨.nothing _ _ _ fun _ => rfl, h⟩) ?_
  rintro k hk map' content' (⟨hlaid, h'⟩ | ⟨base, stranded⟩)
  · have hinside : sector + k < map'.capacity := by
      rw [h.capacity_eq h']
      exact hsector k hk
    by_cases full : map'.table.place? ((sector + k) / map'.header.sectorsPerBlock) = none ∧
        sizeLimit < content'.size
    · exact (writeSector_ensures_full T never h' hinside full.1 full.2).mono_success
        fun _ _ _ _ stranded => .inr stranded
    · refine (writeSector_ensures T h' hinside (permitted k hk) fun _ vacant => ?_).mono ?_
        fun _ _ _ _ hfailed => absurd hfailed.1 never
      · exact .inr ⟨h'.isSealed, Nat.not_lt.mp fun hlt => full ⟨vacant, hlt⟩⟩
      · rintro _ map'' content'' _ ⟨hself, hadvance⟩
        refine .inl ⟨hlaid.snoc hself hadvance.held_eq_of_ne, h'.advance (hadvance.mono ?_)⟩
        rintro _ _ ⟨rfl, rfl⟩
        exact permitted k hk
  · have hinside : sector + k < base.capacity := by
      rw [h.capacity_eq stranded.underway]
      exact hsector k hk
    refine (stranded.writeSector_ensures T never hinside _).mono (fun _ _ _ _ => False.elim) ?_
    rintro _ _ content'' _ rfl
    exact ⟨base, stranded.underway⟩

end BlockMap

end VirtualDisk
