import VirtualDisk.Proofs.Blocks.Arranged

/-!
# What no bitmap holds

A bitmap fills whole sectors, and so it has more bits than its block has sectors. The bits behind
are its margin. On a `Trim` map no bit of a margin is set, neither in the cache nor on the storage,
and a cached bitmap without changes is, byte for byte, what a load would fetch. Where the blocks are
arranged and the storage stays small, every effect keeps this.
-/

namespace VirtualDisk

open Storage

namespace BlockMap

variable {map map' : BlockMap} {content content' : Content} {block start : Nat}

theorem fetched_congr (size : map.bitmap.bytes.size = map.header.bitmapSectors * 512)
    (size' : map'.bitmap.bytes.size = map.bitmap.bytes.size)
    (place : map'.table.place? block = map.table.place? block)
    (same : ∀ start, map.table.place? block = some start →
      SameBitmap map.header content content' start) :
    map'.fetched content' block = map.fetched content block := by
  cases h : map.table.place? block with
  | none => rw [fetched_of_vacant h, fetched_of_vacant (place.trans h), size']
  | some start =>
    have hsame := same start h
    rw [SameBitmap, ← size] at hsame
    rw [fetched_of_place h, fetched_of_place (place.trans h), size', hsame.read_eq]

end BlockMap

/-- The cache without changes is what a load would fetch, and all margins are clear. -/
structure Trim (map : BlockMap) (content : Content) : Prop where
  fetched : map.bitmap.dirty = false → ∀ block, map.bitmap.block = some block →
    map.bitmap = map.fetched content block
  cached_margin : ∀ i, map.header.sectorsPerBlock ≤ i → map.bitmap.test i = false
  stored_margin : ∀ block i, map.header.sectorsPerBlock ≤ i →
    i / 8 < map.header.bitmapSectors * 512 → map.storedBit content block i = false

namespace Trim

variable {footer : Footer} {map map' : BlockMap} {content content' : Content}
variable {block start i : Nat}

theorem of_sameBitmap (h : Trim map content)
    (size : map.bitmap.bytes.size = map.header.bitmapSectors * 512)
    (same : ∀ block start, map.table.place? block = some start →
      BlockMap.SameBitmap map.header content content' start) : Trim map content' where
  fetched clean block cached :=
    (h.fetched clean block cached).trans (BlockMap.fetched_congr size rfl rfl (same block)).symm
  cached_margin := h.cached_margin
  stored_margin block i hi hlt :=
    (BlockMap.storedBit_of_sameBitmap hlt rfl (same block)).trans (h.stored_margin block i hi hlt)

theorem grown (h : Trim map content) (arranged : Arranged footer map content)
    (grown : content.Grown content') : Trim map content' :=
  h.of_sameBitmap arranged.wellSized.size_bytes fun _ _ place =>
    (arranged.onDisk.sameRegion_grown grown place).sameBitmap

theorem stored (h : Trim map content) (arranged : Arranged footer map content)
    (cached : map.bitmap.block = some block) (place : map.table.place? block = some start) :
    Trim map.cleaned (content.write (start * 512) (Bytes.ofByteArray map.bitmap.bytes)) where
  fetched _ other hother := by
    obtain rfl : block = other := Option.some.inj (cached.symm.trans hother)
    rw [BlockMap.fetched_of_place (by exact place)]
    change _ = BitmapCache.mk (Bytes.toByteArray (Content.read
      (content.write (start * 512) (Bytes.ofByteArray map.bitmap.bytes)) _
        map.bitmap.bytes.size)) _ _
    rw [Content.read_write_same, ← cached]
    rfl
  cached_margin := h.cached_margin
  stored_margin other i hi hlt := by
    have hsize := arranged.wellSized.size_bytes
    by_cases hother : other = block
    · have hpart : BitmapPart map (Bytes.ofByteArray map.bitmap.bytes) :=
        ⟨Nat.le_of_eq hsize, fun j hj => getElem?_pos map.bitmap.bytes j hj⟩
      have hbit := hpart.storedBit content place i
      rw [if_pos (by rw [hsize]; exact hlt), h.cached_margin i hi] at hbit
      rw [hother]
      exact hbit
    · have hend : start * 512 + map.bitmap.bytes.size ≤
          start * 512 + map.header.regionSectors * 512 := by
        rw [hsize, BlockHeader.regionSectors_eq]
        omega
      refine Eq.trans ?_ (h.stored_margin other i hi hlt)
      refine BlockMap.storedBit_of_sameBitmap hlt rfl fun start' place' => ?_
      exact (arranged.onDisk.sameRegion_write place (Nat.le_refl _) hend _ hother place').sameBitmap

theorem loaded (h : Trim map content) (wellSized : WellSized map) (block : Nat) :
    Trim { map with bitmap := map.fetched content block } content where
  fetched _ other hother := by
    obtain rfl : block = other := Option.some.inj hother
    have hsame : BlockMap.fetched { map with bitmap := map.fetched content block } content block =
        map.fetched content block :=
      BlockMap.fetched_congr wellSized.size_bytes (map.size_bytes_fetched content block) rfl
        fun _ _ => .refl _ _ _
    exact hsame.symm
  cached_margin i hi := by
    by_cases hlt : i / 8 < map.bitmap.bytes.size
    · rw [map.test_fetched content block hlt]
      exact h.stored_margin block i hi (by rw [← wellSized.size_bytes]; exact hlt)
    · refine BitmapCache.test_eq_false ?_
      rw [map.size_bytes_fetched]
      exact Nat.not_lt.mp hlt
  stored_margin := h.stored_margin

/-- A block is recorded whose region was appended. If its bitmap is cached the cache holds zeros,
and so does the region. -/
theorem allocated (h : Trim map content) (arranged : Arranged footer map content)
    (extended : Extended map.header content start content') (inside : block < map.table.size)
    (vacant : map.table.place? block = none) (recordable : start < 2 ^ 32 - 1) :
    Trim (map.allocated block start) (content'.withEntry map.table block start) := by
  have happended := arranged.appended extended
  have hsize := arranged.wellSized.size_bytes
  have hzero : ∀ p, p < map.header.bitmapSectors * 512 →
      (content'.withEntry map.table block start).byte (start * 512 + p) = 0 := by
    intro p hp
    refine happended.byte_withEntry arranged.onDisk inside (Nat.le_add_right _ _) ?_
    rw [BlockHeader.regionSectors_eq, Nat.add_mul]
    exact Nat.add_lt_add_left (Nat.lt_add_right _ hp) _
  have hplace : (map.allocated block start).table.place? block = some start :=
    BlockTable.place?_withEntry_ofNat inside recordable
  have hother : ∀ other, other ≠ block →
      (map.allocated block start).table.place? other = map.table.place? other :=
    fun _ hne => BlockTable.place?_withEntry_of_ne hne
  have hsame : ∀ other start', map.table.place? other = some start' → BlockMap.SameBitmap map.header
      content (content'.withEntry map.table block start) start' := by
    intro other start' place'
    have hgrown := arranged.onDisk.sameRegion_grown extended.grown place'
    exact BlockMap.SameRegion.sameBitmap <|
      hgrown.trans ((arranged.extended extended).onDisk.sameRegion_withEntry inside place')
  refine ⟨fun clean other cached => ?_, h.cached_margin, fun other i hi hlt => ?_⟩
  · have hfetched := h.fetched clean other cached
    by_cases hne : other = block
    · subst hne
      have hread : (content'.withEntry map.table other start).read (start * 512)
          map.bitmap.bytes.size = Bytes.zero map.bitmap.bytes.size := by
        refine Bytes.ext fun j hj => ?_
        rw [Content.getElem_read, Bytes.getElem_zero]
        exact hzero j (hsize ▸ hj)
      rw [BlockMap.fetched_of_vacant vacant] at hfetched
      rw [BlockMap.fetched_of_place hplace]
      change map.bitmap = ⟨(Content.read _ _ map.bitmap.bytes.size).toByteArray, _, _⟩
      rw [hread]
      exact hfetched
    · have hsame' : (map.allocated block start).fetched (content'.withEntry map.table block start)
          other = map.fetched content other :=
        BlockMap.fetched_congr hsize rfl (hother other hne) (hsame other)
      exact hfetched.trans hsame'.symm
  · change i / 8 < map.header.bitmapSectors * 512 at hlt
    by_cases hne : other = block
    · subst hne
      rw [BlockMap.storedBit_of_place hplace]
      exact Content.bit_eq_false (hzero (i / 8) hlt)
    · exact (BlockMap.storedBit_of_sameBitmap hlt (hother other hne) (hsame other)).trans
        (h.stored_margin other i hi hlt)

theorem written (h : Trim map content) (arranged : Arranged footer map content)
    (place : map.table.place? block = some start) (inside : i < map.header.sectorsPerBlock)
    {bitmap : BitmapCache} (hasSet : BitmapCache.HasSet i map.bitmap bitmap) (bytes : Sector) :
    Trim { map with bitmap } (content.write (map.dataPlace start i) bytes) := by
  obtain ⟨hstart, hend⟩ := map.dataPlace_in_region start inside (Nat.le_refl 512)
  have hsame : Trim map (content.write (map.dataPlace start i) bytes) := by
    refine h.of_sameBitmap arranged.wellSized.size_bytes fun other start' place' => ?_
    by_cases hother : other = block
    · subst hother
      obtain rfl : start = start' := Option.some.inj (place.symm.trans place')
      refine content.agreeOn_write bytes (.inl ?_)
      rw [BlockMap.dataPlace_eq]
      exact Nat.le_add_right _ _
    · exact (arranged.onDisk.sameRegion_write place hstart hend bytes hother place').sameBitmap
  refine ⟨fun clean other cached => ?_, fun j hj => ?_, hsame.stored_margin⟩
  · obtain rfl := hasSet.clean clean
    exact hsame.fetched clean other cached
  · have hne : j ≠ i := Nat.ne_of_gt (Nat.lt_of_lt_of_le inside hj)
    exact (hasSet.test_of_ne j hne).trans (h.cached_margin j hj)

/-- Every effect keeps a map trim, as long as the storage is small. -/
theorem effect {wanted : Nat → Prop} (h : Trim map content) (arranged : Arranged footer map content)
    (small : content'.size < sizeLimit) (effect : Effect wanted map content map' content') :
    Trim map' content' := by
  cases effect with
  | stored cached place => exact h.stored arranged cached place
  | @loaded block sought inside => exact h.loaded arranged.wellSized block
  | begun missing zeroed whole => exact h.grown arranged (zeroed.grown content.size_le_front)
  | extended missing extended => exact h.grown arranged extended.grown
  | @allocated block start current missing extended =>
    have hsize := extended.size_eq
    rw [(arranged.extended extended).onDisk.size_withEntry missing.inside start, hsize] at small
    have recordable : start < 2 ^ 32 - 1 := by
      rw [sizeLimit] at small
      omega
    exact h.allocated arranged extended missing.inside missing.vacant recordable
  | written asked cached place inside hasSet => exact h.written arranged place inside hasSet _
  | @stray block start i current bitmap bytes missing extended far inside hasSet =>
    have hplace := (map.dataPlace_in_region start inside (Nat.le_refl 512)).1
    have hsize := (current.withEntry map.table block start).size_write (map.dataPlace start i) bytes
    rw [sizeLimit] at small
    omega

end Trim

/-- On a storage that may fail, and that does not grow too large, all operations keep the blocks
arranged and the map trim. -/
theorem trim_regime {ι : Type} (disk : ι) (footer : Footer) :
    Regime (Setting.free disk True fun content => content.size < sizeLimit) (fun _ => True)
      fun map content => Arranged footer map content ∧ Trim map content where
  small _ hw := Nat.lt_trans hw (by decide)
  wellSized _ _ h := h.1.wellSized
  ask _ _ _ _ _ _ _ := trivial
  effect _ _ _ _ h _ hw' effect := ⟨h.1.effect effect, h.2.effect h.1 hw' effect⟩

end VirtualDisk
