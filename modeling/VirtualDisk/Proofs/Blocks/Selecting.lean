import VirtualDisk.Proofs.Blocks.Storing

/-!
# Selecting the bitmap of a block

`flush` and `select` are quiet: they bring storage and cache together, or the cache to another
block, and no sector changes. If a request fails, image and storage are still consistent and hold
the same.
-/

namespace VirtualDisk

open Storage

namespace BlockMap

variable {ι : Type} {S : Setting ι} {footer : Footer} {allowed : Nat → Sector → Prop}
variable {I : BlockMap → Content → Prop} {map : BlockMap} {content : Content} {block start : Nat}

theorem flush_ensures (T : Terms S footer allowed I) (h : I map content) :
    (flush S.disk).Ensures S
      (fun _ map' content' => map' = map.cleaned ∧ content'.size = content.size ∧
        (map.bitmap.dirty = false → content' = content) ∧
        Advance footer (fun _ _ => False) map content map' content')
      (fun _ map' content' => S.mayFail ∧ map' = map ∧ content' = content) map content := by
  have hmap := T.consistent _ _ h
  have hsize := hmap.coherent.size_bytes
  have hbytes := map.header.bitmapSectors_lt
  refine (flush_cleans (by omega) hmap.coherent.allocated fun block start cached place =>
    T.write _ _ _ _ _ h (.bitmap cached place)).mono_success ?_
  rintro _ map' content' _ ⟨rfl, ⟨hclean, rfl⟩ | ⟨dirty, block, start, cached, place, rfl⟩⟩
  · rw [cleaned_of_clean hclean]
    exact ⟨rfl, rfl, fun _ => rfl, .refl hmap⟩
  · refine ⟨rfl, hmap.onDisk.size_write_region place ?_ _, fun hclean => ?_,
      hmap.store_bitmap cached place⟩
    · rw [hsize, BlockHeader.regionSectors_eq]
      omega
    · cases dirty.symm.trans hclean

theorem load_ensures (T : Terms S footer allowed I) (h : I map content)
    (clean : map.bitmap.dirty = false) (hblock : block < map.table.size) :
    (map.bitmap.load S.disk map.table block).Ensures S
      (fun bitmap content' => content' = content ∧ bitmap.block = some block ∧
        bitmap.dirty = false ∧
        Advance footer (fun _ _ => False) map content { map with bitmap } content)
      (fun _ content' => S.mayFail ∧ content' = content) content := by
  have hmap := T.consistent _ _ h
  have hsize := hmap.coherent.size_bytes
  have hbytes := map.header.bitmapSectors_lt
  refine (load_fetches (by omega) hblock fun _ _ => T.read _ _ _).mono ?_ ?_
  · rintro bitmap content' _ ⟨rfl, rfl⟩
    refine ⟨rfl, rfl, rfl, hmap.load_bitmap clean hblock rfl rfl ?_ fun i hi => ?_⟩
    · exact (map.size_bytes_fetched content' block).trans hsize
    · refine map.test_fetched content' block ?_
      rw [hsize]
      exact BlockHeader.div_lt_bitmapSectors hi
  · rintro e content' _ ⟨rfl, hm | ⟨-, start, place, hshort⟩⟩
    · exact ⟨hm, rfl⟩
    · have hroom := hmap.onDisk.region_room block start place
      rw [BlockHeader.regionSectors_eq, Nat.add_mul, ← hsize] at hroom
      omega

/-- The bitmap of a block was made the cached one. -/
structure Selected (footer : Footer) (block : Nat) (map : BlockMap) (content : Content)
    (map' : BlockMap) (content' : Content) : Prop where
  block : map'.bitmap.block = some block
  table : map'.table = map.table
  size_eq : content'.size = content.size
  unchanged : map.bitmap.dirty = false → content' = content
  clean : map.bitmap.dirty = false → map'.bitmap.dirty = false
  advance : Advance footer (fun _ _ => False) map content map' content'

/-- After a selection the bitmap of the block is cached, and nothing else has changed. -/
theorem select_ensures (T : Terms S footer allowed I) (h : I map content)
    (hblock : block < map.table.size) :
    (select S.disk block).Ensures S
      (fun _ map' content' => Selected footer block map content map' content')
      (fun _ map' content' => S.mayFail ∧ Quiet footer map content map' content') map content := by
  have hmap := T.consistent _ _ h
  simp only [select, Engine.ensures_bind, Engine.ensures_get]
  intro _
  split
  · next hcached =>
    rw [Engine.ensures_pure]
    exact fun _ => ⟨hcached, rfl, rfl, fun _ => rfl, id, .refl hmap⟩
  · simp only [Engine.ensures_bind, Engine.ensures_get, Engine.ensures_set,
      Engine.ensures_liftAccess]
    refine (flush_ensures T h).mono ?_ ?_
    · rintro _ map' content' _ ⟨rfl, hsize, hunchanged, hadvance⟩ _
      have hclean := T.advance _ _ _ _ h hadvance.of_quiet
      refine (load_ensures T hclean rfl hblock).mono ?_ ?_
      · rintro bitmap content'' _ ⟨rfl, hcached, hdirty, hload⟩ _
        exact ⟨hcached, rfl, hsize, hunchanged, fun _ => hdirty, hadvance.trans hload⟩
      · rintro _ content'' _ ⟨hm, rfl⟩
        exact ⟨hm, hadvance.toFollows⟩
    · rintro _ map' content' _ ⟨hm, rfl, rfl⟩
      exact ⟨hm, .refl hmap⟩

end BlockMap

end VirtualDisk
