import VirtualDisk.Blocks.Transfer
import VirtualDisk.Proofs.Storage.SameBytes

/-!
# Which bitmap is cached does not matter

A bitmap that was loaded, and not changed since, is the one that is stored. A map that has no other
bitmap cached is `Exact`. Two exact maps with the same header and the same table are twins: it
depends on the cache whether a bitmap is loaded, but not which bitmap is found, and so twins answer
reads alike.
-/

namespace VirtualDisk

open Storage

variable {ι α : Type} {content content' : Content}

namespace BitmapCache

/-- What is found when the bitmap of a block is loaded. -/
def stored (content : Content) (table : BlockTable) (size block : Nat) :
    Except Error BitmapCache := do
  let bytes ← match ← table.sector? block with
    | some sector =>
      (Medium.read content (← Sector.position sector) size).mapError (·.orCorrupt .bitmapTruncated)
    | none => pure (Bytes.zero size)
  return { bytes := bytes.toByteArray, block := some block, dirty := false }

variable {table : BlockTable} {cache cache' : BitmapCache} {size block : Nat}

theorem runOn_load (disk : ι) (table : BlockTable) (cache : BitmapCache) (block : Nat)
    (content : Content) :
    (cache.load disk table block).runOn sole content =
      (stored content table cache.bytes.size block, content) := by
  apply Access.runOn_bind_same (Access.runOn_liftExcept ..)
  intro found
  cases found with
  | none => rfl
  | some sector =>
    apply Access.runOn_bind_same (Access.runOn_liftExcept ..)
    intro position
    apply Access.runOn_bind_same (Access.runOn_readWithin ..)
    exact fun bytes => rfl

theorem of_stored (h : stored content table size block = .ok cache) :
    cache.block = some block ∧ cache.dirty = false ∧ cache.bytes.size = size := by
  unfold stored at h
  simp only [bind, Except.bind, pure, Except.pure] at h
  repeat' split at h
  all_goals cases h
  all_goals exact ⟨rfl, rfl, Bytes.size_toByteArray _⟩

theorem stored_congr (h : content.SameBytes content') (table : BlockTable) (size block : Nat) :
    stored content' table size block = stored content table size block := by
  unfold stored
  simp only [Medium.read, h.size_eq, h.read_eq]

end BitmapCache

namespace BlockMap

/-- The bitmap that the map has cached, if it has one, is the one that is stored. -/
structure Exact (map : BlockMap) (content : Content) : Prop where
  clean : map.bitmap.dirty = false
  stored : ∀ block, map.bitmap.block = some block →
    BitmapCache.stored content map.table map.bitmap.bytes.size block = .ok map.bitmap

/-- Maps that say the same about what is on the disk. -/
structure Twin (map map' : BlockMap) (content : Content) : Prop where
  header_eq : map'.header = map.header
  table_eq : map'.table = map.table
  size_eq : map'.bitmap.bytes.size = map.bitmap.bytes.size
  exact : map.Exact content
  exact' : map'.Exact content

variable {map map' map'' : BlockMap} {block : Nat}

theorem Exact.congr (h : map.Exact content) (same : content.SameBytes content') :
    map.Exact content' :=
  ⟨h.clean, fun block hblock =>
    (BitmapCache.stored_congr same ..).trans (h.stored block hblock)⟩

theorem Exact.twin (h : map.Exact content) : map.Twin map content :=
  ⟨rfl, rfl, rfl, h, h⟩

theorem Twin.trans (h : map.Twin map' content) (h' : map'.Twin map'' content) :
    map.Twin map'' content :=
  ⟨h'.header_eq.trans h.header_eq, h'.table_eq.trans h.table_eq, h'.size_eq.trans h.size_eq,
    h.exact, h'.exact'⟩

theorem Exact.loaded (h : map.Exact content) {bitmap : BitmapCache}
    (hstored : BitmapCache.stored content map.table map.bitmap.bytes.size block = .ok bitmap) :
    map.Twin { map with bitmap } content := by
  obtain ⟨hblock, hclean, hsize⟩ := BitmapCache.of_stored hstored
  refine ⟨rfl, rfl, hsize, h, hclean, fun other hother => ?_⟩
  obtain rfl := Option.some.inj (hblock.symm.trans hother)
  exact hsize.symm ▸ hstored

theorem runOn_flush_of_clean (clean : map.bitmap.dirty = false) (disk : ι) (content : Content) :
    (flush disk).runOn sole map content = ((.ok (), map), content) := by
  obtain ⟨header, table, ⟨bytes, block, dirty⟩⟩ := map
  obtain rfl : dirty = false := clean
  cases block with
  | none => rfl
  | some block => rfl

theorem Exact.runOn_flush (h : map.Exact content) (disk : ι) :
    (flush disk).runOn sole map content = ((.ok (), map), content) :=
  runOn_flush_of_clean h.clean disk content

theorem Exact.runOn_select (h : map.Exact content) (disk : ι) (block : Nat) :
    (select disk block).runOn sole map content =
      match BitmapCache.stored content map.table map.bitmap.bytes.size block with
      | .ok bitmap => ((.ok (), { map with bitmap }), content)
      | .error e => ((.error e, map), content) := by
  rw [select, Engine.runOn_bind_ok (Engine.runOn_get ..)]
  split
  · next hblock =>
    rw [h.stored block hblock]
    rfl
  · rw [Engine.runOn_bind_ok (h.runOn_flush disk), Engine.runOn_bind_ok (Engine.runOn_get ..),
      Engine.runOn_bind, Engine.runOn_liftAccess, BitmapCache.runOn_load]
    cases BitmapCache.stored content map.table map.bitmap.bytes.size block with
    | ok bitmap => rfl
    | error e => rfl

/-- Two runs come to the same end, but for the bitmap that is cached. -/
structure SameEnd (run run' : (Except Error α × BlockMap) × Content) : Prop where
  result_eq : run'.1.1 = run.1.1
  content_eq : run'.2 = run.2
  twin : run.1.2.Twin run'.1.2 run.2

theorem SameEnd.bind {β : Type} {engine engine' : Engine ι BlockMap α}
    {f f' : α → Engine ι BlockMap β}
    (h : SameEnd (engine.runOn sole map content) (engine'.runOn sole map' content))
    (hf : ∀ a map map' content, map.Twin map' content →
      SameEnd ((f a).runOn sole map content) ((f' a).runOn sole map' content)) :
    SameEnd ((engine >>= f).runOn sole map content) ((engine' >>= f').runOn sole map' content) := by
  obtain ⟨hresult, hcontent, htwin⟩ := h
  rcases hrun : engine.runOn sole map content with ⟨⟨result, found⟩, content'⟩
  rcases hrun' : engine'.runOn sole map' content with ⟨⟨result', found'⟩, content''⟩
  rw [hrun, hrun'] at hresult hcontent htwin
  dsimp only at hresult hcontent htwin
  subst hresult hcontent
  cases result' with
  | ok a =>
    rw [Engine.runOn_bind_ok hrun, Engine.runOn_bind_ok hrun']
    exact hf a found found' _ htwin
  | error e =>
    rw [Engine.runOn_bind_error hrun, Engine.runOn_bind_error hrun']
    exact ⟨rfl, rfl, htwin⟩

namespace Twin

/-- The bitmap of a block is found, and the maps are the same then, or it is not. -/
theorem runOn_select (h : map.Twin map' content) (disk disk' : ι) (block : Nat) :
    (∃ found, map.Twin found content ∧
      (select disk block).runOn sole map content = ((.ok (), found), content) ∧
      (select disk' block).runOn sole map' content = ((.ok (), found), content)) ∨
    ∃ e, (select disk block).runOn sole map content = ((.error e, map), content) ∧
      (select disk' block).runOn sole map' content = ((.error e, map'), content) := by
  rw [h.exact.runOn_select, h.exact'.runOn_select, h.table_eq, h.size_eq]
  cases hstored : BitmapCache.stored content map.table map.bitmap.bytes.size block with
  | ok bitmap =>
    refine .inl ⟨{ map with bitmap }, h.exact.loaded hstored, rfl, ?_⟩
    rw [← h.header_eq, ← h.table_eq]
  | error e => exact .inr ⟨e, rfl, rfl⟩

theorem locate_eq (h : map.Twin map' content) (sector : Nat) :
    map'.locate sector = map.locate sector := by
  rw [locate, locate, h.header_eq]

theorem readSector (h : map.Twin map' content) (disk disk' : ι) (sector : Nat) :
    SameEnd ((BlockMap.readSector disk sector).runOn sole map content)
      ((BlockMap.readSector disk' sector).runOn sole map' content) := by
  rw [BlockMap.readSector, BlockMap.readSector, Engine.runOn_bind_ok (Engine.runOn_get ..),
    Engine.runOn_bind_ok (Engine.runOn_get ..), h.locate_eq]
  cases map.locate sector with
  | error e =>
    rw [Engine.runOn_bind_error (Engine.runOn_liftExcept ..),
      Engine.runOn_bind_error (Engine.runOn_liftExcept ..)]
    exact ⟨rfl, rfl, h⟩
  | ok place =>
    obtain ⟨block, sectorInBlock⟩ := place
    rw [Engine.runOn_bind_ok (Engine.runOn_liftExcept ..),
      Engine.runOn_bind_ok (Engine.runOn_liftExcept ..)]
    dsimp only
    obtain ⟨found, hfound, hrun, hrun'⟩ | ⟨e, hrun, hrun'⟩ := h.runOn_select disk disk' block
    · rw [Engine.runOn_bind_ok hrun, Engine.runOn_bind_ok hrun',
        Engine.runOn_bind_ok (Engine.runOn_get ..), Engine.runOn_bind_ok (Engine.runOn_get ..)]
      have hend : ∀ result : Except Error Sector,
          SameEnd ((result, found), content) ((result, found), content) :=
        fun _ => ⟨rfl, rfl, hfound.exact'.twin⟩
      split
      · simp only [Engine.runOn_bind, Engine.runOn_liftExcept]
        cases found.table.sector? block with
        | error e => exact hend (.error e)
        | ok start? => cases start? with
          | none => exact hend (.error (.corrupt .presentUnallocated))
          | some start =>
            simp only [Engine.runOn_bind, Engine.runOn_liftExcept]
            cases found.dataPosition start sectorInBlock with
            | error e => exact hend (.error e)
            | ok position =>
              simp only [Engine.runOn_liftAccess, Access.runOn_readWithin]
              exact hend _
      · exact ⟨rfl, rfl, hfound.exact'.twin⟩
    · rw [Engine.runOn_bind_error hrun, Engine.runOn_bind_error hrun']
      exact ⟨rfl, rfl, h⟩

theorem holds (h : map.Twin map' content) (disk disk' : ι) (sector : Nat) :
    SameEnd ((BlockMap.holds disk sector).runOn sole map content)
      ((BlockMap.holds disk' sector).runOn sole map' content) := by
  rw [BlockMap.holds, BlockMap.holds, Engine.runOn_bind_ok (Engine.runOn_get ..),
    Engine.runOn_bind_ok (Engine.runOn_get ..), h.locate_eq]
  cases map.locate sector with
  | error e =>
    rw [Engine.runOn_bind_error (Engine.runOn_liftExcept ..),
      Engine.runOn_bind_error (Engine.runOn_liftExcept ..)]
    exact ⟨rfl, rfl, h⟩
  | ok place =>
    rw [Engine.runOn_bind_ok (Engine.runOn_liftExcept ..),
      Engine.runOn_bind_ok (Engine.runOn_liftExcept ..)]
    obtain ⟨found, hfound, hrun, hrun'⟩ | ⟨e, hrun, hrun'⟩ := h.runOn_select disk disk' place.1
    · rw [Engine.runOn_bind_ok hrun, Engine.runOn_bind_ok hrun']
      exact ⟨rfl, rfl, hfound.exact'.twin⟩
    · rw [Engine.runOn_bind_error hrun, Engine.runOn_bind_error hrun']
      exact ⟨rfl, rfl, h⟩

theorem readSectors (h : map.Twin map' content) (disk disk' : ι) (count sector slot : Nat)
    (buffer : ByteArray) :
    SameEnd ((BlockMap.readSectors disk count sector slot buffer).runOn sole map content)
      ((BlockMap.readSectors disk' count sector slot buffer).runOn sole map' content) := by
  induction count generalizing map map' content sector slot buffer with
  | zero => exact ⟨rfl, rfl, h⟩
  | succ count ih =>
    apply SameEnd.bind (h.readSector disk disk' sector)
    intro bytes map map' content h
    rw [Engine.runOn_bind, Engine.runOn_bind, Engine.runOn_liftExcept, Engine.runOn_liftExcept]
    cases Buffer.fillSector buffer slot bytes with
    | ok buffer' => exact ih h _ _ _
    | error e => exact ⟨rfl, rfl, h⟩

end Twin

end BlockMap

end VirtualDisk
