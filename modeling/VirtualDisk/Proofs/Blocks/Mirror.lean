import VirtualDisk.Proofs.Blocks.Caching
import VirtualDisk.Proofs.Blocks.Stranded
import VirtualDisk.Proofs.Image.Growing

/-!
# What the cache has not stored yet

The library writes to an image while the same is written, without a cache, to a copy of its storage.
At any moment the copy is the storage as a flush would leave it: the cached bitmap, if it has
changes, is the only thing that is there and not yet here. `BlockMap.Mirror` says so, and every
sector that is written keeps it. At the end of a write nothing is left to be stored, and the
storages have the same bytes.
-/

namespace VirtualDisk

open Storage

variable {ι : Type}

namespace BitmapCache

variable {cache cache' : BitmapCache} {table : BlockTable} {content content' : Content}
variable {block start size bit : Nat}

theorem stored_of_place (place : table.place? block = some start) (fits : size < 2 ^ 63)
    (room : start * 512 + size ≤ content.size) :
    stored content table size block =
      .ok ⟨(content.read (start * 512) size).toByteArray, some block, false⟩ := by
  have hstart := BlockTable.place?_lt place
  have hposition : Sector.position start = .ok (start * 512) := Sector.position_eq (by omega)
  have hread : Medium.read content (start * 512) size = .ok (content.read (start * 512) size) := by
    rw [Medium.read, if_neg (by omega), if_neg (by omega)]
  simp only [stored, BlockTable.sector?_of_place place, bind, Except.bind, hposition, hread]
  rfl

theorem room_of_stored (place : table.place? block = some start)
    (h : stored content table size block = .ok cache) : start * 512 + size ≤ content.size := by
  have hstart := BlockTable.place?_lt place
  have hposition : Sector.position start = .ok (start * 512) := Sector.position_eq (by omega)
  apply Nat.le_of_not_lt
  intro hshort
  obtain ⟨e, hread⟩ : ∃ e, Medium.read content (start * 512) size = .error e := by
    rw [Medium.read, if_pos hshort]
    split
    · exact ⟨_, rfl⟩
    · exact ⟨_, rfl⟩
  simp only [stored, BlockTable.sector?_of_place place, bind, Except.bind, hposition, hread] at h
  cases h

theorem stored_of_vacant (inside : block < table.size) (vacant : table.place? block = none) :
    stored content table size block = .ok ⟨(Bytes.zero size).toByteArray, some block, false⟩ := by
  simp only [stored, BlockTable.sector?_of_vacant inside vacant]
  rfl

theorem lt_size_of_stored (h : stored content table size block = .ok cache) :
    block < table.size := by
  apply Nat.lt_of_not_le
  intro hle
  have hnone : table.entries[block]? = none := Array.getElem?_eq_none hle
  simp only [stored, BlockTable.sector?, BlockTable.entry, hnone] at h
  cases h

/-- Setting a bit does not depend on whether earlier changes were stored. -/
theorem set_cleaned (h : cache.set bit = .ok cache') :
    cache' = cache ∧
        { cache with dirty := false }.set bit = .ok { cache with dirty := false } ∨
      cache'.dirty = true ∧ { cache with dirty := false }.set bit = .ok cache' := by
  unfold set at h ⊢
  split at h
  · next hbit =>
    rw [dif_pos (by exact hbit)]
    dsimp only at h ⊢
    split at h
    · next hclear =>
      rw [if_pos hclear]
      cases h
      exact .inr ⟨rfl, rfl⟩
    · next hset =>
      rw [if_neg hset]
      cases h
      exact .inl ⟨rfl, rfl⟩
  · cases h

end BitmapCache

namespace BlockMap

theorem Exact.test_eq {map : BlockMap} {content : Content} {block i : Nat}
    (h : map.Exact content) (cached : map.bitmap.block = some block)
    (fits : map.bitmap.bytes.size < 2 ^ 63) (hi : i / 8 < map.bitmap.bytes.size) :
    map.bitmap.test i = map.storedBit content block i := by
  have hstored := h.stored block cached
  cases place : map.table.place? block with
  | some start =>
    have hroom := BitmapCache.room_of_stored place hstored
    rw [BitmapCache.stored_of_place place fits hroom] at hstored
    rw [← Except.ok.inj hstored, storedBit_of_place place]
    exact content.test_read (some block) false hi
  | none =>
    rw [BitmapCache.stored_of_vacant (BitmapCache.lt_size_of_stored hstored) place] at hstored
    rw [← Except.ok.inj hstored, storedBit_of_vacant place]
    exact BitmapCache.test_zero _ _ _ _

/-- The bitmap of a block that is not stored is cached as zeros. Where the block is stored then,
zeros are found as well. -/
theorem Exact.of_zero {map : BlockMap} {table : BlockTable} {content content' : Content}
    {block start : Nat} (h : map.Exact content) (cached : map.bitmap.block = some block)
    (inside : block < map.table.size) (vacant : map.table.place? block = none)
    (place : table.place? block = some start) (fits : map.bitmap.bytes.size < 2 ^ 63)
    (room : start * 512 + map.bitmap.bytes.size ≤ content'.size)
    (zero : content'.read (start * 512) map.bitmap.bytes.size = Bytes.zero map.bitmap.bytes.size) :
    Exact { map with table } content' := by
  have hstored := h.stored block cached
  rw [BitmapCache.stored_of_vacant inside vacant] at hstored
  refine ⟨h.clean, fun other hother => ?_⟩
  obtain rfl : block = other := Option.some.inj (cached.symm.trans hother)
  have hstored' := BitmapCache.stored_of_place place fits room
  rw [zero] at hstored'
  exact hstored'.trans hstored

/-- What the storage holds once the cached bitmap is stored. -/
def flushed (map : BlockMap) (content : Content) : Content :=
  if map.bitmap.dirty then
    match map.bitmap.block.bind map.table.place? with
    | some start => content.write (start * 512) (Bytes.ofByteArray map.bitmap.bytes)
    | none => content
  else content

/-- Changes are those of a bitmap that can be stored. -/
structure Storable (map : BlockMap) : Prop where
  fits : map.bitmap.bytes.size < 2 ^ 63
  placed : map.bitmap.dirty = true →
    ∃ block start, map.bitmap.block = some block ∧ map.table.place? block = some start

variable {map map' : BlockMap} {content content' shadow : Content} {block start : Nat}

/-- Of a block that is not stored no bits have changed. -/
theorem Storable.clean_of_vacant (h : map.Storable) (cached : map.bitmap.block = some block)
    (vacant : map.table.place? block = none) : map.bitmap.dirty = false := by
  apply Bool.of_not_eq_true
  intro hdirty
  obtain ⟨other, start, hother, place⟩ := h.placed hdirty
  obtain rfl : block = other := Option.some.inj (cached.symm.trans hother)
  cases vacant.symm.trans place

theorem flushed_of_clean (clean : map.bitmap.dirty = false) (content : Content) :
    map.flushed content = content := by
  rw [flushed, clean, if_neg Bool.false_ne_true]

theorem flushed_of_dirty (cached : map.bitmap.block = some block)
    (place : map.table.place? block = some start) (dirty : map.bitmap.dirty = true)
    (content : Content) :
    map.flushed content = content.write (start * 512) (Bytes.ofByteArray map.bitmap.bytes) := by
  rw [flushed, dirty, if_pos rfl, cached, Option.bind_some, place]

theorem runOn_flush (h : map.Storable) (disk : ι) (content : Content) :
    (flush disk).runOn sole map content = ((.ok (), map.cleaned), map.flushed content) := by
  have hflush : (flush disk).Ensures (.free disk False fun _ => True) _ _ map content :=
    flush_cleans h.fits h.placed fun _ _ _ _ => trivial
  obtain ⟨_, map', content', hrun, rfl, hcontent⟩ :=
    hflush.runOn_sole_ok (grows_flush disk) (fun _ _ => trivial) fun _ _ _ hfailed => hfailed.1
  obtain ⟨hclean, rfl⟩ | ⟨dirty, block, start, cached, place, rfl⟩ := hcontent
  · rw [flushed_of_clean hclean]
    exact hrun
  · rw [flushed_of_dirty cached place dirty]
    exact hrun

/-- A selection changes nothing, or it loads the bitmap of the block after the one before was
stored. -/
theorem Storable.of_select (h : map.Storable) {disk : ι}
    (run : (select disk block).runOn sole map content = ((.ok (), map'), content')) :
    map.bitmap.block = some block ∧ map' = map ∧ content' = content ∨
      content' = map.flushed content ∧ ∃ bitmap, map' = { map with bitmap } ∧
        BitmapCache.stored (map.flushed content) map.table map.bitmap.bytes.size block =
          .ok bitmap := by
  rw [select, Engine.runOn_bind_ok (Engine.runOn_get ..)] at run
  split at run
  · next cached =>
    cases run
    exact .inl ⟨cached, rfl, rfl⟩
  · rw [Engine.runOn_bind_ok (runOn_flush h disk content),
      Engine.runOn_bind_ok (Engine.runOn_get ..), Engine.runOn_bind, Engine.runOn_liftAccess,
      BitmapCache.runOn_load] at run
    cases hstored : BitmapCache.stored (map.flushed content) map.cleaned.table
        map.cleaned.bitmap.bytes.size block with
    | error e =>
      rw [hstored] at run
      cases run
    | ok bitmap =>
      rw [hstored] at run
      cases run
      exact .inr ⟨rfl, bitmap, rfl, hstored⟩

theorem runOn_storeSector (hstart : start < 2 ^ 32) {i : Nat} (hi : i < map.header.sectorsPerBlock)
    {bitmap : BitmapCache} (hset : map.bitmap.set i = .ok bitmap) (disk : ι) (bytes : Sector)
    (content : Content) :
    (storeSector disk start i bytes).runOn sole map content =
      ((.ok (), { map with bitmap }), content.write (map.dataPlace start i) bytes) := by
  have hwrite := Access.runOn_sole_write disk bytes (dataPlace_lt_of_lt hstart hi) content
  rw [storeSector, Engine.runOn_bind_ok (Engine.runOn_get ..), dataPosition_of_lt hstart hi,
    Engine.runOn_bind_ok (Engine.runOn_liftExcept ..),
    Engine.runOn_bind_ok ((Engine.runOn_liftAccess ..).trans (by rw [hwrite])), hset,
    Engine.runOn_bind_ok (Engine.runOn_liftExcept ..), Engine.runOn_set]

/-- The copy of the storage is what the storage is after a flush. -/
structure Mirror (map : BlockMap) (content shadow : Content) : Prop where
  bytes : (map.flushed content).SameBytes shadow
  exact : map.cleaned.Exact shadow

theorem Exact.mirror (h : map.Exact content) : map.Mirror content content := by
  constructor
  · rw [flushed_of_clean h.clean]
    exact .refl content
  · rw [cleaned_of_clean h.clean]
    exact h

namespace Mirror

theorem of_clean (clean : map.bitmap.dirty = false) (exact : map.Exact shadow)
    (bytes : content.SameBytes shadow) : map.Mirror content shadow := by
  constructor
  · rw [flushed_of_clean clean]
    exact bytes
  · rw [cleaned_of_clean clean]
    exact exact

/-- A bitmap that is cached is not loaded, and any other one only after a flush. -/
theorem select (h : map.Mirror content shadow) (storable : map.Storable) {disk : ι}
    (run : (BlockMap.select disk block).runOn sole map content = ((.ok (), map'), content')) :
    (Caching.immediate.select disk block).runOn sole map.cleaned shadow =
        ((.ok (), map'.cleaned), shadow) ∧
      map'.Mirror content' shadow := by
  rw [Caching.faithful_immediate disk block _ _ h.exact, h.exact.runOn_select]
  obtain ⟨cached, rfl, rfl⟩ | ⟨rfl, bitmap, rfl, hstored⟩ := storable.of_select run
  · have hstored := h.exact.stored block cached
    rw [hstored]
    exact ⟨rfl, h⟩
  · have hfound : BitmapCache.stored shadow map.cleaned.table map.cleaned.bitmap.bytes.size block =
        .ok bitmap := (BitmapCache.stored_congr h.bytes ..).trans hstored
    have hclean : bitmap.dirty = false := (BitmapCache.of_stored hstored).2.1
    have hcleaned : cleaned { map with bitmap } = { map with bitmap } := cleaned_of_clean hclean
    rw [hfound, hcleaned]
    exact ⟨rfl, .of_clean hclean (h.exact.loaded hfound).exact' h.bytes⟩

theorem write (h : map.Mirror content shadow) (cached : map.bitmap.block = some block)
    (place : map.table.place? block = some start) (fits : map.bitmap.bytes.size < 2 ^ 63)
    {n position : Nat} (behind : start * 512 + map.bitmap.bytes.size ≤ position)
    (data : Bytes n) :
    map.Mirror (content.write position data) (shadow.write position data) := by
  have hstored := h.exact.stored block cached
  have hroom := BitmapCache.room_of_stored place hstored
  constructor
  · cases hdirty : map.bitmap.dirty with
    | false =>
      have hbytes := h.bytes
      rw [flushed_of_clean hdirty] at hbytes ⊢
      exact hbytes.write position data
    | true =>
      have hbytes := h.bytes
      rw [flushed_of_dirty cached place hdirty] at hbytes ⊢
      exact (content.write_comm data _ (.inr behind)).trans (hbytes.write position data)
  · refine ⟨rfl, fun other hother => ?_⟩
    obtain rfl : block = other := Option.some.inj (cached.symm.trans hother)
    have hread : (shadow.write position data).read (start * 512) map.bitmap.bytes.size =
        shadow.read (start * 512) map.bitmap.bytes.size :=
      Content.read_write_of_disjoint shadow data (.inl behind)
    have hroom' : start * 512 + map.bitmap.bytes.size ≤ (shadow.write position data).size :=
      Nat.le_trans hroom (Nat.le_max_left _ _)
    have hstored' := BitmapCache.stored_of_place place fits hroom'
    rw [hread, ← BitmapCache.stored_of_place place fits hroom] at hstored'
    exact hstored'.trans hstored

theorem mark (h : map.Mirror content shadow) (cached : map.bitmap.block = some block)
    (place : map.table.place? block = some start) (fits : map.bitmap.bytes.size < 2 ^ 63)
    {bit : Nat} {bitmap : BitmapCache} (hset : map.bitmap.set bit = .ok bitmap)
    (hasSet : BitmapCache.HasSet bit map.bitmap bitmap) (disk : ι) :
    ∃ shadow', (Caching.immediate.mark disk map.cleaned bit).runOn sole map.cleaned shadow =
        ((.ok (), cleaned { map with bitmap }), shadow') ∧
      Mirror { map with bitmap } content shadow' := by
  obtain ⟨rfl, hcleaned⟩ | ⟨hdirty, hcleaned⟩ := BitmapCache.set_cleaned hset
  · refine ⟨shadow, ?_, h⟩
    rw [Caching.immediate]
    dsimp only
    have hset' : map.cleaned.bitmap.set bit = .ok map.cleaned.bitmap := hcleaned
    rw [hset', Engine.runOn_bind_ok (Engine.runOn_liftExcept ..),
      Engine.runOn_bind_ok (Engine.runOn_set ..)]
    exact runOn_flush_of_clean rfl disk shadow
  · have hset' : map.cleaned.bitmap.set bit = .ok bitmap := hcleaned
    have cached' : bitmap.block = some block := hasSet.block.trans cached
    have fits' : bitmap.bytes.size < 2 ^ 63 := by
      rw [hasSet.size_bytes]
      exact fits
    have storable : Storable { map with bitmap } := ⟨fits', fun _ => ⟨block, start, cached', place⟩⟩
    have hflushed : ∀ content, flushed { map with bitmap } content =
        content.write (start * 512) (Bytes.ofByteArray bitmap.bytes) :=
      flushed_of_dirty cached' place hdirty
    refine ⟨shadow.write (start * 512) (Bytes.ofByteArray bitmap.bytes), ?_, ?_, rfl, ?_⟩
    · rw [Caching.immediate]
      dsimp only
      rw [hset', Engine.runOn_bind_ok (Engine.runOn_liftExcept ..),
        Engine.runOn_bind_ok (Engine.runOn_set ..)]
      exact hflushed shadow ▸ runOn_flush storable disk shadow
    · rw [hflushed]
      have hbytes := h.bytes.write (start * 512) (Bytes.ofByteArray bitmap.bytes)
      cases hbefore : map.bitmap.dirty with
      | false =>
        rw [flushed_of_clean hbefore] at hbytes
        exact hbytes
      | true =>
        rw [flushed_of_dirty cached place hbefore] at hbytes
        have hover := content.write_again (start * 512) (Bytes.ofByteArray map.bitmap.bytes)
          (Bytes.ofByteArray bitmap.bytes) (Nat.le_of_eq hasSet.size_bytes.symm)
        exact hover.symm.trans hbytes
    · intro other hother
      obtain rfl : block = other := Option.some.inj (cached'.symm.trans hother)
      have hroom : start * 512 + bitmap.bytes.size ≤
          (shadow.write (start * 512) (Bytes.ofByteArray bitmap.bytes)).size :=
        Nat.le_max_right _ _
      have hstored := BitmapCache.stored_of_place place fits' hroom
      rw [Content.read_write_same, ← cached'] at hstored
      exact hstored

theorem storeSector (h : map.Mirror content shadow) (cached : map.bitmap.block = some block)
    (place : map.table.place? block = some start)
    (size_bytes : map.bitmap.bytes.size = map.header.bitmapSectors * 512) {i : Nat}
    (hi : i < map.header.sectorsPerBlock) {bitmap : BitmapCache}
    (hset : map.bitmap.set i = .ok bitmap) (hasSet : BitmapCache.HasSet i map.bitmap bitmap)
    (disk : ι) (bytes : Sector) :
    ∃ shadow', (storeSectorBy .immediate disk start i bytes).runOn sole map.cleaned shadow =
        ((.ok (), cleaned { map with bitmap }), shadow') ∧
      Mirror { map with bitmap } (content.write (map.dataPlace start i) bytes) shadow' := by
  have hstart := BlockTable.place?_lt place
  have hsmall := map.header.bitmapSectors_lt
  have fits : map.bitmap.bytes.size < 2 ^ 63 := by omega
  have hbehind : start * 512 + map.bitmap.bytes.size ≤ map.dataPlace start i := by
    rw [dataPlace_eq, size_bytes]
    omega
  obtain ⟨shadow', hmark, hmirror⟩ :=
    (h.write cached place fits hbehind bytes).mark cached place fits hset hasSet disk
  have hposition : map.cleaned.dataPosition start i = .ok (map.dataPlace start i) :=
    dataPosition_of_lt hstart hi
  have hwrite := Access.runOn_sole_write disk bytes (dataPlace_lt_of_lt hstart hi) shadow
  refine ⟨shadow', ?_, hmirror⟩
  rw [storeSectorBy, Engine.runOn_bind_ok (Engine.runOn_get ..), hposition,
    Engine.runOn_bind_ok (Engine.runOn_liftExcept ..),
    Engine.runOn_bind_ok ((Engine.runOn_liftAccess ..).trans (by rw [hwrite]))]
  exact hmark

end Mirror

variable {footer : Footer} {header : BlockHeader} {allowed : Nat → Sector → Prop}
variable {old : Nat → Option Sector} {current : Content}

theorem bitmap_appended (hmap : Consistent footer map content) (inside : block < map.table.size)
    (appended : Appended footer map.header content start current) :
    start * 512 + map.bitmap.bytes.size ≤ (current.withEntry map.table block start).size ∧
      (current.withEntry map.table block start).read (start * 512) map.bitmap.bytes.size =
        Bytes.zero map.bitmap.bytes.size := by
  have hgrown := hmap.onDisk.grown appended.grown appended.tail
  have hsize := hmap.coherent.size_bytes
  have hregion := map.header.regionSectors_le_allocationBytes
  rw [BlockHeader.regionSectors_eq, Nat.add_mul] at hregion
  constructor
  · have hend := appended.size_eq
    rw [hgrown.size_withEntry inside]
    omega
  · refine Bytes.ext fun i hi => ?_
    rw [Content.getElem_read, Bytes.getElem_zero]
    apply appended.byte_withEntry hmap.onDisk inside (Nat.le_add_right _ _)
    rw [BlockHeader.regionSectors_eq, Nat.add_mul]
    omega

theorem Exact.allocated (exact : map.Exact content) (hmap : Consistent footer map content)
    (cached : map.bitmap.block = some block) (inside : block < map.table.size)
    (vacant : map.table.place? block = none)
    (appended : Appended footer map.header content start current) :
    (map.allocated block start).Exact (current.withEntry map.table block start) := by
  by_cases recordable : start < 2 ^ 32 - 1
  · have place : (map.allocated block start).table.place? block = some start :=
      BlockTable.place?_withEntry_ofNat inside recordable
    have hsize := hmap.coherent.size_bytes
    have hlt := map.header.bitmapSectors_lt
    obtain ⟨hroom, hzero⟩ := bitmap_appended hmap inside appended
    exact exact.of_zero cached inside vacant place (by omega) hroom hzero
  · have hsame : map.allocated block start = map := by
      rw [BlockMap.allocated, appended.entry_eq_unallocated (Nat.not_lt.mp recordable),
        BlockTable.withEntry_unallocated inside vacant]
    have hstored := exact.stored block cached
    rw [BitmapCache.stored_of_vacant inside vacant, Except.ok.injEq] at hstored
    rw [hsame]
    refine ⟨exact.clean, fun other hother => ?_⟩
    obtain rfl : block = other := Option.some.inj (cached.symm.trans hother)
    rw [BitmapCache.stored_of_vacant inside vacant, hstored]

/-- Without regard to what was written, the terms of a sound storage. -/
theorem terms_underway (disk : ι) (footer : Footer) (header : BlockHeader)
    (allowed : Nat → Sector → Prop) (old : Nat → Option Sector) :
    Terms (.free disk False fun _ => True) footer allowed (Underway footer header allowed old) where
  length _ := trivial
  read _ _ _ := trivial
  flush _ := trivial
  write _ _ _ _ _ _ _ := trivial
  advance _ _ _ _ h hadvance := h.advance hadvance
  consistent _ _ h := h.consistent

theorem Exact.runOn_allocate (exact : map.Exact content) (same : content.SameBytes shadow)
    (under : Underway footer header allowed old map content)
    (cached : map.bitmap.block = some block) (inside : block < map.table.size)
    (vacant : map.table.place? block = none) {disk : ι} {table : BlockTable}
    (run : (allocate disk map block).runOn sole content = (.ok (start, table), content')) :
    start < 2 ^ 32 ∧ (table.place? block = some start ∨ table.place? block = none) ∧
      Exact { map with table } content' ∧
      ∃ shadow', (allocate disk map block).runOn sole shadow = (.ok (start, table), shadow') ∧
        content'.SameBytes shadow' := by
  have T := terms_underway disk footer header allowed old
  have hpost := (allocate_ensures T under under.size_lt inside vacant).runOn_sole fun _ => trivial
  rw [Setting.disk_free, run] at hpost
  obtain ⟨current, appended, htable, hcontent⟩ := hpost
  change Appended footer map.header content start current at appended
  change table = (map.allocated block start).table at htable
  change content' = current.withEntry map.table block start at hcontent
  subst htable hcontent
  refine ⟨appended.start_lt, ?_, exact.allocated under.consistent cached inside vacant appended, ?_⟩
  · by_cases recordable : start < 2 ^ 32 - 1
    · exact .inl (BlockTable.place?_withEntry_ofNat inside recordable)
    · right
      have hentry := appended.entry_eq_unallocated (Nat.not_lt.mp recordable)
      change (map.table.withEntry block (UInt32.ofNat start)).place? block = none
      rw [hentry, BlockTable.withEntry_unallocated inside vacant]
      exact vacant
  · obtain ⟨hreply, hsame⟩ := Access.runOn_sole_congr same (allocate disk map block)
    rw [run] at hreply hsame
    exact ⟨((allocate disk map block).runOn sole shadow).2, Prod.ext hreply rfl, hsame⟩

namespace Mirror

theorem storable (under : Underway footer header allowed old map content) : map.Storable := by
  have hlt := map.header.bitmapSectors_lt
  have hsize := under.consistent.coherent.size_bytes
  exact ⟨by omega, under.consistent.coherent.allocated⟩

theorem ensureAllocated (h : map.Mirror content shadow)
    (under : Underway footer header allowed old map content)
    (cached : map.bitmap.block = some block) (inside : block < map.table.size) {disk : ι}
    (run : (BlockMap.ensureAllocated disk block).runOn sole map content =
      ((.ok start, map'), content')) :
    (map'.bitmap = map.bitmap ∧ map'.header = map.header) ∧
      start < 2 ^ 32 ∧ (map'.table.place? block = some start ∨ map'.table.place? block = none) ∧
      ∃ shadow', (BlockMap.ensureAllocated disk block).runOn sole map.cleaned shadow =
          ((.ok start, map'.cleaned), shadow') ∧
        map'.Mirror content' shadow' := by
  rw [BlockMap.ensureAllocated, Engine.runOn_bind_ok (Engine.runOn_get ..)] at run ⊢
  cases place : map.table.place? block with
  | some start =>
    have hsector : map.cleaned.table.sector? block = .ok (some start) :=
      BlockTable.sector?_of_place place
    rw [BlockTable.sector?_of_place place, Engine.runOn_bind_ok (Engine.runOn_liftExcept ..)] at run
    rw [hsector, Engine.runOn_bind_ok (Engine.runOn_liftExcept ..)]
    cases run
    exact ⟨⟨rfl, rfl⟩, BlockTable.place?_lt place, .inl place, shadow, rfl, h⟩
  | none =>
    have hclean := (storable under).clean_of_vacant cached place
    have hbytes := h.bytes
    have hexact := h.exact
    rw [flushed_of_clean hclean] at hbytes
    rw [cleaned_of_clean hclean] at hexact ⊢
    rw [BlockTable.sector?_of_vacant inside place,
      Engine.runOn_bind_ok (Engine.runOn_liftExcept ..)] at run ⊢
    obtain ⟨⟨start₁, table⟩, map₁, content₁, hrun, hrest⟩ := Engine.of_runOn_bind run
    rw [Engine.runOn_liftAccess] at hrun
    obtain ⟨hresult, rfl⟩ := Prod.mk.inj (Prod.mk.inj hrun).1
    cases hrest
    obtain ⟨hstart, hplace, hexact', shadow', hrun', hsame⟩ :=
      (hexact.congr hbytes.symm).runOn_allocate hbytes under cached inside place
        (Prod.ext hresult (Prod.mk.inj hrun).2)
    refine ⟨⟨rfl, rfl⟩, hstart, hplace, shadow', ?_, .of_clean hclean (hexact'.congr hsame) hsame⟩
    rw [Engine.runOn_bind_ok ((Engine.runOn_liftAccess ..).trans (by rw [hrun']))]
    rw [cleaned_of_clean (by exact hclean)]
    rfl

/-- A sector that is stored is stored in both storages. Its block has a place then: elsewhere a bit
that is set does not go with the storage. -/
theorem storeSector_of_run (h : map.Mirror content shadow) (cached : map.bitmap.block = some block)
    (hstart : start < 2 ^ 32)
    (hplace : map.table.place? block = some start ∨ map.table.place? block = none)
    (size_bytes : map.bitmap.bytes.size = map.header.bitmapSectors * 512) {i : Nat}
    (hi : i < map.header.sectorsPerBlock) {disk : ι} {bytes : Sector}
    (run : (BlockMap.storeSector disk start i bytes).runOn sole map content =
      ((.ok (), map'), content')) (coherent : Coherent map' content') :
    ∃ shadow', (storeSectorBy .immediate disk start i bytes).runOn sole map.cleaned shadow =
        ((.ok (), map'.cleaned), shadow') ∧
      map'.Mirror content' shadow' := by
  have hbit : i / 8 < map.bitmap.bytes.size := by
    rw [size_bytes]
    exact BlockHeader.div_lt_bitmapSectors hi
  obtain ⟨bitmap, hset, hasSet⟩ := BitmapCache.exists_set hbit
  rw [runOn_storeSector hstart hi hset] at run
  cases run
  obtain place | vacant := hplace
  · exact h.storeSector cached place size_bytes hi hset hasSet disk bytes
  · have hheld : heldBit { map with bitmap }
        (content.write (map.dataPlace start i) bytes) block i = true :=
      (heldBit_of_cached (hasSet.block.trans cached) i).trans hasSet.test_self
    have hsome : (map.table.place? block).isSome := coherent.isSome_place_of_heldBit hi hheld
    rw [vacant] at hsome
    cases hsome

/-- A sector is written to both storages, unless the image is stranded by it. -/
theorem writeSector (h : map.Mirror content shadow)
    (under : Underway footer header allowed old map content) {sector : Nat}
    (hsector : sector < map.capacity) {disk : ι} {bytes : Sector}
    (run : (BlockMap.writeSector disk sector bytes).runOn sole map content =
      ((.ok (), map'), content')) (coherent : Coherent map' content') :
    ∃ shadow', (writeSectorBy .immediate disk sector bytes).runOn sole map.cleaned shadow =
        ((.ok (), map'.cleaned), shadow') ∧
      map'.Mirror content' shadow' := by
  have T := terms_underway disk footer header allowed old
  have hfits := under.consistent.onDisk.fits
  have hi := Nat.mod_lt sector hfits.sectors_pos
  have hblock := div_lt_of_lt_capacity hfits.sectors_pos hsector
  have hlocate : map.cleaned.locate sector =
      .ok (sector / map.header.sectorsPerBlock, sector % map.header.sectorsPerBlock) :=
    locate_eq hfits hsector
  rw [writeSector_eq, Engine.runOn_bind_ok (Engine.runOn_get ..), locate_eq hfits hsector,
    Engine.runOn_bind_ok (Engine.runOn_liftExcept ..)] at run
  rw [writeSectorBy, Engine.runOn_bind_ok (Engine.runOn_get ..), hlocate,
    Engine.runOn_bind_ok (Engine.runOn_liftExcept ..)]
  dsimp only at run ⊢
  obtain ⟨_, map₁, content₁, hselect, run⟩ := Engine.of_runOn_bind run
  obtain ⟨start, map₂, content₂, hensure, run⟩ := Engine.of_runOn_bind run
  have hselected :=
    (select_ensures T under hblock).runOn_sole (grows_select disk _) fun _ _ => trivial
  rw [Setting.disk_free, hselect] at hselected
  obtain ⟨hcached, htable, -, -, -, hadvance⟩ := hselected
  have under₁ := under.advance hadvance.of_quiet
  rw [← htable] at hblock
  obtain ⟨hselect', h₁⟩ := h.select (storable under) hselect
  obtain ⟨⟨hbitmap, hheader⟩, hstart, hplace, shadow₂, hensure', h₂⟩ :=
    h₁.ensureAllocated under₁ hcached hblock hensure
  rw [Engine.runOn_bind_ok hselect', Engine.runOn_bind_ok hensure']
  rw [← hbitmap] at hcached
  have hi' : sector % map.header.sectorsPerBlock < map₂.header.sectorsPerBlock := by
    rw [hheader, hadvance.header]
    exact hi
  have hsize : map₂.bitmap.bytes.size = map₂.header.bitmapSectors * 512 := by
    rw [hbitmap, hheader]
    exact under₁.consistent.coherent.size_bytes
  exact h₂.storeSector_of_run hcached hstart hplace hsize hi' run coherent

end Mirror

theorem underway_or_stranded (under : Underway footer header (fun _ _ => True) old map content)
    {sector : Nat} (hsector : sector < map.capacity) {disk : ι} {bytes : Sector}
    (run : (writeSector disk sector bytes).runOn sole map content = ((.ok (), map'), content')) :
    Underway footer header (fun _ _ => True) old map' content' ∨
      ∃ base, Stranded footer header (fun _ _ => True) old base map' content' := by
  have T := terms_underway disk footer header (fun _ _ => True) old
  have hends : (writeSector disk sector bytes).Ensures (.free disk False fun _ => True)
      (fun _ map' content' => Underway footer header (fun _ _ => True) old map' content' ∨
        ∃ base, Stranded footer header (fun _ _ => True) old base map' content')
      (fun _ _ _ => True) map content := by
    by_cases full : map.table.place? (sector / map.header.sectorsPerBlock) = none ∧
        sizeLimit < content.size
    · exact (writeSector_ensures_full T id under hsector full.1 full.2).mono
        (fun _ _ _ _ stranded => .inr stranded) fun _ _ _ _ _ => trivial
    · refine (writeSector_ensures T under hsector trivial fun _ vacant => ?_).mono ?_
        fun _ _ _ _ _ => trivial
      · exact .inr ⟨under.isSealed, Nat.not_lt.mp fun hlt => full ⟨vacant, hlt⟩⟩
      · rintro _ map' content' _ ⟨-, hadvance⟩
        exact .inl (under.advance (hadvance.mono fun _ _ _ => trivial))
  have hpost := hends.runOn_sole (grows_writeSector disk sector bytes) fun _ _ => trivial
  rw [run] at hpost
  exact hpost

theorem runOn_ne_of_stranded {base : BlockMap}
    (h : Stranded footer header allowed old base map content) {disk : ι} {buffer : ByteArray}
    {count sector slot : Nat} (hsector : 0 < count → sector < base.capacity)
    (hbuffer : (slot + count) * 512 ≤ buffer.size) :
    (writeSectors disk buffer count sector slot >>= fun _ => flush disk).runOn sole map content ≠
      ((.ok (), map'), content') := by
  intro run
  have T := terms_underway disk footer header allowed old
  have hends : (writeSectors disk buffer count sector slot >>= fun _ => flush disk).Ensures
      (.free disk False fun _ => True) (fun _ _ _ => False) (fun _ _ _ => True) map content := by
    rw [Engine.ensures_bind]
    refine (h.writeSectors_ensures T id buffer count slot hsector hbuffer).mono ?_
      fun _ _ _ _ _ => trivial
    intro _ map₁ content₁ _ stranded
    exact stranded.flush_ensures.mono (fun _ _ _ _ => False.elim) fun _ _ _ _ _ => trivial
  have hpost := hends.runOn_sole (Engine.grows_bind (grows_writeSectors disk _ _ _ _) fun _ =>
    grows_flush disk) fun _ _ => trivial
  rw [run] at hpost
  exact hpost

/-- All sectors are written to both storages, which have the same bytes in the end. Nothing is left
to be stored then. -/
theorem Mirror.writeSectors (h : map.Mirror content shadow)
    (under : Underway footer header (fun _ _ => True) old map content) {disk : ι}
    {buffer : ByteArray} {count sector slot : Nat}
    (hsector : ∀ k, k < count → sector + k < map.capacity)
    (hbuffer : (slot + count) * 512 ≤ buffer.size)
    (run : (BlockMap.writeSectors disk buffer count sector slot >>= fun _ =>
      BlockMap.flush disk).runOn sole map content = ((.ok (), map'), content')) :
    Underway footer header (fun _ _ => True) old map' content' ∧ map'.Exact content' ∧
      ∃ shadow', (writeSectorsBy .immediate disk buffer count sector slot >>= fun _ =>
          BlockMap.flush disk).runOn sole map.cleaned shadow = ((.ok (), map'), shadow') ∧
        content'.SameBytes shadow' := by
  induction count generalizing map content shadow sector slot with
  | zero =>
    change (BlockMap.flush disk).runOn sole map content = _ at run
    have T := terms_underway disk footer header (fun _ _ => True) old
    have hflushed := (flush_ensures T under).runOn_sole (grows_flush disk) fun _ _ => trivial
    rw [Setting.disk_free, run] at hflushed
    obtain ⟨-, -, -, hadvance⟩ := hflushed
    rw [runOn_flush (storable under)] at run
    cases run
    exact ⟨under.advance hadvance.of_quiet, h.exact.congr h.bytes.symm, shadow,
      runOn_flush_of_clean rfl disk shadow, h.bytes⟩
  | succ count ih =>
    have hroom : slot * 512 + 512 ≤ buffer.size := by omega
    have hfirst : sector < map.capacity := hsector 0 (Nat.succ_pos count)
    have hnext : ∀ k, k < count → sector + 1 + k < map.capacity := by
      intro k hk
      have := hsector (k + 1) (by omega)
      omega
    obtain ⟨_, map₂, content₂, run, hflush⟩ := Engine.of_runOn_bind run
    rw [BlockMap.writeSectors, Buffer.sector_eq hroom,
      Engine.runOn_bind_ok (Engine.runOn_liftExcept ..)] at run
    obtain ⟨_, map₁, content₁, hwrite, hrest⟩ := Engine.of_runOn_bind run
    have hrun := (Engine.runOn_bind_ok hrest fun _ => BlockMap.flush disk).trans hflush
    obtain under₁ | ⟨base, stranded⟩ := underway_or_stranded under hfirst hwrite
    · obtain ⟨shadow₁, hwrite', h₁⟩ := h.writeSector under hfirst hwrite under₁.consistent.coherent
      rw [← under.capacity_eq under₁] at hnext
      obtain ⟨under', hexact, shadow', hrun', hsame⟩ := ih h₁ under₁ hnext (by lia) hrun
      refine ⟨under', hexact, shadow', ?_, hsame⟩
      rw [writeSectorsBy, Buffer.sector_eq hroom, bind_assoc,
        Engine.runOn_bind_ok (Engine.runOn_liftExcept ..), bind_assoc,
        Engine.runOn_bind_ok hwrite']
      exact hrun'
    · rw [← under.capacity_eq stranded.underway] at hnext
      exact absurd hrun (runOn_ne_of_stranded stranded (fun hcount => hnext 0 hcount) (by lia))

end BlockMap

end VirtualDisk
