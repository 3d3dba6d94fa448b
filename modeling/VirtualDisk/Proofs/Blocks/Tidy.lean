import VirtualDisk.Proofs.Blocks.Discipline
import VirtualDisk.Proofs.Blocks.Footprint

/-!
# Writing where nothing overlaps

A map is tidy if its storage is well formed and the cached bitmap has no other changes than bits
that a flush would store. Every sector that is written keeps it tidy and leaves its footprint, and
so does a whole write. In the end the cache is flushed, and the storage itself has that footprint.
-/

namespace VirtualDisk

open Storage

variable {ι : Type}

namespace BlockMap

/-- Once the cached bitmap is stored, the storage is well formed and has the bits that are
cached. -/
structure Tidy (position : Nat) (map : BlockMap) (content : Content) : Prop where
  wellSized : WellSized map
  storable : map.Storable
  partsApart : PartsApart position map.header map.table (map.flushed content)
  exact : map.cleaned.Exact (map.flushed content)

variable {map map' : BlockMap} {content content' : Content} {position block start : Nat}

theorem byte_flushed (cached : map.bitmap.block = some block)
    (place : map.table.place? block = some start) (content : Content) {p : Nat}
    (h : p < start * 512 ∨ start * 512 + map.bitmap.bytes.size ≤ p) :
    (map.flushed content).byte p = content.byte p := by
  cases hdirty : map.bitmap.dirty with
  | false => rw [flushed_of_clean hdirty]
  | true => rw [flushed_of_dirty cached place hdirty, Content.byte_write, dif_neg (by omega)]

theorem bit_flushed (exact : map.cleaned.Exact (map.flushed content))
    (cached : map.bitmap.block = some block) (place : map.table.place? block = some start)
    (fits : map.bitmap.bytes.size < 2 ^ 63) {i : Nat} (hi : i / 8 < map.bitmap.bytes.size) :
    (map.flushed content).bit (start * 512) i = map.bitmap.test i := by
  have htest : map.bitmap.test i = map.cleaned.storedBit (map.flushed content) block i :=
    exact.test_eq cached fits hi
  rw [htest, storedBit_of_place (by exact place)]

/-- Where neither the cached bitmap nor the data is stored nothing changes. -/
theorem byte_flushed_write (cached : map.bitmap.block = some block)
    (cached' : map'.bitmap.block = some block) (table : map'.table = map.table)
    (place : map.table.place? block = some start)
    (size : map'.bitmap.bytes.size = map.bitmap.bytes.size) {n q : Nat} (data : Bytes n) {p : Nat}
    (hbitmap : p < start * 512 ∨ start * 512 + map.bitmap.bytes.size ≤ p)
    (hdata : p < q ∨ q + n ≤ p) :
    (map'.flushed (content.write q data)).byte p = (map.flushed content).byte p := by
  have place' : map'.table.place? block = some start := table ▸ place
  have hbitmap' : p < start * 512 ∨ start * 512 + map'.bitmap.bytes.size ≤ p := by rwa [size]
  calc (map'.flushed (content.write q data)).byte p
    _ = (content.write q data).byte p := byte_flushed cached' place' _ hbitmap'
    _ = content.byte p := by rw [Content.byte_write, dif_neg (by omega)]
    _ = (map.flushed content).byte p := (byte_flushed cached place content hbitmap).symm

theorem size_flushed_of_room (cached : map.bitmap.block = some block)
    (place : map.table.place? block = some start)
    (room : start * 512 + map.bitmap.bytes.size ≤ content.size) :
    (map.flushed content).size = content.size := by
  cases hdirty : map.bitmap.dirty with
  | false => rw [flushed_of_clean hdirty]
  | true =>
    rw [flushed_of_dirty cached place hdirty, Content.size_write]
    exact Nat.max_eq_left room

theorem grows_storeSector (disk : ι) (start i : Nat) (bytes : Sector) :
    (storeSector disk start i bytes).Grows :=
  Engine.grows_bind Engine.grows_get fun _ =>
    Engine.grows_bind (Engine.grows_liftExcept _) fun _ =>
      Engine.grows_bind (Engine.grows_liftAccess (Access.grows_ask disk trivial)) fun _ =>
        Engine.grows_bind (Engine.grows_liftExcept _) fun _ => Engine.grows_set _

namespace Tidy

theorem of_exact (wellSized : WellSized map) (exact : map.Exact content)
    (partsApart : PartsApart position map.header map.table content) :
    map.Tidy position content where
  wellSized := wellSized
  storable := by
    have hlt := map.header.bitmapSectors_lt
    refine ⟨?_, fun hdirty => ?_⟩
    · rw [wellSized.size_bytes]
      omega
    · rw [exact.clean] at hdirty
      cases hdirty
  partsApart := by
    rw [flushed_of_clean exact.clean]
    exact partsApart
  exact := by
    rw [cleaned_of_clean exact.clean, flushed_of_clean exact.clean]
    exact exact

theorem size_flushed (h : map.Tidy position content) :
    (map.flushed content).size = content.size := by
  cases hdirty : map.bitmap.dirty with
  | false => rw [flushed_of_clean hdirty]
  | true =>
    obtain ⟨block, start, cached, place⟩ := h.storable.placed hdirty
    have hroom := h.partsApart.region_room block start place
    have hsize := h.wellSized.size_bytes
    rw [flushed_of_dirty cached place hdirty, Content.size_write,
      BlockHeader.regionSectors_eq] at hroom
    refine size_flushed_of_room cached place ?_
    rw [hsize] at hroom ⊢
    lia

theorem size_flushed_write (h : map.Tidy position content)
    (cached' : map'.bitmap.block = some block) (table : map'.table = map.table)
    (place : map.table.place? block = some start)
    (size : map'.bitmap.bytes.size = map.bitmap.bytes.size) {i : Nat}
    (hi : i < map.header.sectorsPerBlock) (bytes : Sector) :
    (map'.flushed (content.write (map.dataPlace start i) bytes)).size =
      (map.flushed content).size := by
  have hroom := h.partsApart.region_room block start place
  have hend := (map.dataPlace_in_region start hi (Nat.le_refl 512)).2
  have hbytes := size.trans h.wellSized.size_bytes
  have place' : map'.table.place? block = some start := table ▸ place
  rw [h.size_flushed] at hroom ⊢
  have hwrite : (content.write (map.dataPlace start i) bytes).size = content.size := by
    rw [Content.size_write]
    exact Nat.max_eq_left (by lia)
  rw [BlockHeader.regionSectors_eq] at hroom
  have hroom' : start * 512 + map'.bitmap.bytes.size ≤
      (content.write (map.dataPlace start i) bytes).size := by
    rw [hwrite, hbytes]
    lia
  exact (size_flushed_of_room cached' place' hroom').trans hwrite

theorem of_select (h : map.Tidy position content) {disk : ι}
    (run : (select disk block).runOn sole map content = ((.ok (), map'), content')) :
    map'.Tidy position content' ∧ map'.header = map.header ∧ map'.table = map.table ∧
      map'.bitmap.block = some block ∧ map'.flushed content' = map.flushed content := by
  obtain ⟨cached, rfl, rfl⟩ | ⟨rfl, bitmap, rfl, hstored⟩ := h.storable.of_select run
  · exact ⟨h, rfl, rfl, cached, rfl⟩
  · have hexact := (h.exact.loaded hstored).exact'
    obtain ⟨cached, -, hsize⟩ := BitmapCache.of_stored hstored
    have hsized : WellSized { map with bitmap } := by
      refine h.wellSized.withBitmap hsize fun other hother => ?_
      obtain rfl := Option.some.inj (cached.symm.trans hother)
      exact BitmapCache.lt_size_of_stored hstored
    exact ⟨.of_exact hsized hexact h.partsApart, rfl, rfl, cached,
      flushed_of_clean hexact.clean _⟩

/-- What is appended for a block keeps the map tidy: the bitmap begins with zeros. -/
theorem allocated (h : map.Tidy position content) (cached : map.bitmap.block = some block)
    (vacant : map.table.place? block = none) {current : Content}
    (extended : Extended map.header content start current) (recordable : start < 2 ^ 32 - 1) :
    (map.allocated block start).Tidy position (current.withEntry map.table block start) := by
  have hclean := h.storable.clean_of_vacant cached vacant
  have hwell := h.partsApart
  have hexact := h.exact
  rw [flushed_of_clean hclean] at hwell hexact
  rw [cleaned_of_clean hclean] at hexact
  have inside := h.wellSized.block_lt block cached
  have hbytes := h.wellSized.size_bytes
  have hregion := map.header.regionSectors_le_allocationBytes
  rw [BlockHeader.regionSectors_eq, Nat.add_mul] at hregion
  have hstart := hwell.start_eq extended
  obtain ⟨hsize, -⟩ := hwell.size_allocated extended inside
  refine .of_exact (h.wellSized.allocated block start) ?_
    (hwell.allocated extended inside recordable)
  refine hexact.of_zero cached inside vacant
    (BlockTable.place?_withEntry_ofNat inside recordable) h.storable.fits (by omega) ?_
  have htable := hwell.table_room
  have hagree : current.AgreeOn (current.withEntry map.table block start) (start * 512)
      map.bitmap.bytes.size := current.agreeOn_withEntry inside (.inl (by omega))
  rw [hagree.read_eq]
  refine Bytes.ext fun i hi => ?_
  rw [Content.getElem_read, Bytes.getElem_zero]
  exact extended.zero _ (extended.front_le.trans (Nat.le_add_right ..)) (by lia)

theorem of_ensureAllocated (h : map.Tidy position content) {sector : Nat}
    (cached : map.bitmap.block = some (sector / map.header.sectorsPerBlock)) {disk : ι}
    (run : (ensureAllocated disk (sector / map.header.sectorsPerBlock)).runOn sole map content =
      ((.ok start, map'), content')) (small : content'.size < sizeLimit) :
    map'.Tidy position content' ∧ map'.header = map.header ∧ map'.bitmap = map.bitmap ∧
      map'.table.place? (sector / map.header.sectorsPerBlock) = some start ∧
      (map'.table = map.table ∧ map'.flushed content' = map.flushed content ∨
        Footprint map.header (· = sector) map.table (map.flushed content) map'.table
          (map'.flushed content')) := by
  have inside := h.wellSized.block_lt _ cached
  cases place : map.table.place? (sector / map.header.sectorsPerBlock) with
  | some start' =>
    rw [ensureAllocated, Engine.runOn_bind_ok (Engine.runOn_get ..),
      BlockTable.sector?_of_place place, Engine.runOn_bind_ok (Engine.runOn_liftExcept ..)] at run
    cases run
    exact ⟨h, rfl, rfl, place, .inl ⟨rfl, rfl⟩⟩
  | none =>
    have R : Regime (.free disk False fun content => content.size < sizeLimit) (fun _ => True)
        (fun map _ => WellSized map) :=
      WellSized.regime (fun _ hw => Nat.lt_trans hw (by decide)) fun _ _ => trivial
    have hpost := (ensureAllocated_missing R h.wellSized ⟨trivial, inside, place⟩).runOn_sole
      (grows_ensureAllocated disk _) fun other hle => by
        rw [Setting.disk_free, run] at hle
        exact Nat.lt_of_le_of_lt hle small
    rw [Setting.disk_free, run] at hpost
    obtain ⟨current, extended, rfl, rfl⟩ := hpost
    have hclean := h.storable.clean_of_vacant cached place
    have hwell := h.partsApart
    rw [flushed_of_clean hclean] at hwell ⊢
    obtain ⟨hsize, -⟩ := hwell.size_allocated extended inside
    have hstart := hwell.start_eq extended
    have recordable : start < 2 ^ 32 - 1 := by
      rw [hsize, sizeLimit] at small
      omega
    rw [flushed_of_clean (by exact hclean)]
    exact ⟨h.allocated cached place extended recordable, rfl, rfl,
      BlockTable.place?_withEntry_ofNat inside recordable,
      .inr (hwell.footprint_allocated extended inside place recordable rfl)⟩

theorem bit_marked (h : map.Tidy position content) (cached : map.bitmap.block = some block)
    (place : map.table.place? block = some start) (table : map'.table = map.table) {i j : Nat}
    (hasSet : BitmapCache.HasSet i map.bitmap map'.bitmap)
    (exact : map'.cleaned.Exact (map'.flushed content')) (hj : j / 8 < map.bitmap.bytes.size) :
    (map'.flushed content').bit (start * 512) j = true ↔
      (map.flushed content).bit (start * 512) j = true ∨ i = j := by
  have hsize := hasSet.size_bytes
  rw [bit_flushed exact (hasSet.block.trans cached) (table ▸ place) (hsize ▸ h.storable.fits)
    (hsize ▸ hj), bit_flushed h.exact cached place h.storable.fits hj]
  by_cases hself : i = j
  · subst hself
    exact iff_of_true hasSet.test_self (.inr rfl)
  · rw [hasSet.test_of_ne j (Ne.symm hself)]
    exact ⟨.inl, fun either => either.resolve_right hself⟩

theorem of_storeSector (h : map.Tidy position content) {sector : Nat}
    (cached : map.bitmap.block = some (sector / map.header.sectorsPerBlock))
    (place : map.table.place? (sector / map.header.sectorsPerBlock) = some start) {disk : ι}
    {bytes : Sector}
    (run : (storeSector disk start (sector % map.header.sectorsPerBlock) bytes).runOn sole map
      content = ((.ok (), map'), content')) :
    map'.Tidy position content' ∧ map'.header = map.header ∧
      Footprint map.header (· = sector) map.table (map.flushed content) map'.table
        (map'.flushed content') := by
  have hi := Nat.mod_lt sector h.wellSized.sectors_pos
  have hbytes := h.wellSized.size_bytes
  obtain ⟨bitmap, hset, hasSet⟩ := BitmapCache.exists_set (h.wellSized.div_lt_size_bytes hi)
  -- Stored without a cache, the bit and the sector give what a flush would leave here.
  have mirror : map.Mirror content (map.flushed content) := ⟨.refl _, h.exact⟩
  obtain ⟨shadow, -, mirror'⟩ := mirror.storeSector cached place hbytes hi hset hasSet disk bytes
  have hexact := mirror'.exact.congr mirror'.bytes.symm
  rw [runOn_storeSector (BlockTable.place?_lt place) hi hset, Prod.mk.injEq, Prod.mk.injEq] at run
  obtain ⟨⟨-, hmap⟩, hcontent⟩ := run
  rw [hmap, hcontent] at hexact
  have hheader : map'.header = map.header := by rw [← hmap]
  have htable : map'.table = map.table := by rw [← hmap]
  have hbitmap : map'.bitmap = bitmap := by rw [← hmap]
  have hsized : WellSized map' := hmap ▸ h.wellSized.withBitmap hasSet.size_bytes
    fun other hother => h.wellSized.block_lt other (hasSet.block.symm.trans hother)
  rw [← hbitmap] at hasSet
  have hsize := hasSet.size_bytes
  have cached' := hasSet.block.trans cached
  have hsize' := h.size_flushed_write cached' htable place hsize hi bytes
  have hwell := h.partsApart.stored h.wellSized.sectors_pos place (hcontent ▸ hsize') ?_ ?_
  · have storable' : map'.Storable :=
      ⟨hsize ▸ h.storable.fits, fun _ => ⟨_, start, cached', htable ▸ place⟩⟩
    rw [← hheader, ← htable] at hwell
    exact ⟨⟨hsized, storable', hwell.1, hexact⟩, hheader, hheader ▸ htable ▸ hwell.2⟩
  · intro p hp hq
    rw [← hbytes] at hp
    rw [← hcontent]
    exact byte_flushed_write cached cached' htable place hsize bytes hp hq
  · intro j hj
    rw [← hbytes] at hj
    exact h.bit_marked cached place htable hasSet hexact hj

theorem of_writeSector (h : map.Tidy position content) {sector : Nat} {disk : ι} {bytes : Sector}
    (run : (writeSector disk sector bytes).runOn sole map content = ((.ok (), map'), content'))
    (small : content'.size < sizeLimit) :
    map'.Tidy position content' ∧ map'.header = map.header ∧
      Footprint map.header (· = sector) map.table (map.flushed content) map'.table
        (map'.flushed content') := by
  rw [writeSector_eq, Engine.runOn_bind_ok (Engine.runOn_get ..)] at run
  obtain ⟨located, _, _, hlift, hrest⟩ := Engine.of_runOn_bind run
  obtain ⟨hlocate, rfl, rfl⟩ := Engine.of_runOn_liftExcept hlift
  obtain rfl := of_locate hlocate
  obtain ⟨_, map₁, content₁, hselect, hrest⟩ := Engine.of_runOn_bind hrest
  obtain ⟨start, map₂, content₂, hensure, hstore⟩ := Engine.of_runOn_bind hrest
  have small₂ : content₂.size < sizeLimit :=
    Nat.lt_of_le_of_lt ((grows_storeSector disk start _ bytes).size_le_of_run hstore) small
  obtain ⟨h₁, hheader₁, htable₁, cached, hflushed₁⟩ := h.of_select hselect
  rw [← hheader₁] at cached hensure hstore
  obtain ⟨h₂, hheader₂, hbitmap₂, place, hfootprint₂⟩ := h₁.of_ensureAllocated cached hensure small₂
  rw [← hbitmap₂, ← hheader₂] at cached
  rw [← hheader₂] at place hstore
  obtain ⟨h', hheader', hfootprint⟩ := h₂.of_storeSector cached place hstore
  rw [hheader₂] at hfootprint hheader'
  refine ⟨h', hheader'.trans hheader₁, ?_⟩
  rw [← hheader₁, ← htable₁, ← hflushed₁]
  -- An allocation for the sector is part of its footprint.
  obtain ⟨htable₂, hflushed₂⟩ | hfootprint₂ := hfootprint₂
  · rw [← htable₂, ← hflushed₂]
    exact hfootprint
  · exact hfootprint₂.trans hfootprint fun other => (or_self_iff).symm

theorem of_writeSectors (h : map.Tidy position content) {disk : ι} {buffer : ByteArray}
    {count sector slot : Nat}
    (run : (writeSectors disk buffer count sector slot).runOn sole map content =
      ((.ok (), map'), content')) (small : content'.size < sizeLimit) :
    map'.Tidy position content' ∧ map'.header = map.header ∧
      Footprint map.header (fun other => sector ≤ other ∧ other < sector + count) map.table
        (map.flushed content) map'.table (map'.flushed content') := by
  induction count generalizing map content sector slot with
  | zero =>
    cases run
    exact ⟨h, rfl, .refl _ _ fun other => by omega⟩
  | succ count ih =>
    rw [writeSectors] at run
    obtain ⟨bytes, _, _, hbytes, hrest⟩ := Engine.of_runOn_bind run
    obtain ⟨-, rfl, rfl⟩ := Engine.of_runOn_liftExcept hbytes
    obtain ⟨_, map₁, content₁, hwrite, hrest⟩ := Engine.of_runOn_bind hrest
    -- Storages only grow, so the limit at the end was kept all the way.
    have small₁ : content₁.size < sizeLimit :=
      Nat.lt_of_le_of_lt ((grows_writeSectors disk _ _ _ _).size_le_of_run hrest) small
    obtain ⟨h₁, hheader₁, hfootprint₁⟩ := h.of_writeSector hwrite small₁
    obtain ⟨h', hheader', hfootprint'⟩ := ih h₁ hrest
    rw [hheader₁] at hheader' hfootprint'
    refine ⟨h', hheader', hfootprint₁.trans hfootprint' fun other => ?_⟩
    omega

/-- After the flush at the end the footprint is on the storage itself. -/
theorem of_write (h : map.Tidy position content) {disk : ι} {buffer : ByteArray}
    {count sector slot : Nat}
    (run : (writeSectors disk buffer count sector slot >>= fun _ => flush disk).runOn sole map
      content = ((.ok (), map'), content')) (small : content'.size < sizeLimit) :
    map'.Tidy position content' ∧ map'.Exact content' ∧ map'.header = map.header ∧
      Footprint map.header (fun other => sector ≤ other ∧ other < sector + count) map.table
        (map.flushed content) map'.table content' := by
  obtain ⟨_, map₁, content₁, hwrite, hflush⟩ := Engine.of_runOn_bind run
  have small₁ : content₁.size < sizeLimit :=
    Nat.lt_of_le_of_lt ((grows_flush disk).size_le_of_run hflush) small
  obtain ⟨h₁, hheader, hfootprint⟩ := h.of_writeSectors hwrite small₁
  rw [runOn_flush h₁.storable] at hflush
  cases hflush
  have hsized : WellSized map₁.cleaned := h₁.wellSized.withBitmap rfl h₁.wellSized.block_lt
  exact ⟨.of_exact hsized h₁.exact h₁.partsApart, h₁.exact, hheader, hfootprint⟩

end Tidy

end BlockMap

end VirtualDisk
