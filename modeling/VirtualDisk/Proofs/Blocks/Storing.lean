import VirtualDisk.Blocks.Transfer
import VirtualDisk.Proofs.Storage.Buffers
import VirtualDisk.Proofs.Blocks.Effects

/-!
# Storing and fetching bitmaps and sectors

The operations on blocks store the cached bitmap, load the bitmap of a block, and store and fetch
single sectors. Here is what each of these does, on any terms that permit its one request: it
succeeds with what it says, or it fails and nothing has changed.
-/

namespace VirtualDisk

open Storage

namespace BlockTable

theorem sector?_of_place {table : BlockTable} {block start : Nat}
    (h : table.place? block = some start) : table.sector? block = .ok (some start) := by
  rw [sector?_eq (lt_size_of_place? h), h]

theorem sector?_of_vacant {table : BlockTable} {block : Nat} (hblock : block < table.size)
    (h : table.place? block = none) : table.sector? block = .ok none := by
  rw [sector?_eq hblock, h]

end BlockTable

namespace BlockMap

variable {ι : Type} {S : Setting ι} {map : BlockMap} {content : Content} {block start i : Nat}

theorem position_of_place (h : map.table.place? block = some start) :
    Sector.position start = .ok (start * 512) := by
  have hstart := BlockTable.place?_lt h
  exact Sector.position_eq (by omega)

/-- What a flush leaves: the cached bitmap is stored, if it has changes. -/
inductive Flushed (map : BlockMap) (content : Content) : BlockMap → Content → Prop where
  | idle (clean : ∀ block, map.bitmap.block = some block → map.bitmap.dirty = false) :
      Flushed map content map content
  | stored {block start : Nat} (cached : map.bitmap.block = some block)
      (dirty : map.bitmap.dirty = true) (place : map.table.place? block = some start) :
      Flushed map content map.cleaned
        (content.write (start * 512) (Bytes.ofByteArray map.bitmap.bytes))

/-- A flush fails if its request does, or if the block of the bitmap is not stored anywhere. -/
theorem flush_stores (fits : map.bitmap.bytes.size < 2 ^ 63)
    (inside : ∀ block, map.bitmap.block = some block → map.bitmap.dirty = true →
      block < map.table.size)
    (permits : ∀ block start, map.bitmap.block = some block →
      map.table.place? block = some start →
        S.permits (.write (start * 512) map.bitmap.bytes) content) :
    (flush S.disk).Ensures S (fun _ map' content' => Flushed map content map' content')
      (fun e map' content' => map' = map ∧ content' = content ∧
        (S.mayFail ∨ e = .corrupt .dirtyUnallocated ∧ map.bitmap.dirty = true ∧
          ∃ block, map.bitmap.block = some block ∧ map.table.place? block = none))
      map content := by
  simp only [flush, Engine.ensures_bind, Engine.ensures_get, Engine.ensures_liftAccess,
    Engine.ensures_set]
  intro _
  by_cases clean : ∀ block, map.bitmap.block = some block → map.bitmap.dirty = false
  · have hflush : map.bitmap.flush S.disk map.table = pure map.bitmap := by
      unfold BitmapCache.flush
      split
      · next block cached dirty => cases dirty.symm.trans (clean block cached)
      · rfl
    rw [hflush, Access.ensures_pure]
    exact fun _ _ => .idle clean
  · obtain ⟨block, hchanged⟩ := not_forall.mp clean
    obtain ⟨cached, hdirty⟩ := Classical.not_imp.mp hchanged
    have dirty : map.bitmap.dirty = true := Bool.eq_true_of_not_eq_false hdirty
    cases place : map.table.place? block with
    | none =>
      simp only [BitmapCache.flush, cached, dirty,
        BlockTable.sector?_of_vacant (inside block cached dirty) place, Access.ensures_bind,
        Access.ensures_liftExcept_ok, Access.ensures_throw]
      exact fun _ _ => ⟨trivial, trivial, .inr ⟨trivial, trivial, block, rfl, place⟩⟩
    | some start =>
      have hstart := BlockTable.place?_lt place
      simp only [BitmapCache.flush, cached, dirty, BlockTable.sector?_of_place place,
        position_of_place place, Access.ensures_bind, Access.ensures_liftExcept_ok]
      intro _ _
      refine .write (by omega) (permits block start cached place) (fun _ => ?_)
        (fun hm _ => ⟨trivial, rfl, .inl hm⟩)
      rw [Access.ensures_pure]
      intro _ _
      have hcleaned : map.cleaned =
          ⟨map.header, map.table, ⟨map.bitmap.bytes, some block, false⟩⟩ := by rw [← cached]; rfl
      rw [← hcleaned]
      exact .stored cached dirty place

theorem cleaned_of_clean (h : map.bitmap.dirty = false) : map.cleaned = map := by
  rw [cleaned, ← h]

theorem flush_cleans (fits : map.bitmap.bytes.size < 2 ^ 63)
    (placed : map.bitmap.dirty = true →
      ∃ block start, map.bitmap.block = some block ∧ map.table.place? block = some start)
    (permits : ∀ block start, map.bitmap.block = some block →
      map.table.place? block = some start →
        S.permits (.write (start * 512) map.bitmap.bytes) content) :
    (flush S.disk).Ensures S
      (fun _ map' content' => map' = map.cleaned ∧
        (map.bitmap.dirty = false ∧ content' = content ∨
          map.bitmap.dirty = true ∧ ∃ block start, map.bitmap.block = some block ∧
            map.table.place? block = some start ∧
            content' = content.write (start * 512) (Bytes.ofByteArray map.bitmap.bytes)))
      (fun _ map' content' => S.mayFail ∧ map' = map ∧ content' = content) map content := by
  have found : ∀ block, map.bitmap.block = some block → map.bitmap.dirty = true →
      ∃ start, map.table.place? block = some start := by
    intro block cached dirty
    obtain ⟨other, start, hother, place⟩ := placed dirty
    obtain rfl := Option.some.inj (hother.symm.trans cached)
    exact ⟨start, place⟩
  refine (flush_stores fits (fun block cached dirty => ?_) permits).mono ?_ ?_
  · obtain ⟨start, place⟩ := found block cached dirty
    exact BlockTable.lt_size_of_place? place
  · rintro _ map' content' _ (clean | ⟨cached, dirty, place⟩)
    · have hclean : map.bitmap.dirty = false := by
        refine Bool.eq_false_of_not_eq_true fun dirty => ?_
        obtain ⟨block, start, cached, -⟩ := placed dirty
        cases dirty.symm.trans (clean block cached)
      exact ⟨(cleaned_of_clean hclean).symm, .inl ⟨hclean, rfl⟩⟩
    · exact ⟨rfl, .inr ⟨dirty, _, _, cached, place, rfl⟩⟩
  · rintro e map' content' _ ⟨rfl, rfl, hm | ⟨-, dirty, block, cached, vacant⟩⟩
    · exact ⟨hm, rfl, rfl⟩
    · obtain ⟨start, place⟩ := found block cached dirty
      cases vacant.symm.trans place

/-- What is loaded is the bitmap of the block, unless the storage ends before it does. -/
theorem load_fetches (fits : map.bitmap.bytes.size < 2 ^ 63) (inside : block < map.table.size)
    (permits : ∀ start, map.table.place? block = some start →
      S.permits (.read (start * 512) map.bitmap.bytes.size) content) :
    (map.bitmap.load S.disk map.table block).Ensures S
      (fun bitmap content' => content' = content ∧ bitmap = map.fetched content block)
      (fun e content' => content' = content ∧
        (S.mayFail ∨ e = .corrupt .bitmapTruncated ∧ ∃ start,
          map.table.place? block = some start ∧
            content.size < start * 512 + map.bitmap.bytes.size)) content := by
  cases place : map.table.place? block with
  | none =>
    simp only [BitmapCache.load, BlockTable.sector?_of_vacant inside place, Access.ensures_bind,
      Access.ensures_liftExcept_ok, Access.ensures_pure]
    exact fun _ _ _ => ⟨trivial, (fetched_of_vacant place).symm⟩
  | some start =>
    have hstart := BlockTable.place?_lt place
    simp only [BitmapCache.load, BlockTable.sector?_of_place place, position_of_place place,
      Access.ensures_bind, Access.ensures_liftExcept_ok]
    intro _ _
    refine .readWithin_or (by omega) (permits start place) (fun _ => ?_)
      (fun hshort => ⟨rfl, .inr ⟨rfl, start, rfl, hshort⟩⟩) (fun hm _ => ⟨rfl, .inl hm⟩)
    rw [Access.ensures_pure]
    exact fun _ => ⟨rfl, (fetched_of_place place).symm⟩

/-- The last part of a read: the sector is read from its block, if its bit is set. -/
def fetchSector (disk : ι) (block sectorInBlock : Nat) : Engine ι BlockMap Sector := do
  let map ← get
  if map.bitmap.test sectorInBlock then
    let some start ← map.table.sector? block
      | throw (.corrupt .presentUnallocated)
    let position ← map.dataPosition start sectorInBlock
    (Access.readWithin disk position 512 .dataTruncated : Access ι Sector)
  else return Bytes.zero 512

theorem readSector_eq (disk : ι) (sector : Nat) :
    readSector disk sector = (do
      let (block, sectorInBlock) ← (← get).locate sector
      select disk block
      fetchSector disk block sectorInBlock) :=
  rfl

/-- A sector whose bit is set is read, any other is zeros. It is missing if the block is not stored,
or if the storage ends before the sector does. -/
theorem fetchSector_reads (inside : block < map.table.size) (hi : i < map.header.sectorsPerBlock)
    (permits : ∀ start, map.table.place? block = some start →
      S.permits (.read (map.dataPlace start i) 512) content) :
    (fetchSector S.disk block i).Ensures S
      (fun bytes map' content' => map' = map ∧ content' = content ∧
        (map.bitmap.test i = false ∧ bytes = Bytes.zero 512 ∨
          ∃ start, map.bitmap.test i = true ∧ map.table.place? block = some start ∧
            bytes = content.read (map.dataPlace start i) 512))
      (fun e map' content' => map' = map ∧ content' = content ∧
        (S.mayFail ∨ map.bitmap.test i = true ∧
          (e = .corrupt .presentUnallocated ∧ map.table.place? block = none ∨
            e = .corrupt .dataTruncated ∧ ∃ start, map.table.place? block = some start ∧
              content.size < map.dataPlace start i + 512))) map content := by
  simp only [fetchSector, Engine.ensures_bind, Engine.ensures_get]
  intro _
  cases htest : map.bitmap.test i with
  | false =>
    rw [if_neg Bool.false_ne_true, Engine.ensures_pure]
    exact fun _ => ⟨rfl, rfl, .inl ⟨rfl, rfl⟩⟩
  | true =>
    rw [if_pos rfl]
    cases place : map.table.place? block with
    | none =>
      simp only [BlockTable.sector?_of_vacant inside place, Engine.ensures_bind,
        Engine.ensures_liftExcept_ok, Engine.ensures_throw]
      exact fun _ _ => ⟨trivial, trivial, .inr ⟨trivial, .inl ⟨trivial, trivial⟩⟩⟩
    | some start =>
      have hstart := BlockTable.place?_lt place
      simp only [BlockTable.sector?_of_place place, dataPosition_of_lt hstart hi,
        Engine.ensures_bind, Engine.ensures_liftExcept_ok, Engine.ensures_liftAccess]
      intro _ _
      exact .readWithin_or (dataPlace_lt_of_lt hstart hi) (permits start place)
        (fun _ => ⟨trivial, rfl, .inr ⟨start, trivial, rfl, rfl⟩⟩)
        (fun hshort => ⟨trivial, rfl, .inr ⟨trivial, .inr ⟨rfl, start, rfl, hshort⟩⟩⟩)
        (fun hm _ => ⟨trivial, rfl, .inl hm⟩)

/-- The last part of a write: the sector is stored in its block, and its bit is set. -/
def storeSector (disk : ι) (start sectorInBlock : Nat) (bytes : Sector) :
    Engine ι BlockMap Unit := do
  let map ← get
  let position ← map.dataPosition start sectorInBlock
  (Access.write disk position bytes : Access ι Unit)
  let bitmap ← map.bitmap.set sectorInBlock
  set { map with bitmap }

theorem writeSector_eq (disk : ι) (sector : Nat) (bytes : Sector) :
    writeSector disk sector bytes = (do
      let (block, sectorInBlock) ← (← get).locate sector
      select disk block
      let start ← ensureAllocated disk block
      storeSector disk start sectorInBlock bytes) :=
  rfl

theorem storeSector_stores (near : start < 2 ^ 32) (inside : i < map.header.sectorsPerBlock)
    (size_bytes : map.bitmap.bytes.size = map.header.bitmapSectors * 512) {bytes : Sector}
    (permits : S.permits (.write (map.dataPlace start i) bytes.toByteArray) content) :
    (storeSector S.disk start i bytes).Ensures S
      (fun _ map' content' => ∃ bitmap, BitmapCache.HasSet i map.bitmap bitmap ∧
        map' = { map with bitmap } ∧ content' = content.write (map.dataPlace start i) bytes)
      (fun _ map' content' => S.mayFail ∧ map' = map ∧ content' = content) map content := by
  have hbit : i / 8 < map.bitmap.bytes.size := by
    rw [size_bytes]
    exact BlockHeader.div_lt_bitmapSectors inside
  obtain ⟨bitmap, hset, hasSet⟩ := BitmapCache.exists_set hbit
  simp only [storeSector, Engine.ensures_bind, Engine.ensures_get, dataPosition_of_lt near inside,
    hset, Engine.ensures_liftExcept_ok, Engine.ensures_liftAccess, Engine.ensures_set]
  intro _ _
  refine .write (dataPlace_lt_of_lt near inside) permits ?_ (fun hm _ => ⟨hm, trivial, rfl⟩)
  exact fun _ _ _ => ⟨bitmap, hasSet, rfl, rfl⟩

/-- What the write of one sector carries from one number of sectors to the next, the write of a row
carries from none of them to all. -/
theorem writeSectors_steps {P : Nat → BlockMap → Content → Prop}
    {E : Error → BlockMap → Content → Prop} {buffer : ByteArray} {count sector slot : Nat}
    (hbuffer : (slot + count) * 512 ≤ buffer.size) (first : P 0 map content)
    (step : ∀ k, k < count → ∀ map content, P k map content →
      (writeSector S.disk (sector + k) (Buffer.slot buffer (slot + k))).Ensures S
        (fun _ map' content' => P (k + 1) map' content') E map content) :
    (writeSectors S.disk buffer count sector slot).Ensures S
      (fun _ map' content' => P count map' content') E map content := by
  induction count generalizing sector slot map content P with
  | zero =>
    rw [writeSectors, Engine.ensures_pure]
    exact fun _ => first
  | succ count ih =>
    have hroom : slot * 512 + 512 ≤ buffer.size := by omega
    simp only [writeSectors, Buffer.sector_eq hroom, Engine.ensures_bind,
      Engine.ensures_liftExcept_ok]
    intro _
    refine (step 0 (Nat.succ_pos count) map content first).mono_success ?_
    intro _ map' content' _ second
    refine ih (P := fun k => P (k + 1)) (by lia) second fun k hk map content h => ?_
    have hnext := step (k + 1) (by omega) map content h
    rwa [show sector + (k + 1) = sector + 1 + k by omega,
      show slot + (k + 1) = slot + 1 + k by omega] at hnext

end BlockMap

end VirtualDisk
