import VirtualDisk.Proofs.Blocks.Transferring
import VirtualDisk.Proofs.Blocks.Twins

/-!
# Reading and writing with and without a cache

Reads and writes meet the cached bitmap in two places: the bitmap of a block is selected, and a bit
of it is set. A `Caching` says how. The `delayed` one is that of the library: a bitmap stays until
that of another block is asked for, and is stored then or at the end. The `immediate` one does not
cache: every selection loads the bitmap from the storage, and every bit that is set is stored at
once.

On a map that is exact the two select alike, and so nothing is read differently. Two exact maps that
differ in what is cached only are soon the same: whatever is written, the first selection makes them
so.
-/

namespace VirtualDisk

open Storage

variable {ι α : Type}

/-- What is done about the bitmaps of blocks. -/
structure Caching (ι : Type) where
  /-- Makes the bitmap of a block the current one. -/
  select : (disk : ι) → (block : Nat) → Engine ι BlockMap Unit
  /-- Sets a bit of the current bitmap, which is that of the given map. -/
  mark : (disk : ι) → (map : BlockMap) → (bit : Nat) → Engine ι BlockMap Unit

namespace Caching

/-- Nothing is loaded twice in a row, and bits are stored when they have to be. -/
def delayed : Caching ι where
  select := BlockMap.select
  mark _ map bit := do
    let bitmap ← map.bitmap.set bit
    set { map with bitmap }

/-- Bitmaps are always loaded, and bits are stored at once. -/
def immediate : Caching ι where
  select disk block := do
    let map ← get
    let bitmap ← (map.bitmap.load disk map.table block : Access ι BitmapCache)
    set { map with bitmap }
  mark disk map bit := do
    let bitmap ← map.bitmap.set bit
    set { map with bitmap }
    BlockMap.flush disk

end Caching

namespace BlockMap

/-- The image itself holds the sector. -/
def holdsBy (caching : Caching ι) (disk : ι) (sector : Nat) : Engine ι BlockMap Bool := do
  let (block, sectorInBlock) ← (← get).locate sector
  caching.select disk block
  return (← get).bitmap.test sectorInBlock

/-- The sector as the image itself holds it, or zeros. -/
def readSectorBy (caching : Caching ι) (disk : ι) (sector : Nat) : Engine ι BlockMap Sector := do
  let (block, sectorInBlock) ← (← get).locate sector
  caching.select disk block
  let map ← get
  if map.bitmap.test sectorInBlock then
    let some start ← map.table.sector? block
      | throw (.corrupt .presentUnallocated)
    let position ← map.dataPosition start sectorInBlock
    (Access.readWithin disk position 512 .dataTruncated : Access ι Sector)
  else return Bytes.zero 512

/-- Reads `count` sectors from `sector` on into the slots of a buffer from `slot` on. -/
def readSectorsBy (caching : Caching ι) (disk : ι) :
    (count sector slot : Nat) → ByteArray → Engine ι BlockMap ByteArray
  | 0, _, _, buffer => return buffer
  | count + 1, sector, slot, buffer => do
    let content ← readSectorBy caching disk sector
    let buffer ← Buffer.fillSector buffer slot content
    readSectorsBy caching disk count (sector + 1) (slot + 1) buffer

/-- The sector is stored in its block, and its bit is set. -/
def storeSectorBy (caching : Caching ι) (disk : ι) (start sectorInBlock : Nat) (content : Sector) :
    Engine ι BlockMap Unit := do
  let map ← get
  let position ← map.dataPosition start sectorInBlock
  (Access.write disk position content : Access ι Unit)
  caching.mark disk map sectorInBlock

/-- Stores one sector and declares it present. -/
def writeSectorBy (caching : Caching ι) (disk : ι) (sector : Nat) (content : Sector) :
    Engine ι BlockMap Unit := do
  let (block, sectorInBlock) ← (← get).locate sector
  caching.select disk block
  let start ← ensureAllocated disk block
  storeSectorBy caching disk start sectorInBlock content

/-- Writes `count` sectors from `sector` on from the slots of a buffer from `slot` on. -/
def writeSectorsBy (caching : Caching ι) (disk : ι) (buffer : ByteArray) :
    (count sector slot : Nat) → Engine ι BlockMap Unit
  | 0, _, _ => return
  | count + 1, sector, slot => do
    let content ← Buffer.sector buffer slot
    writeSectorBy caching disk sector content
    writeSectorsBy caching disk buffer count (sector + 1) (slot + 1)

theorem holdsBy_delayed (disk : ι) (sector : Nat) :
    holdsBy .delayed disk sector = holds disk sector :=
  rfl

theorem readSectorBy_delayed (disk : ι) (sector : Nat) :
    readSectorBy .delayed disk sector = readSector disk sector :=
  rfl

theorem readSectorsBy_delayed (disk : ι) (count sector slot : Nat) (buffer : ByteArray) :
    readSectorsBy .delayed disk count sector slot buffer =
      readSectors disk count sector slot buffer := by
  induction count generalizing sector slot buffer with
  | zero => rfl
  | succ count ih => simp only [readSectorsBy, readSectors, readSectorBy_delayed, ih]

theorem writeSectorBy_delayed (disk : ι) (sector : Nat) (content : Sector) :
    writeSectorBy .delayed disk sector content = writeSector disk sector content :=
  rfl

theorem writeSectorsBy_delayed (disk : ι) (buffer : ByteArray) (count sector slot : Nat) :
    writeSectorsBy .delayed disk buffer count sector slot =
      writeSectors disk buffer count sector slot := by
  induction count generalizing sector slot with
  | zero => rfl
  | succ count ih => simp only [writeSectorsBy, writeSectors, writeSectorBy_delayed, ih]

end BlockMap

/-- A caching that selects as the library does where there is nothing to be stored. -/
def Caching.Faithful (caching : Caching ι) : Prop :=
  ∀ (disk : ι) (block : Nat) (map : BlockMap) (content : Content), map.Exact content →
    (caching.select disk block).runOn sole map content =
      (BlockMap.select disk block).runOn sole map content

namespace Caching

theorem faithful_delayed : (delayed : Caching ι).Faithful :=
  fun _ _ _ _ _ => rfl

theorem faithful_immediate : (immediate : Caching ι).Faithful := by
  intro disk block map content exact
  rw [exact.runOn_select, immediate]
  dsimp only
  rw [Engine.runOn_bind_ok (Engine.runOn_get ..), Engine.runOn_bind, Engine.runOn_liftAccess,
    BitmapCache.runOn_load]
  cases BitmapCache.stored content map.table map.bitmap.bytes.size block with
  | ok bitmap => rfl
  | error e => rfl

end Caching

namespace BlockMap

variable {caching : Caching ι} {map map' : BlockMap} {content : Content}

theorem runOn_select_bind (faithful : caching.Faithful) (exact : map.Exact content) (disk : ι)
    (block : Nat) (f : Unit → Engine ι BlockMap α) :
    (caching.select disk block >>= f).runOn sole map content =
      (select disk block >>= f).runOn sole map content :=
  Engine.runOn_bind_congr (faithful disk block map content exact) f

theorem runOn_holdsBy (faithful : caching.Faithful) (exact : map.Exact content) (disk : ι)
    (sector : Nat) :
    (holdsBy caching disk sector).runOn sole map content =
      (holds disk sector).runOn sole map content := by
  rw [holdsBy, holds, Engine.runOn_bind_ok (Engine.runOn_get ..),
    Engine.runOn_bind_ok (Engine.runOn_get ..), Engine.runOn_bind, Engine.runOn_bind,
    Engine.runOn_liftExcept]
  cases map.locate sector with
  | ok place => exact runOn_select_bind faithful exact disk place.1 _
  | error e => rfl

theorem runOn_readSectorBy (faithful : caching.Faithful) (exact : map.Exact content) (disk : ι)
    (sector : Nat) :
    (readSectorBy caching disk sector).runOn sole map content =
      (readSector disk sector).runOn sole map content := by
  rw [readSectorBy, readSector, Engine.runOn_bind_ok (Engine.runOn_get ..),
    Engine.runOn_bind_ok (Engine.runOn_get ..), Engine.runOn_bind, Engine.runOn_bind,
    Engine.runOn_liftExcept]
  cases map.locate sector with
  | ok place => exact runOn_select_bind faithful exact disk place.1 _
  | error e => rfl

/-- Reads leave the map exact, so every sector is read in the same way. -/
theorem runOn_readSectorsBy (faithful : caching.Faithful) (exact : map.Exact content) (disk : ι)
    (count sector slot : Nat) (buffer : ByteArray) :
    (readSectorsBy caching disk count sector slot buffer).runOn sole map content =
      (readSectors disk count sector slot buffer).runOn sole map content := by
  induction count generalizing map content sector slot buffer with
  | zero => rfl
  | succ count ih =>
    have hexact := (exact.twin.readSector disk disk sector).twin.exact'
    rw [readSectorsBy, readSectors, Engine.runOn_bind, Engine.runOn_bind,
      runOn_readSectorBy faithful exact]
    rcases hrun : (readSector disk sector).runOn sole map content with ⟨⟨result, map'⟩, content'⟩
    rw [hrun] at hexact
    cases result with
    | error e => rfl
    | ok bytes =>
      dsimp only at hexact ⊢
      rw [Engine.runOn_bind, Engine.runOn_bind, Engine.runOn_liftExcept]
      cases Buffer.fillSector buffer slot bytes with
      | ok buffer' => exact ih hexact _ _ _
      | error e => rfl

/-- Two runs end in the same state, or come to the same end but for the bitmap that is cached. -/
def Level (run run' : (Except Error α × BlockMap) × Content) : Prop :=
  run' = run ∨ SameEnd run run'

/-- The runs of one engine from two maps are the same, or come to the same result and change
nothing. -/
def Merge (engine : Engine ι BlockMap α) (map map' : BlockMap) (content : Content) : Prop :=
  engine.runOn sole map' content = engine.runOn sole map content ∨
    ∃ result, engine.runOn sole map content = ((result, map), content) ∧
      engine.runOn sole map' content = ((result, map'), content)

theorem Merge.bind {β : Type} {engine : Engine ι BlockMap α} {f : α → Engine ι BlockMap β}
    (h : Merge engine map map' content) (hf : ∀ a, Merge (f a) map map' content) :
    Merge (engine >>= f) map map' content := by
  obtain heq | ⟨result, hrun, hrun'⟩ := h
  · left
    rw [Engine.runOn_bind, Engine.runOn_bind, heq]
  · cases result with
    | ok a =>
      rw [Merge, Engine.runOn_bind_ok hrun, Engine.runOn_bind_ok hrun']
      exact hf a
    | error e =>
      right
      exact ⟨.error e, Engine.runOn_bind_error hrun f, Engine.runOn_bind_error hrun' f⟩

theorem merge_result (result : Except Error α) :
    Merge (liftM result : Engine ι BlockMap α) map map' content :=
  .inr ⟨result, Engine.runOn_liftExcept .., Engine.runOn_liftExcept ..⟩

theorem Merge.level {engine : Engine ι BlockMap α} (h : Merge engine map map' content)
    (twin : map.Twin map' content) :
    Level (engine.runOn sole map content) (engine.runOn sole map' content) := by
  obtain heq | ⟨result, hrun, hrun'⟩ := h
  · exact .inl heq
  · right
    rw [hrun, hrun']
    exact ⟨rfl, rfl, twin⟩

namespace Twin

/-- After a selection both maps are the same. -/
theorem merge_select_bind (h : map.Twin map' content) (faithful : caching.Faithful) (disk : ι)
    (block : Nat) (f : Unit → Engine ι BlockMap α) :
    Merge (caching.select disk block >>= f) map map' content := by
  rw [Merge, runOn_select_bind faithful h.exact, runOn_select_bind faithful h.exact']
  obtain ⟨found, -, hrun, hrun'⟩ | ⟨e, hrun, hrun'⟩ := h.runOn_select disk disk block
  · left
    rw [Engine.runOn_bind_ok hrun', Engine.runOn_bind_ok hrun]
  · right
    exact ⟨.error e, Engine.runOn_bind_error hrun f, Engine.runOn_bind_error hrun' f⟩

/-- Whatever is done about a sector begins with a selection. -/
theorem merge_located (h : map.Twin map' content) (faithful : caching.Faithful) (disk : ι)
    (sector : Nat) (f : Nat × Nat → Unit → Engine ι BlockMap α) :
    Merge (do
      let place ← (← get).locate sector
      caching.select disk place.1 >>= f place) map map' content := by
  rw [Merge, Engine.runOn_bind_ok (Engine.runOn_get ..),
    Engine.runOn_bind_ok (Engine.runOn_get ..), h.locate_eq]
  apply Merge.bind (merge_result _)
  exact fun place => h.merge_select_bind faithful disk place.1 _

theorem merge_holdsBy (h : map.Twin map' content) (faithful : caching.Faithful) (disk : ι)
    (sector : Nat) : Merge (holdsBy caching disk sector) map map' content :=
  h.merge_located faithful disk sector _

theorem merge_writeSectorBy (h : map.Twin map' content) (faithful : caching.Faithful) (disk : ι)
    (sector : Nat) (bytes : Sector) :
    Merge (writeSectorBy caching disk sector bytes) map map' content :=
  h.merge_located faithful disk sector _

theorem merge_writeSectorsBy (h : map.Twin map' content) (faithful : caching.Faithful) (disk : ι)
    (buffer : ByteArray) (count sector slot : Nat) :
    Merge (writeSectorsBy caching disk buffer count sector slot) map map' content := by
  induction count generalizing sector slot with
  | zero => exact .inr ⟨.ok (), rfl, rfl⟩
  | succ count ih =>
    apply Merge.bind (merge_result _)
    intro bytes
    apply Merge.bind (h.merge_writeSectorBy faithful disk sector bytes)
    exact fun _ => ih _ _

theorem merge_flush (h : map.Twin map' content) (disk : ι) :
    Merge (flush disk) map map' content :=
  .inr ⟨.ok (), h.exact.runOn_flush disk, h.exact'.runOn_flush disk⟩

theorem readSectorsBy (h : map.Twin map' content) (faithful : caching.Faithful) (disk : ι)
    (count sector slot : Nat) (buffer : ByteArray) :
    SameEnd ((BlockMap.readSectorsBy caching disk count sector slot buffer).runOn sole map content)
      ((BlockMap.readSectorsBy caching disk count sector slot buffer).runOn sole map' content) := by
  rw [runOn_readSectorsBy faithful h.exact, runOn_readSectorsBy faithful h.exact']
  exact h.readSectors disk disk count sector slot buffer

end Twin

end BlockMap

end VirtualDisk
