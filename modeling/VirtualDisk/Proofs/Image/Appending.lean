import VirtualDisk.Proofs.Image.FlatArray
import VirtualDisk.Proofs.Image.Outage
import VirtualDisk.Proofs.Image.Untrusted

/-!
# Appending blocks to any storage

Opening an image asks for a footer, and allocation asks for no more than the cookie of one. Where a
storage ends without a footer, its last sector may be data, and it may begin with the cookie. Such a
sector is overwritten by the next block. It is the only one: where the regions of the stored blocks
end before a last sector that looks like a footer, whatever is appended spares them, however the
storage came about and however the operation ends.
-/

namespace VirtualDisk

open Storage

namespace Storage.Content

variable {content content' : Content}

theorem le_front_of_le_size {position : Nat} (h : position + 512 ≤ content.size) :
    position ≤ content.front := by
  have hback := content.size_le_front
  omega

theorem Zeroed.front_eq {position : Nat} (h : content.Zeroed content' position 0)
    (hposition : position ≤ content.size) : content'.front = content.front := by
  have hsize : content'.size = content.size := by
    rw [h.size_eq]
    omega
  have htail : content'.tail = content.tail := by
    refine Bytes.ext fun i hi => ?_
    rw [tail, tail, getElem_read, getElem_read, hsize, h.byte_eq, if_neg (by omega)]
  have hend : content'.EndsLikeFooter ↔ content.EndsLikeFooter := by
    simp only [EndsLikeFooter, hsize, htail]
  rw [front, front, hsize]
  exact if_congr hend rfl rfl

/-- Where the last whole sector ends that nothing appended touches. -/
def base (content : Content) : Nat := content.front / 512 * 512

/-- What ends before the front ends before the base if it consists of whole sectors. -/
theorem le_base {sectors : Nat} (h : sectors * 512 ≤ content.front) :
    sectors * 512 ≤ content.base :=
  Nat.mul_le_mul_right 512 ((Nat.le_div_iff_mul_le (by decide)).mpr h)

end Storage.Content

theorem BlockMap.dataPlace?_congr {map map' : BlockMap} {sector : Nat}
    (header : map'.header = map.header)
    (place : map'.table.place? (sector / map.header.sectorsPerBlock) =
      map.table.place? (sector / map.header.sectorsPerBlock)) :
    map'.dataPlace? sector = map.dataPlace? sector := by
  simp only [dataPlace?, dataPlace, header, place]

/-- The blocks of the first table are where they were, with the bytes that they had. All others lie
behind the end of the first content, and none but they may be cached. -/
structure Spared (header : BlockHeader) (table : BlockTable) (content : Content) (map : BlockMap)
    (content' : Content) : Prop where
  wellSized : WellSized map
  header_eq : map.header = header
  offset_eq : map.table.offset = table.offset
  size_eq : map.table.size = table.size
  kept : ∀ block start, table.place? block = some start → map.table.place? block = some start
  behind : ∀ block start, table.place? block = none → map.table.place? block = some start →
    content.base ≤ start * 512
  cached : ∀ block, map.bitmap.block = some block → table.place? block = none
  front_le : content.base ≤ content'.front
  same : ∀ block start, table.place? block = some start →
    BlockMap.SameRegion header content content' start

/-- The regions of all stored blocks end before a last sector that looks like a footer, and no entry
of the table lies in one of them. -/
structure Storage.Content.Exposes (content : Content) (header : BlockHeader) (table : BlockTable) :
    Prop where
  region_before : ∀ block start, table.place? block = some start →
    start * 512 + header.regionSectors * 512 ≤ content.front
  table_apart : ∀ block start, table.place? block = some start →
    Apart table.offset (table.size * 4) (start * 512) (header.regionSectors * 512)

/-- What is consistent is exposed: no region reaches into the last sector. -/
theorem OnDisk.exposes {footer : Footer} {header : BlockHeader} {table : BlockTable}
    {content : Content} (h : OnDisk footer header table content) :
    content.Exposes header table where
  region_before block start place := Content.le_front_of_le_size (h.region_room block start place)
  table_apart block start place := (h.region_clear block start place).table.symm

namespace Spared

variable {header : BlockHeader} {table : BlockTable} {content current next : Content}
variable {map map' : BlockMap} {n position : Nat}

theorem refl (hsized : WellSized map) (hnone : map.bitmap.block = none) (content : Content) :
    Spared map.header map.table content map content where
  wellSized := hsized
  header_eq := rfl
  offset_eq := rfl
  size_eq := rfl
  kept _ _ place := place
  behind _ _ vacant place := by cases vacant.symm.trans place
  cached _ cached := by cases hnone.symm.trans cached
  front_le := Nat.div_mul_le_self _ _
  same _ _ _ := .refl _ _ _

theorem region_le (exposes : content.Exposes header table) {block start : Nat}
    (place : table.place? block = some start) :
    start * 512 + header.regionSectors * 512 ≤ content.base := by
  have hbefore := exposes.region_before block start place
  rw [← Nat.add_mul] at hbefore ⊢
  exact Content.le_base hbefore

/-- What happens behind the base spares the blocks. -/
theorem beyond (h : Spared header table content map current)
    (exposes : content.Exposes header table) (agree : current.AgreeOn next 0 content.base)
    (front_le : content.base ≤ next.front) : Spared header table content map next :=
  { h with
    front_le := front_le
    same := fun block start place => (h.same block start place).trans <|
      agree.mono (Nat.zero_le _) (by
        rw [Nat.zero_add]
        exact region_le exposes place) }

theorem write (h : Spared header table content map current)
    (exposes : content.Exposes header table) (hn : 512 ≤ n) (hposition : content.base ≤ position)
    (data : Bytes n) : Spared header table content map (current.write position data) := by
  have hsize := current.size_write position data
  exact h.beyond exposes (current.agreeOn_write data (.inl (by omega)))
    (Content.le_front_of_le_size (by omega))

theorem withBitmap (h : Spared header table content map current) {bitmap : BitmapCache}
    (hsized : WellSized { map with bitmap })
    (cached : ∀ block, bitmap.block = some block → table.place? block = none) :
    Spared header table content { map with bitmap } current :=
  { h with wellSized := hsized, cached := cached }

theorem begun (h : Spared header table content map current)
    (exposes : content.Exposes header table) (zeroed : current.Zeroed next current.front n)
    (whole : n = 0 ∨ (current.front + n) % 512 = 0) : Spared header table content map next := by
  have hfront := h.front_le
  have hsize := zeroed.size_eq
  refine h.beyond exposes (fun p _ hp => ?_) ?_
  · rw [zeroed.byte_eq, if_neg (by omega)]
  · rcases Nat.eq_zero_or_pos n with rfl | hn
    · rw [zeroed.front_eq current.front_le]
      exact hfront
    · have haligned := whole.resolve_left (Nat.ne_of_gt hn)
      have hwhole : content.base % 512 = 0 := Nat.mul_mod_left _ _
      exact Content.le_front_of_le_size (by omega)

theorem extended (h : Spared header table content map current)
    (exposes : content.Exposes header table) {start : Nat}
    (extended : Extended map.header current start next) :
    Spared header table content map next := by
  have hfront := h.front_le
  have hle := extended.front_le
  have hsize := extended.size_eq
  exact h.beyond exposes (extended.agree.mono (Nat.le_refl _) (by omega))
    (Content.le_front_of_le_size (by omega))

theorem allocated (h : Spared header table content map current)
    (exposes : content.Exposes header table) {block start : Nat}
    (vacant : table.place? block = none) (hblock : block < map.table.size)
    (recordable : start < 2 ^ 32 - 1) (hstart : content.base ≤ start * 512)
    (room : content.base + 512 ≤ current.size) :
    Spared header table content (map.allocated block start)
      (current.withEntry map.table block start) where
  wellSized := h.wellSized.allocated block start
  header_eq := h.header_eq
  offset_eq := h.offset_eq
  size_eq := (BlockTable.withEntry_size _).trans h.size_eq
  kept other start' place := by
    have hne : other ≠ block := by
      rintro rfl
      cases vacant.symm.trans place
    exact (BlockTable.place?_withEntry_of_ne hne).trans (h.kept other start' place)
  behind other start' vacant' place := by
    obtain ⟨-, rfl⟩ | ⟨-, hbefore⟩ := BlockTable.of_place?_withEntry hblock recordable place
    · exact hstart
    · exact h.behind other start' vacant' hbefore
  cached := h.cached
  front_le := by
    have hsize := current.size_write (map.table.offset + block * 4)
      (Bytes.ofNumber 4 (UInt32.ofNat start).toNat)
    exact Content.le_front_of_le_size (by rw [Content.withEntry]; omega)
  same other start' place := by
    have hapart := exposes.table_apart other start' place
    rw [← h.offset_eq, ← h.size_eq] at hapart
    exact (h.same other start' place).trans (current.agreeOn_withEntry hblock hapart)

/-- No step of an operation that wants other blocks only does anything to the blocks. -/
theorem effect (h : Spared header table content map current)
    (exposes : content.Exposes header table) (small : next.size < sizeLimit)
    (effect : Effect (fun block => table.place? block = none) map current map' next) :
    Spared header table content map' next := by
  have hsized := h.wellSized.effect effect
  cases effect with
  | @stored block start cached place =>
    have hbytes : 512 ≤ map.bitmap.bytes.size := by
      have hpos := BlockHeader.bitmapSectors_pos h.wellSized.sectors_pos
      rw [h.wellSized.size_bytes]
      omega
    refine (h.withBitmap hsized h.cached).write exposes hbytes ?_ _
    exact h.behind block start (h.cached block cached) place
  | @loaded block sought inside =>
    refine h.withBitmap hsized fun other hother => ?_
    obtain rfl := Option.some.inj hother
    cases place : table.place? block with
    | none => rfl
    | some start => exact place.symm.trans (sought start (h.kept block start place))
  | begun missing zeroed whole => exact h.begun exposes zeroed whole
  | extended missing extended => exact h.extended exposes extended
  | @allocated block start content' missing extended =>
    have hfront := h.front_le
    have hle := extended.front_le
    have hsize := extended.size_eq
    have hsize' := content'.size_write (map.table.offset + block * 4)
      (Bytes.ofNumber 4 (UInt32.ofNat start).toNat)
    refine (h.extended exposes extended).allocated exposes missing.wanted missing.inside ?_
      (by omega) (by omega)
    rw [Content.withEntry, sizeLimit] at small
    omega
  | @written block start i bitmap bytes asked cached place inside hasSet =>
    have hbehind := h.behind block start asked place
    have hplace := (map.dataPlace_in_region start inside (Nat.le_refl 512)).1
    refine (h.withBitmap hsized fun other hother => ?_).write exposes (Nat.le_refl 512)
      (Nat.le_trans hbehind hplace) bytes
    rw [hasSet.block] at hother
    exact h.cached other hother
  | @stray block start i content' bitmap bytes missing extended far inside hasSet =>
    have hplace := (map.dataPlace_in_region start inside (Nat.le_refl 512)).1
    have hsize :=
      (content'.withEntry map.table block start).size_write (map.dataPlace start i) bytes
    rw [sizeLimit] at small
    omega

theorem held_eq (h : Spared header table content map current) {sector : Nat}
    (stored : ((BlockMap.fresh header table).dataPlace? sector).isSome) :
    map.dataPlace? sector = (BlockMap.fresh header table).dataPlace? sector ∧
      map.held current sector = (BlockMap.fresh header table).held content sector := by
  obtain ⟨position, hposition⟩ := Option.isSome_iff_exists.mp stored
  obtain ⟨start, place, -⟩ := Option.map_eq_some_iff.mp hposition
  have place' := h.kept _ _ place
  have hpos : 0 < header.sectorsPerBlock := by
    rw [← h.header_eq]
    exact h.wellSized.sectors_pos
  constructor
  · exact BlockMap.dataPlace?_congr h.header_eq
      (place'.trans place.symm)
  · have huncached : map.bitmap.block ≠ some (sector / map.header.sectorsPerBlock) := by
      intro cached
      rw [h.header_eq] at cached
      cases (h.cached _ cached).symm.trans place
    have hheld : map.held current sector = map.stored current sector := by
      simp only [BlockMap.held, BlockMap.stored, BlockMap.heldBit_of_ne huncached]
    rw [hheld]
    exact BlockMap.stored_congr hpos h.header_eq
      (place'.trans place.symm) fun start' hstart' => h.same _ start' hstart'

end Spared

/-- On a storage that may fail, and that does not grow too large, the blocks stay spared. -/
theorem spared_regime {ι : Type} (disk : ι) {header : BlockHeader} {table : BlockTable}
    {content : Content} (exposes : content.Exposes header table) :
    Regime (Setting.free disk True fun content => content.size < sizeLimit)
      (fun block => table.place? block = none) (Spared header table content) where
  small current hw := Nat.lt_trans hw (by decide)
  wellSized _ _ h := h.wellSized
  ask _ _ _ _ _ _ _ := trivial
  effect _ _ _ _ h _ hw' effect := h.effect exposes hw' effect

namespace Image

variable {ι : Type}

theorem OpenedAs.eq_fresh {disk : ι} {readOnly : Bool} {image : Image ι} {content : Content}
    {map : BlockMap} (h : OpenedAs disk readOnly content image) (hmap : image.blocks? = some map) :
    image.disk = disk ∧ map = .fresh map.header map.table := by
  cases h with
  | fixed found kind room => cases hmap
  | blocks found kind legible limits =>
    rw [blocks?_opened disk kind, Option.some.injEq] at hmap
    subst hmap
    exact ⟨rfl, rfl⟩

/-- A write to blocks that are not allocated, on an image that was just opened, leaves all sectors
of allocated blocks where they are and as they are, whatever the storage holds besides, whichever
calls fail and whether or not the write succeeds, if all regions end before a last sector that looks
like a footer. -/
theorem appending_spares_blocks {disk : ι} {readOnly : Bool} {image image' : Image ι}
    {map : BlockMap} {content content' : Content} {offset count : Nat} {buffer : ByteArray}
    {plan plan' : List (Option Error)} {result : Except Error Nat}
    (opened : (ofDisk disk readOnly).runOn sole content = (.ok image, content))
    (blocks : image.blocks? = some map) (exposes : content.Exposes map.header map.table)
    (vacant : ∀ k, k < image.transfer offset count → image.dataPlace? (offset + k) = none)
    (run : (writeBlocks offset count buffer).runOn (Server.flaky sole) image (content, plan) =
      ((result, image'), content', plan'))
    (small : content'.size < sizeLimit) (sector : Nat)
    (stored : (image.dataPlace? sector).isSome) :
    image'.dataPlace? sector = image.dataPlace? sector ∧
      image'.held? content' sector = image.held? content sector := by
  have grows : (writeBlocks offset count buffer : Engine ι (Image ι) Nat).Grows :=
    grows_writeBlocks offset count buffer
  have hle := (grows image).size_le_run neverShrinks_sole.flaky (content, plan)
  change content.size ≤
    ((writeBlocks offset count buffer).runOn (Server.flaky sole) image (content, plan)).2.1.size
    at hle
  rw [run] at hle
  have hsize : content.size < 2 ^ 64 := Nat.lt_of_le_of_lt hle (Nat.lt_trans small (by decide))
  obtain ⟨-, hopened⟩ := openedAs_of_ofDisk hsize opened
  obtain ⟨hsized, hcovered⟩ := hopened.covering map blocks
  obtain ⟨rfl, hfresh⟩ := hopened.eq_fresh blocks
  have hspared : Spared map.header map.table content map content := by
    apply Spared.refl hsized
    rw [hfresh]
    rfl
  have asked : image.Wants (fun block => map.table.place? block = none) map offset count := by
    intro k hk
    have hnone := vacant k hk
    rw [dataPlace?, blocks, Option.bind_some, BlockMap.dataPlace?, Option.map_eq_none_iff] at hnone
    exact hnone
  have hpost := (writeBlocks_governed (spared_regime image.disk exposes) rfl blocks hcovered hspared
    asked).of_flaky_run trivial grows (fun _ hsmall => hsmall) run small
  have hunder : Under (Spared map.header map.table content) image image' content' := by
    cases result with
    | ok truncated => exact hpost
    | error e => exact hpost.1
  obtain ⟨map', rfl, hspared'⟩ := hunder
  rw [dataPlace?, blocks, Option.bind_some, hfresh] at stored
  simp only [dataPlace?, held?, blocks?_withBlocks blocks, blocks, Option.bind_some]
  rw [hfresh]
  exact hspared'.held_eq stored

/-- Where a block is stored depends on the writes to it only. -/
theorem place?_of_writeBlocks {image : Image ι} {map map' : BlockMap} {content content' : Content}
    {offset count : Nat} {buffer : ByteArray} {result : Except Error Nat}
    (covering : image.Covering) (blocks : image.blocks? = some map)
    (run : (writeBlocks offset count buffer).runOn sole image content =
      ((result, image.withBlocks map'), content'))
    (small : content'.size < 2 ^ 63) {block : Nat}
    (unasked : ∀ k, k < image.transfer offset count →
      (offset + k) / map.header.sectorsPerBlock ≠ block) :
    map'.table.place? block = map.table.place? block := by
  have R : Regime (short image.disk) (· ≠ block) fun map' _ =>
      WellSized map' ∧ map'.table.place? block = map.table.place? block := by
    constructor
    · exact fun _ hw => hw
    · exact fun _ _ h => h.1
    · exact fun _ _ _ _ _ _ _ => trivial
    · intro map₁ content₁ map₂ content₂ h _ _ effect
      exact ⟨h.1.effect effect, (effect.place?_eq fun hne => hne rfl).trans h.2⟩
  obtain ⟨hsized, hcovered⟩ := covering map blocks
  have hpost := (writeBlocks_governed R rfl blocks hcovered ⟨hsized, rfl⟩ unasked).runOn_sole
    (grows_writeBlocks offset count buffer) (by
      rw [run]
      exact fun other hle => Nat.lt_of_le_of_lt hle small)
  rw [run] at hpost
  have hunder : Under (fun map' _ => WellSized map' ∧
      map'.table.place? block = map.table.place? block) image (image.withBlocks map') content' := by
    cases result with
    | ok truncated => exact hpost
    | error e => exact hpost.1
  obtain ⟨map'', heq, -, hplace⟩ := hunder
  have hmap : some map' = some map'' := by
    rw [← blocks?_withBlocks blocks, heq, blocks?_withBlocks blocks]
  rw [Option.some.inj hmap]
  exact hplace

theorem exists_writeBlocks {image : Image ι} {map : BlockMap} {content : Content}
    (blocks : image.blocks? = some map) (h : SealedWithRoom image.footer map content) (offset : Nat)
    {count : Nat} {buffer : ByteArray} (hbuffer : Buffer.Holds buffer.size count) :
    ∃ truncated map' content', (writeBlocks offset count buffer).runOn sole image content =
        ((.ok truncated, image.withBlocks map'), content') ∧
      Buffer.Laid buffer offset 0 (image.transfer offset count) (map.held content)
        (map'.held content') ∧
      Advance image.footer (fun _ _ => True) map content map' content' := by
  have T : Terms (.free image.disk False fun _ => True) image.footer (fun _ _ => True)
      (SealedWithRoom image.footer) := .of_sealedWithRoom fun _ _ => trivial
  obtain ⟨truncated, image', content', hrun, map', rfl, -, hlaid, -, hadvance⟩ :=
    (writeBlocks_ensures T SealedWithRoom.spacious rfl blocks h fun _ _ _ => trivial).runOn_sole_ok
      (grows_writeBlocks offset count buffer) (fun _ _ => trivial)
      fun _ _ _ hfailed => hfailed.1 hbuffer
  exact ⟨truncated, map', content', hrun, hlaid, hadvance⟩

/-- A small disk with the first of its two blocks allocated. -/
structure HalfWritten (footer : Footer) (map : BlockMap) (content : Content) : Prop where
  kind : footer.diskType ≠ .fixed
  totalSectors_eq : footer.geometry.totalSectors = 16
  sectors_eq : map.header.sectorsPerBlock = 8
  first : (map.table.place? 0).isSome
  second : map.table.place? 1 = none
  sealedWithRoom : SealedWithRoom footer map content
  room : content.size + map.header.allocationBytes * map.table.vacant < sizeLimit

namespace HalfWritten

variable {footer : Footer} {map map' : BlockMap} {content content' : Content}

theorem sealedWithRoom_fresh (h : HalfWritten footer map content) :
    SealedWithRoom footer (.fresh map.header map.table) content :=
  have consistent := h.sealedWithRoom.consistent
  ⟨consistent.onDisk.consistent_fresh consistent.aligned, h.sealedWithRoom.isSealed,
    h.sealedWithRoom.size_le⟩

theorem size_lt_of_advance (h : HalfWritten footer map content) {allowed : Nat → Sector → Prop}
    (hadvance : Advance footer allowed (.fresh map.header map.table) content map' content') :
    content'.size < sizeLimit := by
  obtain ⟨-, hsize⟩ := hadvance.balance h.sealedWithRoom.isSealed
  have hroom := h.room
  change content'.size + map.header.allocationBytes * map'.table.vacant =
    content.size + map.header.allocationBytes * map.table.vacant at hsize
  omega

end HalfWritten

theorem exists_halfWritten : ∃ (image : Image Unit) (content₀ content : Content) (map : BlockMap)
    (truncated : Nat),
    (createDynamic () .small).runOn sole .empty = (.ok image, content₀) ∧
      content₀.size < sizeLimit ∧
      (writeBlocks 0 1 (Bytes.replicate 512 0x5a).toByteArray).runOn sole image content₀ =
        ((.ok truncated, image.withBlocks map), content) ∧
      HalfWritten image.footer map content := by
  obtain ⟨image, content₀, created, hnew⟩ :=
    exists_createDynamic CreateOptions.checkedGeometry_small creatable_small () .empty
  have hkind := hnew.footer_ne_fixed (by decide)
  have hblocks := hnew.blocks?_eq (by decide)
  have hsealedRoom := hnew.sealedWithRoom (by decide +kernel)
  have hholds : Buffer.Holds (Bytes.replicate 512 0x5a).toByteArray.size 1 :=
    Buffer.holds_sector _
  have T : Terms (.free () False fun _ => True) image.footer (fun _ _ => True)
      (SealedWithRoom image.footer) := .of_sealedWithRoom fun _ _ => trivial
  obtain ⟨truncated, map, content, hwrite, hlaid, hadvance⟩ :=
    exists_writeBlocks hblocks hsealedRoom 0 hholds
  have hsealedRoom' := T.advance _ _ _ _ hsealedRoom hadvance
  have hsectors : map.header.sectorsPerBlock = 8 := by
    rw [hadvance.header]
    rfl
  have htotal : image.footer.geometry.totalSectors = 16 := by
    rw [hnew.readAs.geometry]
    rfl
  have htransfer : image.transfer 0 1 = 1 := by
    change min 1 (image.footer.geometry.totalSectors - 0) = 1
    rw [htotal]
    rfl
  have hsize₀ : content₀.size < sizeLimit := Nat.lt_trans hnew.size_lt (by decide)
  refine ⟨image, content₀, content, map, truncated, created, hsize₀, hwrite, hkind, htotal,
    hsectors, ?_, ?_, hsealedRoom', ?_⟩
  · have hheld := hlaid.inside 0 (by omega)
    obtain ⟨hbit, -⟩ := BlockMap.present_eq_some.mp hheld
    rw [hsectors] at hbit
    exact hadvance.consistent.coherent.isSome_place_of_heldBit (by omega) hbit
  · have hcovering : image.Covering := by
      intro map' hmap'
      rw [hblocks, Option.some.injEq] at hmap'
      subst hmap'
      have hfits := hsealedRoom.consistent.onDisk.fits
      exact ⟨(hsealedRoom.consistent.onDisk.legible hsealedRoom.size_lt).wellSized
        ⟨hfits.bytes_le, hfits.covered⟩, hfits.covered⟩
    have hsmall : content.size < 2 ^ 63 := by
      have hle := hsealedRoom'.size_le
      rw [sizeLimit] at hle
      omega
    rw [place?_of_writeBlocks hcovering hblocks hwrite hsmall fun k hk => ?_]
    · exact BlockTable.place?_blank _ _ _
    · obtain rfl : k = 0 := by omega
      decide
  · rw [hadvance.header, (hadvance.balance hnew.isSealed).2, hnew.size_eq]
    decide +kernel

/-- On a small disk: the first block is written, the disk is opened again, and the second block is
written. -/
theorem appending_spares_blocks_small : ∃ (image image' : Image Unit) (map : BlockMap)
    (content content' : Content) (result : Except Error Nat) (plan' : List (Option Error)),
    (ofDisk () false).runOn sole content = (.ok image, content) ∧
      image.blocks? = some map ∧ content.Exposes map.header map.table ∧
      (∀ k, k < image.transfer 8 1 → image.dataPlace? (8 + k) = none) ∧
      (writeBlocks 8 1 (Bytes.replicate 512 0x5a).toByteArray).runOn (Server.flaky sole) image
        (content, []) = ((result, image'), content', plan') ∧
      content'.size < sizeLimit ∧ (image.dataPlace? 0).isSome ∧
      image'.dataPlace? 0 = image.dataPlace? 0 ∧
      image'.held? content' 0 = image.held? content 0 := by
  obtain ⟨⟨_, footer, _, _⟩, _, content, map, _, -, -, -, h⟩ := exists_halfWritten
  have hdisk := h.sealedWithRoom.consistent.onDisk
  have hholds : Buffer.Holds (Bytes.replicate 512 0x5a).toByteArray.size 1 :=
    Buffer.holds_sector _
  have hblocks := blocks?_opened () h.kind map.header map.table false
  have hopen := runOn_ofDisk () hdisk h.kind h.sealedWithRoom_fresh.size_lt false
  obtain ⟨truncated, map', content', hwrite, -, hadvance⟩ :=
    exists_writeBlocks hblocks h.sealedWithRoom_fresh 8 hholds
  have hrun := Engine.runOn_flaky_nil sole (writeBlocks 8 1 (Bytes.replicate 512 0x5a).toByteArray)
    (opened () footer map.header map.table false) content
  rw [hwrite] at hrun
  have hsmall := h.size_lt_of_advance hadvance
  have hvacant : ∀ k, k < (opened () footer map.header map.table false).transfer 8 1 →
      (opened () footer map.header map.table false).dataPlace? (8 + k) = none := by
    intro k hk
    obtain rfl : k = 0 := by
      have hle : (opened () footer map.header map.table false).transfer 8 1 ≤ 1 :=
        Nat.min_le_left _ _
      omega
    rw [dataPlace?, hblocks, Option.bind_some, BlockMap.dataPlace?, Option.map_eq_none_iff]
    change map.table.place? (8 / map.header.sectorsPerBlock) = none
    rw [h.sectors_eq]
    exact h.second
  have hstored : ((opened () footer map.header map.table false).dataPlace? 0).isSome := by
    rw [dataPlace?, hblocks, Option.bind_some, BlockMap.dataPlace?, Option.isSome_map, Nat.zero_div]
    exact h.first
  obtain ⟨hplace, hheld⟩ :=
    appending_spares_blocks hopen hblocks hdisk.exposes hvacant hrun hsmall 0 hstored
  exact ⟨_, _, _, content, content', _, _, hopen, hblocks, hdisk.exposes, hvacant, hrun, hsmall,
    hstored, hplace, hheld⟩

end Image

end VirtualDisk
