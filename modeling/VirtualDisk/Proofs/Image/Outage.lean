import VirtualDisk.Proofs.Blocks.Stranded
import VirtualDisk.Proofs.Image.Reached

/-!
# Power failures

The power may be lost at any time during a write, after any number of its calls and in the middle of
one. Then the storage is opened as the same disk, and of every sector the image holds what it held
before or, if the sector was to be written, its new bytes. There is one exception: a sector that the
image held before, and whose bytes were just being replaced, has some bytes of both.
-/

namespace VirtualDisk

open Storage

variable {ι : Type}

/-- A request gives a sector these bytes. -/
def Buffer.Gives (buffer : ByteArray) (offset count sector : Nat) (bytes : Sector) : Prop :=
  ∃ k, k < count ∧ sector = offset + k ∧ bytes = slot buffer k

/-- No sector is given two different contents. -/
theorem Buffer.Gives.single {buffer : ByteArray} {offset count : Nat} (sector : Nat)
    (bytes bytes' : Sector) (h : Gives buffer offset count sector bytes)
    (h' : Gives buffer offset count sector bytes') : bytes' = bytes := by
  obtain ⟨k, -, hk, rfl⟩ := h
  obtain ⟨k', -, hk', rfl⟩ := h'
  obtain rfl : k' = k := by omega
  rfl

/-- Any tear leaves an image with old and new sectors. -/
def Storage.Setting.salvaging (disk : ι) (footer : Footer) (header : BlockHeader)
    (allowed : Nat → Sector → Prop) (old : Nat → Option Sector) : Setting ι where
  disk
  mayFail := False
  within _ := True
  permits
    | .write offset data, content =>
      ∀ keep, Salvaged footer header allowed old keep (BlockMap.Stores offset data)
        (content.tear offset data keep)
    | _, _ => True

theorem Terms.of_underway {footer : Footer} {header : BlockHeader} {allowed : Nat → Sector → Prop}
    {old : Nat → Option Sector} (disk : ι)
    (single : ∀ sector bytes bytes', allowed sector bytes → allowed sector bytes' →
      bytes' = bytes) :
    Terms (.salvaging disk footer header allowed old) footer allowed
      (Underway footer header allowed old) where
  length _ := trivial
  read _ _ _ := trivial
  flush _ := trivial
  write _ _ _ _ _ h issued := h.salvaged single issued
  advance _ _ _ _ h hadvance := h.advance hadvance
  consistent _ _ h := h.consistent

namespace Image

/-- The sector as the image itself holds it, if it does. -/
def held? (image : Image ι) (content : Content) (sector : Nat) : Option Sector :=
  image.blocks?.bind fun map => map.held content sector

/-- The position at which a sector is stored in the blocks of an image, if its block is. -/
def dataPlace? (image : Image ι) (sector : Nat) : Option Nat :=
  image.blocks?.bind (·.dataPlace? sector)

variable {S : Setting ι} {image : Image ι} {map : BlockMap} {content : Content}

/-- At the beginning of an operation all sectors are old ones. -/
theorem Synced.underway_of_room (h : Synced image map content)
    (room : content.size + map.header.allocationBytes * map.table.vacant < 2 ^ 63)
    (allowed : Nat → Sector → Prop) :
    Underway image.footer map.header allowed (image.held? content) map content := by
  have hheld : image.held? content = map.held content := by
    funext sector
    rw [held?, h.blocks, Option.bind_some]
  have hstored : map.stored content = map.held content := funext fun sector =>
    (h.consistent.coherent.held_eq h.clean h.consistent.onDisk.fits.sectors_pos sector).symm
  refine ⟨h.consistent, h.isSealed, rfl, room, fun sector => .inl ?_, fun sector => .inl ?_⟩
  · rw [hstored, hheld]
  · rw [hheld]

theorem Synced.underway (h : Synced image map content) (small : content.size < sizeLimit)
    (allowed : Nat → Sector → Prop) :
    Underway image.footer map.header allowed (image.held? content) map content := by
  have hprice := h.consistent.onDisk.fits.allocation_lt
  rw [sizeLimit] at small
  exact h.underway_of_room (by omega) allowed

theorem NewImage.room {disk : ι} {options : CreateOptions} {size : UInt64} {geometry : Geometry}
    {diskType : DiskType} {parent : ParentRecord}
    (h : NewImage disk options size geometry diskType parent image content) :
    content.size + (newHeader options size parent).allocationBytes *
      (BlockTable.blank tablePosition (blockCount size options.blockSize)).vacant < 2 ^ 63 := by
  have hprice := h.onDisk.fits.allocation_lt
  have hsize := h.size_eq
  have hblocks := h.creatable.table_le
  rw [BlockTable.maxBytes] at hblocks
  rw [metadataSectors, tablePosition] at hsize
  omega

/-- A write to the blocks stores all its sectors or fails. However far it gets, there is an image
with old and new sectors. -/
theorem writeBlocks_ensures_laid {header : BlockHeader} {old : Nat → Option Sector}
    {offset count : Nat} {buffer : ByteArray} {allowed : Nat → Sector → Prop}
    (T : Terms S image.footer allowed (Underway image.footer header allowed old))
    (never : ¬ S.mayFail) (hdisk : image.disk = S.disk) (hmap : image.blocks? = some map)
    (h : Underway image.footer header allowed old map content)
    (permitted : ∀ k, k < image.transfer offset count →
      allowed (offset + k) (Buffer.slot buffer k)) :
    (writeBlocks offset count buffer).Ensures S
      (fun _ image' content' => ∃ map', image' = image.withBlocks map' ∧
        Buffer.Laid buffer offset 0 (image.transfer offset count) (map.held content)
          (map'.held content') ∧
        map'.bitmap.dirty = false ∧ Underway image.footer header allowed old map' content')
      (fun _ _ content' => ∃ base, Underway image.footer header allowed old base content')
      image content := by
  refine ensures_writeBlocks hdisk hmap (fun hbuffer => ?_) fun _ _ => ⟨map, h⟩
  refine (BlockMap.writeSectors_ensures_underway T never buffer (image.transfer offset count)
    offset 0 h (fun k hk => lt_capacity_of_lt_transfer h.consistent.onDisk.fits hk)
    (image.transfer_slots offset hbuffer) ?_).mono ?_ fun _ _ _ _ hfailed => hfailed
  · intro k hk
    rw [Nat.zero_add]
    exact permitted k hk
  · rintro _ map₁ content₁ _ (⟨hlaid, h₁⟩ | ⟨base, stranded⟩)
    · refine (BlockMap.flush_ensures T h₁).mono ?_ fun _ _ _ _ hfailed => absurd hfailed.1 never
      rintro _ map₂ content₂ _ ⟨rfl, -, -, hadvance⟩
      have hheld : map₁.cleaned.held content₂ = map₁.held content₁ := funext hadvance.held_eq
      rw [← hheld] at hlaid
      exact ⟨_, rfl, hlaid, rfl, h₁.advance hadvance.of_quiet⟩
    · refine stranded.flush_ensures.mono (fun _ _ _ _ => False.elim) ?_
      rintro _ _ content₂ _ rfl
      exact ⟨base, stranded.underway⟩

theorem writeBlocks_ensures_underway {header : BlockHeader} {old : Nat → Option Sector}
    {offset count : Nat} {buffer : ByteArray} {allowed : Nat → Sector → Prop}
    (T : Terms S image.footer allowed (Underway image.footer header allowed old))
    (never : ¬ S.mayFail) (hdisk : image.disk = S.disk) (hmap : image.blocks? = some map)
    (h : Underway image.footer header allowed old map content)
    (permitted : ∀ k, k < image.transfer offset count →
      allowed (offset + k) (Buffer.slot buffer k)) :
    (writeBlocks offset count buffer).Ensures S
      (fun _ _ content' => ∃ base, Underway image.footer header allowed old base content')
      (fun _ _ content' => ∃ base, Underway image.footer header allowed old base content')
      image content := by
  refine (writeBlocks_ensures_laid T never hdisk hmap h permitted).mono_success ?_
  rintro _ image' content' _ ⟨map', -, -, -, h'⟩
  exact ⟨map', h'⟩

/-- What is salvaged is opened, and holds the sectors that were salvaged. -/
theorem exists_ofDisk_of_salvaged {footer : Footer} {header : BlockHeader}
    {allowed : Nat → Sector → Prop} {old : Nat → Option Sector} {keep : Nat}
    {write? : Option (Nat × ByteArray)}
    (h : Salvaged footer header allowed old keep
      (fun map sector bytes => ∃ position, write? = some (position, bytes.toByteArray) ∧
        map.dataPlace? sector = some position) content)
    (hkind : footer.diskType ≠ .fixed) (disk : ι) (readOnly : Bool) :
    ∃ image, (ofDisk disk readOnly).runOn sole content = (.ok image, content) ∧
      image.footer = footer ∧ OldOrNewOrMixed allowed keep
        (fun sector bytes => ∃ position, write? = some (position, bytes.toByteArray) ∧
          image.dataPlace? sector = some position) old (image.held? content) := by
  obtain ⟨map, rfl, hdisk, hold⟩ := h.image
  refine ⟨_, runOn_ofDisk disk hdisk hkind h.size_lt readOnly, rfl, ?_⟩
  have hheld : (opened disk footer map.header map.table readOnly).held? content =
      map.stored content := by
    funext sector
    rw [held?, blocks?_opened disk hkind]
    rfl
  rw [hheld]
  apply hold.mono
  rintro sector bytes ⟨position, hwrite, hplace⟩
  refine ⟨position, hwrite, ?_⟩
  rw [dataPlace?, blocks?_opened disk hkind]
  exact hplace

/-- Whenever the power is lost during a write, the storage is opened as the same disk. Every
sector outside the request is held as before, and every sector of it as before or with its new
bytes. Only one of them, which was held before and whose own write was cut, may have `keep` new
bytes followed by old ones. -/
theorem write_survives_outage {image : Image ι} {content torn : Content} {offset count : Nat}
    {buffer : ByteArray} {writes keep : Nat} (reached : Reached image content)
    (small : content.size < sizeLimit)
    (cut : ((write offset count buffer).runOn (outage keep) image (content, some writes)).2.1 =
      torn) (readOnly : Bool) :
    ∃ image', (ofDisk image.disk readOnly).runOn sole torn = (.ok image', torn) ∧
      image'.footer = image.footer ∧
      OldOrNewOrMixed (Buffer.Gives buffer offset (image.transfer offset count)) keep
        (fun sector bytes => ∃ position,
          (write offset count buffer).nthWrite? writes image content =
            some (position, bytes.toByteArray) ∧
          image'.dataPlace? sector = some position)
        (image.held? content) (image'.held? torn) := by
  obtain ⟨map, synced⟩ := reached.synced small
  have h := synced.underway small (Buffer.Gives buffer offset (image.transfer offset count))
  have T : Terms (.salvaging image.disk image.footer map.header _ (image.held? content))
      image.footer (Buffer.Gives buffer offset (image.transfer offset count)) _ :=
    .of_underway image.disk Buffer.Gives.single
  have hwrite := write_ensures (Q := fun _ _ content' => ∃ base, Underway image.footer map.header
      (Buffer.Gives buffer offset (image.transfer offset count)) (image.held? content)
      base content')
    synced.blocks (fun _ => ⟨map, h⟩) fun _ =>
      writeBlocks_ensures_underway T id rfl synced.blocks h fun k hk => ⟨k, hk, rfl, rfl⟩
  have hsalvaged : Salvaged image.footer map.header
      (Buffer.Gives buffer offset (image.transfer offset count)) (image.held? content) keep
      (fun map sector bytes => ∃ position,
        (write offset count buffer).nthWrite? writes image content =
          some (position, bytes.toByteArray) ∧
        map.dataPlace? sector = some position) torn := by
    obtain hpost | ⟨position, data, before, -, hpermits, htear, hnth⟩ :=
      hwrite.runOn_outage keep writes (grows_write offset count buffer) fun _ _ => trivial
    · cases hresult :
          (write offset count buffer).runOn (outage keep) image (content, some writes) with
      | mk outcome world =>
        obtain ⟨result, image'⟩ := outcome
        rw [hresult] at hpost cut
        subst cut
        have hend : ∃ base, Underway image.footer map.header
            (Buffer.Gives buffer offset (image.transfer offset count)) (image.held? content) base
            world.1 := by
          cases result with
          | ok truncated => exact hpost
          | error e => exact hpost
        obtain ⟨base, hbase⟩ := hend
        exact hbase.salvaged_untorn keep
    · rw [← cut, htear]
      refine (hpermits keep).mono ?_
      rintro map sector _ ⟨hplace, rfl⟩
      exact ⟨position, hnth, hplace⟩
  exact exists_ofDisk_of_salvaged hsalvaged synced.footer_ne_fixed image.disk readOnly

/-- On a small disk: the fourth write of a request over both blocks is cut after 100 bytes. -/
theorem write_survives_outage_small : ∃ (image image' : Image Unit) (content torn : Content),
    Reached image content ∧ content.size < sizeLimit ∧
      ((write 7 2 (Bytes.replicate 1024 0x5a).toByteArray).runOn (outage 100) image
        (content, some 3)).2.1 = torn ∧
      (ofDisk image.disk false).runOn sole torn = (.ok image', torn) ∧
      image'.footer = image.footer ∧
      OldOrNewOrMixed (Buffer.Gives (Bytes.replicate 1024 0x5a).toByteArray 7 (image.transfer 7 2))
        100
        (fun sector bytes => ∃ position,
          (write 7 2 (Bytes.replicate 1024 0x5a).toByteArray).nthWrite? 3 image content =
            some (position, bytes.toByteArray) ∧
          image'.dataPlace? sector = some position)
        (image.held? content) (image'.held? torn) := by
  obtain ⟨image, content, hrun, hnew⟩ :=
    exists_createDynamic CreateOptions.checkedGeometry_small creatable_small () .empty
  have hsize : content.size < sizeLimit := Nat.lt_trans hnew.size_lt (by decide)
  have reached : Reached image content := .dynamic hrun
  obtain ⟨image', hopen, hfooter, hheld⟩ := write_survives_outage reached hsize rfl false
  exact ⟨image, image', content, _, reached, hsize, rfl, hopen, hfooter, hheld⟩

end Image

end VirtualDisk
