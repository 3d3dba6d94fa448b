import VirtualDisk.Image.Create
import VirtualDisk.Proofs.Storage.Servers
import VirtualDisk.Proofs.Storage.Buffers
import VirtualDisk.Proofs.Format.BlockHeader
import VirtualDisk.Proofs.Image.Opening

/-!
# Creating images with blocks

Whatever a storage held before, a new image with blocks on it is sealed, holds no sector, and is
opened at once. `Creatable` says for which options there is one.
-/

namespace VirtualDisk

open Storage

/-- Blocks of a disk. -/
def blockCount (size : UInt64) (blockSize : UInt32) : Nat :=
  (size.toNat + blockSize.toNat - 1) / blockSize.toNat

/-- Sizes of a disk and its blocks for which a new image can be made. -/
structure Creatable (size : UInt64) (blockSize : UInt32) (geometry : Geometry) : Prop where
  size_ne_zero : size.toNat ≠ 0
  size_aligned : size.toNat % 512 = 0
  blockSize_ne_zero : blockSize.toNat ≠ 0
  blockSize_aligned : blockSize.toNat % 512 = 0
  table_le : blockCount size blockSize * 4 ≤ BlockTable.maxBytes
  covered : geometry.totalSectors ≤ blockCount size blockSize * (blockSize.toNat / 512)

/-- What is asked of the sizes of a new image with blocks, in the order of the checks. The size of
a parent is looked at last, where the footer is built. -/
def blockDemands (size : UInt64) (blockSize : UInt32) : List Demand :=
  [⟨WholeSectors blockSize.toNat, .invalidOption .blockSize⟩,
    ⟨blockCount size blockSize < 2 ^ 32, .invalidOption .tooManyBlocks⟩,
    ⟨WholeSectors size.toNat, .corrupt .currentSize⟩]

/-- Sizes for which the table of a new image is loaded and covers the disk. -/
structure Loadable (size : UInt64) (blockSize : UInt32) (geometry : Geometry) : Prop where
  table_le : blockCount size blockSize * 4 ≤ BlockTable.maxBytes
  covered : geometry.totalSectors ≤ blockCount size blockSize * (blockSize.toNat / 512)

theorem Creatable.loadable {size : UInt64} {blockSize : UInt32} {geometry : Geometry}
    (h : Creatable size blockSize geometry) : Loadable size blockSize geometry :=
  ⟨h.table_le, h.covered⟩

namespace CreateOptions

variable {options : CreateOptions} {geometry : Geometry}

/-- What is asked of the size and the geometry of a new image. -/
def geometryDemands (options : CreateOptions) : List Demand :=
  let geometry := options.geometry?.getD (Geometry.ofSize options.size.toNat)
  [⟨WholeSectors options.size.toNat, .invalidOption .size⟩,
    ⟨geometry.totalSectors ≠ 0, .invalidOption .noSectors⟩,
    ⟨geometry.totalSectors ≤ options.size.toNat / 512, .invalidOption .geometryTooLarge⟩]

theorem checkedGeometry_answers
    (hgeometry : options.geometry?.getD (Geometry.ofSize options.size.toNat) = geometry) :
    Answers options.geometryDemands (geometry = ·) options.checkedGeometry := by
  subst hgeometry
  unfold checkedGeometry
  refine .guard not_wholeSectors_iff fun _ => ?_
  refine .guard Decidable.not_not.symm fun _ => ?_
  refine .guard Nat.not_le.symm fun _ => ?_
  exact .nil rfl fun _ h => h

/-- The geometry that is asked for, or is derived from the size, fits into whole sectors. -/
theorem of_checkedGeometry (h : options.checkedGeometry = .ok geometry) :
    WholeSectors options.size.toNat ∧ geometry.totalSectors ≤ options.size.toNat / 512 ∧
      options.geometry?.getD (Geometry.ofSize options.size.toNat) = geometry := by
  obtain ⟨hmet, rfl⟩ := ((checkedGeometry_answers rfl).ok_iff geometry).mp h
  simp only [geometryDemands, List.forall_mem_cons] at hmet
  obtain ⟨hsize, -, hle, -⟩ := hmet
  exact ⟨hsize, hle, rfl⟩

end CreateOptions

/-- Why there is no new image, and what became of the content: a request failed, or the options were
refused before anything was changed, or what was written does not fit. -/
def Storage.Setting.Forgoes {ι : Type} (S : Setting ι) (possible fits : Prop)
    (content content' : Content) : Prop :=
  S.mayFail ∨ content' = content ∧ ¬ possible ∨ ¬ fits

theorem Storage.Setting.Forgoes.mayFail {ι : Type} {S : Setting ι} {possible fits : Prop}
    {content content' : Content} (h : S.Forgoes possible fits content content')
    (hpossible : possible) (hfits : fits) : S.mayFail := by
  obtain hm | ⟨-, hnot⟩ | hnot := h
  · exact hm
  · exact absurd hpossible hnot
  · exact absurd hfits hnot

/-- Sectors before the blocks of a new image: footer copy, header and table. -/
def metadataSectors (blocks : Nat) : Nat := (Image.tablePosition + blocks * 4 + 511) / 512

/-- A new storage with an image that has no block allocated. -/
structure Blank (footer : Footer) (header : BlockHeader) (blocks : Nat) (content : Content) :
    Prop where
  legible : Legible footer header (.blank Image.tablePosition blocks) content
  footer_copy : Footer.parse (content.read 0 512) = .ok footer
  position_eq : footer.dataOffset.toNat = 512
  size_eq : content.size = metadataSectors blocks * 512 + 512
  isSealed : Sealed footer content
  sectors_pos : 0 < header.sectorsPerBlock
  /-- The table fills the sector before the footer. -/
  padding : ∀ p, content.size ≤ p + 1024 → p + 512 < content.size → content.byte p = 0xff

variable {footer : Footer} {header : BlockHeader} {content : Content} {blocks : Nat}

theorem BlockTable.size_blank (offset count : Nat) : (blank offset count).size = count :=
  Array.size_replicate

theorem BlockTable.place?_blank (offset count block : Nat) :
    (blank offset count).place? block = none := by
  simp only [place?, blank, Array.getElem?_replicate]
  split
  · next entry hentry =>
    split at hentry
    · rw [if_pos (Option.some.inj hentry).symm]
    · cases hentry
  · rfl

theorem BlockTable.vacant_blank (offset count : Nat) : (blank offset count).vacant = count :=
  Array.count_replicate_self

theorem Blank.onDisk (h : Blank footer header blocks content)
    (limits : Limits footer header (.blank Image.tablePosition blocks)) :
    OnDisk footer header (.blank Image.tablePosition blocks) content := by
  have hsize := h.size_eq
  have hposition := h.position_eq
  have htable : (BlockTable.blank Image.tablePosition blocks).offset = 1536 := rfl
  have hcount := BlockTable.size_blank Image.tablePosition blocks
  have hlarge := h.legible.size_lt
  have hend : 1536 + blocks * 4 + 512 ≤ content.size := by
    rw [hsize, metadataSectors, Image.tablePosition]
    omega
  refine {
    fits := {
      position_aligned := h.legible.position_aligned
      position_fits := by omega
      sectors_pos := h.sectors_pos
      offset_eq := h.legible.offset_eq
      size_eq := h.legible.size_eq
      size_le := h.legible.size_le
      bytes_le := limits.bytes_le
      table_fits := by omega
      bitmap_le := h.legible.bitmap_le
      covered := limits.covered }
    footer_copy := h.footer_copy
    header_bytes := h.legible.header_bytes
    recorded := h.legible.recorded
    copy_room := by omega
    header_room := by omega
    table_room := by omega
    table_after := by omega
    table_apart := .inr (by omega)
    region_clear := ?_
    region_room := ?_
    regions_apart := ?_
    tail := .inl h.isSealed }
  · intro block start place
    rw [BlockTable.place?_blank] at place
    cases place
  · intro block start place
    rw [BlockTable.place?_blank] at place
    cases place
  · intro block other start start' _ place
    rw [BlockTable.place?_blank] at place
    cases place

theorem BlockMap.stored_blank (header : BlockHeader) (offset count : Nat) (content : Content)
    (sector : Nat) : (fresh header (.blank offset count)).stored content sector = none := by
  have hbit : (fresh header (.blank offset count)).storedBit content
      (sector / header.sectorsPerBlock) (sector % header.sectorsPerBlock) = false :=
    storedBit_of_vacant (BlockTable.place?_blank _ _ _) _
  change present _ _ = none
  rw [show (fresh header (.blank offset count)).header = header from rfl, hbit]
  rfl

/-- What the writes of a new image leave of a content. -/
def Storage.Content.formatted (content : Content) (footer : Sector) (header : Bytes 1024)
    (tableSize : Nat) : Content :=
  ((((content.resize 0).write 0 footer).write Image.headerPosition header).write
    Image.tablePosition (Bytes.replicate tableSize 0xff)).write
      (Image.tablePosition + tableSize) footer

section Formatted

variable {raw : Sector} {bytes : Bytes 1024} {tableSize : Nat}

theorem Storage.Content.size_formatted :
    (content.formatted raw bytes tableSize).size = 1536 + tableSize + 512 := by
  simp only [formatted, size_write, size_resize, Image.headerPosition, Image.tablePosition]
  omega

theorem Storage.Content.read_formatted_copy :
    (content.formatted raw bytes tableSize).read 0 512 = raw := by
  rw [formatted, Image.headerPosition, Image.tablePosition,
    read_write_of_disjoint _ _ (.inl (by omega)),
    read_write_of_disjoint _ _ (.inl (by omega)), read_write_of_disjoint _ _ (.inl (by omega)),
    read_write_same]

theorem Storage.Content.read_formatted_header :
    (content.formatted raw bytes tableSize).read 512 1024 = bytes := by
  rw [formatted, Image.headerPosition, Image.tablePosition,
    read_write_of_disjoint _ _ (.inl (by omega)),
    read_write_of_disjoint _ _ (.inl (by omega)), read_write_same]

theorem Storage.Content.tail_formatted : (content.formatted raw bytes tableSize).tail = raw := by
  rw [tail, size_formatted, Nat.add_sub_cancel, formatted]
  exact read_write_same _ _ _

theorem Storage.Content.byte_formatted_table {p : Nat} (hp : 1536 ≤ p)
    (hp' : p < 1536 + tableSize) : (content.formatted raw bytes tableSize).byte p = 0xff := by
  rw [formatted, Image.tablePosition, byte_write, dif_neg (by omega), byte_write,
    dif_pos (by omega), Bytes.getElem_replicate]

theorem BlockTable.recorded_formatted (h : blocks * 4 ≤ tableSize) :
    (blank 1536 blocks).Recorded (content.formatted raw bytes tableSize) := by
  intro block hblock
  rw [size_blank] at hblock
  have hones : ∀ i (hi : i < 4),
      ((content.formatted raw bytes tableSize).read (1536 + block * 4) 4)[i] = 0xff := by
    intro i hi
    rw [Content.getElem_read, Content.byte_formatted_table (by omega) (by omega)]
  have hnumber : ((content.formatted raw bytes tableSize).read (1536 + block * 4) 4).number 0 4
      (by decide) = (Bytes.replicate 4 0xff).number 0 4 (by decide) := by
    refine Bytes.number_congr 4 _ _ fun i hi => ?_
    rw [hones _ (by omega), Bytes.getElem_replicate]
  have hentry : (blank 1536 blocks).storedEntry (content.formatted raw bytes tableSize) block =
      unallocated := by
    rw [storedEntry]
    change UInt32.ofNat (Bytes.number ((content.formatted raw bytes tableSize).read
      (1536 + block * 4) 4) 0 4 _) = unallocated
    rw [hnumber]
    decide +kernel
  rw [hentry]
  simp only [blank, Array.getElem?_replicate, if_pos hblock]

end Formatted

namespace Image

variable {ι : Type} {S : Setting ι}

/-- The header of a new image. -/
def newHeader (options : CreateOptions) (size : UInt64) (parent : ParentRecord) : BlockHeader where
  tableOffset := UInt64.ofNat tablePosition
  maxTableEntries := UInt32.ofNat (blockCount size options.blockSize)
  blockSize := options.blockSize
  parentUniqueId := parent.uniqueId
  parentTimestamp := parent.timestamp

theorem blank_formatted (content : Content) {options : CreateOptions} {size : UInt64}
    {geometry : Geometry} {diskType : DiskType} (parent : ParentRecord) (hzero : size.toNat ≠ 0)
    (hblock : ¬ (options.blockSize.toNat = 0 ∨ options.blockSize.toNat % 512 ≠ 0))
    (hcount : blockCount size options.blockSize < 2 ^ 32)
    (hparse : Footer.parse footer.raw = .ok footer)
    (readAs : footer.ReadAs
      (options.footerFields (UInt64.ofNat headerPosition) size geometry diskType))
    {tableSize : Nat}
    (htable : tableSize = (blockCount size options.blockSize * 4 + 511) / 512 * 512) :
    Blank footer (newHeader options size parent) (blockCount size options.blockSize)
      (content.formatted footer.raw (newHeader options size parent).toBytes tableSize) := by
  obtain ⟨hblock₀, hblock₁⟩ := not_or.mp hblock
  have haligned := Decidable.not_not.mp hblock₁
  have hpos : 0 < blockCount size options.blockSize := by
    refine Nat.div_pos ?_ (Nat.pos_of_ne_zero hblock₀)
    omega
  have hentries : (newHeader options size parent).maxTableEntries.toNat =
      blockCount size options.blockSize := by
    rw [newHeader, UInt32.toNat_ofNat', Nat.mod_eq_of_lt hcount]
  have hoffset : (newHeader options size parent).tableOffset.toNat = 1536 := rfl
  have hposition : footer.dataOffset.toNat = 512 := by
    rw [readAs.dataOffset]
    rfl
  have hsectors := (newHeader options size parent).sectorsPerBlock_lt
  have hbitmap : (newHeader options size parent).bitmapSectors * 512 ≤ BitmapCache.maxBytes := by
    unfold BlockHeader.bitmapSectors BitmapCache.maxBytes
    omega
  have hsize :
      (content.formatted footer.raw (newHeader options size parent).toBytes tableSize).size =
        1536 + tableSize + 512 := Content.size_formatted
  refine {
    legible := {
      size_lt := by omega
      position_aligned := by omega
      header_room := by omega
      header_bytes := ?_
      offset_eq := rfl
      size_eq := ?_
      size_le := ?_
      recorded := BlockTable.recorded_formatted (by omega)
      table_room := ?_
      bitmap_le := hbitmap }
    footer_copy := ?_
    position_eq := hposition
    size_eq := ?_
    isSealed := Content.tail_formatted
    sectors_pos := ?_
    padding := fun p hp hp' => Content.byte_formatted_table (by omega) (by omega) }
  · rw [hposition, Content.read_formatted_header]
    refine BlockHeader.parse_toBytes (by omega) ?_ ⟨hblock₀, haligned⟩
    rw [hentries]
    exact Nat.ne_of_gt hpos
  · rw [BlockTable.size_blank, readAs.currentSize]
    rfl
  · exact Nat.le_of_eq ((BlockTable.size_blank _ _).trans hentries.symm)
  · change 1536 + _ * 4 ≤ _
    rw [BlockTable.size_blank]
    omega
  · rw [Content.read_formatted_copy]
    exact hparse
  · rw [hsize, htable, metadataSectors, tablePosition]
    omega
  · change 0 < options.blockSize.toNat / 512
    omega

/-- The limits of a new table in terms of the sizes that were asked for. -/
theorem limits_iff {options : CreateOptions} {size : UInt64} {geometry : Geometry}
    {diskType : DiskType} {parent : ParentRecord}
    (readAs : footer.ReadAs
      (options.footerFields (UInt64.ofNat headerPosition) size geometry diskType)) :
    Limits footer (newHeader options size parent)
        (.blank tablePosition (blockCount size options.blockSize)) ↔
      Loadable size options.blockSize geometry := by
  have hgeometry : footer.geometry = geometry := readAs.geometry
  have hcount := BlockTable.size_blank tablePosition (blockCount size options.blockSize)
  constructor
  · rintro ⟨hbytes, hcovered⟩
    rw [hcount] at hbytes hcovered
    rw [hgeometry] at hcovered
    exact ⟨hbytes, hcovered⟩
  · rintro ⟨hbytes, hcovered⟩
    constructor
    · rw [hcount]
      exact hbytes
    · rw [hcount, hgeometry]
      exact hcovered

/-- A new image with blocks. -/
structure NewImage (disk : ι) (options : CreateOptions) (size : UInt64) (geometry : Geometry)
    (diskType : DiskType) (parent : ParentRecord) (image : Image ι) (content : Content) : Prop where
  creatable : Creatable size options.blockSize geometry
  readAs : image.footer.ReadAs
    (options.footerFields (UInt64.ofNat headerPosition) size geometry diskType)
  eq_opened : image = opened disk image.footer (newHeader options size parent)
    (.blank tablePosition (blockCount size options.blockSize)) false
  onDisk : OnDisk image.footer (newHeader options size parent)
    (.blank tablePosition (blockCount size options.blockSize)) content
  isSealed : Sealed image.footer content
  size_eq : content.size = metadataSectors (blockCount size options.blockSize) * 512 + 512
  /-- The table fills the sector before the footer. -/
  padding : ∀ p, content.size ≤ p + 1024 → p + 512 < content.size → content.byte p = 0xff

theorem ofDisk_ensures_blank (readable : S.Readable) {options : CreateOptions} {size : UInt64}
    {geometry : Geometry} {diskType : DiskType} {parent : ParentRecord}
    (hsize : size.toNat ≠ 0 ∧ size.toNat % 512 = 0)
    (hblock : ¬ (options.blockSize.toNat = 0 ∨ options.blockSize.toNat % 512 ≠ 0))
    (readAs : footer.ReadAs
      (options.footerFields (UInt64.ofNat headerPosition) size geometry diskType))
    (hkind : diskType ≠ .fixed)
    (h : Blank footer (newHeader options size parent) (blockCount size options.blockSize) content) :
    (ofDisk S.disk false).Ensures S
      (fun image content' => NewImage S.disk options size geometry diskType parent image content')
      (fun _ _ => Loadable size options.blockSize geometry → S.mayFail) content := by
  have hkind' : footer.diskType ≠ .fixed := by
    rw [readAs.diskType]
    exact hkind
  refine (ofDisk_ensures_limits readable h.legible h.footer_copy (.inl h.isSealed) hkind'
    false).mono ?_ ?_
  · rintro image content' _ ⟨hlimits, rfl, rfl⟩
    obtain ⟨hzero, hwhole⟩ := not_or.mp hblock
    obtain ⟨htable, hcovered⟩ := (limits_iff readAs).mp hlimits
    exact ⟨⟨hsize.1, hsize.2, hzero, Decidable.not_not.mp hwhole, htable, hcovered⟩, readAs, rfl,
      h.onDisk hlimits, h.isSealed, h.size_eq, h.padding⟩
  · rintro _ content' _ ⟨hm, _⟩ hloadable
    exact hm ((limits_iff readAs).mpr hloadable)

/-- There is a new image for creatable sizes, whatever the storage held, and for no others. -/
theorem createWithBlocks_ensures (hpermits : ∀ request content, S.permits request content)
    (options : CreateOptions) (size : UInt64) (geometry : Geometry) {diskType : DiskType}
    (hkind : diskType ≠ .fixed) (parent : ParentRecord) (content : Content) :
    (createWithBlocks S.disk options size geometry diskType parent).Ensures S
      (fun image content' => NewImage S.disk options size geometry diskType parent image content')
      (fun _ content' => S.Forgoes (Creatable size options.blockSize geometry)
        (Loadable size options.blockSize geometry) content content') content := by
  have hrefused : ¬ Creatable size options.blockSize geometry →
      S.Forgoes (Creatable size options.blockSize geometry)
        (Loadable size options.blockSize geometry) content content :=
    fun hnot => .inr (.inl ⟨rfl, hnot⟩)
  have hblocks : (size.toNat + options.blockSize.toNat - 1) / options.blockSize.toNat =
      blockCount size options.blockSize := rfl
  simp only [createWithBlocks, hblocks]
  split
  · next hblock =>
    rw [Access.ensures_bind, Access.ensures_throw]
    refine fun _ => hrefused fun hcreatable => ?_
    obtain hzero | haligned := hblock
    · exact hcreatable.blockSize_ne_zero hzero
    · exact haligned hcreatable.blockSize_aligned
  next hblock =>
  split
  · next hlarge =>
    rw [Access.ensures_bind, Access.ensures_throw]
    refine fun _ => hrefused fun hcreatable => ?_
    have := hcreatable.table_le
    unfold BlockTable.maxBytes at this
    omega
  next hcount =>
  have halign : Sector.align (blockCount size options.blockSize * 4) =
      .ok ((blockCount size options.blockSize * 4 + 511) / 512 * 512) := Sector.align_eq (by omega)
  simp only [halign, Access.ensures_bind, Access.ensures_liftExcept_ok]
  intro _
  obtain hsize | hsize := Classical.em (WholeSectors size.toNat)
  · obtain ⟨footer, hbuild, hraw, hparse, readAs⟩ := Footer.build_eq
      (options.footerFields (UInt64.ofNat headerPosition) size geometry diskType) hsize
    rw [← hraw] at hparse
    simp only [hbuild, Access.ensures_liftExcept_ok]
    intro _
    refine .resize (hpermits _ _) (fun _ => ?_) fun hm _ => .inl hm
    refine .write (by omega) (hpermits _ _) (fun _ => ?_) fun hm _ => .inl hm
    refine .write (by rw [headerPosition]; omega) (hpermits _ _) (fun _ => ?_) fun hm _ => .inl hm
    refine .write (by rw [tablePosition]; omega) (hpermits _ _) (fun _ => ?_) fun hm _ => .inl hm
    refine .write (by rw [tablePosition]; omega) (hpermits _ _) (fun _ => ?_) fun hm _ => .inl hm
    change (ofDisk S.disk false).Ensures S _ _ (content.formatted footer.raw
      (newHeader options size parent).toBytes
      ((blockCount size options.blockSize * 4 + 511) / 512 * 512))
    have hblank :=
      blank_formatted content parent hsize.1 hblock (Nat.not_le.mp hcount) hparse readAs rfl
    refine (ofDisk_ensures_blank ⟨fun _ => hpermits _ _, fun _ _ _ => hpermits _ _⟩ hsize hblock
      readAs hkind hblank).mono (fun _ _ _ hnew => hnew) fun _ _ _ hfailed => ?_
    obtain hloadable | hlarge := Classical.em (Loadable size options.blockSize geometry)
    · exact .inl (hfailed hloadable)
    · exact .inr (.inr hlarge)
  · have hbuild := Footer.build_eq_error
      (options.footerFields (UInt64.ofNat headerPosition) size geometry diskType) hsize
    simp only [hbuild, Access.ensures_liftExcept_error]
    exact fun _ => hrefused fun hcreatable =>
      hsize ⟨hcreatable.size_ne_zero, hcreatable.size_aligned⟩

namespace NewImage

variable {disk : ι} {options : CreateOptions} {size : UInt64} {geometry : Geometry}
variable {diskType : DiskType} {parent : ParentRecord} {image : Image ι}

theorem footer_ne_fixed (h : NewImage disk options size geometry diskType parent image content)
    (hkind : diskType ≠ .fixed) : image.footer.diskType ≠ .fixed := by
  rw [h.readAs.diskType]
  exact hkind

/-- Nothing but metadata is on the storage, and a table has no more than `BlockTable.maxBytes`. -/
theorem size_lt (h : NewImage disk options size geometry diskType parent image content) :
    content.size < 2 ^ 28 := by
  have hbytes := h.creatable.table_le
  rw [BlockTable.maxBytes] at hbytes
  rw [h.size_eq, metadataSectors, tablePosition]
  omega

theorem reopen (h : NewImage disk options size geometry diskType parent image content)
    (hkind : diskType ≠ .fixed) :
    (ofDisk disk false).runOn sole content = (.ok image, content) := by
  have hrun := runOn_ofDisk disk h.onDisk (h.footer_ne_fixed hkind)
    (Nat.lt_trans h.size_lt (by decide)) false
  rw [← h.eq_opened] at hrun
  exact hrun

theorem blocks?_eq (h : NewImage disk options size geometry diskType parent image content)
    (hkind : diskType ≠ .fixed) :
    image.blocks? = some (.fresh (newHeader options size parent)
      (.blank tablePosition (blockCount size options.blockSize))) := by
  have hblocks := blocks?_opened disk (h.footer_ne_fixed hkind) (newHeader options size parent)
    (.blank tablePosition (blockCount size options.blockSize)) false
  rw [← h.eq_opened] at hblocks
  exact hblocks

theorem disk_eq (h : NewImage disk options size geometry diskType parent image content) :
    image.disk = disk := by
  rw [h.eq_opened]
  rfl

theorem parentUniqueId?_eq
    (h : NewImage disk options size geometry .differencing parent image content) :
    image.parentUniqueId? = some parent.uniqueId := by
  have hkind : image.footer.diskType = .differencing := h.readAs.diskType
  rw [h.eq_opened, parentUniqueId?, opened, hkind]
  rfl

theorem consistent (h : NewImage disk options size geometry diskType parent image content) :
    Consistent image.footer (.fresh (newHeader options size parent)
      (.blank tablePosition (blockCount size options.blockSize))) content := by
  refine h.onDisk.consistent_fresh ?_
  rw [h.size_eq]
  omega

theorem held_eq (_ : NewImage disk options size geometry diskType parent image content)
    (sector : Nat) :
    (BlockMap.fresh (newHeader options size parent)
      (.blank tablePosition (blockCount size options.blockSize))).held content sector = none :=
  BlockMap.stored_blank _ _ _ _ _

theorem shown_eq (h : NewImage disk options size geometry diskType parent image content) :
    (BlockMap.fresh (newHeader options size parent)
      (.blank tablePosition (blockCount size options.blockSize))).shown content =
        fun _ => Bytes.zero 512 := by
  funext sector
  rw [BlockMap.shown, h.held_eq]
  rfl

end NewImage

/-- A dynamic image is created if the options have a geometry and their sizes are creatable. -/
theorem createDynamic_ensures (hpermits : ∀ request content, S.permits request content)
    (options : CreateOptions) (content : Content) :
    (createDynamic S.disk options).Ensures S
      (fun image content' => ∃ geometry, options.checkedGeometry = .ok geometry ∧
        NewImage S.disk options options.size geometry .dynamic ⟨Bytes.zero 16, 0⟩ image content')
      (fun _ content' => S.Forgoes
        (∃ geometry, options.checkedGeometry = .ok geometry ∧
          Creatable options.size options.blockSize geometry)
        (∀ geometry, options.checkedGeometry = .ok geometry →
          Loadable options.size options.blockSize geometry) content content') content := by
  rw [createDynamic, Access.ensures_bind]
  cases hgeometry : options.checkedGeometry with
  | ok geometry =>
    rw [Access.ensures_liftExcept_ok]
    intro _
    refine (createWithBlocks_ensures hpermits options options.size geometry (by decide) _
      content).mono ?_ ?_
    · rintro image content' _ hnew
      exact ⟨geometry, rfl, hnew⟩
    · rintro _ content' _ (hm | ⟨rfl, hnot⟩ | hnot)
      · exact .inl hm
      · refine .inr (.inl ⟨rfl, ?_⟩)
        rintro ⟨other, hother, hcreatable⟩
        cases hother
        exact hnot hcreatable
      · exact .inr (.inr fun hall => hnot (hall geometry rfl))
  | error e =>
    rw [Access.ensures_liftExcept_error]
    exact fun _ => .inr (.inl ⟨rfl, fun ⟨_, hok, _⟩ => nomatch hok⟩)

theorem newImage_of_createDynamic {disk : ι} {options : CreateOptions} {prior content : Content}
    {image : Image ι}
    (created : (createDynamic disk options).runOn sole prior = (.ok image, content)) :
    ∃ geometry, NewImage disk options options.size geometry .dynamic ⟨Bytes.zero 16, 0⟩ image
      content := by
  have hpost := (createDynamic_ensures (S := Setting.free disk False fun _ => True)
    (fun _ _ => trivial) options prior).runOn_sole fun _ => trivial
  rw [Setting.disk_free, created] at hpost
  obtain ⟨geometry, -, hnew⟩ := hpost
  exact ⟨geometry, hnew⟩

theorem exists_createDynamic {options : CreateOptions} {geometry : Geometry}
    (checked : options.checkedGeometry = .ok geometry)
    (creatable : Creatable options.size options.blockSize geometry) (disk : ι) (prior : Content) :
    ∃ image content, (createDynamic disk options).runOn sole prior = (.ok image, content) ∧
      NewImage disk options options.size geometry .dynamic ⟨Bytes.zero 16, 0⟩ image content := by
  obtain ⟨image, content, hrun, other, hother, hnew⟩ :=
    (createDynamic_ensures (S := Setting.free disk False fun _ => True) (fun _ _ => trivial) options
      prior).runOn_sole_ok (fun _ => trivial) fun _ _ hfailed =>
        hfailed.mayFail ⟨geometry, checked, creatable⟩ fun other hother => by
          rw [checked, Except.ok.injEq] at hother
          exact hother ▸ creatable.loadable
  rw [checked, Except.ok.injEq] at hother
  subst hother
  exact ⟨image, content, hrun, hnew⟩

/-- A differencing image is created with size and geometry of its parent, if they are creatable. -/
theorem createDifferencing_ensures {κ : Type}
    (hpermits : ∀ request content, S.permits request content)
    (parent : Image κ) (options : CreateOptions) (content : Content) :
    (createDifferencing S.disk parent options).Ensures S
      (fun image content' =>
        NewImage S.disk options parent.footer.currentSize parent.footer.geometry .differencing
          ⟨parent.footer.uniqueId, parent.footer.timestamp⟩ image content')
      (fun _ content' => S.Forgoes
        (Creatable parent.footer.currentSize options.blockSize parent.footer.geometry)
        (Loadable parent.footer.currentSize options.blockSize parent.footer.geometry)
        content content') content :=
  createWithBlocks_ensures hpermits options _ _ (by decide) _ content

theorem newImage_of_createDifferencing {κ : Type} {disk : ι} {parent : Image κ}
    {options : CreateOptions} {prior content : Content} {image : Image ι}
    (created : (createDifferencing disk parent options).runOn sole prior = (.ok image, content)) :
    NewImage disk options parent.footer.currentSize parent.footer.geometry .differencing
      ⟨parent.footer.uniqueId, parent.footer.timestamp⟩ image content := by
  have hpost := (createDifferencing_ensures (S := Setting.free disk False fun _ => True)
    (fun _ _ => trivial) parent options prior).runOn_sole fun _ => trivial
  rw [Setting.disk_free, created] at hpost
  exact hpost

theorem exists_createDifferencing {κ : Type} {parent : Image κ} {options : CreateOptions}
    (creatable : Creatable parent.footer.currentSize options.blockSize parent.footer.geometry)
    (disk : ι) (prior : Content) :
    ∃ image content, (createDifferencing disk parent options).runOn sole prior =
      (.ok image, content) ∧
      NewImage disk options parent.footer.currentSize parent.footer.geometry .differencing
        ⟨parent.footer.uniqueId, parent.footer.timestamp⟩ image content :=
  (createDifferencing_ensures (S := Setting.free disk False fun _ => True) (fun _ _ => trivial)
    parent options prior).runOn_sole_ok (fun _ => trivial)
      fun _ _ hfailed => hfailed.mayFail creatable creatable.loadable

end Image

/-- Sixteen sectors in two blocks. -/
def CreateOptions.small : CreateOptions where
  size := 8192
  blockSize := 4096
  geometry? := some ⟨16, 1, 1⟩
  uniqueId := Bytes.zero 16
  timestamp := 0
  creatorApp := Bytes.zero 4

theorem CreateOptions.checkedGeometry_small : small.checkedGeometry = .ok ⟨16, 1, 1⟩ := rfl

theorem creatable_small :
    Creatable CreateOptions.small.size CreateOptions.small.blockSize ⟨16, 1, 1⟩ :=
  ⟨by decide, by decide, by decide, by decide, by decide, by decide⟩

end VirtualDisk
