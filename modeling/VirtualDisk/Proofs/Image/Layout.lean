import VirtualDisk.Proofs.Image.Accepting
import VirtualDisk.Proofs.Image.HoldsWritten
import VirtualDisk.Proofs.Image.Reading
import VirtualDisk.Proofs.Image.Replacing

/-!
# What a new image lies on

The storage of a new image is known to the last byte, whatever it held before. The footer says what
was asked for, and so does the header, which names the parent as the parent's own footer does.
-/

namespace VirtualDisk

open Storage

variable {ι κ : Type}

namespace Creation

/-- The size of the disk. A differencing image takes that of its parent. -/
def size (options : CreateOptions) : Creation κ → UInt64
  | fixed => options.size
  | dynamic => options.size
  | differencing parent => parent.footer.currentSize

/-- The geometry of the disk. A differencing image takes that of its parent. -/
def geometry (options : CreateOptions) : Creation κ → Geometry
  | fixed => options.geometry?.getD (Geometry.ofSize options.size.toNat)
  | dynamic => options.geometry?.getD (Geometry.ofSize options.size.toNat)
  | differencing parent => parent.footer.geometry

def diskType : Creation κ → DiskType
  | fixed => .fixed
  | dynamic => .dynamic
  | differencing _ => .differencing

/-- Where the footer says that the header is. -/
def dataOffset : Creation κ → UInt64
  | fixed => 0xffffffffffffffff
  | _ => UInt64.ofNat Image.headerPosition

/-- The parent that the header records. -/
def parentRecord : Creation κ → Image.ParentRecord
  | differencing parent => ⟨parent.footer.uniqueId, parent.footer.timestamp⟩
  | _ => ⟨Bytes.zero 16, 0⟩

/-- What the footer says. -/
def footerFields (options : CreateOptions) (creation : Creation κ) : FooterFields :=
  options.footerFields creation.dataOffset (creation.size options) (creation.geometry options)
    creation.diskType

/-- The bytes of the footer. -/
def footerBytes (options : CreateOptions) (creation : Creation κ) : Sector :=
  Footer.laidOut (creation.footerFields options)

/-- The number of blocks, unless the image is fixed. -/
def blocks (options : CreateOptions) (creation : Creation κ) : Nat :=
  blockCount (creation.size options) options.blockSize

/-- The header, unless the image is fixed. -/
def header (options : CreateOptions) (creation : Creation κ) : BlockHeader :=
  Image.newHeader options (creation.size options) creation.parentRecord

end Creation

/-- Zeros, and a footer after them. -/
structure ZerosLaidOut (size : Nat) (footer : Sector) (content : Content) : Prop where
  size_eq : content.size = size + 512
  zeros : ∀ p, p < size → content.byte p = 0
  tail_eq : content.tail = footer

/-- A footer, a header and a table without entries, which is filled up to whole sectors, and the
same footer after them. -/
structure BlocksLaidOut (footer : Sector) (header : Bytes 1024) (blocks : Nat) (content : Content) :
    Prop where
  size_eq : content.size = 1536 + (blocks * 4 + 511) / 512 * 512 + 512
  copy_eq : content.read 0 512 = footer
  header_eq : content.read 512 1024 = header
  entries : ∀ block, block < blocks → content.read (1536 + block * 4) 4 = Bytes.replicate 4 0xff
  padding : ∀ p, 1536 + blocks * 4 ≤ p → p + 512 < content.size → content.byte p = 0xff
  tail_eq : content.tail = footer

/-- The storage of a new image. -/
def Creation.LaysOut (options : CreateOptions) (creation : Creation κ) (content : Content) : Prop :=
  match creation.diskType with
  | .fixed => ZerosLaidOut options.size.toNat (creation.footerBytes options) content
  | _ => BlocksLaidOut (creation.footerBytes options) (creation.header options).toBytes
    (creation.blocks options) content

theorem zerosLaidOut_written (prior : Content) (size : Nat) (footer : Sector) :
    ZerosLaidOut size footer (((prior.resize 0).resize size).write size footer) := by
  have hsize : (((prior.resize 0).resize size).write size footer).size = size + 512 := by
    rw [Content.size_write, Content.size_resize]
    omega
  refine ⟨hsize, fun p hp => ?_, ?_⟩
  · rw [Content.byte_write, dif_neg (by omega), Content.byte_resize, if_pos hp,
      Content.byte_resize, if_neg (Nat.not_lt_zero p)]
  · rw [Content.tail, hsize, Nat.add_sub_cancel, Content.read_write_same]

theorem blocksLaidOut_formatted (prior : Content) (footer : Sector) (header : Bytes 1024)
    (blocks : Nat) :
    BlocksLaidOut footer header blocks
      (prior.formatted footer header ((blocks * 4 + 511) / 512 * 512)) where
  size_eq := Content.size_formatted
  copy_eq := Content.read_formatted_copy
  header_eq := Content.read_formatted_header
  entries block hblock := by
    refine Bytes.ext fun i hi => ?_
    rw [Content.getElem_read, Content.byte_formatted_table (by omega) (by omega),
      Bytes.getElem_replicate]
  padding p hp hp' := by
    rw [Content.size_formatted] at hp'
    exact Content.byte_formatted_table (by omega) (by omega)
  tail_eq := Content.tail_formatted

theorem Creation.LaysOut.tail_eq {options : CreateOptions} {creation : Creation κ}
    {content : Content} (h : creation.LaysOut options content) :
    content.tail = creation.footerBytes options := by
  cases creation with
  | fixed => exact ZerosLaidOut.tail_eq h
  | dynamic => exact BlocksLaidOut.tail_eq h
  | differencing => exact BlocksLaidOut.tail_eq h

namespace Image

variable {disk : ι} {options : CreateOptions} {prior content : Content} {image : Image ι}

/-- What is found at the end of a storage is the footer of the image. -/
theorem OpenedAs.footer_eq {readOnly : Bool} {footer : Footer}
    (h : OpenedAs disk readOnly content image) (tail : Footer.parse content.tail = .ok footer) :
    image.footer = footer := by
  have hfound : Found image.footer content := by
    cases h with
    | fixed found => exact found
    | blocks found => exact found
  obtain hparsed | ⟨⟨e, he⟩, -⟩ := hfound.parsed
  · exact Except.ok.inj (hparsed.symm.trans tail)
  · cases he.symm.trans tail

theorem of_runOn_createWithBlocks {size : UInt64} {geometry : Geometry} {diskType : DiskType}
    {parent : ParentRecord}
    (run : (createWithBlocks disk options size geometry diskType parent).runOn sole prior =
      (.ok image, content)) :
    ∃ footer, Footer.build
        (options.footerFields (UInt64.ofNat headerPosition) size geometry diskType) = .ok footer ∧
      blockCount size options.blockSize < 2 ^ 32 ∧
      (ofDisk disk false).runOn sole (prior.formatted footer.raw
        (newHeader options size parent).toBytes
        ((blockCount size options.blockSize * 4 + 511) / 512 * 512)) = (.ok image, content) := by
  simp only [createWithBlocks] at run
  split at run
  · cases run
  split at run
  · cases run
  next hcount =>
  have halign : Sector.align (blockCount size options.blockSize * 4) =
      .ok ((blockCount size options.blockSize * 4 + 511) / 512 * 512) := by
    apply Sector.align_eq
    rw [blockCount]
    omega
  rw [← blockCount, halign, Access.runOn_bind_ok (Access.runOn_liftExcept ..)] at run
  obtain ⟨footer, _, hbuild, hresize⟩ := Access.of_runOn_bind run
  obtain ⟨hfooter, rfl⟩ := Prod.mk.inj hbuild
  obtain ⟨_, _, hempty, hcopy⟩ := Access.of_runOn_bind hresize
  cases hempty
  obtain ⟨_, _, hwrite₁, hheader⟩ := Access.of_runOn_bind hcopy
  obtain ⟨_, _, hwrite₂, htable⟩ := Access.of_runOn_bind hheader
  obtain ⟨_, _, hwrite₃, hfooter'⟩ := Access.of_runOn_bind htable
  obtain ⟨_, _, hwrite₄, hopen⟩ := Access.of_runOn_bind hfooter'
  rw [(Access.of_runOn_write hwrite₄).1, (Access.of_runOn_write hwrite₃).1,
    (Access.of_runOn_write hwrite₂).1, (Access.of_runOn_write hwrite₁).1] at hopen
  exact ⟨footer, hfooter, Nat.not_le.mp hcount, hopen⟩

end Image

namespace Image

variable {image : Image ι} {content : Content}

/-- Every read shows zeros. -/
def ReadsZeros (image : Image ι) (content : Content) : Prop :=
  ∀ (offset count : Nat) (buffer : ByteArray), Buffer.Holds buffer.size count →
    ∃ (result : ReadResult) (image' : Image ι),
      (read offset count buffer).runOn sole image content = ((.ok result, image'), content) ∧
      result.truncated = count - image.transfer offset count ∧
      Buffer.Shows (fun _ => Bytes.zero 512) offset 0 (image.transfer offset count) buffer
        result.buffer

theorem HoldsWritten.readsZeros (h : HoldsWritten image content fun _ => none)
    (hkind : image.diskType ≠ .differencing)
    (blank : image.diskType = .fixed → ∀ sector, sector < image.totalSectors →
      content.flatSector sector = Bytes.zero 512) : image.ReadsZeros content := by
  intro offset count buffer hbuffer
  obtain ⟨result, image', content', hrun, ⟨htruncated, hshows, -⟩, rfl⟩ :=
    (h.read_ensures (S := .free image.disk False fun _ => True) (fun _ _ => trivial) rfl hkind
      offset count buffer).runOn_sole_ok (grows_read offset count buffer) (fun _ _ => trivial)
        fun _ _ _ hfailed => hfailed hbuffer
  refine ⟨result, image', hrun, htruncated, hshows.size_eq, fun k hk => ?_, hshows.rest⟩
  rw [hshows.slot_eq k hk, own]
  split
  · next hfixed =>
    apply blank hfixed
    rw [transfer] at hk
    omega
  · rfl

end Image

namespace Creation

variable {creation : Creation κ} {options : CreateOptions} {disk : ι} {prior content : Content}
variable {image : Image ι}

/-- What a successful creation laid out was opened. -/
theorem of_create (run : (creation.create disk options).runOn sole prior = (.ok image, content)) :
    ∃ footer laidOut, Footer.build (creation.footerFields options) = .ok footer ∧
      creation.LaysOut options laidOut ∧ laidOut.size < 2 ^ 64 ∧
      (Image.ofDisk disk false).runOn sole laidOut = (.ok image, content) := by
  have hblocks {size : UInt64} {geometry : Geometry} {diskType : DiskType}
      {parent : Image.ParentRecord}
      (run : (Image.createWithBlocks disk options size geometry diskType parent).runOn sole prior =
        (.ok image, content)) :
      ∃ footer laidOut, Footer.build
          (options.footerFields (UInt64.ofNat Image.headerPosition) size geometry diskType) =
            .ok footer ∧
        BlocksLaidOut (Footer.laidOut
          (options.footerFields (UInt64.ofNat Image.headerPosition) size geometry diskType))
          (Image.newHeader options size parent).toBytes (blockCount size options.blockSize)
          laidOut ∧ laidOut.size < 2 ^ 64 ∧
        (Image.ofDisk disk false).runOn sole laidOut = (.ok image, content) := by
    obtain ⟨footer, hbuild, hcount, hopen⟩ := Image.of_runOn_createWithBlocks run
    rw [(Footer.of_build hbuild).1] at hopen
    refine ⟨footer, _, hbuild, blocksLaidOut_formatted .., ?_, hopen⟩
    rw [Content.size_formatted]
    omega
  cases creation with
  | fixed =>
    obtain ⟨geometry, footer, hchecked, hbuild, hfits, hopen⟩ := Image.of_runOn_createFixed run
    obtain ⟨-, -, rfl⟩ := CreateOptions.of_checkedGeometry hchecked
    rw [(Footer.of_build hbuild).1] at hopen
    have hzeros := zerosLaidOut_written prior options.size.toNat
      (footerBytes options (fixed : Creation κ))
    exact ⟨footer, _, hbuild, hzeros, hzeros.size_eq ▸ hfits, hopen⟩
  | dynamic =>
    obtain ⟨geometry, _, hchecked, run⟩ := Access.of_runOn_bind run
    obtain ⟨hgeometry, rfl⟩ := Prod.mk.inj hchecked
    obtain ⟨-, -, rfl⟩ := CreateOptions.of_checkedGeometry hgeometry
    exact hblocks run
  | differencing parent => exact hblocks run

/-- The image says what was asked for. -/
structure Describes (options : CreateOptions) (creation : Creation κ) (image : Image ι) :
    Prop where
  size_eq : image.footer.currentSize = creation.size options
  geometry_eq : image.footer.geometry = creation.geometry options
  uniqueId_eq : image.footer.uniqueId = options.uniqueId
  timestamp_eq : image.footer.timestamp = options.timestamp
  diskType_eq : image.diskType = creation.diskType
  blockSize_eq : image.diskType ≠ .fixed → image.blockSize? = some options.blockSize.toNat
  parent_eq : ∀ map, image.blocks? = some map →
    map.header.parentUniqueId = creation.parentRecord.uniqueId ∧
      map.header.parentTimestamp = creation.parentRecord.timestamp

/-- No block is allocated, and the table has one for every sector. -/
structure Vacant (options : CreateOptions) (creation : Creation κ) (image : Image ι) : Prop where
  covered : ∀ map, image.blocks? = some map → image.totalSectors ≤ map.capacity
  unallocated : image.diskType ≠ .fixed → ∀ block, block < creation.blocks options →
    image.isAllocated block = .ok false

theorem newFlat_of_create (hkind : creation.diskType = .fixed)
    (run : (creation.create disk options).runOn sole prior = (.ok image, content)) :
    Image.NewFlat disk image content := by
  cases creation with
  | fixed => exact Image.newFlat_of_createFixed run
  | dynamic => cases hkind
  | differencing => cases hkind

theorem newImage_of_create (hkind : creation.diskType ≠ .fixed)
    (run : (creation.create disk options).runOn sole prior = (.ok image, content)) :
    ∃ geometry, Image.NewImage disk options (creation.size options) geometry creation.diskType
      creation.parentRecord image content := by
  cases creation with
  | fixed => exact absurd rfl hkind
  | dynamic => exact Image.newImage_of_createDynamic run
  | differencing parent => exact ⟨_, Image.newImage_of_createDifferencing run⟩

/-- The storage holds nothing but what was laid out. -/
theorem laysOut_of_create
    (run : (creation.create disk options).runOn sole prior = (.ok image, content)) :
    creation.LaysOut options content := by
  obtain ⟨footer, laidOut, -, hlaid, hsize, hopen⟩ := of_create run
  obtain ⟨rfl, -⟩ := Image.openedAs_of_ofDisk hsize hopen
  exact hlaid

theorem footer_of_create
    (run : (creation.create disk options).runOn sole prior = (.ok image, content)) :
    Footer.build (creation.footerFields options) = .ok image.footer := by
  obtain ⟨footer, laidOut, hbuild, hlaid, hsize, hopen⟩ := of_create run
  obtain ⟨rfl, hopened⟩ := Image.openedAs_of_ofDisk hsize hopen
  have htail : Footer.parse content.tail = .ok footer := hlaid.tail_eq ▸ hbuild
  rw [hopened.footer_eq htail]
  exact hbuild

theorem describes_of_create
    (run : (creation.create disk options).runOn sole prior = (.ok image, content)) :
    creation.Describes options image := by
  obtain ⟨-, htimestamp, readAs⟩ := Footer.of_build (footer_of_create run)
  have hkept : image.diskType = creation.diskType ∧ ∀ map, image.blocks? = some map →
      map.header = creation.header options := by
    by_cases hkind : creation.diskType = .fixed
    · rw [(newFlat_of_create hkind run).eq_flat]
      exact ⟨hkind.symm, nofun⟩
    · obtain ⟨geometry, hnew⟩ := newImage_of_create hkind run
      refine ⟨?_, fun map hmap => ?_⟩
      · rw [hnew.eq_opened, Image.diskType_opened]
        exact readAs.diskType
      · obtain rfl := Option.some.inj ((hnew.blocks?_eq hkind).symm.trans hmap)
        rfl
  obtain ⟨hkind, hheader⟩ := hkept
  refine ⟨readAs.currentSize, readAs.geometry, readAs.uniqueId, htimestamp, hkind,
    fun hblocks => ?_, fun map hmap => ?_⟩
  · obtain ⟨map, hmap⟩ := Image.exists_blocks_iff.mpr hblocks
    rw [Image.blockSize?, hmap, Option.map_some, hheader map hmap]
    rfl
  · rw [hheader map hmap]
    exact ⟨rfl, rfl⟩

theorem vacant_of_create
    (run : (creation.create disk options).runOn sole prior = (.ok image, content)) :
    creation.Vacant options image := by
  have hkind := (describes_of_create run).diskType_eq
  by_cases hfixed : creation.diskType = .fixed
  · refine ⟨fun map hmap => ?_, fun hblocks => absurd (hkind.trans hfixed) hblocks⟩
    exact absurd (hkind.trans hfixed) (Image.exists_blocks_iff.mp ⟨map, hmap⟩)
  · obtain ⟨geometry, hnew⟩ := newImage_of_create hfixed run
    have hmap := hnew.blocks?_eq hfixed
    refine ⟨fun map hmap' => ?_, fun _ block hblock => ?_⟩
    · obtain rfl := Option.some.inj (hmap.symm.trans hmap')
      exact hnew.onDisk.fits.covered
    · have hcount :
          block < (BlockTable.blank Image.tablePosition (creation.blocks options)).size := by
        rw [BlockTable.size_blank]
        exact hblock
      rw [Image.isAllocated, hmap]
      dsimp only [BlockMap.fresh]
      rw [← blocks, BlockTable.isAllocated_eq hcount, BlockTable.place?_blank]
      rfl

theorem holdsWritten_of_create
    (run : (creation.create disk options).runOn sole prior = (.ok image, content)) :
    Image.HoldsWritten image content fun _ => none := by
  by_cases hfixed : creation.diskType = .fixed
  · have hnew := newFlat_of_create hfixed run
    rw [hnew.eq_flat]
    exact .flat rfl rfl rfl hnew.stored
  · obtain ⟨geometry, hnew⟩ := newImage_of_create hfixed run
    exact hnew.holdsWritten hfixed

theorem readsZeros_of_create (hkind : creation.diskType ≠ .differencing)
    (run : (creation.create disk options).runOn sole prior = (.ok image, content)) :
    image.ReadsZeros content := by
  have htype := (describes_of_create run).diskType_eq
  refine (holdsWritten_of_create run).readsZeros (htype ▸ hkind) fun hfixed sector hsector => ?_
  exact (newFlat_of_create (htype ▸ hfixed) run).blank sector hsector

/-- The storage is opened as the image, in either mode. -/
theorem runOn_ofDisk_of_create
    (run : (creation.create disk options).runOn sole prior = (.ok image, content))
    (readOnly : Bool) :
    (Image.ofDisk disk readOnly).runOn sole content = (.ok { image with readOnly }, content) := by
  have readable := Setting.readable_free disk False fun _ => True
  have hsize : content.size < 2 ^ 64 := by
    obtain ⟨_, _, -, -, hsize, hopen⟩ := of_create run
    exact (Image.openedAs_of_ofDisk hsize hopen).1 ▸ hsize
  by_cases hfixed : creation.diskType = .fixed
  · have hnew := newFlat_of_create hfixed run
    obtain ⟨found, content', hrun, rfl, rfl⟩ :=
      (Image.ofDisk_ensures_flat readable hnew.stored hsize readOnly).runOn_sole_ok
        (fun _ => trivial) fun _ _ hfailed => hfailed.1
    rw [hnew.eq_flat]
    exact hrun
  · obtain ⟨geometry, hnew⟩ := newImage_of_create hfixed run
    have hkind := hnew.footer_ne_fixed hfixed
    rw [Image.runOn_ofDisk disk hnew.onDisk hkind hsize readOnly, hnew.eq_opened]
    rfl

end Creation

/-- Images that were created on sound storages, and so were their parents. An image keeps its footer
while it is used. -/
inductive Image.Created : {ι : Type} → Image ι → Prop where
  | create {ι κ : Type} {creation : Creation κ} {disk : ι} {options : CreateOptions}
      {prior content : Content} {image : Image ι}
      (parents : ∀ parent, creation = .differencing parent → Created parent)
      (run : (creation.create disk options).runOn sole prior = (.ok image, content)) :
      Created image
  | used {ι : Type} {image image' : Image ι} (before : Created image)
      (footer_eq : image'.footer = image.footer) : Created image'

/-- The sectors fit into the size of the disk, if they do in the parent. -/
theorem Creation.sectors_le {creation : Creation κ} {options : CreateOptions} {disk : ι}
    {prior content : Content} {image : Image ι}
    (run : (creation.create disk options).runOn sole prior = (.ok image, content))
    (parents : ∀ parent, creation = .differencing parent →
      parent.totalSectors * 512 ≤ parent.footer.currentSize.toNat) :
    image.totalSectors * 512 ≤ image.footer.currentSize.toNat := by
  have hdescribes := describes_of_create run
  rw [Image.totalSectors, hdescribes.geometry_eq, hdescribes.size_eq]
  cases creation with
  | fixed =>
    obtain ⟨geometry, -, hchecked, -⟩ := Image.of_runOn_createFixed run
    obtain ⟨-, hle, rfl⟩ := CreateOptions.of_checkedGeometry hchecked
    exact Nat.mul_le_of_le_div _ _ _ hle
  | dynamic =>
    obtain ⟨geometry, _, hchecked, -⟩ := Access.of_runOn_bind run
    obtain ⟨hchecked, -⟩ := Prod.mk.inj hchecked
    obtain ⟨-, hle, rfl⟩ := CreateOptions.of_checkedGeometry hchecked
    exact Nat.mul_le_of_le_div _ _ _ hle
  | differencing parent => exact parents parent rfl

/-- By induction along the chain of parents. -/
theorem Image.Created.sectors_le {ι : Type} {image : Image ι} (h : image.Created) :
    image.totalSectors * 512 ≤ image.footer.currentSize.toNat := by
  induction h with
  | create parents run ih => exact Creation.sectors_le run ih
  | used before footer_eq ih =>
    rw [Image.totalSectors, footer_eq]
    exact ih

end VirtualDisk
