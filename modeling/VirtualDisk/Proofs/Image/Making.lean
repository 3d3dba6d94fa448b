import VirtualDisk.Proofs.Image.Accepting
import VirtualDisk.Proofs.Image.Discipline
import VirtualDisk.Proofs.Image.Replacing

/-!
# Opening and creating, whatever is answered

Which requests it takes to open or to create an image, and what that can fail for, can be told
without knowing the disk. No empty write is issued: the table of a new image has an entry at least,
because its disk has a sector. Apart from the check of the options of a new image, only mild causes
are added to those of the disk. And what is opened has bitmaps, because a block has a sector at
least.
-/

namespace VirtualDisk

open Storage

variable {ι : Type}

/-- The bitmap in memory is not empty. -/
def BlockMap.HasBitmap (map : BlockMap) : Prop := 0 < map.bitmap.bytes.size

theorem Footer.mild_parse (raw : Sector) : Mild (parse raw) := fun _ h =>
  (parse_answers raw).forall_error (by simp [demands, Error.IsMild, Error.SparesGeometry]) h

theorem Footer.mild_build (fields : FooterFields) : Mild (build fields) := mild_parse _

theorem BlockHeader.mild_parse (raw : Bytes 1024) : Mild (parse raw) := fun _ h =>
  (parse_answers raw).forall_error
    (by simp [recordDemands, numberDemands, Error.IsMild, Error.SparesGeometry]) h

theorem Image.mild_findHeader (footer : Footer) (size : Nat) : Mild (findHeader footer size) :=
  fun _ h => (findHeader_answers footer size).forall_error
    (by simp [headerDemands, Error.IsMild, Error.SparesGeometry]) h

section Disk

variable {P : Protocol ι} {disk : ι} {cause : Error → Prop} (A : P.Allows disk cause)
include A

theorem BlockTable.load_minds (offset count : Nat) : (load disk offset count).Minds P cause := by
  unfold load
  refine Access.minds_guard A trivial (Access.minds_guard A trivial ?_)
  exact Access.minds_bind (Access.minds_readWithin A (by decide) _ _) fun _ =>
    Access.minds_pure _

namespace Image

open Access

theorem findFooter_minds (size : Nat) : (findFooter disk size).Minds P cause := by
  refine minds_bind (minds_ask A id) fun last => ?_
  split
  · exact minds_pure _
  · next e he =>
    refine minds_bind (minds_ask A id) fun first => ?_
    split
    · exact minds_pure _
    · exact minds_throw (A.plain e (Footer.mild_parse last e he))

theorem parse_obeys (raw : Bytes 1024) :
    (liftM (BlockHeader.parse raw) : Access ι BlockHeader).Obeys P
      (fun header => 0 < header.sectorsPerBlock) cause := by
  refine obeys_liftExcept.mpr ?_
  cases hparse : BlockHeader.parse raw with
  | error e => exact A.plain e (BlockHeader.mild_parse raw e hparse)
  | ok header =>
    obtain ⟨hpos, haligned⟩ := BlockHeader.blockSize_of_parse hparse
    change 0 < header.blockSize.toNat / 512
    omega

theorem ofTable_obeys {header : BlockHeader} (hsectors : 0 < header.sectorsPerBlock)
    (table : BlockTable) :
    (liftM (BlockMap.ofTable header table) : Access ι BlockMap).Obeys P BlockMap.HasBitmap
      cause := by
  refine obeys_liftExcept.mpr ?_
  obtain ⟨-, hmap⟩ | hmap := BlockMap.ofTable_cases header table
  · have hpos := BlockHeader.bitmapSectors_pos hsectors
    rw [hmap]
    change 0 < ((Bytes.zero (header.bitmapSectors * 512)).toByteArray).size
    rw [Bytes.size_toByteArray]
    omega
  · rw [hmap]
    exact A.plain _ trivial

theorem readTable_obeys (footer : Footer) {header : BlockHeader}
    (hsectors : 0 < header.sectorsPerBlock) :
    (readTable disk footer header).Obeys P BlockMap.HasBitmap cause := by
  unfold readTable
  refine obeys_guard A trivial ?_
  refine Obeys.bind (BlockTable.load_minds A _ _) fun table _ => ?_
  refine Obeys.bind (ofTable_obeys A hsectors table) fun map hmap => ?_
  exact obeys_guard A trivial (obeys_pure.mpr hmap)

theorem readBlockMap_obeys (footer : Footer) (size : Nat) :
    (readBlockMap disk footer size).Obeys P BlockMap.HasBitmap cause := by
  have hposition : (liftM (findHeader footer size) : Access ι Nat).Minds P cause := by
    refine obeys_liftExcept.mpr ?_
    cases h : findHeader footer size with
    | error e => exact A.plain e (mild_findHeader footer size e h)
    | ok position => trivial
  refine Obeys.bind hposition fun position _ => Obeys.bind (minds_ask A id) fun raw _ => ?_
  exact Obeys.bind (parse_obeys A raw) fun header hsectors => readTable_obeys A footer hsectors

theorem ofDisk_obeys (readOnly : Bool) :
    (ofDisk disk readOnly).Obeys P (Heeds BlockMap.HasBitmap) cause := by
  have hlayout (layout : BlockMap → Layout) (footer : Footer) (size : Nat)
      (hblocks : ∀ map, (layout map).blocks? = some map) :
      (layout <$> readBlockMap disk footer size >>= fun layout =>
        pure (Image.mk disk footer layout readOnly)).Obeys P (Heeds BlockMap.HasBitmap) cause := by
    rw [map_eq_pure_bind, bind_assoc]
    refine Obeys.bind (readBlockMap_obeys A footer size) fun map hmap => ?_
    rintro _ hheld
    obtain rfl := Option.some.inj ((hblocks map).symm.trans hheld)
    exact hmap
  refine Obeys.bind (minds_ask A id) fun size _ => obeys_guard A trivial ?_
  refine Obeys.bind (findFooter_minds A size) fun footer _ => ?_
  split
  · split
    · exact A.plain _ trivial
    · exact fun _ hheld => nomatch hheld
  · exact hlayout .dynamic footer size fun _ => rfl
  · exact hlayout .differencing footer size fun _ => rfl

/-- A disk that is not empty has a table that is not. -/
theorem align_obeys {blocks : Nat} :
    (liftM (Sector.align (blocks * 4)) : Access ι Nat).Obeys P (blocks * 4 ≤ ·) cause := by
  refine obeys_liftExcept.mpr ?_
  unfold Sector.align
  dsimp only
  split
  · exact Nat.le_refl _
  · split
    · exact Nat.le_add_right _ _
    · exact A.plain _ trivial

theorem build_obeys {fields : FooterFields} {built : Except Error Footer}
    (hbuild : Footer.build fields = built) :
    (liftM built : Access ι Footer).Obeys P (fun _ => fields.size.toNat ≠ 0) cause := by
  refine obeys_liftExcept.mpr ?_
  cases built with
  | error e => exact A.plain e (Footer.mild_build fields e hbuild)
  | ok footer =>
    have hsize := (Footer.build_answers fields).exists_ok_iff.mp ⟨footer, hbuild⟩
    exact (hsize _ List.mem_cons_self).1

theorem createWithBlocks_obeys (options : CreateOptions) (size : UInt64) (geometry : Geometry)
    (diskType : DiskType) (parent : ParentRecord) :
    (createWithBlocks disk options size geometry diskType parent).Obeys P
      (Heeds BlockMap.HasBitmap) cause := by
  simp only [createWithBlocks]
  split
  · exact obeys_bind.mpr (A.plain _ trivial)
  next hblockSize =>
  split
  · exact obeys_bind.mpr (A.plain _ trivial)
  refine Obeys.bind (align_obeys A) fun tableSize htable => ?_
  generalize hbuild : Footer.build _ = built
  refine Obeys.bind (build_obeys A hbuild) fun footer hsize => ?_
  have hblocks : 0 < blockCount size options.blockSize := by
    change size.toNat ≠ 0 at hsize
    unfold blockCount
    refine Nat.div_pos ?_ ?_ <;> omega
  have hentries : 0 < tableSize := by
    change blockCount size options.blockSize * 4 ≤ tableSize at htable
    omega
  refine Obeys.bind (minds_ask A id) fun _ _ => ?_
  refine Obeys.bind (minds_write A (by decide) _ _) fun _ _ => ?_
  refine Obeys.bind (minds_write A (by decide) _ _) fun _ _ => ?_
  refine Obeys.bind (minds_write A hentries _ _) fun _ _ => ?_
  exact Obeys.bind (minds_write A (by decide) _ _) fun _ _ => ofDisk_obeys A false

omit A in
theorem checkedGeometry_minds {options : CreateOptions}
    (checked : ∀ e, options.checkedGeometry = .error e → cause e) :
    (liftM options.checkedGeometry : Access ι Geometry).Minds P cause := by
  refine obeys_liftExcept.mpr ?_
  cases hgeometry : options.checkedGeometry with
  | error e => exact checked e hgeometry
  | ok geometry => trivial

theorem createFixed_obeys {options : CreateOptions}
    (checked : ∀ e, options.checkedGeometry = .error e → cause e) :
    (createFixed disk options).Obeys P (Heeds BlockMap.HasBitmap) cause := by
  refine Obeys.bind (checkedGeometry_minds checked) fun geometry _ => ?_
  generalize hbuild : Footer.build _ = built
  refine Obeys.bind (build_obeys A hbuild) fun footer _ => ?_
  refine Obeys.bind (minds_ask A id) fun _ _ => Obeys.bind (minds_ask A id) fun _ _ => ?_
  exact Obeys.bind (minds_write A (by decide) _ _) fun _ _ => ofDisk_obeys A false

theorem createDynamic_obeys {options : CreateOptions}
    (checked : ∀ e, options.checkedGeometry = .error e → cause e) :
    (createDynamic disk options).Obeys P (Heeds BlockMap.HasBitmap) cause :=
  Obeys.bind (checkedGeometry_minds checked) fun _ _ => createWithBlocks_obeys A options _ _ _ _

end Image

end Disk

namespace Creation

variable {κ : Type}

/-- The geometry is that of the options, or derived from their size. -/
def ChecksGeometry : Creation κ → Prop
  | fixed => True
  | dynamic => True
  | differencing _ => False

/-- An image is created without empty writes, and has bitmaps. -/
theorem create_obeys {P : Protocol ι} {disk : ι} {cause : Error → Prop} (A : P.Allows disk cause)
    (creation : Creation κ) {options : CreateOptions}
    (checked : creation.ChecksGeometry → ∀ e, options.checkedGeometry = .error e → cause e) :
    (creation.create disk options).Obeys P (Image.Heeds BlockMap.HasBitmap) cause := by
  cases creation with
  | fixed => exact Image.createFixed_obeys A (checked trivial)
  | dynamic => exact Image.createDynamic_obeys A (checked trivial)
  | differencing parent => exact Image.createWithBlocks_obeys A options _ _ _ _

end Creation

end VirtualDisk
