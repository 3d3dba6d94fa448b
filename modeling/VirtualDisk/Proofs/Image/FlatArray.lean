import VirtualDisk.Proofs.Storage.Servers
import VirtualDisk.Proofs.Image.Creation
import VirtualDisk.Proofs.Image.Operations

/-!
# A dynamic image is an array of sectors

Whatever is done with a dynamic image on a sound storage, it behaves like an array of sectors that
begins with zeros: no operation fails, and every read shows what was written last. Where the
sectors are stored, which bitmap is cached and whether the image was flushed before it was opened
again makes no difference. The storage only has to have room for all blocks.
-/

namespace VirtualDisk

open Storage

variable {ι : Type}

/-- On a sound storage the acts succeed one after the other, and all of them return what they return
for an array of `total` sectors, whose sectors to begin with are those of the view. -/
def Behaves (total : Nat) : (view : Nat → Sector) → List Act → Image ι → Content → Prop
  | _, [], _, _ => True
  | view, act :: acts, image, content => ∃ answer image' content',
    act.engine.runOn sole image content = ((.ok answer, image'), content') ∧
      act.Answered total view answer ∧ Behaves total (act.after total view) acts image' content'

namespace Image

variable {footer : Footer} {map : BlockMap} {content : Content}

/-- With room for all blocks an act succeeds and leaves room for all blocks. -/
theorem runOn_act (disk : ι) (hkind : footer.diskType = .dynamic)
    (h : SealedWithRoom footer map content)
    (clean : map.bitmap.dirty = false) {act : Act} (valid : act.Valid) :
    ∃ answer map' content',
      act.engine.runOn sole (writable disk footer map) content =
        ((.ok answer, writable disk footer map'), content') ∧
      act.Answered footer.geometry.totalSectors (map.shown content) answer ∧
      map'.shown content' = act.after footer.geometry.totalSectors (map.shown content) ∧
      map'.bitmap.dirty = false ∧ SealedWithRoom footer map' content' := by
  have T : Terms (Setting.free disk False fun _ => True) footer (fun _ _ => True)
      (SealedWithRoom footer) :=
    .of_sealedWithRoom fun _ _ => trivial
  have hne : footer.diskType ≠ .fixed := ne_of_eq_of_ne hkind (by decide)
  have supported : act.Supported footer.diskType := act.supported_dynamic hkind
  obtain ⟨answer, image', content', hrun, map', rfl, hanswer, hshown, hclean, hadvance⟩ :=
    (Act.ensures T SealedWithRoom.spacious (fun _ => h.size_lt) hne h clean act).runOn_sole_ok
      act.grows_engine (fun _ _ => trivial) fun _ _ _ hfailed => hfailed supported valid
  exact ⟨answer, map', content', hrun, hanswer, hshown, hclean, T.advance _ _ _ _ h hadvance⟩

theorem behaves_of_sealedWithRoom (disk : ι) (hkind : footer.diskType = .dynamic) (acts : List Act)
    (valid : ∀ act ∈ acts, act.Valid) {map : BlockMap} {content : Content}
    (h : SealedWithRoom footer map content) (clean : map.bitmap.dirty = false) :
    Behaves footer.geometry.totalSectors (map.shown content) acts (writable disk footer map)
      content := by
  induction acts generalizing map content with
  | nil => trivial
  | cons act acts ih =>
    obtain ⟨answer, map', content', hrun, hanswer, hshown, hclean, hsealedRoom⟩ :=
      runOn_act disk hkind h clean (valid act List.mem_cons_self)
    have hvalid : ∀ other ∈ acts, other.Valid :=
      fun other hother => valid other (List.mem_cons_of_mem _ hother)
    have hrest := ih hvalid hsealedRoom hclean
    rw [hshown] at hrest
    exact ⟨answer, _, content', hrun, hanswer, hrest⟩

namespace NewImage

variable {disk : ι} {options : CreateOptions} {size : UInt64} {geometry : Geometry}
variable {diskType : DiskType} {parent : ParentRecord} {image : Image ι}

theorem sealedWithRoom (h : NewImage disk options size geometry diskType parent image content)
    (room : metadataSectors (blockCount size options.blockSize) +
      blockCount size options.blockSize *
        ((newHeader options size parent).bitmapSectors +
          (newHeader options size parent).sectorsPerBlock + 5) < 2 ^ 32 - 1) :
    SealedWithRoom image.footer (.fresh (newHeader options size parent)
      (.blank tablePosition (blockCount size options.blockSize))) content := by
  refine ⟨h.consistent, h.isSealed, ?_⟩
  change content.size + (newHeader options size parent).allocationBytes *
    (BlockTable.blank tablePosition (blockCount size options.blockSize)).vacant ≤ sizeLimit
  rw [BlockTable.vacant_blank, h.size_eq, sizeLimit, BlockHeader.allocationBytes,
    BlockHeader.regionSectors_eq, BlockMap.fillerSectors]
  lia

end NewImage

/-- A dynamic image that was created on a sound storage, and whose storage has room for all blocks,
behaves like an array of zeros. -/
theorem createDynamic_behaves (disk : ι) (options : CreateOptions) (prior content : Content)
    (image : Image ι) (map : BlockMap) (acts : List Act)
    (created : (createDynamic disk options).runOn sole prior = (.ok image, content))
    (blocks : image.blocks? = some map)
    (room : metadataSectors map.table.size + map.table.size *
      (map.header.bitmapSectors + map.header.sectorsPerBlock + 5) < 2 ^ 32 - 1)
    (valid : ∀ act ∈ acts, act.Valid) :
    Behaves image.totalSectors (fun _ => Bytes.zero 512) acts image content := by
  obtain ⟨geometry, hnew⟩ := newImage_of_createDynamic created
  have hblocks := hnew.blocks?_eq (by decide)
  rw [blocks, Option.some.injEq] at hblocks
  subst hblocks
  have hkind : image.footer.diskType = .dynamic := hnew.readAs.diskType
  change metadataSectors (BlockTable.blank _ _).size + (BlockTable.blank _ _).size * _ < _ at room
  rw [BlockTable.size_blank] at room
  have hbehaves := behaves_of_sealedWithRoom disk hkind acts valid (hnew.sealedWithRoom room) rfl
  rw [hnew.shown_eq] at hbehaves
  rw [hnew.eq_opened]
  exact hbehaves

/-- On a small disk: a write that is cut at the end, which is read back after the storage was opened
again without a flush. -/
theorem createDynamic_behaves_small : ∃ image content map,
    (createDynamic () .small).runOn sole .empty = (.ok image, content) ∧
      image.blocks? = some map ∧ metadataSectors map.table.size + map.table.size *
        (map.header.bitmapSectors + map.header.sectorsPerBlock + 5) < 2 ^ 32 - 1 ∧
      Behaves image.totalSectors (fun _ => Bytes.zero 512)
        [.use (.write 15 2 (Bytes.replicate 1024 0x5a).toByteArray), .reopen,
          .use (.read 14 2 (Bytes.zero 1024).toByteArray)] image content := by
  obtain ⟨image, content, hrun, hnew⟩ :=
    exists_createDynamic CreateOptions.checkedGeometry_small creatable_small () .empty
  have hblocks := hnew.blocks?_eq (by decide)
  refine ⟨image, content, _, hrun, hblocks, by decide +kernel, ?_⟩
  refine createDynamic_behaves () .small .empty content image _ _ hrun hblocks (by decide +kernel)
    ?_
  intro act hact
  simp only [List.mem_cons, List.not_mem_nil, or_false] at hact
  have hholds : ∀ b : Bytes 1024, Buffer.Holds b.toByteArray.size 2 := fun b =>
    ⟨by decide, Nat.le_of_eq b.size_toByteArray.symm⟩
  obtain rfl | rfl | rfl := hact
  · exact hholds _
  · trivial
  · exact hholds _

end Image

end VirtualDisk
