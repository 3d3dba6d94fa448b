import VirtualDisk.Proofs.Image.Flat
import VirtualDisk.Proofs.Image.Growing
import VirtualDisk.Proofs.Storage.SameBytes
import VirtualDisk.Proofs.Storage.Shelf

/-!
# Replacing what a storage holds

A new image replaces what its storage held, and what was written is opened like any other image. All
demands on the options are looked at before anything is changed: the first that is not met is
reported, and the storage is as it was. Options that meet them all are accepted as long as what is
written fits: the footer of a fixed image into the positions of a storage, the table of an image
with blocks into the limits for tables, and the geometry of a parent into the blocks of its child.
What does not fit is noticed only when it is written or opened, and by then the old content is gone.
-/

namespace VirtualDisk

open Storage

variable {ι κ : Type}

/-- A way to create an image. -/
inductive Creation (κ : Type) where
  | fixed
  | dynamic
  | differencing (parent : Image κ)

namespace Creation

/-- The creation. -/
def create (disk : ι) (options : CreateOptions) : Creation κ → Access ι (Image ι)
  | fixed => Image.createFixed disk options
  | dynamic => Image.createDynamic disk options
  | differencing parent => Image.createDifferencing disk parent options

/-- What is asked of the options, in the order of the checks. -/
def demands (options : CreateOptions) : Creation κ → List Demand
  | fixed => options.geometryDemands
  | dynamic => options.geometryDemands ++ blockDemands options.size options.blockSize
  | differencing parent => blockDemands parent.footer.currentSize options.blockSize

/-- What is written fits. The geometry of a parent may ask for more sectors than its size has, those
among the options may not. -/
def Fits (options : CreateOptions) : Creation κ → Prop
  | fixed => options.size.toNat + 512 < 2 ^ 64
  | dynamic => blockCount options.size options.blockSize * 4 ≤ BlockTable.maxBytes
  | differencing parent =>
    Loadable parent.footer.currentSize options.blockSize parent.footer.geometry

/-- A creation blames the first demand that is not met and leaves the content as it was. Where all
are met, it replaces the content by one that is opened as the new image. -/
structure Replaces (disk : ι) (prior : Content) (demands : List Demand)
    (result : Except Error (Image ι)) (content : Content) : Prop where
  answers : Answers demands
    (fun image => (Image.ofDisk disk false).runOn sole content = (.ok image, content)) result
  keeps : ∀ e, result = .error e → content = prior

variable {disk : ι} {prior content : Content} {demands : List Demand} {image : Image ι} {e : Error}

theorem Replaces.of_met (met : ∀ demand ∈ demands, demand.met)
    (opens : (Image.ofDisk disk false).runOn sole content = (.ok image, content)) :
    Replaces disk prior demands (.ok image) content := by
  refine ⟨⟨fun other => ?_, fun e => ?_⟩, nofun⟩
  · rw [opens, Prod.mk.injEq, and_iff_left rfl, and_iff_right met]
  · exact ⟨nofun, fun first => absurd met first.not_forall_met⟩

theorem Replaces.of_firstUnmet (first : FirstUnmet demands e) :
    Replaces disk prior demands (.error e) prior := by
  refine ⟨⟨fun image => ⟨nofun, fun h => absurd h.1 first.not_forall_met⟩, fun other => ?_⟩,
    fun _ _ => rfl⟩
  rw [Except.error.injEq]
  exact ⟨fun he => he ▸ first, fun hother => first.unique hother⟩

theorem Replaces.of_run {access : Access ι (Image ι)} {result : Except Error (Image ι)}
    (refused : ∀ e, FirstUnmet demands e → access.runOn sole prior = (.error e, prior))
    (accepted : (∀ demand ∈ demands, demand.met) → ∃ image content,
      access.runOn sole prior = (.ok image, content) ∧
        (Image.ofDisk disk false).runOn sole content = (.ok image, content))
    (run : access.runOn sole prior = (result, content)) :
    Replaces disk prior demands result content := by
  obtain met | ⟨e, first⟩ := forall_met_or_firstUnmet demands
  · obtain ⟨image, content', hrun, opens⟩ := accepted met
    rw [hrun] at run
    cases run
    exact .of_met met opens
  · rw [refused e first] at run
    cases run
    exact .of_firstUnmet first

end Creation

namespace Image

variable {disk : ι} {options : CreateOptions} {prior content : Content} {image : Image ι}

theorem NewFlat.reopen (h : NewFlat disk image content) :
    (ofDisk disk false).runOn sole content = (.ok image, content) := by
  have readable := Setting.readable_free disk False fun _ => True
  obtain ⟨found, content', hrun, rfl, rfl⟩ :=
    (ofDisk_ensures_flat readable h.stored h.size_lt false).runOn_sole_ok (fun _ => trivial)
      fun _ _ hfailed => hfailed.1
  rw [Setting.disk_free] at hrun
  rw [← h.eq_flat] at hrun
  exact hrun

theorem covered_of_checkedGeometry {geometry : Geometry}
    (checked : options.checkedGeometry = .ok geometry) (hzero : options.blockSize.toNat ≠ 0)
    (haligned : options.blockSize.toNat % 512 = 0) :
    geometry.totalSectors ≤
      blockCount options.size options.blockSize * (options.blockSize.toNat / 512) := by
  obtain ⟨-, hle, -⟩ := CreateOptions.of_checkedGeometry checked
  have hdiv : options.size.toNat + options.blockSize.toNat - 1 <
      blockCount options.size options.blockSize * options.blockSize.toNat +
        options.blockSize.toNat := Nat.lt_div_mul_add (Nat.pos_of_ne_zero hzero)
  have hsectors : blockCount options.size options.blockSize * options.blockSize.toNat =
      blockCount options.size options.blockSize * (options.blockSize.toNat / 512) * 512 := by
    rw [Nat.mul_assoc, Nat.div_mul_cancel (Nat.dvd_of_mod_eq_zero haligned)]
  omega

theorem of_runOn_createFixed
    (run : (createFixed disk options).runOn sole prior = (.ok image, content)) :
    ∃ geometry footer, options.checkedGeometry = .ok geometry ∧
      Footer.build (options.footerFields 0xffffffffffffffff options.size geometry .fixed) =
        .ok footer ∧ options.size.toNat + 512 < 2 ^ 64 ∧
      (ofDisk disk false).runOn sole (((prior.resize 0).resize options.size.toNat).write
        options.size.toNat footer.raw) = (.ok image, content) := by
  obtain ⟨geometry, _, hchecked, hbuild⟩ := Access.of_runOn_bind run
  obtain ⟨hgeometry, rfl⟩ := Prod.mk.inj hchecked
  obtain ⟨footer, _, hbuilt, hresize⟩ := Access.of_runOn_bind hbuild
  obtain ⟨hfooter, rfl⟩ := Prod.mk.inj hbuilt
  obtain ⟨_, _, hempty, hgrow⟩ := Access.of_runOn_bind hresize
  cases hempty
  obtain ⟨_, _, hgrown, hwrite⟩ := Access.of_runOn_bind hgrow
  cases hgrown
  obtain ⟨_, _, hwritten, hopen⟩ := Access.of_runOn_bind hwrite
  obtain ⟨rfl, hfits⟩ := Access.of_runOn_write hwritten
  exact ⟨geometry, footer, hgeometry, hfooter, hfits, hopen⟩

section WithBlocks

variable {size : UInt64} {geometry : Geometry} {diskType : DiskType} {parent : ParentRecord}

/-- Sizes that are refused are refused at once. -/
theorem runOn_createWithBlocks_of_firstUnmet {e : Error}
    (first : FirstUnmet (blockDemands size options.blockSize) e) :
    (createWithBlocks disk options size geometry diskType parent).runOn sole prior =
      (.error e, prior) := by
  have hblocks : (size.toNat + options.blockSize.toNat - 1) / options.blockSize.toNat =
      blockCount size options.blockSize := rfl
  simp only [createWithBlocks, hblocks]
  rw [blockDemands, firstUnmet_cons, firstUnmet_cons, firstUnmet_cons] at first
  obtain ⟨hblock, rfl⟩ | ⟨hblock, ⟨hcount, rfl⟩ | ⟨hcount, ⟨hsize, rfl⟩ | ⟨-, hnil⟩⟩⟩ := first
  · rw [if_pos (not_wholeSectors_iff.mpr hblock)]
    rfl
  · rw [if_neg fun hnot => not_wholeSectors_iff.mp hnot hblock, if_pos (Nat.not_lt.mp hcount)]
    rfl
  · have hlt : blockCount size options.blockSize < 2 ^ 32 := hcount
    have hbuild := Footer.build_eq_error
      (options.footerFields (UInt64.ofNat headerPosition) size geometry diskType) hsize
    rw [if_neg fun hnot => not_wholeSectors_iff.mp hnot hblock, if_neg (Nat.not_le.mpr hlt),
      hbuild, Sector.align_eq (by omega)]
    rfl
  · exact absurd hnil not_firstUnmet_nil

theorem exists_createWithBlocks (hkind : diskType ≠ .fixed)
    (met : ∀ demand ∈ blockDemands size options.blockSize, demand.met)
    (fits : Loadable size options.blockSize geometry) (disk : ι) (prior : Content) :
    ∃ image content,
      (createWithBlocks disk options size geometry diskType parent).runOn sole prior =
        (.ok image, content) ∧ (ofDisk disk false).runOn sole content = (.ok image, content) := by
  simp only [blockDemands, List.forall_mem_cons] at met
  obtain ⟨hblock, -, hsize, -⟩ := met
  have creatable : Creatable size options.blockSize geometry :=
    ⟨hsize.1, hsize.2, hblock.1, hblock.2, fits.table_le, fits.covered⟩
  obtain ⟨image, content, hrun, hnew⟩ :=
    (createWithBlocks_ensures (S := Setting.free disk False fun _ => True) (fun _ _ => trivial)
      options size geometry hkind parent prior).runOn_sole_ok (fun _ => trivial)
        fun _ _ hfailed => hfailed.mayFail creatable fits
  exact ⟨image, content, hrun, hnew.reopen hkind⟩

end WithBlocks

theorem runOn_checkedGeometry_of_firstUnmet {e : Error}
    (first : FirstUnmet options.geometryDemands e) (next : Geometry → Access ι (Image ι)) :
    (liftM options.checkedGeometry >>= next : Access ι (Image ι)).runOn sole prior =
      (.error e, prior) := by
  have hchecked := ((CreateOptions.checkedGeometry_answers rfl).error_iff e).mpr first
  rw [hchecked]
  rfl

end Image

/-- The first demand on the options that is not met is reported, and the storage is as it was,
whatever would have been written. -/
theorem Creation.runOn_create_of_firstUnmet {creation : Creation κ} {options : CreateOptions}
    {e : Error} (first : FirstUnmet (creation.demands options) e) (disk : ι) (prior : Content) :
    (creation.create disk options).runOn sole prior = (.error e, prior) := by
  cases creation with
  | fixed => exact Image.runOn_checkedGeometry_of_firstUnmet first _
  | dynamic =>
    obtain hgeometry | ⟨hmet, hblocks⟩ := firstUnmet_append.mp first
    · exact Image.runOn_checkedGeometry_of_firstUnmet hgeometry _
    · have checked := ((CreateOptions.checkedGeometry_answers rfl).ok_iff _).mpr ⟨hmet, rfl⟩
      rw [create, Image.createDynamic, checked]
      exact Image.runOn_createWithBlocks_of_firstUnmet hblocks
  | differencing parent => exact Image.runOn_createWithBlocks_of_firstUnmet first

theorem Creation.exists_create {creation : Creation κ} {options : CreateOptions}
    (met : ∀ demand ∈ creation.demands options, demand.met) (fits : creation.Fits options)
    (disk : ι) (prior : Content) :
    ∃ image content, (creation.create disk options).runOn sole prior = (.ok image, content) ∧
      (Image.ofDisk disk false).runOn sole content = (.ok image, content) := by
  cases creation with
  | fixed =>
    have checked := ((CreateOptions.checkedGeometry_answers rfl).ok_iff _).mpr ⟨met, rfl⟩
    obtain ⟨image, content, hrun, hnew⟩ := Image.exists_createFixed checked fits disk prior
    exact ⟨image, content, hrun, hnew.reopen⟩
  | dynamic =>
    obtain ⟨hgeometry, hblocks⟩ := List.forall_mem_append.mp met
    have checked := ((CreateOptions.checkedGeometry_answers rfl).ok_iff _).mpr ⟨hgeometry, rfl⟩
    have hblock : WholeSectors options.blockSize.toNat := hblocks _ List.mem_cons_self
    have covered := Image.covered_of_checkedGeometry checked hblock.1 hblock.2
    rw [create, Image.createDynamic, checked]
    exact Image.exists_createWithBlocks (by decide) hblocks ⟨fits, covered⟩ disk prior
  | differencing parent => exact Image.exists_createWithBlocks (by decide) met fits disk prior

/-- A creation succeeds only where all demands on the options are met and what is written fits. -/
theorem Creation.fits_of_create {creation : Creation κ} {disk : ι} {options : CreateOptions}
    {prior content : Content} {image : Image ι}
    (run : (creation.create disk options).runOn sole prior = (.ok image, content)) :
    (∀ demand ∈ creation.demands options, demand.met) ∧ creation.Fits options := by
  constructor
  · obtain met | ⟨e, first⟩ := forall_met_or_firstUnmet (creation.demands options)
    · exact met
    · cases (runOn_create_of_firstUnmet first disk prior).symm.trans run
  · cases creation with
    | fixed =>
      obtain ⟨-, -, -, -, hfits, -⟩ := Image.of_runOn_createFixed run
      exact hfits
    | dynamic =>
      obtain ⟨geometry, hnew⟩ := Image.newImage_of_createDynamic run
      exact hnew.creatable.table_le
    | differencing parent => exact (Image.newImage_of_createDifferencing run).creatable.loadable

/-- A creation succeeds if all demands on the options are met and what is written fits, and only
then. Where accepted options fit, a creation that fails leaves the storage as it was, and what is
left otherwise is opened as the new image. Nothing is asked of options that are refused. -/
theorem Creation.replaces_or_keeps {creation : Creation κ} {disk : ι} {options : CreateOptions}
    {prior content : Content} {result : Except Error (Image ι)}
    (run : (creation.create disk options).runOn sole prior = (result, content)) :
    ((∃ image, result = .ok image) ↔
      (∀ demand ∈ creation.demands options, demand.met) ∧ creation.Fits options) ∧
    (((∀ demand ∈ creation.demands options, demand.met) → creation.Fits options) →
      Replaces disk prior (creation.demands options) result content) := by
  refine ⟨⟨?_, ?_⟩, fun fits => ?_⟩
  · rintro ⟨image, rfl⟩
    exact fits_of_create run
  · rintro ⟨met, fits⟩
    obtain ⟨image, _, hrun, -⟩ := exists_create met fits disk prior
    exact ⟨image, congrArg Prod.fst (run.symm.trans hrun)⟩
  · exact .of_run (fun _ first => runOn_create_of_firstUnmet first disk prior)
      (fun met => exists_create met (fits met) disk prior) run

/-- One block more than a table has numbers for. -/
def CreateOptions.vast : CreateOptions :=
  { CreateOptions.small with size := 0x20000000000, blockSize := 512 }

theorem CreateOptions.firstUnmet_vast : FirstUnmet ((.dynamic : Creation κ).demands vast)
    (.invalidOption .tooManyBlocks) := by
  refine firstUnmet_append.mpr (.inr ⟨?_, ?_⟩)
  · have hsize : WholeSectors 0x20000000000 := by decide
    simpa [vast, geometryDemands, small, Geometry.totalSectors] using hsize
  · have hblock : WholeSectors vast.blockSize.toNat := by decide
    have hcount : ¬ blockCount vast.size vast.blockSize < 2 ^ 32 := by decide
    exact .later hblock (.here hcount)

/-- A small disk replaces three bytes. Options with more blocks than a table has numbers for, and a
child of the disk whose blocks have no size, do not fit and leave the bytes as they were. -/
theorem Creation.replaces_or_keeps_small : ∃ (prior content : Content) (image : Image Unit)
    (flat : CreateOptions),
    prior.size = 3 ∧
      (∀ demand ∈ (dynamic : Creation Unit).demands .small, demand.met) ∧
      (dynamic : Creation Unit).Fits .small ∧
      ((dynamic : Creation Unit).create () .small).runOn sole prior = (.ok image, content) ∧
      Replaces () prior ((dynamic : Creation Unit).demands .small) (.ok image) content ∧
      ¬ (dynamic : Creation Unit).Fits .vast ∧
      ((dynamic : Creation Unit).create () .vast).runOn sole prior =
        (.error (.invalidOption .tooManyBlocks), prior) ∧
      Replaces () prior ((dynamic : Creation Unit).demands .vast)
        (.error (.invalidOption .tooManyBlocks) : Except Error (Image Unit)) prior ∧
      ¬ (differencing image).Fits flat ∧
      ((differencing image).create () flat).runOn sole prior =
        (.error (.invalidOption .blockSize), prior) ∧
      Replaces () prior ((differencing image).demands flat)
        (.error (.invalidOption .blockSize) : Except Error (Image Unit)) prior := by
  let prior : Content := Content.empty.write 0 (Bytes.replicate 3 0x55)
  let flat : CreateOptions := { CreateOptions.small with blockSize := 0 }
  obtain ⟨image, content, created, hnew⟩ := Image.exists_createDynamic
    CreateOptions.checkedGeometry_small creatable_small () prior
  have created' : ((dynamic : Creation Unit).create () .small).runOn sole prior = _ := created
  have met : ∀ demand ∈ (dynamic : Creation Unit).demands .small, demand.met := by
    have hsize : WholeSectors 8192 := by decide
    have hblock : WholeSectors 4096 := by decide
    have hcount : blockCount 8192 4096 < 2 ^ 32 := by decide
    simpa [demands, CreateOptions.geometryDemands, blockDemands, CreateOptions.small,
      Geometry.totalSectors, hsize, hblock] using hcount
  have fits : (dynamic : Creation Unit).Fits .small := creatable_small.table_le
  have large : ¬ blockCount CreateOptions.vast.size CreateOptions.vast.blockSize * 4 ≤
      BlockTable.maxBytes := by decide
  have tooMany : FirstUnmet ((dynamic : Creation Unit).demands .vast) _ :=
    CreateOptions.firstUnmet_vast
  have refusedVast := runOn_create_of_firstUnmet tooMany () prior
  have bare : ¬ (differencing image).Fits flat := by
    rintro ⟨-, hcovered⟩
    have hgeometry : image.footer.geometry = ⟨16, 1, 1⟩ := hnew.readAs.geometry
    have hzero : flat.blockSize.toNat / 512 = 0 := show (0 : UInt32).toNat / 512 = 0 by decide
    rw [hgeometry, hzero, Nat.mul_zero] at hcovered
    exact absurd hcovered (by decide)
  have shapeless : FirstUnmet ((differencing image).demands flat) (.invalidOption .blockSize) :=
    .here (show ¬ WholeSectors 0 by decide)
  have refusedFlat := runOn_create_of_firstUnmet shapeless () prior
  exact ⟨prior, content, image, flat, rfl, met, fits, created,
    (replaces_or_keeps created').2 fun _ => fits, large, refusedVast,
    (replaces_or_keeps refusedVast).2 fun met => absurd met tooMany.not_forall_met, bare,
    refusedFlat,
    (replaces_or_keeps refusedFlat).2 fun met => absurd met shapeless.not_forall_met⟩

variable [DecidableEq ι]

namespace Image

theorem bounded_createFixed (disk : ι) (options : CreateOptions) :
    (createFixed disk options).Bounded := by
  refine Access.bounded_result_bind fun geometry => ?_
  generalize Footer.build _ = built
  refine Access.bounded_result_bind fun footer => ?_
  refine Access.bounded_empty_bind (Access.bounded_resize_bind ?_)
  exact Access.grows_bind (Access.grows_ask _ trivial) fun _ => grows_ofDisk disk false

theorem bounded_createWithBlocks (disk : ι) (options : CreateOptions) (size : UInt64)
    (geometry : Geometry) (diskType : DiskType) (parent : ParentRecord) :
    (createWithBlocks disk options size geometry diskType parent).Bounded := by
  simp only [createWithBlocks]
  split
  · exact Access.bounded_throw_bind
  split
  · exact Access.bounded_throw_bind
  refine Access.bounded_result_bind fun tableSize => ?_
  generalize Footer.build _ = built
  refine Access.bounded_result_bind fun footer => ?_
  refine Access.bounded_empty_bind (Access.Grows.bounded ?_)
  have hask : ∀ (position : Nat) {n : Nat} (data : Bytes n),
      (Access.write disk position data).Grows := fun _ _ _ => Access.grows_ask _ trivial
  exact Access.grows_bind (hask _ _) fun _ => Access.grows_bind (hask _ _) fun _ =>
    Access.grows_bind (hask _ _) fun _ => Access.grows_bind (hask _ _) fun _ =>
      grows_ofDisk disk false

theorem bounded_createDynamic (disk : ι) (options : CreateOptions) :
    (createDynamic disk options).Bounded :=
  Access.bounded_result_bind fun _ => bounded_createWithBlocks disk options _ _ _ _

end Image

/-- A creation empties the storage before it grows it. -/
theorem Creation.bounded_create (creation : Creation κ) (disk : ι)
    (options : CreateOptions) : (creation.create disk options).Bounded := by
  cases creation with
  | fixed => exact Image.bounded_createFixed disk options
  | dynamic => exact Image.bounded_createDynamic disk options
  | differencing parent => exact Image.bounded_createWithBlocks disk options _ _ _ _

end VirtualDisk
