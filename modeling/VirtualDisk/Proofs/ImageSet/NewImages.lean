import VirtualDisk.Proofs.Image.Layout
import VirtualDisk.Proofs.ImageSet.Plain

/-!
# What creating and opening agree on

What is laid out for a new image is what is found when it is opened. The image is as it was asked
for and holds no sector: it reads as zeros, and in a set it reads as its parent.
-/

namespace VirtualDisk

open Storage

variable {ι κ : Type} [DecidableEq ι]

namespace ImageSet

variable {set set' : ImageSet ι} {contents contents' : ι → Content} {member : Member ι}
variable {id sector offset count number parent : Nat} {buffer : ByteArray}

theorem exists_resolve_parent (hmember : set.member id = .ok member)
    (hkind : member.image.diskType = .differencing) (inside : sector < member.image.totalSectors)
    (missing : set.Finds contents
      (onImage id (Image.onBlocks fun disk => BlockMap.holds disk sector)) (.ok false))
    (hparent : member.parent = some parent) (below : parent < id)
    (twin : set.Twin set' contents) :
    ∃ set₂, set.Twin set₂ contents ∧ (resolve sector id).runOn shelf set' contents =
      (resolve sector parent).runOn shelf set₂ contents := by
  obtain ⟨image, hmember', -, htwin⟩ := twin.members id member hmember
  obtain ⟨set₂, twin₂, hmissing⟩ := missing set' twin
  have hask : ¬ (image.diskType ≠ .differencing ∨ image.totalSectors ≤ sector) := by
    rw [htwin.diskType_eq, htwin.totalSectors_eq]
    exact fun hask => hask.elim (absurd hkind) (Nat.not_le.mpr inside)
  refine ⟨set₂, twin₂, ?_⟩
  rw [resolve, Engine.runOn_bind_ok (Engine.runOn_get ..), hmember',
    Engine.runOn_bind_ok (Engine.runOn_liftExcept ..)]
  dsimp only
  rw [if_neg hask, Engine.runOn_bind_ok hmissing, if_neg Bool.false_ne_true]
  simp only [hparent, dif_pos below]

/-- What is found of a sector in the parent is found in an image that does not hold it. -/
theorem Finds.of_parent {bytes : Sector}
    (h : set.Finds contents (readSector parent sector) (.ok bytes))
    (hmember : set.member id = .ok member) (hkind : member.image.diskType = .differencing)
    (inside : sector < member.image.totalSectors)
    (missing : set.Finds contents
      (onImage id (Image.onBlocks fun disk => BlockMap.holds disk sector)) (.ok false))
    (hparent : member.parent = some parent) (below : parent < id) :
    set.Finds contents (readSector id sector) (.ok bytes) := by
  intro set' twin
  obtain ⟨set₂, twin₂, hresolve⟩ :=
    exists_resolve_parent hmember hkind inside missing hparent below twin
  obtain ⟨set₃, twin₃, hrun⟩ := h set₂ twin₂
  refine ⟨set₃, twin₃, ?_⟩
  rw [readSector, Engine.runOn_bind] at hrun ⊢
  rw [hresolve]
  exact hrun

theorem holds_finds_false (hmember : set.member id = .ok member)
    (hheld : member.image.HoldsWritten (contents member.image.disk) fun _ => none)
    (hkind : member.image.diskType ≠ .fixed) (inside : sector < member.image.totalSectors) :
    set.Finds contents (onImage id (Image.onBlocks fun disk => BlockMap.holds disk sector))
      (.ok false) := by
  obtain ⟨map, hmap⟩ := Image.exists_blocks_iff.mpr hkind
  obtain ⟨found, image', content', hrun, ⟨hfound, -⟩, -⟩ :=
    (hheld.holds_ensures (S := .free member.image.disk False fun _ => True) (fun _ _ => trivial) rfl
      hkind inside).runOn_sole_ok
        (Image.grows_onBlocks fun disk => BlockMap.grows_holds disk sector)
        (fun _ _ => trivial) fun _ _ _ hfailed => hfailed
  have hfinds : set.Finds contents
      (onImage id (Image.onBlocks fun disk => BlockMap.holds disk sector)) _ :=
    finds_onImage hmember
      (fun _ exact => Image.holds_keeps_exact Protocol.watching_reads exact sector)
      fun _ htwin => htwin.runOn_holds hmap sector
  rw [hrun, hfound] at hfinds
  exact hfinds

theorem runOn_readChain_of_runOn_read (exact : set.Exact contents) {result : ReadResult}
    (run : (read id offset count buffer).runOn shelf set contents =
      ((.ok result, set'), contents')) :
    (readChain id offset count buffer).runOn shelf set contents =
      ((.ok result, set'), contents') := by
  rw [read, Engine.runOn_bind_ok (Engine.runOn_get ..)] at run
  obtain ⟨image, _, _, himage, hread⟩ := Engine.of_runOn_bind run
  obtain ⟨hfound, rfl, rfl⟩ := Engine.of_runOn_liftExcept himage
  obtain ⟨member, hmember, rfl⟩ := exists_of_image hfound
  split at hread
  · exact hread
  · rw [runOn_onImage hmember] at hread
    generalize hrun : (Image.read offset count buffer).runOn shelf member.image _ = outcome at hread
    obtain ⟨⟨found, image'⟩, _⟩ := outcome
    cases hread
    obtain ⟨rfl, hchain⟩ := runOn_readChain_of_read hmember (exact id member hmember) hrun
    exact hchain

/-- What a successful read of the parent returns is read from a child to which nothing was
written. -/
theorem Exact.exists_read_of_parent (exact : set.Exact contents) {result : ReadResult}
    {parent' : Member ι} (hmember : set.member id = .ok member)
    (hheld : member.image.HoldsWritten (contents member.image.disk) fun _ => none)
    (hkind : member.image.diskType = .differencing) (hparent : member.parent = some parent)
    (below : parent < id) (hmember' : set.member parent = .ok parent')
    (htotal : parent'.image.totalSectors = member.image.totalSectors)
    (run : (read parent offset count buffer).runOn shelf set contents =
      ((.ok result, set'), contents')) :
    ∃ set₂, (read id offset count buffer).runOn shelf set contents =
      ((.ok result, set₂), contents) := by
  obtain ⟨-, -, holds, found, hfound, htruncated, hfinds, hshows⟩ :=
    exact.of_readChain (runOn_readChain_of_runOn_read exact run)
  obtain rfl := Except.ok.inj (hmember'.symm.trans hfound)
  have htransfer : parent'.image.transfer offset count = member.image.transfer offset count := by
    rw [Image.transfer, Image.transfer, htotal]
  rw [htransfer] at htruncated hfinds hshows
  have hown : ∀ k, k < member.image.transfer offset count → set.Finds contents
      (readSector id (offset + k)) (.ok (set.shown contents parent (offset + k))) := by
    intro k hk
    have inside : offset + k < member.image.totalSectors := by
      rw [Image.transfer] at hk
      omega
    have hblocks : member.image.diskType ≠ .fixed := by
      intro hfixed
      cases hkind.symm.trans hfixed
    exact (hfinds k hk).of_parent hmember hkind inside
      (holds_finds_false hmember hheld hblocks inside) hparent below
  obtain ⟨buffer', hchain, hshows'⟩ := exists_readChain_finds hmember holds hown
  have hslots := member.image.transfer_slots offset holds
  obtain rfl : result = ⟨_, buffer'⟩ :=
    (ReadResult.mk.injEq ..).mpr ⟨htruncated, hshows.unique hshows' (by lia)⟩
  obtain ⟨set₂, -, hread⟩ := hchain set exact.twin
  refine ⟨set₂, ?_⟩
  rw [read, Engine.runOn_bind_ok (Engine.runOn_get ..), image_eq_ok hmember,
    Engine.runOn_bind_ok (Engine.runOn_liftExcept ..), if_pos hkind]
  exact hread

end ImageSet

namespace Image

/-- On top of a member of a set that has as many sectors as the parent, the image reads as that
member. -/
def ReadsAs (image : Image ι) (parent : Image κ) (content : Content) : Prop :=
  ∀ (set set' set₁ : ImageSet ι) (contents contents' : ι → Content) (id number : Nat)
    (found : Image ι), set.Exact contents → contents image.disk = content →
    set.image number = .ok found → found.totalSectors = parent.totalSectors →
    set.insertDifferencing image number = .ok (id, set') →
    ∀ (offset count : Nat) (buffer : ByteArray) (result : ReadResult),
      (ImageSet.read number offset count buffer).runOn shelf set' contents =
        ((.ok result, set₁), contents') →
      ∃ set₂, (ImageSet.read id offset count buffer).runOn shelf set' contents =
        ((.ok result, set₂), contents)

end Image

namespace Creation

variable {creation : Creation κ} {options : CreateOptions} {disk : ι} {prior content : Content}
variable {image : Image ι}

theorem readsAs_of_create {parent : Image κ}
    (run : ((differencing parent).create disk options).runOn sole prior = (.ok image, content)) :
    image.ReadsAs parent content := by
  rintro set set' set₁ contents contents' id number found exact rfl hfound htotal hinsert
    offset count buffer result hrun
  have hdescribes := describes_of_create run
  have hheld := holdsWritten_of_create run
  have hkind : (differencing parent).diskType ≠ .fixed := by
    intro hfixed
    cases hfixed
  obtain ⟨geometry, hnew⟩ := newImage_of_create hkind run
  obtain ⟨-, rfl, rfl⟩ := ImageSet.of_insertDifferencing hinsert
  obtain ⟨member, hmember, rfl⟩ := ImageSet.exists_of_image hfound
  have hbelow := ImageSet.lt_size hmember
  have exact' := exact.push (hnew.exact hkind) (some number)
  have hmember' : (set.push image (some number)).2.member number = .ok member :=
    (ImageSet.member_push_of_ne (Nat.ne_of_lt hbelow)).trans hmember
  refine exact'.exists_read_of_parent ImageSet.member_push_self hheld hdescribes.diskType_eq rfl
    hbelow hmember' ?_ hrun
  rw [htotal, Image.totalSectors, Image.totalSectors, hdescribes.geometry_eq]
  rfl

/-- A new image is as it was asked for, and its storage is known to the last byte. No block is
allocated and the table has one for every sector, so the image reads as zeros, or as its parent.
What was created is what is opened, in either mode. -/
theorem lays_out_and_opens
    (parents : ∀ parent, creation = .differencing parent → parent.Created)
    (run : (creation.create disk options).runOn sole prior = (.ok image, content)) :
    image.totalSectors * 512 ≤ image.footer.currentSize.toNat ∧
    creation.Describes options image ∧ creation.LaysOut options content ∧
    creation.Vacant options image ∧
    (image.diskType ≠ .differencing → image.ReadsZeros content) ∧
    (∀ parent, creation = .differencing parent → image.ReadsAs parent content) ∧
    ∀ readOnly, (Image.ofDisk disk readOnly).runOn sole content =
      (.ok { image with readOnly }, content) := by
  have hdescribes := describes_of_create run
  refine ⟨sectors_le run fun parent hparent => (parents parent hparent).sectors_le, hdescribes,
    laysOut_of_create run, vacant_of_create run, ?_, ?_, runOn_ofDisk_of_create run⟩
  · intro hkind
    exact readsZeros_of_create (hdescribes.diskType_eq ▸ hkind) run
  · rintro parent rfl
    exact readsAs_of_create run

/-- A differencing image with the size of its dynamic parent. -/
theorem lays_out_and_opens_small : ∃ (parent : Image Bool) (child : Image Bool) (top : Content),
    parent.Created ∧
    ((differencing parent).create true .small).runOn sole .empty = (.ok child, top) ∧
    child.totalSectors * 512 ≤ child.footer.currentSize.toNat ∧
    (differencing parent).LaysOut .small top := by
  obtain ⟨parent, base, hparent, hnew⟩ := Image.exists_createDynamic
    CreateOptions.checkedGeometry_small creatable_small false .empty
  have hparent' : ((dynamic : Creation Bool).create false .small).runOn sole .empty =
      (.ok parent, base) := hparent
  have hcreated : parent.Created := .create (fun _ hother => by cases hother) hparent'
  have creatable : Creatable parent.footer.currentSize CreateOptions.small.blockSize
      parent.footer.geometry := by
    rw [hnew.readAs.currentSize, hnew.readAs.geometry]
    exact creatable_small
  obtain ⟨child, top, hchild, -⟩ := Image.exists_createDifferencing creatable true .empty
  have hchild' : ((differencing parent).create true .small).runOn sole .empty =
      (.ok child, top) := hchild
  have parents : ∀ other, differencing parent = .differencing other → other.Created := by
    rintro other hother
    cases hother
    exact hcreated
  obtain ⟨hsize, -, hlaid, -⟩ := lays_out_and_opens parents hchild'
  exact ⟨parent, child, top, hcreated, hchild', hsize, hlaid⟩

end Creation

end VirtualDisk
