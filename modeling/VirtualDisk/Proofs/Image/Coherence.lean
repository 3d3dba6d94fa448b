import VirtualDisk.Proofs.Blocks.Margins
import VirtualDisk.Proofs.Image.Caching
import VirtualDisk.Proofs.Image.Chronicle
import VirtualDisk.Proofs.Image.HoldsWritten
import VirtualDisk.Proofs.Image.Replacing

/-!
# The cached bitmap on a storage that may fail

Any call to the storage of an image with blocks may fail, without effect and with any error, and
the image goes on with the bitmap that it had cached. In every state this bitmap fits the storage.
Without changes it is, byte for byte, what is stored. With changes it has every bit that is stored,
and another bit only if the sector of the bit has been written and its bytes are in their place.
-/

namespace VirtualDisk

open Storage

variable {ι κ : Type}

/-- The cached bitmap goes with the bitmaps that are stored and with the record of what was
written. -/
structure BlockMap.CacheFits (map : BlockMap) (content : Content)
    (written : Nat → Option Sector) : Prop where
  /-- Without changes, and where its block is stored, it is the bitmap there. -/
  clean_stored : map.bitmap.dirty = false → ∀ block start, map.bitmap.block = some block →
    map.table.place? block = some start → map.bitmap.bytes =
      (content.read (start * 512) (map.header.bitmapSectors * 512)).toByteArray
  /-- Without changes, and where its block is not stored, it is all zeros. -/
  clean_vacant : map.bitmap.dirty = false → ∀ block, map.bitmap.block = some block →
    map.table.place? block = none →
      map.bitmap.bytes = (Bytes.zero (map.header.bitmapSectors * 512)).toByteArray
  /-- With changes it is that of a stored block. It has all bits that are stored, and a bit that is
  not stored is that of a sector whose bytes are. -/
  dirty : map.bitmap.dirty = true → ∃ block start,
    map.bitmap.block = some block ∧ map.table.place? block = some start ∧
    (∀ i, i / 8 < map.header.bitmapSectors * 512 → content.bit (start * 512) i = true →
      map.bitmap.test i = true) ∧
    ∀ i, map.bitmap.test i = true → content.bit (start * 512) i = false →
      written (block * map.header.sectorsPerBlock + i) =
        some (content.read (map.dataPlace start i) 512)
  /-- No bit behind those of the sectors of a block is set in the cache. -/
  cached_margin : ∀ i, map.header.sectorsPerBlock ≤ i → map.bitmap.test i = false
  /-- No such bit is set in a bitmap that is stored. -/
  stored_margin : ∀ block start i, map.table.place? block = some start →
    map.header.sectorsPerBlock ≤ i → i / 8 < map.header.bitmapSectors * 512 →
      content.bit (start * 512) i = false

namespace BlockCall

/-- The call is one on an open image, and a sector that is looked up is one of the disk. -/
def Suits (total : Nat) : BlockCall → Prop
  | look sector => sector < total
  | reopen _ => False
  | _ => True

/-- The number of sectors that are written to a disk of `total` sectors. -/
def transfer (total : Nat) : BlockCall → Nat
  | use (.write offset count _) => min count (total - offset)
  | writeBlocks offset count _ => min count (total - offset)
  | _ => 0

/-- The record of what was written after the first `count` sectors of the call were. -/
def upTo (count : Nat) (written : Nat → Option Sector) : BlockCall → Nat → Option Sector
  | use (.write offset _ buffer) => Buffer.record buffer offset count written
  | writeBlocks offset _ buffer => Buffer.record buffer offset count written
  | _ => written

theorem grows_engine (call : BlockCall) : (call.engine : Engine ι (Image ι) BlockReply).Grows := by
  cases call with
  | use op => exact Engine.grows_bind op.grows_engine fun _ => Engine.grows_pure _
  | look sector =>
    exact Engine.grows_bind (Image.grows_onBlocks fun disk => BlockMap.grows_holds disk sector)
      fun _ => Engine.grows_pure _
  | readBlocks offset count buffer =>
    exact Engine.grows_bind (Image.grows_readBlocks _ _ _) fun _ => Engine.grows_pure _
  | writeBlocks offset count buffer =>
    exact Engine.grows_bind (Image.grows_writeBlocks _ _ _) fun _ => Engine.grows_pure _
  | reopen readOnly =>
    refine Engine.grows_bind (Engine.grows_bind Engine.grows_get fun image => ?_) fun _ =>
      Engine.grows_pure _
    exact Engine.grows_bind (Engine.grows_liftAccess (Image.grows_ofDisk image.disk readOnly))
      fun _ => Engine.grows_set _

variable {S : Setting ι} {image image' : Image ι} {map map' : BlockMap}
variable {content content' : Content}

/-- A call keeps the invariant of a regime in which all blocks are wanted. -/
theorem governed {I : BlockMap → Content → Prop} (R : Regime S (fun _ => True) I)
    (hdisk : image.disk = S.disk) (hmap : image.blocks? = some map)
    (covered : image.totalSectors ≤ map.capacity) (h : I map content) (call : BlockCall)
    (suits : call.Suits image.totalSectors) :
    call.engine.Ensures S (fun _ image' content' => Image.Under I image image' content')
      (fun _ image' content' => Image.Under I image image' content') image content := by
  cases call with
  | use op =>
    simp only [engine, Engine.ensures_bind, Engine.ensures_pure]
    exact (op.governed R hdisk hmap covered h (op.wants_all image map)).mono
      (fun _ _ _ _ h' _ => h') fun _ _ _ _ hfailed => hfailed.1
  | look sector =>
    simp only [engine, Engine.ensures_bind, Engine.ensures_pure]
    exact (Image.holds_governed R hdisk hmap covered h (.of_wanted trivial _) suits).mono
      (fun _ _ _ _ h' _ => h') fun _ _ _ _ hfailed => hfailed.1
  | readBlocks offset count buffer =>
    simp only [engine, Engine.ensures_bind, Engine.ensures_pure]
    exact (Image.readBlocks_governed R hdisk hmap covered h fun _ _ => .of_wanted trivial _).mono
      (fun _ _ _ _ h' _ => h'.1) fun _ _ _ _ hfailed => hfailed.1
  | writeBlocks offset count buffer =>
    simp only [engine, Engine.ensures_bind, Engine.ensures_pure]
    exact (Image.writeBlocks_governed R hdisk hmap covered h fun _ _ => trivial).mono
      (fun _ _ _ _ h' _ => h') fun _ _ _ _ hfailed => hfailed.1
  | reopen readOnly => exact suits.elim

/-- The blocks are consistent, and the first `count` sectors of the call were written. -/
def Leaves (call : BlockCall) (image : Image ι) (map : BlockMap) (content : Content) (count : Nat)
    (image' : Image ι) (content' : Content) : Prop :=
  ∃ map', image' = image.withBlocks map' ∧ Consistent image.footer map' content' ∧
    map'.held content' = call.upTo count (map.held content)

section Writes

variable (T : Terms S image.footer (fun _ _ => True) (Consistent image.footer))
variable (hdisk : image.disk = S.disk) (hmap : image.blocks? = some map)
variable (h : Consistent image.footer map content) (offset count : Nat) (buffer : ByteArray)
include T hdisk hmap h

theorem readBlocks_leaves : (Image.readBlocks offset count buffer).Ensures S
    (fun _ image' content' =>
      (readBlocks offset count buffer).Leaves image map content 0 image' content')
    (fun _ image' content' =>
      (readBlocks offset count buffer).Leaves image map content 0 image' content')
    image content := by
  refine (Image.readBlocks_ensures offset count buffer T hdisk hmap h).mono ?_ ?_
  · rintro result image' content' _ ⟨map', rfl, -, -, hread⟩
    exact ⟨map', rfl, hread.advance.consistent, funext hread.advance.held_eq⟩
  · rintro _ image' content' _ ⟨-, map', rfl, hquiet⟩
    exact ⟨map', rfl, hquiet.consistent, funext hquiet.held_eq⟩

theorem writeBlocks_leaves (small : ∀ content, S.within content → content.size < sizeLimit) :
    (Image.writeBlocks offset count buffer).Ensures S
      (fun _ image' content' => (writeBlocks offset count buffer).Leaves image map content
        (image.transfer offset count) image' content')
      (fun _ image' content' => ∃ k, k ≤ image.transfer offset count ∧
        (writeBlocks offset count buffer).Leaves image map content k image' content')
      image content := by
  refine (Image.writeBlocks_ensures T (.of_small small) hdisk hmap h fun _ _ _ => trivial).mono
    ?_ ?_
  · rintro truncated image' content' _ ⟨map', rfl, -, hlaid, -, hadvance⟩
    exact ⟨map', rfl, hadvance.consistent, hlaid.eq_record⟩
  · rintro _ image' content' _ ⟨-, map', rfl, k, hk, hlaid, hfollows⟩
    exact ⟨k, hk, map', rfl, hfollows.consistent, hlaid.eq_record⟩

end Writes

/-- A call that succeeds writes its whole transfer, one that fails a first part of it. -/
theorem ensures (T : Terms S image.footer (fun _ _ => True) (Consistent image.footer))
    (small : ∀ content, S.within content → content.size < sizeLimit)
    (hdisk : image.disk = S.disk) (hmap : image.blocks? = some map) (mode : image.readOnly = false)
    (h : Consistent image.footer map content) (call : BlockCall)
    (suits : call.Suits image.totalSectors) :
    call.engine.Ensures S
      (fun _ image' content' => call.Leaves image map content (call.transfer image.totalSectors)
        image' content')
      (fun _ image' content' => ∃ k, k ≤ call.transfer image.totalSectors ∧
        call.Leaves image map content k image' content')
      image content := by
  cases call with
  | use op =>
    simp only [engine, Engine.ensures_bind, Engine.ensures_pure]
    cases op with
    | read offset count buffer =>
      simp only [Operation.engine, Engine.ensures_bind, Engine.ensures_pure]
      refine Image.read_ensures hmap (fun _ => ?_) fun _ =>
        ⟨0, Nat.le_refl _, map, (Image.withBlocks_self hmap).symm, h, rfl⟩
      exact (readBlocks_leaves T hdisk hmap h offset count buffer).mono
        (fun _ _ _ _ hleaves _ _ => hleaves) fun _ _ _ _ hleaves => ⟨0, Nat.le_refl _, hleaves⟩
    | write offset count buffer =>
      simp only [Operation.engine, Engine.ensures_bind, Engine.ensures_pure]
      refine Image.write_ensures hmap (fun hignored => ?_) fun _ => ?_
      · cases mode.symm.trans hignored
      · exact (writeBlocks_leaves T hdisk hmap h offset count buffer small).mono_success
          fun _ _ _ _ hleaves _ _ => hleaves
    | flush =>
      simp only [Operation.engine, Engine.ensures_bind, Engine.ensures_pure]
      refine (Image.flush_ensures T hdisk hmap h).mono ?_ ?_
      · rintro _ image' content' _ ⟨map', rfl, -, -, -, hadvance⟩ _ _
        exact ⟨map', rfl, hadvance.consistent, funext hadvance.held_eq⟩
      · rintro _ image' content' _ ⟨-, map', rfl, hquiet⟩
        exact ⟨0, Nat.le_refl _, map', rfl, hquiet.consistent, funext hquiet.held_eq⟩
  | look sector =>
    simp only [engine, Engine.ensures_bind, Engine.ensures_pure]
    refine Image.ensures_onBlocks hdisk hmap ?_
    refine (BlockMap.holds_ensures T h (Nat.lt_of_lt_of_le suits h.onDisk.fits.covered)).mono ?_ ?_
    · rintro _ map' content' _ ⟨-, hread⟩ _
      exact ⟨map', rfl, hread.advance.consistent, funext hread.advance.held_eq⟩
    · rintro _ map' content' _ ⟨-, hquiet⟩
      exact ⟨0, Nat.le_refl _, map', rfl, hquiet.consistent, funext hquiet.held_eq⟩
  | readBlocks offset count buffer =>
    simp only [engine, Engine.ensures_bind, Engine.ensures_pure]
    exact (readBlocks_leaves T hdisk hmap h offset count buffer).mono
      (fun _ _ _ _ hleaves _ => hleaves) fun _ _ _ _ hleaves => ⟨0, Nat.le_refl _, hleaves⟩
  | writeBlocks offset count buffer =>
    simp only [engine, Engine.ensures_bind, Engine.ensures_pure]
    exact (writeBlocks_leaves T hdisk hmap h offset count buffer small).mono_success
      fun _ _ _ _ hleaves _ => hleaves
  | reopen readOnly => exact suits.elim

end BlockCall

/-- A call during which requests fail according to a plan. -/
structure BlockAttempt where
  call : BlockCall
  plan : List (Option Error)

/-- The attempt ends with a result, and leaves an image and a storage. -/
def BlockAttempt.run (attempt : BlockAttempt) (image : Image ι) (content : Content) :
    (Except Error BlockReply × Image ι) × Content :=
  let (outcome, content, _) :=
    attempt.call.engine.runOn (Server.flaky sole) image (content, attempt.plan)
  (outcome, content)

theorem BlockAttempt.of_run {attempt : BlockAttempt} {image : Image ι} {content content' : Content}
    {outcome : Except Error BlockReply × Image ι}
    (run : attempt.run image content = (outcome, content')) :
    ∃ plan', attempt.call.engine.runOn (Server.flaky sole) image (content, attempt.plan) =
      (outcome, content', plan') := by
  rcases hflaky : attempt.call.engine.runOn (Server.flaky sole) image (content, attempt.plan) with
    ⟨found, content₁, plan'⟩
  simp only [BlockAttempt.run, hflaky, Prod.mk.injEq] at run
  obtain ⟨rfl, rfl⟩ := run
  exact ⟨plan', rfl⟩

namespace Image

/-- The bitmap that an image with blocks has cached fits. -/
def CacheFits (image : Image ι) (content : Content) (written : Nat → Option Sector) : Prop :=
  ∃ map, image.blocks? = some map ∧ map.CacheFits content written

/-- As long as the storage stays small, the cached bitmap fits now and after each attempt. An
attempt that succeeds has written its whole transfer, one that fails a first part of it. -/
def KeepsFitting (total : Nat) :
    (written : Nat → Option Sector) → List BlockAttempt → Image ι → Content → Prop
  | written, [], image, content => image.CacheFits content written
  | written, attempt :: attempts, image, content => image.CacheFits content written ∧
    ∀ result image' content', attempt.run image content = ((result, image'), content') →
      content'.size < sizeLimit → ∃ k, k ≤ attempt.call.transfer total ∧
        (∀ reply, result = .ok reply → k = attempt.call.transfer total) ∧
        KeepsFitting total (attempt.call.upTo k written) attempts image' content'

/-- The image is open for writing and goes with its storage, its bitmaps are in order, and it holds
what was written to it. -/
structure HoldsTrim (image : Image ι) (map : BlockMap) (content : Content)
    (written : Nat → Option Sector) : Prop where
  blocks : image.blocks? = some map
  mode : image.readOnly = false
  consistent : Consistent image.footer map content
  arranged : Arranged image.footer map content
  trim : Trim map content
  held : map.held content = written

variable {image image' : Image ι} {map : BlockMap} {content content' : Content}
variable {written : Nat → Option Sector}

namespace HoldsTrim

theorem written_of_test (h : HoldsTrim image map content written) {block start i : Nat}
    (cached : map.bitmap.block = some block) (place : map.table.place? block = some start)
    (test : map.bitmap.test i = true) :
    written (block * map.header.sectorsPerBlock + i) =
      some (content.read (map.dataPlace start i) 512) := by
  have hi : i < map.header.sectorsPerBlock := by
    apply Nat.lt_of_not_le
    intro hle
    cases test.symm.trans (h.trim.cached_margin i hle)
  rw [← h.held, map.held_mul_add content block hi, BlockMap.heldBit_of_cached cached]
  exact BlockMap.present_eq_some.mpr ⟨test, BlockMap.data_of_place place i⟩

theorem cacheFits (h : HoldsTrim image map content written) : map.CacheFits content written := by
  have hcoherent := h.consistent.coherent
  have hfetched := fun clean block cached =>
    congrArg BitmapCache.bytes (h.trim.fetched clean block cached)
  refine ⟨fun clean block start cached place => ?_, fun clean block cached vacant => ?_,
    fun hdirty => ?_, h.trim.cached_margin, fun block start i place hi hlt => ?_⟩
  · have hbytes := hfetched clean block cached
    rw [BlockMap.fetched_of_place place, hcoherent.size_bytes] at hbytes
    exact hbytes
  · have hbytes := hfetched clean block cached
    rw [BlockMap.fetched_of_vacant vacant, hcoherent.size_bytes] at hbytes
    exact hbytes
  · obtain ⟨block, start, cached, place⟩ := hcoherent.allocated hdirty
    refine ⟨block, start, cached, place, fun i hlt hbit => ?_, fun i htest _ => ?_⟩
    · rw [← BlockMap.storedBit_of_place place] at hbit
      by_cases hi : i < map.header.sectorsPerBlock
      · exact hcoherent.test_of_stored block i cached hi hbit
      · rw [h.trim.stored_margin block i (Nat.not_lt.mp hi) hlt] at hbit
        cases hbit
    · exact h.written_of_test cached place htest
  · rw [← BlockMap.storedBit_of_place place]
    exact h.trim.stored_margin block i hi hlt

/-- What is known of the record and what is known of the bitmaps is known of the same blocks. -/
theorem next (h : HoldsTrim image map content written) {call : BlockCall} {k : Nat}
    (leaves : call.Leaves image map content k image' content')
    (under : Under (fun map content => Arranged image.footer map content ∧ Trim map content) image
      image' content') :
    ∃ map', image' = image.withBlocks map' ∧
      HoldsTrim image' map' content' (call.upTo k written) := by
  obtain ⟨map', rfl, hconsistent, hheld⟩ := leaves
  obtain ⟨map'', heq, harranged, htrim⟩ := under
  obtain rfl : map' = map'' := by
    have hblocks := congrArg blocks? heq
    rw [blocks?_withBlocks h.blocks, blocks?_withBlocks h.blocks, Option.some.injEq] at hblocks
    exact hblocks
  refine ⟨map', rfl, blocks?_withBlocks h.blocks, h.mode, hconsistent, harranged, htrim, ?_⟩
  rw [hheld, h.held]

theorem run (h : HoldsTrim image map content written) {attempt : BlockAttempt}
    (suits : attempt.call.Suits image.totalSectors) {result : Except Error BlockReply}
    (run : attempt.run image content = ((result, image'), content'))
    (small : content'.size < sizeLimit) :
    ∃ map' k, image' = image.withBlocks map' ∧ k ≤ attempt.call.transfer image.totalSectors ∧
      (∀ reply, result = .ok reply → k = attempt.call.transfer image.totalSectors) ∧
      HoldsTrim image' map' content' (attempt.call.upTo k written) := by
  have T := Terms.free image.disk True (fun content => content.size < sizeLimit) image.footer
    fun _ _ => True
  have hleaves := BlockCall.ensures T (fun _ hw => hw) rfl h.blocks h.mode h.consistent attempt.call
    suits
  have hgoverned := BlockCall.governed (trim_regime image.disk image.footer) rfl h.blocks
    h.arranged.onDisk.fits.covered ⟨h.arranged, h.trim⟩ attempt.call suits
  obtain ⟨plan', hflaky⟩ := BlockAttempt.of_run run
  have hpost := hleaves.of_flaky_run trivial attempt.call.grows_engine (fun _ hw => hw) hflaky small
  have hunder :=
    hgoverned.of_flaky_run trivial attempt.call.grows_engine (fun _ hw => hw) hflaky small
  cases result with
  | ok reply =>
    obtain ⟨map', heq, hholds⟩ := h.next hpost hunder
    exact ⟨map', _, heq, Nat.le_refl _, fun _ _ => rfl, hholds⟩
  | error e =>
    obtain ⟨k, hk, hleaves⟩ := hpost
    obtain ⟨map', heq, hholds⟩ := h.next hleaves hunder
    exact ⟨map', k, heq, hk, nofun, hholds⟩

/-- Images that hold what was written and have a trim map keep fitting, by induction on the
attempts. -/
theorem keepsFitting (h : HoldsTrim image map content written) (attempts : List BlockAttempt)
    (suits : ∀ attempt ∈ attempts, attempt.call.Suits image.totalSectors) :
    KeepsFitting image.totalSectors written attempts image content := by
  induction attempts generalizing image map content written with
  | nil => exact ⟨map, h.blocks, h.cacheFits⟩
  | cons attempt attempts ih =>
    obtain ⟨hfirst, hrest⟩ := List.forall_mem_cons.mp suits
    refine ⟨⟨map, h.blocks, h.cacheFits⟩, fun result image' content' hrun small => ?_⟩
    obtain ⟨map', k, rfl, hk, hwhole, hholds⟩ := h.run hfirst hrun small
    exact ⟨k, hk, hwhole, ih hholds hrest⟩

end HoldsTrim

theorem NewImage.holdsTrim {disk : ι} {options : CreateOptions} {size : UInt64}
    {geometry : Geometry} {diskType : DiskType} {parent : ParentRecord}
    (h : NewImage disk options size geometry diskType parent image content)
    (hkind : diskType ≠ .fixed) :
    HoldsTrim image (.fresh (newHeader options size parent)
      (.blank tablePosition (blockCount size options.blockSize))) content fun _ => none where
  blocks := h.blocks?_eq hkind
  mode := by
    rw [h.eq_opened]
    rfl
  consistent := h.consistent
  arranged := h.arranged
  trim := {
    fetched := nofun
    cached_margin := fun i _ => BitmapCache.test_zero _ _ _ i
    stored_margin := fun block i _ _ =>
      BlockMap.storedBit_of_vacant (BlockTable.place?_blank tablePosition _ block) i }
  held := funext h.held_eq

/-- The bitmap that an image with blocks has cached fits its storage from its creation on, whatever
is done with the image and whichever calls fail. -/
theorem created_keepsFitting (disk : ι) (creation : Creation κ) (options : CreateOptions)
    (prior content : Content) (image : Image ι) (attempts : List BlockAttempt)
    (hkind : creation ≠ .fixed)
    (created : (creation.create disk options).runOn sole prior = (.ok image, content))
    (suits : ∀ attempt ∈ attempts, attempt.call.Suits image.totalSectors) :
    KeepsFitting image.totalSectors (fun _ => none) attempts image content := by
  cases creation with
  | fixed => exact absurd rfl hkind
  | dynamic =>
    obtain ⟨geometry, hnew⟩ := newImage_of_createDynamic created
    exact (hnew.holdsTrim (by decide)).keepsFitting attempts suits
  | differencing parent =>
    have hnew := newImage_of_createDifferencing created
    exact (hnew.holdsTrim (by decide)).keepsFitting attempts suits

/-- On a small disk: a write fails when it stores the bitmap, the look at another block fails for
the same reason, and then both are repeated. -/
theorem created_keepsFitting_small : ∃ (image : Image Unit) (content : Content),
    (Creation.dynamic : Creation Unit) ≠ .fixed ∧
    ((Creation.dynamic : Creation Unit).create () .small).runOn sole .empty =
      (.ok image, content) ∧
    let attempts : List BlockAttempt :=
      [⟨.use (.write 7 1 (Bytes.replicate 512 0x5a).toByteArray),
          List.replicate 7 none ++ [some (.io "bad sector")]⟩,
        ⟨.look 8, [some (.io "bad sector")]⟩,
        ⟨.use (.write 7 1 (Bytes.replicate 512 0x5a).toByteArray), []⟩, ⟨.look 8, []⟩]
    (∀ attempt ∈ attempts, attempt.call.Suits image.totalSectors) ∧
      KeepsFitting image.totalSectors (fun _ => none) attempts image content := by
  obtain ⟨image, content, hrun, hnew⟩ :=
    exists_createDynamic CreateOptions.checkedGeometry_small creatable_small () .empty
  have htotal : image.totalSectors = 16 := by
    rw [totalSectors, hnew.readAs.geometry]
    rfl
  have hlook : (BlockCall.look 8).Suits image.totalSectors := by
    rw [htotal]
    exact show 8 < 16 by decide
  have hkind : (Creation.dynamic : Creation Unit) ≠ .fixed := by
    intro heq
    cases heq
  have suits : ∀ attempt ∈ ([⟨.use (.write 7 1 (Bytes.replicate 512 0x5a).toByteArray),
          List.replicate 7 none ++ [some (.io "bad sector")]⟩,
        ⟨.look 8, [some (.io "bad sector")]⟩,
        ⟨.use (.write 7 1 (Bytes.replicate 512 0x5a).toByteArray), []⟩,
        ⟨.look 8, []⟩] : List BlockAttempt), attempt.call.Suits image.totalSectors := by
    simp only [List.forall_mem_cons]
    exact ⟨trivial, hlook, trivial, hlook, List.forall_mem_nil _⟩
  exact ⟨image, content, hkind, hrun, suits,
    created_keepsFitting () .dynamic .small .empty content image _ hkind hrun suits⟩

end Image

end VirtualDisk
