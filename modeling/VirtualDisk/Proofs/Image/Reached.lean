import VirtualDisk.Proofs.Storage.Servers
import VirtualDisk.Proofs.Image.Creation
import VirtualDisk.Proofs.Image.Operations

/-!
# Images that are reached without a failure

An image with blocks is created on a sound storage, used and opened again, and nothing of that
fails. Whatever was done, and as long as the storage is not too large, the image then is
`Synced`: storage and cache are consistent, nothing is left to be stored, and the storage ends
with the footer.
-/

namespace VirtualDisk

open Storage

namespace Image

variable {ι : Type}

/-- Images with blocks and their storage after nothing but successful calls. -/
inductive Reached : Image ι → Content → Prop
  | dynamic {disk : ι} {options : CreateOptions} {prior content : Content} {image : Image ι}
      (created : (createDynamic disk options).runOn sole prior = (.ok image, content)) :
      Reached image content
  | differencing {κ : Type} {parent : Image κ} {disk : ι} {options : CreateOptions}
      {prior content : Content} {image : Image ι}
      (created : (createDifferencing disk parent options).runOn sole prior = (.ok image, content)) :
      Reached image content
  /-- A sector is looked up, as reads of differencing images do. -/
  | resolved {image image' : Image ι} {content content' : Content} {sector : Nat} {held : Bool}
      (before : Reached image content) (inside : sector < image.totalSectors)
      (run : (onBlocks fun disk => BlockMap.holds disk sector).runOn sole image content =
        ((.ok held, image'), content')) :
      Reached image' content'
  /-- What the image itself holds is read. -/
  | shown {image image' : Image ι} {content content' : Content} {offset count : Nat}
      {buffer : ByteArray} {result : ReadResult} (before : Reached image content)
      (run : (readBlocks offset count buffer).runOn sole image content =
        ((.ok result, image'), content')) :
      Reached image' content'
  /-- The blocks are written, whether or not the image was opened for that. -/
  | written {image image' : Image ι} {content content' : Content} {offset count truncated : Nat}
      {buffer : ByteArray} (before : Reached image content)
      (run : (writeBlocks offset count buffer).runOn sole image content =
        ((.ok truncated, image'), content')) :
      Reached image' content'
  | used {image image' : Image ι} {content content' : Content} {op : Operation} {answer : Answer}
      (before : Reached image content)
      (run : op.engine.runOn sole image content = ((.ok answer, image'), content')) :
      Reached image' content'
  | reopened {image image' : Image ι} {content content' : Content} {readOnly : Bool}
      (before : Reached image content)
      (run : (ofDisk image.disk readOnly).runOn sole content = (.ok image', content')) :
      Reached image' content'

/-- The image goes with its storage and has nothing to store. -/
structure Synced (image : Image ι) (map : BlockMap) (content : Content) : Prop where
  blocks : image.blocks? = some map
  kind : image.diskType = image.footer.diskType
  consistent : Consistent image.footer map content
  isSealed : Sealed image.footer content
  clean : map.bitmap.dirty = false

variable {image image' : Image ι} {map map' : BlockMap} {content content' : Content}

namespace Synced

theorem footer_ne_fixed (h : Synced image map content) : image.footer.diskType ≠ .fixed := by
  intro hfixed
  have hblocks := h.blocks
  have hkind := h.kind.trans hfixed
  rw [blocks?] at hblocks
  rw [diskType] at hkind
  cases hlayout : image.layout with
  | fixed =>
    rw [hlayout] at hblocks
    cases hblocks
  | dynamic =>
    rw [hlayout] at hkind
    cases hkind
  | differencing =>
    rw [hlayout] at hkind
    cases hkind

theorem advance {allowed : Nat → Sector → Prop} (h : Synced image map content)
    (hadvance : Advance image.footer allowed map content map' content')
    (clean : map'.bitmap.dirty = false) : Synced (image.withBlocks map') map' content' where
  blocks := blocks?_withBlocks h.blocks
  kind := diskType_withBlocks.trans h.kind
  consistent := hadvance.consistent
  isSealed := (hadvance.balance h.isSealed).1
  clean := clean

theorem of_opened {footer : Footer} {header : BlockHeader} {table : BlockTable}
    (hdisk : OnDisk footer header table content) (aligned : content.size % 512 = 0)
    (isSealed : Sealed footer content) (hkind : footer.diskType ≠ .fixed) (disk : ι)
    (readOnly : Bool) :
    Synced (opened disk footer header table readOnly) (.fresh header table) content where
  blocks := blocks?_opened disk hkind header table readOnly
  kind := diskType_opened ..
  consistent := hdisk.consistent_fresh aligned
  isSealed := isSealed
  clean := rfl

end Synced

theorem NewImage.synced {disk : ι} {options : CreateOptions} {size : UInt64} {geometry : Geometry}
    {diskType : DiskType} {parent : ParentRecord}
    (h : NewImage disk options size geometry diskType parent image content)
    (hkind : diskType ≠ .fixed) :
    Synced image (.fresh (newHeader options size parent)
      (.blank tablePosition (blockCount size options.blockSize))) content := by
  have hsynced := Synced.of_opened h.onDisk h.consistent.aligned h.isSealed
    (h.footer_ne_fixed hkind) disk false
  rwa [← h.eq_opened] at hsynced

/-- What an engine on the blocks of an image may do if it succeeds. -/
def Proceeds (image : Image ι) (map : BlockMap) (content : Content) (image' : Image ι)
    (content' : Content) : Prop :=
  ∃ map', image' = image.withBlocks map' ∧ (map.bitmap.dirty = false → map'.bitmap.dirty = false) ∧
    Advance image.footer (fun _ _ => True) map content map' content'

/-- A sound storage that is not too large. -/
abbrev sound (disk : ι) : Setting ι := .free disk False fun content => content.size < sizeLimit

theorem proceeds_operation (h : Synced image map content) (op : Operation) :
    op.engine.Ensures (sound image.disk)
      (fun _ image' content' => Proceeds image map content image' content') (fun _ _ _ => True)
      image content := by
  have T := Terms.free image.disk False (fun content => content.size < sizeLimit) image.footer
    fun _ _ => True
  have hself : Proceeds image map content image content :=
    ⟨map, (withBlocks_self h.blocks).symm, id, .refl h.consistent⟩
  cases op with
  | read offset count buffer =>
    simp only [Operation.engine, Engine.ensures_bind, Engine.ensures_pure]
    refine read_ensures h.blocks (fun _ => ?_) fun _ => trivial
    refine (readBlocks_ensures offset count buffer T rfl h.blocks h.consistent).mono ?_
      fun _ _ _ _ _ => trivial
    rintro _ image' content' _ ⟨map', rfl, -, -, hread⟩ _
    exact ⟨map', rfl, hread.clean, hread.advance.of_quiet⟩
  | write offset count buffer =>
    simp only [Operation.engine, Engine.ensures_bind, Engine.ensures_pure]
    refine write_ensures h.blocks (fun _ _ => hself) fun _ => ?_
    refine (writeBlocks_ensures T (.of_small fun _ hw => hw) rfl h.blocks h.consistent
      fun _ _ _ => trivial).mono ?_ fun _ _ _ _ _ => trivial
    rintro _ image' content' _ ⟨map', rfl, -, -, hclean, hadvance⟩ _
    exact ⟨map', rfl, fun _ => hclean, hadvance⟩
  | flush =>
    simp only [Operation.engine, Engine.ensures_bind, Engine.ensures_pure]
    refine (flush_ensures T rfl h.blocks h.consistent).mono ?_ fun _ _ _ _ _ => trivial
    rintro _ image' content' _ ⟨map', rfl, hclean, -, -, hadvance⟩ _
    exact ⟨map', rfl, fun _ => hclean, hadvance.of_quiet⟩

/-- A successful run that proceeds leaves a synced image. -/
theorem Synced.run {α : Type} {engine : Engine ι (Image ι) α} {a : α}
    (h : Synced image map content) (grows : engine.Grows)
    (proceeds : engine.Ensures (sound image.disk)
      (fun _ image' content' => Proceeds image map content image' content') (fun _ _ _ => True)
      image content)
    (run : engine.runOn sole image content = ((.ok a, image'), content'))
    (small : content'.size < sizeLimit) : ∃ map', Synced image' map' content' := by
  have hpost := proceeds.runOn_sole grows (by
    rw [run]
    exact fun other hle => Nat.lt_of_le_of_lt hle small)
  rw [run] at hpost
  obtain ⟨map', rfl, hclean, hadvance⟩ := hpost
  exact ⟨map', h.advance hadvance (hclean h.clean)⟩

/-- A sound storage that only grew was not too large before. -/
theorem small_of_run {α : Type} {engine : Engine ι (Image ι) α} {a : α} (grows : engine.Grows)
    (run : engine.runOn sole image content = ((.ok a, image'), content'))
    (small : content'.size < sizeLimit) : content.size < sizeLimit :=
  Nat.lt_of_le_of_lt (grows.size_le_of_run run) small

/-- A sector of the disk is looked up and found if the image holds it. -/
theorem holds_ensures (h : Synced image map content) {sector : Nat}
    (inside : sector < image.totalSectors) :
    (onBlocks fun disk => BlockMap.holds disk sector).Ensures (sound image.disk)
      (fun held image' content' => held = (map.held content sector).isSome ∧
        Proceeds image map content image' content')
      (fun _ _ _ => False) image content := by
  have T := Terms.free image.disk False (fun content => content.size < sizeLimit) image.footer
    fun _ _ => False
  refine ensures_onBlocks rfl h.blocks ?_
  refine (BlockMap.holds_ensures T h.consistent ?_).mono ?_ fun _ _ _ _ hfailed => hfailed.1
  · exact Nat.lt_of_lt_of_le inside h.consistent.onDisk.fits.covered
  · rintro held map' content' _ ⟨hheld, hread⟩
    exact ⟨hheld, map', rfl, hread.clean, hread.advance.of_quiet⟩

/-- Images that are reached without a failure are synced. -/
theorem Reached.synced (h : Reached image content) (small : content.size < sizeLimit) :
    ∃ map, Synced image map content := by
  induction h with
  | dynamic created =>
    obtain ⟨geometry, hnew⟩ := newImage_of_createDynamic created
    exact ⟨_, hnew.synced (by decide)⟩
  | differencing created => exact ⟨_, (newImage_of_createDifferencing created).synced (by decide)⟩
  | @resolved image image' content content' sector held before inside run ih =>
    have grows :
        (onBlocks fun disk => BlockMap.holds disk sector : Engine ι (Image ι) Bool).Grows :=
      grows_onBlocks fun disk => BlockMap.grows_holds disk sector
    obtain ⟨map, hmap⟩ := ih (small_of_run grows run small)
    refine hmap.run grows ((holds_ensures hmap inside).mono ?_ fun _ _ _ _ => False.elim) run small
    exact fun _ _ _ _ hpost => hpost.2
  | @shown image image' content content' offset count buffer result before run ih =>
    have grows := grows_readBlocks (ι := ι) offset count buffer
    obtain ⟨map, hmap⟩ := ih (small_of_run grows run small)
    have T := Terms.free image.disk False (fun content => content.size < sizeLimit) image.footer
      fun _ _ => False
    refine hmap.run grows ((readBlocks_ensures offset count buffer T rfl hmap.blocks
      hmap.consistent).mono ?_ fun _ _ _ _ _ => trivial) run small
    rintro _ image' content' _ ⟨map', rfl, -, -, hread⟩
    exact ⟨map', rfl, hread.clean, hread.advance.of_quiet⟩
  | @written image image' content content' offset count truncated buffer before run ih =>
    have grows := grows_writeBlocks (ι := ι) offset count buffer
    obtain ⟨map, hmap⟩ := ih (small_of_run grows run small)
    have T := Terms.free image.disk False (fun content => content.size < sizeLimit) image.footer
      fun _ _ => True
    refine hmap.run grows ((writeBlocks_ensures T (.of_small fun _ hw => hw) rfl hmap.blocks
      hmap.consistent fun _ _ _ => trivial).mono ?_ fun _ _ _ _ _ => trivial) run small
    rintro _ image' content' _ ⟨map', rfl, -, -, hclean, hadvance⟩
    exact ⟨map', rfl, fun _ => hclean, hadvance⟩
  | @used image image' content content' op answer before run ih =>
    obtain ⟨map, hmap⟩ := ih (small_of_run op.grows_engine run small)
    exact hmap.run op.grows_engine (proceeds_operation hmap op) run small
  | @reopened image image' content content' readOnly before run ih =>
    have hle :=
      Program.Grows.size_le_run (grows_ofDisk image.disk readOnly) neverShrinks_sole content
    change content.size ≤ ((ofDisk image.disk readOnly).runOn sole content).2.size at hle
    rw [run] at hle
    have small' := Nat.lt_of_le_of_lt hle small
    obtain ⟨map, hmap⟩ := ih small'
    have T := Terms.free image.disk False (fun content => content.size < sizeLimit) image.footer
      fun _ _ => False
    have hlarge : content.size < 2 ^ 64 := Nat.lt_trans small' (by decide)
    rw [runOn_ofDisk image.disk hmap.consistent.onDisk hmap.footer_ne_fixed hlarge readOnly] at run
    cases run
    exact ⟨_, .of_opened hmap.consistent.onDisk hmap.consistent.aligned hmap.isSealed
      hmap.footer_ne_fixed image.disk readOnly⟩

end Image

end VirtualDisk
