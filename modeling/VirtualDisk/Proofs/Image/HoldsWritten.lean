import VirtualDisk.Proofs.Image.Flat
import VirtualDisk.Proofs.Image.Reached

/-!
# What was written to an image

For every image there is a record of what was last written to each sector. An image with blocks
holds just that; a fixed image shows the bytes of its storage. `HoldsWritten` says so of images that
are open for writing and on which nothing failed, and each operation keeps it.
-/

namespace VirtualDisk

open Storage

/-- A record of sectors after a buffer was written over `count` of them from `offset` on. -/
def Buffer.record (buffer : ByteArray) (offset count : Nat) (written : Nat → Option Sector)
    (sector : Nat) : Option Sector :=
  if offset ≤ sector ∧ sector < offset + count then some (slot buffer (sector - offset))
  else written sector

theorem Buffer.Laid.eq_record {buffer : ByteArray} {offset count : Nat}
    {old new : Nat → Option Sector} (h : Laid buffer offset 0 count old new) :
    new = record buffer offset count old := by
  funext sector
  rw [record]
  split
  · next hinside =>
    have hlaid := h.inside (sector - offset) (by omega)
    rwa [Nat.add_sub_cancel' hinside.1, Nat.zero_add] at hlaid
  · next houtside => exact h.outside sector (by omega)

/-- The record of a disk of `total` sectors after an operation. -/
def Operation.recorded (total : Nat) (written : Nat → Option Sector) :
    Operation → Nat → Option Sector
  | .read _ _ _ => written
  | .write offset count buffer => Buffer.record buffer offset (min count (total - offset)) written
  | .flush => written

namespace Image

variable {ι : Type} {S : Setting ι} {image image' image'' : Image ι} {content content' : Content}
variable {written : Nat → Option Sector} {offset count sector : Nat} {buffer : ByteArray}

/-- Images on one disk with one footer: they differ in their blocks and their mode only. -/
structure SameFooter (image image' : Image ι) : Prop where
  disk : image'.disk = image.disk
  footer : image'.footer = image.footer
  diskType : image'.diskType = image.diskType

theorem SameFooter.refl (image : Image ι) : image.SameFooter image := ⟨rfl, rfl, rfl⟩

theorem SameFooter.trans (h : image.SameFooter image') (h' : image'.SameFooter image'') :
    image.SameFooter image'' :=
  ⟨h'.disk.trans h.disk, h'.footer.trans h.footer, h'.diskType.trans h.diskType⟩

theorem SameFooter.totalSectors_eq (h : image.SameFooter image') :
    image'.totalSectors = image.totalSectors :=
  congrArg (·.geometry.totalSectors) h.footer

theorem sameFooter_withBlocks (image : Image ι) (map : BlockMap) :
    image.SameFooter (image.withBlocks map) :=
  ⟨rfl, rfl, diskType_withBlocks⟩

/-- What an image shows without a parent. -/
def own (image : Image ι) (content : Content) (written : Nat → Option Sector) (sector : Nat) :
    Sector :=
  if image.diskType = .fixed then content.flatSector sector
  else (written sector).getD (Bytes.zero 512)

/-- The image is open for writing, goes with its storage, and holds what was written to it. -/
inductive HoldsWritten (image : Image ι) (content : Content) (written : Nat → Option Sector) : Prop
  | flat (kind : image.diskType = .fixed) (layout : image.layout = .fixed)
      (mode : image.readOnly = false) (stored : Flat image.footer content)
  | blocks {map : BlockMap} (kind : image.diskType ≠ .fixed) (mode : image.readOnly = false)
      (synced : Synced image map content) (held : map.held content = written)

theorem layout_of_fixed (h : image.diskType = .fixed) : image.layout = .fixed := by
  rw [diskType] at h
  cases hlayout : image.layout with
  | fixed => rfl
  | dynamic map =>
    rw [hlayout] at h
    cases h
  | differencing map =>
    rw [hlayout] at h
    cases h

theorem HoldsWritten.stored (h : HoldsWritten image content written)
    (hkind : image.diskType = .fixed) :
    Flat image.footer content := by
  cases h with
  | flat kind layout mode stored => exact stored
  | blocks kind => exact absurd hkind kind

theorem Synced.diskType_ne_fixed {map : BlockMap} (h : Synced image map content) :
    image.diskType ≠ .fixed := by
  rw [h.kind]
  exact h.footer_ne_fixed

theorem HoldsWritten.advance {allowed : Nat → Sector → Prop} {map map' : BlockMap}
    (synced : Synced image map content) (mode : image.readOnly = false)
    (hadvance : Advance image.footer allowed map content map' content')
    (clean : map'.bitmap.dirty = false) (held : map'.held content' = written) :
    HoldsWritten (image.withBlocks map') content' written := by
  have synced' := synced.advance hadvance clean
  exact .blocks synced'.diskType_ne_fixed mode synced' held

theorem HoldsWritten.read_only {map map' : BlockMap} (synced : Synced image map content)
    (mode : image.readOnly = false) (held : map.held content = written)
    (hread : BlockMap.ReadOnly image.footer map content map' content') :
    HoldsWritten (image.withBlocks map') content' written ∧ content' = content := by
  refine ⟨.advance synced mode hread.advance (hread.clean synced.clean) ?_,
    hread.unchanged synced.clean⟩
  rw [← held]
  exact funext hread.advance.held_eq

section Calls

variable (free : ∀ request content, S.permits request content) (hdisk : image.disk = S.disk)
include free hdisk

/-- A write is recorded. -/
theorem HoldsWritten.write_ensures (small : ∀ content, S.within content → content.size < sizeLimit)
    (h : HoldsWritten image content written) (offset count : Nat) (buffer : ByteArray) :
    (write offset count buffer).Ensures S
      (fun truncated image' content' => truncated = count - image.transfer offset count ∧
        image.SameFooter image' ∧
        HoldsWritten image' content'
          (Buffer.record buffer offset (image.transfer offset count) written) ∧
        (image.diskType = .fixed → content'.flatSector =
          Buffer.over buffer offset (image.transfer offset count) content.flatSector))
      (fun _ _ _ => Buffer.Holds buffer.size count → S.mayFail) image content := by
  cases h with
  | flat kind layout mode stored =>
    simp only [write, Engine.ensures_bind, Engine.ensures_get, mode, layout]
    intro _
    rw [if_neg Bool.false_ne_true, Engine.ensures_liftAccess]
    refine (writeFlat_ensures free hdisk stored offset count buffer).mono ?_
      fun _ _ _ hfailed => hfailed.1
    rintro truncated content' _ ⟨htruncated, hsame, hflat⟩
    exact ⟨htruncated, .refl image, .flat kind layout mode (stored.of_sameFrom hsame),
      fun _ => hflat⟩
  | @blocks map kind mode synced held =>
    have T : Terms S image.footer (fun _ _ => True) (Consistent image.footer) := .of_consistent free
    refine Image.write_ensures synced.blocks (fun hignored => ?_) fun _ => ?_
    · rw [mode] at hignored
      cases hignored
    · refine (writeBlocks_ensures T (.of_small small) hdisk synced.blocks synced.consistent
        fun _ _ _ => trivial).mono ?_ fun _ _ _ _ hfailed => hfailed.1
      rintro truncated image' content' _ ⟨map', rfl, htruncated, hlaid, hclean, hadvance⟩
      refine ⟨htruncated, sameFooter_withBlocks _ _, .advance synced mode hadvance hclean ?_,
        fun hfixed => absurd hfixed kind⟩
      rw [hlaid.eq_record, held]

theorem HoldsWritten.flush_ensures (h : HoldsWritten image content written) :
    flush.Ensures S
      (fun _ image' content' => (image.SameFooter image' ∧ HoldsWritten image' content' written) ∧
        content' = content)
      (fun _ _ _ => S.mayFail) image content := by
  cases h with
  | flat kind layout mode stored =>
    simp only [flush, Engine.ensures_bind, Engine.ensures_get, blocks?, layout, Layout.blocks?,
      Option.isSome_none, Bool.false_eq_true, if_false]
    intro _
    rw [Engine.ensures_liftAccess, hdisk]
    exact .flush (free _ _) ⟨⟨.refl image, .flat kind layout mode stored⟩, rfl⟩ fun hm _ => hm
  | @blocks map kind mode synced held =>
    have T : Terms S image.footer (fun _ _ => True) (Consistent image.footer) := .of_consistent free
    refine (Image.flush_ensures T hdisk synced.blocks synced.consistent).mono ?_
      fun _ _ _ _ hfailed => hfailed.1
    rintro _ image' content' _ ⟨map', rfl, hclean, -, hunchanged, hadvance⟩
    refine ⟨⟨sameFooter_withBlocks _ _, .advance synced mode hadvance hclean ?_⟩,
      hunchanged synced.clean⟩
    rw [← held]
    exact funext hadvance.held_eq

theorem HoldsWritten.readBlocks_ensures (h : HoldsWritten image content written)
    (hkind : image.diskType ≠ .fixed) (offset count : Nat) (buffer : ByteArray) :
    (readBlocks offset count buffer).Ensures S
      (fun result image' content' => (result.truncated = count - image.transfer offset count ∧
        Buffer.Shows (image.own content written) offset 0 (image.transfer offset count) buffer
          result.buffer ∧
        image.SameFooter image' ∧ HoldsWritten image' content' written) ∧ content' = content)
      (fun _ _ _ => Buffer.Holds buffer.size count → S.mayFail) image content := by
  cases h with
  | flat kind => exact absurd kind hkind
  | @blocks map kind mode synced held =>
    have T : Terms S image.footer (fun _ _ => True) (Consistent image.footer) := .of_consistent free
    refine (Image.readBlocks_ensures offset count buffer T hdisk synced.blocks
      synced.consistent).mono ?_ fun _ _ _ _ hfailed => hfailed.1
    rintro result image' content' _ ⟨map', rfl, htruncated, hshows, hread⟩
    obtain ⟨hheld, hsame⟩ := HoldsWritten.read_only synced mode held hread
    have hshown : map.shown content = image.own content written := by
      funext sector
      rw [BlockMap.shown, held, own, if_neg hkind]
    rw [hshown] at hshows
    exact ⟨⟨htruncated, hshows, sameFooter_withBlocks _ _, hheld⟩, hsame⟩

theorem HoldsWritten.holds_ensures (h : HoldsWritten image content written)
    (hkind : image.diskType ≠ .fixed) (inside : sector < image.totalSectors) :
    (onBlocks fun disk => BlockMap.holds disk sector).Ensures S
      (fun held image' content' => (held = (written sector).isSome ∧ image.SameFooter image' ∧
        HoldsWritten image' content' written) ∧ content' = content)
      (fun _ _ _ => S.mayFail) image content := by
  cases h with
  | flat kind => exact absurd kind hkind
  | @blocks map kind mode synced held =>
    have T : Terms S image.footer (fun _ _ => True) (Consistent image.footer) := .of_consistent free
    refine ensures_onBlocks hdisk synced.blocks ?_
    have hsector := Nat.lt_of_lt_of_le inside synced.consistent.onDisk.fits.covered
    refine (BlockMap.holds_ensures T synced.consistent hsector).mono ?_
      fun _ _ _ _ hfailed => hfailed.1
    rintro found map' content' _ ⟨hfound, hread⟩
    obtain ⟨hheld, hsame⟩ := HoldsWritten.read_only synced mode held hread
    rw [held] at hfound
    exact ⟨⟨hfound, sameFooter_withBlocks _ _, hheld⟩, hsame⟩

theorem HoldsWritten.read_ensures (h : HoldsWritten image content written)
    (hkind : image.diskType ≠ .differencing) (offset count : Nat) (buffer : ByteArray) :
    (read offset count buffer).Ensures S
      (fun result image' content' => (result.truncated = count - image.transfer offset count ∧
        Buffer.Shows (image.own content written) offset 0 (image.transfer offset count) buffer
          result.buffer ∧
        image.SameFooter image' ∧ HoldsWritten image' content' written) ∧ content' = content)
      (fun _ _ _ => Buffer.Holds buffer.size count → S.mayFail) image content := by
  by_cases hfixed : image.diskType = .fixed
  · cases h with
    | flat kind layout mode stored =>
      have hown : content.flatSector = image.own content written := by
        funext sector
        rw [own, if_pos hfixed]
      simp only [read, Engine.ensures_bind, Engine.ensures_get, layout, Engine.ensures_liftAccess]
      intro _
      refine (readFlat_ensures ⟨fun _ => free _ _, fun _ _ _ => free _ _⟩ hdisk stored offset count
        buffer).mono ?_ fun _ _ _ hfailed => hfailed.1
      rintro result content' _ ⟨rfl, htruncated, hshows⟩
      rw [hown] at hshows
      exact ⟨⟨htruncated, hshows, .refl image, .flat kind layout mode stored⟩, rfl⟩
    | blocks kind => exact absurd hfixed kind
  · have hblocks := h.readBlocks_ensures free hdisk hfixed offset count buffer
    cases h with
    | flat kind => exact absurd kind hfixed
    | blocks kind mode synced held =>
      exact Image.read_ensures synced.blocks (fun _ => hblocks) fun hdifferencing =>
        absurd hdifferencing hkind

end Calls

/-- Images that were created, used and opened again for writing, each on a storage of its own, with
the record of what was written to them. -/
inductive Made : Image ι → Content → (Nat → Option Sector) → Prop
  | fixed {disk : ι} {options : CreateOptions} {prior content : Content} {image : Image ι}
      (created : (createFixed disk options).runOn sole prior = (.ok image, content)) :
      Made image content fun _ => none
  | dynamic {disk : ι} {options : CreateOptions} {prior content : Content} {image : Image ι}
      (created : (createDynamic disk options).runOn sole prior = (.ok image, content)) :
      Made image content fun _ => none
  | differencing {κ : Type} {parent : Image κ} {disk : ι} {options : CreateOptions}
      {prior content : Content} {image : Image ι}
      (created : (createDifferencing disk parent options).runOn sole prior = (.ok image, content)) :
      Made image content fun _ => none
  | used {image image' : Image ι} {content content' : Content} {written : Nat → Option Sector}
      {op : Operation} {answer : Answer} (before : Made image content written)
      (run : op.engine.runOn sole image content = ((.ok answer, image'), content')) :
      Made image' content' (op.recorded image.totalSectors written)
  | reopened {image image' : Image ι} {content content' : Content} {written : Nat → Option Sector}
      (before : Made image content written)
      (run : (ofDisk image.disk false).runOn sole content = (.ok image', content')) :
      Made image' content' written

theorem NewImage.holdsWritten {disk : ι} {options : CreateOptions} {size : UInt64}
    {geometry : Geometry} {diskType : DiskType} {parent : ParentRecord}
    (h : NewImage disk options size geometry diskType parent image content)
    (hkind : diskType ≠ .fixed) : HoldsWritten image content fun _ => none := by
  have synced := h.synced hkind
  refine .blocks synced.diskType_ne_fixed ?_ synced (funext h.held_eq)
  rw [h.eq_opened]
  rfl

/-- Operations that succeed are recorded. -/
theorem HoldsWritten.operation_ensures (h : HoldsWritten image content written) (op : Operation) :
    op.engine.Ensures (sound image.disk)
      (fun _ image' content' =>
        HoldsWritten image' content' (op.recorded image.totalSectors written))
      (fun _ _ _ => True) image content := by
  have free : ∀ request content, (sound image.disk).permits request content := fun _ _ => trivial
  cases op with
  | read offset count buffer =>
    simp only [Operation.engine, Engine.ensures_bind, Engine.ensures_pure]
    by_cases hkind : image.diskType = .differencing
    · cases h with
      | flat kind => exact absurd (kind.symm.trans hkind) (by decide)
      | blocks kind mode synced held =>
        refine Image.read_ensures synced.blocks (fun hdynamic => ?_) fun _ => trivial
        exact absurd (hdynamic.symm.trans hkind) (by decide)
    · refine (h.read_ensures free rfl hkind offset count buffer).mono ?_ fun _ _ _ _ _ => trivial
      rintro result image' content' _ ⟨⟨-, -, -, hheld⟩, -⟩ _
      exact hheld
  | write offset count buffer =>
    simp only [Operation.engine, Engine.ensures_bind, Engine.ensures_pure]
    refine (h.write_ensures free rfl (fun _ hw => hw) offset count buffer).mono ?_
      fun _ _ _ _ _ => trivial
    rintro truncated image' content' _ ⟨-, -, hheld, -⟩ _
    exact hheld
  | flush =>
    simp only [Operation.engine, Engine.ensures_bind, Engine.ensures_pure]
    refine (h.flush_ensures free rfl).mono ?_ fun _ _ _ _ _ => trivial
    rintro _ image' content' _ ⟨⟨-, hheld⟩, -⟩ _
    exact hheld

/-- What is opened again holds what was written. -/
theorem HoldsWritten.reopen (h : HoldsWritten image content written)
    (small : content.size < sizeLimit)
    (run : (ofDisk image.disk false).runOn sole content = (.ok image', content')) :
    HoldsWritten image' content' written := by
  have readable := Setting.readable_free image.disk False fun _ => True
  have hlarge : content.size < 2 ^ 64 := Nat.lt_trans small (by decide)
  cases h with
  | flat kind layout mode stored =>
    have hpost := (ofDisk_ensures_flat readable stored hlarge false).runOn_sole fun _ => trivial
    rw [Setting.disk_free, run] at hpost
    obtain ⟨rfl, rfl⟩ := hpost
    exact .flat rfl rfl rfl stored
  | @blocks map kind mode synced held =>
    rw [runOn_ofDisk image.disk synced.consistent.onDisk synced.footer_ne_fixed hlarge] at run
    cases run
    have hopened := Synced.of_opened synced.consistent.onDisk synced.consistent.aligned
      synced.isSealed synced.footer_ne_fixed image.disk false
    refine .blocks hopened.diskType_ne_fixed rfl hopened ?_
    rw [← held]
    exact funext fun sector => (synced.consistent.coherent.held_eq synced.clean
      synced.consistent.onDisk.fits.sectors_pos sector).symm

/-- Images that were made hold what was written to them. -/
theorem Made.holdsWritten (h : Made image content written) (small : content.size < sizeLimit) :
    HoldsWritten image content written := by
  induction h with
  | fixed created =>
    have hnew := newFlat_of_createFixed created
    rw [hnew.eq_flat]
    exact .flat rfl rfl rfl hnew.stored
  | dynamic created =>
    obtain ⟨geometry, hnew⟩ := newImage_of_createDynamic created
    exact hnew.holdsWritten (by decide)
  | differencing created => exact (newImage_of_createDifferencing created).holdsWritten (by decide)
  | @used image image' content content' written op answer before run ih =>
    have hheld := ih (small_of_run op.grows_engine run small)
    have hpost := (hheld.operation_ensures op).runOn_sole op.grows_engine (by
      rw [run]
      exact fun other hle => Nat.lt_of_le_of_lt hle small)
    rw [run] at hpost
    exact hpost
  | @reopened image image' content content' written before run ih =>
    have hle := Program.Grows.size_le_run (grows_ofDisk image.disk false) neverShrinks_sole content
    change content.size ≤ ((ofDisk image.disk false).runOn sole content).2.size at hle
    rw [run] at hle
    have small' := Nat.lt_of_le_of_lt hle small
    exact (ih small').reopen small' run

end Image

end VirtualDisk
