import VirtualDisk.Proofs.Image.Blocks
import VirtualDisk.Proofs.Image.Growing
import VirtualDisk.Proofs.Image.Opening

/-!
# Operations and what they mean for an array of sectors

An `Operation` is one call on an open image. To an array of sectors a write is the replacement of
the sectors that it transfers; a read shows the array, a flush means nothing. `Operation.ensures`
says that an operation on a dynamic image does to the sectors that the image shows what it means,
or, if it fails, a first part of that.
-/

namespace VirtualDisk

open Storage

/-- A row of sectors with the slots of a buffer in the place of the first `count` sectors from
`offset` on. -/
def Buffer.over (buffer : ByteArray) (offset count : Nat) (view : Nat → Sector) (sector : Nat) :
    Sector :=
  if offset ≤ sector ∧ sector < offset + count then slot buffer (sector - offset) else view sector

/-- One call on an open image. -/
inductive Operation where
  | read (offset count : Nat) (buffer : ByteArray)
  | write (offset count : Nat) (buffer : ByteArray)
  | flush

/-- What a call returns. -/
inductive Answer where
  | shown (result : ReadResult)
  | written (truncated : Nat)
  | done

namespace Operation

variable {ι : Type}

/-- The call. -/
def engine : Operation → Engine ι (Image ι) Answer
  | read offset count buffer => return .shown (← Image.read offset count buffer)
  | write offset count buffer => return .written (← Image.write offset count buffer)
  | flush => do
    Image.flush
    return .done

/-- The buffer can hold the request. -/
def Valid : Operation → Prop
  | read _ count buffer => Buffer.Holds buffer.size count
  | write _ count buffer => Buffer.Holds buffer.size count
  | flush => True

/-- The image can do it on its own. Differencing images are read together with their parents. -/
def Supported (kind : DiskType) : Operation → Prop
  | read _ _ _ => kind ≠ .differencing
  | write _ _ _ => True
  | flush => True

/-- The number of sectors that are transferred on a disk of `total` sectors. -/
def transfer (total : Nat) : Operation → Nat
  | read offset count _ => min count (total - offset)
  | write offset count _ => min count (total - offset)
  | flush => 0

/-- The operation may store sectors. -/
def Stores : Operation → Prop
  | read _ _ _ => False
  | write _ _ _ => True
  | flush => False

theorem supported_dynamic {kind : DiskType} (h : kind = .dynamic) (op : Operation) :
    op.Supported kind := by
  cases op with
  | read => exact fun hdifferencing => by cases h.symm.trans hdifferencing
  | write => trivial
  | flush => trivial

/-- The sectors after the first `count` sectors of the request were transferred. -/
def upTo (count : Nat) (view : Nat → Sector) : Operation → Nat → Sector
  | read _ _ _ => view
  | write offset _ buffer => Buffer.over buffer offset count view
  | flush => view

/-- The sectors after the operation. -/
def after (total : Nat) (view : Nat → Sector) (op : Operation) : Nat → Sector :=
  op.upTo (op.transfer total) view

/-- The operation returns what it should on a disk of `total` sectors with this content. -/
def Answered (total : Nat) (view : Nat → Sector) : Operation → Answer → Prop
  | read offset count buffer, .shown result =>
    result.truncated = count - min count (total - offset) ∧
      Buffer.Shows view offset 0 (min count (total - offset)) buffer result.buffer
  | write offset count _, .written truncated => truncated = count - min count (total - offset)
  | flush, .done => True
  | _, _ => False

theorem grows_engine (op : Operation) : (op.engine : Engine ι (Image ι) Answer).Grows := by
  cases op with
  | read offset count buffer =>
    exact Engine.grows_bind (Image.grows_read offset count buffer) fun _ => Engine.grows_pure _
  | write offset count buffer =>
    exact Engine.grows_bind (Image.grows_write offset count buffer) fun _ => Engine.grows_pure _
  | flush => exact Engine.grows_bind Image.grows_flush fun _ => Engine.grows_pure _

end Operation

/-- Laying a buffer over what an image holds lays it over what the image shows. -/
theorem BlockMap.shown_of_laid {map map' : BlockMap} {content content' : Content}
    {buffer : ByteArray}
    {offset count : Nat}
    (h : Buffer.Laid buffer offset 0 count (map.held content) (map'.held content')) :
    map'.shown content' = Buffer.over buffer offset count (map.shown content) := by
  funext sector
  rw [shown, Buffer.over]
  split
  · next hinside =>
    have hlaid := h.inside (sector - offset) (by omega)
    rw [Nat.add_sub_cancel' hinside.1, Nat.zero_add] at hlaid
    rw [hlaid]
    rfl
  · next houtside =>
    rw [h.outside sector (by omega)]
    rfl

namespace Image

variable {ι : Type} {S : Setting ι} {footer : Footer} {map map' : BlockMap} {content : Content}

/-- An image with these blocks that is open for writing. -/
def writable (disk : ι) (footer : Footer) (map : BlockMap) : Image ι where
  disk
  footer
  layout := .ofBlocks map footer.diskType
  readOnly := false

@[simp] theorem diskType_writable (disk : ι) (footer : Footer) (map : BlockMap) :
    (writable disk footer map).diskType = footer.diskType := by
  cases h : footer.diskType with
  | fixed => simp [writable, diskType, h, Layout.ofBlocks, Layout.diskType]
  | dynamic => simp [writable, diskType, h, Layout.ofBlocks, Layout.diskType]
  | differencing => simp [writable, diskType, h, Layout.ofBlocks, Layout.diskType]

theorem blocks?_writable (disk : ι) (hkind : footer.diskType ≠ .fixed) (map : BlockMap) :
    (writable disk footer map).blocks? = some map := by
  cases h : footer.diskType with
  | fixed => exact absurd h hkind
  | dynamic => simp [writable, blocks?, h, Layout.ofBlocks, Layout.blocks?]
  | differencing => simp [writable, blocks?, h, Layout.ofBlocks, Layout.blocks?]

@[simp] theorem withBlocks_writable (disk : ι) (footer : Footer) (map map' : BlockMap) :
    (writable disk footer map).withBlocks map' = writable disk footer map' := by
  cases h : footer.diskType with
  | fixed => simp [writable, withBlocks, h, Layout.ofBlocks, Layout.setBlocks]
  | dynamic => simp [writable, withBlocks, h, Layout.ofBlocks, Layout.setBlocks]
  | differencing => simp [writable, withBlocks, h, Layout.ofBlocks, Layout.setBlocks]

theorem write_ensures {image : Image ι} {Q : Nat → Image ι → Content → Prop}
    {E : Error → Image ι → Content → Prop} (hmap : image.blocks? = some map) {offset count : Nat}
    {buffer : ByteArray} (ignored : image.readOnly = true → Q 0 image content)
    (written : image.readOnly = false →
      (writeBlocks offset count buffer).Ensures S Q E image content) :
    (write offset count buffer).Ensures S Q E image content := by
  simp only [write, Engine.ensures_bind, Engine.ensures_get]
  intro _
  cases hmode : image.readOnly with
  | true =>
    rw [if_pos rfl, ignoreWrite, Engine.ensures_pure]
    exact fun _ => ignored hmode
  | false =>
    rw [if_neg Bool.false_ne_true]
    cases hlayout : image.layout with
    | fixed =>
      rw [blocks?, hlayout] at hmap
      cases hmap
    | dynamic => exact written hmode
    | differencing => exact written hmode

theorem read_ensures {image : Image ι} {Q : ReadResult → Image ι → Content → Prop}
    {E : Error → Image ι → Content → Prop} (hmap : image.blocks? = some map) {offset count : Nat}
    {buffer : ByteArray} (dynamic : image.diskType = .dynamic →
      (readBlocks offset count buffer).Ensures S Q E image content)
    (differencing : image.diskType = .differencing → E .parentUnavailable image content) :
    (read offset count buffer).Ensures S Q E image content := by
  simp only [read, Engine.ensures_bind, Engine.ensures_get]
  intro _
  cases hlayout : image.layout with
  | fixed =>
    rw [blocks?, hlayout] at hmap
    cases hmap
  | dynamic => exact dynamic (by rw [diskType, hlayout]; rfl)
  | differencing =>
    rw [Engine.ensures_throw]
    exact fun _ => differencing (by rw [diskType, hlayout]; rfl)

theorem read_writable {Q : ReadResult → Image ι → Content → Prop}
    {E : Error → Image ι → Content → Prop} (hkind : footer.diskType = .dynamic) {offset count : Nat}
    {buffer : ByteArray}
    (h : (readBlocks offset count buffer).Ensures S Q E (writable S.disk footer map) content) :
    (read offset count buffer).Ensures S Q E (writable S.disk footer map) content := by
  have hne : footer.diskType ≠ .fixed := ne_of_eq_of_ne hkind (by decide)
  refine read_ensures (blocks?_writable S.disk hne map) (fun _ => h) fun hdifferencing => ?_
  rw [diskType_writable, hkind] at hdifferencing
  cases hdifferencing

end Image

namespace Operation

variable {ι : Type} {S : Setting ι} {footer : Footer} {I : BlockMap → Content → Prop}
variable {map : BlockMap} {content : Content}

/-- An operation succeeds with what it means, unless requests may fail; then it may stop after a
first part of its sectors. Only a write needs room. -/
theorem ensures (T : Terms S footer (fun _ _ => True) I)
    (hkind : footer.diskType ≠ .fixed) (h : I map content) (op : Operation)
    (spacious : op.Stores → Spacious S I) :
    op.engine.Ensures S
      (fun answer image' content' => ∃ map', image' = .writable S.disk footer map' ∧
        op.Answered footer.geometry.totalSectors (map.shown content) answer ∧
        map'.shown content' = op.after footer.geometry.totalSectors (map.shown content) ∧
        (map.bitmap.dirty = false → map'.bitmap.dirty = false) ∧
        Advance footer (fun _ _ => True) map content map' content')
      (fun _ image' content' => (op.Supported footer.diskType → op.Valid → S.mayFail) ∧
        ∃ map', image' = .writable S.disk footer map' ∧
        ∃ k, k ≤ op.transfer footer.geometry.totalSectors ∧
          map'.shown content' = op.upTo k (map.shown content) ∧
          Follows footer (fun _ _ => True) map content map' content')
      (.writable S.disk footer map) content := by
  have hblocks := Image.blocks?_writable S.disk hkind map
  cases op with
  | read offset count buffer =>
    simp only [engine, Engine.ensures_bind, Engine.ensures_pure]
    refine Image.read_ensures hblocks (fun _ => ?_) fun hdifferencing => ?_
    · refine (Image.readBlocks_ensures offset count buffer T rfl hblocks h).mono ?_ ?_
      · rintro result image' content' _ ⟨map', rfl, htruncated, hshows, hread⟩ _
        exact ⟨map', Image.withBlocks_writable .., ⟨htruncated, hshows⟩,
          BlockMap.shown_eq hread.advance.toFollows, hread.clean, hread.advance.of_quiet⟩
      · rintro _ image' content' _ ⟨hm, map', rfl, hquiet⟩
        exact ⟨fun _ => hm, map', Image.withBlocks_writable .., 0, Nat.zero_le _,
          BlockMap.shown_eq hquiet, hquiet.of_quiet⟩
    · rw [Image.diskType_writable] at hdifferencing
      exact ⟨fun supported => absurd hdifferencing supported, map, rfl, 0, Nat.zero_le _, rfl,
        .refl (T.consistent _ _ h)⟩
  | write offset count buffer =>
    simp only [engine, Engine.ensures_bind, Engine.ensures_pure]
    refine Image.write_ensures hblocks (fun hmode => by cases hmode) fun _ => ?_
    refine (Image.writeBlocks_ensures T (spacious trivial) rfl hblocks h
      fun _ _ _ => trivial).mono ?_ ?_
    · rintro truncated image' content' _ ⟨map', rfl, htruncated, hlaid, hclean, hadvance⟩ _
      exact ⟨map', Image.withBlocks_writable .., htruncated, BlockMap.shown_of_laid hlaid,
        fun _ => hclean, hadvance⟩
    · rintro _ image' content' _ ⟨hm, map', rfl, k, hk, hlaid, hfollows⟩
      exact ⟨fun _ => hm, map', Image.withBlocks_writable .., k, hk, BlockMap.shown_of_laid hlaid,
        hfollows⟩
  | flush =>
    simp only [engine, Engine.ensures_bind, Engine.ensures_pure]
    refine (Image.flush_ensures T rfl hblocks h).mono ?_ ?_
    · rintro _ image' content' _ ⟨map', rfl, hclean, -, -, hadvance⟩ _
      exact ⟨map', Image.withBlocks_writable .., trivial, BlockMap.shown_eq hadvance.toFollows,
        fun _ => hclean, hadvance.of_quiet⟩
    · rintro _ image' content' _ ⟨hm, map', rfl, hquiet⟩
      exact ⟨fun _ _ => hm, map', Image.withBlocks_writable .., 0, Nat.zero_le _,
        BlockMap.shown_eq hquiet, hquiet.of_quiet⟩

end Operation

/-- What is done with an image: it is used, or it is given up and its storage is opened again,
whether or not it was flushed. -/
inductive Act where
  | use (op : Operation)
  | reopen

namespace Act

variable {ι : Type} {S : Setting ι} {footer : Footer} {I : BlockMap → Content → Prop}
variable {map : BlockMap} {content : Content}

/-- The calls of an act. -/
def engine : Act → Engine ι (Image ι) Answer
  | use op => op.engine
  | reopen => do
    set (← (Image.ofDisk (← get).disk false : Access ι (Image ι)))
    return .done

/-- The buffer of an operation can hold the request. -/
def Valid : Act → Prop
  | use op => op.Valid
  | reopen => True

/-- The image can do it on its own. -/
def Supported (kind : DiskType) : Act → Prop
  | use op => op.Supported kind
  | reopen => True

theorem supported_dynamic {kind : DiskType} (h : kind = .dynamic) (act : Act) :
    act.Supported kind := by
  cases act with
  | use op => exact op.supported_dynamic h
  | reopen => trivial

/-- The sectors after the act. -/
def after (total : Nat) (view : Nat → Sector) : Act → Nat → Sector
  | use op => op.after total view
  | reopen => view

/-- The act returns what it should on a disk of `total` sectors with this content. -/
def Answered (total : Nat) (view : Nat → Sector) : Act → Answer → Prop
  | use op, answer => op.Answered total view answer
  | reopen, _ => True

end Act

/-- Without changes in the cache nothing is lost by opening the storage again. -/
theorem Consistent.reopen {footer : Footer} {map : BlockMap} {content : Content}
    (h : Consistent footer map content) (clean : map.bitmap.dirty = false) :
    Advance footer (fun _ _ => False) map content (.fresh map.header map.table) content := by
  refine ⟨⟨h.onDisk.consistent_fresh h.aligned, rfl, fun sector => .inl ?_, fun _ => .inl rfl⟩,
    .of_eq rfl rfl rfl⟩
  rw [h.coherent.held_eq clean h.onDisk.fits.sectors_pos]
  rfl

namespace Act

variable {ι : Type} {S : Setting ι} {footer : Footer} {I : BlockMap → Content → Prop}
variable {map : BlockMap} {content : Content}

theorem grows_engine (act : Act) : (act.engine : Engine ι (Image ι) Answer).Grows := by
  cases act with
  | use op => exact op.grows_engine
  | reopen =>
    exact Engine.grows_bind Engine.grows_get fun image =>
      Engine.grows_bind (Engine.grows_liftAccess (Image.grows_ofDisk image.disk false)) fun _ =>
        Engine.grows_bind (Engine.grows_set _) fun _ => Engine.grows_pure _

/-- On an image with a clean cache an act succeeds with what it means, and leaves a clean cache. -/
theorem ensures (T : Terms S footer (fun _ _ => True) I) (spacious : Spacious S I)
    (small : S.within content → content.size < 2 ^ 64) (hkind : footer.diskType ≠ .fixed)
    (h : I map content) (clean : map.bitmap.dirty = false) (act : Act) :
    act.engine.Ensures S
      (fun answer image' content' => ∃ map', image' = .writable S.disk footer map' ∧
        act.Answered footer.geometry.totalSectors (map.shown content) answer ∧
        map'.shown content' = act.after footer.geometry.totalSectors (map.shown content) ∧
        map'.bitmap.dirty = false ∧
        Advance footer (fun _ _ => True) map content map' content')
      (fun _ _ _ => act.Supported footer.diskType → act.Valid → S.mayFail)
      (.writable S.disk footer map) content := by
  cases act with
  | use op =>
    refine (op.ensures T hkind h fun _ => spacious).mono ?_ fun _ _ _ _ hfailed => hfailed.1
    rintro answer image' content' _ ⟨map', rfl, hanswer, hshown, hclean, hadvance⟩
    exact ⟨map', rfl, hanswer, hshown, hclean clean, hadvance⟩
  | reopen =>
    have hmap := T.consistent _ _ h
    simp only [engine, Engine.ensures_bind, Engine.ensures_get, Engine.ensures_liftAccess,
      Engine.ensures_set, Engine.ensures_pure]
    intro hw
    refine (Image.ofDisk_ensures ⟨T.length, T.read⟩ hmap.onDisk hkind (small hw) false).mono
      ?_ fun _ _ _ hfailed _ _ => hfailed.1
    rintro image' content' _ ⟨rfl, rfl⟩ _ _
    have hadvance := hmap.reopen clean
    exact ⟨_, rfl, trivial, BlockMap.shown_eq hadvance.toFollows, rfl, hadvance.of_quiet⟩

end Act

end VirtualDisk
