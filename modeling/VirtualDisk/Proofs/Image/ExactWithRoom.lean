import VirtualDisk.Proofs.Blocks.Mirror
import VirtualDisk.Proofs.Image.Caching
import VirtualDisk.Proofs.Image.Outage

/-!
# Images between two calls

As long as nothing fails, an image between two calls has nothing left to be stored, and the bitmap
that it has cached, if it has one, is the one that is stored. It is `ExactWithRoom` for the next
call. Calls that only read leave the storage as it is, and an image beside the one they were made
on.
-/

namespace VirtualDisk

open Storage

variable {ι α : Type} {content content' : Content}

namespace BlockMap

variable {footer : Footer} {map map' : BlockMap} {block i : Nat}

theorem Exact.coherent (h : map.Exact content)
    (size_bytes : map.bitmap.bytes.size = map.header.bitmapSectors * 512) :
    Coherent map content := by
  have hlt := map.header.bitmapSectors_lt
  have htest : ∀ block i, map.bitmap.block = some block → i < map.header.sectorsPerBlock →
      map.bitmap.test i = map.storedBit content block i := by
    intro block i cached hi
    apply h.test_eq cached (by omega)
    rw [size_bytes]
    exact BlockHeader.div_lt_bitmapSectors hi
  constructor
  · exact size_bytes
  · exact fun block cached => BitmapCache.lt_size_of_stored (h.stored block cached)
  · exact fun block i cached hi hbit => (htest block i cached hi).trans hbit
  · exact fun _ block i cached hi hbit => (htest block i cached hi).symm.trans hbit
  · intro hdirty
    cases h.clean.symm.trans hdirty

theorem Twin.consistent (h : map.Twin map' content) (hmap : Consistent footer map content) :
    Consistent footer map' content := by
  constructor
  · rw [h.header_eq, h.table_eq]
    exact hmap.onDisk
  · exact hmap.aligned
  · apply h.exact'.coherent
    rw [h.size_eq, h.header_eq]
    exact hmap.coherent.size_bytes

theorem exact_fresh (header : BlockHeader) (table : BlockTable) (content : Content) :
    (fresh header table).Exact content :=
  ⟨rfl, fun _ cached => nomatch cached⟩

end BlockMap

namespace Storage

variable {σ : Type} {disk : ι}

theorem Protocol.watching_governs_sole :
    (watching disk content False).Governs sole fun world => world = content := by
  rintro other request _ rfl hpermits
  obtain ⟨-, hkeeps⟩ := hpermits.resolve_right fun hother => hother.2
  exact ⟨fun _ => .inl rfl, Medium.serve_of_not_changes hkeeps _⟩

theorem Engine.Keeps.runOn_sole {engine : Engine ι σ α} {state : σ} {cause : Error → Prop}
    {R : σ → σ → Prop} (h : engine.Keeps (.watching disk content False) cause R state) :
    (engine.runOn sole state content).2 = content ∧
      R state (engine.runOn sole state content).1.2 :=
  (h.runOn_state Protocol.watching_governs_sole content rfl).symm

end Storage

namespace Image

variable {image image' : Image ι} {map map' : BlockMap}

theorem eq_withBlocks (disk : image'.disk = image.disk) (footer : image'.footer = image.footer)
    (readOnly : image'.readOnly = image.readOnly) (diskType : image'.diskType = image.diskType)
    (hmap' : image'.blocks? = some map') : image' = image.withBlocks map' := by
  obtain ⟨_, _, layout, _⟩ := image
  obtain ⟨_, _, layout', _⟩ := image'
  cases disk
  cases footer
  cases readOnly
  cases layout' with
  | fixed => cases hmap'
  | dynamic found =>
    cases hmap'
    cases layout with
    | dynamic => rfl
    | fixed => cases diskType
    | differencing => cases diskType
  | differencing found =>
    cases hmap'
    cases layout with
    | differencing => rfl
    | fixed => cases diskType
    | dynamic => cases diskType

theorem Stays.beside (h : image.Stays content image') (hmap : image.blocks? = some map)
    (exact : map.Exact content) : image.Beside image' content := by
  have twin := h.twin fun found hfound => Option.some.inj (hmap.symm.trans hfound) ▸ exact
  obtain ⟨map', hmap', htwin⟩ := twin.blocks map hmap
  refine ⟨map, map', hmap, ?_, htwin⟩
  exact eq_withBlocks h.disk_eq twin.footer_eq h.readOnly_eq twin.diskType_eq hmap'

end Image

namespace BlockCall

open Engine

variable {image : Image ι} {map : BlockMap} {call : BlockCall}

theorem keeps_exact {P : Protocol ι} (R : P.Reads image.disk content)
    (exact : image.Exact content) (reads : call.Reads) :
    call.engine.Keeps P (fun _ => True) (Image.Stays content) image := by
  cases call with
  | use op => cases op with
    | read offset count buffer =>
      apply keeps_bind _ fun _ _ _ => keeps_pure _
      apply keeps_bind (Image.read_keeps_exact R exact offset count buffer)
      exact fun _ _ _ => keeps_pure _
    | write => exact reads.elim
    | flush => exact reads.elim
  | look sector =>
    exact keeps_bind (Image.holds_keeps_exact R exact sector) fun _ _ _ => keeps_pure _
  | readBlocks offset count buffer =>
    apply keeps_bind (Image.readBlocks_keeps_exact R exact offset count buffer)
    exact fun _ _ _ => keeps_pure _
  | writeBlocks => exact reads.elim
  | reopen => exact reads.elim

/-- Whether or not it succeeds, a read changes nothing but what is cached. -/
theorem beside_of_reads (hmap : image.blocks? = some map) (exact : map.Exact content)
    (reads : call.Reads) :
    (call.engine.runOn sole image content).2 = content ∧
      image.Beside (call.engine.runOn sole image content).1.2 content := by
  have hexact : image.Exact content :=
    fun found hfound => Option.some.inj (hmap.symm.trans hfound) ▸ exact
  have hkeeps := keeps_exact (P := .watching image.disk content False) Protocol.watching_reads
    hexact reads
  obtain ⟨hcontent, hstays⟩ := hkeeps.runOn_sole
  exact ⟨hcontent, hstays.beside hmap exact⟩

end BlockCall

namespace Image

variable {image image' : Image ι} {map map' : BlockMap}

/-- The image is synced, no bitmap is cached but one that is stored, and the storage does not
outgrow 64 bits, whatever is allocated. -/
structure ExactWithRoom (image : Image ι) (map : BlockMap) (content : Content) : Prop where
  synced : Synced image map content
  exact : map.Exact content
  room : content.size + map.header.allocationBytes * map.table.vacant < 2 ^ 63

theorem NewImage.exactWithRoom {disk : ι} {options : CreateOptions} {size : UInt64}
    {geometry : Geometry} {diskType : DiskType} {parent : ParentRecord}
    (h : NewImage disk options size geometry diskType parent image content)
    (hkind : diskType ≠ .fixed) :
    ExactWithRoom image (.fresh (newHeader options size parent)
      (.blank tablePosition (blockCount size options.blockSize))) content :=
  ⟨h.synced hkind, BlockMap.exact_fresh .., h.room⟩

theorem NewImage.exact {disk : ι} {options : CreateOptions} {size : UInt64} {geometry : Geometry}
    {diskType : DiskType} {parent : ParentRecord}
    (h : NewImage disk options size geometry diskType parent image content)
    (hkind : diskType ≠ .fixed) : image.Exact content := by
  intro map hmap
  obtain rfl := Option.some.inj ((h.blocks?_eq hkind).symm.trans hmap)
  exact (h.exactWithRoom hkind).exact

namespace ExactWithRoom

theorem size_lt (h : ExactWithRoom image map content) : content.size < 2 ^ 64 :=
  Nat.lt_trans (Nat.lt_of_le_of_lt (Nat.le_add_right _ _) h.room) (by decide)

theorem beside (h : ExactWithRoom image map content) (beside : image.Beside image' content) :
    ∃ map', ExactWithRoom image' map' content := by
  obtain ⟨found, map', hfound, rfl, twin⟩ := beside
  obtain rfl : map = found := Option.some.inj (h.synced.blocks.symm.trans hfound)
  refine ⟨map', ?_, twin.exact', ?_⟩
  · constructor
    · exact blocks?_withBlocks h.synced.blocks
    · exact diskType_withBlocks.trans h.synced.kind
    · exact twin.consistent h.synced.consistent
    · exact h.synced.isSealed
    · exact twin.exact'.clean
  · rw [twin.header_eq, twin.table_eq]
    exact h.room

theorem opened (h : ExactWithRoom image map content) (disk : ι) (readOnly : Bool) :
    ExactWithRoom (opened disk image.footer map.header map.table readOnly)
      (.fresh map.header map.table) content := by
  constructor
  · exact .of_opened h.synced.consistent.onDisk h.synced.consistent.aligned h.synced.isSealed
      h.synced.footer_ne_fixed disk readOnly
  · exact BlockMap.exact_fresh ..
  · exact h.room

theorem runOn_ofDisk (h : ExactWithRoom image map content) (readOnly : Bool) :
    (ofDisk image.disk readOnly).runOn sole content =
      (.ok (Image.opened image.disk image.footer map.header map.table readOnly), content) :=
  Image.runOn_ofDisk image.disk h.synced.consistent.onDisk h.synced.footer_ne_fixed h.size_lt
    readOnly

theorem runOn_reopen (h : ExactWithRoom image map content) (readOnly : Bool) :
    (reopen readOnly).runOn sole image content =
      ((.ok (), Image.opened image.disk image.footer map.header map.table readOnly), content) := by
  have hopen := (Engine.runOn_liftAccess sole (ofDisk image.disk readOnly) image content).trans
    (by rw [h.runOn_ofDisk])
  rw [reopen, Engine.runOn_bind_ok (Engine.runOn_get ..), Engine.runOn_bind_ok hopen]
  rfl

end ExactWithRoom

end Image

end VirtualDisk
