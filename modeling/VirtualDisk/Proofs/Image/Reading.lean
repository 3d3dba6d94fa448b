import VirtualDisk.Proofs.Blocks.Reading
import VirtualDisk.Proofs.Image.Keeping

/-!
# Images that are only read

Images with the same footer whose maps are twins are twins themselves: what they are read as is the
same, wherever they are. A read-only image on a disk that may only be read stays a twin of what it
was, whatever is done with it and whether or not requests fail.
-/

namespace VirtualDisk

open Storage

variable {ι α : Type}

namespace Image

/-- The bitmap that is cached, if there is one, is the one that is stored. -/
def Exact (image : Image ι) (content : Content) : Prop :=
  ∀ map, image.blocks? = some map → map.Exact content

/-- Images that say the same about what is on the disk. -/
structure Twin (image image' : Image ι) (content : Content) : Prop where
  footer_eq : image'.footer = image.footer
  diskType_eq : image'.diskType = image.diskType
  blocks : ∀ map, image.blocks? = some map →
    ∃ map', image'.blocks? = some map' ∧ map.Twin map' content

variable {image image' image'' : Image ι} {content : Content} {map map' : BlockMap}

theorem Exact.twin (h : image.Exact content) : image.Twin image content :=
  ⟨rfl, rfl, fun map hmap => ⟨map, hmap, (h map hmap).twin⟩⟩

theorem Twin.trans (h : image.Twin image' content) (h' : image'.Twin image'' content) :
    image.Twin image'' content := by
  refine ⟨h'.footer_eq.trans h.footer_eq, h'.diskType_eq.trans h.diskType_eq, fun map hmap => ?_⟩
  obtain ⟨map', hmap', htwin⟩ := h.blocks map hmap
  obtain ⟨map'', hmap'', htwin'⟩ := h'.blocks map' hmap'
  exact ⟨map'', hmap'', htwin.trans htwin'⟩

theorem exists_blocks_iff : (∃ map, image.blocks? = some map) ↔ image.diskType ≠ .fixed := by
  obtain ⟨disk, footer, layout, readOnly⟩ := image
  cases layout with
  | fixed => exact iff_of_false (fun h => nomatch h.choose_spec) fun h => h rfl
  | dynamic map => exact iff_of_true ⟨map, rfl⟩ fun h => nomatch h
  | differencing map => exact iff_of_true ⟨map, rfl⟩ fun h => nomatch h

theorem Twin.exact' (h : image.Twin image' content) : image'.Exact content := by
  intro map' hmap'
  obtain ⟨map, hmap⟩ : ∃ map, image.blocks? = some map := by
    rw [exists_blocks_iff, ← h.diskType_eq, ← exists_blocks_iff]
    exact ⟨map', hmap'⟩
  obtain ⟨found, hfound, htwin⟩ := h.blocks map hmap
  rw [hmap', Option.some.injEq] at hfound
  exact hfound ▸ htwin.exact'

theorem Exact.twin_withBlocks (h : image.Exact content) (hmap : image.blocks? = some map)
    (hstays : map.Stays content map') : image.Twin (image.withBlocks map') content := by
  refine ⟨rfl, diskType_withBlocks, fun found hfound => ⟨map', blocks?_withBlocks hmap, ?_⟩⟩
  obtain rfl := Option.some.inj (hmap.symm.trans hfound)
  exact hstays (h map hmap)

theorem Twin.totalSectors_eq (h : image.Twin image' content) :
    image'.totalSectors = image.totalSectors := by
  rw [totalSectors, totalSectors, h.footer_eq]

theorem Twin.span_eq (h : image.Twin image' content) (offset count : Nat) :
    image'.span offset count = image.span offset count := by
  rw [span, span, h.totalSectors_eq]

theorem Twin.runOn_readFlat (h : image.Twin image' content) (offset count : Nat)
    (buffer : ByteArray) :
    (image'.readFlat offset count buffer).runOn sole content =
      (image.readFlat offset count buffer).runOn sole content := by
  unfold readFlat
  rw [h.span_eq]
  apply Access.runOn_bind_congr rfl
  intro _ content
  dsimp only
  split
  · rfl
  · apply Access.runOn_bind_congr rfl
    intro size content
    apply Access.runOn_bind_congr rfl
    intro position content
    apply Access.runOn_bind_congr _ fun _ _ => rfl
    rw [Access.runOn_readWithin, Access.runOn_readWithin]
    rfl

theorem runOn_onBlocks {ω : Type} (hmap : image.blocks? = some map)
    (engine : ι → Engine ι BlockMap α) (server : Server ι ω) (world : ω) :
    (onBlocks engine).runOn server image world =
      ((((engine image.disk).runOn server map world).1.1,
        image.withBlocks ((engine image.disk).runOn server map world).1.2),
        ((engine image.disk).runOn server map world).2) := by
  rw [onBlocks, Engine.runOn_bind_ok (Engine.runOn_get ..), hmap]
  exact Engine.runOn_on ..

theorem Twin.runOn_holds (h : image.Twin image' content) (hmap : image.blocks? = some map)
    (sector : Nat) :
    ((onBlocks fun disk => BlockMap.holds disk sector).runOn sole image' content).1.1 =
      ((onBlocks fun disk => BlockMap.holds disk sector).runOn sole image content).1.1 := by
  obtain ⟨map', hmap', htwin⟩ := h.blocks map hmap
  rw [runOn_onBlocks hmap, runOn_onBlocks hmap',
    (htwin.holds image.disk image'.disk sector).result_eq]

theorem Twin.runOn_readBlocks (h : image.Twin image' content) (hmap : image.blocks? = some map)
    (offset count : Nat) (buffer : ByteArray) :
    ((readBlocks offset count buffer).runOn sole image' content).1.1 =
      ((readBlocks offset count buffer).runOn sole image content).1.1 := by
  obtain ⟨map', hmap', htwin⟩ := h.blocks map hmap
  rw [readBlocks, Engine.runOn_bind, Engine.runOn_bind, Engine.runOn_liftExcept,
    Engine.runOn_liftExcept]
  cases Buffer.check buffer.size count with
  | error e => rfl
  | ok _ =>
    dsimp only
    rw [Engine.runOn_bind_ok (Engine.runOn_get ..), Engine.runOn_bind_ok (Engine.runOn_get ..),
      h.span_eq, Engine.result_bind_pure, Engine.result_bind_pure, runOn_onBlocks hmap,
      runOn_onBlocks hmap', (htwin.readSectors image.disk image'.disk _ _ _ _).result_eq]

/-- Twins are read alike, wherever they are. -/
theorem Twin.runOn_read (h : image.Twin image' content) (offset count : Nat)
    (buffer : ByteArray) :
    ((read offset count buffer).runOn sole image' content).1.1 =
      ((read offset count buffer).runOn sole image content).1.1 := by
  have hkind : image'.layout.diskType = image.layout.diskType := h.diskType_eq
  rw [read, Engine.runOn_bind_ok (Engine.runOn_get ..), Engine.runOn_bind_ok (Engine.runOn_get ..)]
  cases hlayout : image.layout with
  | fixed =>
    have hlayout' : image'.layout = .fixed :=
      layout_of_fixed (hkind.trans (congrArg Layout.diskType hlayout))
    rw [hlayout']
    simp only [Engine.runOn_liftAccess]
    rw [h.runOn_readFlat]
  | dynamic map =>
    have hmap : image.blocks? = some map := congrArg Layout.blocks? hlayout
    rw [hlayout] at hkind
    cases hlayout' : image'.layout with
    | dynamic map' => exact h.runOn_readBlocks hmap offset count buffer
    | fixed => cases hlayout' ▸ hkind
    | differencing map' => cases hlayout' ▸ hkind
  | differencing map =>
    rw [hlayout] at hkind
    cases hlayout' : image'.layout with
    | differencing map' => rfl
    | fixed => cases hlayout' ▸ hkind
    | dynamic map' => cases hlayout' ▸ hkind

open Engine

/-- The image is where it was, in the same mode, and a twin of what it was if that was exact. -/
structure Stays (content : Content) (image image' : Image ι) : Prop where
  disk_eq : image'.disk = image.disk
  readOnly_eq : image'.readOnly = image.readOnly
  twin : image.Exact content → image.Twin image' content

instance : IsPreorder (Image ι) (Stays content) where
  refl _ := ⟨rfl, rfl, Exact.twin⟩
  trans _ _ _ h h' := ⟨h'.disk_eq.trans h.disk_eq, h'.readOnly_eq.trans h.readOnly_eq,
    fun exact => (h.twin exact).trans (h'.twin (h.twin exact).exact')⟩

variable {P : Protocol ι} (R : P.Reads image.disk content) (exact : image.Exact content)

include exact in
theorem onBlocks_keeps_exact {engine : ι → Engine ι BlockMap α}
    (h : ∀ map : BlockMap, map.Exact content →
      (engine image.disk).Keeps P (fun _ => True) (BlockMap.Stays content) map) :
    (onBlocks engine).Keeps P (fun _ => True) (Stays content) image := by
  apply keeps_get_bind
  split
  · next map hmap =>
    have hstays : ∀ map', map.Stays content map' → image.Stays content (image.withBlocks map') :=
      fun map' hmap' => ⟨rfl, rfl, fun exact => exact.twin_withBlocks hmap hmap'⟩
    exact obeys_on.mpr ((h map (exact map hmap)).mono (fun _ _ hmap' => hstays _ hmap')
      fun _ _ he => ⟨trivial, hstays _ he.2⟩)
  · exact keeps_throw trivial

include R

theorem readFlat_reads (offset count : Nat) (buffer : ByteArray) :
    (image.readFlat offset count buffer).Minds P fun _ => True := by
  apply Access.minds_bind (Access.minds_result _)
  intro _
  dsimp only
  split
  · exact Access.minds_pure _
  · exact Access.minds_bind (Access.minds_result _) fun _ =>
      Access.minds_bind (Access.minds_result _) fun _ =>
        Access.minds_bind (Access.readWithin_reads R _ _ _) fun _ =>
          Access.minds_bind (Access.minds_result _) fun _ => Access.minds_pure _

omit R in
/-- A row of sectors is read from the one disk of the image, on a shelf as on that disk alone. -/
theorem runOn_readFlat_shelf [DecidableEq ι] (image : Image ι) (offset count : Nat)
    (buffer : ByteArray) (contents : ι → Content) :
    (image.readFlat offset count buffer).runOn shelf contents =
      (((image.readFlat offset count buffer).runOn sole (contents image.disk)).1, contents) :=
  (Program.Obeys.run_shelf (readFlat_reads Protocol.watching_reads offset count buffer)).1

include exact

theorem holds_keeps_exact (sector : Nat) :
    (onBlocks fun disk => BlockMap.holds disk sector).Keeps P (fun _ => True) (Stays content)
      image :=
  onBlocks_keeps_exact exact fun _ hmap => BlockMap.holds_keeps_exact R hmap sector

theorem readBlocks_keeps_exact (offset count : Nat) (buffer : ByteArray) :
    (readBlocks offset count buffer).Keeps P (fun _ => True) (Stays content) image := by
  apply keeps_bind (keeps_result _)
  intro _ image' hstays
  apply keeps_get_bind
  rw [← hstays.disk_eq] at R
  apply keeps_bind
  · exact onBlocks_keeps_exact (hstays.twin exact).exact' fun _ hmap =>
      BlockMap.readSectors_keeps_exact R hmap _ _ _ _
  · exact fun _ _ _ => keeps_pure _

theorem read_keeps_exact (offset count : Nat) (buffer : ByteArray) :
    (read offset count buffer).Keeps P (fun _ => True) (Stays content) image := by
  apply keeps_get_bind
  split
  · exact keeps_liftAccess (readFlat_reads R _ _ _)
  · exact readBlocks_keeps_exact R exact _ _ _
  · exact keeps_throw trivial

theorem flush_keeps_exact : flush.Keeps P (fun _ => True) (Stays content) image := by
  apply keeps_get_bind
  split
  · apply keeps_bind (onBlocks_keeps_exact exact fun _ hmap => BlockMap.flush_keeps_exact hmap)
    exact fun _ _ _ => keeps_liftAccess (Access.ask_reads R id)
  · exact keeps_liftAccess (Access.ask_reads R id)

theorem operation_keeps_exact (mode : image.readOnly = true) (op : Operation) :
    op.engine.Keeps P (fun _ => True) (Stays content) image := by
  cases op with
  | read offset count buffer =>
    exact keeps_bind (read_keeps_exact R exact offset count buffer) fun _ _ _ => keeps_pure _
  | write offset count buffer =>
    apply keeps_bind _ fun _ _ _ => keeps_pure _
    apply keeps_get_bind
    rw [if_pos mode]
    exact keeps_pure 0
  | flush => exact keeps_bind (flush_keeps_exact R exact) fun _ _ _ => keeps_pure _

end Image

end VirtualDisk

namespace VirtualDisk

open Storage

variable {ι : Type} {content content' : Content}

theorem Found.unique {footer footer' : Footer} (h : Found footer content)
    (h' : Found footer' content') (same : content.SameBytes content') : footer' = footer := by
  have htail : content'.tail = content.tail := by
    rw [Content.tail, Content.tail, same.size_eq, same.read_eq]
  obtain hparsed' | ⟨⟨e', he'⟩, hcopy'⟩ := h'.parsed
  · rw [htail] at hparsed'
    obtain hparsed | ⟨⟨e, he⟩, -⟩ := h.parsed
    · exact Except.ok.inj (hparsed'.symm.trans hparsed)
    · cases hparsed'.symm.trans he
  · rw [htail] at he'
    rw [same.read_eq] at hcopy'
    obtain hparsed | ⟨-, hcopy⟩ := h.parsed
    · cases he'.symm.trans hparsed
    · exact Except.ok.inj (hcopy'.symm.trans hcopy)

theorem Legible.unique {footer : Footer} {header header' : BlockHeader} {table table' : BlockTable}
    (h : Legible footer header table content) (h' : Legible footer header' table' content')
    (same : content.SameBytes content') : header' = header ∧ table' = table := by
  have hheader : header' = header := by
    have hparse := h'.header_bytes
    rw [same.read_eq] at hparse
    exact Except.ok.inj (hparse.symm.trans h.header_bytes)
  refine ⟨hheader, ?_⟩
  have hoffset : table'.offset = table.offset := by rw [h'.offset_eq, h.offset_eq, hheader]
  have hsize : table'.size = table.size := by rw [h'.size_eq, h.size_eq, hheader]
  have hentries : table'.entries = table.entries := by
    rw [← h'.recorded.decode_eq, ← h.recorded.decode_eq, hoffset, hsize, same.read_eq]
  obtain ⟨offset, entries⟩ := table
  obtain ⟨offset', entries'⟩ := table'
  exact BlockTable.mk.injEq .. ▸ ⟨hoffset, hentries⟩

namespace Image

variable {disk disk' : ι} {readOnly readOnly' : Bool} {image image' : Image ι}

theorem OpenedAs.disk_eq (h : OpenedAs disk readOnly content image) : image.disk = disk := by
  cases h <;> rfl

theorem OpenedAs.readOnly_eq (h : OpenedAs disk readOnly content image) :
    image.readOnly = readOnly := by
  cases h <;> rfl

theorem OpenedAs.exact (h : OpenedAs disk readOnly content image) : image.Exact content := by
  intro map hmap
  cases h with
  | fixed => cases hmap
  | @blocks footer header table found kind =>
    rw [blocks?_opened disk kind] at hmap
    obtain rfl := Option.some.inj hmap
    exact ⟨rfl, fun block hblock => nomatch hblock⟩

/-- What is opened depends on the bytes only. -/
theorem OpenedAs.twin (h : OpenedAs disk readOnly content image)
    (h' : OpenedAs disk' readOnly' content' image') (same : content.SameBytes content') :
    image.Twin image' content := by
  have exact := h.exact
  cases h with
  | fixed found kind => cases h' with
    | fixed found' => exact ⟨found.unique found' same, rfl, fun _ hmap => nomatch hmap⟩
    | blocks found' kind' => exact absurd (found.unique found' same ▸ kind) kind'
  | @blocks footer header table found kind legible => cases h' with
    | fixed found' kind' => exact absurd (found.unique found' same ▸ kind') kind
    | @blocks footer' header' table' found' _ legible' =>
      obtain rfl := found.unique found' same
      obtain ⟨rfl, rfl⟩ := legible.unique legible' same
      exact ⟨rfl, rfl, fun map hmap => ⟨map, hmap, (exact map hmap).twin⟩⟩

end Image

end VirtualDisk
