import VirtualDisk.Proofs.Storage.History
import VirtualDisk.Proofs.Blocks.Progress
import VirtualDisk.Proofs.Image.Appending

/-!
# What happens to the storage of an image

A chronicle lists the contents that the storage of an image had since the image was created, call by
call, whichever calls failed. In every state the table in memory is the one on the storage, and all
regions have their own place between the table and the last sector. Over time, copy and header stay
what they are, entries are recorded once and for all, and each of them is larger than those before;
when one is recorded, the storage ends with the copy of the footer.
-/

namespace VirtualDisk

open Storage

variable {ι : Type}

/-- The call goes by the blocks of an image. -/
def ImageCall.OnBlocks : ImageCall → Prop
  | readFlat _ _ _ => False
  | writeFlat _ _ _ => False
  | _ => True

/-- A storage that may fail, and whose requests are progress. -/
def Storage.Setting.progressing (disk : ι) (footer : Footer) (table : BlockTable) :
    Setting ι where
  disk
  mayFail := True
  within content := content.size < sizeLimit
  permits request content := (Medium.memory.serve request content).2.size < sizeLimit →
    Progress footer table content (Medium.memory.serve request content).2

theorem Storage.Setting.moves_progressing (disk : ι) (footer : Footer) (table : BlockTable) :
    (Setting.progressing disk footer table).Moves (Progress footer table) :=
  fun _ _ _ hw permits => permits hw

/-- An arrangement with the table where it was. -/
def ArrangedAt (footer : Footer) (table : BlockTable) (map : BlockMap) (content : Content) : Prop :=
  Arranged footer map content ∧ map.table.offset = table.offset ∧ map.table.size = table.size

/-- All operations keep the arrangement, and all their requests are progress. -/
theorem progressing_regime (disk : ι) (footer : Footer) (table : BlockTable) :
    Regime (.progressing disk footer table) (fun _ => True) (ArrangedAt footer table) where
  small _ hw := Nat.lt_trans hw (by decide)
  wellSized _ _ h := h.1.wellSized
  ask map content current request h hw asked hw' :=
    (h.1.progress asked hw hw').congr h.2.1.symm h.2.2.symm
  effect map content map' content' h _ _ effect :=
    ⟨h.1.effect effect, effect.offset_eq.trans h.2.1, effect.size_eq.trans h.2.2⟩

/-- In memory and on the storage every block has its own place. -/
structure WellPlaced (map : BlockMap) (content : Content) : Prop where
  recorded : map.table.Recorded content
  region_after : ∀ block start, map.table.place? block = some start →
    map.table.offset + map.table.size * 4 ≤ start * 512
  region_room : ∀ block start, map.table.place? block = some start →
    start * 512 + map.header.regionSectors * 512 + 512 ≤ content.size
  regions_apart : ∀ block other start start', block ≠ other →
    map.table.place? block = some start → map.table.place? other = some start' →
      Apart (start * 512) (map.header.regionSectors * 512) (start' * 512)
        (map.header.regionSectors * 512)

theorem Arranged.wellPlaced {footer : Footer} {map : BlockMap} {content : Content}
    (h : Arranged footer map content) : WellPlaced map content where
  recorded := h.onDisk.recorded
  region_after := h.region_after
  region_room := h.onDisk.region_room
  regions_apart := h.onDisk.regions_apart

namespace Image

/-- Images with blocks on a storage that may fail, with all contents since their creation. -/
inductive Chronicle : List Content → Image ι → Content → Prop
  | dynamic {disk : ι} {options : CreateOptions} {prior content : Content} {image : Image ι}
      (created : (createDynamic disk options).runOn sole prior = (.ok image, content)) :
      Chronicle [content] image content
  | differencing {κ : Type} {parent : Image κ} {disk : ι} {options : CreateOptions}
      {prior content : Content} {image : Image ι}
      (created : (createDifferencing disk parent options).runOn sole prior = (.ok image, content)) :
      Chronicle [content] image content
  /-- A sector is looked up, as reads of differencing images do. -/
  | resolved {contents : List Content} {image image' : Image ι} {content content' : Content}
      {sector : Nat} {held : Except Error Bool} {plan plan' : List (Option Error)}
      (before : Chronicle contents image content) (inside : sector < image.totalSectors)
      (run : (onBlocks fun disk => BlockMap.holds disk sector).runOn (Server.flaky sole) image
        (content, plan) = ((held, image'), content', plan')) :
      Chronicle
        (contents ++ (onBlocks fun disk => BlockMap.holds disk sector).contents image content plan)
        image' content'
  | called {contents : List Content} {image image' : Image ι} {content content' : Content}
      {call : ImageCall} {result : Except Error Answer} {plan plan' : List (Option Error)}
      (before : Chronicle contents image content) (onBlocks : call.OnBlocks)
      (run : call.engine.runOn (Server.flaky sole) image (content, plan) =
        ((result, image'), content', plan')) :
      Chronicle (contents ++ call.engine.contents image content plan) image' content'

variable {image image' : Image ι} {map : BlockMap} {content content' : Content}

theorem NewImage.arranged {disk : ι} {options : CreateOptions} {size : UInt64} {geometry : Geometry}
    {diskType : DiskType} {parent : ParentRecord}
    (h : NewImage disk options size geometry diskType parent image content) :
    Arranged image.footer (.fresh (newHeader options size parent)
      (.blank tablePosition (blockCount size options.blockSize))) content := by
  have hconsistent := h.consistent
  have hfits := h.onDisk.fits
  have hsmall : content.size < 2 ^ 64 := Nat.lt_trans h.size_lt (by decide)
  refine ⟨(h.onDisk.legible hsmall).wellSized ⟨hfits.bytes_le, hfits.covered⟩, h.onDisk,
    hconsistent.aligned, fun block start place => ?_, fun block start place => ?_, .inl h.isSealed,
    fun _ p hp hp' => ?_⟩
  · cases (BlockTable.place?_blank _ _ _).symm.trans place
  · cases (BlockTable.place?_blank _ _ _).symm.trans place
  · rw [h.padding p hp hp']
    decide

/-- What an engine on the blocks of an image does on a storage that may fail. -/
def Endures {α : Type} (engine : Engine ι (Image ι) α) (image : Image ι) (map : BlockMap)
    (content : Content) : Prop :=
  engine.Ensures (.progressing image.disk image.footer map.table)
    (fun _ image' content' => Under (ArrangedAt image.footer map.table) image image' content')
    (fun _ image' content' => Under (ArrangedAt image.footer map.table) image image' content')
    image content

/-- The run of such an engine leaves the image arranged, and its contents are a chain. -/
theorem Endures.run {α : Type} {engine : Engine ι (Image ι) α} {result : Except Error α}
    {plan plan' : List (Option Error)} (h : Endures engine image map content) (grows : engine.Grows)
    (run : engine.runOn (Server.flaky sole) image (content, plan) =
      ((result, image'), content', plan'))
    (small : content'.size < sizeLimit) :
    Under (ArrangedAt image.footer map.table) image image' content' ∧
      (engine.contents image content plan).IsChain (Progress image.footer map.table) := by
  have hw : ∀ other : Content,
      other.size ≤ (engine.runOn (Server.flaky sole) image (content, plan)).2.1.size →
        other.size < sizeLimit := by
    rw [run]
    exact fun other hle => Nat.lt_of_le_of_lt hle small
  refine ⟨?_, Engine.Ensures.isChain_contents h trivial grows hw
    (Setting.moves_progressing _ _ _) Progress.refl⟩
  have hpost := Engine.Ensures.of_flaky_run h trivial grows (fun _ hsmall => hsmall) run small
  cases result with
  | ok a => exact hpost
  | error e => exact hpost

theorem endures_call (blocks : image.blocks? = some map) (h : Arranged image.footer map content)
    {call : ImageCall} (onBlocks : call.OnBlocks) : Endures call.engine image map content := by
  have R := progressing_regime image.disk image.footer map.table
  have hself : ArrangedAt image.footer map.table map content := ⟨h, rfl, rfl⟩
  have hcovered : image.totalSectors ≤ map.capacity := h.onDisk.fits.covered
  cases call with
  | use op =>
    exact (op.governed R rfl blocks hcovered hself (op.wants_all image map)).mono
      (fun _ _ _ _ h' => h') fun _ _ _ _ hfailed => hfailed.1
  | readFlat offset count buffer => exact onBlocks.elim
  | writeFlat offset count buffer => exact onBlocks.elim
  | readBlocks offset count buffer =>
    simp only [Endures, ImageCall.engine, Engine.ensures_bind, Engine.ensures_pure]
    exact (readBlocks_governed R rfl blocks hcovered hself fun _ _ => .of_wanted trivial _).mono
      (fun _ _ _ _ h' _ => h'.1) fun _ _ _ _ hfailed => hfailed.1
  | writeBlocks offset count buffer =>
    simp only [Endures, ImageCall.engine, Engine.ensures_bind, Engine.ensures_pure]
    exact (writeBlocks_governed R rfl blocks hcovered hself fun _ _ => trivial).mono
      (fun _ _ _ _ h' _ => h') fun _ _ _ _ hfailed => hfailed.1

theorem endures_holds (blocks : image.blocks? = some map) (h : Arranged image.footer map content)
    {sector : Nat} (inside : sector < image.totalSectors) :
    Endures (onBlocks fun disk => BlockMap.holds disk sector) image map content :=
  (holds_governed (progressing_regime image.disk image.footer map.table) rfl blocks
    h.onDisk.fits.covered ⟨h, rfl, rfl⟩ (.of_wanted trivial _) inside).mono (fun _ _ _ _ h' => h')
    fun _ _ _ _ hfailed => hfailed.1

variable {contents : List Content}

theorem Chronicle.getLast?_eq (h : Chronicle contents image content) :
    contents.getLast? = some content := by
  cases h with
  | dynamic created => rfl
  | differencing created => rfl
  | resolved before inside run => rw [List.getLast?_append, Engine.getLast?_contents, run]; rfl
  | called before onBlocks run => rw [List.getLast?_append, Engine.getLast?_contents, run]; rfl

/-- What all images with blocks have in common. -/
def Chronicled (contents : List Content) (image : Image ι) (content : Content) : Prop :=
  ∃ map, image.blocks? = some map ∧ Arranged image.footer map content ∧
    contents.IsChain (Progress image.footer map.table)

theorem Chronicled.next {α : Type} {engine : Engine ι (Image ι) α} {result : Except Error α}
    {plan plan' : List (Option Error)} (h : Chronicled contents image content)
    (last : contents.getLast? = some content) (grows : engine.Grows)
    (endures : ∀ map, image.blocks? = some map → Arranged image.footer map content →
      Endures engine image map content)
    (run : engine.runOn (Server.flaky sole) image (content, plan) =
      ((result, image'), content', plan')) (small : content'.size < sizeLimit) :
    Chronicled (contents ++ engine.contents image content plan) image' content' := by
  obtain ⟨map, hblocks, harranged, hchain⟩ := h
  obtain ⟨⟨map', rfl, harranged', hoffset, hsize⟩, hchain'⟩ :=
    (endures map hblocks harranged).run grows run small
  refine ⟨map', blocks?_withBlocks hblocks, harranged', ?_⟩
  have hwhole : (contents ++ engine.contents image content plan).IsChain
      (Progress image.footer map.table) := by
    refine hchain.append hchain' fun before hbefore after hafter => ?_
    rw [last, Option.mem_some] at hbefore
    rw [Engine.head?_contents, Option.mem_some] at hafter
    rw [← hbefore, ← hafter]
    exact .refl content
  exact hwhole.imp fun _ _ hprogress => hprogress.congr hoffset hsize

/-- A storage that only grew was not too large before, whichever calls failed. -/
theorem small_of_flaky {α : Type} {engine : Engine ι (Image ι) α} {result : Except Error α}
    {plan plan' : List (Option Error)} (grows : engine.Grows)
    (run : engine.runOn (Server.flaky sole) image (content, plan) =
      ((result, image'), content', plan')) (small : content'.size < sizeLimit) :
    content.size < sizeLimit := by
  have hle := (grows image).size_le_run neverShrinks_sole.flaky (content, plan)
  change content.size ≤ (engine.runOn (Server.flaky sole) image (content, plan)).2.1.size at hle
  rw [run] at hle
  exact Nat.lt_of_le_of_lt hle small

theorem Chronicle.chronicled (h : Chronicle contents image content)
    (small : content.size < sizeLimit) : Chronicled contents image content := by
  induction h with
  | dynamic created =>
    obtain ⟨geometry, hnew⟩ := newImage_of_createDynamic created
    exact ⟨_, hnew.blocks?_eq (by decide), hnew.arranged, .singleton _⟩
  | differencing created =>
    have hnew := newImage_of_createDifferencing created
    exact ⟨_, hnew.blocks?_eq (by decide), hnew.arranged, .singleton _⟩
  | @resolved contents image image' content content' sector held plan plan' before inside run ih =>
    have grows :
        (onBlocks fun disk => BlockMap.holds disk sector : Engine ι (Image ι) Bool).Grows :=
      grows_onBlocks fun disk => BlockMap.grows_holds disk sector
    exact (ih (small_of_flaky grows run small)).next before.getLast?_eq grows
      (fun _ blocks harranged => endures_holds blocks harranged inside) run small
  | @called contents image image' content content' call result plan plan' before onBlocks run ih =>
    exact (ih (small_of_flaky call.grows_engine run small)).next before.getLast?_eq
      call.grows_engine (fun _ blocks harranged => endures_call blocks harranged onBlocks) run small

/-- Whatever is done with an image with blocks, and whichever calls fail on the way, all blocks are
placed well at the end, every request in its chronicle was progress, and any content in it is later
than any before. -/
theorem chronicle_progresses (h : Chronicle contents image content)
    (small : content.size < sizeLimit) : ∃ map, image.blocks? = some map ∧ WellPlaced map content ∧
      contents.IsChain (Progress image.footer map.table) ∧
      contents.Pairwise (Later image.footer map.table) := by
  obtain ⟨map, hblocks, harranged, hchain⟩ := h.chronicled small
  refine ⟨map, hblocks, harranged.wellPlaced, hchain, ?_⟩
  rw [← List.isChain_iff_pairwise]
  exact hchain.imp fun _ _ hprogress => hprogress.toLater

/-- On a small disk: the first block is written. -/
theorem chronicle_progresses_small : ∃ (image image' : Image Unit) (map : BlockMap)
    (before content : Content),
    Chronicle ([before] ++ (ImageCall.writeBlocks 0 1
        (Bytes.replicate 512 0x5a).toByteArray).engine.contents image before []) image' content ∧
      content.size < sizeLimit ∧ image'.blocks? = some map ∧ WellPlaced map content ∧
      ([before] ++ (ImageCall.writeBlocks 0 1
        (Bytes.replicate 512 0x5a).toByteArray).engine.contents image before []).IsChain
          (Progress image'.footer map.table) ∧
      ([before] ++ (ImageCall.writeBlocks 0 1
        (Bytes.replicate 512 0x5a).toByteArray).engine.contents image before []).Pairwise
          (Later image'.footer map.table) := by
  obtain ⟨image, before, content, map, truncated, created, -, written, h⟩ := exists_halfWritten
  have hrun : (ImageCall.writeBlocks 0 1 (Bytes.replicate 512 0x5a).toByteArray).engine.runOn
      (Server.flaky sole) image (before, []) =
        ((.ok (.written truncated), image.withBlocks map), content, []) := by
    rw [Engine.runOn_flaky_nil, ImageCall.engine, Engine.runOn_bind_ok written, Engine.runOn_pure]
  have hsuits : (ImageCall.writeBlocks 0 1 (Bytes.replicate 512 0x5a).toByteArray).OnBlocks :=
    trivial
  have hchronicle := (Chronicle.dynamic created).called hsuits hrun
  have small : content.size < sizeLimit := Nat.lt_of_le_of_lt (Nat.le_add_right _ _) h.room
  obtain ⟨map', hprogress⟩ := chronicle_progresses hchronicle small
  exact ⟨image, _, map', before, content, hchronicle, small, hprogress⟩

end Image

end VirtualDisk
