import VirtualDisk.Image.Transfer
import VirtualDisk.Proofs.Blocks.Transferring

/-!
# Operations on images with blocks

What the operations on blocks do carries over to the image, whose footer, storage and mode stay what
they are. A buffer that is too small is refused before anything else happens.
-/

namespace VirtualDisk

open Storage

namespace Image

variable {ι : Type}

/-- The image with other blocks. -/
def withBlocks (image : Image ι) (map : BlockMap) : Image ι :=
  { image with layout := image.layout.setBlocks map }

/-- The number of sectors that a request transfers. -/
def transfer (image : Image ι) (offset count : Nat) : Nat := min count (image.totalSectors - offset)

variable {image : Image ι} {map map' : BlockMap}

@[simp] theorem disk_withBlocks : (image.withBlocks map).disk = image.disk := rfl

@[simp] theorem readOnly_withBlocks : (image.withBlocks map).readOnly = image.readOnly := rfl

@[simp] theorem diskType_withBlocks : (image.withBlocks map).diskType = image.diskType :=
  Layout.diskType_setBlocks map image.layout

@[simp] theorem totalSectors_withBlocks :
    (image.withBlocks map).totalSectors = image.totalSectors :=
  rfl

@[simp] theorem withBlocks_withBlocks :
    (image.withBlocks map).withBlocks map' = image.withBlocks map' := by
  cases image with
  | mk disk footer layout readOnly => cases layout with
    | fixed => rfl
    | dynamic => rfl
    | differencing => rfl

theorem blocks?_withBlocks (h : image.blocks? = some map) :
    (image.withBlocks map').blocks? = some map' := by
  cases image with
  | mk disk footer layout readOnly => cases layout with
    | fixed => cases h
    | dynamic => rfl
    | differencing => rfl

theorem withBlocks_self (h : image.blocks? = some map) : image.withBlocks map = image := by
  rw [withBlocks, Layout.setBlocks_of_blocks? h]

variable {S : Setting ι} {allowed : Nat → Sector → Prop} {I : BlockMap → Content → Prop}
variable {content : Content} {offset count : Nat} {buffer : ByteArray}

theorem lt_capacity_of_lt_transfer (h : Fits image.footer map.header map.table) {k : Nat}
    (hk : k < image.transfer offset count) : offset + k < map.capacity := by
  have hcovered := h.covered
  change image.totalSectors ≤ map.capacity at hcovered
  rw [transfer] at hk
  omega

theorem transfer_slots (image : Image ι) (offset : Nat) (h : Buffer.Holds buffer.size count) :
    (0 + image.transfer offset count) * 512 ≤ buffer.size := by
  have hcount := h.le_size
  have htransfer : image.transfer offset count ≤ count := Nat.min_le_left _ _
  lia

theorem ensures_onBlocks {α : Type} {engine : ι → Engine ι BlockMap α}
    {Q : α → Image ι → Content → Prop} {E : Error → Image ι → Content → Prop}
    (hdisk : image.disk = S.disk) (hmap : image.blocks? = some map)
    (h : (engine S.disk).Ensures S (fun a map' content' => Q a (image.withBlocks map') content')
      (fun e map' content' => E e (image.withBlocks map') content') map content) :
    (onBlocks engine).Ensures S Q E image content := by
  have hengine : engine image.disk = engine S.disk := congrArg engine hdisk
  simp only [onBlocks, Engine.ensures_bind, Engine.ensures_get, hmap, Engine.ensures_on, hengine]
  exact fun _ => h

/-- A read checks its buffer, and then reads the sectors that are not cut off. -/
theorem ensures_readBlocks {Q : ReadResult → Image ι → Content → Prop}
    {E : Error → Image ι → Content → Prop} (hdisk : image.disk = S.disk)
    (hmap : image.blocks? = some map)
    (fits : Buffer.Holds buffer.size count →
      (BlockMap.readSectors S.disk (image.transfer offset count) offset 0 buffer).Ensures S
        (fun buffer' map' content' =>
          Q ⟨count - image.transfer offset count, buffer'⟩ (image.withBlocks map') content')
        (fun e map' content' => E e (image.withBlocks map') content') map content)
    (small : ¬ Buffer.Holds buffer.size count → ∀ e, E e image content) :
    (readBlocks offset count buffer).Ensures S Q E image content := by
  by_cases hbuffer : Buffer.Holds buffer.size count
  · simp only [readBlocks, Buffer.check_eq hbuffer, Engine.ensures_bind,
      Engine.ensures_liftExcept_ok, Engine.ensures_get, Engine.ensures_pure]
    intro _ _
    exact ensures_onBlocks hdisk hmap ((fits hbuffer).mono_success fun _ _ _ _ hpost _ => hpost)
  · obtain ⟨e, he⟩ := Buffer.check_eq_error hbuffer
    simp only [readBlocks, he, Engine.ensures_bind, Engine.ensures_liftExcept_error]
    exact fun _ => small hbuffer e

/-- A write checks its buffer, writes the sectors that are not cut off, and stores the bitmap. -/
theorem ensures_writeBlocks {Q : Nat → Image ι → Content → Prop}
    {E : Error → Image ι → Content → Prop} (hdisk : image.disk = S.disk)
    (hmap : image.blocks? = some map)
    (fits : Buffer.Holds buffer.size count →
      (BlockMap.writeSectors S.disk buffer (image.transfer offset count) offset 0).Ensures S
        (fun _ map₁ content₁ => (BlockMap.flush S.disk).Ensures S
          (fun _ map' content' =>
            Q (count - image.transfer offset count) (image.withBlocks map') content')
          (fun e map' content' => E e (image.withBlocks map') content') map₁ content₁)
        (fun e map' content' => E e (image.withBlocks map') content') map content)
    (small : ¬ Buffer.Holds buffer.size count → ∀ e, E e image content) :
    (writeBlocks offset count buffer).Ensures S Q E image content := by
  by_cases hbuffer : Buffer.Holds buffer.size count
  · simp only [writeBlocks, Buffer.check_eq hbuffer, Engine.ensures_bind,
      Engine.ensures_liftExcept_ok, Engine.ensures_get, Engine.ensures_pure]
    intro _ _
    refine ensures_onBlocks hdisk hmap ?_
    rw [Engine.ensures_bind]
    refine (fits hbuffer).mono_success fun _ _ _ _ hflush => ?_
    exact hflush.mono_success fun _ _ _ _ hpost _ => hpost
  · obtain ⟨e, he⟩ := Buffer.check_eq_error hbuffer
    simp only [writeBlocks, he, Engine.ensures_bind, Engine.ensures_liftExcept_error]
    exact fun _ => small hbuffer e

theorem readBlocks_ensures (offset count : Nat) (buffer : ByteArray)
    (T : Terms S image.footer allowed I) (hdisk : image.disk = S.disk)
    (hmap : image.blocks? = some map) (h : I map content) :
    (readBlocks offset count buffer).Ensures S
      (fun result image' content' => ∃ map', image' = image.withBlocks map' ∧
        result.truncated = count - image.transfer offset count ∧
        Buffer.Shows (map.shown content) offset 0 (image.transfer offset count) buffer
          result.buffer ∧
        BlockMap.ReadOnly image.footer map content map' content')
      (fun _ image' content' => (Buffer.Holds buffer.size count → S.mayFail) ∧
        ∃ map', image' = image.withBlocks map' ∧ Quiet image.footer map content map' content')
      image content := by
  have hmap' := T.consistent _ _ h
  refine ensures_readBlocks hdisk hmap (fun hbuffer => ?_) fun hbuffer _ =>
    ⟨fun hfits => absurd hfits hbuffer, map, (withBlocks_self hmap).symm, .refl hmap'⟩
  refine (BlockMap.readSectors_ensures T (image.transfer offset count) offset 0 buffer h
    (fun k hk => lt_capacity_of_lt_transfer hmap'.onDisk.fits hk)
    (image.transfer_slots offset hbuffer)).mono ?_ ?_
  · rintro buffer' map' content' _ ⟨hshows, hread⟩
    exact ⟨map', rfl, rfl, hshows, hread⟩
  · rintro _ map' content' _ ⟨hm, hquiet⟩
    exact ⟨fun _ => hm, map', rfl, hquiet⟩

/-- A write gives its sectors the bytes of the buffer, or a first part of them. -/
theorem writeBlocks_ensures (T : Terms S image.footer allowed I) (spacious : Spacious S I)
    (hdisk : image.disk = S.disk) (hmap : image.blocks? = some map) (h : I map content)
    (permitted : Buffer.Holds buffer.size count → ∀ k, k < image.transfer offset count →
      allowed (offset + k) (Buffer.slot buffer k)) :
    (writeBlocks offset count buffer).Ensures S
      (fun truncated image' content' => ∃ map', image' = image.withBlocks map' ∧
        truncated = count - image.transfer offset count ∧
        Buffer.Laid buffer offset 0 (image.transfer offset count) (map.held content)
          (map'.held content') ∧
        map'.bitmap.dirty = false ∧
        Advance image.footer allowed map content map' content')
      (fun _ image' content' => (Buffer.Holds buffer.size count → S.mayFail) ∧
        ∃ map', image' = image.withBlocks map' ∧
        ∃ k, k ≤ image.transfer offset count ∧
          Buffer.Laid buffer offset 0 k (map.held content) (map'.held content') ∧
          Follows image.footer allowed map content map' content')
      image content := by
  have hmap' := T.consistent _ _ h
  refine ensures_writeBlocks hdisk hmap (fun hbuffer => ?_) fun hbuffer _ =>
    ⟨fun hfits => absurd hfits hbuffer, map, (withBlocks_self hmap).symm, 0, Nat.zero_le _,
      .nothing _ _ _ fun _ => rfl, .refl hmap'⟩
  refine (BlockMap.writeSectors_ensures T spacious buffer (image.transfer offset count) offset 0 h
    (fun k hk => lt_capacity_of_lt_transfer hmap'.onDisk.fits hk)
    (image.transfer_slots offset hbuffer) ?_).mono ?_ ?_
  · intro k hk
    rw [Nat.zero_add]
    exact permitted hbuffer k hk
  · rintro _ map₁ content₁ _ ⟨hlaid, hadvance⟩
    have h₁ := T.advance _ _ _ _ h hadvance
    refine (BlockMap.flush_ensures T h₁).mono ?_ ?_
    · rintro _ map₂ content₂ _ ⟨rfl, -, -, hflush⟩
      have hheld : map₁.cleaned.held content₂ = map₁.held content₁ := funext hflush.held_eq
      refine ⟨_, rfl, rfl, ?_, rfl, hadvance.trans hflush.of_quiet⟩
      rw [hheld]
      exact hlaid
    · rintro _ map₂ content₂ _ ⟨hm, rfl, rfl⟩
      exact ⟨fun _ => hm, _, rfl, _, Nat.le_refl _, hlaid, hadvance.toFollows⟩
  · rintro _ map₁ content₁ _ ⟨hm, k, hk, hlaid, hfollows⟩
    exact ⟨fun _ => hm, map₁, rfl, k, hk, hlaid, hfollows⟩

theorem flush_ensures (T : Terms S image.footer allowed I) (hdisk : image.disk = S.disk)
    (hmap : image.blocks? = some map) (h : I map content) :
    (flush : Engine ι (Image ι) Unit).Ensures S
      (fun _ image' content' => ∃ map', image' = image.withBlocks map' ∧
        map'.bitmap.dirty = false ∧ content'.size = content.size ∧
        (map.bitmap.dirty = false → content' = content) ∧
        Advance image.footer (fun _ _ => False) map content map' content')
      (fun _ image' content' => S.mayFail ∧
        ∃ map', image' = image.withBlocks map' ∧ Quiet image.footer map content map' content')
      image content := by
  simp only [flush, Engine.ensures_bind, Engine.ensures_get, hmap, Option.isSome_some, if_true]
  intro _
  refine ensures_onBlocks hdisk hmap ?_
  refine (BlockMap.flush_ensures T h).mono ?_ ?_
  · rintro _ map' content' _ ⟨rfl, hsize, hunchanged, hflush⟩
    rw [Engine.ensures_liftAccess, hdisk]
    exact .flush (T.flush _) ⟨_, rfl, rfl, hsize, hunchanged, hflush⟩ fun hm _ =>
      ⟨hm, _, rfl, hflush.toFollows⟩
  · rintro _ map' content' _ ⟨hm, rfl, rfl⟩
    exact ⟨hm, _, rfl, .refl (T.consistent _ _ h)⟩

end Image

end VirtualDisk
