import VirtualDisk.Proofs.Image.Chronicle

/-!
# What successful acts leave behind

A dynamic image is created on a sound storage, used and opened again, and nothing of that fails.
Then it shows the sectors of an array on which the same was done, and its blocks are arranged. The
size of the storage does not matter for this: a write that outgrows the table fails.
-/

namespace VirtualDisk

open Storage

theorem Arranged.fresh {footer : Footer} {map : BlockMap} {content : Content}
    (h : Arranged footer map content) : Arranged footer (.fresh map.header map.table) content := by
  refine h.withBitmap (h.wellSized.withBitmap ?_ fun block cached => ?_)
  · exact (Bytes.size_toByteArray _).trans h.wellSized.size_bytes.symm
  · cases cached

namespace Image

variable {ι : Type}

/-- Dynamic images after nothing but successful acts, with the sectors of an array of zeros on which
the same was done. -/
inductive Acted : Image ι → Content → (Nat → Sector) → Prop
  | created {disk : ι} {options : CreateOptions} {prior content : Content} {image : Image ι}
      (run : (createDynamic disk options).runOn sole prior = (.ok image, content)) :
      Acted image content fun _ => Bytes.zero 512
  | acted {image image' : Image ι} {content content' : Content} {view : Nat → Sector} {act : Act}
      {answer : Answer} (before : Acted image content view)
      (run : act.engine.runOn sole image content = ((.ok answer, image'), content')) :
      Acted image' content' (act.after image.totalSectors view)

/-- The image is open for writing, synced and arranged, and shows these sectors. -/
structure Tracked (disk : ι) (footer : Footer) (view : Nat → Sector) (map : BlockMap)
    (content : Content) : Prop where
  synced : Synced (writable disk footer map) map content
  arranged : Arranged footer map content
  /-- The storage does not outgrow 64 bits, whatever is allocated. -/
  room : content.size + map.header.allocationBytes * map.table.vacant < 2 ^ 63
  shown : map.shown content = view

variable {disk : ι} {footer : Footer} {view : Nat → Sector} {map map' : BlockMap}
variable {content content' : Content} {image' : Image ι} {answer : Answer}

theorem arranged_regime (disk : ι) (footer : Footer) :
    Regime (.free disk True fun content => content.size < 2 ^ 63) (fun _ => True)
      (Arranged footer) where
  small _ hw := hw
  wellSized _ _ h := h.wellSized
  ask _ _ _ _ _ _ _ := trivial
  effect _ _ _ _ h _ _ effect := h.effect effect

theorem writable_inj (hkind : footer.diskType ≠ .fixed)
    (h : writable disk footer map = writable disk footer map') : map = map' := by
  have hblocks := blocks?_writable disk hkind map
  rw [h, blocks?_writable disk hkind] at hblocks
  exact (Option.some.inj hblocks).symm

theorem Tracked.room_of_advance (h : Tracked disk footer view map content)
    {allowed : Nat → Sector → Prop} (hadvance : Advance footer allowed map content map' content') :
    content'.size + map'.header.allocationBytes * map'.table.vacant < 2 ^ 63 := by
  rw [hadvance.header, (hadvance.balance h.synced.isSealed).2]
  exact h.room

/-- What an operation on a tracked image leaves if it succeeds. -/
theorem Tracked.operation (h : Tracked disk footer view map content)
    (hkind : footer.diskType ≠ .fixed) (op : Operation) :
    op.engine.Ensures (.free disk False fun _ => True)
      (fun _ image' content' => ∃ map', image' = writable disk footer map' ∧
        Synced image' map' content' ∧
        content'.size + map'.header.allocationBytes * map'.table.vacant < 2 ^ 63 ∧
        map'.shown content' = op.after footer.geometry.totalSectors view)
      (fun _ _ _ => True) (writable disk footer map) content := by
  obtain rfl := h.shown
  have hblocks := blocks?_writable disk hkind map
  by_cases stores : op.Stores
  · cases op with
    | write offset count buffer =>
      have T : Terms (.free disk False fun _ => True) footer (fun _ _ => True)
          (Underway footer map.header (fun _ _ => True)
            ((writable disk footer map).held? content)) :=
        { length := fun _ => trivial
          read := fun _ _ _ => trivial
          flush := fun _ => trivial
          write := fun _ _ _ _ _ _ _ => trivial
          advance := fun _ _ _ _ h hadvance => h.advance hadvance
          consistent := fun _ _ h => h.consistent }
      simp only [Operation.engine, Engine.ensures_bind, Engine.ensures_pure]
      refine write_ensures hblocks (fun hmode => by cases hmode) fun _ => ?_
      refine (writeBlocks_ensures_laid T id rfl hblocks
        (h.synced.underway_of_room h.room fun _ _ => True) fun _ _ => trivial).mono ?_
        fun _ _ _ _ _ => trivial
      rintro _ image' content' _ ⟨map', rfl, hlaid, hclean, h'⟩ _
      have hroom := h'.room
      refine ⟨map', withBlocks_writable .., ?_, hroom, BlockMap.shown_of_laid hlaid⟩
      exact ⟨blocks?_withBlocks hblocks, diskType_withBlocks.trans h.synced.kind, h'.consistent,
        h'.isSealed, hclean⟩
    | _ => exact stores.elim
  · have T := Terms.free disk False (fun _ => True) footer fun _ _ => True
    refine (op.ensures T hkind h.synced.consistent fun hstores => absurd hstores stores).mono ?_
      fun _ _ _ _ _ => trivial
    rintro answer image' content' _ ⟨map', rfl, -, hshown, hclean, hadvance⟩
    have hsynced := h.synced.advance hadvance (hclean h.synced.clean)
    rw [withBlocks_writable] at hsynced
    exact ⟨map', rfl, hsynced, h.room_of_advance hadvance, hshown⟩

theorem Tracked.use (h : Tracked disk footer view map content) (hkind : footer.diskType ≠ .fixed)
    {op : Operation} (run : op.engine.runOn sole (writable disk footer map) content =
      ((.ok answer, image'), content')) :
    ∃ map', image' = writable disk footer map' ∧
      Tracked disk footer (op.after footer.geometry.totalSectors view) map' content' := by
  have hpost := (h.operation hkind op).runOn_sole op.grows_engine fun _ _ => trivial
  rw [run] at hpost
  obtain ⟨map', rfl, hsynced, hroom, hshown⟩ := hpost
  have hunder := (op.governed (arranged_regime disk footer) rfl (blocks?_writable disk hkind map)
    h.synced.consistent.onDisk.fits.covered h.arranged (op.wants_all _ _)).runOn_sole
    op.grows_engine (by
      rw [run]
      exact fun other hle =>
        Nat.lt_of_le_of_lt hle (Nat.lt_of_le_of_lt (Nat.le_add_right _ _) hroom))
  rw [run] at hunder
  obtain ⟨map'', hmap'', harranged⟩ := hunder
  rw [withBlocks_writable] at hmap''
  obtain rfl := writable_inj hkind hmap''
  exact ⟨map', rfl, hsynced, harranged, hroom, hshown⟩

theorem Tracked.reopen (h : Tracked disk footer view map content)
    (hkind : footer.diskType ≠ .fixed)
    (run : Act.reopen.engine.runOn sole (writable disk footer map) content =
      ((.ok answer, image'), content')) :
    ∃ map', image' = writable disk footer map' ∧ Tracked disk footer view map' content' := by
  have hsmall : content.size < 2 ^ 64 :=
    Nat.lt_trans (Nat.lt_of_le_of_lt (Nat.le_add_right _ _) h.room) (by decide)
  have readable := Setting.readable_free disk False fun _ => True
  have hopen := ofDisk_ensures readable h.arranged.onDisk hkind hsmall false
  have hact : Act.reopen.engine.Ensures (.free disk False fun _ => True)
      (fun _ image' content' => image' = writable disk footer (.fresh map.header map.table) ∧
        content' = content) (fun _ _ _ => False) (writable disk footer map) content := by
    simp only [Act.engine, Engine.ensures_bind, Engine.ensures_get, Engine.ensures_liftAccess,
      Engine.ensures_set, Engine.ensures_pure]
    intro _
    exact hopen.mono (fun _ _ _ hpost _ _ => hpost) fun _ _ _ hfailed => hfailed.1
  have hpost := hact.runOn_sole Act.reopen.grows_engine fun _ _ => trivial
  rw [run] at hpost
  obtain ⟨rfl, rfl⟩ := hpost
  have hadvance := h.synced.consistent.reopen h.synced.clean
  have hshown := (BlockMap.shown_eq hadvance.toFollows).trans h.shown
  refine ⟨_, rfl, ?_, h.arranged.fresh, h.room, hshown⟩
  have hsynced := h.synced.advance hadvance rfl
  rwa [withBlocks_writable] at hsynced

/-- Every image that is reached is tracked. -/
theorem Acted.tracked {image : Image ι} (h : Acted image content view) :
    ∃ disk footer map, image = writable disk footer map ∧ footer.diskType = .dynamic ∧
      Tracked disk footer view map content := by
  induction h with
  | @created disk options prior content image run =>
    obtain ⟨geometry, hnew⟩ := newImage_of_createDynamic run
    have hkind : image.footer.diskType = .dynamic := hnew.readAs.diskType
    have heq := hnew.eq_opened
    have hsynced := hnew.synced (by decide)
    rw [heq] at hsynced
    exact ⟨_, _, _, heq, hkind, hsynced, hnew.arranged, hnew.room, hnew.shown_eq⟩
  | @acted image image' content content' view act answer before run ih =>
    obtain ⟨disk, footer, map, rfl, hkind, htracked⟩ := ih
    have hne : footer.diskType ≠ .fixed := ne_of_eq_of_ne hkind (by decide)
    cases act with
    | use op =>
      obtain ⟨map', rfl, htracked'⟩ := htracked.use hne run
      exact ⟨disk, footer, map', rfl, hkind, htracked'⟩
    | reopen =>
      obtain ⟨map', rfl, htracked'⟩ := htracked.reopen hne run
      exact ⟨disk, footer, map', rfl, hkind, htracked'⟩

end Image

end VirtualDisk
