import VirtualDisk.Proofs.Blocks.Cropped
import VirtualDisk.Proofs.Image.Acted

/-!
# Losing the footer at the end

The footer at the end of a storage may be lost: its sector is overwritten with something that is no
footer, or a last part of it is cut off. The copy at the beginning stands in for it, so the image is
opened as before, and from then on it behaves like the same array of sectors. If something else is
at the end, the next block is appended over it or behind it. If something is missing there, the
image is as good as one on the whole storage, until the next block is appended to what is left.
-/

namespace VirtualDisk

open Storage

variable {ι : Type} {disk : ι} {footer : Footer} {view : Nat → Sector}
variable {map : BlockMap} {whole content : Content}

/-- The last sector was replaced by something that is no footer, or a last part of it was cut off.
-/
inductive Storage.Content.Damaged (content : Content) : Content → Prop
  | replaced {bytes : Sector} (rejected : ∃ e, Footer.parse bytes = .error e) :
      Damaged content (content.write (content.size - 512) bytes)
  | cut {count : Nat} (pos : 0 < count) (le : count ≤ 512) :
      Damaged content (content.resize (content.size - count))

theorem Storage.Content.Damaged.size_le {damaged : Content} (h : content.Damaged damaged)
    (hge : 512 ≤ content.size) : damaged.size ≤ content.size := by
  cases h with
  | replaced rejected =>
    rw [Content.size_write]
    omega
  | cut pos le =>
    rw [Content.size_resize]
    exact Nat.sub_le _ _

/-- As long as the storage stays below the limit, the acts succeed one after the other on a sound
storage, and all of them return what they return for an array of `total` sectors, whose sectors to
begin with are those of the view. -/
def BehavesBelow (limit total : Nat) : (view : Nat → Sector) → List Act → Image ι → Content → Prop
  | _, [], _, _ => True
  | view, act :: acts, image, content =>
    (act.engine.runOn sole image content).2.size < limit → ∃ answer image' content',
      act.engine.runOn sole image content = ((.ok answer, image'), content') ∧
        act.Answered total view answer ∧
        BehavesBelow limit total (act.after total view) acts image' content'

/-- A storage whose last sector was replaced is as good as before. -/
theorem Image.Tracked.stands_replaced (h : Image.Tracked disk footer view map content)
    {bytes : Sector} (rejected : ∃ e, Footer.parse bytes = .error e) :
    BlockMap.Stands footer map (content.write (content.size - 512) bytes)
        (content.write (content.size - 512) bytes) ∧
      map.shown (content.write (content.size - 512) bytes) = view := by
  have hge := h.arranged.size_ge
  have hsize : (content.write (content.size - 512) bytes).size = content.size := by
    rw [Content.size_write]
    omega
  have htail : (content.write (content.size - 512) bytes).tail = bytes := by
    rw [Content.tail, hsize]
    exact Content.read_write_same _ _ _
  have grown : content.Grown (content.write (content.size - 512) bytes) :=
    (Content.Grown.refl content).write bytes (by omega)
  have hquiet := h.synced.consistent.grown grown (.inr (by rw [htail]; exact rejected)) (by
    rw [hsize]
    exact h.arranged.aligned)
  exact ⟨.whole hquiet.consistent, (BlockMap.shown_eq hquiet).trans h.shown⟩

/-- A storage that was cut off is a part of one that ends with a sector of zeros. -/
theorem Image.Tracked.stands_cut (h : Image.Tracked disk footer view map content) {count : Nat}
    (pos : 0 < count) (le : count ≤ 512) :
    BlockMap.Stands footer map (content.write (content.size - 512) (Bytes.zero 512))
        (content.resize (content.size - count)) ∧
      map.shown (content.write (content.size - 512) (Bytes.zero 512)) = view := by
  have hge := h.arranged.size_ge
  have haligned := h.arranged.aligned
  have hsize : (content.write (content.size - 512) (Bytes.zero 512)).size = content.size := by
    rw [Content.size_write]
    omega
  have hlast : (content.write (content.size - 512) (Bytes.zero 512)).byte
      ((content.write (content.size - 512) (Bytes.zero 512)).size - 512) = 0 := by
    rw [hsize, Content.byte_write, dif_pos (by omega)]
    exact Bytes.getElem_zero _ _ _
  have grown : content.Grown (content.write (content.size - 512) (Bytes.zero 512)) :=
    (Content.Grown.refl content).write _ (by omega)
  have hquiet := h.synced.consistent.grown grown (.of_byte hlast) (by
    rw [hsize]
    exact haligned)
  have harranged := h.arranged.grown grown (by rw [hsize]; exact haligned) (.inr hlast)
    fun hsealed => absurd hsealed (h.arranged.not_sealed hlast)
  refine ⟨.cut ⟨hquiet.consistent, harranged, ⟨?_, ?_, fun p _ hp => ?_, hlast, ?_⟩, ?_⟩,
    (BlockMap.shown_eq hquiet).trans h.shown⟩
  · rw [hsize, Content.size_resize]
    omega
  · rw [hsize, Content.size_resize]
    omega
  · rw [hsize] at hp
    rw [Content.byte_resize, if_pos (by omega), Content.byte_write, dif_neg (by omega)]
  · rw [Content.size_resize, Content.byte_resize, if_pos (by omega)]
    exact h.arranged.gap h.synced.isSealed _ (by omega) (by omega)
  · rw [hsize]
    exact Nat.lt_of_le_of_lt (Nat.le_add_right _ _) h.room

theorem Image.Tracked.stands (h : Image.Tracked disk footer view map content) {damaged : Content}
    (damage : content.Damaged damaged) :
    ∃ whole, BlockMap.Stands footer map whole damaged ∧ map.shown whole = view := by
  cases damage with
  | replaced rejected => exact ⟨_, h.stands_replaced rejected⟩
  | cut pos le => exact ⟨_, h.stands_cut pos le⟩

namespace CutOff

theorem legible (h : CutOff footer map whole content) :
    Legible footer map.header map.table content := by
  have hdisk := h.consistent.onDisk
  have hsmall := h.small
  have hlt := h.cropped.size_lt
  have hle := h.cropped.size_le
  have hheader := hdisk.header_room
  have htable := hdisk.table_room
  have hlegible := hdisk.legible (Nat.lt_trans hsmall (by decide))
  exact { hlegible with
    size_lt := by omega
    header_room := by omega
    header_bytes := by
      rw [(h.cropped.agreeOn (by omega)).read_eq]
      exact hdisk.header_bytes
    recorded := hdisk.recorded.of_agree (h.cropped.agreeOn (by omega))
    table_room := by omega }

theorem noForeignFooter (h : CutOff footer map whole content) : NoForeignFooter footer content := by
  refine .inr (Footer.parse_eq_error ?_)
  rw [Content.tail, Content.getElem_read, Nat.add_zero]
  exact h.cropped.first

end CutOff

namespace BlockMap.Stands

theorem opens {S : Setting ι} (readable : S.Readable) (h : Stands footer map whole content)
    (hkind : footer.diskType ≠ .fixed) (hsize : content.size < 2 ^ 64) (readOnly : Bool) :
    (Image.ofDisk S.disk readOnly).Ensures S
      (fun image content' => image = .opened S.disk footer map.header map.table readOnly ∧
        content' = content)
      (fun _ content' => S.mayFail ∧ content' = content) content := by
  cases h with
  | whole consistent => exact Image.ofDisk_ensures readable consistent.onDisk hkind hsize readOnly
  | cut off =>
    have hfits := off.consistent.onDisk.fits
    have copy : Footer.parse (content.read 0 512) = .ok footer := by
      rw [off.copy_eq, ← off.consistent.onDisk.copy_eq.1]
      exact off.consistent.onDisk.footer_copy
    exact (Image.ofDisk_ensures_limits readable off.legible copy off.noForeignFooter hkind
      readOnly).mono (fun _ _ _ hpost => hpost.2)
        fun _ _ _ hfailed => ⟨hfailed.1 ⟨hfits.bytes_le, hfits.covered⟩, hfailed.2⟩

/-- With nothing to store it shows the same sectors when it is opened. -/
theorem fresh (h : Stands footer map whole content) (clean : map.bitmap.dirty = false) :
    Stands footer (.fresh map.header map.table) whole content ∧
      (BlockMap.fresh map.header map.table).shown whole = map.shown whole := by
  have hadvance := h.consistent.reopen clean
  refine ⟨?_, BlockMap.shown_eq hadvance.toFollows⟩
  cases h with
  | whole consistent => exact .whole hadvance.consistent
  | cut off => exact .cut ⟨hadvance.consistent, off.arranged.fresh, off.cropped, off.small⟩

end BlockMap.Stands

namespace Image

theorem writeBlocks_stands (hkind : footer.diskType ≠ .fixed)
    (h : BlockMap.Stands footer map whole content) {offset count : Nat} {buffer : ByteArray}
    (hbuffer : Buffer.Holds buffer.size count) :
    (writeBlocks offset count buffer).Ensures
      (.free disk False fun content => content.size < sizeLimit)
      (fun truncated image' content' => ∃ map' whole', image' = writable disk footer map' ∧
        BlockMap.Stands footer map' whole' content' ∧
        truncated = count - min count (footer.geometry.totalSectors - offset) ∧
        Buffer.Laid buffer offset 0 (min count (footer.geometry.totalSectors - offset))
          (map.held whole) (map'.held whole') ∧
        map'.bitmap.dirty = false)
      (fun _ _ _ => False) (writable disk footer map) content := by
  refine ensures_writeBlocks rfl (blocks?_writable disk hkind map) (fun _ => ?_)
    fun hsmall _ => hsmall hbuffer
  refine (BlockMap.writeSectors_stands buffer ((writable disk footer map).transfer offset count)
    offset 0 h (fun k hk => lt_capacity_of_lt_transfer h.consistent.onDisk.fits hk)
    (transfer_slots _ offset hbuffer)).mono_success ?_
  rintro _ map₁ content₁ _ ⟨whole₁, h₁, hlaid⟩
  refine (BlockMap.flush_stands h₁).mono_success ?_
  rintro _ map₂ content₂ _ ⟨whole₂, h₂, rfl, hheld⟩
  rw [← hheld] at hlaid
  exact ⟨_, whole₂, withBlocks_writable .., h₂, rfl, hlaid, rfl⟩

end Image

namespace BlockMap.Stands

/-- An operation succeeds with what it means, whatever is missing at the end. -/
theorem operation (h : Stands footer map whole content) (hkind : footer.diskType = .dynamic)
    (clean : map.bitmap.dirty = false) (op : Operation) (valid : op.Valid) :
    op.engine.Ensures (.free disk False fun content => content.size < sizeLimit)
      (fun answer image' content' => ∃ map' whole', image' = .writable disk footer map' ∧
        op.Answered footer.geometry.totalSectors (map.shown whole) answer ∧
        map'.shown whole' = op.after footer.geometry.totalSectors (map.shown whole) ∧
        map'.bitmap.dirty = false ∧ Stands footer map' whole' content')
      (fun _ _ _ => False) (.writable disk footer map) content := by
  have hne : footer.diskType ≠ .fixed := ne_of_eq_of_ne hkind (by decide)
  have supported := op.supported_dynamic hkind
  have hblocks := Image.blocks?_writable disk hne map
  by_cases stores : op.Stores
  · cases op with
    | write offset count buffer =>
      simp only [Operation.engine, Engine.ensures_bind, Engine.ensures_pure]
      refine Image.write_ensures hblocks (fun hmode => by cases hmode) fun _ => ?_
      refine (Image.writeBlocks_stands hne h valid).mono_success ?_
      rintro truncated image' content' _ ⟨map', whole', rfl, h', htruncated, hlaid, hclean⟩ _
      exact ⟨map', whole', rfl, htruncated, shown_of_laid hlaid, hclean, h'⟩
    | _ => exact stores.elim
  cases h with
  | whole consistent =>
    have T := Terms.free disk False (fun content => content.size < sizeLimit) footer fun _ _ => True
    refine (op.ensures T hne consistent fun hstores => absurd hstores stores).mono ?_
      fun _ _ _ _ hfailed => hfailed.1 supported valid
    rintro answer image' content' _ ⟨map', rfl, hanswer, hshown, hclean, hadvance⟩
    exact ⟨map', content', rfl, hanswer, hshown, hclean clean, .whole hadvance.consistent⟩
  | cut off =>
    have T := Terms.free disk False (fun _ => True) footer fun _ _ => True
    have wants : op.Wants (fun block => (map.table.place? block).isSome)
        (Image.writable disk footer map) map := by
      cases op with
      | read offset count buffer =>
        intro k _ start place
        rw [place]
        rfl
      | write offset count buffer => exact absurd trivial stores
      | flush => trivial
    have inside := op.governed (inside_regime disk footer map.table) rfl hblocks
      off.consistent.onDisk.fits.covered ⟨off.arranged, rfl⟩ wants
    have spec := (op.ensures T hne off.consistent fun hstores => absurd hstores stores).mono
      (fun _ _ _ _ hpost => hpost) fun _ _ _ _ hfailed => hfailed.1 supported valid
    refine (Engine.Ensures.cropped spec inside off.small off.cropped).mono_success ?_
    rintro answer image' content' _ ⟨whole', cropped, small,
      ⟨map', rfl, hanswer, hshown, hclean, hadvance⟩, map'', hmap'', harranged, -⟩
    rw [Image.withBlocks_writable] at hmap''
    obtain rfl := Image.writable_inj hne hmap''
    exact ⟨map', whole', rfl, hanswer, hshown, hclean clean,
      .cut ⟨hadvance.consistent, harranged, cropped, small⟩⟩

theorem act (h : Stands footer map whole content) (hkind : footer.diskType = .dynamic)
    (clean : map.bitmap.dirty = false) (act : Act) (valid : act.Valid) :
    act.engine.Ensures (.free disk False fun content => content.size < sizeLimit)
      (fun answer image' content' => ∃ map' whole', image' = .writable disk footer map' ∧
        act.Answered footer.geometry.totalSectors (map.shown whole) answer ∧
        map'.shown whole' = act.after footer.geometry.totalSectors (map.shown whole) ∧
        map'.bitmap.dirty = false ∧ Stands footer map' whole' content')
      (fun _ _ _ => False) (.writable disk footer map) content := by
  cases act with
  | use op => exact h.operation hkind clean op valid
  | reopen =>
    have hne : footer.diskType ≠ .fixed := ne_of_eq_of_ne hkind (by decide)
    simp only [Act.engine, Engine.ensures_bind, Engine.ensures_get, Engine.ensures_liftAccess,
      Engine.ensures_set, Engine.ensures_pure]
    intro hw
    refine (h.opens (Setting.readable_free ..) hne (Nat.lt_trans hw (by decide)) false).mono ?_
      fun _ _ _ hfailed => hfailed.1
    rintro image' content' _ ⟨rfl, rfl⟩ _ _
    obtain ⟨hfresh, hshown⟩ := h.fresh clean
    exact ⟨_, whole, rfl, trivial, hshown, rfl, hfresh⟩

/-- An image that stands behaves like the array of the sectors that it shows. -/
theorem behaves (disk : ι) (hkind : footer.diskType = .dynamic) (acts : List Act)
    (valid : ∀ act ∈ acts, act.Valid) {map : BlockMap} {whole content : Content}
    (h : Stands footer map whole content) (clean : map.bitmap.dirty = false) :
    BehavesBelow sizeLimit footer.geometry.totalSectors (map.shown whole) acts
      (.writable disk footer map) content := by
  induction acts generalizing map whole content with
  | nil => trivial
  | cons act acts ih =>
    intro hsmall
    obtain ⟨answer, image', content', hrun, map', whole', rfl, hanswer, hshown, hclean, h'⟩ :=
      (h.act hkind clean act (valid act List.mem_cons_self)).runOn_sole_ok act.grows_engine
        (fun other hle => Nat.lt_of_le_of_lt hle hsmall) fun _ _ _ hfailed => hfailed
    have hrest := ih (fun other hother => valid other (List.mem_cons_of_mem _ hother)) h' hclean
    rw [hshown] at hrest
    exact ⟨answer, _, content', hrun, hanswer, hrest⟩

end BlockMap.Stands

namespace Image

variable {image : Image ι}

/-- A dynamic image that was created, used and opened again survives the loss of the footer at the
end. It is opened with the same footer, header and table, and behaves like the same array of sectors
as if nothing had been lost. -/
theorem acted_survives_damage {damaged : Content} (acted : Acted image content view)
    (damage : content.Damaged damaged) (readOnly : Bool) : ∃ image' map map',
      (ofDisk image.disk readOnly).runOn sole damaged = (.ok image', damaged) ∧
      image'.footer = image.footer ∧ image.blocks? = some map ∧ image'.blocks? = some map' ∧
      map'.header = map.header ∧ map'.table = map.table ∧
      (readOnly = false → ∀ acts : List Act, (∀ act ∈ acts, act.Valid) →
        BehavesBelow sizeLimit image.totalSectors view acts image' damaged) := by
  obtain ⟨disk, footer, map, rfl, hkind, htracked⟩ := acted.tracked
  have hne : footer.diskType ≠ .fixed := ne_of_eq_of_ne hkind (by decide)
  have hsize : damaged.size < 2 ^ 64 := by
    have hle := damage.size_le (Nat.le_trans (by decide) htracked.arranged.size_ge)
    have hroom := htracked.room
    omega
  obtain ⟨whole, hstands, rfl⟩ := htracked.stands damage
  have readable := Setting.readable_free disk False fun _ => True
  obtain ⟨image', content', hrun, rfl, rfl⟩ :=
    (hstands.opens readable hne hsize readOnly).runOn_sole_ok (fun _ => trivial)
      fun _ _ hfailed => hfailed.1
  obtain ⟨hfresh, hshown⟩ := hstands.fresh htracked.synced.clean
  refine ⟨_, map, _, hrun, rfl, blocks?_writable disk hne map, blocks?_opened disk hne _ _ _, rfl,
    rfl, ?_⟩
  rintro rfl acts valid
  have hbehaves := hfresh.behaves disk hkind acts valid rfl
  rwa [hshown] at hbehaves

/-- On a small disk: the last 100 bytes are cut off after a write. Then the sector is read, one in
another block is written, and both are read after the storage was opened again. -/
theorem acted_survives_damage_small : ∃ (image : Image Unit) (content : Content)
    (view : Nat → Sector), Acted image content view ∧
      content.Damaged (content.resize (content.size - 100)) ∧
      ∃ image' map map', (ofDisk image.disk false).runOn sole
          (content.resize (content.size - 100)) =
            (.ok image', content.resize (content.size - 100)) ∧
        image'.footer = image.footer ∧ image.blocks? = some map ∧ image'.blocks? = some map' ∧
        map'.header = map.header ∧ map'.table = map.table ∧
        BehavesBelow sizeLimit image.totalSectors view
          [.use (.read 0 1 (Bytes.zero 4608).toByteArray),
            .use (.write 8 1 (Bytes.replicate 4608 0x5b).toByteArray), .reopen,
            .use (.read 0 9 (Bytes.zero 4608).toByteArray)] image'
          (content.resize (content.size - 100)) := by
  have hholds : ∀ (bytes : Bytes 4608) (count : Nat), count ≤ 9 →
      Buffer.Holds bytes.toByteArray.size count := by
    intro bytes count hcount
    rw [Bytes.size_toByteArray]
    exact ⟨by omega, by omega⟩
  obtain ⟨image, content₀, created, hnew⟩ :=
    exists_createDynamic CreateOptions.checkedGeometry_small creatable_small () .empty
  have hacted : Acted image content₀ fun _ => Bytes.zero 512 := .created created
  rw [hnew.eq_opened] at hacted
  obtain ⟨answer, map, content, hrun, -⟩ := runOn_act () hnew.readAs.diskType
    (hnew.sealedWithRoom (by decide +kernel)) rfl
    (show (Act.use (.write 0 1 (Bytes.replicate 4608 0x5a).toByteArray)).Valid from
      hholds _ 1 (by decide))
  have hacted' := hacted.acted hrun
  have hdamage : content.Damaged (content.resize (content.size - 100)) :=
    .cut (by decide) (by decide)
  obtain ⟨image', map, map', hopen, hfooter, hblocks, hblocks', hheader, htable, hbehaves⟩ :=
    acted_survives_damage hacted' hdamage false
  refine ⟨_, content, _, hacted', hdamage, image', map, map', hopen, hfooter, hblocks, hblocks',
    hheader, htable, hbehaves rfl _ fun act hact => ?_⟩
  simp only [List.mem_cons, List.not_mem_nil, or_false] at hact
  obtain rfl | rfl | rfl | rfl := hact
  · exact hholds _ 1 (by decide)
  · exact hholds _ 1 (by decide)
  · trivial
  · exact hholds _ 9 (by decide)

end Image

end VirtualDisk
