import VirtualDisk.Proofs.Blocks.Governed
import VirtualDisk.Proofs.Image.Flat
import VirtualDisk.Proofs.Image.Opening

/-!
# What it takes to be opened

Any bytes may be on the disk that is opened. If they are accepted, a footer was found at the end or,
failing that, at the beginning, and header and table are where it says. If they are not, the library
is not to blame.
-/

namespace VirtualDisk

open Storage

variable {ι : Type} {S : Setting ι} {content : Content}

theorem Footer.not_isSlip_of_parse {raw : Sector} {e : Error} (h : parse raw = .error e) :
    ¬ e.IsSlip :=
  (parse_answers raw).forall_error (C := fun e => ¬ e.IsSlip) (by simp [demands, Error.IsSlip]) h

theorem BlockHeader.not_isSlip_of_parse {raw : Bytes 1024} {e : Error} (h : parse raw = .error e) :
    ¬ e.IsSlip :=
  (parse_answers raw).forall_error (C := fun e => ¬ e.IsSlip)
    (by simp [recordDemands, numberDemands, Error.IsSlip]) h

/-- The footer at the end counts, and the one at the beginning if there is none at the end. -/
structure Found (footer : Footer) (content : Content) : Prop where
  room : 512 ≤ content.size
  parsed : Footer.parse content.tail = .ok footer ∨
    (∃ e, Footer.parse content.tail = .error e) ∧
      Footer.parse (content.read 0 512) = .ok footer

/-- A step has no result at all. -/
def Error.IsTrap : Error → Prop
  | .trap _ => True
  | _ => False

theorem Error.IsSlip.of_isTrap {e : Error} (h : e.IsTrap) : e.IsSlip := by
  cases e with
  | trap => trivial
  | _ => exact h.elim

/-- A request failed, or all steps had a result. -/
def Storage.Setting.Untrapped (S : Setting ι) (e : Error) : Prop := S.mayFail ∨ ¬ e.IsTrap

namespace Image

/-- A footer is found at one of its two places. -/
theorem findFooter_accepts (readable : S.Readable) (hroom : 512 ≤ content.size)
    (hfits : content.size < 2 ^ 64) :
    (findFooter S.disk content.size).Ensures S
      (fun footer content' => Found footer content ∧ content' = content)
      (fun e content' => content' = content ∧ S.Untrapped e) content := by
  simp only [findFooter, Access.ensures_bind]
  refine .read (by omega) (by omega) (readable.read _ _ _) ?_ (fun hm _ => ⟨rfl, .inl hm⟩)
  split
  · next footer tail =>
    rw [Access.ensures_pure]
    exact fun _ => ⟨⟨hroom, .inl tail⟩, rfl⟩
  · next e tail =>
    rw [Access.ensures_bind]
    refine .read (by omega) (by omega) (readable.read _ _ _) ?_ (fun hm _ => ⟨rfl, .inl hm⟩)
    split
    · next footer copy =>
      rw [Access.ensures_pure]
      exact fun _ => ⟨⟨hroom, .inr ⟨⟨e, tail⟩, copy⟩⟩, rfl⟩
    · rw [Access.ensures_throw]
      exact fun _ => ⟨rfl, .inr fun htrap => Footer.not_isSlip_of_parse tail (.of_isTrap htrap)⟩

end Image

/-- What is read of a table, if it is read, is recorded there. -/
theorem BlockTable.load_accepts (readable : S.Readable) {offset count : Nat}
    (hcount : count < 2 ^ 32) :
    (load S.disk offset count).Ensures S
      (fun table content' => content' = content ∧ table.offset = offset ∧ table.size = count ∧
        table.size * 4 ≤ maxBytes ∧ offset + count * 4 ≤ content.size ∧ table.Recorded content)
      (fun e content' => content' = content ∧ S.Untrapped e) content := by
  have hsize : ¬ 2 ^ 64 ≤ count * 4 := by omega
  simp only [load, if_neg hsize]
  split
  · simp only [Access.ensures_bind, Access.ensures_throw]
    exact fun _ => ⟨trivial, .inr id⟩
  next hlimit =>
  rw [Access.ensures_bind]
  by_cases hfits : offset + count * 4 < 2 ^ 64
  · refine .readWithin_or hfits (readable.read _ _ _) (fun hinside => ?_)
      (fun _ => ⟨rfl, .inr id⟩) (fun hm _ => ⟨rfl, .inl hm⟩)
    rw [Access.ensures_pure]
    refine fun _ => ⟨rfl, rfl, size_decode content offset count, ?_, hinside,
      recorded_decode content offset count⟩
    rw [size_decode content offset count]
    exact Nat.not_lt.mp hlimit
  · exact .readWithin_overflow (Nat.not_lt.mp hfits) (readable.read _ _ _) ⟨rfl, .inr id⟩
      (fun hm _ => ⟨rfl, .inl hm⟩)

/-- A map begins without a cached bitmap, unless its bitmaps are too large. -/
theorem BlockMap.ofTable_cases (header : BlockHeader) (table : BlockTable) :
    header.bitmapSectors * 512 ≤ BitmapCache.maxBytes ∧
        ofTable header table = .ok (fresh header table) ∨
      ofTable header table = .error (.unsupported .bitmapSize) := by
  by_cases h : header.bitmapSectors * 512 ≤ BitmapCache.maxBytes
  · exact .inl ⟨h, ofTable_eq h⟩
  · have hfits := header.bitmapSectors_lt
    have hblank : BitmapCache.blank header.bitmapSectors = .error (.unsupported .bitmapSize) := by
      rw [BitmapCache.blank, Sector.position_eq (by omega)]
      change (if BitmapCache.maxBytes < header.bitmapSectors * 512 then _ else _) = _
      rw [if_pos (Nat.not_le.mp h)]
      rfl
    refine .inr ?_
    rw [ofTable, hblank]
    rfl

namespace Image

theorem readTable_accepts (readable : S.Readable) {footer : Footer} {header : BlockHeader}
    {position : Nat} (hfits : content.size < 2 ^ 64)
    (hposition : findHeader footer content.size = .ok position)
    (hparse : BlockHeader.parse (content.read position 1024) = .ok header) :
    (readTable S.disk footer header).Ensures S
      (fun map content' => content' = content ∧ ∃ header table,
        Legible footer header table content ∧ Limits footer header table ∧
          map = .fresh header table)
      (fun e content' => content' = content ∧ S.Untrapped e) content := by
  obtain ⟨rfl, haligned, hroom⟩ := of_findHeader hposition
  simp only [readTable]
  split
  · rw [Access.ensures_bind, Access.ensures_throw]
    exact fun _ => ⟨rfl, .inr id⟩
  next hentries =>
  rw [Access.ensures_bind]
  have hcount := Nat.lt_of_le_of_lt (Nat.not_lt.mp hentries) header.maxTableEntries.toNat_lt
  refine (BlockTable.load_accepts readable hcount).mono_success ?_
  rintro table content' _ ⟨rfl, hoffset, hsize, hbytes, htable, recorded⟩
  rw [Access.ensures_bind]
  obtain ⟨hbitmap, hmap⟩ | hmap := BlockMap.ofTable_cases header table
  · rw [hmap, Access.ensures_liftExcept_ok]
    intro _
    split
    · rw [Access.ensures_bind, Access.ensures_throw]
      exact fun _ => ⟨rfl, .inr id⟩
    next hcovered =>
    rw [Access.ensures_pure]
    refine fun _ => ⟨rfl, header, table, ?_, ⟨hbytes, Nat.not_lt.mp hcovered⟩, rfl⟩
    exact ⟨hfits, haligned, hroom, hparse, hoffset, hsize, hsize ▸ Nat.not_lt.mp hentries,
      recorded, by rw [hoffset, hsize]; exact htable, hbitmap⟩
  · rw [hmap, Access.ensures_liftExcept_error]
    exact fun _ => ⟨rfl, .inr id⟩

theorem readBlockMap_accepts (readable : S.Readable) (footer : Footer)
    (hfits : content.size < 2 ^ 64) :
    (readBlockMap S.disk footer content.size).Ensures S
      (fun map content' => content' = content ∧ ∃ header table,
        Legible footer header table content ∧ Limits footer header table ∧
          map = .fresh header table)
      (fun e content' => content' = content ∧ S.Untrapped e) content := by
  rw [readBlockMap, Access.ensures_bind]
  cases hposition : findHeader footer content.size with
  | error e =>
    rw [Access.ensures_liftExcept_error]
    exact fun _ => ⟨rfl, .inr ((findHeader_answers footer _).forall_error
      (C := fun e => ¬ e.IsTrap) (by simp [headerDemands, Error.IsTrap]) hposition)⟩
  | ok position =>
    obtain ⟨-, -, hroom⟩ := of_findHeader hposition
    rw [Access.ensures_liftExcept_ok]
    intro _
    rw [Access.ensures_bind]
    refine .read (by omega) (by omega) (readable.read _ _ _) ?_ (fun hm _ => ⟨rfl, .inl hm⟩)
    rw [Access.ensures_bind]
    cases hparse : BlockHeader.parse (content.read position 1024) with
    | error e =>
      rw [Access.ensures_liftExcept_error]
      exact fun _ =>
        ⟨rfl, .inr fun htrap => BlockHeader.not_isSlip_of_parse hparse (.of_isTrap htrap)⟩
    | ok header =>
      rw [Access.ensures_liftExcept_ok]
      exact fun _ => readTable_accepts readable hfits hposition hparse

end Image

namespace Image

/-- What opening makes of a storage that it accepts. -/
inductive OpenedAs (disk : ι) (readOnly : Bool) (content : Content) : Image ι → Prop where
  | fixed {footer : Footer} (found : Found footer content) (kind : footer.diskType = .fixed)
      (room : footer.geometry.totalSectors * 512 + 512 ≤ content.size) :
      OpenedAs disk readOnly content (flat disk footer readOnly)
  | blocks {footer : Footer} {header : BlockHeader} {table : BlockTable}
      (found : Found footer content) (kind : footer.diskType ≠ .fixed)
      (legible : Legible footer header table content) (limits : Limits footer header table) :
      OpenedAs disk readOnly content (opened disk footer header table readOnly)

/-- Opening comes to an end, whatever is on the disk, and leaves it as it is. -/
theorem ofDisk_accepts (readable : S.Readable) (hfits : content.size < 2 ^ 64) (readOnly : Bool) :
    (ofDisk S.disk readOnly).Ensures S
      (fun image content' => content' = content ∧ OpenedAs S.disk readOnly content image)
      (fun e content' => content' = content ∧ S.Untrapped e) content := by
  simp only [ofDisk, Access.ensures_bind]
  refine .length (readable.length _) ?_ (fun hm _ => ⟨rfl, .inl hm⟩)
  split
  · simp only [Access.ensures_bind, Access.ensures_throw]
    exact fun _ => ⟨trivial, .inr id⟩
  next hsize =>
  rw [Access.ensures_bind]
  refine (findFooter_accepts readable (Nat.not_lt.mp hsize) hfits).mono_success ?_
  rintro footer content' _ ⟨found, rfl⟩
  have hblocks (layout : BlockMap → Layout) (hkind : footer.diskType ≠ .fixed)
      (hlayout : ∀ map, layout map = .ofBlocks map footer.diskType) :
      (layout <$> readBlockMap S.disk footer content'.size >>= fun layout =>
        pure (Image.mk S.disk footer layout readOnly)).Ensures S
      (fun image content'' => content'' = content' ∧ OpenedAs S.disk readOnly content' image)
      (fun e content'' => content'' = content' ∧ S.Untrapped e) content' := by
    simp only [map_eq_pure_bind, Access.ensures_bind, Access.ensures_pure]
    refine (readBlockMap_accepts readable footer hfits).mono_success ?_
    rintro map content'' _ ⟨rfl, header, table, legible, limits, rfl⟩ _ _
    rw [hlayout]
    exact ⟨rfl, .blocks found hkind legible limits⟩
  split
  · next hkind =>
    split
    · simp only [Access.ensures_bind, Access.ensures_throw]
      exact fun _ => ⟨trivial, .inr id⟩
    next hroom =>
    simp only [Access.ensures_bind, Access.ensures_pure]
    exact fun _ _ => ⟨trivial, .fixed found hkind (Nat.not_lt.mp hroom)⟩
  · next hkind =>
    exact hblocks _ (by rw [hkind]; decide) fun map => by rw [hkind, Layout.ofBlocks]
  · next hkind =>
    exact hblocks _ (by rw [hkind]; decide) fun map => by rw [hkind, Layout.ofBlocks]

theorem openedAs_of_ofDisk {disk : ι} {readOnly : Bool} {content content' : Content}
    {image : Image ι} (hsize : content.size < 2 ^ 64)
    (h : (ofDisk disk readOnly).runOn sole content = (.ok image, content')) :
    content' = content ∧ OpenedAs disk readOnly content image := by
  have readable := Setting.readable_free disk False fun _ => True
  have hpost := (ofDisk_accepts readable hsize readOnly).runOn_sole fun _ => trivial
  rw [Setting.disk_free, h] at hpost
  exact hpost

end Image

/-- What is found on a disk has its numbers in their ranges. -/
theorem Legible.wellSized {footer : Footer} {header : BlockHeader} {table : BlockTable}
    (h : Legible footer header table content) (limits : Limits footer header table) :
    WellSized (.fresh header table) where
  sectors_pos := by
    obtain ⟨hpos, haligned⟩ := BlockHeader.blockSize_of_parse h.header_bytes
    change 0 < header.blockSize.toNat / 512
    omega
  bytes_le := limits.bytes_le
  table_fits := Nat.lt_of_le_of_lt h.table_room h.size_lt
  size_bytes := Bytes.size_toByteArray _
  block_lt _ cached := by cases cached

end VirtualDisk
