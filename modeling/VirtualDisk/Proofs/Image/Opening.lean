import VirtualDisk.Image.Open
import VirtualDisk.Proofs.Storage.Servers
import VirtualDisk.Proofs.Format.Footer
import VirtualDisk.Proofs.Blocks.Consistent

/-!
# Opening images

A storage that is `OnDisk` is opened, by the footer at its end or by the copy of it, and what is
opened is the image that it is on disk: with the same header and the same table, and with no
bitmap cached.
-/

namespace VirtualDisk

open Storage

variable {ι : Type} {S : Setting ι} {footer : Footer} {header : BlockHeader} {table : BlockTable}
variable {content : Content}

/-- Sizes and ranges may be asked for. -/
structure Storage.Setting.Readable (S : Setting ι) : Prop where
  length : ∀ content, S.permits .length content
  read : ∀ offset size content, S.permits (.read offset size) content

theorem Storage.Setting.readable_free (disk : ι) (mayFail : Prop) (within : Content → Prop) :
    (free disk mayFail within).Readable :=
  ⟨fun _ => trivial, fun _ _ _ => trivial⟩

/-- A map without a cached bitmap. -/
def BlockMap.fresh (header : BlockHeader) (table : BlockTable) : BlockMap where
  header
  table
  bitmap := ⟨(Bytes.zero (header.bitmapSectors * 512)).toByteArray, none, false⟩

/-- The layout of an image with blocks. -/
def Layout.ofBlocks (map : BlockMap) : DiskType → Layout
  | .fixed => .fixed
  | .dynamic => .dynamic map
  | .differencing => .differencing map

/-- Header and table are found on the storage. -/
structure Legible (footer : Footer) (header : BlockHeader) (table : BlockTable)
    (content : Content) :
    Prop where
  size_lt : content.size < 2 ^ 64
  position_aligned : footer.dataOffset.toNat % 512 = 0
  header_room : footer.dataOffset.toNat + 1024 ≤ content.size
  header_bytes : BlockHeader.parse (content.read footer.dataOffset.toNat 1024) = .ok header
  offset_eq : table.offset = header.tableOffset.toNat
  size_eq : table.size =
    (footer.currentSize.toNat + header.blockSize.toNat - 1) / header.blockSize.toNat
  size_le : table.size ≤ header.maxTableEntries.toNat
  recorded : table.Recorded content
  table_room : table.offset + table.size * 4 ≤ content.size
  bitmap_le : header.bitmapSectors * 512 ≤ BitmapCache.maxBytes

/-- The table is not too large, and large enough for the disk. -/
structure Limits (footer : Footer) (header : BlockHeader) (table : BlockTable) : Prop where
  bytes_le : table.size * 4 ≤ BlockTable.maxBytes
  covered : footer.geometry.totalSectors ≤ table.size * header.sectorsPerBlock

theorem OnDisk.legible (h : OnDisk footer header table content) (hsize : content.size < 2 ^ 64) :
    Legible footer header table content where
  size_lt := hsize
  position_aligned := h.fits.position_aligned
  header_room := Nat.le_trans (by omega) h.header_room
  header_bytes := h.header_bytes
  offset_eq := h.fits.offset_eq
  size_eq := h.fits.size_eq
  size_le := h.fits.size_le
  recorded := h.recorded
  table_room := Nat.le_trans (Nat.le_add_right _ 512) h.table_room
  bitmap_le := h.fits.bitmap_le

/-- A table is loaded as it was recorded, unless it is too large. -/
theorem BlockTable.load_ensures (readable : S.Readable) (h : Legible footer header table content) :
    (load S.disk table.offset table.size).Ensures S
      (fun loaded content' => table.size * 4 ≤ maxBytes ∧ loaded = table ∧ content' = content)
      (fun _ content' => (table.size * 4 ≤ maxBytes → S.mayFail) ∧ content' = content) content := by
  have hroom := h.table_room
  have hlarge := h.size_lt
  have hsize : ¬ 2 ^ 64 ≤ table.size * 4 := by omega
  simp only [load, if_neg hsize]
  split
  · next htoo =>
    simp only [Access.ensures_bind, Access.ensures_throw]
    exact fun _ => ⟨fun hle => absurd hle (Nat.not_le.mpr htoo), trivial⟩
  · next hle =>
    rw [Access.ensures_bind]
    refine .readWithin (by omega) hroom (readable.read _ _ _) ?_ (fun hm _ => ⟨fun _ => hm, rfl⟩)
    rw [Access.ensures_pure, h.recorded.decode_eq]
    exact fun _ => ⟨Nat.not_lt.mp hle, rfl, rfl⟩

theorem BlockMap.ofTable_eq (h : header.bitmapSectors * 512 ≤ BitmapCache.maxBytes) :
    ofTable header table = .ok (fresh header table) := by
  have hfits : header.bitmapSectors * 512 < 2 ^ 64 := by
    unfold BitmapCache.maxBytes at h
    omega
  have hblank : BitmapCache.blank header.bitmapSectors = .ok (fresh header table).bitmap := by
    rw [BitmapCache.blank, Sector.position, if_pos hfits]
    change (if BitmapCache.maxBytes < header.bitmapSectors * 512 then _ else _) = _
    rw [if_neg (Nat.not_lt.mpr h)]
    rfl
  rw [ofTable, hblank]
  rfl

namespace Image

theorem findFooter_ensures (readable : S.Readable)
    (copy : Footer.parse (content.read 0 512) = .ok footer) (tail : NoForeignFooter footer content)
    (hroom : 512 ≤ content.size) (hfits : content.size < 2 ^ 64) :
    (findFooter S.disk content.size).Ensures S
      (fun found content' => found = footer ∧ content' = content)
      (fun _ content' => S.mayFail ∧ content' = content) content := by
  simp only [findFooter, Access.ensures_bind]
  refine .read (by omega) (by omega) (readable.read _ _ _) ?_ (fun hm _ => ⟨hm, rfl⟩)
  obtain hsealed | ⟨e, he⟩ := tail
  · have hraw := Footer.raw_of_parse copy
    have hparse : Footer.parse (content.read (content.size - 512) 512) = .ok footer := by
      change content.read (content.size - 512) 512 = footer.raw at hsealed
      rw [hsealed, hraw]
      exact copy
    rw [hparse, Access.ensures_pure]
    exact fun _ => ⟨rfl, rfl⟩
  · change Footer.parse (content.read (content.size - 512) 512) = .error e at he
    simp only [he, Access.ensures_bind]
    refine .read (by omega) (by omega) (readable.read _ _ _) ?_ (fun hm _ => ⟨hm, rfl⟩)
    rw [copy, Access.ensures_pure]
    exact fun _ => ⟨rfl, rfl⟩

/-- What is asked of the place of a header. -/
def headerDemands (footer : Footer) (size : Nat) : List Demand :=
  let position := footer.dataOffset.toNat
  [⟨position ≠ 2 ^ 64 - 1, .corrupt .headerOffset⟩,
    ⟨position % 512 = 0, .corrupt .headerMisaligned⟩,
    ⟨position + 1024 < 2 ^ 64, .offsetOverflow⟩,
    ⟨position + 1024 ≤ size, .corrupt .headerTruncated⟩]

/-- The place of a header is checked in this order. -/
theorem findHeader_answers (footer : Footer) (size : Nat) :
    Answers (headerDemands footer size) (footer.dataOffset.toNat = ·)
      (findHeader footer size) := by
  unfold findHeader
  refine .guard Decidable.not_not.symm fun _ => ?_
  refine .guard Iff.rfl fun _ => ?_
  refine .guard Nat.not_lt.symm fun _ => ?_
  refine .guard Nat.not_le.symm fun _ => ?_
  exact .nil rfl fun _ h => h

theorem of_findHeader {size position : Nat} (h : findHeader footer size = .ok position) :
    position = footer.dataOffset.toNat ∧ position % 512 = 0 ∧ position + 1024 ≤ size := by
  obtain ⟨hmet, rfl⟩ := ((findHeader_answers footer size).ok_iff position).mp h
  simp only [headerDemands, List.forall_mem_cons] at hmet
  obtain ⟨-, haligned, -, hroom, -⟩ := hmet
  exact ⟨rfl, haligned, hroom⟩

theorem findHeader_eq (h : Legible footer header table content) :
    findHeader footer content.size = .ok footer.dataOffset.toNat := by
  have hlarge := h.size_lt
  have hheader := h.header_room
  refine ((findHeader_answers footer content.size).ok_iff _).mpr ⟨?_, rfl⟩
  simp only [headerDemands, List.forall_mem_cons]
  exact ⟨by omega, h.position_aligned, by omega, hheader, nofun⟩

theorem readTable_ensures (readable : S.Readable) (h : Legible footer header table content) :
    (readTable S.disk footer header).Ensures S
      (fun map content' => Limits footer header table ∧ map = .fresh header table ∧
        content' = content)
      (fun _ content' => (Limits footer header table → S.mayFail) ∧ content' = content)
        content := by
  simp only [readTable, ← h.size_eq, if_neg (Nat.not_lt.mpr h.size_le), ← h.offset_eq,
    Access.ensures_bind]
  refine (BlockTable.load_ensures readable h).mono ?_ ?_
  · rintro loaded content' _ ⟨hbytes, hloaded, rfl⟩
    simp only [hloaded, BlockMap.ofTable_eq h.bitmap_le, Access.ensures_liftExcept_ok]
    intro _
    split
    · next hshort' =>
      simp only [Access.ensures_bind, Access.ensures_throw]
      exact fun _ => ⟨fun hlimits => absurd hlimits.covered (Nat.not_le.mpr hshort'), trivial⟩
    · next hcovered =>
      rw [Access.ensures_pure]
      exact fun _ => ⟨⟨hbytes, Nat.not_lt.mp hcovered⟩, rfl, rfl⟩
  · rintro _ content' _ ⟨hm, rfl⟩
    exact ⟨fun hlimits => hm hlimits.bytes_le, rfl⟩

theorem readBlockMap_ensures (readable : S.Readable) (h : Legible footer header table content) :
    (readBlockMap S.disk footer content.size).Ensures S
      (fun map content' => Limits footer header table ∧ map = .fresh header table ∧
        content' = content)
      (fun _ content' => (Limits footer header table → S.mayFail) ∧ content' = content)
        content := by
  have hlarge := h.size_lt
  have hheader := h.header_room
  simp only [readBlockMap, findHeader_eq h, Access.ensures_bind, Access.ensures_liftExcept_ok]
  intro _
  refine .read (by omega) (by omega) (readable.read _ _ _) ?_ (fun hm _ => ⟨fun _ => hm, rfl⟩)
  rw [h.header_bytes, Access.ensures_liftExcept_ok]
  exact fun _ => readTable_ensures readable h

/-- The image that is opened. -/
def opened (disk : ι) (footer : Footer) (header : BlockHeader) (table : BlockTable)
    (readOnly : Bool) : Image ι where
  disk
  footer
  layout := .ofBlocks (.fresh header table) footer.diskType
  readOnly

theorem blocks?_opened (disk : ι) (hkind : footer.diskType ≠ .fixed) (header : BlockHeader)
    (table : BlockTable) (readOnly : Bool) :
    (opened disk footer header table readOnly).blocks? = some (.fresh header table) := by
  rw [blocks?, opened]
  cases h : footer.diskType with
  | fixed => exact absurd h hkind
  | dynamic => rfl
  | differencing => rfl

@[simp] theorem diskType_opened (disk : ι) (footer : Footer) (header : BlockHeader)
    (table : BlockTable) (readOnly : Bool) :
    (opened disk footer header table readOnly).diskType = footer.diskType := by
  rw [diskType, opened]
  cases footer.diskType with
  | fixed => rfl
  | dynamic => rfl
  | differencing => rfl

/-- An image with blocks is opened if its table keeps to the limits. -/
theorem ofDisk_ensures_limits (readable : S.Readable) (h : Legible footer header table content)
    (copy : Footer.parse (content.read 0 512) = .ok footer) (tail : NoForeignFooter footer content)
    (hkind : footer.diskType ≠ .fixed) (readOnly : Bool) :
    (ofDisk S.disk readOnly).Ensures S
      (fun image content' => Limits footer header table ∧
        image = opened S.disk footer header table readOnly ∧ content' = content)
      (fun _ content' => (Limits footer header table → S.mayFail) ∧ content' = content)
        content := by
  have hroom := h.header_room
  have hlarge : ¬ content.size < 512 := by omega
  simp only [ofDisk, Access.ensures_bind]
  refine .length (readable.length _) ?_ (fun hm _ => ⟨fun _ => hm, rfl⟩)
  simp only [if_neg hlarge, Access.ensures_bind]
  refine (findFooter_ensures readable copy tail (by omega) h.size_lt).mono ?_ ?_
  · rintro found content' _ ⟨hfound, rfl⟩
    have hmap := readBlockMap_ensures readable h
    rw [hfound]
    cases hkind' : footer.diskType with
    | fixed => exact absurd hkind' hkind
    | dynamic =>
      simp only [map_eq_pure_bind, Access.ensures_bind, Access.ensures_pure]
      refine hmap.mono_success ?_
      rintro _ content'' _ ⟨hlimits, rfl, rfl⟩ _ _
      exact ⟨hlimits, by rw [opened, hkind', Layout.ofBlocks], rfl⟩
    | differencing =>
      simp only [map_eq_pure_bind, Access.ensures_bind, Access.ensures_pure]
      refine hmap.mono_success ?_
      rintro _ content'' _ ⟨hlimits, rfl, rfl⟩ _ _
      exact ⟨hlimits, by rw [opened, hkind', Layout.ofBlocks], rfl⟩
  · rintro _ content' _ ⟨hm, rfl⟩
    exact ⟨fun _ => hm, rfl⟩

theorem ofDisk_ensures (readable : S.Readable) (h : OnDisk footer header table content)
    (hkind : footer.diskType ≠ .fixed) (hsize : content.size < 2 ^ 64) (readOnly : Bool) :
    (ofDisk S.disk readOnly).Ensures S
      (fun image content' => image = opened S.disk footer header table readOnly ∧
        content' = content)
      (fun _ content' => S.mayFail ∧ content' = content) content := by
  have hlimits : Limits footer header table := ⟨h.fits.bytes_le, h.fits.covered⟩
  refine (ofDisk_ensures_limits readable (h.legible hsize) h.footer_copy h.tail hkind
    readOnly).mono ?_ ?_
  · rintro image content' _ ⟨_, himage, hcontent⟩
    exact ⟨himage, hcontent⟩
  · rintro _ content' _ ⟨hm, hcontent⟩
    exact ⟨hm hlimits, hcontent⟩

theorem runOn_ofDisk (disk : ι) (h : OnDisk footer header table content)
    (hkind : footer.diskType ≠ .fixed) (hsize : content.size < 2 ^ 64) (readOnly : Bool) :
    (ofDisk disk readOnly).runOn sole content =
      (.ok (opened disk footer header table readOnly), content) := by
  have readable := Setting.readable_free disk False fun _ => True
  obtain ⟨image, content', hrun, rfl, rfl⟩ :=
    (ofDisk_ensures readable h hkind hsize readOnly).runOn_sole_ok (fun _ => trivial)
      fun _ _ hfailed => hfailed.1
  exact hrun

end Image

theorem OnDisk.consistent_fresh (h : OnDisk footer header table content)
    (aligned : content.size % 512 = 0) : Consistent footer (.fresh header table) content where
  onDisk := h
  aligned := aligned
  coherent := by
    refine ⟨Bytes.size_toByteArray _, ?_, ?_, ?_, ?_⟩
    · intro block hblock
      cases hblock
    · intro block i hblock
      cases hblock
    · intro _ block i hblock
      cases hblock
    · intro hdirty
      cases hdirty

end VirtualDisk
