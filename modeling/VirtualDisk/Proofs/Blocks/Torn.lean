import VirtualDisk.Proofs.Storage.Servers
import VirtualDisk.Proofs.Blocks.Terms

/-!
# Writes that are torn

The power may be lost in the middle of any write that an operation on blocks issues. Whatever part
of the write reaches the storage, there is an image on it. Each of its sectors is as it was before
the operation or as the operation was to leave it; only the sector whose own bytes were being
written, and which was there before, may have bytes of both.

The footer at the end may be overwritten when that happens. The image is then found by the copy of
the footer, because what the storage ends with is never mistaken for another footer.
-/

namespace VirtualDisk

open Storage

/-- The first bytes of a sector are from one sector and the others from another. -/
def Mixed (keep : Nat) (old new mixed : Sector) : Prop :=
  ∀ i (hi : i < 512), mixed[i] = if i < keep then new[i] else old[i]

/-- Each sector is as it was or has allowed bytes. -/
def OldOrNew (allowed : Nat → Sector → Prop) (old view : Nat → Option Sector) : Prop :=
  ∀ sector, view sector = old sector ∨ ∃ bytes, allowed sector bytes ∧ view sector = some bytes

/-- Each sector is as it was or has allowed bytes, but for at most one, which was there, whose bytes
were being written when the power was cut, and which has `keep` of them. -/
def OldOrNewOrMixed (allowed : Nat → Sector → Prop) (keep : Nat) (cut : Nat → Sector → Prop)
    (old view : Nat → Option Sector) : Prop :=
  ∃ torn, ∀ sector, view sector = old sector ∨ ∃ bytes, allowed sector bytes ∧
    (view sector = some bytes ∨ (sector = torn ∧ cut sector bytes) ∧ ∃ before mixed,
      old sector = some before ∧ view sector = some mixed ∧ Mixed keep before bytes mixed)

theorem OldOrNew.unmixed {allowed : Nat → Sector → Prop} {old view : Nat → Option Sector}
    (h : OldOrNew allowed old view) (keep : Nat) (cut : Nat → Sector → Prop) (torn sector : Nat) :
    view sector = old sector ∨ ∃ bytes, allowed sector bytes ∧
      (view sector = some bytes ∨ (sector = torn ∧ cut sector bytes) ∧ ∃ before mixed,
        old sector = some before ∧ view sector = some mixed ∧ Mixed keep before bytes mixed) :=
  (h sector).imp_right fun ⟨bytes, hbytes, heq⟩ => ⟨bytes, hbytes, .inl heq⟩

theorem OldOrNew.orMixed {allowed : Nat → Sector → Prop} {old view : Nat → Option Sector}
    (h : OldOrNew allowed old view) (keep : Nat) (cut : Nat → Sector → Prop) :
    OldOrNewOrMixed allowed keep cut old view :=
  ⟨0, h.unmixed keep cut 0⟩

theorem OldOrNewOrMixed.mono {allowed cut cut' : Nat → Sector → Prop} {keep : Nat}
    {old view : Nat → Option Sector} (h : OldOrNewOrMixed allowed keep cut old view)
    (imp : ∀ sector bytes, cut sector bytes → cut' sector bytes) :
    OldOrNewOrMixed allowed keep cut' old view := by
  obtain ⟨torn, hsectors⟩ := h
  refine ⟨torn, fun sector => (hsectors sector).imp_right ?_⟩
  rintro ⟨bytes, hbytes, hnew | ⟨⟨htorn, hcut⟩, hmixed⟩⟩
  · exact ⟨bytes, hbytes, .inl hnew⟩
  · exact ⟨bytes, hbytes, .inr ⟨⟨htorn, imp sector bytes hcut⟩, hmixed⟩⟩

/-- The position at which a sector is stored, if its block is. -/
def BlockMap.dataPlace? (map : BlockMap) (sector : Nat) : Option Nat :=
  (map.table.place? (sector / map.header.sectorsPerBlock)).map fun start =>
    map.dataPlace start (sector % map.header.sectorsPerBlock)

/-- A write puts the bytes where the sector is stored. -/
def BlockMap.Stores (position : Nat) (data : ByteArray) (map : BlockMap) (sector : Nat)
    (bytes : Sector) : Prop :=
  map.dataPlace? sector = some position ∧ bytes.toByteArray = data

/-- An image in the course of an operation that began with the sectors `old`. -/
structure Underway (footer : Footer) (header : BlockHeader) (allowed : Nat → Sector → Prop)
    (old : Nat → Option Sector) (map : BlockMap) (content : Content) : Prop where
  consistent : Consistent footer map content
  isSealed : Sealed footer content
  header_eq : map.header = header
  /-- The storage does not outgrow 64 bits, whatever is allocated. -/
  room : content.size + map.header.allocationBytes * map.table.vacant < 2 ^ 63
  stored : OldOrNew allowed old (map.stored content)
  held : OldOrNew allowed old (map.held content)

/-- There is an image on the storage with old and new sectors; `cut` says which bytes were being
written to which sector of it. -/
structure Salvaged (footer : Footer) (header : BlockHeader) (allowed : Nat → Sector → Prop)
    (old : Nat → Option Sector) (keep : Nat) (cut : BlockMap → Nat → Sector → Prop)
    (content : Content) : Prop where
  size_lt : content.size < 2 ^ 64
  image : ∃ map : BlockMap, map.header = header ∧ OnDisk footer header map.table content ∧
    OldOrNewOrMixed allowed keep (cut map) old (map.stored content)

variable {footer : Footer} {header : BlockHeader} {allowed : Nat → Sector → Prop}
variable {old : Nat → Option Sector} {map map' : BlockMap} {content content' current : Content}
variable {cut : BlockMap → Nat → Sector → Prop}

theorem Salvaged.mono {keep : Nat} {cut' : BlockMap → Nat → Sector → Prop}
    (h : Salvaged footer header allowed old keep cut content)
    (imp : ∀ map sector bytes, cut map sector bytes → cut' map sector bytes) :
    Salvaged footer header allowed old keep cut' content := by
  obtain ⟨hsize, map, hheader, hdisk, hsectors⟩ := h
  exact ⟨hsize, map, hheader, hdisk, hsectors.mono (imp map)⟩

/-- The operation goes on by steps that give sectors only allowed bytes. -/
theorem Underway.advance (h : Underway footer header allowed old map content)
    (hadvance : Advance footer allowed map content map' content') :
    Underway footer header allowed old map' content' where
  consistent := hadvance.consistent
  isSealed := (hadvance.balance h.isSealed).1
  header_eq := hadvance.header.trans h.header_eq
  room := by
    rw [hadvance.header, (hadvance.balance h.isSealed).2]
    exact h.room
  stored sector := by
    obtain heq | heq | hnew := hadvance.stored sector
    · rw [heq]
      exact h.stored sector
    · rw [heq]
      exact h.held sector
    · exact .inr hnew
  held sector := by
    obtain heq | hnew := hadvance.held sector
    · rw [heq]
      exact h.held sector
    · exact .inr hnew

theorem Underway.size_lt (h : Underway footer header allowed old map content) :
    content.size < 2 ^ 63 :=
  Nat.lt_of_le_of_lt (Nat.le_add_right _ _) h.room

theorem Underway.of_quiet (h : Underway footer header allowed old map content)
    (hquiet : Quiet footer map content map' content') (isSealed : Sealed footer content')
    (room : content'.size + map'.header.allocationBytes * map'.table.vacant < 2 ^ 63) :
    Underway footer header allowed old map' content' where
  consistent := hquiet.consistent
  isSealed := isSealed
  header_eq := hquiet.header.trans h.header_eq
  room := room
  stored sector := by
    obtain heq | heq | ⟨_, hfalse, _⟩ := hquiet.stored sector
    · rw [heq]
      exact h.stored sector
    · rw [heq]
      exact h.held sector
    · exact hfalse.elim
  held sector := by
    rw [hquiet.held_eq]
    exact h.held sector

theorem Fits.allocation_lt {table : BlockTable} (h : Fits footer header table) :
    header.allocationBytes * table.vacant < 2 ^ 62 := by
  have hbytes := header.allocationBytes_lt
  have hvacant : table.vacant ≤ table.size := Array.count_le_size
  have hsize := h.bytes_le
  unfold BlockTable.maxBytes at hsize
  calc header.allocationBytes * table.vacant
    _ ≤ 2 ^ 34 * 2 ^ 25 := Nat.mul_le_mul (Nat.le_of_lt hbytes) (by omega)
    _ < 2 ^ 62 := by decide

theorem Underway.lost {start block : Nat} (h : Underway footer header allowed old map content)
    (inside : block < map.table.size) (vacant : map.table.place? block = none)
    (appended : Appended footer map.header content start current)
    (unrecordable : 2 ^ 32 - 1 ≤ start) :
    Underway footer header allowed old map (current.withEntry map.table block start) := by
  have hgrown := h.consistent.onDisk.grown appended.grown appended.tail
  have hprice := h.consistent.onDisk.fits.allocation_lt
  have hstart := appended.start_lt
  have hbytes := map.header.allocationBytes_lt
  refine h.of_quiet (appended.lost h.consistent inside vacant unrecordable) ?_ ?_
  · exact (hgrown.tail_withEntry inside start).trans (appended.of_sealed h.isSealed).1
  · rw [hgrown.size_withEntry inside, appended.size_eq]
    omega

theorem Underway.salvaged_untorn (h : Underway footer header allowed old map content) (keep : Nat) :
    Salvaged footer header allowed old keep cut content := by
  refine ⟨Nat.lt_trans h.size_lt (by decide), map, h.header_eq, ?_, h.stored.orMixed keep _⟩
  rw [← h.header_eq]
  exact h.consistent.onDisk

/-- The bytes that reach the storage when the power is lost after `keep` bytes. -/
structure Beginning {m n : Nat} (bytes : Bytes m) (keep : Nat) (part : Bytes n) : Prop where
  size_eq : n = min (Storage.keptSize m keep) m
  bytes_eq : ∀ i (hi : i < n) (hi' : i < m), part[i] = bytes[i]

theorem Beginning.size_le {m n : Nat} {bytes : Bytes m} {keep : Nat} {part : Bytes n}
    (h : Beginning bytes keep part) : n ≤ m := by
  rw [h.size_eq]
  exact Nat.min_le_right _ _

theorem Storage.Content.tear_eq {m : Nat} (content : Content) (offset : Nat) (bytes : Bytes m)
    (keep : Nat) :
    ∃ n, ∃ part : Bytes n, Beginning bytes keep part ∧
      content.tear offset bytes.toByteArray keep = content.write offset part := by
  obtain ⟨bytes, rfl⟩ := bytes
  refine ⟨_, Bytes.ofByteArray (bytes.extract 0 (keptSize bytes.size keep)), ⟨?_, ?_⟩, rfl⟩
  · rw [ByteArray.size_extract]
    omega
  · intro i hi hi'
    rw [Bytes.getElem_ofByteArray, ByteArray.getElem_extract]
    simp only [Nat.zero_add]
    rfl

section Cases

variable {m n position start block : Nat} {bytes : Sector}

theorem Beginning.bitmapPart {keep : Nat} {part : Bytes n}
    (h : Beginning (Bytes.ofByteArray map.bitmap.bytes) keep part) (hmap : Coherent map content) :
    BitmapPart map part := by
  refine ⟨by rw [← hmap.size_bytes]; exact h.size_le, fun i hi => ?_⟩
  have hi' := Nat.lt_of_lt_of_le hi h.size_le
  rw [h.bytes_eq i hi hi', getElem?_pos map.bitmap.bytes i hi', Bytes.getElem_ofByteArray]

theorem Underway.salvaged_bitmap (h : Underway footer header allowed old map content)
    (cached : map.bitmap.block = some block) (place : map.table.place? block = some start)
    {part : Bytes n} (begun : BitmapPart map part) (keep : Nat) :
    Salvaged footer header allowed old keep cut (content.write (start * 512) part) := by
  obtain rfl := h.header_eq
  have hdisk := h.consistent.onDisk
  have hend : start * 512 + n ≤ start * 512 + map.header.regionSectors * 512 := by
    have := begun.size_le
    rw [BlockHeader.regionSectors_eq]
    omega
  refine ⟨?_, map, rfl, begun.onDisk hdisk place, OldOrNew.orMixed (fun sector => ?_) keep _⟩
  · rw [hdisk.size_write_region place hend part]
    exact Nat.lt_trans h.size_lt (by decide)
  · obtain heq | heq := begun.stored h.consistent cached place sector
    · rw [heq]
      exact h.stored sector
    · rw [heq]
      exact h.held sector

theorem Underway.salvaged_quiet (h : Underway footer header allowed old map content)
    (hdisk : OnDisk footer map.header map.table current)
    (same : ∀ block start, map.table.place? block = some start →
      BlockMap.SameRegion map.header content current start)
    (hsize : current.size < 2 ^ 64) (keep : Nat) :
    Salvaged footer header allowed old keep cut current := by
  obtain rfl := h.header_eq
  refine ⟨hsize, map, rfl, hdisk, OldOrNew.orMixed (fun sector => ?_) keep _⟩
  have hstored : map.stored current sector = map.stored content sector :=
    BlockMap.stored_congr hdisk.fits.sectors_pos rfl rfl (same _)
  rw [hstored]
  exact h.stored sector

theorem Underway.salvaged_grown (h : Underway footer header allowed old map content)
    (grown : content.Grown current) (tail : NoForeignFooter footer current)
    (hsize : current.size < 2 ^ 64) (keep : Nat) :
    Salvaged footer header allowed old keep cut current :=
  h.salvaged_quiet (h.consistent.onDisk.grown grown tail)
    (fun _ _ place => h.consistent.onDisk.sameRegion_grown grown place) hsize keep

theorem Underway.salvaged_zeros (h : Underway footer header allowed old map content)
    (found : EndFound footer content position bytes) (zeroed : content.Zeroed current position n)
    {zeros : Bytes m} (zero : ∀ i (hi : i < m), zeros[i] = 0) (fits : position + n + m < 2 ^ 64)
    {k keep : Nat} {part : Bytes k} (begun : Beginning zeros keep part) :
    Salvaged footer header allowed old keep cut (current.write (position + n) part) := by
  have hk := begun.size_le
  have hroom := h.consistent.onDisk.copy_room
  have hsize := h.size_lt
  have zeroed' : content.Zeroed (current.write (position + n) part) position (n + k) := by
    apply zeroed.write
    intro i hi
    rw [begun.bytes_eq i hi (Nat.lt_of_lt_of_le hi hk)]
    exact zero i _
  have hsize' := zeroed'.size_eq
  apply h.salvaged_grown (zeroed'.grown found.size_le) _ (by omega) keep
  exact .zeroed zeroed' (by omega) found.size_le found.le_size h.consistent.onDisk.tail
    (.inr (.inr (found.of_sealed h.isSealed).1))

theorem Underway.salvaged_footer (h : Underway footer header allowed old map content)
    (found : EndFound footer content position bytes) (zeroed : content.Zeroed current position n)
    (some_zeros : 512 ≤ n) (behind : content.size ≤ position + n)
    (fits : position + n + 512 < 2 ^ 64)
    {k keep : Nat} {part : Bytes k} (begun : Beginning bytes keep part) :
    Salvaged footer header allowed old keep cut (current.write (position + n) part) := by
  have hk := begun.size_le
  have hsize : (current.write (position + n) part).size < 2 ^ 64 := by
    have := h.size_lt
    have := zeroed.size_eq
    rw [Content.size_write]
    omega
  apply h.salvaged_grown ((zeroed.grown found.size_le).write part (by omega)) _ hsize keep
  exact .footer_begun zeroed some_zeros behind found.own_or_none hk fun i hi =>
    begun.bytes_eq i hi (Nat.lt_of_lt_of_le hi hk)

/-- A beginning of the entry of a block, which is all of it or nothing. -/
theorem Underway.salvaged_entry (h : Underway footer header allowed old map content)
    (inside : block < map.table.size) (vacant : map.table.place? block = none)
    (appended : Appended footer map.header content start current) {part : Bytes n} {keep : Nat}
    (begun : Beginning (Bytes.ofNumber 4 (UInt32.ofNat start).toNat) keep part) :
    Salvaged footer header allowed old keep cut
      (current.write (map.table.offset + block * 4) part) := by
  have hsize := begun.size_eq
  have hcurrent : current.size < 2 ^ 64 := Nat.lt_trans appended.size_lt (by decide)
  unfold keptSize at hsize
  by_cases hall : n = 4
  · subst hall
    obtain rfl := Bytes.ext fun i hi => begun.bytes_eq i hi hi
    by_cases recordable : start < 2 ^ 32 - 1
    · have hadvance := appended.allocate h.consistent inside vacant recordable
      exact (h.advance hadvance.of_quiet).salvaged_untorn keep
    · exact (h.lost inside vacant appended (Nat.not_lt.mp recordable)).salvaged_untorn keep
  · have hzero : n = 0 := by
      rw [if_pos rfl] at hsize
      split at hsize
      · exact hsize
      · exact absurd hsize hall
    subst hzero
    have htable := h.consistent.onDisk.table_room
    have hle := appended.grown.size_le
    have hsize' : (current.write (map.table.offset + block * 4) part).size = current.size := by
      rw [Content.size_write]
      omega
    have hagree : ∀ start size, current.AgreeOn (current.write (map.table.offset + block * 4) part)
        start size := by
      intro start size p _ _
      rw [Content.byte_write, dif_neg (by omega)]
    refine h.salvaged_grown ⟨?_, appended.grown.agree.trans (hagree _ _)⟩ ?_ ?_ keep
    · rw [hsize']
      exact hle
    · rw [NoForeignFooter, Content.tail, hsize', (hagree _ _).read_eq]
      exact appended.tail
    · rw [hsize']
      exact hcurrent

theorem Underway.salvaged_stray (h : Underway footer header allowed old map content)
    (unused : Unused footer map content position) (hn : n ≤ 512) (part : Bytes n) (keep : Nat) :
    Salvaged footer header allowed old keep cut (content.write position part) := by
  have hquiet := unused.quiet h.consistent hn part
  refine h.salvaged_quiet hquiet.consistent.onDisk (fun block start place => ?_) ?_ keep
  · exact content.agreeOn_write part (.inl (unused.behind block start place))
  · rw [unused.size_write hn]
    exact Nat.lt_trans h.size_lt (by decide)

/-- The place of a sector after a beginning of its bytes was written. -/
theorem BlockMap.mixed_data (place : map.table.place? block = some start) (content : Content)
    (i : Nat)
    {part : Bytes n} {keep : Nat} (begun : Beginning bytes keep part) :
    Mixed keep (map.data content block i) bytes
      (map.data (content.write (map.dataPlace start i) part) block i) := by
  intro j hj
  have hsize := begun.size_eq
  rw [keptSize, if_neg (by decide)] at hsize
  rw [data_of_place place, data_of_place place, Content.getElem_read, Content.byte_write, dataPlace]
  by_cases hkeep : j < keep
  · rw [dif_pos (by omega), if_pos hkeep]
    simp only [Nat.add_sub_cancel_left]
    exact begun.bytes_eq j (by omega) hj
  · rw [dif_neg (by omega), if_neg hkeep, Content.getElem_read]

/-- A beginning of the bytes of a sector. The sector itself is mixed if it was stored, and all other
sectors are stored as before. -/
theorem Underway.salvaged_data (h : Underway footer header allowed old map content) {sector : Nat}
    (place : map.table.place? (sector / map.header.sectorsPerBlock) = some start)
    (permitted : allowed sector bytes)
    (single : ∀ sector bytes bytes', allowed sector bytes → allowed sector bytes' → bytes' = bytes)
    {part : Bytes n} {keep : Nat} (begun : Beginning bytes keep part) :
    Salvaged footer header allowed old keep
      (BlockMap.Stores (map.dataPlace start (sector % map.header.sectorsPerBlock))
        bytes.toByteArray)
      (content.write (map.dataPlace start (sector % map.header.sectorsPerBlock)) part) := by
  obtain rfl := h.header_eq
  have hdisk := h.consistent.onDisk
  have hi := Nat.mod_lt sector hdisk.fits.sectors_pos
  have hn := begun.size_le
  obtain ⟨hstart, hend⟩ := map.dataPlace_in_region start hi hn
  refine ⟨?_, map, rfl, hdisk.write_region place hstart hend part, sector, fun other => ?_⟩
  · rw [hdisk.size_write_region place hend part]
    exact Nat.lt_trans h.size_lt (by decide)
  by_cases hother : other = sector
  · subst hother
    cases hset : map.storedBit content (other / map.header.sectorsPerBlock)
        (other % map.header.sectorsPerBlock) with
    | false =>
      rw [hdisk.stored_write_data_of_unset place hn part hset]
      exact h.stored.unmixed keep _ other other
    | true =>
      have hmixed := BlockMap.mixed_data place content (other % map.header.sectorsPerBlock) begun
      have hbefore : map.stored content other = some (map.data content _ _) :=
        BlockMap.present_eq_some.mpr ⟨hset, rfl⟩
      have hafter : map.stored (content.write (map.dataPlace start
          (other % map.header.sectorsPerBlock)) part) other = some (map.data _ _ _) :=
        BlockMap.present_eq_some.mpr
          ⟨(hdisk.storedBit_write_data place hi hn part _ hi).trans hset, rfl⟩
      refine .inr ⟨bytes, permitted, ?_⟩
      obtain hsame | ⟨bytes', hallowed, hnew⟩ := h.stored other
      · have hplace : map.dataPlace? other =
            some (map.dataPlace start (other % map.header.sectorsPerBlock)) := by
          rw [BlockMap.dataPlace?, place]
          rfl
        exact .inr ⟨⟨rfl, hplace, rfl⟩, _, _, hsame.symm.trans hbefore, hafter, hmixed⟩
      · -- The sector has its new bytes already, and what is written over them are the same.
        obtain rfl := single _ _ _ permitted hallowed
        rw [hbefore, Option.some.injEq] at hnew
        rw [hnew] at hmixed
        refine .inl (hafter.trans (congrArg some (Bytes.ext fun j hj => ?_)))
        rw [hmixed j hj, ite_self]
  · rw [hdisk.stored_write_data_of_ne place hn part hother]
    exact h.stored.unmixed keep _ sector other

end Cases

/-- Whichever write is torn, there is an image with old and new sectors. -/
theorem Underway.salvaged (h : Underway footer header allowed old map content)
    (single : ∀ sector bytes bytes', allowed sector bytes → allowed sector bytes' → bytes' = bytes)
    {offset : Nat} {data : ByteArray}
    (issued : Issued footer allowed map content current offset data) (keep : Nat) :
    Salvaged footer header allowed old keep (BlockMap.Stores offset data)
      (current.tear offset data keep) := by
  cases issued with
  | @bitmap block start cached place =>
    obtain ⟨n, part, begun, heq⟩ :=
      content.tear_eq (start * 512) (Bytes.ofByteArray map.bitmap.bytes) keep
    change Salvaged _ _ _ _ _ _
      (content.tear (start * 512) (Bytes.ofByteArray map.bitmap.bytes).toByteArray keep)
    rw [heq]
    exact h.salvaged_bitmap cached place (begun.bitmapPart h.consistent.coherent) keep
  | @zeros position n m bytes current zeros found zeroed zero fits =>
    obtain ⟨k, part, begun, heq⟩ := current.tear_eq (position + n) zeros keep
    rw [heq]
    exact h.salvaged_zeros found zeroed zero fits begun
  | @footer position n bytes current found zeroed behind some_zeros fits =>
    obtain ⟨k, part, begun, heq⟩ := current.tear_eq (position + n) bytes keep
    rw [heq]
    exact h.salvaged_footer found zeroed some_zeros behind fits begun
  | @entry block start current inside vacant appended =>
    obtain ⟨k, part, begun, heq⟩ := current.tear_eq (map.table.offset + block * 4)
      (Bytes.ofNumber 4 (UInt32.ofNat start).toNat) keep
    rw [heq]
    exact h.salvaged_entry inside vacant appended begun
  | @data sector start bytes place permitted =>
    obtain ⟨k, part, begun, heq⟩ := content.tear_eq
      (map.dataPlace start (sector % map.header.sectorsPerBlock)) bytes keep
    rw [heq]
    exact h.salvaged_data place permitted single begun
  | @stray _ bytes unused =>
    obtain ⟨k, part, begun, heq⟩ := content.tear_eq offset bytes keep
    rw [heq]
    exact h.salvaged_stray unused begun.size_le part keep

end VirtualDisk
