import Mathlib.Data.Finset.Card
import VirtualDisk.Proofs.Blocks.Cropped
import VirtualDisk.Proofs.Blocks.Mirror

/-!
# What a write leaves of a storage

The storage may have been laid out by anyone, as long as nothing lies on anything else and a footer
is at the end: then it is `PartsApart`. A write finds its way with the table alone. It changes the
sectors that are written, sets their bits, and records and appends the blocks that are missing;
`Footprint` says so. The bits that are set in the cache only are taken as stored, which they are
once the cache is flushed.
-/

namespace VirtualDisk

open Storage

variable {ι : Type}

/-- Header, table and blocks are apart from one another, and behind them all is a footer. -/
structure PartsApart (position : Nat) (header : BlockHeader) (table : BlockTable)
    (content : Content) : Prop where
  aligned : content.size % 512 = 0
  tail : ∃ footer, Footer.parse content.tail = .ok footer
  header_room : position + 1024 + 512 ≤ content.size
  table_room : table.offset + table.size * 4 + 512 ≤ content.size
  region_room : ∀ block start, table.place? block = some start →
    start * 512 + header.regionSectors * 512 + 512 ≤ content.size
  header_table : Apart position 1024 table.offset (table.size * 4)
  header_region : ∀ block start, table.place? block = some start →
    Apart position 1024 (start * 512) (header.regionSectors * 512)
  table_region : ∀ block start, table.place? block = some start →
    Apart table.offset (table.size * 4) (start * 512) (header.regionSectors * 512)
  regions_apart : ∀ block other start start', block ≠ other →
    table.place? block = some start → table.place? other = some start' →
    Apart (start * 512) (header.regionSectors * 512) (start' * 512) (header.regionSectors * 512)

/-- A block that is not stored, with a sector that is written. -/
def Lacks (header : BlockHeader) (table : BlockTable) (written : Nat → Prop) (block : Nat) : Prop :=
  table.place? block = none ∧ ∃ sector, written sector ∧ sector / header.sectorsPerBlock = block

/-- What the write of some sectors touches of a storage with this table: the places of the sectors
and the bitmaps of their blocks, where these are stored, and the entries of the blocks that are
not. -/
inductive Touched (header : BlockHeader) (table : BlockTable) (written : Nat → Prop) (p : Nat) :
    Prop where
  | data {sector start : Nat} (asked : written sector)
      (place : table.place? (sector / header.sectorsPerBlock) = some start)
      (inside : (start + header.bitmapSectors + sector % header.sectorsPerBlock) * 512 ≤ p)
      (inside' : p < (start + header.bitmapSectors + sector % header.sectorsPerBlock) * 512 + 512)
  | bitmap {sector start : Nat} (asked : written sector)
      (place : table.place? (sector / header.sectorsPerBlock) = some start)
      (inside : start * 512 ≤ p) (inside' : p < start * 512 + header.bitmapSectors * 512)
  | entry {sector : Nat} (asked : written sector)
      (vacant : table.place? (sector / header.sectorsPerBlock) = none)
      (inside : table.offset + sector / header.sectorsPerBlock * 4 ≤ p)
      (inside' : p < table.offset + sector / header.sectorsPerBlock * 4 + 4)

theorem Touched.mono {header : BlockHeader} {table : BlockTable} {written written' : Nat → Prop}
    {p : Nat} (h : Touched header table written p)
    (more : ∀ sector, written sector → written' sector) : Touched header table written' p := by
  cases h with
  | data asked place inside inside' => exact .data (more _ asked) place inside inside'
  | bitmap asked place inside inside' => exact .bitmap (more _ asked) place inside inside'
  | entry asked vacant inside inside' => exact .entry (more _ asked) vacant inside inside'

/-- What the write of some sectors does to table and storage. Each block that was missing is
appended at the same price, in front of the same last sector. What was there before that sector
stays but for what is touched, and of the bitmaps the bits of the sectors that are written. -/
structure Footprint (header : BlockHeader) (written : Nat → Prop) (table : BlockTable)
    (content : Content) (table' : BlockTable) (content' : Content) : Prop where
  offset_eq : table'.offset = table.offset
  size_eq : table'.size = table.size
  kept : ∀ block start, table.place? block = some start → table'.place? block = some start
  vacant_iff : ∀ block, table'.place? block = none ↔
    table.place? block = none ∧ ¬ Lacks header table written block
  behind : ∀ block start, table.place? block = none → table'.place? block = some start →
    content.size ≤ start * 512 + 512
  growth : ∃ missing : Finset Nat, (∀ block, block ∈ missing ↔ Lacks header table written block) ∧
    content'.size = content.size + missing.card * header.allocationBytes
  tail_eq : content'.tail = content.tail
  frame : ∀ p, p + 512 < content.size → ¬ Touched header table written p →
    content'.byte p = content.byte p
  bits : ∀ block start i, table.place? block = some start → i / 8 < header.bitmapSectors * 512 →
    (content'.bit (start * 512) i = true ↔ content.bit (start * 512) i = true ∨
      ∃ sector, written sector ∧ sector / header.sectorsPerBlock = block ∧
        sector % header.sectorsPerBlock = i)

theorem Lacks.of_none {header : BlockHeader} {table : BlockTable} {written : Nat → Prop}
    {block : Nat} {p : Prop} (h : Lacks header table written block)
    (none : ∀ sector, ¬ written sector) : p := by
  obtain ⟨-, sector, asked, -⟩ := h
  exact absurd asked (none sector)

namespace Footprint

variable {header : BlockHeader} {written written' : Nat → Prop} {table table' table'' : BlockTable}
variable {content content' content'' : Content}

theorem refl (table : BlockTable) (content : Content) (none : ∀ sector, ¬ written sector) :
    Footprint header written table content table content where
  offset_eq := rfl
  size_eq := rfl
  kept _ _ place := place
  vacant_iff _ := ⟨fun vacant => ⟨vacant, fun lacks => lacks.of_none none⟩, And.left⟩
  behind _ _ vacant place := by cases vacant.symm.trans place
  growth := ⟨∅, fun block => iff_of_false (Finset.notMem_empty block) fun lacks =>
    lacks.of_none none, by rw [Finset.card_empty, Nat.zero_mul, Nat.add_zero]⟩
  tail_eq := rfl
  frame _ _ _ := rfl
  bits _ _ _ _ _ := ⟨.inl, fun h => h.resolve_right fun ⟨sector, asked, _⟩ => none sector asked⟩

theorem size_le (h : Footprint header written table content table' content') :
    content.size ≤ content'.size := by
  obtain ⟨missing, -, hsize⟩ := h.growth
  exact hsize ▸ Nat.le_add_right ..

/-- A block that is stored now was stored before, or is behind what was there before. -/
theorem place_or_behind (h : Footprint header written table content table' content')
    {block start : Nat} (place : table'.place? block = some start) :
    table.place? block = some start ∨ content.size ≤ start * 512 + 512 := by
  cases before : table.place? block with
  | none => exact .inr (h.behind block start before place)
  | some start' => exact .inl ((h.kept block start' before).symm.trans place)

/-- What is touched afterwards is touched before, up to the last sector. -/
theorem touched (h : Footprint header written table content table' content') {p : Nat}
    (hp : p + 512 < content.size) (touched : Touched header table' written' p) :
    Touched header table written' p := by
  cases touched with
  | data asked place inside inside' =>
    obtain before | behind := h.place_or_behind place
    · exact .data asked before inside inside'
    · omega
  | bitmap asked place inside inside' =>
    obtain before | behind := h.place_or_behind place
    · exact .bitmap asked before inside inside'
    · omega
  | entry asked vacant inside inside' =>
    rw [h.offset_eq] at inside inside'
    exact .entry asked ((h.vacant_iff _).mp vacant).1 inside inside'

theorem trans {all : Nat → Prop} (h : Footprint header written table content table' content')
    (h' : Footprint header written' table' content' table'' content'')
    (either : ∀ sector, all sector ↔ written sector ∨ written' sector) :
    Footprint header all table content table'' content'' where
  offset_eq := h'.offset_eq.trans h.offset_eq
  size_eq := h'.size_eq.trans h.size_eq
  kept block start place := h'.kept block start (h.kept block start place)
  vacant_iff block := by
    rw [h'.vacant_iff, Lacks, h.vacant_iff]
    simp only [Lacks, either]
    grind
  behind block start vacant place := by
    obtain before | behind := h'.place_or_behind place
    · exact h.behind block start vacant before
    · exact Nat.le_trans h.size_le behind
  growth := by
    obtain ⟨missing, hmissing, hsize⟩ := h.growth
    obtain ⟨missing', hmissing', hsize'⟩ := h'.growth
    -- What was missing first is not missing any more.
    have hdisjoint : Disjoint missing missing' := by
      refine Finset.disjoint_left.mpr fun block hblock hblock' => ?_
      have hvacant := ((hmissing' block).mp hblock').1
      exact ((h.vacant_iff block).mp hvacant).2 ((hmissing block).mp hblock)
    refine ⟨missing ∪ missing', fun block => ?_, ?_⟩
    · rw [Finset.mem_union, hmissing, hmissing', Lacks, Lacks, Lacks, h.vacant_iff]
      simp only [Lacks, either]
      grind
    · rw [Finset.card_union_of_disjoint hdisjoint, Nat.add_mul, hsize', hsize, Nat.add_assoc]
  tail_eq := h'.tail_eq.trans h.tail_eq
  frame p hp untouched := by
    have hp' : p + 512 < content'.size := Nat.lt_of_lt_of_le hp h.size_le
    have first : ¬ Touched header table written p := fun touched => untouched (touched.mono
      fun sector asked => (either sector).mpr (.inl asked))
    have second : ¬ Touched header table' written' p := fun touched =>
      untouched ((h.touched hp touched).mono fun sector asked => (either sector).mpr (.inr asked))
    exact (h'.frame p hp' second).trans (h.frame p hp first)
  bits block start i place hi := by
    rw [h'.bits block start i (h.kept block start place) hi, h.bits block start i place hi]
    simp only [either]
    grind

end Footprint

namespace PartsApart

variable {header : BlockHeader} {table : BlockTable} {content content' current : Content}
variable {position block start n : Nat}

theorem size_ge (h : PartsApart position header table content) : 512 ≤ content.size :=
  Nat.le_trans (Nat.le_add_left 512 _) h.header_room

theorem congr (h : PartsApart position header table content) (size : content'.size = content.size)
    (tail : content'.tail = content.tail) : PartsApart position header table content' := by
  obtain ⟨aligned, hparse, hheader, htable, hregion, apart₁, apart₂, apart₃, apart₄⟩ := h
  rw [← size] at aligned hheader htable
  rw [← tail] at hparse
  simp only [← size] at hregion
  exact ⟨aligned, hparse, hheader, htable, hregion, apart₁, apart₂, apart₃, apart₄⟩

theorem endsLikeFooter (h : PartsApart position header table content) :
    content.EndsLikeFooter := by
  obtain ⟨footer, htail⟩ := h.tail
  exact ⟨h.size_ge, Footer.hasCookie_of_parse htail⟩

theorem start_eq (h : PartsApart position header table content)
    (extended : Extended header content start current) : start * 512 + 512 = content.size := by
  have hsize := h.size_ge
  have haligned := h.aligned
  have hfront := extended.front_le
  have hfront' := extended.start_le
  rw [Content.front, if_pos h.endsLikeFooter] at hfront hfront'
  omega

theorem region_le (h : PartsApart position header table content)
    (extended : Extended header content start current) {start' : Nat}
    (place : table.place? block = some start') :
    start' * 512 + header.regionSectors * 512 ≤ start * 512 :=
  Nat.le_of_add_le_add_right
    ((h.region_room block start' place).trans_eq (h.start_eq extended).symm)

theorem tail_extended (h : PartsApart position header table content)
    (extended : Extended header content start current) : current.tail = content.tail := by
  rw [extended.tail_eq, Content.trailer, if_pos h.endsLikeFooter]

theorem size_withEntry (h : PartsApart position header table content)
    (hle : content.size ≤ current.size) (hblock : block < table.size) :
    (current.withEntry table block start).size = current.size ∧
      (current.withEntry table block start).tail = current.tail := by
  have hroom := h.table_room
  have hsize : (current.withEntry table block start).size = current.size := by
    rw [Content.withEntry, Content.size_write]
    omega
  refine ⟨hsize, ?_⟩
  rw [Content.tail, hsize]
  exact (current.agreeOn_withEntry hblock (.inl (by omega))).read_eq

section Allocated

variable (h : PartsApart position header table content)
variable (extended : Extended header content start current)
variable (hblock : block < table.size) (vacant : table.place? block = none)
variable (recordable : start < 2 ^ 32 - 1)

include h extended

/-- The storage grows by the price of a block. -/
theorem size_allocated (hblock : block < table.size) :
    (current.withEntry table block start).size = content.size + header.allocationBytes ∧
      (current.withEntry table block start).tail = content.tail := by
  have hstart := h.start_eq extended
  have hsize : current.size = content.size + header.allocationBytes := by
    rw [extended.size_eq]
    lia
  have hle : content.size ≤ current.size := hsize ▸ Nat.le_add_right ..
  obtain ⟨hsize', htail⟩ := h.size_withEntry hle hblock
  exact ⟨hsize'.trans hsize, htail.trans (h.tail_extended extended)⟩

include hblock recordable

theorem allocated : PartsApart position header (table.withEntry block (UInt32.ofNat start))
    (current.withEntry table block start) := by
  have hstart := h.start_eq extended
  obtain ⟨hsize, htail⟩ := h.size_allocated extended hblock
  have hprice := header.regionSectors_le_allocationBytes
  have hheader := h.header_room
  have htable := h.table_room
  refine {
    aligned := by rw [hsize, Nat.add_mod, h.aligned, header.allocationBytes_aligned]
    tail := by rw [htail]; exact h.tail
    header_room := by omega
    table_room := ?_
    region_room := fun other start' place => ?_
    header_table := ?_
    header_region := fun other start' place => ?_
    table_region := fun other start' place => ?_
    regions_apart := fun other other' start₁ start₂ hne place place' => ?_ }
  · rw [BlockTable.withEntry_size, BlockTable.withEntry_offset]
    omega
  · obtain ⟨-, rfl⟩ | ⟨-, before⟩ := BlockTable.of_place?_withEntry hblock recordable place
    · omega
    · rw [hsize]
      exact Nat.le_trans (h.region_room other start' before) (Nat.le_add_right ..)
  · rw [BlockTable.withEntry_size, BlockTable.withEntry_offset]
    exact h.header_table
  · obtain ⟨-, rfl⟩ | ⟨-, before⟩ := BlockTable.of_place?_withEntry hblock recordable place
    · exact .inl (by omega)
    · exact h.header_region other start' before
  · rw [BlockTable.withEntry_size, BlockTable.withEntry_offset]
    obtain ⟨-, rfl⟩ | ⟨-, before⟩ := BlockTable.of_place?_withEntry hblock recordable place
    · exact .inl (by omega)
    · exact h.table_region other start' before
  · obtain ⟨rfl, rfl⟩ | ⟨-, before⟩ := BlockTable.of_place?_withEntry hblock recordable place
    · obtain ⟨rfl, -⟩ | ⟨-, before'⟩ := BlockTable.of_place?_withEntry hblock recordable place'
      · exact absurd rfl hne
      · exact .inr (h.region_le extended before')
    · obtain ⟨-, rfl⟩ | ⟨-, before'⟩ := BlockTable.of_place?_withEntry hblock recordable place'
      · exact .inl (h.region_le extended before)
      · exact h.regions_apart other other' start₁ start₂ hne before before'

include vacant

/-- The block of a sector is appended and recorded before the sector is stored. -/
theorem footprint_allocated {sector : Nat} (hsector : sector / header.sectorsPerBlock = block) :
    Footprint header (· = sector) table content (table.withEntry block (UInt32.ofNat start))
      (current.withEntry table block start) := by
  have hstart := h.start_eq extended
  obtain ⟨hsize, htail⟩ := h.size_allocated extended hblock
  -- What is recorded is the only change in front of the footer.
  have same : ∀ p, p + 512 < content.size →
      (p < table.offset + block * 4 ∨ table.offset + block * 4 + 4 ≤ p) →
      (current.withEntry table block start).byte p = content.byte p := by
    intro p hp hentry
    have hfront := content.size_le_front
    rw [Content.withEntry, Content.byte_write, dif_neg (by omega)]
    exact extended.agree p (Nat.zero_le p) (by omega)
  refine {
    offset_eq := rfl
    size_eq := BlockTable.withEntry_size _
    kept := fun other start' place => ?_
    vacant_iff := fun other => ?_
    behind := fun other start' before place => ?_
    growth := ⟨{block}, fun other => ?_, by rw [hsize, Finset.card_singleton, Nat.one_mul]⟩
    tail_eq := htail
    frame := fun p hp untouched => same p hp ?_
    bits := fun other start' i place hi => ?_ }
  · rw [BlockTable.place?_withEntry_of_ne]
    · exact place
    · rintro rfl
      cases vacant.symm.trans place
  · by_cases hother : other = block
    · subst hother
      rw [BlockTable.place?_withEntry_ofNat hblock recordable]
      exact iff_of_false (Option.some_ne_none start) fun none =>
        none.2 ⟨vacant, sector, rfl, hsector⟩
    · rw [BlockTable.place?_withEntry_of_ne hother]
      refine ⟨fun before => ⟨before, ?_⟩, And.left⟩
      rintro ⟨-, _, rfl, hblock'⟩
      exact hother (hblock'.symm.trans hsector)
  · obtain ⟨-, rfl⟩ | ⟨-, before'⟩ := BlockTable.of_place?_withEntry hblock recordable place
    · omega
    · cases before.symm.trans before'
  · rw [Finset.mem_singleton]
    constructor
    · rintro rfl
      exact ⟨vacant, sector, rfl, hsector⟩
    · rintro ⟨-, _, rfl, hblock'⟩
      exact hblock'.symm.trans hsector
  · by_contra hentry
    subst hsector
    exact untouched (.entry rfl vacant (by omega) (by omega))
  · have hother : ¬ ∃ sector', sector' = sector ∧ sector' / header.sectorsPerBlock = other ∧
        sector' % header.sectorsPerBlock = i := by
      rintro ⟨_, rfl, rfl, -⟩
      rw [hsector] at place
      cases vacant.symm.trans place
    have hroom := h.region_room other start' place
    have hapart := h.table_region other start' place
    rw [BlockHeader.regionSectors_eq] at hroom hapart
    have hbit : (current.withEntry table block start).bit (start' * 512) i =
        content.bit (start' * 512) i := by
      rw [Content.bit, Content.bit, same _ (by omega)]
      rcases hapart with hapart | hapart
      · exact .inr (by omega)
      · exact .inl (by omega)
    rw [hbit]
    exact ⟨.inl, fun either => either.resolve_right hother⟩

end Allocated

/-- A sector of a block that is stored is written, and its bit is set. -/
theorem stored (h : PartsApart position header table content) {sector : Nat}
    (hsectors : 0 < header.sectorsPerBlock)
    (place : table.place? (sector / header.sectorsPerBlock) = some start)
    (size : content'.size = content.size)
    (same : ∀ p, (p < start * 512 ∨ start * 512 + header.bitmapSectors * 512 ≤ p) →
      (p < (start + header.bitmapSectors + sector % header.sectorsPerBlock) * 512 ∨
        (start + header.bitmapSectors + sector % header.sectorsPerBlock) * 512 + 512 ≤ p) →
      content'.byte p = content.byte p)
    (bits : ∀ i, i / 8 < header.bitmapSectors * 512 →
      (content'.bit (start * 512) i = true ↔
        content.bit (start * 512) i = true ∨ sector % header.sectorsPerBlock = i)) :
    PartsApart position header table content' ∧
      Footprint header (· = sector) table content table content' := by
  have hi := Nat.mod_lt sector hsectors
  -- Nothing changes but what is in the region of the block.
  have outside : ∀ p, (p < start * 512 ∨ start * 512 + header.regionSectors * 512 ≤ p) →
      content'.byte p = content.byte p := by
    intro p hp
    rw [BlockHeader.regionSectors_eq] at hp
    exact same p (by lia) (by lia)
  have htail : content'.tail = content.tail := by
    have hroom := h.region_room _ start place
    have hagree : content.AgreeOn content' (content.size - 512) 512 :=
      fun p hp _ => outside p (.inr (by lia))
    rw [Content.tail, Content.tail, size]
    exact hagree.read_eq
  have stored_block : ∀ block, ¬ Lacks header table (· = sector) block := by
    rintro _ ⟨vacant, _, rfl, rfl⟩
    cases vacant.symm.trans place
  refine ⟨h.congr size htail, {
    offset_eq := rfl
    size_eq := rfl
    kept := fun _ _ before => before
    vacant_iff := fun block => ⟨fun vacant => ⟨vacant, stored_block block⟩, And.left⟩
    behind := fun block start' vacant before => by cases vacant.symm.trans before
    growth := ⟨∅, fun block => iff_of_false (Finset.notMem_empty block) (stored_block block),
      by rw [size, Finset.card_empty, Nat.zero_mul, Nat.add_zero]⟩
    tail_eq := htail
    frame := fun p _ untouched => same p ?_ ?_
    bits := fun block start' i place' hbit => ?_ }⟩
  · by_contra inside
    exact untouched (.bitmap rfl place (by omega) (by omega))
  · by_contra inside
    exact untouched (.data rfl place (by omega) (by omega))
  · by_cases hblock : block = sector / header.sectorsPerBlock
    · subst hblock
      obtain rfl : start = start' := Option.some.inj (place.symm.trans place')
      rw [bits i hbit]
      simp
    · have hother : ¬ ∃ sector', sector' = sector ∧ sector' / header.sectorsPerBlock = block ∧
          sector' % header.sectorsPerBlock = i := by
        rintro ⟨_, rfl, rfl, -⟩
        exact hblock rfl
      have hapart := h.regions_apart _ _ start' start hblock place' place
      have hbit' : content'.bit (start' * 512) i = content.bit (start' * 512) i := by
        rw [Content.bit, Content.bit, outside _ ?_]
        rw [BlockHeader.regionSectors_eq] at hapart ⊢
        rcases hapart with hapart | hapart
        · exact .inl (by lia)
        · exact .inr (by lia)
      rw [hbit']
      exact ⟨.inl, fun either => either.resolve_right hother⟩

end PartsApart

end VirtualDisk
