import VirtualDisk.Proofs.Blocks.Mirror
import VirtualDisk.Proofs.Storage.Parts

/-!
# Transfers in two parts

A transfer of blocks goes on sector by sector, so it can be cut anywhere. For a read that is all.
A write stores the cached bitmap once it is done, and so does its first part when it is made on its
own. The second part then begins with nothing to be stored, where the whole write goes on with
changes in its cache: both have the same copy without a cache (`Mirror`), and so they come to the
same end.
-/

namespace VirtualDisk

open Storage

variable {ι : Type}

namespace BlockMap

theorem readSectors_add (disk : ι) (first second sector slot : Nat) (buffer : ByteArray) :
    readSectors disk (first + second) sector slot buffer = (do
      let buffer ← readSectors disk first sector slot buffer
      readSectors disk second (sector + first) (slot + first) buffer) := by
  induction first generalizing sector slot buffer with
  | zero => simp only [readSectors, Nat.zero_add, Nat.add_zero, pure_bind]
  | succ first ih =>
    rw [Nat.succ_add]
    simp only [readSectors, ih, bind_assoc, Nat.add_assoc, Nat.add_comm 1]

theorem size_of_readSectors {ω : Type} {server : Server ι ω} {world world' : ω} {disk : ι}
    {count sector slot : Nat} {map map' : BlockMap} {buffer buffer' : ByteArray}
    (run : (readSectors disk count sector slot buffer).runOn server map world =
      ((.ok buffer', map'), world')) : buffer'.size = buffer.size := by
  induction count generalizing sector slot map world buffer with
  | zero =>
    cases run
    rfl
  | succ count ih =>
    obtain ⟨content, _, _, -, hrest⟩ := Engine.of_runOn_bind run
    obtain ⟨filled, _, _, hfill, hrest⟩ := Engine.of_runOn_bind hrest
    rw [Engine.runOn_liftExcept] at hfill
    have hsize := (Buffer.filled_of_fillSector (Prod.mk.inj (Prod.mk.inj hfill).1).1).2.size_eq
    exact (ih hrest).trans hsize

theorem readSectors_append_left (disk : ι) (b : ByteArray) {count sector slot : Nat}
    {a : ByteArray} (hroom : (slot + count) * 512 ≤ a.size) :
    readSectors disk count sector slot (a ++ b) = (do
      let a ← readSectors disk count sector slot a
      return a ++ b) := by
  induction count generalizing sector slot a with
  | zero => exact (pure_bind ..).symm
  | succ count ih =>
    simp only [readSectors, bind_assoc]
    apply bind_congr
    intro content
    obtain ⟨a', hsize, hfill, hfill'⟩ :=
      Buffer.exists_fillSector_append_left (k := slot) b content (a := a) (by lia)
    rw [hfill, hfill']
    exact ih (by lia)

theorem readSectors_append_right (disk : ι) {a b : ByteArray} {front count : Nat}
    (hsize : a.size = front * 512) (sector slot : Nat) (hroom : (slot + count) * 512 ≤ b.size) :
    readSectors disk count sector (front + slot) (a ++ b) = (do
      let b ← readSectors disk count sector slot b
      return a ++ b) := by
  induction count generalizing sector slot b with
  | zero => exact (pure_bind ..).symm
  | succ count ih =>
    simp only [readSectors, bind_assoc]
    apply bind_congr
    intro content
    obtain ⟨b', hsize', hfill, hfill'⟩ :=
      Buffer.exists_fillSector_append_right (k := slot) content hsize (b := b) (by lia)
    rw [hfill, hfill', Nat.add_assoc]
    exact ih _ _ (by lia)

theorem writeSectors_add (disk : ι) (buffer : ByteArray) (first second sector slot : Nat) :
    writeSectors disk buffer (first + second) sector slot = (do
      writeSectors disk buffer first sector slot
      writeSectors disk buffer second (sector + first) (slot + first)) := by
  induction first generalizing sector slot with
  | zero => simp only [writeSectors, Nat.zero_add, Nat.add_zero, pure_bind]
  | succ first ih =>
    rw [Nat.succ_add]
    simp only [writeSectors, ih, bind_assoc, Nat.add_assoc, Nat.add_comm 1]

/-- What matters of a buffer are the slots that are written. -/
theorem writeSectors_congr (disk : ι) {buffer buffer' : ByteArray} {count slot slot' : Nat}
    (same : ∀ k, k < count → Buffer.sector buffer' (slot' + k) = Buffer.sector buffer (slot + k))
    (sector : Nat) :
    writeSectors disk buffer' count sector slot' = writeSectors disk buffer count sector slot := by
  induction count generalizing sector slot slot' with
  | zero => rfl
  | succ count ih =>
    have hfirst : Buffer.sector buffer' slot' = Buffer.sector buffer slot :=
      same 0 (Nat.succ_pos count)
    simp only [writeSectors, hfirst]
    rw [ih fun k hk => ?_]
    have := same (k + 1) (by omega)
    rwa [Nat.add_comm k 1, ← Nat.add_assoc, ← Nat.add_assoc] at this

variable {footer : Footer} {header : BlockHeader} {old : Nat → Option Sector}
variable {map map' other : BlockMap} {content content' content₂ : Content}

theorem underway_flushed {allowed : Nat → Sector → Prop}
    (under : Underway footer header allowed old map content) :
    Underway footer header allowed old map.cleaned (map.flushed content) ∧
      (map.flushed content).size = content.size := by
  have T := terms_underway () footer header allowed old
  have hflushed := (flush_ensures T under).runOn_sole (grows_flush ()) fun _ _ => trivial
  rw [Setting.disk_free, runOn_flush (Mirror.storable under)] at hflushed
  obtain ⟨-, hsize, -, hadvance⟩ := hflushed
  exact ⟨under.advance hadvance.of_quiet, hsize⟩

theorem writeSector_ensures_underway
    (under : Underway footer header (fun _ _ => True) old map content) {sector : Nat}
    (hsector : sector < map.capacity)
    (room : map.table.place? (sector / map.header.sectorsPerBlock) = none →
      content.size ≤ sizeLimit) (disk : ι) (bytes : Sector) :
    (writeSector disk sector bytes).Ensures (.free disk False fun _ => True)
      (fun _ map' content' => Underway footer header (fun _ _ => True) old map' content')
      (fun _ _ _ => False) map content := by
  have T := terms_underway disk footer header (fun _ _ => True) old
  refine (writeSector_ensures T under hsector trivial fun _ vacant =>
    .inr ⟨under.isSealed, room vacant⟩).mono ?_ fun _ _ _ _ hfailed => hfailed.1
  rintro _ map' content' _ ⟨-, hadvance⟩
  exact under.advance (hadvance.mono fun _ _ _ => trivial)

theorem stranded_of_full (under : Underway footer header (fun _ _ => True) old map content)
    {sector : Nat} (hsector : sector < map.capacity)
    (vacant : map.table.place? (sector / map.header.sectorsPerBlock) = none)
    (full : sizeLimit < content.size) {disk : ι} {bytes : Sector}
    (run : (writeSector disk sector bytes).runOn sole map content = ((.ok (), map'), content')) :
    ∃ base, Stranded footer header (fun _ _ => True) old base map' content' := by
  have T := terms_underway disk footer header (fun _ _ => True) old
  have hpost := (writeSector_ensures_full T id under hsector vacant full).runOn_sole
    (grows_writeSector disk sector bytes) fun _ _ => trivial
  rw [Setting.disk_free, run] at hpost
  exact hpost

/-- Two images on their way to the same end: they differ in what is not stored yet, and have the
same copy without a cache. -/
structure SameMirror (footer : Footer) (header : BlockHeader) (old : Nat → Option Sector)
    (map : BlockMap) (content : Content) (other : BlockMap) (content₂ : Content) : Prop where
  under : Underway footer header (fun _ _ => True) old map content
  under' : Underway footer header (fun _ _ => True) old other content₂
  cleaned_eq : other.cleaned = map.cleaned
  mirrors : ∃ shadow, map.Mirror content shadow ∧ other.Mirror content₂ shadow

theorem sameMirror_flushed (under : Underway footer header (fun _ _ => True) old map content)
    (exact : map.cleaned.Exact (map.flushed content)) :
    SameMirror footer header old map content map.cleaned (map.flushed content) :=
  ⟨under, (underway_flushed under).1, rfl, map.flushed content, ⟨.refl _, exact⟩, exact.mirror⟩

namespace SameMirror

theorem header_eq (h : SameMirror footer header old map content other content₂) :
    other.header = map.header :=
  h.under'.header_eq.trans h.under.header_eq.symm

theorem table_eq (h : SameMirror footer header old map content other content₂) :
    other.table = map.table := by
  have hcleaned : other.cleaned.table = map.cleaned.table := by rw [h.cleaned_eq]
  exact hcleaned

theorem size_eq (h : SameMirror footer header old map content other content₂) :
    content₂.size = content.size := by
  obtain ⟨shadow, mirror, mirror'⟩ := h.mirrors
  have hsize := (underway_flushed h.under).2
  have hsize' := (underway_flushed h.under').2
  rw [← hsize', ← mirror'.bytes.size_eq, mirror.bytes.size_eq, hsize]

theorem flush (h : SameMirror footer header old map content other content₂) {disk : ι}
    (run : (BlockMap.flush disk).runOn sole map content = ((.ok (), map'), content')) :
    ∃ content₂', (BlockMap.flush disk).runOn sole other content₂ = ((.ok (), map'), content₂') ∧
      content'.SameBytes content₂' := by
  obtain ⟨shadow, mirror, mirror'⟩ := h.mirrors
  rw [runOn_flush (Mirror.storable h.under)] at run
  cases run
  refine ⟨other.flushed content₂, ?_, mirror.bytes.trans mirror'.bytes.symm⟩
  rw [runOn_flush (Mirror.storable h.under'), h.cleaned_eq]

theorem writeSector (h : SameMirror footer header old map content other content₂) {sector : Nat}
    (hsector : sector < map.capacity) {disk : ι} {bytes : Sector}
    (room : map.table.place? (sector / map.header.sectorsPerBlock) = none →
      content.size ≤ sizeLimit)
    (run : (BlockMap.writeSector disk sector bytes).runOn sole map content =
      ((.ok (), map'), content')) :
    ∃ other' content₂', (BlockMap.writeSector disk sector bytes).runOn sole other content₂ =
        ((.ok (), other'), content₂') ∧
      SameMirror footer header old map' content' other' content₂' := by
  obtain ⟨shadow, mirror, mirror'⟩ := h.mirrors
  have hsector' : sector < other.capacity := by
    rw [h.under.capacity_eq h.under']
    exact hsector
  have room' : other.table.place? (sector / other.header.sectorsPerBlock) = none →
      content₂.size ≤ sizeLimit := by
    rw [h.header_eq, h.table_eq, h.size_eq]
    exact room
  have grows := grows_writeSector disk sector bytes
  have under := (writeSector_ensures_underway h.under hsector room disk bytes).runOn_sole grows
    fun _ _ => trivial
  rw [run] at under
  obtain ⟨_, other', content₂', run', under'⟩ :=
    (writeSector_ensures_underway h.under' hsector' room' disk bytes).runOn_sole_ok grows
      (fun _ _ => trivial) fun _ _ _ hfailed => hfailed
  obtain ⟨shadow', hrun, hmirror⟩ :=
    mirror.writeSector h.under hsector run under.consistent.coherent
  obtain ⟨shadow'', hrun', hmirror'⟩ :=
    mirror'.writeSector h.under' hsector' run' under'.consistent.coherent
  -- On the copy both writes are the same one.
  rw [h.cleaned_eq, hrun] at hrun'
  obtain ⟨hcleaned, rfl⟩ : map'.cleaned = other'.cleaned ∧ shadow' = shadow'' := by
    obtain ⟨hend, hshadow⟩ := Prod.mk.inj hrun'
    exact ⟨(Prod.mk.inj hend).2, hshadow⟩
  exact ⟨other', content₂', run', under, under', hcleaned.symm, shadow', hmirror, hmirror'⟩

/-- Where the one writes all its sectors and stores the bitmap so does the other, and they are the
same then. -/
theorem writeSectors (h : SameMirror footer header old map content other content₂) {disk : ι}
    {buffer : ByteArray} {count sector slot : Nat}
    (hsector : ∀ k, k < count → sector + k < map.capacity)
    (hbuffer : (slot + count) * 512 ≤ buffer.size)
    (run : (BlockMap.writeSectors disk buffer count sector slot >>= fun _ =>
      BlockMap.flush disk).runOn sole map content = ((.ok (), map'), content')) :
    ∃ content₂', (BlockMap.writeSectors disk buffer count sector slot >>= fun _ =>
        BlockMap.flush disk).runOn sole other content₂ = ((.ok (), map'), content₂') ∧
      content'.SameBytes content₂' := by
  induction count generalizing map content other content₂ sector slot with
  | zero => exact h.flush run
  | succ count ih =>
    have hroom : slot * 512 + 512 ≤ buffer.size := by omega
    have hfirst : sector < map.capacity := hsector 0 (Nat.succ_pos count)
    have hnext : ∀ k, k < count → sector + 1 + k < map.capacity := by
      intro k hk
      have := hsector (k + 1) (by omega)
      omega
    rw [BlockMap.writeSectors, Buffer.sector_eq hroom, bind_assoc,
      Engine.runOn_bind_ok (Engine.runOn_liftExcept ..), bind_assoc] at run ⊢
    obtain ⟨_, map₁, content₁, hwrite, hrest⟩ := Engine.of_runOn_bind run
    by_cases full : map.table.place? (sector / map.header.sectorsPerBlock) = none ∧
        sizeLimit < content.size
    · obtain ⟨base, stranded⟩ := stranded_of_full h.under hfirst full.1 full.2 hwrite
      rw [← h.under.capacity_eq stranded.underway] at hnext
      exact absurd hrest (runOn_ne_of_stranded stranded (fun hcount => hnext 0 hcount) (by lia))
    · obtain ⟨other₁, content₂₁, hwrite', h₁⟩ := h.writeSector hfirst
        (fun vacant => Nat.not_lt.mp fun hlt => full ⟨vacant, hlt⟩) hwrite
      rw [← h.under.capacity_eq h₁.under] at hnext
      rw [Engine.runOn_bind_ok hwrite']
      exact ih h₁ hnext (by lia) hrest

end SameMirror

/-- A write can be made in two parts. The second part begins with an image that has nothing to be
stored, and ends with the image that the whole write leaves. -/
theorem runOn_writeSectors_add (exact : map.Exact content)
    (under : Underway footer header (fun _ _ => True) old map content) {disk : ι}
    {buffer : ByteArray} {first second sector slot : Nat}
    (hsector : ∀ k, k < first + second → sector + k < map.capacity)
    (hbuffer : (slot + (first + second)) * 512 ≤ buffer.size)
    (run : (writeSectors disk buffer (first + second) sector slot >>= fun _ =>
      flush disk).runOn sole map content = ((.ok (), map'), content')) :
    ∃ map₁ content₁ content₂,
      (writeSectors disk buffer first sector slot >>= fun _ => flush disk).runOn sole map content =
        ((.ok (), map₁), content₁) ∧
      (writeSectors disk buffer second (sector + first) (slot + first) >>= fun _ =>
        flush disk).runOn sole map₁ content₁ = ((.ok (), map'), content₂) ∧
      content'.SameBytes content₂ := by
  have T := terms_underway disk footer header (fun _ _ => True) old
  rw [writeSectors_add, bind_assoc] at run
  obtain ⟨_, mid, midContent, hfirst, hrest⟩ := Engine.of_runOn_bind run
  have hends := (writeSectors_ensures_underway T id buffer first sector slot under
    (fun k hk => hsector k (by omega)) (by lia) fun _ _ => trivial).runOn_sole
    (grows_writeSectors disk _ _ _ _) fun _ _ => trivial
  rw [Setting.disk_free, hfirst] at hends
  obtain ⟨-, mid_under⟩ | ⟨base, stranded⟩ := hends
  · -- A flush at this point is what the write on its own does.
    have hflush := runOn_flush (Mirror.storable mid_under) disk midContent
    have hpart := (Engine.runOn_bind_ok hfirst fun _ => flush disk).trans hflush
    obtain ⟨-, mid_exact, -⟩ :=
      exact.mirror.writeSectors under (fun k hk => hsector k (by omega)) (by lia) hpart
    have hnext : ∀ k, k < second → sector + first + k < mid.capacity := by
      rw [under.capacity_eq mid_under]
      intro k hk
      have := hsector (first + k) (by omega)
      omega
    obtain ⟨content₂, hsecond, same⟩ :=
      (sameMirror_flushed mid_under mid_exact).writeSectors hnext (by lia) hrest
    exact ⟨_, _, content₂, hpart, hsecond, same⟩
  · refine absurd hrest (runOn_ne_of_stranded stranded (fun hcount => ?_) (by lia))
    rw [under.capacity_eq stranded.underway]
    exact Nat.lt_of_le_of_lt (Nat.le_add_right _ 0) (hsector first (by omega))

end BlockMap

end VirtualDisk
