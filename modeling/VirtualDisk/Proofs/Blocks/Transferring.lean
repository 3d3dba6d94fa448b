import VirtualDisk.Proofs.Blocks.Allocating
import VirtualDisk.Proofs.Blocks.Selecting

/-!
# Reading and writing sectors

A read returns what the image holds, and is quiet. A write gives its sectors their bytes, one after
the other. If it fails, it has done so for a first part of them, and the image is consistent.
-/

namespace VirtualDisk

open Storage

variable {ι : Type} {S : Setting ι} {footer : Footer} {allowed : Nat → Sector → Prop}
variable {I : BlockMap → Content → Prop} {map : BlockMap} {content : Content}
variable {sector start : Nat}

namespace BlockMap

theorem locate_eq (h : Fits footer map.header map.table) (hsector : sector < map.capacity) :
    map.locate sector =
      .ok (sector / map.header.sectorsPerBlock, sector % map.header.sectorsPerBlock) :=
  locate_of_lt h.sectors_pos
    (Nat.lt_of_le_of_lt h.size_le map.header.maxTableEntries.toNat_lt) hsector

theorem shown_eq {map' : BlockMap} {content' : Content}
    (h : Quiet footer map content map' content') : map'.shown content' = map.shown content := by
  funext sector
  rw [shown, h.held_eq, shown]

/-- The state that a read of the image itself leaves. -/
structure ReadOnly (footer : Footer) (map : BlockMap) (content : Content) (map' : BlockMap)
    (content' : Content) : Prop where
  clean : map.bitmap.dirty = false → map'.bitmap.dirty = false
  unchanged : map.bitmap.dirty = false → content' = content
  advance : Advance footer (fun _ _ => False) map content map' content'

theorem ReadOnly.trans {map' map'' : BlockMap} {content' content'' : Content}
    (h : ReadOnly footer map content map' content')
    (h' : ReadOnly footer map' content' map'' content'') :
    ReadOnly footer map content map'' content'' where
  clean := h'.clean ∘ h.clean
  unchanged hclean := (h'.unchanged (h.clean hclean)).trans (h.unchanged hclean)
  advance := h.advance.trans h'.advance

theorem Selected.readOnly {block : Nat} {map' : BlockMap} {content' : Content}
    (h : Selected footer block map content map' content') :
    ReadOnly footer map content map' content' :=
  ⟨h.clean, h.unchanged, h.advance⟩

theorem holds_ensures (T : Terms S footer allowed I) (h : I map content)
    (hsector : sector < map.capacity) :
    (holds S.disk sector).Ensures S
      (fun held map' content' => held = (map.held content sector).isSome ∧
        ReadOnly footer map content map' content')
      (fun _ map' content' => S.mayFail ∧ Quiet footer map content map' content') map content := by
  have hfits := (T.consistent _ _ h).onDisk.fits
  simp only [holds, Engine.ensures_bind, Engine.ensures_get, locate_eq hfits hsector,
    Engine.ensures_liftExcept_ok, Engine.ensures_pure]
  intro _ _
  refine (select_ensures T h (div_lt_of_lt_capacity hfits.sectors_pos hsector)).mono_success ?_
  rintro _ map' content' _ selected _ _
  refine ⟨?_, selected.readOnly⟩
  rw [← selected.advance.held_eq sector, held, selected.advance.header,
    heldBit_of_cached selected.block, present]
  cases map'.bitmap.test (sector % map.header.sectorsPerBlock) with
  | true => rfl
  | false => rfl

/-- A sector that is held is read from its place, any other is zeros. -/
theorem readSector_ensures (T : Terms S footer allowed I) (h : I map content)
    (hsector : sector < map.capacity) :
    (readSector S.disk sector).Ensures S
      (fun bytes map' content' => bytes = map.shown content sector ∧
        ReadOnly footer map content map' content')
      (fun _ map' content' => S.mayFail ∧ Quiet footer map content map' content') map content := by
  have hfits := (T.consistent _ _ h).onDisk.fits
  have hi := Nat.mod_lt sector hfits.sectors_pos
  have hblock := div_lt_of_lt_capacity hfits.sectors_pos hsector
  simp only [readSector_eq, Engine.ensures_bind, Engine.ensures_get, locate_eq hfits hsector,
    Engine.ensures_liftExcept_ok]
  intro _ _
  refine (select_ensures T h hblock).mono_success ?_
  rintro _ map' content' _ selected
  have hmap' := selected.advance.consistent
  have hheader := selected.advance.header
  have hcached := selected.block
  rw [← selected.table] at hblock
  rw [← hheader] at hi hblock hcached
  rw [shown, ← selected.advance.held_eq sector, held, heldBit_of_cached hcached, ← hheader]
  refine (fetchSector_reads hblock hi fun _ _ => T.read _ _ _).mono ?_ ?_
  · rintro bytes map'' content'' _ ⟨rfl, rfl, ⟨htest, rfl⟩ | ⟨start, htest, place, rfl⟩⟩
    · rw [htest]
      exact ⟨rfl, selected.readOnly⟩
    · rw [htest, data_of_place place]
      exact ⟨rfl, selected.readOnly⟩
  · rintro e map'' content'' _ ⟨rfl, rfl, hm | ⟨htest, hmissing⟩⟩
    · exact ⟨hm, selected.advance.toFollows⟩
    · -- A sector whose bit is set is held, and so its block is stored, and all of it.
      have hheld : map''.heldBit content'' _ _ = true := (heldBit_of_cached hcached _).trans htest
      obtain ⟨start, place⟩ :=
        Option.isSome_iff_exists.mp (hmap'.coherent.isSome_place_of_heldBit hi hheld)
      obtain ⟨-, vacant⟩ | ⟨-, start', place', hshort⟩ := hmissing
      · cases vacant.symm.trans place
      · have hroom := hmap'.onDisk.region_room _ _ place'
        obtain ⟨-, hend⟩ := map''.dataPlace_in_region start' hi (Nat.le_refl 512)
        omega

theorem storeSector_ensures (T : Terms S footer allowed I) (h : I map content)
    (cached : map.bitmap.block = some (sector / map.header.sectorsPerBlock))
    (place : map.table.place? (sector / map.header.sectorsPerBlock) = some start)
    {bytes : Sector} (permitted : allowed sector bytes) :
    (storeSector S.disk start (sector % map.header.sectorsPerBlock) bytes).Ensures S
      (fun _ map' content' => map'.held content' sector = some bytes ∧
        Advance footer (fun other other' => other = sector ∧ other' = bytes) map content map'
          content')
      (fun _ map' content' => S.mayFail ∧ map' = map ∧ content' = content) map content := by
  have hmap := T.consistent _ _ h
  have hi := Nat.mod_lt sector hmap.onDisk.fits.sectors_pos
  refine (storeSector_stores (BlockTable.place?_lt place) hi hmap.coherent.size_bytes
    (T.write _ _ _ _ _ h (.data place permitted))).mono_success ?_
  rintro _ map' content' _ ⟨bitmap, hasSet, rfl, rfl⟩
  exact ⟨held_write_data cached place hasSet bytes, hmap.write_data cached place hasSet bytes⟩

/-- A sector gets its bytes, and no other sector changes. -/
theorem writeSector_ensures (T : Terms S footer allowed I) (h : I map content)
    (hsector : sector < map.capacity) {bytes : Sector} (permitted : allowed sector bytes)
    (room : S.within content →
      map.table.place? (sector / map.header.sectorsPerBlock) = none → HasRoom footer content) :
    (writeSector S.disk sector bytes).Ensures S
      (fun _ map' content' => map'.held content' sector = some bytes ∧
        Advance footer (fun other other' => other = sector ∧ other' = bytes) map content map'
          content')
      (fun _ map' content' => S.mayFail ∧ Quiet footer map content map' content') map content := by
  have hfits := (T.consistent _ _ h).onDisk.fits
  have hblock := div_lt_of_lt_capacity hfits.sectors_pos hsector
  refine .of_within fun hw => ?_
  simp only [writeSector_eq, Engine.ensures_bind, Engine.ensures_get, locate_eq hfits hsector,
    Engine.ensures_liftExcept_ok]
  intro _ _
  refine (select_ensures T h hblock).mono_success ?_
  rintro _ map₁ content₁ _ selected
  have h₁ := T.advance _ _ _ _ h selected.advance.of_quiet
  have hblock₁ : sector / map.header.sectorsPerBlock < map₁.table.size := by
    rw [selected.table]
    exact hblock
  refine (ensureAllocated_ensures T h₁ hblock₁ ?_).mono ?_ ?_
  · rw [selected.table]
    exact fun vacant => (room hw vacant).of_size_eq selected.size_eq fun hsealed =>
      (selected.advance.balance hsealed).1
  · rintro start map₂ content₂ _ ⟨place, hbitmap, hadvance⟩
    have hquiet := selected.advance.trans hadvance
    have h₂ := T.advance _ _ _ _ h hquiet.of_quiet
    have hheader : map₂.header = map.header := hquiet.header
    rw [← hheader] at place ⊢
    refine (storeSector_ensures T h₂ ?_ place permitted).mono ?_ ?_
    · rw [hbitmap, hheader]
      exact selected.block
    · rintro _ map₃ content₃ _ ⟨hheld, hwrote⟩
      exact ⟨hheld, hquiet.of_quiet.trans hwrote⟩
    · rintro _ map₃ content₃ _ ⟨hm, rfl, rfl⟩
      exact ⟨hm, hquiet.toFollows⟩
  · rintro _ map₂ content₂ _ ⟨hm, hquiet⟩
    exact ⟨hm, selected.advance.toFollows.trans hquiet⟩

theorem readSectors_ensures (T : Terms S footer allowed I) (count sector slot : Nat)
    (buffer : ByteArray) {map : BlockMap} {content : Content} (h : I map content)
    (hsector : ∀ k, k < count → sector + k < map.capacity)
    (hbuffer : (slot + count) * 512 ≤ buffer.size) :
    (readSectors S.disk count sector slot buffer).Ensures S
      (fun buffer' map' content' =>
        Buffer.Shows (map.shown content) sector slot count buffer buffer' ∧
        ReadOnly footer map content map' content')
      (fun _ map' content' => S.mayFail ∧ Quiet footer map content map' content') map content := by
  induction count generalizing sector slot buffer map content with
  | zero =>
    rw [readSectors, Engine.ensures_pure]
    exact fun _ => ⟨.nothing _ _ _ _, id, fun _ => rfl, .refl (T.consistent _ _ h)⟩
  | succ count ih =>
    simp only [readSectors, Engine.ensures_bind]
    have hfirst : sector < map.capacity := hsector 0 (Nat.succ_pos count)
    refine (readSector_ensures T h hfirst).mono_success ?_
    rintro bytes map' content' _ ⟨rfl, hread⟩
    have hadvance := hread.advance
    have hroom : slot * 512 + 512 ≤ buffer.size := by omega
    obtain ⟨buffer', hfill, filled⟩ :=
      Buffer.exists_fill (map.shown content sector) hroom
    have h' := T.advance _ _ _ _ h hadvance.of_quiet
    have hcapacity := hadvance.capacity_eq (T.consistent _ _ h)
    have hview := shown_eq hadvance.toFollows
    have hrest := ih (sector + 1) (slot + 1) buffer' h' (by
        rw [hcapacity]
        intro k hk
        have := hsector (k + 1) (by omega)
        omega) (by rw [filled.size_eq]; lia)
    rw [hview] at hrest
    simp only [Buffer.fillSector, hfill, Engine.ensures_liftExcept_ok]
    intro _
    refine hrest.mono ?_ ?_
    · rintro buffer'' map'' content'' _ ⟨hshows, hread'⟩
      exact ⟨.cons filled hroom hshows, hread.trans hread'⟩
    · rintro _ map'' content'' _ ⟨hm, hquiet⟩
      exact ⟨hm, hadvance.toFollows.trans hquiet⟩

/-- The sectors are written in order; a failure leaves a first part of them written. -/
theorem writeSectors_ensures (T : Terms S footer allowed I) (spacious : Spacious S I)
    (buffer : ByteArray) (count sector slot : Nat) (h : I map content)
    (hsector : ∀ k, k < count → sector + k < map.capacity)
    (hbuffer : (slot + count) * 512 ≤ buffer.size)
    (permitted : ∀ k, k < count → allowed (sector + k) (Buffer.slot buffer (slot + k))) :
    (writeSectors S.disk buffer count sector slot).Ensures S
      (fun _ map' content' =>
        Buffer.Laid buffer sector slot count (map.held content) (map'.held content') ∧
        Advance footer allowed map content map' content')
      (fun _ map' content' => S.mayFail ∧ ∃ k, k ≤ count ∧
        Buffer.Laid buffer sector slot k (map.held content) (map'.held content') ∧
        Follows footer allowed map content map' content') map content := by
  have hmap := T.consistent _ _ h
  refine writeSectors_steps (P := fun k map' content' =>
    Buffer.Laid buffer sector slot k (map.held content) (map'.held content') ∧
      Advance footer allowed map content map' content') hbuffer
    ⟨.nothing _ _ _ fun _ => rfl, .refl hmap⟩ ?_
  rintro k hk map' content' ⟨hlaid, hadvance⟩
  have h' := T.advance _ _ _ _ h hadvance
  have hinside : sector + k < map'.capacity := by
    rw [hadvance.capacity_eq hmap]
    exact hsector k hk
  have hblock := div_lt_of_lt_capacity hadvance.consistent.onDisk.fits.sectors_pos hinside
  refine (writeSector_ensures T h' hinside (permitted k hk) fun hw vacant => ?_).mono ?_ ?_
  · exact .inl (spacious _ _ h' hw (BlockTable.vacant_pos hblock vacant))
  · rintro _ map'' content'' _ ⟨hself, hwrote⟩
    refine ⟨hlaid.snoc hself hwrote.held_eq_of_ne, hadvance.trans (hwrote.mono ?_)⟩
    rintro _ _ ⟨rfl, rfl⟩
    exact permitted k hk
  · rintro _ map'' content'' _ ⟨hm, hquiet⟩
    exact ⟨hm, k, Nat.le_of_lt hk, hlaid.congr hquiet.held_eq,
      hadvance.toFollows.trans hquiet.of_quiet⟩

end BlockMap

end VirtualDisk
