import VirtualDisk.Proofs.Storage.Cropped
import VirtualDisk.Proofs.Blocks.Arranged
import VirtualDisk.Proofs.Blocks.Governed
import VirtualDisk.Proofs.Blocks.Transferring

/-!
# Blocks on a storage that was cut off

The end of a storage holds no block, so an image whose storage was cut off within the last sector is
as good as before: reads, flushes and writes to allocated blocks stay inside, and what they ensure
on the whole storage they ensure on what is left of it. The first allocation finds no footer at the
end and appends its block there. From then on nothing is missing, and the image is consistent again.
-/

namespace VirtualDisk

open Storage

variable {ι α : Type} {disk : ι} {within : Content → Prop} {footer : Footer} {map : BlockMap}
variable {whole content current : Content} {block start : Nat}

theorem Missing.elim {p : Prop}
    (missing : Missing (fun block => (map.table.place? block).isSome) map.table block) : p := by
  have hsome := missing.wanted
  rw [missing.vacant] at hsome
  cases hsome

theorem Arranged.region_inside (h : Arranged footer map content)
    (place : map.table.place? block = some start) :
    start * 512 + map.header.regionSectors * 512 + 1024 ≤ content.size := by
  have hroom := h.region_room block start place
  have hfiller := map.header.regionSectors_le_allocationBytes
  lia

/-- Operations that want nothing but stored blocks stay inside. -/
theorem inside_regime (disk : ι) (footer : Footer) (table : BlockTable) :
    Regime (.inside disk) (fun block => (table.place? block).isSome)
      (fun map content => Arranged footer map content ∧ map.table = table) where
  small _ hw := hw
  wellSized _ _ h := h.1.wellSized
  ask map content current request h _ asked := by
    obtain ⟨harranged, rfl⟩ := h
    have hbytes := harranged.wellSized.size_bytes
    have hregion := BlockHeader.regionSectors_eq map.header
    cases asked with
    | @loadBitmap block start asked place =>
      have hinside := harranged.region_inside place
      change start * 512 + map.bitmap.bytes.size + 1024 ≤ content.size
      omega
    | @readData block start i asked place inside =>
      have hinside := harranged.region_inside place
      have hend := (map.dataPlace_in_region start inside (Nat.le_refl 512)).2
      change map.dataPlace start i + 512 + 1024 ≤ content.size
      omega
    | @storeBitmap block start cached place =>
      have hinside := harranged.region_inside place
      change start * 512 + map.bitmap.bytes.size + 1024 ≤ content.size
      omega
    | @writeData block start i bytes asked place inside =>
      have hinside := harranged.region_inside place
      have hend := (map.dataPlace_in_region start inside (Nat.le_refl 512)).2
      change map.dataPlace start i + bytes.toByteArray.size + 1024 ≤ content.size
      rw [Bytes.size_toByteArray]
      omega
    | measure missing => exact missing.elim
    | findFooter missing => exact missing.elim
    | zeros missing zeroed zero => exact missing.elim
    | trailer missing zeroed extended => exact missing.elim
    | record missing extended => exact missing.elim
    | stray missing extended far inside => exact missing.elim
    | sync => trivial
  effect map content map' content' h _ _ effect := by
    obtain ⟨harranged, rfl⟩ := h
    refine ⟨harranged.effect effect, ?_⟩
    cases effect with
    | allocated missing extended => exact missing.elim
    | _ => rfl

theorem WellSized.regime {S : Setting ι}
    (small : ∀ content, S.within content → content.size < 2 ^ 63)
    (free : ∀ request content, S.permits request content) :
    Regime S (fun _ => True) (fun map _ => WellSized map) where
  small := small
  wellSized _ _ h := h
  ask _ _ _ _ _ _ _ := free _ _
  effect _ _ _ _ h _ _ effect := h.effect effect

/-- The storage of an image was cut off within its last sector. -/
structure CutOff (footer : Footer) (map : BlockMap) (whole content : Content) : Prop where
  consistent : Consistent footer map whole
  arranged : Arranged footer map whole
  cropped : whole.Cropped content
  small : whole.size < 2 ^ 63

namespace CutOff

/-- What an engine on stored blocks does to the whole storage it does to what is left of it. -/
theorem transfer (h : CutOff footer map whole content) {engine : Engine ι BlockMap α}
    {Q : α → BlockMap → Content → Prop}
    (spec : engine.Ensures (.free disk False fun _ => True) Q (fun _ _ _ => False) map whole)
    (inside : engine.Ensures (.inside disk) (fun _ map' whole' => Arranged footer map' whole')
      (fun _ _ _ => True) map whole)
    (consistent : ∀ a map' whole', Q a map' whole' → Consistent footer map' whole') :
    engine.Ensures (.free disk False within)
      (fun a map' content' => ∃ whole', CutOff footer map' whole' content' ∧ Q a map' whole')
      (fun _ _ _ => False) map content := by
  refine (Engine.Ensures.cropped spec inside h.small h.cropped).mono_success ?_
  rintro a map' content' _ ⟨whole', cropped, small, hpost, harranged⟩
  exact ⟨whole', ⟨consistent _ _ _ hpost, harranged, cropped, small⟩, hpost⟩

variable (h : CutOff footer map whole content)
include h

theorem not_endsLikeFooter : ¬ content.EndsLikeFooter := by
  rintro ⟨-, hcookie⟩
  have hbyte := Footer.getElem_of_hasCookie hcookie
  rw [Content.tail, Content.getElem_read, Nat.add_zero] at hbyte
  exact h.cropped.first hbyte

theorem front_eq : content.front = content.size := by
  rw [Content.front, if_neg h.not_endsLikeFooter]

theorem copy_eq : content.read 0 512 = footer.raw := by
  have hsize := h.arranged.size_ge
  rw [(h.cropped.agreeOn (by omega)).read_eq]
  exact h.consistent.onDisk.copy_eq.1

theorem trailer_eq : content.trailer = footer.raw := by
  rw [Content.trailer, if_neg h.not_endsLikeFooter, h.copy_eq]

theorem appendable (small : content.size < sizeLimit) : content.Appendable := by
  have hsize := h.arranged.size_ge
  have hle := h.cropped.size_le
  refine ⟨by omega, ?_, Nat.le_of_lt small⟩
  rw [h.trailer_eq]
  exact h.consistent.onDisk.copy_eq.2

/-- What is appended to the rest of the storage is as good as appended to the whole. -/
theorem appended (extended : Extended map.header content start current) :
    Appended footer map.header whole start current := by
  have hlt := h.cropped.size_lt
  have hle := h.cropped.size_le
  have haligned := h.arranged.aligned
  have hfront := extended.front_le
  have hstart := extended.start_le
  have hagree := extended.agree
  have hsize := extended.size_eq
  have hfiller := map.header.regionSectors_le_allocationBytes
  rw [h.front_eq] at hfront hstart hagree
  have hunsealed : ¬ Sealed footer whole := h.arranged.not_sealed h.cropped.last
  have grown : whole.Grown current :=
    ⟨by omega, h.cropped.agree.trans (hagree.mono (Nat.le_refl _) (by omega))⟩
  have found : EndFound footer whole (start * 512) footer.raw :=
    ⟨by omega, by omega, Nat.mul_mod_left _ _, .inl rfl, fun hsealed => absurd hsealed hunsealed⟩
  refine ⟨grown, ⟨_, found⟩, extended.start_lt, hsize, fun p hp hp' => ?_,
    .inl (extended.tail_eq.trans h.trailer_eq), fun hsealed => absurd hsealed hunsealed⟩
  exact extended.zero p (by rw [h.front_eq]; omega) (by omega)

end CutOff

namespace BlockMap

theorem flush_cut (h : CutOff footer map whole content) :
    (flush disk).Ensures (.free disk False within)
      (fun _ map' content' => ∃ whole', CutOff footer map' whole' content' ∧ map' = map.cleaned ∧
        Advance footer (fun _ _ => False) map whole map' whole')
      (fun _ _ _ => False) map content := by
  have T := Terms.free disk False (fun _ => True) footer fun _ _ => True
  refine h.transfer ?_ ?_ fun _ _ _ hpost => hpost.2.consistent
  · refine (flush_ensures T h.consistent).mono ?_ fun _ _ _ _ hfailed => hfailed.1
    exact fun _ _ _ _ hpost => ⟨hpost.1, hpost.2.2.2⟩
  · exact (flush_governed (inside_regime disk footer map.table) ⟨h.arranged, rfl⟩).mono
      (fun _ _ _ _ hpost => hpost.1.1) fun _ _ _ _ _ => trivial

theorem select_cut (h : CutOff footer map whole content) (hblock : block < map.table.size) :
    (select disk block).Ensures (.free disk False within)
      (fun _ map' content' => ∃ whole', CutOff footer map' whole' content' ∧
        Selected footer block map whole map' whole')
      (fun _ _ _ => False) map content := by
  have T := Terms.free disk False (fun _ => True) footer fun _ _ => True
  refine h.transfer ?_ ?_ fun _ _ _ hpost => hpost.advance.consistent
  · exact (select_ensures T h.consistent hblock).mono (fun _ _ _ _ hpost => hpost)
      fun _ _ _ _ hfailed => hfailed.1
  · refine (select_governed (inside_regime disk footer map.table) ⟨h.arranged, rfl⟩ ?_
      hblock).mono (fun _ _ _ _ hpost => hpost.1.1) fun _ _ _ _ _ => trivial
    intro start place
    rw [place]
    rfl

/-- A block is appended to the rest of the storage, and nothing is missing any more. -/
theorem ensureAllocated_cut (h : CutOff footer map whole content) (hblock : block < map.table.size)
    (vacant : map.table.place? block = none) :
    (ensureAllocated disk block).Ensures (.free disk False fun content => content.size < sizeLimit)
      (fun start map' content' => map'.table.place? block = some start ∧
        map'.bitmap = map.bitmap ∧ Advance footer (fun _ _ => False) map whole map' content')
      (fun _ _ _ => False) map content := by
  have R : Regime (.free disk False fun content => content.size < sizeLimit) (fun _ => True)
      (fun map _ => WellSized map) :=
    WellSized.regime (fun _ hw => Nat.lt_trans hw (by decide)) fun _ _ => trivial
  refine .of_within fun hw => ?_
  refine (ensureAllocated_missing R h.arranged.wellSized ⟨trivial, hblock, vacant⟩).mono ?_ ?_
  · rintro start map' content' hw' ⟨current, extended, rfl, rfl⟩
    have appended := h.appended extended
    have hgrown := h.consistent.onDisk.grown appended.grown appended.tail
    have hsize : current.size < sizeLimit := by
      rw [← hgrown.size_withEntry hblock start]
      exact hw'
    have hend := extended.size_eq
    rw [sizeLimit] at hsize
    have recordable : start < 2 ^ 32 - 1 := by omega
    exact ⟨BlockTable.place?_withEntry_ofNat hblock recordable, rfl,
      appended.allocate h.consistent hblock vacant recordable⟩
  · rintro e map' content' _ ⟨-, hfailed | ⟨-, hfull⟩⟩
    · exact hfailed
    · exact hfull (h.appendable hw)

/-- The image stands on a storage of which no more than the end is missing. -/
inductive Stands (footer : Footer) (map : BlockMap) : Content → Content → Prop
  | whole {content : Content} (consistent : Consistent footer map content) :
      Stands footer map content content
  | cut {whole content : Content} (off : CutOff footer map whole content) :
      Stands footer map whole content

theorem Stands.consistent (h : Stands footer map whole content) : Consistent footer map whole := by
  cases h with
  | whole consistent => exact consistent
  | cut off => exact off.consistent

variable {sector : Nat}

theorem writeSector_cut (h : CutOff footer map whole content) (hsector : sector < map.capacity)
    (place : map.table.place? (sector / map.header.sectorsPerBlock) = some start)
    (bytes : Sector) :
    (writeSector disk sector bytes).Ensures (.free disk False within)
      (fun _ map' content' => ∃ whole', CutOff footer map' whole' content' ∧
        map'.held whole' sector = some bytes ∧
        Advance footer (fun other other' => other = sector ∧ other' = bytes) map whole map' whole')
      (fun _ _ _ => False) map content := by
  have T := Terms.free disk False (fun _ => True) footer fun _ _ => True
  refine h.transfer ?_ ?_ fun _ _ _ hpost => hpost.2.consistent
  · refine (writeSector_ensures T h.consistent hsector trivial fun _ vacant => ?_).mono
      (fun _ _ _ _ hpost => hpost) fun _ _ _ _ hfailed => hfailed.1
    cases vacant.symm.trans place
  · refine (writeSector_governed (inside_regime disk footer map.table) ⟨h.arranged, rfl⟩ ?_ hsector
      bytes).mono (fun _ _ _ _ hpost => hpost.1.1) fun _ _ _ _ _ => trivial
    rw [place]
    rfl

theorem writeSector_append (h : CutOff footer map whole content) (hsector : sector < map.capacity)
    (vacant : map.table.place? (sector / map.header.sectorsPerBlock) = none) (bytes : Sector) :
    (writeSector disk sector bytes).Ensures
      (.free disk False fun content => content.size < sizeLimit)
      (fun _ map' content' => map'.held content' sector = some bytes ∧
        Advance footer (fun other other' => other = sector ∧ other' = bytes) map whole map'
          content')
      (fun _ _ _ => False) map content := by
  have T := Terms.free disk False (fun content => content.size < sizeLimit) footer fun _ _ => True
  have hfits := h.consistent.onDisk.fits
  have hblock := div_lt_of_lt_capacity hfits.sectors_pos hsector
  simp only [writeSector_eq, Engine.ensures_bind, Engine.ensures_get, locate_eq hfits hsector,
    Engine.ensures_liftExcept_ok]
  intro _ _
  refine (select_cut h hblock).mono_success ?_
  rintro _ map₁ content₁ _ ⟨whole₁, h₁, selected⟩
  rw [← selected.table] at hblock vacant
  refine (ensureAllocated_cut h₁ hblock vacant).mono_success ?_
  rintro start map₂ content₂ _ ⟨place, hbitmap, hadvance⟩
  have hquiet := selected.advance.trans hadvance
  have hheader : map₂.header = map.header := hquiet.header
  rw [← hheader] at place ⊢
  refine (storeSector_ensures T hquiet.consistent ?_ place trivial).mono ?_
    fun _ _ _ _ hfailed => hfailed.1
  · rw [hbitmap, hheader]
    exact selected.block
  · rintro _ map₃ content₃ _ ⟨hheld, hwrote⟩
    exact ⟨hheld, hquiet.of_quiet.trans hwrote⟩

/-- A sector is written, whatever is missing at the end. -/
theorem writeSector_stands (h : Stands footer map whole content) (hsector : sector < map.capacity)
    (bytes : Sector) :
    (writeSector disk sector bytes).Ensures
      (.free disk False fun content => content.size < sizeLimit)
      (fun _ map' content' => ∃ whole', Stands footer map' whole' content' ∧
        map'.held whole' sector = some bytes ∧
        Advance footer (fun other other' => other = sector ∧ other' = bytes) map whole map' whole')
      (fun _ _ _ => False) map content := by
  have T := Terms.free disk False (fun content => content.size < sizeLimit) footer fun _ _ => True
  cases h with
  | whole consistent =>
    refine (writeSector_ensures T consistent hsector trivial fun hw _ => .inl hw).mono ?_
      fun _ _ _ _ hfailed => hfailed.1
    rintro _ map' content' _ ⟨hheld, hadvance⟩
    exact ⟨content', .whole hadvance.consistent, hheld, hadvance⟩
  | cut off =>
    cases place : map.table.place? (sector / map.header.sectorsPerBlock) with
    | some start =>
      refine (writeSector_cut off hsector place bytes).mono_success ?_
      rintro _ map' content' _ ⟨whole', off', hheld, hadvance⟩
      exact ⟨whole', .cut off', hheld, hadvance⟩
    | none =>
      refine (writeSector_append off hsector place bytes).mono_success ?_
      rintro _ map' content' _ ⟨hheld, hadvance⟩
      exact ⟨content', .whole hadvance.consistent, hheld, hadvance⟩

theorem writeSectors_stands (buffer : ByteArray) (count sector slot : Nat)
    (h : Stands footer map whole content)
    (hsector : ∀ k, k < count → sector + k < map.capacity)
    (hbuffer : (slot + count) * 512 ≤ buffer.size) :
    (writeSectors disk buffer count sector slot).Ensures
      (.free disk False fun content => content.size < sizeLimit)
      (fun _ map' content' => ∃ whole', Stands footer map' whole' content' ∧
        Buffer.Laid buffer sector slot count (map.held whole) (map'.held whole'))
      (fun _ _ _ => False) map content := by
  refine (writeSectors_steps (S := .free disk False fun content => content.size < sizeLimit)
    (P := fun k map' content' => ∃ whole', Stands footer map' whole' content' ∧
      map'.capacity = map.capacity ∧
      Buffer.Laid buffer sector slot k (map.held whole) (map'.held whole')) hbuffer
    ⟨whole, h, rfl, .nothing _ _ _ fun _ => rfl⟩ ?_).mono_success ?_
  · rintro k hk map' content' ⟨whole', h', hcapacity, hlaid⟩
    have hinside : sector + k < map'.capacity := by
      rw [hcapacity]
      exact hsector k hk
    refine (writeSector_stands h' hinside _).mono_success ?_
    rintro _ map'' content'' _ ⟨whole'', h'', hself, hadvance⟩
    exact ⟨whole'', h'', (hadvance.capacity_eq h'.consistent).trans hcapacity,
      hlaid.snoc hself hadvance.held_eq_of_ne⟩
  · rintro _ map' content' _ ⟨whole', h', -, hlaid⟩
    exact ⟨whole', h', hlaid⟩

theorem flush_stands (h : Stands footer map whole content) :
    (flush disk).Ensures (.free disk False within)
      (fun _ map' content' => ∃ whole', Stands footer map' whole' content' ∧ map' = map.cleaned ∧
        map'.held whole' = map.held whole)
      (fun _ _ _ => False) map content := by
  have T := Terms.free disk False within footer fun _ _ => True
  cases h with
  | whole consistent =>
    refine (flush_ensures T consistent).mono ?_ fun _ _ _ _ hfailed => hfailed.1
    rintro _ map' content' _ ⟨rfl, -, -, hadvance⟩
    exact ⟨content', .whole hadvance.consistent, rfl, funext hadvance.held_eq⟩
  | cut off =>
    refine (flush_cut off).mono_success ?_
    rintro _ map' content' _ ⟨whole', off', rfl, hadvance⟩
    exact ⟨whole', .cut off', rfl, funext hadvance.held_eq⟩

end BlockMap

end VirtualDisk
