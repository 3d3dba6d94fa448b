import VirtualDisk.Proofs.Blocks.Attempts
import VirtualDisk.Proofs.Blocks.Storing

/-!
# Allocating blocks

An allocation either records the block with a region of zeros, or fails and leaves image and
storage as they were, but for what was appended. On a storage that is too large, the number of the
new region's first sector does not fit into an entry.
-/

namespace VirtualDisk

open Storage

variable {ι : Type} {S : Setting ι} {footer : Footer} {allowed : Nat → Sector → Prop}
variable {I : BlockMap → Content → Prop} {map : BlockMap} {content current : Content}
variable {block position n : Nat} {bytes : Sector}

theorem OnDisk.copy_eq {header : BlockHeader} {table : BlockTable}
    (h : OnDisk footer header table content) :
    content.read 0 512 = footer.raw ∧ Footer.hasCookie footer.raw.toByteArray = true := by
  have hraw := Footer.raw_of_parse h.footer_copy
  rw [hraw]
  exact ⟨rfl, Footer.hasCookie_of_parse h.footer_copy⟩

/-- In an image, appending begins at the footer or where the storage ends. -/
theorem OnDisk.endFound {header : BlockHeader} {table : BlockTable}
    (h : OnDisk footer header table content) (aligned : content.size % 512 = 0) :
    EndFound footer content content.front content.trailer := by
  have hroom := h.copy_room
  obtain ⟨hcopy, hcookie⟩ := h.copy_eq
  by_cases hend : content.EndsLikeFooter
  · have hfront : content.front = content.size - 512 := by rw [Content.front, if_pos hend]
    have htrailer : content.trailer = content.tail := by rw [Content.trailer, if_pos hend]
    rw [hfront, htrailer]
    exact ⟨by omega, by omega, by omega, h.tail, fun hsealed => ⟨by omega, hsealed⟩⟩
  · have hfront : content.front = content.size := by rw [Content.front, if_neg hend]
    have htrailer : content.trailer = footer.raw := by rw [Content.trailer, if_neg hend, hcopy]
    rw [hfront, htrailer]
    refine ⟨by omega, Nat.le_refl _, aligned, .inl rfl, fun hsealed => absurd ⟨by omega, ?_⟩ hend⟩
    rw [show content.tail = footer.raw from hsealed]
    exact hcookie

/-- There is always a footer to append, as there is one at the beginning. -/
theorem OnDisk.hasCookie_trailer {header : BlockHeader} {table : BlockTable}
    (h : OnDisk footer header table content) :
    Footer.hasCookie content.trailer.toByteArray = true := by
  obtain ⟨hcopy, hcookie⟩ := h.copy_eq
  unfold Content.trailer
  split
  · next hend => exact hend.2
  · rw [hcopy]
    exact hcookie

theorem Extended.appended {header : BlockHeader} {start : Nat}
    (extended : Extended header content start current)
    (found : EndFound footer content content.front content.trailer) :
    Appended footer header content start current := by
  have haligned := found.aligned
  have hfront := extended.front_le
  have hlt := extended.start_le
  have hfiller := header.regionSectors_le_allocationBytes
  have hstart : content.front = start * 512 := by omega
  have hforeign : NoForeignFooter footer current := by
    rw [NoForeignFooter, extended.tail_eq]
    exact found.own_or_none
  refine ⟨extended.grown, ⟨content.trailer, hstart ▸ found⟩, extended.start_lt, extended.size_eq,
    fun p hp hp' => extended.zero p (by omega) (by omega), hforeign, fun hsealed => ?_⟩
  obtain ⟨hend, htrailer⟩ := found.of_sealed hsealed
  have hsize := extended.size_eq
  exact ⟨extended.tail_eq.trans htrailer, by omega⟩

/-- Whole sectors of zeros at the end leave the image as it was. -/
theorem EndFound.quiet (found : EndFound footer content position bytes)
    (h : Consistent footer map content) (zeroed : content.Zeroed current position n)
    (hn : n % 512 = 0) : Quiet footer map content map current := by
  have hroom := h.onDisk.copy_room
  have haligned := h.aligned
  have hposition := found.aligned
  have hsize := zeroed.size_eq
  refine h.grown (zeroed.grown found.size_le) ?_ (by omega)
  exact .zeroed zeroed (by omega) found.size_le found.le_size h.onDisk.tail (by omega)

/-- The number of the sector where the next block would be stored can be recorded in a table. -/
def HasRoom (footer : Footer) (content : Content) : Prop :=
  content.size < sizeLimit ∨ Sealed footer content ∧ content.size ≤ sizeLimit

namespace HasRoom

theorem size_le (h : HasRoom footer content) : content.size ≤ sizeLimit := by
  obtain hlt | ⟨-, hle⟩ := h
  · exact Nat.le_of_lt hlt
  · exact hle

/-- Only the last sector counts, and the size. -/
theorem of_size_eq {content' : Content} (h : HasRoom footer content)
    (size : content'.size = content.size)
    (hsealed : Sealed footer content → Sealed footer content') :
    HasRoom footer content' := by
  obtain hlt | ⟨hend, hle⟩ := h
  · exact .inl (size ▸ hlt)
  · exact .inr ⟨hsealed hend, size ▸ hle⟩

theorem position_lt (h : HasRoom footer content) (found : EndFound footer content position bytes) :
    position < sizeLimit := by
  obtain hlt | ⟨hsealed, hle⟩ := h
  · exact Nat.lt_of_le_of_lt found.le_size hlt
  · have := (found.of_sealed hsealed).1
    omega

theorem recordable {header : BlockHeader} {start : Nat} (h : HasRoom footer content)
    (appended : Appended footer header content start current) : start < 2 ^ 32 - 1 := by
  obtain ⟨bytes, found⟩ := appended.found
  have hlt := h.position_lt found
  rw [sizeLimit] at hlt
  omega

end HasRoom

theorem Terms.appending (T : Terms S footer allowed I) (h : I map content)
    (hblock : block < map.table.size) (vacant : map.table.place? block = none) :
    Appending S map content block := by
  have hmap := T.consistent _ _ h
  have found := hmap.onDisk.endFound hmap.aligned
  refine ⟨T.length _, fun _ => T.read _ _ _, fun n size hfits d m zeros current zeroed zero _ _ _ =>
    T.write _ _ _ _ _ h (.zeros found zeroed zero (by omega)),
    fun start n current zeroed hend extended => ?_,
    fun start current extended =>
      T.write _ _ _ _ _ h (.entry hblock vacant (extended.appended found))⟩
  have hlast := map.header.end_lt extended.start_lt
  have hfront := extended.front_le
  have hback := content.size_le_front
  have hfiller := map.header.regionSectors_le_allocationBytes
  rw [← hend] at hlast ⊢
  exact T.write _ _ _ _ _ h (.footer found zeroed (by omega) (by omega) hlast)

theorem Interrupted.quiet (interrupted : Interrupted map.header content current)
    (hmap : Consistent footer map content) : Quiet footer map content map current := by
  have found := hmap.onDisk.endFound hmap.aligned
  cases interrupted with
  | @begun n zeroed whole =>
    have haligned := found.aligned
    exact found.quiet hmap zeroed (by omega)
  | extended extended => exact (extended.appended found).quiet hmap

/-- In an image, a block that is not allocated is refused only where there is no room. -/
theorem Refusal.not_hasRoom {e : Error} (refusal : Refusal map.table content block e)
    (hmap : Consistent footer map content) (hfits : content.size < 2 ^ 63)
    (hblock : block < map.table.size) (vacant : map.table.place? block = none) :
    ¬ HasRoom footer content := by
  have found := hmap.onDisk.endFound hmap.aligned
  have hroom := hmap.onDisk.copy_room
  have hfront := content.front_le
  have hnext := content.nextSector_lt
  cases refusal with
  | outside beyond => exact absurd hblock (Nat.not_lt.mpr beyond)
  | stored place =>
    rw [vacant] at place
    cases place
  | noFooter hnone => exact absurd ⟨by omega, hmap.onDisk.hasCookie_trailer⟩ hnone
  | overflow beyond => omega
  | tooFar beyond =>
    intro room
    have hposition := room.position_lt found
    rw [sizeLimit] at hposition
    omega

namespace BlockMap

/-- An allocation appends a region and records it, or leaves the image as it was. It is refused only
where there is no room. -/
theorem allocate_ensures (T : Terms S footer allowed I) (h : I map content)
    (hfits : content.size < 2 ^ 63) (hblock : block < map.table.size)
    (vacant : map.table.place? block = none) :
    (allocate S.disk map block).Ensures S
      (fun result content' => ∃ current,
        Appended footer map.header content result.1 current ∧
        result.2 = (map.allocated block result.1).table ∧
        content' = current.withEntry map.table block result.1)
      (fun _ content' => (S.mayFail ∨ ¬ HasRoom footer content ∧ content' = content) ∧
        Quiet footer map content map content') content := by
  have hmap := T.consistent _ _ h
  have found := hmap.onDisk.endFound hmap.aligned
  refine (allocate_places (T.appending h hblock vacant) hmap.onDisk.fits.table_fits
    (by omega)).mono ?_ ?_
  · rintro ⟨start, table⟩ content' _ placed
    obtain ⟨current, extended, hcontent⟩ := placed.appended
    exact ⟨current, extended.appended found, placed.table_eq, hcontent⟩
  · rintro e content' _ (⟨hm, interrupted⟩ | ⟨refusal, hleft⟩)
    · exact ⟨.inl hm, interrupted.quiet hmap⟩
    · obtain rfl := hleft.eq_of_aligned found.aligned
      exact ⟨.inr ⟨refusal.not_hasRoom hmap hfits hblock vacant, rfl⟩, .refl hmap⟩

theorem ensureAllocated_ensures (T : Terms S footer allowed I) (h : I map content)
    (hblock : block < map.table.size)
    (room : map.table.place? block = none → HasRoom footer content) :
    (ensureAllocated S.disk block).Ensures S
      (fun start map' content' => map'.table.place? block = some start ∧
        map'.bitmap = map.bitmap ∧
        Advance footer (fun _ _ => False) map content map' content')
      (fun _ map' content' => S.mayFail ∧ Quiet footer map content map' content') map content := by
  have hmap := T.consistent _ _ h
  simp only [ensureAllocated, Engine.ensures_bind, Engine.ensures_get]
  intro _
  cases place : map.table.place? block with
  | some start =>
    simp only [BlockTable.sector?_of_place place, Engine.ensures_liftExcept_ok, Engine.ensures_pure]
    exact fun _ _ => ⟨place, trivial, .refl hmap⟩
  | none =>
    simp only [BlockTable.sector?_of_vacant hblock place, Engine.ensures_liftExcept_ok,
      Engine.ensures_bind, Engine.ensures_liftAccess, Engine.ensures_set, Engine.ensures_pure]
    intro _
    have hfits : content.size < 2 ^ 63 := Nat.lt_of_le_of_lt (room place).size_le (by decide)
    refine (allocate_ensures T h hfits hblock place).mono ?_ ?_
    · rintro ⟨start, table⟩ content' _ ⟨current, appended, htable, rfl⟩ _ _
      change table = (map.allocated block start).table at htable
      subst htable
      have recordable := (room place).recordable appended
      exact ⟨BlockTable.place?_withEntry_ofNat hblock recordable, trivial,
        appended.allocate hmap hblock place recordable⟩
    · rintro _ content' _ ⟨hm | ⟨hfull, -⟩, hquiet⟩
      · exact ⟨hm, hquiet⟩
      · exact absurd (room place) hfull

end BlockMap

end VirtualDisk
