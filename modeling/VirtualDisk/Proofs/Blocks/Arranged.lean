import VirtualDisk.Proofs.Blocks.Allocating
import VirtualDisk.Proofs.Blocks.Effects

/-!
# Where the blocks of an image are

An image that was created here has its blocks behind the table, each with filler and at least a
sector behind it, and its storage ends with the footer or with a sector that begins with a zero.
`Arranged` says so, and every effect of an operation keeps it: wherever an allocation was given up,
the next one finds the end of the storage and not the data of a block.
-/

namespace VirtualDisk

open Storage

namespace Storage.Content

variable {content : Content}

theorem not_endsLikeFooter (h : content.byte (content.size - 512) = 0) :
    ¬ content.EndsLikeFooter := by
  rintro ⟨-, hcookie⟩
  have hbyte := Footer.getElem_of_hasCookie hcookie
  rw [tail, getElem_read, Nat.add_zero, h] at hbyte
  exact absurd hbyte (by decide)

end Storage.Content

/-- The blocks of an image that was created here, and the end of its storage. -/
structure Arranged (footer : Footer) (map : BlockMap) (content : Content) : Prop where
  wellSized : WellSized map
  onDisk : OnDisk footer map.header map.table content
  aligned : content.size % 512 = 0
  region_after : ∀ block start, map.table.place? block = some start →
    map.table.offset + map.table.size * 4 ≤ start * 512
  region_room : ∀ block start, map.table.place? block = some start →
    start * 512 + map.header.allocationBytes + 512 ≤ content.size
  tail : Sealed footer content ∨ content.byte (content.size - 512) = 0
  /-- No byte of the sector before the footer could be the first one of another footer. -/
  gap : Sealed footer content → ∀ p, content.size ≤ p + 1024 → p + 512 < content.size →
    content.byte p ≠ 0x63

namespace Arranged

variable {footer : Footer} {map map' : BlockMap} {content content' : Content}
variable {block start n position : Nat}

theorem size_ge (h : Arranged footer map content) : 1024 ≤ content.size := h.onDisk.copy_room

/-- Nothing but the footer looks like one. -/
theorem endsLikeFooter_iff (h : Arranged footer map content) :
    content.EndsLikeFooter ↔ Sealed footer content := by
  constructor
  · intro hlike
    exact h.tail.resolve_right fun hbyte => Content.not_endsLikeFooter hbyte hlike
  · intro hsealed
    refine ⟨Nat.le_trans (by decide) h.size_ge, ?_⟩
    rw [show content.tail = footer.raw from hsealed]
    exact h.onDisk.copy_eq.2

theorem front_aligned (h : Arranged footer map content) : content.front % 512 = 0 :=
  (h.onDisk.endFound h.aligned).aligned

theorem trailer_eq (h : Arranged footer map content) : content.trailer = footer.raw := by
  unfold Content.trailer
  split
  · next hlike => exact h.endsLikeFooter_iff.mp hlike
  · exact h.onDisk.copy_eq.1

theorem clear_behind (h : Arranged footer map content) (hposition : content.front ≤ position)
    (n : Nat) : Clear footer map.table position n := by
  have hback := content.size_le_front
  have hcopy := h.onDisk.copy_room
  have hheader := h.onDisk.header_room
  have htable := h.onDisk.table_room
  exact ⟨by omega, .inr (by omega), .inr (by omega)⟩

theorem withBitmap (h : Arranged footer map content) {bitmap : BitmapCache}
    (hsized : WellSized { map with bitmap }) : Arranged footer { map with bitmap } content :=
  { h with wellSized := hsized }

theorem sameEnd (h : Arranged footer map content) (wellSized : WellSized map')
    (onDisk : OnDisk footer map'.header map'.table content') (size : content'.size = content.size)
    (agree : content.AgreeOn content' (content.size - 1024) 1024)
    (after : ∀ block start, map'.table.place? block = some start →
      map'.table.offset + map'.table.size * 4 ≤ start * 512)
    (room : ∀ block start, map'.table.place? block = some start →
      start * 512 + map'.header.allocationBytes + 512 ≤ content.size) :
    Arranged footer map' content' := by
  have hge := h.size_ge
  have hbyte : ∀ p, content.size ≤ p + 1024 → p < content.size → content'.byte p = content.byte p :=
    fun p hp hp' => agree p (by omega) (by omega)
  have hsealed : Sealed footer content' ↔ Sealed footer content := by
    rw [Sealed, Sealed, Content.tail, Content.tail, size,
      (agree.mono (by omega) (by omega)).read_eq]
  refine ⟨wellSized, onDisk, ?_, after, ?_, ?_, ?_⟩
  · rw [size]
    exact h.aligned
  · rw [size]
    exact room
  · rw [hsealed, size, hbyte _ (by omega) (by omega)]
    exact h.tail
  · rw [hsealed, size]
    intro htail p hp hp'
    rw [hbyte p hp (by omega)]
    exact h.gap htail p hp hp'

theorem write_clear (h : Arranged footer map content) (clear : Clear footer map.table position n)
    (hroom : position + n + 1024 ≤ content.size) (data : Bytes n) :
    Arranged footer map (content.write position data) := by
  have hsize : (content.write position data).size = content.size := by
    rw [Content.size_write]
    omega
  exact h.sameEnd h.wellSized (h.onDisk.write_clear clear (by omega) data) hsize
    (content.agreeOn_write data (by omega)) h.region_after h.region_room

theorem write_region (h : Arranged footer map content) (place : map.table.place? block = some start)
    (hstart : start * 512 ≤ position)
    (hend : position + n ≤ start * 512 + map.header.regionSectors * 512) (data : Bytes n) :
    Arranged footer map (content.write position data) := by
  have hroom := h.region_room block start place
  have hfiller := map.header.regionSectors_le_allocationBytes
  exact h.write_clear ((h.onDisk.region_clear block start place).mono hstart hend) (by omega) data

/-- The storage has grown, and all blocks are as they were. -/
theorem grown (h : Arranged footer map content) (grown : content.Grown content')
    (aligned : content'.size % 512 = 0)
    (tail : Sealed footer content' ∨ content'.byte (content'.size - 512) = 0)
    (gap : Sealed footer content' → ∀ p, content'.size ≤ p + 1024 → p + 512 < content'.size →
      content'.byte p ≠ 0x63) : Arranged footer map content' := by
  have hforeign : NoForeignFooter footer content' := by
    obtain hsealed | hbyte := tail
    · exact .inl hsealed
    · exact .of_byte hbyte
  have hroom := fun block start place =>
    Nat.le_trans (h.region_room block start place) grown.size_le
  exact ⟨h.wellSized, h.onDisk.grown grown hforeign, aligned, h.region_after, hroom, tail, gap⟩

theorem same (h : Arranged footer map content) (size : content'.size = content.size)
    (byte : ∀ p, content'.byte p = content.byte p) : Arranged footer map content' := by
  have grown : content.Grown content' := ⟨Nat.le_of_eq size.symm, fun p _ _ => byte p⟩
  have htail : content'.tail = content.tail := Bytes.ext fun i hi => by
    rw [Content.tail, Content.tail, Content.getElem_read, Content.getElem_read, size, byte]
  have hforeign : NoForeignFooter footer content' := by
    rw [NoForeignFooter, htail]
    exact h.onDisk.tail
  exact h.sameEnd h.wellSized (h.onDisk.grown grown hforeign) size (fun p _ _ => byte p)
    h.region_after h.region_room

theorem not_sealed (h : Arranged footer map content)
    (hbyte : content'.byte (content'.size - 512) = 0) : ¬ Sealed footer content' := by
  intro hsealed
  have hfirst := Footer.getElem_of_hasCookie h.onDisk.copy_eq.2
  rw [← show content'.tail = footer.raw from hsealed, Content.tail, Content.getElem_read,
    Nat.add_zero, hbyte] at hfirst
  exact absurd hfirst (by decide)

theorem begun (h : Arranged footer map content) (zeroed : content.Zeroed content' content.front n)
    (whole : n = 0 ∨ (content.front + n) % 512 = 0) : Arranged footer map content' := by
  have hback := content.size_le_front
  have hfront := content.front_le
  have haligned := h.front_aligned
  have hsize := zeroed.size_eq
  obtain rfl | hn := Nat.eq_zero_or_pos n
  · exact h.same (by omega) fun p => by rw [zeroed.byte_eq, if_neg (by omega)]
  · have hend : (content.front + n) % 512 = 0 := whole.resolve_left (Nat.ne_of_gt hn)
    have hbyte : content'.byte (content'.size - 512) = 0 := by
      rw [zeroed.byte_eq, if_pos (by omega)]
    exact h.grown (zeroed.grown hback) (by omega) (.inr hbyte) fun hsealed =>
      absurd hsealed (h.not_sealed hbyte)

theorem extended (h : Arranged footer map content)
    (extended : Extended map.header content start content') : Arranged footer map content' := by
  have hfront := extended.front_le
  have hfiller := map.header.regionSectors_le_allocationBytes
  have haligned := map.header.allocationBytes_aligned
  have hsize := extended.size_eq
  have hsealed : Sealed footer content' := extended.tail_eq.trans h.trailer_eq
  refine h.grown extended.grown (by omega) (.inl hsealed) fun _ p hp hp' => ?_
  rw [extended.zero p (by omega) (by omega)]
  decide

/-- A new region begins where the storage ended. -/
theorem start_eq (h : Arranged footer map content)
    (extended : Extended map.header content start content') : start * 512 = content.front := by
  have haligned := h.front_aligned
  have hfront := extended.front_le
  have hlt := extended.start_le
  omega

theorem appended (h : Arranged footer map content)
    (extended : Extended map.header content start content') :
    Appended footer map.header content start content' :=
  extended.appended (h.onDisk.endFound h.aligned)

theorem agreeOn_withEntry (h : Arranged footer map content)
    (extended : Extended map.header content start content') (hblock : block < map.table.size) :
    content'.AgreeOn (content'.withEntry map.table block start) (content'.size - 1024) 1024 := by
  have htable := h.onDisk.table_room
  have hback := content.size_le_front
  have hfront := extended.front_le
  have hsize := extended.size_eq
  have hfiller := map.header.regionSectors_le_allocationBytes
  exact content'.agreeOn_withEntry hblock (.inl (by omega))

theorem allocated (h : Arranged footer map content)
    (extended : Extended map.header content start content') (hblock : block < map.table.size)
    (recordable : start < 2 ^ 32 - 1) :
    Arranged footer (map.allocated block start) (content'.withEntry map.table block start) := by
  have hextended := h.extended extended
  refine hextended.sameEnd (h.wellSized.allocated block start)
    ((h.appended extended).onDisk h.onDisk hblock recordable)
    (hextended.onDisk.size_withEntry hblock start) (h.agreeOn_withEntry extended hblock)
    (fun other start' place => ?_) fun other start' place => ?_
  · change map.table.offset + (map.table.withEntry block _).size * 4 ≤ _
    rw [BlockTable.withEntry_size]
    obtain ⟨-, rfl⟩ | ⟨-, hbefore⟩ := BlockTable.of_place?_withEntry hblock recordable place
    · have hstart := h.start_eq extended
      have htable := h.onDisk.table_room
      have hback := content.size_le_front
      omega
    · exact h.region_after other start' hbefore
  · obtain ⟨-, rfl⟩ | ⟨-, hbefore⟩ := BlockTable.of_place?_withEntry hblock recordable place
    · exact Nat.le_of_eq extended.size_eq.symm
    · exact hextended.region_room other start' hbefore

/-- A block is appended too far behind to be recorded. -/
theorem lost (h : Arranged footer map content)
    (extended : Extended map.header content start content') (hblock : block < map.table.size)
    (vacant : map.table.place? block = none) (far : 2 ^ 32 - 1 ≤ start) :
    Arranged footer map (content'.withEntry map.table block start) := by
  have hextended := h.extended extended
  exact hextended.sameEnd h.wellSized ((h.appended extended).onDisk_lost h.onDisk hblock vacant far)
    (hextended.onDisk.size_withEntry hblock start) (h.agreeOn_withEntry extended hblock)
    h.region_after hextended.region_room

/-- Every effect keeps the arrangement. -/
theorem effect {wanted : Nat → Prop} (h : Arranged footer map content)
    (effect : Effect wanted map content map' content') : Arranged footer map' content' := by
  have hsized := h.wellSized.effect effect
  cases effect with
  | @stored block start cached place =>
    have hbytes := h.wellSized.size_bytes
    have hwrite := h.write_region place (Nat.le_refl _) (by
      rw [hbytes, BlockHeader.regionSectors_eq]
      omega) (Bytes.ofByteArray map.bitmap.bytes)
    exact hwrite.withBitmap hsized
  | loaded sought inside => exact h.withBitmap hsized
  | begun missing zeroed whole => exact h.begun zeroed whole
  | extended missing extended => exact h.extended extended
  | @allocated block start content' missing extended =>
    by_cases recordable : start < 2 ^ 32 - 1
    · exact h.allocated extended missing.inside recordable
    · have far := Nat.not_lt.mp recordable
      rw [extended.allocated_eq missing far]
      exact h.lost extended missing.inside missing.vacant far
  | @written block start i bitmap bytes asked cached place inside hasSet =>
    obtain ⟨hstart, hend⟩ := map.dataPlace_in_region start inside (Nat.le_refl 512)
    exact (h.write_region place hstart hend bytes).withBitmap hsized
  | @stray block start i content' bitmap bytes missing extended far inside hasSet =>
    obtain ⟨hstart, hend⟩ := map.dataPlace_in_region start inside (Nat.le_refl 512)
    have hclear := (h.appended extended).clear h.onDisk (map.header.regionSectors * 512)
    have hsize := (h.extended extended).onDisk.size_withEntry missing.inside start
    have hfiller := map.header.regionSectors_le_allocationBytes
    rw [extended.size_eq] at hsize
    have hlost := h.lost extended missing.inside missing.vacant far
    exact (hlost.write_clear (hclear.mono hstart hend) (by omega) bytes).withBitmap hsized

end Arranged

end VirtualDisk
