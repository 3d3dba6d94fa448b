import VirtualDisk.Blocks.Transfer
import VirtualDisk.Proofs.Blocks.Effects

/-!
# Attempts to append a block

How an attempt to append a block ends depends on the end of the storage and on the entry of the
block only. `Refusal` lists why nothing is appended. All causes but one are found before anything
is written. That a new block would lie too far behind is found late: by then the last sector of the
storage has been filled up with zeros, over the footer that was there.

`allocate_places` says what an allocation does on any terms that permit its requests, be the storage
that of an image or not. All that is said about allocations elsewhere comes from it.
-/

namespace VirtualDisk

open Storage

/-- The number of the sector at which the next block begins: the first whole one behind everything
but the footer. -/
def Storage.Content.nextSector (content : Content) : Nat := (content.front + 511) / 512

theorem Storage.Content.front_le_nextSector (content : Content) :
    content.front ≤ content.nextSector * 512 := by
  unfold nextSector
  omega

theorem Storage.Content.nextSector_lt (content : Content) :
    content.nextSector * 512 < content.front + 512 := by
  unfold nextSector
  omega

/-- Why a block is not appended. -/
inductive Refusal (table : BlockTable) (content : Content) (block : Nat) : Error → Prop where
  | outside (beyond : table.size ≤ block) : Refusal table content block (.corrupt .blockOutOfRange)
  | stored {start : Nat} (place : table.place? block = some start) :
      Refusal table content block (.corrupt .alreadyAllocated)
  | noFooter (missing : ¬ (512 ≤ content.size ∧
        Footer.hasCookie content.trailer.toByteArray = true)) :
      Refusal table content block (.corrupt .footerMissing)
  | overflow (beyond : 2 ^ 64 ≤ content.nextSector * 512) :
      Refusal table content block .offsetOverflow
  | tooFar (beyond : 2 ^ 32 ≤ content.nextSector) :
      Refusal table content block (.unsupported .blockOffset)

/-- What a refusal leaves of the content. The last sector is filled up before the number of the next
one is looked at. -/
def Storage.Content.LeftBy (content : Content) (e : Error) (content' : Content) : Prop :=
  if e = .unsupported .blockOffset ∧ content.front % 512 ≠ 0 then
    content.Zeroed content' content.front (content.nextSector * 512 - content.front)
  else content' = content

/-- A block was appended at the next sector, and its entry was written. -/
structure Placed (map : BlockMap) (block : Nat) (content : Content) (start : Nat)
    (table : BlockTable) (content' : Content) : Prop where
  inside : block < map.table.size
  vacant : map.table.place? block = none
  start_eq : start = content.nextSector
  table_eq : table = map.table.withEntry block (UInt32.ofNat start)
  appended : ∃ current, Extended map.header content start current ∧
    content' = current.withEntry map.table block start

theorem Storage.Content.leftBy_of_ne {content : Content} {e : Error}
    (h : e ≠ .unsupported .blockOffset) : content.LeftBy e content := by
  rw [LeftBy, if_neg fun hfar => h hfar.1]

variable {ι : Type} {map : BlockMap} {content : Content} {block start : Nat} {table : BlockTable}
variable {content' : Content}

/-- The entry says where the block is, unless its sector has the number that stands for none. -/
theorem Placed.sector?_eq (h : Placed map block content start table content') :
    table.sector? block = .ok (if start = 2 ^ 32 - 1 then none else some start) := by
  obtain ⟨current, extended, -⟩ := h.appended
  have hlt := extended.start_lt
  have hinside : block < (map.table.withEntry block (UInt32.ofNat start)).size := by
    rw [BlockTable.withEntry_size]
    exact h.inside
  rw [h.table_eq, BlockTable.sector?_eq hinside]
  by_cases hlast : start = 2 ^ 32 - 1
  · have hsame : map.table.withEntry block (UInt32.ofNat (2 ^ 32 - 1)) = map.table :=
      BlockTable.withEntry_unallocated h.inside h.vacant
    rw [if_pos hlast, hlast, hsame, h.vacant]
  · rw [if_neg hlast, BlockTable.place?_withEntry_ofNat h.inside (by omega)]

theorem BlockHeader.end_lt (header : BlockHeader) (near : start < 2 ^ 32) :
    start * 512 + header.allocationBytes + 512 < 2 ^ 64 := by
  have hbytes := header.allocationBytes_lt
  omega

section Appending

variable {S : Setting ι}

/-- The requests of an attempt to append a block may be issued. -/
structure Appending (S : Setting ι) (map : BlockMap) (content : Content) (block : Nat) : Prop where
  length : S.permits .length content
  read : ∀ position, S.permits (.read position 512) content
  zeros : ∀ n size, content.front + n + size < 2 ^ 64 →
    S.PermitsZeros content content.front n size
  trailer : ∀ start n current, content.Zeroed current content.front n →
    content.front + n = start * 512 + map.header.allocationBytes →
      Extended map.header content start
        (current.write (start * 512 + map.header.allocationBytes) content.trailer) →
        S.permits (.write (start * 512 + map.header.allocationBytes) content.trailer.toByteArray)
          current
  entry : ∀ start current, Extended map.header content start current →
    S.permits (.write (map.table.offset + block * 4)
      (Bytes.ofNumber 4 (UInt32.ofNat start).toNat).toByteArray) current

/-- What a failed request leaves of the content: zeros, up to a whole sector, or all of a block
but its entry. -/
inductive Interrupted (header : BlockHeader) (content content' : Content) : Prop where
  | begun {n : Nat} (zeroed : content.Zeroed content' content.front n)
      (whole : n = 0 ∨ (content.front + n) % 512 = 0) : Interrupted header content content'
  | extended {start : Nat} (extended : Extended header content start content') :
      Interrupted header content content'

theorem Interrupted.refl (header : BlockHeader) (content : Content) :
    Interrupted header content content :=
  .begun (.refl content.front_le) (.inl rfl)

theorem Storage.Content.LeftBy.interrupted {e : Error} (h : content.LeftBy e content')
    (header : BlockHeader) : Interrupted header content content' := by
  have hfront := content.front_le_nextSector
  unfold Content.LeftBy at h
  split at h
  · exact .begun h (.inr (by omega))
  · rw [h]
    exact .refl header content

theorem Storage.Content.LeftBy.eq_of_aligned {e : Error} (h : content.LeftBy e content')
    (aligned : content.front % 512 = 0) : content' = content := by
  rwa [Content.LeftBy, if_neg fun hmisaligned => hmisaligned.2 aligned] at h

/-- No block was appended: a request failed, or the block was refused. -/
def Unplaced (S : Setting ι) (map : BlockMap) (block : Nat) (content : Content) (e : Error)
    (content' : Content) : Prop :=
  S.mayFail ∧ Interrupted map.header content content' ∨
    Refusal map.table content block e ∧ content.LeftBy e content'

/-- Zeros are written in whole chunks, and so they end with a sector wherever they began with one.
-/
theorem Unplaced.of_chunks {n size : Nat} {e : Error} (whole : (content.front + n) % 512 = 0)
    (h : S.mayFail ∧ ∃ d, d % 65536 = 0 ∧ d ≤ size ∧
      content.Zeroed content' content.front (n + d)) :
    Unplaced S map block content e content' := by
  obtain ⟨hm, d, hd, -, zeroed⟩ := h
  exact .inl ⟨hm, .begun zeroed (.inr (by omega))⟩

namespace BlockMap

/-- Where the storage does not end with a footer, the first sector is looked at. -/
def findCopy (disk : ι) (size : Nat) : Access ι (Nat × Sector) := do
  let first ← Access.readWithin disk 0 512 .footerMissing
  if Footer.hasCookie first.toByteArray then return (size, first)
  throw (.corrupt .footerMissing)

theorem findCopy_finds (A : Appending S map content block) (hend : ¬ content.EndsLikeFooter) :
    (findCopy S.disk content.size).Ensures S
      (fun found content' => content' = content ∧ found = (content.front, content.trailer) ∧
        512 ≤ content.size ∧ Footer.hasCookie content.trailer.toByteArray = true)
      (fun e content' => Unplaced S map block content e content') content := by
  have hrefused : ¬ (512 ≤ content.size ∧
      Footer.hasCookie content.trailer.toByteArray = true) →
      Unplaced S map block content (.corrupt .footerMissing) content :=
    fun hnone => .inr ⟨.noFooter hnone, Content.leftBy_of_ne (by decide)⟩
  have htrailer : content.trailer = content.read 0 512 := by rw [Content.trailer, if_neg hend]
  rw [findCopy, Access.ensures_bind]
  refine .readWithin_or (by decide) (A.read 0) (fun hroom => ?_)
    (fun hshort => hrefused fun hfound => absurd hfound.1 (Nat.not_le.mpr hshort))
    (fun hm _ => .inl ⟨hm, .refl map.header content⟩)
  split
  · next hcookie =>
    rw [Access.ensures_pure, Content.front, if_neg hend, htrailer]
    exact fun _ => ⟨rfl, rfl, hroom, hcookie⟩
  · next hcookie =>
    rw [Access.ensures_throw]
    exact fun _ => hrefused fun hfound => hcookie (htrailer ▸ hfound.2)

theorem findEnd_finds (A : Appending S map content block) (hsize : content.size < 2 ^ 64) :
    (findEnd S.disk).Ensures S
      (fun found content' => content' = content ∧ found = (content.front, content.trailer) ∧
        512 ≤ content.size ∧ Footer.hasCookie content.trailer.toByteArray = true)
      (fun e content' => Unplaced S map block content e content') content := by
  have hfailed : S.mayFail → ∀ e, Unplaced S map block content e content :=
    fun hm _ => .inl ⟨hm, .refl map.header content⟩
  simp only [findEnd, Access.ensures_bind]
  refine .length A.length ?_ hfailed
  split
  · next hroom =>
    rw [Access.ensures_bind]
    refine .read (by omega) (by omega) (A.read _) ?_ hfailed
    split
    · next hcookie =>
      have hend : content.EndsLikeFooter := ⟨hroom, hcookie⟩
      rw [Access.ensures_pure, Content.front, Content.trailer, if_pos hend, if_pos hend]
      exact fun _ => ⟨rfl, rfl, hroom, hcookie⟩
    · next hcookie => exact findCopy_finds A fun hend => hcookie hend.2
  · next hroom => exact findCopy_finds A fun hend => hroom hend.1

theorem padEnd_fills (A : Appending S map content block) (hsize : content.size < 2 ^ 64) :
    (padEnd S.disk content.front).Ensures S
      (fun next content' => next = content.nextSector * 512 ∧ next < 2 ^ 64 ∧
        content.Zeroed content' content.front (next - content.front) ∧
        (content.front % 512 = 0 → content' = content))
      (fun e content' => Unplaced S map block content e content') content := by
  have hfront := content.front_le
  have hnext : content.nextSector * 512 = (content.front + 511) / 512 * 512 := rfl
  unfold padEnd
  split
  · next haligned =>
    rw [Access.ensures_pure]
    have hsame : content.front = content.nextSector * 512 := by omega
    exact fun _ => ⟨hsame, by omega, by rw [Nat.sub_self]; exact .refl hfront, fun _ => rfl⟩
  · next hmisaligned =>
    rw [Access.ensures_bind]
    by_cases hfits : content.nextSector * 512 < 2 ^ 64
    · have halign : Sector.align content.front = .ok (content.nextSector * 512) :=
        Sector.align_eq (by omega)
      rw [halign, Access.ensures_liftExcept_ok]
      intro _
      refine (Access.zeroFill_ensures (n := 0) (A.zeros 0 _ (by omega)) (.refl hfront)
        (by omega)).mono ?_ ?_
      · rintro next content' _ ⟨rfl, zeroed⟩
        rw [Nat.zero_add] at zeroed ⊢
        have hend : content.front + (content.nextSector * 512 - content.front) =
            content.nextSector * 512 := by omega
        rw [hend]
        exact ⟨rfl, hfits, zeroed, fun haligned => absurd haligned hmisaligned⟩
      · -- Less than a chunk is written, so a failure leaves none of it.
        rintro e content' _ ⟨hm, d, hd, hle, zeroed⟩
        exact .inl ⟨hm, .begun zeroed (.inl (by omega))⟩
    · have halign : Sector.align content.front = .error .offsetOverflow := by
        rw [Sector.align, if_neg hmisaligned, if_neg (by omega)]
      rw [halign, Access.ensures_liftExcept_error]
      exact fun _ => .inr ⟨.overflow (Nat.not_lt.mp hfits), Content.leftBy_of_ne (by decide)⟩

theorem setEntry_records (A : Appending S map content block) (inside : block < map.table.size)
    (fits : map.table.offset + map.table.size * 4 < 2 ^ 64) {current : Content}
    (extended : Extended map.header content start current) :
    (map.table.setEntry S.disk block (UInt32.ofNat start)).Ensures S
      (fun table content' => table = map.table.withEntry block (UInt32.ofNat start) ∧
        content' = current.withEntry map.table block start)
      (fun e content' => Unplaced S map block content e content') current := by
  have hposition : ¬ 2 ^ 64 ≤ map.table.offset + block * 4 := by omega
  simp only [BlockTable.setEntry, if_neg hposition,
    BlockTable.entry_eq (show block < map.table.entries.size from inside), Access.ensures_bind,
    Access.ensures_liftExcept_ok]
  intro _
  refine .write (by omega) (A.entry start current extended) (fun _ => ?_)
    (fun hm _ => .inl ⟨hm, .extended extended⟩)
  rw [Access.ensures_pure]
  exact fun _ => ⟨rfl, rfl⟩

/-- The last part of an allocation: region, filler and footer are appended, and the entry of the
block is written. -/
def appendBlock (disk : ι) (map : BlockMap) (block start : Nat) (footer : Sector) :
    Access ι (Nat × BlockTable) := do
  let position ← Access.zeroSectors disk (start * 512) map.header.regionSectors
  let position ← Access.zeroSectors disk position fillerSectors
  Access.write disk position footer
  let table ← map.table.setEntry disk block (UInt32.ofNat start)
  return (start, table)

theorem appendBlock_extends (A : Appending S map content block) (inside : block < map.table.size)
    (hmap : map.table.offset + map.table.size * 4 < 2 ^ 64) {current : Content}
    (near : start < 2 ^ 32) (front_le : content.front ≤ start * 512)
    (lt_front : start * 512 < content.front + 512)
    (hasCookie : Footer.hasCookie content.trailer.toByteArray = true)
    (zeroed : content.Zeroed current content.front (start * 512 - content.front)) :
    (appendBlock S.disk map block start content.trailer).Ensures S
      (fun result content' =>
        result = (start, map.table.withEntry block (UInt32.ofNat start)) ∧
          ∃ current, Extended map.header content start current ∧
            content' = current.withEntry map.table block start)
      (fun e content' => Unplaced S map block content e content') current := by
  have hlast := map.header.end_lt near
  have hsmall := map.header.regionSectors_lt
  obtain ⟨n, hn⟩ : ∃ n, start * 512 = content.front + n :=
    ⟨_, (Nat.add_sub_cancel' front_le).symm⟩
  rw [hn, Nat.add_sub_cancel_left] at zeroed
  have haligned : (content.front + n) % 512 = 0 := by omega
  have hfirst : content.front + n + map.header.regionSectors * 512 < 2 ^ 64 := by omega
  have hregion : (content.front + (n + map.header.regionSectors * 512)) % 512 = 0 := by
    rw [← Nat.add_assoc, Nat.add_mul_mod_self_right, haligned]
  have hend : content.front + (n + map.header.regionSectors * 512 + fillerSectors * 512) =
      start * 512 + map.header.allocationBytes := by
    rw [BlockHeader.allocationBytes, Nat.add_mul, hn, Nat.add_assoc n, Nat.add_assoc]
  have hsecond : content.front + (n + map.header.regionSectors * 512) + fillerSectors * 512 <
      2 ^ 64 := by
    rw [Nat.add_assoc, hend]
    exact Nat.lt_of_le_of_lt (Nat.le_add_right _ 512) hlast
  have hwhole : (content.front + (n + map.header.regionSectors * 512 + fillerSectors * 512)) % 512 =
      0 := by
    rw [hend, Nat.add_comm, Nat.add_mul_mod_self_right]
    exact map.header.allocationBytes_aligned
  rw [appendBlock, hn]
  simp only [Access.ensures_bind]
  refine (Access.zeroSectors_ensures (A.zeros n _ hfirst) zeroed hfirst).mono ?_
    fun _ _ _ => .of_chunks haligned
  rintro next current₁ _ ⟨rfl, zeroed₁⟩
  refine (Access.zeroSectors_ensures (A.zeros _ _ hsecond) zeroed₁ hsecond).mono ?_
    fun _ _ _ => .of_chunks hregion
  rintro next current₂ _ ⟨rfl, zeroed₂⟩
  have extended := zeroed₂.extended hend near front_le lt_front hasCookie
  rw [hend]
  refine .write hlast (A.trailer start _ _ zeroed₂ hend extended) (fun _ => ?_)
    (fun hm _ => .inl ⟨hm, .begun zeroed₂ (.inr hwhole)⟩)
  refine (setEntry_records A inside hmap extended).mono_success ?_
  rintro table current₃ _ ⟨rfl, rfl⟩
  rw [Access.ensures_pure]
  exact fun _ => ⟨rfl, _, extended, rfl⟩

/-- An allocation places the block, or fails with little left behind. -/
theorem allocate_places (A : Appending S map content block)
    (hmap : map.table.offset + map.table.size * 4 < 2 ^ 64) (hsize : content.size < 2 ^ 64) :
    (allocate S.disk map block).Ensures S
      (fun result content' => Placed map block content result.1 result.2 content')
      (fun e content' => Unplaced S map block content e content') content := by
  by_cases hinside : block < map.table.size
  case neg =>
    have halloc : map.table.isAllocated block = .error (.corrupt .blockOutOfRange) := by
      rw [BlockTable.isAllocated, BlockTable.entry_eq_error (Nat.not_lt.mp hinside)]
      rfl
    simp only [allocate, halloc, Access.ensures_bind, Access.ensures_liftExcept_error]
    exact fun _ => .inr ⟨.outside (Nat.not_lt.mp hinside), Content.leftBy_of_ne (by decide)⟩
  cases place : map.table.place? block with
  | some start =>
    have halloc : map.table.isAllocated block = .ok true := by
      rw [BlockTable.isAllocated_eq hinside, place]
      rfl
    simp only [allocate, halloc, Access.ensures_bind, Access.ensures_liftExcept_ok, if_pos,
      Access.ensures_throw]
    exact fun _ _ => .inr ⟨.stored place, Content.leftBy_of_ne (by decide)⟩
  | none =>
  have halloc : map.table.isAllocated block = .ok false := by
    rw [BlockTable.isAllocated_eq hinside, place]
    rfl
  simp only [allocate, halloc, Access.ensures_bind, Access.ensures_liftExcept_ok]
  intro _
  rw [if_neg Bool.false_ne_true, Access.ensures_bind]
  refine (findEnd_finds A hsize).mono_success ?_
  rintro ⟨position, bytes⟩ content' _ ⟨rfl, hfound, hroom, hcookie⟩
  obtain ⟨rfl, rfl⟩ := Prod.mk.inj hfound
  rw [Access.ensures_bind]
  refine (padEnd_fills A hsize).mono_success ?_
  rintro next current₀ _ ⟨rfl, hnext, zeroed₀, hsame⟩
  rw [Nat.mul_div_cancel _ (by decide)]
  split
  · next hfar =>
    simp only [Access.ensures_bind, Access.ensures_throw]
    refine fun _ => .inr ⟨.tooFar hfar, ?_⟩
    by_cases haligned : content'.front % 512 = 0
    · rw [Content.LeftBy, if_neg fun hmisaligned => hmisaligned.2 haligned]
      exact hsame haligned
    · rw [Content.LeftBy, if_pos ⟨rfl, haligned⟩]
      exact zeroed₀
  next hnear =>
  refine (appendBlock_extends A hinside hmap (Nat.not_le.mp hnear) content'.front_le_nextSector
    content'.nextSector_lt hcookie zeroed₀).mono_success ?_
  rintro result content'' _ ⟨rfl, current, extended, rfl⟩
  exact ⟨hinside, place, rfl, rfl, current, extended, rfl⟩

end BlockMap

end Appending

theorem Appending.free (disk : ι) (mayFail : Prop) (within : Content → Prop) (map : BlockMap)
    (content : Content) (block : Nat) :
    Appending (.free disk mayFail within) map content block where
  length := trivial
  read _ := trivial
  zeros _ _ _ _ _ _ _ _ _ _ _ _ := trivial
  trailer _ _ _ _ _ _ := trivial
  entry _ _ _ := trivial

namespace BlockMap

/-- An attempt places the block or is refused. -/
theorem allocate_attempt (disk : ι) (map : BlockMap) (block : Nat)
    (hmap : map.table.offset + map.table.size * 4 < 2 ^ 64) (hsize : content.size < 2 ^ 64) :
    (allocate disk map block).Ensures (.free disk False fun _ => True)
      (fun result content' => Placed map block content result.1 result.2 content')
      (fun e content' => Refusal map.table content block e ∧ content.LeftBy e content')
      content :=
  (allocate_places (.free disk False _ map content block) hmap hsize).mono
    (fun _ _ _ placed => placed)
    fun _ _ _ unplaced => unplaced.resolve_left fun failed => failed.1

/-- A block is where it was, or it is placed. If it is refused, the map stays as it was. -/
theorem ensureAllocated_attempt (disk : ι) (map : BlockMap) (block : Nat)
    (hmap : map.table.offset + map.table.size * 4 < 2 ^ 64) (hsize : content.size < 2 ^ 64) :
    (ensureAllocated disk block).Ensures (.free disk False fun _ => True)
      (fun start map' content' =>
        map.table.place? block = some start ∧ map' = map ∧ content' = content ∨
          ∃ table, Placed map block content start table content' ∧ map' = { map with table })
      (fun e map' content' => map' = map ∧ Refusal map.table content block e ∧
        content.LeftBy e content') map content := by
  simp only [ensureAllocated, Engine.ensures_bind, Engine.ensures_get]
  intro _
  by_cases hinside : block < map.table.size
  case neg =>
    have hsector : map.table.sector? block = .error (.corrupt .blockOutOfRange) := by
      rw [BlockTable.sector?, BlockTable.entry_eq_error (Nat.not_lt.mp hinside)]
      rfl
    simp only [hsector, Engine.ensures_liftExcept_error]
    exact fun _ => ⟨trivial, .outside (Nat.not_lt.mp hinside), Content.leftBy_of_ne (by decide)⟩
  simp only [BlockTable.sector?_eq hinside, Engine.ensures_liftExcept_ok]
  intro _
  split
  · next start place =>
    rw [Engine.ensures_pure]
    exact fun _ => .inl ⟨place, rfl, rfl⟩
  · simp only [Engine.ensures_bind, Engine.ensures_liftAccess, Engine.ensures_set,
      Engine.ensures_pure]
    refine (allocate_attempt disk map block hmap hsize).mono ?_ fun _ _ _ h => ⟨trivial, h⟩
    exact fun result content' _ placed _ _ => .inr ⟨result.2, placed, rfl⟩

end BlockMap

end VirtualDisk
