import VirtualDisk.Proofs.Storage.Servers
import VirtualDisk.Proofs.Image.Creation
import VirtualDisk.Proofs.Image.Operations

/-!
# Fixed images

The sectors of a fixed image lie one after the other from the beginning of the storage, and the
footer is the last sector. A transfer is a single request inside the row of sectors, so the footer
stays what it is, and the image is opened again by it.

The storage may also end before the last sector. A read succeeds if the buffer can hold the request
and the storage has all sectors that are transferred, a write if the buffer can hold the request.
-/

namespace VirtualDisk

open Storage

theorem Geometry.totalSectors_lt (g : Geometry) : g.totalSectors < 2 ^ 32 := by
  have hcylinders := g.cylinders.toNat_lt
  have hheads := g.heads.toNat_lt
  have hsectors := g.sectorsPerTrack.toNat_lt
  calc g.totalSectors
    _ ≤ 65535 * 255 * 255 :=
      Nat.mul_le_mul (Nat.mul_le_mul (by omega) (by omega)) (by omega)
    _ < 2 ^ 32 := by decide

/-- The storage of a fixed image. -/
structure Flat (footer : Footer) (content : Content) : Prop where
  kind : footer.diskType = .fixed
  tail : Footer.parse content.tail = .ok footer
  room : footer.geometry.totalSectors * 512 + 512 ≤ content.size

/-- A sector of a fixed image. -/
def Storage.Content.flatSector (content : Content) (sector : Nat) : Sector :=
  content.read (sector * 512) 512

namespace Buffer

variable {buffer buffer' : ByteArray} {content content' : Content} {offset count : Nat}

theorem Shows.of_filled (h : Filled buffer 0 (content.read (offset * 512) (count * 512)) buffer')
    (hroom : 0 + count * 512 ≤ buffer.size) :
    Shows content.flatSector offset 0 count buffer buffer' := by
  refine ⟨h.size_eq, fun k hk => ?_, fun i hi => h.outside i (by lia)⟩
  have hslot : k * 512 + 512 ≤ buffer.size := by lia
  have hslot' : k * 512 + 512 ≤ buffer'.size := by
    rw [h.size_eq]
    exact hslot
  rw [Nat.zero_add]
  refine Bytes.ext fun i hi => ?_
  have hbyte := h.inside (k * 512 + i) (by lia)
  rw [Nat.zero_add, getElem?_pos _ _ (by lia), Option.some.injEq, Content.getElem_read] at hbyte
  have hposition : offset * 512 + (k * 512 + i) = (offset + k) * 512 + i := by lia
  rw [getElem_slot hslot' hi, hbyte, Content.flatSector, Content.getElem_read, hposition]

end Buffer

variable {ι : Type} {S : Setting ι} {footer : Footer} {content content' : Content}

namespace Flat

theorem sectors_le (h : Flat footer content) :
    footer.geometry.totalSectors * 512 ≤ content.size :=
  Nat.le_trans (Nat.le_add_right _ _) h.room

/-- A fixed image stays one as long as nothing behind the row of sectors changes. -/
theorem of_sameFrom (h : Flat footer content)
    (same : content.SameFrom content' (footer.geometry.totalSectors * 512)) :
    Flat footer content' := by
  refine ⟨h.kind, ?_, ?_⟩
  · rw [same.tail_eq h.room]
    exact h.tail
  · rw [same.size_eq]
    exact h.room

end Flat

namespace Image

/-- A fixed image. -/
def flat (disk : ι) (footer : Footer) (readOnly : Bool) : Image ι where
  disk
  footer
  layout := .fixed
  readOnly

theorem findFooter_ensures_tail (readable : S.Readable)
    (tail : Footer.parse content.tail = .ok footer)
    (hroom : 512 ≤ content.size) (hfits : content.size < 2 ^ 64) :
    (findFooter S.disk content.size).Ensures S
      (fun found content' => found = footer ∧ content' = content)
      (fun _ content' => S.mayFail ∧ content' = content) content := by
  have hparse : Footer.parse (content.read (content.size - 512) 512) = .ok footer := tail
  simp only [findFooter, Access.ensures_bind]
  refine .read (by omega) (by omega) (readable.read _ _ _) ?_ (fun hm _ => ⟨hm, rfl⟩)
  rw [hparse, Access.ensures_pure]
  exact fun _ => ⟨rfl, rfl⟩

/-- A fixed image is opened by its footer. -/
theorem ofDisk_ensures_flat (readable : S.Readable) (h : Flat footer content)
    (hsize : content.size < 2 ^ 64) (readOnly : Bool) :
    (ofDisk S.disk readOnly).Ensures S
      (fun image content' => image = flat S.disk footer readOnly ∧ content' = content)
      (fun _ content' => S.mayFail ∧ content' = content) content := by
  have hroom := h.room
  simp only [ofDisk, Access.ensures_bind]
  refine .length (readable.length _) ?_ (fun hm _ => ⟨hm, rfl⟩)
  rw [if_neg (by omega), Access.ensures_bind]
  refine (findFooter_ensures_tail readable h.tail (by omega) hsize).mono_success ?_
  rintro found content' _ ⟨rfl, rfl⟩
  simp only [h.kind]
  rw [if_neg (by omega)]
  simp only [Access.ensures_bind, Access.ensures_pure]
  exact fun _ _ => ⟨rfl, trivial⟩

variable {image : Image ι} {offset count : Nat} {buffer : ByteArray}

theorem transfer_le (hsome : image.transfer offset count ≠ 0) :
    offset * 512 + image.transfer offset count * 512 ≤
      image.footer.geometry.totalSectors * 512 := by
  change offset * 512 + min count (image.footer.geometry.totalSectors - offset) * 512 ≤ _
  change min count (image.footer.geometry.totalSectors - offset) ≠ 0 at hsome
  rw [← Nat.add_mul]
  exact Nat.mul_le_mul_right 512 (by omega)

theorem transfer_le_size (image : Image ι) (offset : Nat) (h : Buffer.Holds buffer.size count) :
    0 + image.transfer offset count * 512 ≤ buffer.size := by
  have hslots := image.transfer_slots offset h
  rw [Nat.zero_add] at hslots
  exact Nat.le_trans (Nat.le_of_eq (Nat.zero_add _)) hslots

/-- The storage has all sectors that a request transfers. -/
def Inside (image : Image ι) (offset count : Nat) (content : Content) : Prop :=
  image.transfer offset count ≠ 0 → (offset + image.transfer offset count) * 512 ≤ content.size

theorem inside_of_flat (h : Flat image.footer content) (offset count : Nat) :
    image.Inside offset count content := by
  intro hsome
  rw [Nat.add_mul]
  exact Nat.le_trans (transfer_le hsome) h.sectors_le

/-- A read of a row of sectors shows them if the storage has them. -/
theorem readFlat_ensures_or (readable : S.Readable) (hdisk : image.disk = S.disk)
    (offset count : Nat) (buffer : ByteArray) (content : Content) :
    (image.readFlat offset count buffer).Ensures S
      (fun result content' => content' = content ∧
        (Buffer.Holds buffer.size count ∧ image.Inside offset count content) ∧
        result.truncated = count - image.transfer offset count ∧
        Buffer.Shows content.flatSector offset 0 (image.transfer offset count) buffer result.buffer)
      (fun e content' => content' = content ∧
        (S.mayFail ∨ ¬ Buffer.Holds buffer.size count ∨
          e = .corrupt .diskTruncated ∧ ¬ image.Inside offset count content)) content := by
  by_cases hbuffer : Buffer.Holds buffer.size count
  · have hspan : (image.span offset count).transfer = image.transfer offset count := rfl
    have htotal := image.footer.geometry.totalSectors_lt
    simp only [readFlat, Buffer.check_eq hbuffer, Access.ensures_bind, Access.ensures_liftExcept_ok,
      hspan]
    intro _
    split
    · next hnone =>
      rw [Access.ensures_pure]
      refine fun _ => ⟨rfl, ⟨hbuffer, fun hsome => absurd hnone hsome⟩, rfl, ?_⟩
      rw [hnone]
      exact .nothing _ _ _ _
    · next hsome =>
      have hend := transfer_le hsome
      have hslots := image.transfer_le_size offset hbuffer
      obtain ⟨buffer', hfill, filled⟩ := Buffer.exists_fill
        (content.read (offset * 512) (image.transfer offset count * 512)) hslots
      simp only [Sector.position_eq (show image.transfer offset count * 512 < 2 ^ 64 by omega),
        Sector.position_eq (show offset * 512 < 2 ^ 64 by omega), Access.ensures_bind,
        Access.ensures_liftExcept_ok, hdisk]
      intro _ _
      refine .readWithin_or (by omega) (readable.read _ _ _) (fun hinside => ?_) (fun hbeyond => ?_)
        (fun hm _ => ⟨rfl, .inl hm⟩)
      · rw [hfill, Access.ensures_liftExcept_ok]
        intro _
        rw [Access.ensures_pure]
        refine fun _ => ⟨rfl, ⟨hbuffer, fun _ => ?_⟩, rfl, .of_filled filled hslots⟩
        rw [Nat.add_mul]
        exact hinside
      · refine ⟨rfl, .inr (.inr ⟨rfl, fun inside => ?_⟩)⟩
        have hinside := inside hsome
        rw [Nat.add_mul] at hinside
        exact absurd hinside (Nat.not_le.mpr hbeyond)
  · obtain ⟨e, he⟩ := Buffer.check_eq_error hbuffer
    simp only [readFlat, he, Access.ensures_bind, Access.ensures_liftExcept_error]
    exact fun _ => ⟨trivial, .inr (.inl hbuffer)⟩

theorem readFlat_ensures (readable : S.Readable) (hdisk : image.disk = S.disk)
    (h : Flat image.footer content) (offset count : Nat) (buffer : ByteArray) :
    (image.readFlat offset count buffer).Ensures S
      (fun result content' => content' = content ∧
        result.truncated = count - image.transfer offset count ∧
        Buffer.Shows content.flatSector offset 0 (image.transfer offset count) buffer result.buffer)
      (fun _ content' => (Buffer.Holds buffer.size count → S.mayFail) ∧ content' = content)
      content := by
  refine (readFlat_ensures_or readable hdisk offset count buffer content).mono ?_ ?_
  · rintro result content' _ ⟨hcontent, -, hresult⟩
    exact ⟨hcontent, hresult⟩
  · rintro e content' _ ⟨hcontent, hm | hbuffer | ⟨-, hbeyond⟩⟩
    · exact ⟨fun _ => hm, hcontent⟩
    · exact ⟨fun hholds => absurd hholds hbuffer, hcontent⟩
    · exact absurd (inside_of_flat h offset count) hbeyond

/-- The content after sectors from `offset` on were given the bytes of the slots of a buffer. -/
structure RowStored (content : Content) (offset count : Nat) (buffer : ByteArray)
    (content' : Content) : Prop where
  size_eq : content'.size =
    if count = 0 then content.size else max content.size ((offset + count) * 512)
  inside : ∀ i, i < count * 512 → buffer[i]? = some (content'.byte (offset * 512 + i))
  outside : ∀ position, position < offset * 512 ∨ (offset + count) * 512 ≤ position →
    content'.byte position = content.byte position

namespace RowStored

theorem nothing (content : Content) (offset : Nat) (buffer : ByteArray) :
    RowStored content offset 0 buffer content :=
  ⟨rfl, fun i hi => absurd hi (by omega), fun _ _ => rfl⟩

theorem of_write (hsome : count ≠ 0) (hroom : 0 + count * 512 ≤ buffer.size)
    {part : Bytes (count * 512)} (hpart : Buffer.window buffer 0 (count * 512) = .ok part) :
    RowStored content offset count buffer (content.write (offset * 512) part) := by
  rw [Buffer.window, dif_pos hroom, Except.ok.injEq] at hpart
  subst hpart
  refine ⟨?_, fun i hi => ?_, fun position hposition => ?_⟩
  · rw [if_neg hsome, Content.size_write, Nat.add_mul]
  · rw [Content.byte_write, dif_pos (by omega), Bytes.getElem_slice, Bytes.getElem_ofByteArray,
      getElem?_pos buffer i (by omega)]
    congr 2
    omega
  · rw [Content.byte_write, dif_neg (by lia)]

theorem sameFrom {start : Nat} (h : RowStored content offset count buffer content')
    (hend : count ≠ 0 → (offset + count) * 512 ≤ start) (hroom : start ≤ content.size) :
    content.SameFrom content' start := by
  obtain ⟨hsize, -, houtside⟩ := h
  by_cases hsome : count = 0
  · rw [if_pos hsome] at hsize
    exact ⟨hsize, fun position _ => houtside position (by lia)⟩
  · have hend := hend hsome
    rw [if_neg hsome] at hsize
    exact ⟨by omega, fun position _ => houtside position (by omega)⟩

/-- The slots of the buffer lie over the row of sectors. -/
theorem flatSector_eq (h : RowStored content offset count buffer content')
    (hroom : count * 512 ≤ buffer.size) :
    content'.flatSector = Buffer.over buffer offset count content.flatSector := by
  funext sector
  rw [Buffer.over]
  split
  · next hinside =>
    obtain ⟨k, rfl⟩ := Nat.exists_eq_add_of_le hinside.1
    have hslot : k * 512 + 512 ≤ buffer.size := by lia
    rw [Nat.add_sub_cancel_left]
    refine Bytes.ext fun i hi => ?_
    have hbyte := h.inside (k * 512 + i) (by lia)
    rw [getElem?_pos buffer _ (by lia), Option.some.injEq] at hbyte
    have hposition : offset * 512 + (k * 512 + i) = (offset + k) * 512 + i := by lia
    rw [Buffer.getElem_slot hslot hi, hbyte, hposition, Content.flatSector, Content.getElem_read]
  · next houtside =>
    refine Bytes.ext fun i hi => ?_
    rw [Content.flatSector, Content.flatSector, Content.getElem_read, Content.getElem_read]
    exact h.outside _ (by lia)

end RowStored

theorem writeFlat_ensures_or (hpermits : ∀ request content, S.permits request content)
    (hdisk : image.disk = S.disk) (offset count : Nat) (buffer : ByteArray) (content : Content) :
    (image.writeFlat offset count buffer).Ensures S
      (fun truncated content' => Buffer.Holds buffer.size count ∧
        truncated = count - image.transfer offset count ∧
        RowStored content offset (image.transfer offset count) buffer content')
      (fun _ content' => content' = content ∧ (S.mayFail ∨ ¬ Buffer.Holds buffer.size count))
      content := by
  by_cases hbuffer : Buffer.Holds buffer.size count
  · have hspan : (image.span offset count).transfer = image.transfer offset count := rfl
    have htotal := image.footer.geometry.totalSectors_lt
    simp only [writeFlat, Buffer.check_eq hbuffer, Access.ensures_bind,
      Access.ensures_liftExcept_ok, hspan]
    intro _
    split
    · next hnone =>
      rw [Access.ensures_pure]
      refine fun _ => ⟨hbuffer, rfl, ?_⟩
      rw [hnone]
      exact .nothing ..
    · next hsome =>
      have hend := transfer_le hsome
      have hslots := image.transfer_le_size offset hbuffer
      obtain ⟨part, hpart⟩ : ∃ part, Buffer.window buffer 0 (image.transfer offset count * 512) =
          .ok part := ⟨_, dif_pos hslots⟩
      simp only [Sector.position_eq (show image.transfer offset count * 512 < 2 ^ 64 by omega),
        Sector.position_eq (show offset * 512 < 2 ^ 64 by omega), hpart, Access.ensures_bind,
        Access.ensures_liftExcept_ok, hdisk]
      intro _ _ _
      refine .write (by omega) (hpermits _ _) (fun _ => ?_) (fun hm _ => ⟨rfl, .inl hm⟩)
      rw [Access.ensures_pure]
      exact fun _ => ⟨hbuffer, rfl, .of_write hsome hslots hpart⟩
  · obtain ⟨e, he⟩ := Buffer.check_eq_error hbuffer
    simp only [writeFlat, he, Access.ensures_bind, Access.ensures_liftExcept_error]
    exact fun _ => ⟨trivial, .inr hbuffer⟩

/-- A write to a fixed image changes nothing behind the row of sectors. -/
theorem writeFlat_ensures (hpermits : ∀ request content, S.permits request content)
    (hdisk : image.disk = S.disk) (h : Flat image.footer content) (offset count : Nat)
    (buffer : ByteArray) :
    (image.writeFlat offset count buffer).Ensures S
      (fun truncated content' => truncated = count - image.transfer offset count ∧
        content.SameFrom content' (image.footer.geometry.totalSectors * 512) ∧
        content'.flatSector =
          Buffer.over buffer offset (image.transfer offset count) content.flatSector)
      (fun _ content' => (Buffer.Holds buffer.size count → S.mayFail) ∧ content' = content)
      content := by
  refine (writeFlat_ensures_or hpermits hdisk offset count buffer content).mono ?_ ?_
  · rintro truncated content' _ ⟨hbuffer, htruncated, stored⟩
    have hslots := image.transfer_le_size offset hbuffer
    rw [Nat.zero_add] at hslots
    refine ⟨htruncated, stored.sameFrom (fun hsome => ?_) h.sectors_le, stored.flatSector_eq hslots⟩
    rw [Nat.add_mul]
    exact transfer_le hsome
  · rintro e content' _ ⟨hcontent, hm | hbuffer⟩
    · exact ⟨fun _ => hm, hcontent⟩
    · exact ⟨fun hholds => absurd hholds hbuffer, hcontent⟩

/-- A new fixed image, all of whose sectors are zeros. -/
structure NewFlat (disk : ι) (image : Image ι) (content : Content) : Prop where
  eq_flat : image = flat disk image.footer false
  stored : Flat image.footer content
  size_lt : content.size < 2 ^ 64
  blank : ∀ sector, sector < image.totalSectors → content.flatSector sector = Bytes.zero 512

theorem flatSector_blank (content : Content) {size n sector : Nat} (data : Bytes n)
    (hend : sector * 512 + 512 ≤ size) :
    (((content.resize 0).resize size).write size data).flatSector sector = Bytes.zero 512 := by
  rw [Content.flatSector, Content.read_write_of_disjoint _ _ (.inl hend)]
  refine Bytes.ext fun i hi => ?_
  rw [Content.getElem_read, Content.byte_resize, if_pos (by omega), Content.byte_resize,
    if_neg (Nat.not_lt_zero _), Bytes.getElem_zero]

/-- A fixed image is created if the options have a geometry and there is room for the footer. -/
theorem createFixed_ensures (hpermits : ∀ request content, S.permits request content)
    (options : CreateOptions) (content : Content) :
    (createFixed S.disk options).Ensures S
      (fun image content' => NewFlat S.disk image content')
      (fun _ content' => S.Forgoes (∃ geometry, options.checkedGeometry = .ok geometry)
        (options.size.toNat + 512 < 2 ^ 64) content content') content := by
  rw [createFixed, Access.ensures_bind]
  cases hgeometry : options.checkedGeometry with
  | error e =>
    rw [Access.ensures_liftExcept_error]
    exact fun _ => .inr (.inl ⟨rfl, fun ⟨_, hok⟩ => nomatch hok⟩)
  | ok geometry =>
    obtain ⟨hsize, hle, -⟩ := CreateOptions.of_checkedGeometry hgeometry
    obtain ⟨footer, hbuild, hraw, hparse, readAs⟩ := Footer.build_eq
      (options.footerFields 0xffffffffffffffff options.size geometry .fixed) hsize
    rw [← hraw] at hparse
    simp only [hbuild, Access.ensures_bind, Access.ensures_liftExcept_ok]
    intro _ _
    refine .resize (hpermits _ _) (fun _ => ?_) fun hm _ => .inl hm
    refine .resize (hpermits _ _) (fun _ => ?_) fun hm _ => .inl hm
    by_cases hfits : options.size.toNat + 512 < 2 ^ 64
    · refine .write hfits (hpermits _ _) (fun _ => ?_) fun hm _ => .inl hm
      have hsize : (((content.resize 0).resize options.size.toNat).write options.size.toNat
          footer.raw).size = options.size.toNat + 512 := by
        rw [Content.size_write, Content.size_resize]
        omega
      have hsectors : footer.geometry.totalSectors * 512 ≤ options.size.toNat := by
        rw [readAs.geometry]
        exact Nat.mul_le_of_le_div _ _ _ hle
      have hflat : Flat footer (((content.resize 0).resize options.size.toNat).write
          options.size.toNat footer.raw) := by
        refine ⟨readAs.diskType, ?_, ?_⟩
        · rw [Content.tail, hsize, Nat.add_sub_cancel, Content.read_write_same]
          exact hparse
        · rw [hsize]
          exact Nat.add_le_add_right hsectors 512
      refine (ofDisk_ensures_flat ⟨fun _ => hpermits _ _, fun _ _ _ => hpermits _ _⟩ hflat
        (by omega) false).mono ?_ fun _ _ _ hfailed => .inl hfailed.1
      rintro image content' _ ⟨rfl, rfl⟩
      refine ⟨rfl, hflat, by omega, fun sector hsector => flatSector_blank content _ ?_⟩
      have hend := Nat.mul_le_mul_right 512 (Nat.succ_le_of_lt hsector)
      rw [Nat.succ_mul] at hend
      exact Nat.le_trans hend hsectors
    · -- The footer would end behind the last position.
      have hserve : ∀ content : Content, Medium.memory.serve
          (.write options.size.toNat footer.raw.toByteArray) content =
            (.error .offsetOverflow, content) := by
        intro content
        simp only [Medium.serve, Medium.write, footer.raw.size_toByteArray,
          if_pos (Nat.not_lt.mp hfits)]
        rfl
      exact .ask (hserve _) (hpermits _ _) (fun _ _ hok => by cases hok)
        (fun _ _ _ => .inr (.inr hfits)) fun hm _ => .inl hm

theorem newFlat_of_createFixed {disk : ι} {options : CreateOptions} {prior content : Content}
    {image : Image ι}
    (created : (createFixed disk options).runOn sole prior = (.ok image, content)) :
    NewFlat disk image content := by
  have hpost := (createFixed_ensures (S := Setting.free disk False fun _ => True)
    (fun _ _ => trivial) options prior).runOn_sole fun _ => trivial
  rw [Setting.disk_free, created] at hpost
  exact hpost

theorem exists_createFixed {options : CreateOptions} {geometry : Geometry}
    (checked : options.checkedGeometry = .ok geometry) (hroom : options.size.toNat + 512 < 2 ^ 64)
    (disk : ι) (prior : Content) :
    ∃ image content, (createFixed disk options).runOn sole prior = (.ok image, content) ∧
      NewFlat disk image content :=
  (createFixed_ensures (S := Setting.free disk False fun _ => True) (fun _ _ => trivial) options
    prior).runOn_sole_ok (fun _ => trivial) fun _ _ hfailed =>
      hfailed.mayFail ⟨geometry, checked⟩ hroom

end Image

end VirtualDisk
