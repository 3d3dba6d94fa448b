import VirtualDisk.Proofs.ImageSet.Resolving

/-!
# Calls on a set

What each of the three calls does in a sound state. A read shows the view and a flush changes
nothing; both leave every storage as it is. A write is recorded for the one image that it is made
to, and changes no other storage; nothing is passed on to a parent.
-/

namespace VirtualDisk

open Storage

namespace SetState

variable {ι : Type} {state : SetState ι} {member : Member ι} {id offset count : Nat}
variable {buffer : ByteArray}

theorem shows_view {buffer' : ByteArray} (hmember : state.set.member id = .ok member)
    (hkind : member.image.diskType ≠ .differencing)
    (h : Buffer.Shows (member.image.own (state.contents member.image.disk) (state.written id))
      offset 0 (member.image.transfer offset count) buffer buffer') :
    Buffer.Shows (state.view id) offset 0 (member.image.transfer offset count) buffer buffer' := by
  refine ⟨h.size_eq, fun k hk => ?_, h.rest⟩
  have inside : offset + k < member.image.totalSectors := by
    change k < min count (member.image.totalSectors - offset) at hk
    omega
  rw [h.slot_eq k hk, view_own hmember inside fun hdifferencing => absurd hdifferencing hkind]

variable [DecidableEq ι]

/-- The sectors are read one after the other. The induction is on their number; the state changes
from each to the next, the view does not. -/
theorem Sound.readSectors_succeeds (h : Sound state) (hmember : state.set.member id = .ok member)
    {sector slot : Nat} (hroom : (slot + count) * 512 ≤ buffer.size) :
    (ImageSet.readSectors id count sector slot buffer).Succeeds
      (fun buffer' set contents => Buffer.Shows (state.view id) sector slot count buffer buffer' ∧
        OnlyRead state ⟨set, contents, state.written⟩) state.set state.contents := by
  induction count generalizing state member sector slot buffer with
  | zero => exact Engine.succeeds_pure ⟨.nothing _ _ _ _, .refl h⟩
  | succ count ih =>
    have hslot : slot * 512 + 512 ≤ buffer.size := by lia
    apply Engine.succeeds_bind
    refine (h.readSector_succeeds hmember sector).mono ?_
    rintro bytes set contents ⟨rfl, honly⟩
    obtain ⟨buffer', hfill, hfilled⟩ := Buffer.exists_fill (state.view id sector) hslot
    apply Engine.succeeds_liftExcept_bind hfill
    obtain ⟨image, hmember', -⟩ := honly.sameFooters.members id member hmember
    have hroom' : (slot + 1 + count) * 512 ≤ buffer'.size := by
      rw [hfilled.size_eq]
      lia
    refine (ih honly.sound hmember' hroom').mono ?_
    rintro buffer'' set' contents' ⟨hshows, honly'⟩
    rw [honly.view_eq] at hshows
    exact ⟨.cons hfilled hslot hshows, honly.trans honly'⟩

/-- A member was read, through its chain if it has one. -/
def ReadAs (state : SetState ι) (id : Nat) (member : Member ι) (offset count : Nat)
    (buffer : ByteArray) (result : ReadResult) : Prop :=
  result.truncated = count - member.image.transfer offset count ∧
    Buffer.Shows (state.view id) offset 0 (member.image.transfer offset count) buffer result.buffer

theorem Sound.readChain_succeeds (h : Sound state) (hmember : state.set.member id = .ok member)
    (holds : Buffer.Holds buffer.size count) (offset : Nat) :
    (ImageSet.readChain id offset count buffer).Succeeds
      (fun result set contents => state.ReadAs id member offset count buffer result ∧
        OnlyRead state ⟨set, contents, state.written⟩) state.set state.contents := by
  apply Engine.succeeds_liftExcept_bind (Buffer.check_eq holds)
  apply Engine.succeeds_get_bind
  apply Engine.succeeds_liftExcept_bind (ImageSet.image_eq_ok hmember)
  apply Engine.succeeds_bind
  have hroom : (0 + member.image.transfer offset count) * 512 ≤ buffer.size :=
    member.image.transfer_slots offset holds
  refine (h.readSectors_succeeds hmember hroom).mono ?_
  rintro buffer' set contents ⟨hshows, honly⟩
  exact Engine.succeeds_pure ⟨⟨rfl, hshows⟩, honly⟩

theorem Sound.read_succeeds (h : Sound state) (hmember : state.set.member id = .ok member)
    (holds : Buffer.Holds buffer.size count) (offset : Nat) :
    (ImageSet.read id offset count buffer).Succeeds
      (fun result set contents => state.ReadAs id member offset count buffer result ∧
        OnlyRead state ⟨set, contents, state.written⟩) state.set state.contents := by
  apply Engine.succeeds_get_bind
  apply Engine.succeeds_liftExcept_bind (ImageSet.image_eq_ok hmember)
  split
  · exact h.readChain_succeeds hmember holds offset
  · next hkind =>
    apply h.quiet_succeeds hmember (Image.grows_read offset count buffer)
    refine ((h.holdsWritten id member hmember).read_ensures (free_plain _) rfl hkind offset count
      buffer).mono ?_ fun _ _ _ _ hfailed => hfailed holds
    rintro result image content _ ⟨⟨htruncated, hshows, hfooter, hheld⟩, hcontent⟩
    exact ⟨⟨⟨htruncated, shows_view hmember hkind hshows⟩, hfooter, hheld⟩, hcontent⟩

theorem Sound.flushFrom_succeeds (h : Sound state) {first : Nat}
    (hsize : first + count ≤ state.set.size) :
    (ImageSet.flushFrom count first).Succeeds
      (fun _ set contents => OnlyRead state ⟨set, contents, state.written⟩) state.set
      state.contents := by
  induction count generalizing state first with
  | zero => exact Engine.succeeds_pure (.refl h)
  | succ count ih =>
    obtain ⟨member, hmember⟩ := ImageSet.exists_member (show first < state.set.size by omega)
    apply Engine.succeeds_bind
    have hflush := (h.holdsWritten first member hmember).flush_ensures
      (S := plain member.image.disk) (free_plain _) rfl
    refine (h.quiet_succeeds (Q := fun _ => True) hmember Image.grows_flush
      (hflush.mono ?_ fun _ _ _ _ hfailed => hfailed)).mono ?_
    · rintro _ image content _ ⟨⟨hfooter, hheld⟩, hcontent⟩
      exact ⟨⟨trivial, hfooter, hheld⟩, hcontent⟩
    · rintro _ set contents ⟨-, honly⟩
      have hsize' : first + 1 + count ≤ set.size := by
        rw [honly.sameFooters.size_eq]
        omega
      refine (ih honly.sound hsize').mono ?_
      rintro _ set' contents' honly'
      exact honly.trans honly'

theorem Sound.flush_succeeds (h : Sound state) :
    ImageSet.flush.Succeeds
      (fun _ set contents => OnlyRead state ⟨set, contents, state.written⟩) state.set
      state.contents := by
  apply Engine.succeeds_get_bind
  exact h.flushFrom_succeeds (Nat.le_of_eq (Nat.zero_add _))

omit [DecidableEq ι] in
/-- After a write the member shows the buffer in the place of the sectors that were transferred. -/
theorem view_written {state' : SetState ι} (hmember : state.set.member id = .ok member)
    (hfooter : state.set.SameFooters state'.set)
    (hwritten : state'.written = Function.update state.written id
      (Buffer.record buffer offset (member.image.transfer offset count) (state.written id)))
    (hframe : ∀ other member', other ≠ id → state.set.member other = .ok member' →
      state'.contents member'.image.disk = state.contents member'.image.disk)
    (hflat : member.image.diskType = .fixed →
      (state'.contents member.image.disk).flatSector =
        Buffer.over buffer offset (member.image.transfer offset count)
          (state.contents member.image.disk).flatSector) :
    state'.view id =
      Buffer.over buffer offset (member.image.transfer offset count) (state.view id) := by
  funext sector
  obtain ⟨image, hmember', himage⟩ := hfooter.members id member hmember
  by_cases hlaid : offset ≤ sector ∧ sector < offset + member.image.transfer offset count
  · have inside : sector < image.totalSectors := by
      change _ ∧ sector < offset + min count (member.image.totalSectors - offset) at hlaid
      rw [himage.totalSectors_eq]
      omega
    have hrecord : state'.written id sector = some (Buffer.slot buffer (sector - offset)) := by
      rw [hwritten, Function.update_self, Buffer.record, if_pos hlaid]
    rw [Buffer.over, if_pos hlaid, view_own hmember' inside fun _ => by rw [hrecord]; rfl,
      Image.own, hrecord]
    split
    · next hkind =>
      rw [himage.diskType] at hkind
      simp only [himage.disk, hflat hkind]
      exact if_pos hlaid
    · rfl
  · rw [Buffer.over, if_neg hlaid]
    apply view_congr hfooter
    intro other member' _ hother
    by_cases hid : other = id
    · subst hid
      rw [hmember, Except.ok.injEq] at hother
      subst hother
      constructor
      · rw [hwritten, Function.update_self, Buffer.record, if_neg hlaid]
      · intro hkind
        rw [hflat hkind, Buffer.over, if_neg hlaid]
    · constructor
      · rw [hwritten, Function.update_of_ne hid]
      · intro _
        rw [hframe other member' hid hother]

/-- A write to a member, if its storage does not become too large. -/
theorem Sound.write_succeeds (h : Sound state) (hmember : state.set.member id = .ok member)
    (holds : Buffer.Holds buffer.size count) (offset : Nat)
    (small : (((ImageSet.write id offset count buffer).runOn shelf state.set state.contents).2
      member.image.disk).size < sizeLimit) :
    (ImageSet.write id offset count buffer).Succeeds
      (fun truncated set contents => truncated = count - member.image.transfer offset count ∧
        state.set.SameFooters set ∧
        (∀ disk, disk ≠ member.image.disk → contents disk = state.contents disk) ∧
        Sound ⟨set, contents, Function.update state.written id
          (Buffer.record buffer offset (member.image.transfer offset count) (state.written id))⟩ ∧
        (member.image.diskType = .fixed → (contents member.image.disk).flatSector =
          Buffer.over buffer offset (member.image.transfer offset count)
            (state.contents member.image.disk).flatSector)) state.set state.contents := by
  apply ImageSet.onImage_succeeds hmember
  have hwrite := (h.holdsWritten id member hmember).write_ensures
    (S := Image.sound member.image.disk) (fun _ _ => trivial) rfl (fun _ hw => hw) offset count
    buffer
  have hwrite' := hwrite.mono (fun _ _ _ _ hpost => hpost) fun _ _ _ _ hfailed => hfailed holds
  refine (hwrite'.succeeds (Image.grows_write offset count buffer) ?_).mono ?_
  · intro other hle
    rw [ImageSet.write, ImageSet.runOn_onImage hmember] at small
    exact Nat.lt_of_le_of_lt hle small
  · rintro truncated image contents ⟨⟨htruncated, hfooter, hheld, hflat⟩, hframe⟩
    exact ⟨htruncated, .put hmember hfooter, hframe, h.put hmember hfooter hheld hframe, hflat⟩

end SetState

end VirtualDisk
