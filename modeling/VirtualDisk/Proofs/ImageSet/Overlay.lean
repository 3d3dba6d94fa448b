import VirtualDisk.Proofs.ImageSet.Assembling
import VirtualDisk.Proofs.ImageSet.Calls

/-!
# Differencing images overlay their parents

A set is put together from images that were made on storages of their own, and then used in any
way. `Overlays` says what comes of the calls one after the other: none of them fails, every read
of a member shows its view, and no storage changes but that of the image that is written. It holds
of every set that was put together, for chains of any length and any number of children of one
parent, as long as no storage becomes too large.
-/

namespace VirtualDisk

open Storage

variable {ι : Type}

/-- One call on a set. -/
inductive SetOperation where
  | read (id offset count : Nat) (buffer : ByteArray)
  | write (id offset count : Nat) (buffer : ByteArray)
  | flush

/-- The number of sectors of a member. -/
def SetState.total (state : SetState ι) (id : Nat) : Nat :=
  match state.set.image id with
  | .ok image => image.totalSectors
  | .error _ => 0

theorem SetState.total_eq {state : SetState ι} {member : Member ι} {id : Nat}
    (hmember : state.set.member id = .ok member) :
    state.total id = member.image.totalSectors := by
  rw [total, ImageSet.image_eq_ok hmember]

namespace SetOperation

/-- The call. -/
def engine : SetOperation → Engine ι (ImageSet ι) Answer
  | read id offset count buffer => return .shown (← ImageSet.read id offset count buffer)
  | write id offset count buffer => return .written (← ImageSet.write id offset count buffer)
  | flush => do
    ImageSet.flush
    return .done

/-- The set has the member, and the buffer can hold the request. -/
def Valid (size : Nat) : SetOperation → Prop
  | read id _ count buffer => id < size ∧ Buffer.Holds buffer.size count
  | write id _ count buffer => id < size ∧ Buffer.Holds buffer.size count
  | flush => True

/-- The call returns what it should. -/
def Answered (state : SetState ι) : SetOperation → Answer → Prop
  | read id offset count buffer, .shown result =>
    result.truncated = count - min count (state.total id - offset) ∧
      Buffer.Shows (state.view id) offset 0 (min count (state.total id - offset)) buffer
        result.buffer
  | write id offset count _, .written truncated =>
    truncated = count - min count (state.total id - offset)
  | flush, .done => True
  | _, _ => False

/-- What was written to the members last, after the call. -/
def recorded (state : SetState ι) : SetOperation → Nat → Nat → Option Sector
  | read _ _ _ _ => state.written
  | write id offset count buffer => Function.update state.written id
      (Buffer.record buffer offset (min count (state.total id - offset)) (state.written id))
  | flush => state.written

/-- The call changes no storage but that of the image that is written, which then shows the buffer
in the place of the sectors that were transferred. -/
def Confined (state state' : SetState ι) : SetOperation → Prop
  | read _ _ _ _ => state'.contents = state.contents
  | write id offset count buffer =>
    (∀ image, state.set.image id = .ok image → ∀ disk, disk ≠ image.disk →
      state'.contents disk = state.contents disk) ∧
    state'.view id =
      Buffer.over buffer offset (min count (state.total id - offset)) (state.view id)
  | flush => state'.contents = state.contents

end SetOperation

/-- The calls succeed one after the other and return what they should, as long as no storage of the
set becomes too large. -/
def Overlays [DecidableEq ι] : SetState ι → List SetOperation → Prop
  | _, [] => True
  | state, op :: ops => ∀ result set contents,
    op.engine.runOn shelf state.set state.contents = ((result, set), contents) →
      state.set.Small contents →
        (∃ answer, result = .ok answer ∧ op.Answered state answer) ∧
          op.Confined state ⟨set, contents, op.recorded state⟩ ∧
          Overlays ⟨set, contents, op.recorded state⟩ ops

section Runs

variable [DecidableEq ι] {state : SetState ι}

/-- In a sound state a valid call succeeds, unless a storage becomes too large. -/
theorem SetOperation.succeeds (h : state.Sound) (op : SetOperation)
    (valid : op.Valid state.set.size)
    (small : state.set.Small (op.engine.runOn shelf state.set state.contents).2) :
    op.engine.Succeeds
      (fun answer set contents => op.Answered state answer ∧
        op.Confined state ⟨set, contents, op.recorded state⟩ ∧
        state.set.size = set.size ∧
        SetState.Sound ⟨set, contents, op.recorded state⟩) state.set state.contents := by
  cases op with
  | read id offset count buffer =>
    obtain ⟨hid, holds⟩ := valid
    obtain ⟨member, hmember⟩ := ImageSet.exists_member hid
    apply Engine.succeeds_bind
    refine (h.read_succeeds hmember holds offset).mono ?_
    rintro result set contents ⟨hresult, honly⟩
    refine Engine.succeeds_pure ⟨?_, honly.contents_eq, honly.sameFooters.size_eq.symm, honly.sound⟩
    rw [Answered, SetState.total_eq hmember]
    exact hresult
  | write id offset count buffer =>
    obtain ⟨hid, holds⟩ := valid
    obtain ⟨member, hmember⟩ := ImageSet.exists_member hid
    have hsmall := small id member.image (ImageSet.image_eq_ok hmember)
    rw [engine, Engine.runOn_bind_pure] at hsmall
    have htotal := SetState.total_eq hmember
    apply Engine.succeeds_bind
    refine (h.write_succeeds hmember holds offset hsmall).mono ?_
    rintro truncated set contents ⟨rfl, hfooter, hframe, hsound, hflat⟩
    have hrecorded : Function.update state.written id (Buffer.record buffer offset
        (member.image.transfer offset count) (state.written id)) =
          recorded state (.write id offset count buffer) := by
      rw [recorded, htotal]
      rfl
    rw [hrecorded] at hsound
    refine Engine.succeeds_pure ⟨?_, ⟨?_, ?_⟩, hfooter.size_eq.symm, hsound⟩
    · rw [Answered, htotal]
      rfl
    · intro image himage
      rw [ImageSet.image_eq_ok hmember, Except.ok.injEq] at himage
      subst himage
      exact hframe
    · rw [htotal]
      apply SetState.view_written hmember hfooter hrecorded.symm _ hflat
      intro other member' hne hother
      exact hframe _ (h.apart id other member member' hmember hother hne)
  | flush =>
    apply Engine.succeeds_bind
    refine h.flush_succeeds.mono ?_
    rintro _ set contents honly
    exact Engine.succeeds_pure
      ⟨trivial, honly.contents_eq, honly.sameFooters.size_eq.symm, honly.sound⟩

theorem overlays_of_sound (ops : List SetOperation) (h : state.Sound)
    (valid : ∀ op ∈ ops, op.Valid state.set.size) : Overlays state ops := by
  induction ops generalizing state with
  | nil => trivial
  | cons op ops ih =>
    intro result set contents hrun small
    have small' : state.set.Small (op.engine.runOn shelf state.set state.contents).2 := by
      rwa [hrun]
    obtain ⟨answer, set', contents', hrun', hanswer, hconfined, hsize, hsound⟩ :=
      op.succeeds h (valid op List.mem_cons_self) small'
    rw [hrun] at hrun'
    cases hrun'
    refine ⟨⟨answer, rfl, hanswer⟩, hconfined, ih hsound ?_⟩
    intro other hother
    rw [← hsize]
    exact valid other (List.mem_cons_of_mem op hother)

/-- Whatever is done with a set that was put together, its differencing images overlay their
parents. -/
theorem assembled_overlays {contents : ι → Content} {set : ImageSet ι}
    {written : Nat → Nat → Option Sector} (assembled : Assembled contents set written)
    (small : set.Small contents) (ops : List SetOperation)
    (valid : ∀ op ∈ ops, op.Valid set.size) : Overlays ⟨set, contents, written⟩ ops :=
  overlays_of_sound ops (assembled.sound small) valid

end Runs

/-- A dynamic image with a differencing image on top of it: both are written, the parent last, and
the differencing image is read past its end. -/
theorem assembled_overlays_small : ∃ (contents : Bool → Content) (set : ImageSet Bool)
    (written : Nat → Nat → Option Sector) (member : Member Bool),
    Assembled contents set written ∧ set.Small contents ∧ set.size = 2 ∧
      set.member 1 = .ok member ∧ member.image.diskType = .differencing ∧
      member.parent = some 0 ∧
      Overlays ⟨set, contents, written⟩
        [.write 1 7 2 (Bytes.replicate 1024 0x5a).toByteArray,
          .write 0 0 16 (Bytes.replicate 8192 0x33).toByteArray,
          .read 1 6 12 (Bytes.zero 6144).toByteArray, .flush] := by
  obtain ⟨contents, set, written, member, assembled, small, hsize, hmember, hkind, hparent⟩ :=
    exists_assembled_small
  refine ⟨contents, set, written, member, assembled, small, hsize, hmember, hkind, hparent,
    assembled_overlays assembled small _ ?_⟩
  intro op hop
  rw [hsize]
  have holds : ∀ {n count : Nat} (bytes : Bytes n), count * 512 < 2 ^ 64 → count * 512 ≤ n →
      Buffer.Holds bytes.toByteArray.size count := by
    intro n count bytes hfits hle
    rw [Bytes.size_toByteArray]
    exact ⟨hfits, hle⟩
  simp only [List.mem_cons, List.not_mem_nil, or_false] at hop
  obtain rfl | rfl | rfl | rfl := hop
  · exact ⟨by decide, holds _ (by decide) (by decide)⟩
  · exact ⟨by decide, holds _ (by decide) (by decide)⟩
  · exact ⟨by decide, holds _ (by decide) (by decide)⟩
  · trivial

end VirtualDisk
