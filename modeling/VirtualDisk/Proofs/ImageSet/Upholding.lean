import VirtualDisk.Proofs.Image.Keeping
import VirtualDisk.Proofs.ImageSet.Untrusted

/-!
# Invariants of the members of a set

An invariant that every call on a member keeps is kept by every call on the set, whatever the disks
answer. `Calls` lists what has to be known about single members; the rest of this module carries it
through the chains.
-/

namespace VirtualDisk

open Storage

variable {ι α : Type}

namespace ImageSet

variable {P : Protocol ι} {cause : Error → Prop} {I : Nat → Member ι → Prop} {size id : Nat}
variable {set : ImageSet ι} {member : Member ι} {image : Image ι}

/-- A set of so many images, each of which satisfies the invariant. -/
structure Upholds (I : Nat → Member ι → Prop) (size : Nat) (set : ImageSet ι) : Prop where
  size_eq : set.size = size
  each : ∀ id member, set.member id = .ok member → I id member

theorem Upholds.put (h : set.Upholds I size) (hmember : set.member id = .ok member)
    (himage : I id { member with image }) : (set.put id member image).Upholds I size := by
  refine ⟨size_put.trans h.size_eq, fun other member' hother => ?_⟩
  by_cases hid : other = id
  · subst hid
    rw [member_put_self hmember, Except.ok.injEq] at hother
    exact hother ▸ himage
  · exact h.each other member' ((member_put_of_ne hid).symm.trans hother)

/-- An engine on the image of a member keeps the invariant of the member. -/
def KeepsMember (P : Protocol ι) (cause : Error → Prop) (I : Nat → Member ι → Prop) (id : Nat)
    (member : Member ι) (engine : Engine ι (Image ι) α) : Prop :=
  engine.Keeps P cause (fun _ image => I id { member with image }) member.image

/-- What has to be known about single members, to know it of the set. -/
structure Calls (P : Protocol ι) (cause : Error → Prop) (I : Nat → Member ι → Prop) : Prop where
  plain : ∀ e, ¬ e.IsLink → cause e
  rooted : ∀ id member, I id member → member.image.diskType = .differencing →
    member.parent = none → cause .parentUnavailable
  holds : ∀ id member sector, I id member →
    KeepsMember P cause I id member (Image.onBlocks fun disk => BlockMap.holds disk sector)
  readFlat : ∀ id member offset count buffer, I id member →
    (member.image.readFlat offset count buffer).Minds P cause
  readBlocks : ∀ id member offset count buffer, I id member →
    KeepsMember P cause I id member (Image.readBlocks offset count buffer)
  flush : ∀ id member, I id member → KeepsMember P cause I id member Image.flush

theorem member_outcome {Q : Member ι → Prop} {E : Error → Prop}
    (known : id < set.size ∨ E (.unknownImage id))
    (success : ∀ member, set.member id = .ok member → Q member) :
    Access.Outcome Q E (set.member id) := by
  cases hmember : set.member id with
  | ok member => exact success member hmember
  | error e =>
    obtain hlt | hunknown := known
    · obtain ⟨member, hfound⟩ := exists_member hlt
      cases hmember.symm.trans hfound
    · rw [ImageSet.member] at hmember
      split at hmember
      · cases hmember
      · cases hmember
        exact hunknown

theorem image_outcome {Q : Image ι → Prop} {E : Error → Prop}
    (known : id < set.size ∨ E (.unknownImage id))
    (success : ∀ member, set.member id = .ok member → Q member.image) :
    Access.Outcome Q E (set.image id) := by
  have hfound := member_outcome (Q := fun member => Q member.image) known success
  cases hmember : set.member id with
  | ok member =>
    rw [image_eq_ok hmember]
    exact success member hmember
  | error e =>
    rw [hmember] at hfound
    rw [ImageSet.image, hmember]
    exact hfound

theorem onImage_obeys {engine : Engine ι (Image ι) α} (h : set.Upholds I size)
    (known : id < size ∨ cause (.unknownImage id))
    (hengine : ∀ member, set.member id = .ok member → I id member →
      KeepsMember P cause I id member engine) :
    (onImage id engine).Keeps P cause (fun _ set' => set'.Upholds I size) set := by
  rw [← h.size_eq] at known
  refine Engine.obeys_get_bind.mpr (Engine.obeys_liftExcept_bind.mpr ?_)
  refine member_outcome (known.imp_right fun hunknown => ⟨hunknown, h⟩) fun member hmember => ?_
  refine Engine.obeys_on.mpr ((hengine member hmember (h.each id member hmember)).mono ?_ ?_)
  · exact fun _ _ himage => h.put hmember himage
  · exact fun _ _ he => ⟨he.1, h.put hmember he.2⟩

variable (C : Calls P cause I)
include C

/-- The chain is followed to an image of the set. The induction is on the number, which
decreases. -/
theorem resolve_obeys (h : set.Upholds I size) (sector : Nat)
    (known : id < size ∨ cause (.unknownImage id)) :
    (resolve sector id).Obeys P (fun owner set' => owner < size ∧ set'.Upholds I size)
      (fun e set' => cause e ∧ set'.Upholds I size) set := by
  induction id using Nat.strongRecOn generalizing set with
  | ind id ih =>
    have known' : id < set.size ∨ (cause (.unknownImage id) ∧ set.Upholds I size) := by
      rw [h.size_eq]
      exact known.imp_right fun hunknown => ⟨hunknown, h⟩
    rw [resolve]
    refine Engine.obeys_get_bind.mpr (Engine.obeys_liftExcept_bind.mpr ?_)
    refine member_outcome known' fun member hmember => ?_
    have hid : id < size := h.size_eq ▸ lt_size hmember
    have hI := h.each id member hmember
    split
    · exact ⟨hid, h⟩
    next hask =>
    refine Engine.obeys_bind.mpr ((onImage_obeys h (.inl hid) fun member' _ hmember' =>
      C.holds id member' sector hmember').mono_success fun found set' h' => ?_)
    split
    · exact ⟨hid, h'⟩
    split
    · next hparent =>
      have hkind := Decidable.not_not.mp (not_or.mp hask).1
      exact ⟨C.rooted id member hI hkind hparent, h'⟩
    · next parent hparent =>
      split
      · next hlt => exact ih parent hlt h' (.inl (Nat.lt_trans hlt hid))
      · exact ⟨C.plain _ fun hlink => hlink, h'⟩

theorem readSector_obeys (h : set.Upholds I size) (sector : Nat)
    (known : id < size ∨ cause (.unknownImage id)) :
    (readSector id sector).Keeps P cause (fun _ set' => set'.Upholds I size) set := by
  rw [readSector]
  refine Engine.obeys_bind.mpr ((resolve_obeys C h sector known).mono_success ?_)
  rintro owner set' ⟨howner, h'⟩
  have hfinish : ∀ (result : ReadResult) (set'' : ImageSet ι), set''.Upholds I size →
      (if result.truncated ≠ 0 then pure (Bytes.zero 512) else
        liftM (Buffer.sector result.buffer 0) : Engine ι (ImageSet ι) Sector).Keeps P cause
          (fun _ set' => set'.Upholds I size) set'' := by
    intro result set'' h''
    split
    · exact h''
    · refine Engine.obeys_liftExcept.mpr ?_
      cases hsector : Buffer.sector result.buffer 0 with
      | ok content => exact h''
      | error e => exact ⟨C.plain e (Mild.window _ _ _ e hsector).not_isLink, h''⟩
  refine Engine.obeys_get_bind.mpr (Engine.obeys_liftExcept_bind.mpr ?_)
  refine image_outcome (.inl (h'.size_eq ▸ howner)) fun member hmember => ?_
  generalize (Bytes.zero 512).toByteArray = blank
  dsimp only
  split
  · refine Engine.obeys_bind.mpr (Engine.obeys_liftAccess.mpr ?_)
    refine (C.readFlat owner member sector 1 blank (h'.each owner member hmember)).mono ?_ ?_
    · exact fun result _ => hfinish result set' h'
    · exact fun _ he => ⟨he, h'⟩
  · refine Engine.obeys_bind.mpr ((onImage_obeys h' (.inl howner) fun member' _ hmember' =>
      C.readBlocks owner member' sector 1 blank hmember').mono_success ?_)
    exact fun result set'' h'' => hfinish result set'' h''

theorem readSectors_obeys (h : set.Upholds I size) (count sector slot : Nat) (buffer : ByteArray)
    (known : id < size ∨ cause (.unknownImage id)) :
    (readSectors id count sector slot buffer).Keeps P cause (fun _ set' => set'.Upholds I size)
      set := by
  induction count generalizing sector slot buffer set with
  | zero => exact h
  | succ count ih =>
    refine Engine.obeys_bind.mpr ((readSector_obeys C h sector known).mono_success ?_)
    intro content set' h'
    refine Engine.obeys_liftExcept_bind.mpr ?_
    cases hfill : Buffer.fillSector buffer slot content with
    | ok buffer' => exact ih h' _ _ _
    | error e => exact ⟨C.plain e (Mild.fill _ _ _ e hfill).not_isLink, h'⟩

theorem readChain_obeys (h : set.Upholds I size) (offset count : Nat) (buffer : ByteArray)
    (known : id < size ∨ cause (.unknownImage id)) :
    (readChain id offset count buffer).Keeps P cause (fun _ set' => set'.Upholds I size) set := by
  refine Engine.obeys_liftExcept_bind.mpr ?_
  cases hcheck : Buffer.check buffer.size count with
  | error e => exact ⟨C.plain e (Mild.check _ _ e hcheck).not_isLink, h⟩
  | ok _ =>
    refine Engine.obeys_get_bind.mpr (Engine.obeys_liftExcept_bind.mpr ?_)
    refine image_outcome ?_ fun member _ => ?_
    · rw [h.size_eq]
      exact known.imp_right fun hunknown => ⟨hunknown, h⟩
    · refine Engine.obeys_bind.mpr ((readSectors_obeys C h _ offset 0 buffer known).mono_success ?_)
      exact fun _ _ h' => h'

theorem read_obeys (h : set.Upholds I size) (offset count : Nat) (buffer : ByteArray)
    (known : id < size ∨ cause (.unknownImage id)) :
    (read id offset count buffer).Keeps P cause (fun _ set' => set'.Upholds I size) set := by
  refine Engine.obeys_get_bind.mpr (Engine.obeys_liftExcept_bind.mpr ?_)
  refine image_outcome ?_ fun member hmember => ?_
  · rw [h.size_eq]
    exact known.imp_right fun hunknown => ⟨hunknown, h⟩
  split
  · exact readChain_obeys C h offset count buffer known
  · next hkind =>
    refine onImage_obeys h known fun member' hmember' hI => ?_
    obtain rfl := Except.ok.inj (hmember.symm.trans hmember')
    refine Engine.obeys_get_bind.mpr ?_
    split
    · refine Engine.obeys_liftAccess.mpr ?_
      exact (C.readFlat id member offset count buffer hI).mono (fun _ _ => hI) fun _ he => ⟨he, hI⟩
    · exact C.readBlocks id member offset count buffer hI
    · next hlayout => exact absurd (by rw [Image.diskType, hlayout]; rfl) hkind

theorem flushFrom_obeys (h : set.Upholds I size) (count first : Nat)
    (known : first + count ≤ size) :
    (flushFrom count first).Keeps P cause (fun _ set' => set'.Upholds I size) set := by
  induction count generalizing first set with
  | zero => exact h
  | succ count ih =>
    refine Engine.obeys_bind.mpr ((onImage_obeys h (.inl (by omega)) fun member _ hmember =>
      C.flush first member hmember).mono_success fun _ set' h' => ?_)
    exact ih h' (first + 1) (by omega)

theorem flush_obeys (h : set.Upholds I size) :
    flush.Keeps P cause (fun _ set' => set'.Upholds I size) set :=
  Engine.obeys_get_bind.mpr (flushFrom_obeys C h _ _ (by rw [h.size_eq]; omega))

end ImageSet

open ImageSet in
/-- A call on the set keeps what its calls on single members keep. -/
theorem SetCall.obeys {P : Protocol ι} {cause : Error → Prop} {I : Nat → Member ι → Prop}
    {size : Nat} {set : ImageSet ι} (C : Calls P cause I) (h : set.Upholds I size)
    (unknown : ∀ id, cause (.unknownImage id)) (call : SetCall)
    (on : ∀ id call', call = .on id call' → ∀ member, I id member →
      KeepsMember P cause I id member call'.engine) :
    call.engine.Keeps P cause (fun _ set' => set'.Upholds I size) set := by
  cases call with
  | on id call' =>
    exact onImage_obeys h (.inr (unknown id)) fun member _ hmember => on id call' rfl member hmember
  | read id offset count buffer =>
    apply Engine.obeys_bind.mpr
    exact (read_obeys C h offset count buffer (.inr (unknown id))).mono_success fun _ _ h' => h'
  | readChain id offset count buffer =>
    apply Engine.obeys_bind.mpr
    exact (readChain_obeys C h offset count buffer (.inr (unknown id))).mono_success
      fun _ _ h' => h'
  | flush => exact Engine.obeys_bind.mpr ((flush_obeys C h).mono_success fun _ _ h' => h')

end VirtualDisk
