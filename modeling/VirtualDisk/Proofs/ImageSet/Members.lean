import VirtualDisk.ImageSet.Basic
import VirtualDisk.Proofs.Image.HoldsWritten
import VirtualDisk.Proofs.Storage.Shelf

/-!
# Members of a set

An engine on one member replaces its image and leaves all other members alone. If the new image is
on the same disk and has the same footer as the old one, the two sets have the `SameFooters`: the
same numbers are in use, with the same parents, disks and sizes.
-/

namespace VirtualDisk

open Storage

variable {ι α : Type}

namespace ImageSet

variable {set set' set'' : ImageSet ι} {member : Member ι} {image : Image ι} {id other : Nat}

theorem member_eq_ok : set.member id = .ok member ↔ set.members[id]? = some member := by
  rw [ImageSet.member]
  constructor
  · intro h
    split at h
    · next found hfound =>
      rw [hfound, Except.ok.inj h]
    · cases h
  · intro h
    rw [h]

theorem exists_member (h : id < set.size) : ∃ member, set.member id = .ok member :=
  ⟨set.members[id], member_eq_ok.mpr (Array.getElem?_eq_getElem h)⟩

theorem lt_size (h : set.member id = .ok member) : id < set.size :=
  (Array.getElem?_eq_some_iff.mp (member_eq_ok.mp h)).1

theorem image_eq_ok (h : set.member id = .ok member) : set.image id = .ok member.image := by
  rw [ImageSet.image, h]
  rfl

theorem exists_of_image (h : set.image id = .ok image) :
    ∃ member, set.member id = .ok member ∧ member.image = image := by
  cases hmember : set.member id with
  | error e =>
    rw [ImageSet.image, hmember] at h
    cases h
  | ok member =>
    rw [image_eq_ok hmember, Except.ok.injEq] at h
    exact ⟨member, rfl, h⟩

/-- The set after the image of a member was replaced. -/
def put (set : ImageSet ι) (id : Nat) (member : Member ι) (image : Image ι) : ImageSet ι :=
  ⟨set.members.setIfInBounds id { member with image }⟩

theorem member_put_self (h : set.member id = .ok member) :
    (set.put id member image).member id = .ok { member with image } := by
  rw [member_eq_ok, put, Array.getElem?_setIfInBounds_self_of_lt (lt_size h)]

theorem member_put_of_ne (hne : other ≠ id) :
    (set.put id member image).member other = set.member other := by
  rw [ImageSet.member, ImageSet.member, put, Array.getElem?_setIfInBounds_ne (Ne.symm hne)]

theorem size_put : (set.put id member image).size = set.size :=
  Array.size_setIfInBounds

theorem put_self (h : set.member id = .ok member) : set.put id member member.image = set := by
  obtain ⟨hlt, hfound⟩ := Array.getElem?_eq_some_iff.mp (member_eq_ok.mp h)
  rw [put, Array.setIfInBounds_def, dif_pos hlt, ← hfound, Array.set_getElem_self]

theorem put_put {image' : Image ι} :
    (set.put id member image).put id { member with image } image' = set.put id member image' := by
  rw [put, put, put, Array.setIfInBounds_setIfInBounds]

/-- Sets with the same numbers and links, whose images are on the same disks and have the same
footers. -/
structure SameFooters (set set' : ImageSet ι) : Prop where
  size_eq : set'.size = set.size
  members : ∀ id member, set.member id = .ok member →
    ∃ image, set'.member id = .ok { member with image } ∧ member.image.SameFooter image

namespace SameFooters

theorem refl (set : ImageSet ι) : set.SameFooters set :=
  ⟨rfl, fun _ member h => ⟨member.image, h, .refl _⟩⟩

theorem trans (h : set.SameFooters set') (h' : set'.SameFooters set'') : set.SameFooters set'' := by
  refine ⟨h'.size_eq.trans h.size_eq, fun id member hmember => ?_⟩
  obtain ⟨image, hmember', hfooter⟩ := h.members id member hmember
  obtain ⟨image', hmember'', hfooter'⟩ := h'.members id _ hmember'
  exact ⟨image', hmember'', hfooter.trans hfooter'⟩

theorem back (h : set.SameFooters set') {member' : Member ι}
    (hmember : set'.member id = .ok member') :
    ∃ member, set.member id = .ok member ∧ member'.parent = member.parent ∧
      member.image.SameFooter member'.image := by
  have hlt := lt_size hmember
  rw [h.size_eq] at hlt
  obtain ⟨member, hbefore⟩ := exists_member hlt
  obtain ⟨image, hafter, hfooter⟩ := h.members id member hbefore
  rw [hmember, Except.ok.injEq] at hafter
  subst hafter
  exact ⟨member, hbefore, rfl, hfooter⟩

theorem member_eq_error (h : set.SameFooters set') {e : Error} (hnone : set.member id = .error e) :
    ∃ e', set'.member id = .error e' := by
  cases hfound : set'.member id with
  | error e' => exact ⟨e', rfl⟩
  | ok found =>
    obtain ⟨member, hbefore, -⟩ := h.back hfound
    rw [hnone] at hbefore
    cases hbefore

theorem put (hmember : set.member id = .ok member) (h : member.image.SameFooter image) :
    set.SameFooters (set.put id member image) := by
  refine ⟨size_put, fun other member' hother => ?_⟩
  by_cases hid : other = id
  · subst hid
    rw [hmember, Except.ok.injEq] at hother
    subst hother
    exact ⟨image, member_put_self hmember, h⟩
  · exact ⟨member'.image, (member_put_of_ne hid).trans hother, .refl _⟩

end SameFooters

variable {ω : Type} {engine : Engine ι (Image ι) α}

theorem runOn_onImage (hmember : set.member id = .ok member) (server : Server ι ω) (world : ω) :
    (onImage id engine).runOn server set world =
      (((engine.runOn server member.image world).1.1,
        set.put id member (engine.runOn server member.image world).1.2),
        (engine.runOn server member.image world).2) := by
  have hfound : (liftM (set.member id) : Engine ι (ImageSet ι) (Member ι)).runOn server set world =
      ((.ok member, set), world) := by
    rw [Engine.runOn_liftExcept, hmember]
  rw [onImage, Engine.runOn_bind_ok (Engine.runOn_get ..), Engine.runOn_bind_ok hfound,
    Engine.runOn_on]
  rfl

variable [DecidableEq ι] {contents : ι → Content}

theorem onImage_succeeds {Q : α → ImageSet ι → (ι → Content) → Prop}
    (hmember : set.member id = .ok member)
    (h : engine.Succeeds (fun a image contents => Q a (set.put id member image) contents)
      member.image contents) :
    (onImage id engine).Succeeds Q set contents :=
  Engine.succeeds_get_bind (Engine.succeeds_liftExcept_bind hmember (Engine.succeeds_on h))

end ImageSet

end VirtualDisk
