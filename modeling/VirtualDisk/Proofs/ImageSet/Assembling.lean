import VirtualDisk.Proofs.ImageSet.View

/-!
# Putting sets together

Images are made on storages of their own, written there or not, and then added to a set one after
the other. Whatever is added in whatever order, the set is sound.
-/

namespace VirtualDisk

open Storage

variable {ι : Type}

/-- No storage of the set is too large. -/
def ImageSet.Small (set : ImageSet ι) (contents : ι → Content) : Prop :=
  ∀ id image, set.image id = .ok image → (contents image.disk).size < sizeLimit

/-- Sets that are put together from images that were made, each on a storage of its own, with the
record of what was written to them. -/
inductive Assembled (contents : ι → Content) : ImageSet ι → (Nat → Nat → Option Sector) → Prop
  | empty : Assembled contents .empty fun _ _ => none
  | insert {set set' : ImageSet ι} {written : Nat → Nat → Option Sector} {image : Image ι}
      {own : Nat → Option Sector} {id : Nat} (before : Assembled contents set written)
      (made : image.Made (contents image.disk) own)
      (apart : ∀ other found, set.image other = .ok found → found.disk ≠ image.disk)
      (inserted : set.insert image = .ok (id, set')) :
      Assembled contents set' (Function.update written id own)
  | insertDifferencing {set set' : ImageSet ι} {written : Nat → Nat → Option Sector}
      {image : Image ι} {own : Nat → Option Sector} {id parent : Nat}
      (before : Assembled contents set written) (made : image.Made (contents image.disk) own)
      (apart : ∀ other found, set.image other = .ok found → found.disk ≠ image.disk)
      (inserted : set.insertDifferencing image parent = .ok (id, set')) :
      Assembled contents set' (Function.update written id own)

namespace ImageSet

variable {set set' : ImageSet ι} {image : Image ι} {member : Member ι} {id other : Nat}
variable {parent : Option Nat}

theorem size_push : (set.push image parent).2.size = set.size + 1 :=
  Array.size_push _

theorem member_push_self : (set.push image parent).2.member set.size = .ok ⟨image, parent⟩ := by
  rw [member_eq_ok]
  exact Array.getElem?_push_size

theorem member_push_of_ne (hne : other ≠ set.size) :
    (set.push image parent).2.member other = set.member other := by
  have hlookup : (set.members.push ⟨image, parent⟩)[other]? = set.members[other]? := by
    rw [Array.getElem?_push]
    exact if_neg hne
  rw [ImageSet.member, ImageSet.member, push, hlookup]

theorem of_member_push (h : (set.push image parent).2.member id = .ok member) :
    id = set.size ∧ member = ⟨image, parent⟩ ∨ id ≠ set.size ∧ set.member id = .ok member := by
  by_cases hid : id = set.size
  · subst hid
    rw [member_push_self, Except.ok.injEq] at h
    exact .inl ⟨rfl, h.symm⟩
  · rw [member_push_of_ne hid] at h
    exact .inr ⟨hid, h⟩

theorem insert_eq (hkind : image.diskType ≠ .differencing) :
    set.insert image = .ok (set.push image none) := by
  rw [insert]
  cases h : image.diskType with
  | differencing => exact absurd h hkind
  | fixed => rfl
  | dynamic => rfl

/-- A differencing image is added on top of the image whose unique id it records. -/
theorem insertDifferencing_eq (hmember : set.member id = .ok member)
    (hrecorded : image.parentUniqueId? = some member.image.footer.uniqueId) :
    set.insertDifferencing image id = .ok (set.push image (some id)) := by
  rw [insertDifferencing, hrecorded, image_eq_ok hmember]
  change (if member.image.footer.uniqueId ≠ member.image.footer.uniqueId then _ else _) = _
  rw [if_neg (not_not.mpr rfl)]
  rfl

theorem of_insert (h : set.insert image = .ok (id, set')) :
    image.diskType ≠ .differencing ∧ id = set.size ∧ set' = (set.push image none).2 := by
  rw [insert] at h
  cases hkind : image.diskType with
  | differencing =>
    rw [hkind] at h
    cases h
  | fixed =>
    rw [hkind] at h
    cases h
    exact ⟨by decide, rfl, rfl⟩
  | dynamic =>
    rw [hkind] at h
    cases h
    exact ⟨by decide, rfl, rfl⟩

theorem of_insertDifferencing {number : Nat}
    (h : set.insertDifferencing image number = .ok (id, set')) :
    (∃ found, set.member number = .ok found ∧
        image.parentUniqueId? = some found.image.footer.uniqueId) ∧
      id = set.size ∧ set' = (set.push image (some number)).2 := by
  rw [insertDifferencing] at h
  cases hrecorded : image.parentUniqueId? with
  | none =>
    rw [hrecorded] at h
    cases h
  | some uniqueId =>
    rw [hrecorded] at h
    cases hmember : set.member number with
    | error e =>
      rw [ImageSet.image, hmember] at h
      cases h
    | ok found =>
      rw [image_eq_ok hmember] at h
      change (if found.image.footer.uniqueId ≠ uniqueId then _ else _) = _ at h
      split at h
      · cases h
      · next hsame =>
        cases h
        exact ⟨⟨found, rfl, congrArg some (Decidable.not_not.mp hsame).symm⟩, rfl, rfl⟩

end ImageSet

namespace SetState

variable {set set' : ImageSet ι} {contents : ι → Content} {written : Nat → Nat → Option Sector}

theorem sound_empty (contents : ι → Content) : Sound ⟨.empty, contents, fun _ _ => none⟩ := by
  have hnone : ∀ id member, (ImageSet.empty : ImageSet ι).member id ≠ .ok member := by
    intro id member hmember
    exact absurd (ImageSet.lt_size hmember) (Nat.not_lt_zero id)
  refine ⟨?_, ?_, ?_⟩
  · intro id member hmember
    exact absurd hmember (hnone id member)
  · intro id member hmember
    exact absurd hmember (hnone id member)
  · intro id other member _ hmember
    exact absurd hmember (hnone id member)

theorem Sound.push {image : Image ι} {parent : Option Nat} {own : Nat → Option Sector}
    (h : Sound ⟨set, contents, written⟩) (held : image.HoldsWritten (contents image.disk) own)
    (apart : ∀ other found, set.image other = .ok found → found.disk ≠ image.disk)
    (rooted : image.diskType = .differencing → ∃ number, number < set.size ∧ parent = some number) :
    Sound ⟨(set.push image parent).2, contents, Function.update written set.size own⟩ := by
  refine ⟨?_, ?_, ?_⟩
  · intro id member hmember
    obtain ⟨rfl, rfl⟩ | ⟨hne, hbefore⟩ := ImageSet.of_member_push hmember
    · simp only [Function.update_self]
      exact held
    · simp only [Function.update_of_ne hne]
      exact h.holdsWritten id member hbefore
  · intro id member hmember hkind
    obtain ⟨rfl, rfl⟩ | ⟨hne, hbefore⟩ := ImageSet.of_member_push hmember
    · exact rooted hkind
    · exact h.rooted id member hbefore hkind
  · intro id other member member' hmember hother hne
    obtain ⟨rfl, rfl⟩ | ⟨hid, hbefore⟩ := ImageSet.of_member_push hmember
    · obtain ⟨rfl, -⟩ | ⟨-, hother'⟩ := ImageSet.of_member_push hother
      · exact absurd rfl hne
      · exact apart other member'.image (ImageSet.image_eq_ok hother')
    · obtain ⟨rfl, rfl⟩ | ⟨-, hother'⟩ := ImageSet.of_member_push hother
      · exact Ne.symm (apart id member.image (ImageSet.image_eq_ok hbefore))
      · exact h.apart id other member member' hbefore hother' hne

end SetState

theorem ImageSet.small_empty (contents : ι → Content) :
    (ImageSet.empty : ImageSet ι).Small contents := by
  intro id image himage
  obtain ⟨member, hmember, -⟩ := ImageSet.exists_of_image himage
  exact absurd (ImageSet.lt_size hmember) (Nat.not_lt_zero id)

theorem ImageSet.small_push {set : ImageSet ι} {image : Image ι} {parent : Option Nat}
    {contents : ι → Content} : (set.push image parent).2.Small contents ↔
      set.Small contents ∧ (contents image.disk).size < sizeLimit := by
  constructor
  · intro h
    constructor
    · intro id found hfound
      obtain ⟨member, hmember, rfl⟩ := ImageSet.exists_of_image hfound
      apply h id
      apply ImageSet.image_eq_ok
      rw [ImageSet.member_push_of_ne (Nat.ne_of_lt (ImageSet.lt_size hmember)), hmember]
    · exact h set.size image (ImageSet.image_eq_ok ImageSet.member_push_self)
  · rintro ⟨h, hsize⟩ id found hfound
    obtain ⟨member, hmember, rfl⟩ := ImageSet.exists_of_image hfound
    obtain ⟨-, rfl⟩ | ⟨-, hbefore⟩ := ImageSet.of_member_push hmember
    · exact hsize
    · exact h id member.image (ImageSet.image_eq_ok hbefore)

/-- A set that was put together is sound. -/
theorem Assembled.sound {contents : ι → Content} {set : ImageSet ι}
    {written : Nat → Nat → Option Sector} (h : Assembled contents set written)
    (small : set.Small contents) : SetState.Sound ⟨set, contents, written⟩ := by
  induction h with
  | empty => exact SetState.sound_empty contents
  | @insert set set' written image own id before made apart inserted ih =>
    obtain ⟨hkind, rfl, rfl⟩ := ImageSet.of_insert inserted
    obtain ⟨hsmall, hsize⟩ := ImageSet.small_push.mp small
    apply (ih hsmall).push (made.holdsWritten hsize) apart
    intro hdifferencing
    exact absurd hdifferencing hkind
  | @insertDifferencing set set' written image own id parent before made apart inserted ih =>
    obtain ⟨⟨found, hfound, -⟩, rfl, rfl⟩ := ImageSet.of_insertDifferencing inserted
    have hparent := ImageSet.lt_size hfound
    obtain ⟨hsmall, hsize⟩ := ImageSet.small_push.mp small
    apply (ih hsmall).push (made.holdsWritten hsize) apart
    intro _
    exact ⟨parent, hparent, rfl⟩

theorem exists_chain_small : ∃ (contents : Bool → Content) (parent child : Image Bool)
    (written : Nat → Nat → Option Sector),
    Image.NewImage false CreateOptions.small CreateOptions.small.size ⟨16, 1, 1⟩ .dynamic
        ⟨Bytes.zero 16, 0⟩ parent (contents false) ∧
      Image.NewImage true CreateOptions.small CreateOptions.small.size ⟨16, 1, 1⟩ .differencing
        ⟨parent.footer.uniqueId, parent.footer.timestamp⟩ child (contents true) ∧
      Assembled contents ((ImageSet.empty.push parent none).2.push child (some 0)).2 written ∧
      ((ImageSet.empty.push parent none).2.push child (some 0)).2.Small contents := by
  obtain ⟨parent, base, hparent, hnew⟩ := Image.exists_createDynamic
    CreateOptions.checkedGeometry_small creatable_small false .empty
  have hcurrent : parent.footer.currentSize = CreateOptions.small.size := hnew.readAs.currentSize
  have hgeometry : parent.footer.geometry = ⟨16, 1, 1⟩ := hnew.readAs.geometry
  have creatable : Creatable parent.footer.currentSize CreateOptions.small.blockSize
      parent.footer.geometry := by
    rw [hcurrent, hgeometry]
    exact creatable_small
  obtain ⟨child, top, hchild, hnew'⟩ := Image.exists_createDifferencing creatable true .empty
  have hbase : base.size < sizeLimit := Nat.lt_trans hnew.size_lt (by decide)
  have htop : top.size < sizeLimit := Nat.lt_trans hnew'.size_lt (by decide)
  obtain ⟨contents, hfalse, htrue⟩ : ∃ contents : Bool → Content,
      contents false = base ∧ contents true = top := ⟨fun disk => cond disk top base, rfl, rfl⟩
  have hdisk := hnew.disk_eq
  have hdisk' := hnew'.disk_eq
  have hkind : parent.diskType ≠ .differencing := by
    have hfooter : parent.footer.diskType = .dynamic := hnew.readAs.diskType
    rw [hnew.eq_opened, Image.diskType_opened, hfooter]
    decide
  -- The dynamic image is put into the empty set, the other one on top of it.
  have first : Assembled contents (ImageSet.empty.push parent none).2
      (Function.update (fun _ _ => none) 0 fun _ => none) := by
    apply Assembled.insert .empty _ _ (ImageSet.insert_eq hkind)
    · rw [hdisk, hfalse]
      exact .dynamic hparent
    · intro other found hfound
      obtain ⟨member, hmember, -⟩ := ImageSet.exists_of_image hfound
      exact absurd (ImageSet.lt_size hmember) (Nat.not_lt_zero other)
  have hmember : (ImageSet.empty.push parent none).2.member 0 = .ok ⟨parent, none⟩ :=
    ImageSet.member_push_self
  have second : Assembled contents ((ImageSet.empty.push parent none).2.push child (some 0)).2
      (Function.update (Function.update (fun _ _ => none) 0 fun _ => none) 1 fun _ => none) := by
    apply Assembled.insertDifferencing first _ _
      (ImageSet.insertDifferencing_eq hmember hnew'.parentUniqueId?_eq)
    · rw [hdisk', htrue]
      exact .differencing hchild
    · intro other found hfound
      obtain ⟨member, hother, rfl⟩ := ImageSet.exists_of_image hfound
      obtain ⟨-, rfl⟩ | ⟨-, hbefore⟩ := ImageSet.of_member_push hother
      · rw [hdisk, hdisk']
        decide
      · exact absurd (ImageSet.lt_size hbefore) (Nat.not_lt_zero other)
  rw [hcurrent, hgeometry] at hnew'
  refine ⟨contents, parent, child, _, hfalse ▸ hnew, htrue ▸ hnew', second, ?_⟩
  rw [ImageSet.small_push, ImageSet.small_push, hdisk, hdisk', hfalse, htrue]
  exact ⟨⟨ImageSet.small_empty contents, hbase⟩, htop⟩

/-- Two members, of which the second is a differencing image on the first. -/
theorem exists_assembled_small : ∃ (contents : Bool → Content) (set : ImageSet Bool)
    (written : Nat → Nat → Option Sector) (member : Member Bool),
    Assembled contents set written ∧ set.Small contents ∧ set.size = 2 ∧
      set.member 1 = .ok member ∧ member.image.diskType = .differencing ∧
      member.parent = some 0 := by
  obtain ⟨contents, parent, child, written, -, hnew, assembled, small⟩ := exists_chain_small
  refine ⟨contents, _, written, _, assembled, small, rfl, ImageSet.member_push_self, ?_, rfl⟩
  rw [hnew.eq_opened, Image.diskType_opened]
  exact hnew.readAs.diskType

end VirtualDisk
