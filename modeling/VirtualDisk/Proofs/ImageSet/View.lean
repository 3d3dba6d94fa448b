import VirtualDisk.Proofs.ImageSet.Members

/-!
# What the members of a set show

A set is looked at together with its storages and with a record of what was last written to each
member. `SetState.view` is what a member shows by that: its own sectors, and those of its parent
where nothing was written to a differencing image. In a `Sound` state the images hold just what
was written to them. Calls that write nothing are `OnlyRead`: they may put other blocks into the
caches, and nothing that they change is seen.
-/

namespace VirtualDisk

open Storage

variable {ι : Type}

/-- A set, the storages of its images, and what was last written to the sectors of each member. -/
structure SetState (ι : Type) where
  set : ImageSet ι
  contents : ι → Content
  written : Nat → Nat → Option Sector

namespace SetState

/-- What a member shows. Sectors past its end are zeros, and so are sectors of a dynamic image that
were not written; those of a differencing image are what its parent shows. -/
def view (state : SetState ι) (id sector : Nat) : Sector :=
  match state.set.member id with
  | .error _ => Bytes.zero 512
  | .ok member =>
    if member.image.totalSectors ≤ sector then Bytes.zero 512
    else match member.image.diskType with
      | .fixed => (state.contents member.image.disk).flatSector sector
      | .dynamic => (state.written id sector).getD (Bytes.zero 512)
      | .differencing =>
        match state.written id sector, member.parent with
        | some bytes, _ => bytes
        | none, none => Bytes.zero 512
        | none, some parent =>
          if _h : parent < id then state.view parent sector else Bytes.zero 512
termination_by id

variable {state state' state'' : SetState ι} {member : Member ι} {id sector : Nat}

theorem view_past (hmember : state.set.member id = .ok member)
    (hpast : member.image.totalSectors ≤ sector) : state.view id sector = Bytes.zero 512 := by
  rw [view, hmember]
  exact if_pos hpast

theorem view_own (hmember : state.set.member id = .ok member)
    (inside : sector < member.image.totalSectors)
    (hown : member.image.diskType = .differencing → (state.written id sector).isSome) :
    state.view id sector =
      member.image.own (state.contents member.image.disk) (state.written id) sector := by
  rw [view, hmember]
  dsimp only
  rw [if_neg (Nat.not_le.mpr inside), Image.own]
  cases hkind : member.image.diskType with
  | fixed => rfl
  | dynamic => rfl
  | differencing =>
    obtain ⟨bytes, hbytes⟩ := Option.isSome_iff_exists.mp (hown hkind)
    rw [hbytes]
    rfl

theorem view_parent {parent : Nat} (hmember : state.set.member id = .ok member)
    (inside : sector < member.image.totalSectors) (hkind : member.image.diskType = .differencing)
    (hnone : state.written id sector = none) (hparent : member.parent = some parent)
    (hlt : parent < id) : state.view id sector = state.view parent sector := by
  rw [view, hmember]
  dsimp only
  rw [if_neg (Nat.not_le.mpr inside), hkind, hnone, hparent]
  exact dif_pos hlt

/-- For what a member shows of a sector only that sector counts, of the members up to it, and no
blocks. The induction is on the number, along the chain. -/
theorem view_congr (h : state.set.SameFooters state'.set) (same : ∀ other member, other ≤ id →
      state.set.member other = .ok member →
        state'.written other sector = state.written other sector ∧
        (member.image.diskType = .fixed → (state'.contents member.image.disk).flatSector sector =
          (state.contents member.image.disk).flatSector sector)) :
    state'.view id sector = state.view id sector := by
  induction id using Nat.strongRecOn with
  | ind id ih =>
    cases hmember : state.set.member id with
    | error e =>
      obtain ⟨e', he'⟩ := h.member_eq_error hmember
      rw [view, view, hmember, he']
    | ok member =>
      obtain ⟨image, hmember', hfooter⟩ := h.members id member hmember
      obtain ⟨hwritten, hflat⟩ := same id member (Nat.le_refl id) hmember
      rw [view, view, hmember, hmember']
      simp only [hfooter.totalSectors_eq, hfooter.disk, hfooter.diskType, hwritten]
      split
      · rfl
      · cases hkind : member.image.diskType with
        | fixed => exact hflat hkind
        | dynamic => rfl
        | differencing =>
          cases state.written id sector with
          | some bytes => rfl
          | none =>
            cases member.parent with
            | none => rfl
            | some parent =>
              dsimp only
              split
              · next hlt =>
                apply ih parent hlt
                intro other member hle
                exact same other member (Nat.le_trans hle (Nat.le_of_lt hlt))
              · rfl

/-- The images of the set hold what was written to them, each on a storage of its own, and
differencing images have a parent. -/
structure Sound (state : SetState ι) : Prop where
  holdsWritten : ∀ id member, state.set.member id = .ok member →
    member.image.HoldsWritten (state.contents member.image.disk) (state.written id)
  rooted : ∀ id member, state.set.member id = .ok member →
    member.image.diskType = .differencing → ∃ parent, parent < id ∧ member.parent = some parent
  apart : ∀ id other member member', state.set.member id = .ok member →
    state.set.member other = .ok member' → other ≠ id → member'.image.disk ≠ member.image.disk

/-- One image goes on, and with it its storage and its record. -/
theorem Sound.put {image : Image ι} {contents' : ι → Content} {written' : Nat → Option Sector}
    (h : Sound state) (hmember : state.set.member id = .ok member)
    (hfooter : member.image.SameFooter image)
    (hheld : image.HoldsWritten (contents' member.image.disk) written')
    (hframe : ∀ disk, disk ≠ member.image.disk → contents' disk = state.contents disk) :
    Sound ⟨state.set.put id member image, contents',
      Function.update state.written id written'⟩ := by
  have hset : state.set.SameFooters (state.set.put id member image) := .put hmember hfooter
  refine ⟨fun other member' hother => ?_, fun other member' hother hkind => ?_,
    fun other other' member₁ member₂ h₁ h₂ hne => ?_⟩
  · by_cases hid : other = id
    · subst hid
      rw [ImageSet.member_put_self hmember, Except.ok.injEq] at hother
      subst hother
      simp only [hfooter.disk, Function.update_self]
      exact hheld
    · simp only [ImageSet.member_put_of_ne hid] at hother
      simp only [Function.update_of_ne hid, hframe _ (h.apart id other _ _ hmember hother hid)]
      exact h.holdsWritten other member' hother
  · obtain ⟨before, hbefore, hparent, hfooter'⟩ := hset.back hother
    rw [hfooter'.diskType] at hkind
    obtain ⟨parent, hlt, hsome⟩ := h.rooted other before hbefore hkind
    exact ⟨parent, hlt, hparent.trans hsome⟩
  · obtain ⟨before₁, hbefore₁, -, halike₁⟩ := hset.back h₁
    obtain ⟨before₂, hbefore₂, -, halike₂⟩ := hset.back h₂
    rw [halike₁.disk, halike₂.disk]
    exact h.apart other other' before₁ before₂ hbefore₁ hbefore₂ hne

/-- From one state to another without a change that is seen. -/
structure OnlyRead (state state' : SetState ι) : Prop where
  sameFooters : state.set.SameFooters state'.set
  contents_eq : state'.contents = state.contents
  written_eq : state'.written = state.written
  sound : Sound state'

namespace OnlyRead

theorem refl (h : Sound state) : OnlyRead state state := ⟨.refl _, rfl, rfl, h⟩

theorem trans (h : OnlyRead state state') (h' : OnlyRead state' state'') : OnlyRead state state'' :=
  ⟨h.sameFooters.trans h'.sameFooters, h'.contents_eq.trans h.contents_eq,
    h'.written_eq.trans h.written_eq, h'.sound⟩

theorem view_eq (h : OnlyRead state state') : state'.view = state.view := by
  funext id sector
  apply view_congr h.sameFooters
  intro other member _ _
  rw [h.written_eq, h.contents_eq]
  exact ⟨rfl, fun _ => rfl⟩

theorem put {image : Image ι} (h : Sound state) (hmember : state.set.member id = .ok member)
    (hfooter : member.image.SameFooter image)
    (hheld : image.HoldsWritten (state.contents member.image.disk) (state.written id)) :
    OnlyRead state ⟨state.set.put id member image, state.contents, state.written⟩ := by
  have hsound := h.put hmember hfooter hheld fun _ _ => rfl
  rw [Function.update_eq_self] at hsound
  exact ⟨.put hmember hfooter, rfl, rfl, hsound⟩

end OnlyRead

end SetState

end VirtualDisk
