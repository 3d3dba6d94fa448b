import VirtualDisk.ImageSet.Chain
import VirtualDisk.Proofs.ImageSet.View

/-!
# Reads of a set show its view

A sector is looked for along the chain. On the way bitmaps are loaded into the caches of the images
that are asked, so every step of the chain leaves another set, but no step leaves another view. The
owner that is found shows the sector on its own, and what it shows is the view of the image that was
asked first.
-/

namespace VirtualDisk

open Storage

namespace SetState

variable {ι : Type} {state : SetState ι} {member : Member ι} {id sector offset count : Nat}
variable {buffer : ByteArray}

/-- The setting of a disk that is sound. -/
abbrev plain (disk : ι) : Setting ι := .free disk False fun _ => True

theorem free_plain (disk : ι) (request : Request) (content : Content) :
    (plain disk).permits request content := trivial

/-- The member needs no parent for the sector. -/
def Owns (state : SetState ι) (id sector : Nat) : Prop :=
  ∃ member, state.set.member id = .ok member ∧ (sector < member.image.totalSectors →
    member.image.diskType = .differencing → (state.written id sector).isSome)

theorem Owns.onlyRead {state' : SetState ι} (h : state.Owns id sector)
    (onlyRead : OnlyRead state state') :
    state'.Owns id sector := by
  obtain ⟨member, hmember, hown⟩ := h
  obtain ⟨image, hmember', hfooter⟩ := onlyRead.sameFooters.members id member hmember
  refine ⟨_, hmember', ?_⟩
  intro inside hkind
  rw [onlyRead.written_eq]
  apply hown
  · rwa [hfooter.totalSectors_eq] at inside
  · rwa [hfooter.diskType] at hkind

theorem transfer_one {image : Image ι} (inside : sector < image.totalSectors) :
    image.transfer sector 1 = 1 := by
  change min 1 (image.totalSectors - sector) = 1
  omega

theorem transfer_past {image : Image ι} (hpast : image.totalSectors ≤ sector) :
    image.transfer sector 1 = 0 := by
  change min 1 (image.totalSectors - sector) = 0
  omega

/-- An image was read without its parent. -/
def ReadOwn (image : Image ι) (content : Content) (written : Nat → Option Sector)
    (offset count : Nat) (buffer : ByteArray) (result : ReadResult) : Prop :=
  result.truncated = count - image.transfer offset count ∧
    Buffer.Shows (image.own content written) offset 0 (image.transfer offset count) buffer
      result.buffer

variable [DecidableEq ι]

theorem Sound.quiet_succeeds {α : Type} {engine : Engine ι (Image ι) α} {Q : α → Prop}
    (h : Sound state) (hmember : state.set.member id = .ok member) (grows : engine.Grows)
    (quiet : engine.Ensures (plain member.image.disk)
      (fun a image content => (Q a ∧ member.image.SameFooter image ∧
        image.HoldsWritten content (state.written id)) ∧ content = state.contents member.image.disk)
      (fun _ _ _ => False) member.image (state.contents member.image.disk)) :
    (ImageSet.onImage id engine).Succeeds
      (fun a set contents => Q a ∧ OnlyRead state ⟨set, contents, state.written⟩) state.set
      state.contents := by
  apply ImageSet.onImage_succeeds hmember
  have quiet' : engine.Ensures (plain member.image.disk)
      (fun a image content => (Q a ∧ member.image.SameFooter image ∧
        image.HoldsWritten (state.contents member.image.disk) (state.written id)) ∧
          content = state.contents member.image.disk)
      (fun _ _ _ => False) member.image (state.contents member.image.disk) := by
    refine quiet.mono_success ?_
    rintro a image content _ ⟨⟨ha, hfooter, hheld⟩, rfl⟩
    exact ⟨⟨ha, hfooter, hheld⟩, rfl⟩
  refine (quiet'.succeeds_unchanged grows fun _ => trivial).mono ?_
  rintro a image contents ⟨⟨ha, hfooter, hheld⟩, rfl⟩
  exact ⟨ha, .put h hmember hfooter hheld⟩

/-- The chain leads to an owner, which shows what the first image shows. The induction is on the
number, which decreases along the chain. -/
theorem Sound.resolve_succeeds (h : Sound state) (hmember : state.set.member id = .ok member)
    (sector : Nat) :
    (ImageSet.resolve sector id).Succeeds
      (fun owner set contents => OnlyRead state ⟨set, contents, state.written⟩ ∧
        Owns ⟨set, contents, state.written⟩ owner sector ∧
        state.view owner sector = state.view id sector) state.set state.contents := by
  induction id using Nat.strongRecOn generalizing state member with
  | ind id ih =>
    have free := free_plain (ι := ι) member.image.disk
    rw [ImageSet.resolve]
    apply Engine.succeeds_get_bind
    apply Engine.succeeds_liftExcept_bind hmember
    split
    · next hown =>
      refine Engine.succeeds_pure ⟨.refl h, ⟨member, hmember, fun inside hkind => ?_⟩, rfl⟩
      obtain hkind' | hpast := hown
      · exact absurd hkind hkind'
      · exact absurd inside (Nat.not_lt.mpr hpast)
    · next hask =>
      obtain ⟨hkind, hinside⟩ := not_or.mp hask
      have kind : member.image.diskType = .differencing := Decidable.not_not.mp hkind
      have inside : sector < member.image.totalSectors := Nat.not_le.mp hinside
      have hne : member.image.diskType ≠ .fixed := ne_of_eq_of_ne kind (by decide)
      have hlook := h.quiet_succeeds hmember
        (Image.grows_onBlocks fun disk => BlockMap.grows_holds disk sector)
        (((h.holdsWritten id member hmember).holds_ensures free rfl hne inside))
      apply Engine.succeeds_bind
      refine hlook.mono ?_
      rintro found set contents ⟨rfl, honly⟩
      split
      · next hfound =>
        refine Engine.succeeds_pure ⟨honly, ?_, rfl⟩
        exact Owns.onlyRead ⟨member, hmember, fun _ _ => hfound⟩ honly
      · next hmissing =>
        have hnone : state.written id sector = none := by
          rwa [Bool.not_eq_true, Option.isSome_eq_false_iff, Option.isNone_iff_eq_none] at hmissing
        obtain ⟨parent, hlt, hparent⟩ := h.rooted id member hmember kind
        rw [hparent]
        dsimp only
        rw [dif_pos hlt]
        have hsize : parent < set.size := by
          rw [honly.sameFooters.size_eq]
          exact Nat.lt_trans hlt (ImageSet.lt_size hmember)
        obtain ⟨next, hnext⟩ := ImageSet.exists_member hsize
        refine (ih parent hlt honly.sound hnext).mono ?_
        rintro owner set' contents' ⟨honly', howns, hview⟩
        refine ⟨honly.trans honly', howns, ?_⟩
        rw [honly.view_eq] at hview
        rw [hview, view_parent hmember inside kind hnone hparent hlt]

theorem Sound.readFlat_succeeds (h : Sound state) (hmember : state.set.member id = .ok member)
    (hlayout : member.image.layout = .fixed) (holds : Buffer.Holds buffer.size count) :
    (liftM (member.image.readFlat offset count buffer) :
      Engine ι (ImageSet ι) ReadResult).Succeeds
      (fun result set contents => ReadOwn member.image (state.contents member.image.disk)
          (state.written id) offset count buffer result ∧
        OnlyRead state ⟨set, contents, state.written⟩) state.set state.contents := by
  have hkind : member.image.diskType = .fixed := by
    rw [Image.diskType, hlayout]
    rfl
  have hown : (state.contents member.image.disk).flatSector =
      member.image.own (state.contents member.image.disk) (state.written id) := by
    funext sector
    rw [Image.own, if_pos hkind]
  have hread : (liftM (member.image.readFlat offset count buffer) :
      Engine ι (ImageSet ι) ReadResult).Ensures (plain member.image.disk)
      (fun result set content => (ReadOwn member.image (state.contents member.image.disk)
          (state.written id) offset count buffer result ∧ set = state.set) ∧
        content = state.contents member.image.disk)
      (fun _ _ _ => False) state.set (state.contents member.image.disk) := by
    rw [Engine.ensures_liftAccess]
    refine (Image.readFlat_ensures (Setting.readable_free ..) rfl
      ((h.holdsWritten id member hmember).stored hkind) offset count buffer).mono ?_
      fun _ _ _ hfailed => hfailed.1 holds
    rintro result content _ ⟨hcontent, htruncated, hshows⟩
    rw [hown] at hshows
    exact ⟨⟨⟨htruncated, hshows⟩, rfl⟩, hcontent⟩
  refine (hread.succeeds_unchanged (Engine.grows_liftAccess (Image.grows_readFlat _ _ _ _))
    fun _ => trivial).mono ?_
  rintro result set contents ⟨⟨hresult, rfl⟩, rfl⟩
  exact ⟨hresult, .refl h⟩

theorem Sound.readBlocks_succeeds (h : Sound state) (hmember : state.set.member id = .ok member)
    (hkind : member.image.diskType ≠ .fixed) (holds : Buffer.Holds buffer.size count) :
    (ImageSet.onImage id (Image.readBlocks offset count buffer)).Succeeds
      (fun result set contents => ReadOwn member.image (state.contents member.image.disk)
          (state.written id) offset count buffer result ∧
        OnlyRead state ⟨set, contents, state.written⟩) state.set state.contents := by
  apply h.quiet_succeeds hmember (Image.grows_readBlocks offset count buffer)
  have hread := (h.holdsWritten id member hmember).readBlocks_ensures (free_plain _) rfl hkind
    offset count buffer
  refine hread.mono ?_ fun _ _ _ _ hfailed => hfailed holds
  rintro result image content _ ⟨⟨htruncated, hshows, hfooter, hheld⟩, hcontent⟩
  exact ⟨⟨⟨htruncated, hshows⟩, hfooter, hheld⟩, hcontent⟩

theorem Sound.readSector_succeeds (h : Sound state) (hmember : state.set.member id = .ok member)
    (sector : Nat) :
    (ImageSet.readSector id sector).Succeeds
      (fun bytes set contents => bytes = state.view id sector ∧
        OnlyRead state ⟨set, contents, state.written⟩) state.set state.contents := by
  apply Engine.succeeds_bind
  refine (h.resolve_succeeds hmember sector).mono ?_
  rintro owner set contents ⟨honly, ⟨found, hfound, hown⟩, hview⟩
  apply Engine.succeeds_get_bind
  apply Engine.succeeds_liftExcept_bind (ImageSet.image_eq_ok hfound)
  have holds : Buffer.Holds (Bytes.zero 512).toByteArray.size 1 :=
    Buffer.holds_sector _
  have take : ∀ result set' contents', ReadOwn found.image (contents found.image.disk)
      (state.written owner) sector 1 (Bytes.zero 512).toByteArray result →
      OnlyRead ⟨set, contents, state.written⟩ ⟨set', contents', state.written⟩ →
      Engine.Succeeds
        (if result.truncated ≠ 0 then pure (Bytes.zero 512)
          else liftM (Buffer.sector result.buffer 0))
        (fun bytes set contents => bytes = state.view id sector ∧
          OnlyRead state ⟨set, contents, state.written⟩) set' contents' := by
    intro result set' contents' ⟨htruncated, hshows⟩ honly'
    have hend := honly.trans honly'
    rw [← hview, ← honly.view_eq]
    by_cases inside : sector < found.image.totalSectors
    · rw [transfer_one inside] at htruncated hshows
      have hsize : result.buffer.size = 512 := hshows.size_eq.trans (Bytes.size_toByteArray _)
      have hslot : 0 * 512 + 512 ≤ result.buffer.size := by omega
      rw [if_neg (by omega), Buffer.sector_eq hslot]
      refine Engine.succeeds_pure ⟨?_, hend⟩
      rw [view_own hfound inside (hown inside)]
      exact hshows.slot_eq 0 Nat.one_pos
    · have hpast := Nat.not_lt.mp inside
      rw [transfer_past hpast] at htruncated
      rw [if_pos (by omega)]
      exact Engine.succeeds_pure ⟨(view_past hfound hpast).symm, hend⟩
  dsimp only
  split
  · next hlayout =>
    apply Engine.succeeds_bind
    refine (honly.sound.readFlat_succeeds hfound hlayout holds).mono ?_
    rintro result set' contents' ⟨hresult, honly'⟩
    exact take result set' contents' hresult honly'
  · next hlayout =>
    apply Engine.succeeds_bind
    have hkind : found.image.diskType ≠ .fixed := fun hfixed =>
      hlayout (Image.layout_of_fixed hfixed)
    refine (honly.sound.readBlocks_succeeds hfound hkind holds).mono ?_
    rintro result set' contents' ⟨hresult, honly'⟩
    exact take result set' contents' hresult honly'

end SetState

end VirtualDisk
