import VirtualDisk.Proofs.Storage.Servers
import VirtualDisk.Proofs.Image.Creation
import VirtualDisk.Proofs.Image.Operations

/-!
# Failed operations on a dynamic image

Any call to the storage of a dynamic image may fail, without effect and with any error. An operation
that fails for it has done nothing or, if it is a write, has given a first part of its sectors their
bytes; from then on the image goes on like any other. At every time a flush without a failing call
makes the storage one that is opened with the same sectors.
-/

namespace VirtualDisk

open Storage

variable {ι : Type}

/-- An operation during which calls fail according to a plan. -/
structure Attempt where
  op : Operation
  plan : List (Option Error)

/-- The attempt ends with a result, and leaves an image and a storage. -/
def Attempt.run (attempt : Attempt) (image : Image ι) (content : Content) :
    (Except Error Answer × Image ι) × Content :=
  let (outcome, content, _) :=
    attempt.op.engine.runOn (Server.flaky sole) image (content, attempt.plan)
  (outcome, content)

theorem Attempt.of_run {attempt : Attempt} {image : Image ι} {content content' : Content}
    {outcome : Except Error Answer × Image ι}
    (run : attempt.run image content = (outcome, content')) :
    ∃ plan', attempt.op.engine.runOn (Server.flaky sole) image (content, attempt.plan) =
      (outcome, content', plan') := by
  rcases hflaky : attempt.op.engine.runOn (Server.flaky sole) image (content, attempt.plan) with
    ⟨found, content₁, plan'⟩
  simp only [Attempt.run, hflaky, Prod.mk.injEq] at run
  obtain ⟨rfl, rfl⟩ := run
  exact ⟨plan', rfl⟩

/-- If no call fails any more, the image is flushed, and the storage is opened as a disk of `total`
sectors that reads as the view. -/
def Recovers (total : Nat) (view : Nat → Sector) (image : Image ι) (content : Content) : Prop :=
  ∃ image₁ content₁ image₂ content₂,
    Image.flush.runOn sole image content = ((.ok (), image₁), content₁) ∧
    (Image.ofDisk image.disk false).runOn sole content₁ = (.ok image₂, content₂) ∧
    ∀ offset count buffer, Buffer.Holds buffer.size count → ∃ result image₃ content₃,
      (Image.read offset count buffer).runOn sole image₂ content₂ =
        ((.ok result, image₃), content₃) ∧
      result.truncated = count - min count (total - offset) ∧
      Buffer.Shows view offset 0 (min count (total - offset)) buffer result.buffer

/-- As long as the storage stays small, attempts that succeed return what they return for an array
of sectors, attempts that fail have changed a first part of their sectors, and the array could be
recovered at any time. -/
def Survives (total : Nat) : (view : Nat → Sector) → List Attempt → Image ι → Content → Prop
  | view, [], image, content => Recovers total view image content
  | view, attempt :: attempts, image, content => Recovers total view image content ∧
    ∀ result image' content', attempt.run image content = ((result, image'), content') →
      content'.size < sizeLimit →
        match result with
        | .ok answer => attempt.op.Answered total view answer ∧
            Survives total (attempt.op.after total view) attempts image' content'
        | .error _ => ∃ k, k ≤ attempt.op.transfer total ∧
            Survives total (attempt.op.upTo k view) attempts image' content'

namespace Image

variable {footer : Footer} {map : BlockMap} {content : Content}

theorem recovers_of_consistent (disk : ι) (hkind : footer.diskType = .dynamic)
    (h : Consistent footer map content) (small : content.size < sizeLimit) :
    Recovers footer.geometry.totalSectors (map.shown content) (writable disk footer map)
      content := by
  have hne : footer.diskType ≠ .fixed := ne_of_eq_of_ne hkind (by decide)
  have T := Terms.free disk False (fun _ => True) footer fun _ _ => False
  obtain ⟨⟨⟩, image₁, content₁, hflush, map₁, rfl, hclean, hsize, -, hadvance⟩ :=
    (flush_ensures T rfl (blocks?_writable disk hne map) h).runOn_sole_ok grows_flush
      (fun _ _ => trivial) fun _ _ _ hfailed => hfailed.1
  have hlarge : content₁.size < 2 ^ 64 := by
    rw [hsize]
    exact Nat.lt_trans small (by decide)
  obtain ⟨image₂, content₂, hopen, rfl, rfl⟩ :=
    (ofDisk_ensures ⟨T.length, T.read⟩ hadvance.consistent.onDisk hne hlarge false).runOn_sole_ok
      (fun _ => trivial) fun _ _ hfailed => hfailed.1
  refine ⟨_, content₂, _, content₂, hflush, hopen, fun offset count buffer hholds => ?_⟩
  have hreopen := hadvance.consistent.reopen hclean
  have hshown := (BlockMap.shown_eq hreopen.toFollows).trans (BlockMap.shown_eq hadvance.toFollows)
  have hread := read_writable hkind (readBlocks_ensures offset count buffer T rfl
    (blocks?_writable disk hne (.fresh map₁.header map₁.table)) hreopen.consistent)
  obtain ⟨result, image₃, content₃, hrun, map₃, -, htruncated, hshows, -⟩ :=
    hread.runOn_sole_ok (grows_read offset count buffer) (fun _ _ => trivial)
      fun _ _ _ hfailed => hfailed.1 hholds
  rw [hshown] at hshows
  exact ⟨result, image₃, content₃, hrun, htruncated, hshows⟩

/-- An attempt on a consistent image leaves a consistent one. -/
theorem run_attempt (disk : ι) (hkind : footer.diskType = .dynamic)
    (h : Consistent footer map content) {attempt : Attempt} {result : Except Error Answer}
    {image' : Image ι} {content' : Content}
    (hrun : attempt.run (writable disk footer map) content = ((result, image'), content'))
    (small : content'.size < sizeLimit) :
    ∃ map', image' = writable disk footer map' ∧ Consistent footer map' content' ∧
      match result with
      | .ok answer =>
          attempt.op.Answered footer.geometry.totalSectors (map.shown content) answer ∧
          map'.shown content' =
            attempt.op.after footer.geometry.totalSectors (map.shown content)
      | .error _ => ∃ k, k ≤ attempt.op.transfer footer.geometry.totalSectors ∧
          map'.shown content' = attempt.op.upTo k (map.shown content) := by
  have T := Terms.free disk True (fun content => content.size < sizeLimit) footer fun _ _ => True
  have hne : footer.diskType ≠ .fixed := ne_of_eq_of_ne hkind (by decide)
  have hop := Operation.ensures T hne h attempt.op fun _ => .of_small fun _ hw => hw
  obtain ⟨plan', hflaky⟩ := Attempt.of_run hrun
  have hpost := hop.of_flaky_run trivial attempt.op.grows_engine (fun _ hw => hw) hflaky small
  cases result with
  | ok answer =>
    obtain ⟨map', rfl, hanswer, hshown, -, hadvance⟩ := hpost
    exact ⟨map', rfl, hadvance.consistent, hanswer, hshown⟩
  | error e =>
    obtain ⟨-, map', rfl, k, hk, hshown, hfollows⟩ := hpost
    exact ⟨map', rfl, hfollows.consistent, k, hk, hshown⟩

theorem survives_of_consistent (disk : ι) (hkind : footer.diskType = .dynamic)
    (attempts : List Attempt) {map : BlockMap} {content : Content}
    (h : Consistent footer map content) (small : content.size < sizeLimit) :
    Survives footer.geometry.totalSectors (map.shown content) attempts (writable disk footer map)
      content := by
  induction attempts generalizing map content with
  | nil => exact recovers_of_consistent disk hkind h small
  | cons attempt attempts ih =>
    refine ⟨recovers_of_consistent disk hkind h small, fun result image' content' hrun small' => ?_⟩
    obtain ⟨map', rfl, h', hresult⟩ := run_attempt disk hkind h hrun small'
    cases result with
    | ok answer =>
      obtain ⟨hanswer, hshown⟩ := hresult
      have hrest := ih h' small'
      rw [hshown] at hrest
      exact ⟨hanswer, hrest⟩
    | error e =>
      obtain ⟨k, hk, hshown⟩ := hresult
      have hrest := ih h' small'
      rw [hshown] at hrest
      exact ⟨k, hk, hrest⟩

/-- A dynamic image that was created survives any failures of its storage. -/
theorem createDynamic_survives (disk : ι) (options : CreateOptions) (prior content : Content)
    (image : Image ι) (attempts : List Attempt)
    (created : (createDynamic disk options).runOn sole prior = (.ok image, content))
    (small : content.size < sizeLimit) :
    Survives image.totalSectors (fun _ => Bytes.zero 512) attempts image content := by
  obtain ⟨geometry, hnew⟩ := newImage_of_createDynamic created
  have hkind : image.footer.diskType = .dynamic := hnew.readAs.diskType
  have hsurvives := survives_of_consistent disk hkind attempts hnew.consistent small
  rw [hnew.shown_eq] at hsurvives
  rw [hnew.eq_opened]
  exact hsurvives

/-- On a small disk: the second call of a write over both blocks fails, and the write is repeated.
-/
theorem createDynamic_survives_small : ∃ image content,
    (createDynamic () .small).runOn sole .empty = (.ok image, content) ∧ content.size < sizeLimit ∧
      Survives image.totalSectors (fun _ => Bytes.zero 512)
        [⟨.write 7 2 (Bytes.replicate 1024 0x5a).toByteArray, [none, some (.io "bad sector")]⟩,
          ⟨.write 7 2 (Bytes.replicate 1024 0x5a).toByteArray, []⟩,
          ⟨.read 7 2 (Bytes.zero 1024).toByteArray, []⟩] image content := by
  obtain ⟨image, content, hrun, hnew⟩ :=
    exists_createDynamic CreateOptions.checkedGeometry_small creatable_small () .empty
  have hsize : content.size < sizeLimit := Nat.lt_trans hnew.size_lt (by decide)
  exact ⟨image, content, hrun, hsize,
    createDynamic_survives () .small .empty content image _ hrun hsize⟩

end Image

end VirtualDisk
