import VirtualDisk.Proofs.Image.Accepting
import VirtualDisk.Proofs.Image.Flat

/-!
# A fixed image is an array of sectors in front of a footer

Whatever is done with a fixed image on a sound storage, it behaves like an array of sectors, and
nothing behind the sectors is ever changed: the storage keeps its size and its footer, by which it
is opened again. This holds of a new image, and of any image that is accepted by the footer at the
end of its storage, which may be longer than the sectors call for. What is written to the sectors
does not matter, even if it looks like a footer.
-/

namespace VirtualDisk

open Storage

variable {ι : Type}

namespace Operation

/-- What the operation amounts to on an image that is open in this mode. If it is open for reading
only, a write is one of no sectors. -/
def under (readOnly : Bool) : Operation → Operation
  | read offset count buffer => read offset count buffer
  | write offset count buffer => write offset (if readOnly then 0 else count) buffer
  | flush => flush

variable {total : Nat} {view view' : Nat → Sector}

theorem after_nothing (total offset : Nat) (buffer : ByteArray) (view : Nat → Sector) :
    (write offset 0 buffer).after total view = view := by
  funext sector
  change Buffer.over buffer offset (min 0 (total - offset)) view sector = view sector
  rw [Nat.zero_min, Buffer.over, if_neg (by omega)]

theorem Answered.congr {op : Operation} {answer : Answer} (h : op.Answered total view answer)
    (same : ∀ sector, sector < total → view sector = view' sector) :
    op.Answered total view' answer := by
  cases op with
  | read offset count buffer =>
    cases answer with
    | shown result =>
      obtain ⟨htruncated, hshows⟩ := h
      refine ⟨htruncated, hshows.size_eq, fun k hk => ?_, hshows.rest⟩
      rw [hshows.slot_eq k hk, same _ (by omega)]
    | written => exact h.elim
    | done => exact h.elim
  | write offset count buffer =>
    cases answer with
    | written => exact h
    | shown => exact h.elim
    | done => exact h.elim
  | flush =>
    cases answer with
    | done => exact h
    | shown => exact h.elim
    | written => exact h.elim

theorem after_congr (op : Operation) (same : ∀ sector, sector < total → view sector = view' sector)
    {sector : Nat} (hsector : sector < total) :
    op.after total view sector = op.after total view' sector := by
  cases op with
  | read offset count buffer => exact same sector hsector
  | write offset count buffer =>
    change Buffer.over buffer offset _ view sector = Buffer.over buffer offset _ view' sector
    rw [Buffer.over, Buffer.over, same sector hsector]
  | flush => exact same sector hsector

variable {S : Setting ι} {image : Image ι} {content : Content}

/-- An operation on a fixed image does to the row of sectors what it means, and nothing to what is
behind. -/
theorem ensures_flat (hpermits : ∀ request content, S.permits request content)
    (hdisk : image.disk = S.disk) (layout : image.layout = .fixed)
    (h : Flat image.footer content) (op : Operation) :
    op.engine.Ensures S
      (fun answer image' content' => image' = image ∧
        (op.under image.readOnly).Answered image.totalSectors content.flatSector answer ∧
        content'.flatSector =
          (op.under image.readOnly).after image.totalSectors content.flatSector ∧
        content.SameFrom content' (image.totalSectors * 512))
      (fun _ _ _ => op.Valid → S.mayFail) image content := by
  cases op with
  | read offset count buffer =>
    simp only [engine, Image.read, Engine.ensures_bind, Engine.ensures_get, layout,
      Engine.ensures_liftAccess, Engine.ensures_pure]
    intro _
    refine (Image.readFlat_ensures ⟨fun _ => hpermits _ _, fun _ _ _ => hpermits _ _⟩ hdisk h offset
      count buffer).mono ?_ fun _ _ _ hfailed => hfailed.1
    rintro result content' _ ⟨rfl, htruncated, hshows⟩ _
    exact ⟨trivial, ⟨htruncated, hshows⟩, rfl, .refl _ _⟩
  | write offset count buffer =>
    simp only [engine, Image.write, Engine.ensures_bind, Engine.ensures_get, layout,
      Engine.ensures_pure]
    intro _
    cases hmode : image.readOnly with
    | true =>
      rw [if_pos rfl, Image.ignoreWrite, Engine.ensures_pure]
      exact fun _ _ => ⟨rfl, (Nat.zero_sub _).symm, (after_nothing _ _ _ _).symm, .refl _ _⟩
    | false =>
      rw [if_neg Bool.false_ne_true, Engine.ensures_liftAccess]
      refine (Image.writeFlat_ensures hpermits hdisk h offset count buffer).mono ?_
        fun _ _ _ hfailed => hfailed.1
      rintro truncated content' _ ⟨htruncated, hsame, hflat⟩ _
      exact ⟨rfl, htruncated, hflat, hsame⟩
  | flush =>
    simp only [engine, Image.flush, Engine.ensures_bind, Engine.ensures_get, Image.blocks?, layout,
      Layout.blocks?, Option.isSome_none, Bool.false_eq_true, if_false, Engine.ensures_pure]
    intro _
    rw [Engine.ensures_liftAccess, hdisk]
    exact .flush (hpermits _ _) (fun _ => ⟨rfl, trivial, rfl, .refl _ _⟩) fun hm _ _ => hm

end Operation

/-- What is done with a fixed image: it is used, or its storage is opened again, for reading only or
for writing too. -/
inductive FlatAct where
  | use (op : Operation)
  | reopen (readOnly : Bool)

namespace FlatAct

/-- The calls of an act. -/
def engine : FlatAct → Engine ι (Image ι) Answer
  | use op => op.engine
  | reopen readOnly => do
    set (← (Image.ofDisk (← get).disk readOnly : Access ι (Image ι)))
    return .done

/-- The buffer of an operation can hold the request. -/
def Valid : FlatAct → Prop
  | use op => op.Valid
  | reopen _ => True

/-- Whether the image is open for reading only after the act. -/
def mode (readOnly : Bool) : FlatAct → Bool
  | use _ => readOnly
  | reopen readOnly => readOnly

/-- The sectors after the act. -/
def after (readOnly : Bool) (total : Nat) (view : Nat → Sector) : FlatAct → Nat → Sector
  | use op => (op.under readOnly).after total view
  | reopen _ => view

/-- The act returns what it should on a disk of `total` sectors with this content. -/
def Answered (readOnly : Bool) (total : Nat) (view : Nat → Sector) : FlatAct → Answer → Prop
  | use op, answer => (op.under readOnly).Answered total view answer
  | reopen _, answer => answer = .done

theorem grows_engine (act : FlatAct) : (act.engine : Engine ι (Image ι) Answer).Grows := by
  cases act with
  | use op => exact op.grows_engine
  | reopen readOnly =>
    exact Engine.grows_bind Engine.grows_get fun image =>
      Engine.grows_bind (Engine.grows_liftAccess (Image.grows_ofDisk image.disk readOnly)) fun _ =>
        Engine.grows_bind (Engine.grows_set _) fun _ => Engine.grows_pure _

variable {total : Nat} {view view' : Nat → Sector}

theorem Answered.congr {act : FlatAct} {readOnly : Bool} {answer : Answer}
    (h : act.Answered readOnly total view answer)
    (same : ∀ sector, sector < total → view sector = view' sector) :
    act.Answered readOnly total view' answer := by
  cases act with
  | use op => exact Operation.Answered.congr h same
  | reopen => exact h

theorem after_congr (act : FlatAct) (readOnly : Bool)
    (same : ∀ sector, sector < total → view sector = view' sector) {sector : Nat}
    (hsector : sector < total) :
    act.after readOnly total view sector = act.after readOnly total view' sector := by
  cases act with
  | use op => exact (op.under readOnly).after_congr same hsector
  | reopen => exact same sector hsector

theorem ensures {S : Setting ι} {footer : Footer} {content : Content}
    (hpermits : ∀ request content, S.permits request content) (h : Flat footer content)
    (hsize : content.size < 2 ^ 64) (readOnly : Bool) (act : FlatAct) :
    act.engine.Ensures S
      (fun answer image' content' => image' = .flat S.disk footer (act.mode readOnly) ∧
        act.Answered readOnly footer.geometry.totalSectors content.flatSector answer ∧
        content'.flatSector =
          act.after readOnly footer.geometry.totalSectors content.flatSector ∧
        content.SameFrom content' (footer.geometry.totalSectors * 512))
      (fun _ _ _ => act.Valid → S.mayFail) (.flat S.disk footer readOnly) content := by
  cases act with
  | use op => exact op.ensures_flat hpermits rfl rfl h
  | reopen mode =>
    simp only [engine, Engine.ensures_bind, Engine.ensures_get, Engine.ensures_liftAccess,
      Engine.ensures_set, Engine.ensures_pure]
    intro _
    refine (Image.ofDisk_ensures_flat ⟨fun _ => hpermits _ _, fun _ _ _ => hpermits _ _⟩ h hsize
      mode).mono ?_ fun _ _ _ hfailed _ => hfailed.1
    rintro image' content' _ ⟨rfl, rfl⟩ _ _
    exact ⟨rfl, rfl, rfl, .refl _ _⟩

end FlatAct

/-- On a sound storage the acts succeed one after the other, and all of them return what they return
for an array of `total` sectors, whose sectors to begin with are those of the view. The storage
holds these sectors, and nothing behind them is changed. -/
def BehavesFixed (total : Nat) : (view : Nat → Sector) → List FlatAct → Image ι → Content → Prop
  | _, [], _, _ => True
  | view, act :: acts, image, content => ∃ answer image' content',
    act.engine.runOn sole image content = ((.ok answer, image'), content') ∧
      act.Answered image.readOnly total view answer ∧
      image'.layout = .fixed ∧ image'.footer = image.footer ∧
      image'.readOnly = act.mode image.readOnly ∧
      content.SameFrom content' (total * 512) ∧ content'.tail = content.tail ∧
      (∀ sector, sector < total →
        content'.flatSector sector = act.after image.readOnly total view sector) ∧
      BehavesFixed total (act.after image.readOnly total view) acts image' content'

namespace Image

variable {footer : Footer} {content : Content} {readOnly : Bool}

theorem runOn_flatAct (disk : ι) (h : Flat footer content) (hsize : content.size < 2 ^ 64)
    (readOnly : Bool) {act : FlatAct} (valid : act.Valid) :
    ∃ answer content',
      act.engine.runOn sole (flat disk footer readOnly) content =
        ((.ok answer, flat disk footer (act.mode readOnly)), content') ∧
      act.Answered readOnly footer.geometry.totalSectors content.flatSector answer ∧
      content'.flatSector =
        act.after readOnly footer.geometry.totalSectors content.flatSector ∧
      content.SameFrom content' (footer.geometry.totalSectors * 512) := by
  obtain ⟨answer, image', content', hrun, rfl, hanswer, hsectors, hsame⟩ :=
    (act.ensures (S := Setting.free disk False fun _ => True) (fun _ _ => trivial) h hsize
      readOnly).runOn_sole_ok act.grows_engine (fun _ _ => trivial)
      fun _ _ _ hfailed => hfailed valid
  exact ⟨answer, content', hrun, hanswer, hsectors, hsame⟩

/-- A fixed image behaves like the array that its storage holds. -/
theorem behavesFixed_of_flat (disk : ι) {view : Nat → Sector} (acts : List FlatAct)
    (valid : ∀ act ∈ acts, act.Valid) {readOnly : Bool} {content : Content}
    (h : Flat footer content) (hsize : content.size < 2 ^ 64)
    (hview : ∀ sector, sector < footer.geometry.totalSectors →
      content.flatSector sector = view sector) :
    BehavesFixed footer.geometry.totalSectors view acts (flat disk footer readOnly) content := by
  induction acts generalizing view readOnly content with
  | nil => trivial
  | cons act acts ih =>
    obtain ⟨answer, content', hrun, hanswer, hsectors, hsame⟩ :=
      runOn_flatAct disk h hsize readOnly (valid act List.mem_cons_self)
    have hview' : ∀ sector, sector < footer.geometry.totalSectors → content'.flatSector sector =
        act.after readOnly footer.geometry.totalSectors view sector := by
      intro sector hsector
      rw [hsectors]
      exact act.after_congr readOnly hview hsector
    refine ⟨answer, _, content', hrun, hanswer.congr hview, rfl, rfl, rfl, hsame,
      hsame.tail_eq h.room, hview', ?_⟩
    refine ih (fun other hother => valid other (List.mem_cons_of_mem _ hother))
      (h.of_sameFrom hsame) ?_ hview'
    rw [hsame.size_eq]
    exact hsize

/-- A fixed image in the beginning, with the sectors that it has then: it was just created, or it
was accepted by the footer at the end of its storage. -/
inductive BeginsFixed : Image ι → Content → (Nat → Sector) → Prop
  | created {disk : ι} {options : CreateOptions} {prior content : Content} {image : Image ι}
      (run : (createFixed disk options).runOn sole prior = (.ok image, content)) :
      BeginsFixed image content fun _ => Bytes.zero 512
  | accepted {disk : ι} {readOnly : Bool} {content content' : Content} {image : Image ι}
      (hsize : content.size < 2 ^ 64)
      (run : (ofDisk disk readOnly).runOn sole content = (.ok image, content'))
      (kind : image.diskType = .fixed)
      (tail : ∃ footer, Footer.parse content.tail = .ok footer) :
      BeginsFixed image content' content.flatSector

/-- A fixed image that was created, or accepted by the footer at the end, behaves like an array of
sectors, to begin with of zeros or of what was on the storage. Its storage keeps its size, its
footer and all bytes behind the sectors. -/
theorem fixed_behaves {image : Image ι} {content : Content} {view : Nat → Sector}
    (begins : BeginsFixed image content view) (acts : List FlatAct)
    (valid : ∀ act ∈ acts, act.Valid) :
    BehavesFixed image.totalSectors view acts image content := by
  cases begins with
  | created run =>
    have hnew := newFlat_of_createFixed run
    have hblank := hnew.blank
    rw [hnew.eq_flat] at hblank ⊢
    exact behavesFixed_of_flat _ acts valid hnew.stored hnew.size_lt hblank
  | accepted hsize run kind tail =>
    obtain ⟨rfl, opened⟩ := openedAs_of_ofDisk hsize run
    cases opened with
    | @fixed footer found hkind room =>
      have hflat : Flat footer content := by
        refine ⟨hkind, ?_, room⟩
        obtain htail | ⟨⟨e, hnone⟩, -⟩ := found.parsed
        · exact htail
        · obtain ⟨other, hother⟩ := tail
          cases hnone.symm.trans hother
      exact behavesFixed_of_flat _ acts valid hflat hsize fun _ _ => rfl
    | blocks found hkind =>
      rw [diskType_opened] at kind
      exact absurd kind hkind

/-- On a small disk: the footer is written over the first sector and over the last, and the storage
is opened again. Then a write is ignored, and a read is cut at the end. -/
theorem fixed_behaves_small : ∃ image content,
    (createFixed () .small).runOn sole .empty = (.ok image, content) ∧
      BehavesFixed image.totalSectors (fun _ => Bytes.zero 512)
        [.use (.write 0 1 content.tail.toByteArray),
          .use (.write 15 1 content.tail.toByteArray), .reopen true,
          .use (.write 0 2 (Bytes.zero 1024).toByteArray),
          .use (.read 15 2 (Bytes.zero 1024).toByteArray)] image content := by
  obtain ⟨image, content, hrun, -⟩ :=
    exists_createFixed CreateOptions.checkedGeometry_small (by decide) () .empty
  refine ⟨image, content, hrun, fixed_behaves (.created hrun) _ ?_⟩
  have hone : Buffer.Holds content.tail.toByteArray.size 1 :=
    ⟨by decide, Nat.le_of_eq content.tail.size_toByteArray.symm⟩
  have htwo : Buffer.Holds (Bytes.zero 1024).toByteArray.size 2 :=
    ⟨by decide, Nat.le_of_eq (Bytes.zero 1024).size_toByteArray.symm⟩
  intro act hact
  simp only [List.mem_cons, List.not_mem_nil, or_false] at hact
  obtain rfl | rfl | rfl | rfl | rfl := hact
  · exact hone
  · exact hone
  · trivial
  · exact htwo
  · exact htwo

end Image

end VirtualDisk
