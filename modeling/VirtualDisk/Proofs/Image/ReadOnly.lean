import VirtualDisk.Proofs.Image.Reading

/-!
# Read-only images

A read-only image leaves its disk alone: all that is ever asked of it are reads and flushes. No
change waits in its cache, writes are accepted and ignored, and it is read as if it had just been
opened. `Rests` says so of one call, `Always` carries it through any number of calls. Each call has
its own plan of requests that fail.
-/

namespace VirtualDisk

open Storage

variable {ι σ κ : Type}

variable [DecidableEq ι]

/-- Every call is made on what the one before it leaves, with the failures that its plan has. -/
def Always (engine : κ → Engine ι σ Answer)
    (Good : κ → List (Option Error) → σ → (ι → Content) → Prop) :
    List (κ × List (Option Error)) → σ → (ι → Content) → Prop
  | [], _, _ => True
  | (call, plan) :: calls, state, contents =>
    let run := (engine call).runOn shelf.flaky state (contents, plan)
    Good call plan state contents ∧ Always engine Good calls run.1.2 run.2.1

theorem Always.of_invariant {engine : κ → Engine ι σ Answer}
    {Good : κ → List (Option Error) → σ → (ι → Content) → Prop} (Allowed : κ → Prop)
    (I : σ → (ι → Content) → Prop)
    (step : ∀ call plan state contents, Allowed call → I state contents →
      Good call plan state contents ∧
        I ((engine call).runOn shelf.flaky state (contents, plan)).1.2
          ((engine call).runOn shelf.flaky state (contents, plan)).2.1)
    {calls : List (κ × List (Option Error))} {state : σ} {contents : ι → Content}
    (allowed : ∀ call ∈ calls, Allowed call.1) (hI : I state contents) :
    Always engine Good calls state contents := by
  induction calls generalizing state contents with
  | nil => trivial
  | cons call calls ih =>
    obtain ⟨hgood, hI'⟩ :=
      step call.1 call.2 state contents (allowed call (List.mem_cons_self ..)) hI
    exact ⟨hgood, ih (fun other hother => allowed other (List.mem_cons_of_mem _ hother)) hI'⟩

/-- A call leaves a disk alone. -/
structure Rests (disk : ι) (content : Content) (Clean : σ → Prop)
    (Answered : Prop → Except Error Answer → Prop) (engine : Engine ι σ Answer)
    (plan : List (Option Error)) (state : σ) (contents : ι → Content) : Prop where
  /-- No change is asked of it. -/
  asks : ∀ asked ∈ engine.requests shelf.flaky state (contents, plan), asked.1 = disk →
    ¬ asked.2.Changes
  content_eq : (engine.runOn shelf.flaky state (contents, plan)).2.1 disk = content
  clean : Clean (engine.runOn shelf.flaky state (contents, plan)).1.2
  answered : Answered (engine.Faultless shelf state contents plan)
    (engine.runOn shelf.flaky state (contents, plan)).1.1

theorem Rests.of_obeys {disk : ι} {content : Content} {Clean : σ → Prop}
    {Answered : Prop → Except Error Answer → Prop} {engine : Engine ι σ Answer}
    {plan : List (Option Error)} {state : σ} {contents : ι → Content} {Q : σ → Prop}
    (h : engine.Obeys (.watching disk content True) (fun _ => Q) (fun _ => Q) state)
    (hcontent : contents disk = content) (clean : ∀ state, Q state → Clean state)
    (answered : Answered (engine.Faultless shelf state contents plan)
      (engine.runOn shelf.flaky state (contents, plan)).1.1) :
    Rests disk content Clean Answered engine plan state contents ∧
      Q (engine.runOn shelf.flaky state (contents, plan)).1.2 := by
  have governs : (Protocol.watching disk content True).Governs shelf.flaky
      fun world => world.1 disk = content := Protocol.watching_governs
  obtain ⟨hpost, hcontent'⟩ := h.runOn governs (contents, plan) hcontent
  have hQ : Q (engine.runOn shelf.flaky state (contents, plan)).1.2 := by
    rcases hrun : (engine.runOn shelf.flaky state (contents, plan)).1 with ⟨result, state'⟩
    rw [hrun] at hpost
    cases result with
    | ok answer => exact hpost
    | error e => exact hpost
  refine ⟨⟨fun asked hasked hdisk => ?_, hcontent', clean _ hQ, answered⟩, hQ⟩
  obtain ⟨-, hkeeps⟩ | ⟨hne, -⟩ := Program.Obeys.requests h governs hcontent asked hasked
  · exact hkeeps
  · exact absurd hdisk hne

/-- The result of a read is that of an image which is opened on the same bytes. -/
def Image.ReadsFresh (ι : Type) (content : Content) (offset count : Nat) (buffer : ByteArray)
    (result : Except Error ReadResult) : Prop :=
  ∀ (disk : ι) (readOnly : Bool) (content' : Content) (fresh : Image ι),
    content.SameBytes content' →
    (Image.ofDisk disk readOnly).runOn sole content' = (.ok fresh, content') →
    ((Image.read offset count buffer).runOn sole fresh content').1.1 = result

/-- What a read-only image answers. Nothing is said about reads of differencing images, which take
their parents, nor about reads that meet a failure. -/
def Operation.AnsweredReadOnly (ι : Type) (kind : DiskType) (content : Content) :
    Operation → Prop → Except Error Answer → Prop
  | read offset count buffer, faultless, answer => kind ≠ .differencing → faultless →
    ∃ result, answer = result.map .shown ∧ Image.ReadsFresh ι content offset count buffer result
  | write _ _ _, _, answer => answer = .ok (.written 0)
  | flush, _, _ => True

/-- No change of a bitmap waits to be stored. -/
def Image.Clean (image : Image ι) : Prop :=
  ∀ map, image.blocks? = some map → map.bitmap.dirty = false

namespace Image

variable {disk : ι} {image image' : Image ι} {content : Content}

omit [DecidableEq ι] in
/-- A read of a twin has the result of a read of an image that is opened on the same bytes. -/
theorem OpenedAs.readsFresh {readOnly : Bool} (h : OpenedAs disk readOnly content image)
    (hsize : content.size < 2 ^ 64) (twin : image.Twin image' content) (offset count : Nat)
    (buffer : ByteArray) : ReadsFresh ι content offset count buffer
      ((read offset count buffer).runOn sole image' content).1.1 := by
  intro disk' readOnly' content' fresh same hrun
  obtain ⟨-, hfresh⟩ := openedAs_of_ofDisk (same.size_eq ▸ hsize) hrun
  rw [twin.runOn_read, (Engine.runOn_sole_congr same _ _).1]
  exact (h.twin hfresh same).runOn_read offset count buffer

section Opened

variable (h : OpenedAs disk true content image) (stays : image.Stays content image')
include h stays

omit [DecidableEq ι] in
theorem OpenedAs.reads (others : Prop) :
    (Protocol.watching disk content others).Reads image'.disk content := by
  rw [stays.disk_eq, h.disk_eq]
  exact Protocol.watching_reads

omit [DecidableEq ι] in
/-- Whatever is done with it, an image that was opened read-only still is one. -/
theorem OpenedAs.operation_obeys (others : Prop) (op : Operation) :
    op.engine.Keeps (.watching disk content others) (fun _ => True) (Stays content) image' :=
  operation_keeps_exact (h.reads stays others) (stays.twin h.exact).exact'
    (stays.readOnly_eq.trans h.readOnly_eq) op

theorem OpenedAs.answered (hsize : content.size < 2 ^ 64) {contents : ι → Content}
    (hcontent : contents disk = content) (op : Operation) (plan : List (Option Error)) :
    op.AnsweredReadOnly ι image.diskType content (op.engine.Faultless shelf image' contents plan)
      (op.engine.runOn shelf.flaky image' (contents, plan)).1.1 := by
  cases op with
  | read offset count buffer =>
    intro _ faultless
    have obeys := h.operation_obeys stays False (.read offset count buffer)
    refine ⟨_, ?_, h.readsFresh hsize (stays.twin h.exact) offset count buffer⟩
    apply (congrArg Prod.fst (Program.Obeys.run_faultless obeys hcontent faultless)).trans
    exact Engine.result_bind_pure ..
  | write offset count buffer =>
    have mode : image'.readOnly = true := stays.readOnly_eq.trans h.readOnly_eq
    apply (Engine.result_bind_pure ..).trans
    rw [write, Engine.runOn_bind_ok (Engine.runOn_get ..), if_pos mode]
    rfl
  | flush => trivial

omit [DecidableEq ι] h in
theorem Stays.clean (exact : image.Exact content) : image'.Clean :=
  fun map hmap => ((stays.twin exact).exact' map hmap).clean

end Opened

/-- Used alone, a read-only image leaves its disk alone. -/
theorem OpenedAs.always (h : OpenedAs disk true content image) (hsize : content.size < 2 ^ 64)
    (calls : List (Operation × List (Option Error))) {contents : ι → Content}
    (hcontent : contents disk = content) :
    Always Operation.engine
      (fun op => Rests disk content Clean (op.AnsweredReadOnly ι image.diskType content) op.engine)
      calls image contents := by
  apply Always.of_invariant (fun _ => True)
    (fun image' contents => image.Stays content image' ∧ contents disk = content) _
    (fun _ _ => trivial) ⟨refl_of (Stays content) image, hcontent⟩
  rintro op plan image' contents - ⟨stays, hcontent⟩
  have obeys : op.engine.Obeys (.watching disk content True) (fun _ => image.Stays content)
      (fun _ => image.Stays content) image' :=
    (h.operation_obeys stays True op).mono (fun _ _ h' => trans_of (Stays content) stays h')
      fun _ _ he => trans_of (Stays content) stays he.2
  obtain ⟨rests, stays'⟩ := Rests.of_obeys obeys hcontent (fun _ h' => h'.clean h.exact)
    (h.answered stays hsize hcontent op plan)
  exact ⟨rests, stays', rests.content_eq⟩

end Image

end VirtualDisk
