import VirtualDisk.Proofs.Image.ReadOnly
import VirtualDisk.Proofs.ImageSet.Upholding

/-!
# Read-only images in sets

A read-only image leaves its disk alone as a member of a set, too. Reads of its descendants pass
through it, and calls on all images reach it; none of them asks for a change.
-/

namespace VirtualDisk

open Storage

variable {ι α : Type}

namespace SetCall

/-- The member is only used as a whole image: its sectors are not written past the check of its
mode. -/
def Minds (id : Nat) (call : SetCall) : Prop :=
  ∀ call', call = .on id call' → ∃ op, call' = .use op

/-- What the set answers to calls on a read-only member. -/
def AnsweredReadOnly (ι : Type) (id : Nat) (kind : DiskType) (content : Content) :
    SetCall → Prop → Except Error Answer → Prop
  | on other (.use op), faultless, answer =>
    other = id → op.AnsweredReadOnly ι kind content faultless answer
  | read other offset count buffer, faultless, answer => other = id →
    (Operation.read offset count buffer).AnsweredReadOnly ι kind content faultless answer
  | _, _, _ => True

end SetCall

namespace ImageSet

/-- The member has an image on the disk; no other member has. -/
structure Houses (set : ImageSet ι) (id : Nat) (image : Image ι) (disk : ι) : Prop where
  own : ∃ link, set.member id = .ok ⟨image, link⟩
  apart : ∀ other member, set.member other = .ok member → other ≠ id → member.image.disk ≠ disk

theorem houses_single (image : Image ι) (disk : ι) :
    (ImageSet.empty.push image none).2.Houses 0 image disk := by
  refine ⟨⟨none, member_push_self⟩, fun other member hmember hne => ?_⟩
  obtain ⟨rfl, -⟩ | ⟨-, hbefore⟩ := of_member_push hmember
  · exact absurd rfl hne
  · exact absurd (lt_size hbefore) (Nat.not_lt_zero other)

/-- The one member stays what it was; the other ones are elsewhere. -/
def Beside (disk : ι) (content : Content) (image : Image ι) (id other : Nat) (member : Member ι) :
    Prop :=
  (other = id → image.Stays content member.image) ∧ (other ≠ id → member.image.disk ≠ disk)

variable {disk : ι} {content : Content} {image : Image ι} {set : ImageSet ι} {id other : Nat}
variable {member : Member ι}

theorem Houses.upholds (h : set.Houses id image disk) :
    set.Upholds (Beside disk content image id) set.size := by
  refine ⟨rfl, fun other member hmember => ⟨?_, h.apart other member hmember⟩⟩
  rintro rfl
  obtain ⟨link, hown⟩ := h.own
  obtain rfl := Except.ok.inj (hown.symm.trans hmember)
  exact refl_of (Image.Stays content) image

/-- What is kept of the one member on its disk, and of the other ones elsewhere. -/
theorem Beside.keepsMember {P : Protocol ι} {engine : Engine ι (Image ι) α}
    (h : Beside disk content image id other member)
    (own : other = id → image.Stays content member.image →
      engine.Keeps P (fun _ => True) (Image.Stays content) member.image)
    (apart : other ≠ id → member.image.disk ≠ disk →
      engine.Keeps P (fun _ => True) Image.SameButBlocks member.image) :
    KeepsMember P (fun _ => True) (Beside disk content image id) other member engine := by
  by_cases hid : other = id
  · have hafter : ∀ image', member.image.Stays content image' →
        Beside disk content image id other { member with image := image' } :=
      fun image' hstays => ⟨fun _ => trans_of (Image.Stays content) (h.1 hid) hstays,
        fun hne => absurd hid hne⟩
    exact (own hid (h.1 hid)).mono (fun _ image' hstays => hafter image' hstays)
      fun _ image' he => ⟨trivial, hafter image' he.2⟩
  · have hafter : ∀ image', member.image.SameButBlocks image' →
        Beside disk content image id other { member with image := image' } :=
      fun image' hbut => ⟨fun hid' => absurd hid' hid, fun _ => hbut.disk.symm ▸ h.2 hid⟩
    exact (apart hid (h.2 hid)).mono (fun _ image' hbut => hafter image' hbut)
      fun _ image' he => ⟨trivial, hafter image' he.2⟩

theorem watching_grants {disk' : ι} (hne : disk' ≠ disk) :
    (Protocol.watching disk content True).Grants disk' fun _ => True :=
  ⟨fun _ => .inr ⟨hne, trivial⟩, fun _ _ _ => trivial, fun _ _ => trivial⟩

theorem runOn_read {ω : Type} (hmember : set.member id = .ok member)
    (hkind : member.image.diskType ≠ .differencing) (offset count : Nat) (buffer : ByteArray)
    (server : Server ι ω) (world : ω) :
    (read id offset count buffer).runOn server set world =
      (onImage id (Image.read offset count buffer)).runOn server set world := by
  rw [read, Engine.runOn_bind_ok (Engine.runOn_get ..), image_eq_ok hmember,
    Engine.runOn_bind_ok (Engine.runOn_liftExcept ..), if_neg hkind]

variable (h : Image.OpenedAs disk true content image)
include h

theorem calls_beside :
    Calls (.watching disk content True) (fun _ => True) (Beside disk content image id) where
  plain _ _ := trivial
  rooted _ _ _ _ _ := trivial
  holds _ _ sector hI := hI.keepsMember
    (fun _ stays => Image.holds_keeps_exact (h.reads stays True) (stays.twin h.exact).exact' sector)
    fun _ hne => Image.holds_keeps (watching_grants hne) sector
  readFlat other member offset count buffer hI := by
    by_cases hid : other = id
    · exact Image.readFlat_reads (h.reads (hI.1 hid) True) offset count buffer
    · exact Image.readFlat_minds (watching_grants (hI.2 hid)).allows offset count buffer
  readBlocks _ _ offset count buffer hI := hI.keepsMember
    (fun _ stays => Image.readBlocks_keeps_exact (h.reads stays True) (stays.twin h.exact).exact'
      offset count buffer)
    fun _ hne => Image.readBlocks_keeps (watching_grants hne) offset count buffer
  flush _ _ hI := hI.keepsMember
    (fun _ stays => Image.flush_keeps_exact (h.reads stays True) (stays.twin h.exact).exact')
    fun _ hne => Image.flush_keeps (watching_grants hne)

variable {size : Nat} (hset : set.Upholds (Beside disk content image id) size)
include hset

/-- No call on the set changes the member or its disk. -/
theorem call_beside (call : SetCall) (minds : call.Minds id) :
    call.engine.Obeys (.watching disk content True)
      (fun _ set' => set'.Upholds (Beside disk content image id) size)
      (fun _ set' => set'.Upholds (Beside disk content image id) size) set := by
  have hkeeps := SetCall.obeys (calls_beside h) hset (fun _ => trivial) call
    fun other call' hcall member hI => hI.keepsMember
      (fun hid stays => by
        obtain ⟨op, rfl⟩ := minds call' (hid ▸ hcall)
        exact h.operation_obeys stays True op)
      fun _ hne => call'.keeps (watching_grants hne) fun _ => trivial
  exact hkeeps.mono (fun _ _ h' => h') fun _ _ he => he.2

omit h in
theorem onImage_beside {engine : Engine ι (Image ι) α}
    (own : ∀ image', image.Stays content image' →
      engine.Keeps (.watching disk content False) (fun _ => True) (Image.Stays content) image') :
    (onImage id engine).Obeys (.watching disk content False) (fun _ _ => True) (fun _ _ => True)
      set := by
  have hkeeps := onImage_obeys hset (.inr trivial) fun member _ hI =>
    hI.keepsMember (fun _ stays => own member.image stays) fun hne => absurd rfl hne
  exact hkeeps.mono (fun _ _ _ => trivial) fun _ _ _ => trivial

variable [DecidableEq ι]

/-- A read of the member has the result of a read of an image that is opened on the same bytes. -/
theorem read_beside (hsize : content.size < 2 ^ 64) {contents : ι → Content}
    (hmember : set.member id = .ok member) (hcontent : contents disk = content)
    {engine : Engine ι (ImageSet ι) Answer} {plan : List (Option Error)} {offset count : Nat}
    {buffer : ByteArray}
    (obeys : engine.Obeys (.watching disk content False) (fun _ _ => True) (fun _ _ => True) set)
    (hrun : (engine.runOn sole set content).1.1 =
      ((Image.read offset count buffer).runOn sole member.image content).1.1.map .shown)
    (faultless : engine.Faultless shelf set contents plan) :
    ∃ result, (engine.runOn shelf.flaky set (contents, plan)).1.1 = result.map .shown ∧
      Image.ReadsFresh ι content offset count buffer result := by
  have stays := (hset.each id member hmember).1 rfl
  refine ⟨_, ?_, h.readsFresh hsize (stays.twin h.exact) offset count buffer⟩
  exact (congrArg Prod.fst (Program.Obeys.run_faultless obeys hcontent faultless)).trans hrun

theorem operation_beside (hsize : content.size < 2 ^ 64) {contents : ι → Content}
    (hmember : set.member id = .ok member) (hcontent : contents disk = content) (op : Operation)
    (plan : List (Option Error)) :
    op.AnsweredReadOnly ι image.diskType content
      ((onImage id op.engine).Faultless shelf set contents plan)
      ((onImage id op.engine).runOn shelf.flaky set (contents, plan)).1.1 := by
  have stays := (hset.each id member hmember).1 rfl
  cases op with
  | read offset count buffer =>
    intro _ faultless
    apply read_beside h hset hsize hmember hcontent _ _ faultless
    · exact onImage_beside hset fun image' stays => h.operation_obeys stays False _
    · rw [runOn_onImage hmember]
      exact Engine.result_bind_pure ..
  | write offset count buffer =>
    have hown := h.answered stays hsize hcontent (.write offset count buffer) plan
    rw [runOn_onImage hmember]
    exact hown
  | flush => trivial

theorem read_member_beside (hsize : content.size < 2 ^ 64) {contents : ι → Content}
    (hmember : set.member id = .ok member) (hcontent : contents disk = content)
    (offset count : Nat) (buffer : ByteArray) (plan : List (Option Error)) :
    (Operation.read offset count buffer).AnsweredReadOnly ι image.diskType content
      ((SetCall.read id offset count buffer).engine.Faultless shelf set contents plan)
      ((SetCall.read id offset count buffer).engine.runOn shelf.flaky set
        (contents, plan)).1.1 := by
  intro hkind faultless
  have twin := ((hset.each id member hmember).1 rfl).twin h.exact
  rw [← twin.diskType_eq] at hkind
  have own : (onImage id (Image.read offset count buffer)).Obeys (.watching disk content False)
      (fun _ _ => True) (fun _ _ => True) set :=
    onImage_beside hset fun image' stays => Image.read_keeps_exact (h.reads stays False)
      (stays.twin h.exact).exact' offset count buffer
  apply read_beside h hset hsize hmember hcontent _ _ faultless
  · apply Engine.obeys_bind.mpr
    apply Engine.obeys_get_bind.mpr
    apply Engine.obeys_liftExcept_bind.mpr
    rw [image_eq_ok hmember]
    dsimp only [Access.Outcome]
    rw [if_neg hkind]
    exact own
  · rw [SetCall.engine]
    apply (Engine.result_bind_pure ..).trans
    rw [runOn_read hmember hkind, runOn_onImage hmember]

theorem answered_beside (hsize : content.size < 2 ^ 64) {contents : ι → Content}
    (hmember : set.member id = .ok member) (hcontent : contents disk = content) (call : SetCall)
    (plan : List (Option Error)) :
    call.AnsweredReadOnly ι id image.diskType content
      (call.engine.Faultless shelf set contents plan)
      (call.engine.runOn shelf.flaky set (contents, plan)).1.1 := by
  cases call with
  | on other call' => cases call' with
    | use op =>
      rintro rfl
      exact operation_beside h hset hsize hmember hcontent op plan
    | _ => trivial
  | read other offset count buffer =>
    rintro rfl
    exact read_member_beside h hset hsize hmember hcontent offset count buffer plan
  | readChain => trivial
  | flush => trivial

end ImageSet

open ImageSet in
/-- A read-only image leaves its disk alone, used alone or as a member of a set. -/
theorem read_only_images_rest [DecidableEq ι] {disk : ι} {content content' : Content}
    {image : Image ι} (hsize : content.size < 2 ^ 64)
    (hopen : (Image.ofDisk disk true).runOn sole content = (.ok image, content')) :
    (∀ contents : ι → Content, contents disk = content →
      ∀ calls : List (Operation × List (Option Error)),
        Always Operation.engine (fun op => Rests disk content Image.Clean
          (op.AnsweredReadOnly ι image.diskType content) op.engine) calls image contents) ∧
    ∀ contents : ι → Content, contents disk = content → ∀ (set : ImageSet ι) (id : Nat),
      set.Houses id image disk → ∀ calls : List (SetCall × List (Option Error)),
      (∀ call ∈ calls, call.1.Minds id) →
      Always SetCall.engine (fun call => Rests disk content
        (fun set' => ∃ member, set'.member id = .ok member ∧ member.image.Clean)
        (call.AnsweredReadOnly ι id image.diskType content) call.engine) calls set contents := by
  obtain ⟨-, h⟩ := Image.openedAs_of_ofDisk hsize hopen
  refine ⟨fun contents hcontent calls => h.always hsize calls hcontent, ?_⟩
  intro contents hcontent set id hset calls minds
  apply Always.of_invariant (SetCall.Minds id)
    (fun set' contents => set'.Upholds (Beside disk content image id) set.size ∧
      contents disk = content) _ minds ⟨hset.upholds, hcontent⟩
  rintro call plan set' contents minds ⟨upholds, hcontent⟩
  have hfound {set'' : ImageSet ι} (h' : set''.Upholds (Beside disk content image id) set.size) :
      ∃ member, set''.member id = .ok member ∧ image.Stays content member.image := by
    obtain ⟨link, hown⟩ := hset.own
    obtain ⟨member, hmember⟩ := exists_member (h'.size_eq.symm ▸ lt_size hown)
    exact ⟨member, hmember, (h'.each id member hmember).1 rfl⟩
  have clean (set'' : ImageSet ι) (h' : set''.Upholds (Beside disk content image id) set.size) :
      ∃ member, set''.member id = .ok member ∧ member.image.Clean := by
    obtain ⟨member, hmember, stays⟩ := hfound h'
    exact ⟨member, hmember, stays.clean h.exact⟩
  obtain ⟨member, hmember, -⟩ := hfound upholds
  obtain ⟨rests, upholds'⟩ := Rests.of_obeys (call_beside h upholds call minds) hcontent
    clean (answered_beside h upholds hsize hmember hcontent call plan)
  exact ⟨rests, upholds', rests.content_eq⟩

open ImageSet in
/-- A dynamic image that is written and read, once alone and once in a set. -/
theorem read_only_images_rest_small : ∃ (content : Content) (image : Image Bool)
    (set : ImageSet Bool), content.size < 2 ^ 64 ∧
    (Image.ofDisk true true).runOn sole content = (.ok image, content) ∧ set.Houses 0 image true ∧
    Always Operation.engine (fun op => Rests true content Image.Clean
      (op.AnsweredReadOnly Bool image.diskType content) op.engine)
      [(.write 0 1 (Bytes.zero 512).toByteArray, []),
        (.read 0 1 (Bytes.zero 512).toByteArray, [some .offsetOverflow])] image (fun _ => content) ∧
    Always SetCall.engine (fun call => Rests true content
      (fun set' => ∃ member, set'.member 0 = .ok member ∧ member.image.Clean)
      (call.AnsweredReadOnly Bool 0 image.diskType content) call.engine)
      [(.read 0 0 1 (Bytes.zero 512).toByteArray, [none]), (.flush, [])] set fun _ => content := by
  obtain ⟨image, content, -, hnew⟩ := Image.exists_createDynamic
    CreateOptions.checkedGeometry_small creatable_small true .empty
  have hsize : content.size < 2 ^ 64 := Nat.lt_trans hnew.size_lt (by decide)
  have hkind := hnew.footer_ne_fixed (by decide)
  have hopen := Image.runOn_ofDisk true hnew.onDisk hkind hsize true
  obtain ⟨alone, member⟩ := read_only_images_rest hsize hopen
  refine ⟨content, _, _, hsize, hopen, houses_single _ _, alone _ rfl _,
    member _ rfl _ 0 (houses_single _ _) _ ?_⟩
  intro call hcall call' hon
  rw [List.mem_cons, List.mem_singleton] at hcall
  obtain rfl | rfl := hcall
  · cases hon
  · cases hon

end VirtualDisk
