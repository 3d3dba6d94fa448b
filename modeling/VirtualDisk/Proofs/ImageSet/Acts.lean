import VirtualDisk.Proofs.ImageSet.Upholding

/-!
# How sets come about

Images are added to a set and replaced, with calls in between. An act adds a member at the end,
replaces the image of a member, or leaves every member what it was: `SetAct.cases` says so, and what
is kept by all acts follows from it.
-/

namespace VirtualDisk

open Storage

variable {ι α ω : Type}

namespace ImageSet

/-- The set with another image, on top of a parent if there is one, and its number. -/
def added (set : ImageSet ι) (image : Image ι) : Option Nat → Except Error (Nat × ImageSet ι)
  | none => set.insert image
  | some parent => set.insertDifferencing image parent

/-- Adds an image. -/
def add (image : Image ι) (parent? : Option Nat) : Engine ι (ImageSet ι) Nat := do
  let (id, images) ← (← get).added image parent?
  set images
  return id

/-- Puts another image into the place of a member. -/
def exchange (id : Nat) (image : Image ι) : Engine ι (ImageSet ι) Unit := do
  set (← (← get).replace id image)

end ImageSet

/-- What is done with a set. -/
inductive SetAct (ι : Type) where
  | add (image : Image ι) (parent? : Option Nat)
  | exchange (id : Nat) (image : Image ι)
  | use (call : SetCall)

namespace SetAct

/-- The calls of an act. What they return does not matter here. -/
def engine : SetAct ι → Engine ι (ImageSet ι) Unit
  | add image parent? => do let _ ← ImageSet.add image parent?
  | exchange id image => ImageSet.exchange id image
  | use call => do let _ ← call.engine

/-- No image is replaced by another. -/
def Preserves : SetAct ι → Prop
  | add _ _ => True
  | exchange _ _ => False
  | use _ => True

end SetAct

namespace ImageSet

/-- One set becomes the other by acts of a kind. Each act may succeed or fail, on any disks. -/
inductive Becomes (kind : SetAct ι → Prop) (set : ImageSet ι) : ImageSet ι → Prop
  | refl : Becomes kind set set
  | act {set' : ImageSet ι} {ω : Type} (before : Becomes kind set set') (act : SetAct ι)
      (allowed : kind act) (server : Server ι ω) (world : ω) :
      Becomes kind set (act.engine.runOn server set' world).1.2

variable {set set' : ImageSet ι} {member : Member ι} {image : Image ι} {parent? : Option Nat}
variable {id : Nat}

/-- The image goes with its link: it has one if it is a differencing image, to a member with the
unique id that it records. -/
def Fits (set : ImageSet ι) (image : Image ι) (link : Option Nat) : Prop :=
  (image.diskType = .differencing ↔ link.isSome) ∧ ∀ parent, link = some parent →
    ∃ found, set.member parent = .ok found ∧
      image.parentUniqueId? = some found.image.footer.uniqueId

theorem of_added (h : set.added image parent? = .ok (id, set')) :
    set.Fits image parent? ∧ id = set.size ∧ set' = (set.push image parent?).2 := by
  cases parent? with
  | none =>
    obtain ⟨hkind, rfl, rfl⟩ := of_insert h
    exact ⟨⟨iff_of_false hkind Bool.false_ne_true, fun _ hnone => by cases hnone⟩, rfl, rfl⟩
  | some parent =>
    obtain ⟨⟨found, hfound, hrecorded⟩, rfl, rfl⟩ := of_insertDifferencing h
    refine ⟨⟨iff_of_true ?_ rfl, fun _ hsome => ?_⟩, rfl, rfl⟩
    · cases hlayout : image.layout with
      | differencing => rw [Image.diskType, hlayout]; rfl
      | fixed => rw [Image.parentUniqueId?, hlayout] at hrecorded; cases hrecorded
      | dynamic => rw [Image.parentUniqueId?, hlayout] at hrecorded; cases hrecorded
    · cases hsome
      exact ⟨found, hfound, hrecorded⟩

theorem added_of_fits (h : set.Fits image parent?) :
    set.added image parent? = .ok (set.push image parent?) := by
  obtain ⟨hkind, hfound⟩ := h
  cases parent? with
  | none => exact insert_eq fun h => Bool.false_ne_true (hkind.mp h)
  | some parent =>
    obtain ⟨found, hmember, hrecorded⟩ := hfound parent rfl
    exact insertDifferencing_eq hmember hrecorded

theorem runOn_add (image : Image ι) (parent? : Option Nat) (server : Server ι ω)
    (set : ImageSet ι) (world : ω) :
    (add image parent?).runOn server set world = match set.added image parent? with
      | .ok (id, set') => ((.ok id, set'), world)
      | .error e => ((.error e, set), world) := by
  rw [add, Engine.runOn_bind_ok (Engine.runOn_get ..)]
  cases h : set.added image parent? with
  | ok result => rfl
  | error e => rfl

theorem runOn_exchange (server : Server ι ω) (set : ImageSet ι) (world : ω) :
    (exchange id image).runOn server set world = match set.replace id image with
      | .ok set' => ((.ok (), set'), world)
      | .error e => ((.error e, set), world) := by
  rw [exchange, Engine.runOn_bind_ok (Engine.runOn_get ..)]
  cases h : set.replace id image with
  | ok result => rfl
  | error e => rfl

/-- The member was one of the set, with the same link, and its image is still what it was. -/
def HadMember (set : ImageSet ι) (id : Nat) (member' : Member ι) : Prop :=
  ∃ member, set.member id = .ok member ∧ member'.parent = member.parent ∧
    member.image.SameButBlocks member'.image

theorem upholds_hadMember (set : ImageSet ι) : set.Upholds set.HadMember set.size :=
  ⟨rfl, fun _ member hmember => ⟨member, hmember, rfl, refl_of Image.SameButBlocks member.image⟩⟩

variable {cause : Error → Prop}

theorem HadMember.keepsMember {engine : Engine ι (Image ι) α} (h : set.HadMember id member)
    (hengine : engine.Keeps (.failing ι cause) cause Image.SameButBlocks member.image) :
    KeepsMember (.failing ι cause) cause set.HadMember id member engine := by
  obtain ⟨before, hbefore, hparent, hbut⟩ := h
  have hafter : ∀ image, member.image.SameButBlocks image →
      set.HadMember id { member with image } :=
    fun image hbut' => ⟨before, hbefore, hparent, trans_of Image.SameButBlocks hbut hbut'⟩
  exact hengine.mono (fun _ image hbut' => hafter image hbut')
    fun _ image he => ⟨he.1, hafter image he.2⟩

theorem calls_hadMember (plain : ∀ e, ¬ e.IsLink → cause e)
    (rooted : ∀ id member, set.member id = .ok member → member.image.diskType = .differencing →
      member.parent = none → cause .parentUnavailable) :
    Calls (.failing ι cause) cause set.HadMember where
  plain := plain
  rooted := by
    rintro id member ⟨before, hbefore, hparent, hbut⟩ hkind hnone
    exact rooted id before hbefore (hbut.diskType.symm.trans hkind) (hparent.symm.trans hnone)
  holds _ _ sector h := h.keepsMember (Image.holds_keeps (.failing plain _) sector)
  readFlat _ _ _ _ _ _ := Image.readFlat_minds (Protocol.Grants.failing plain _).allows _ _ _
  readBlocks _ _ _ _ _ h := h.keepsMember (Image.readBlocks_keeps (.failing plain _) _ _ _)
  flush _ _ h := h.keepsMember (Image.flush_keeps (.failing plain _))

theorem hadMember_of_call (call : SetCall) (server : Server ι ω) (set : ImageSet ι) (world : ω) :
    (call.engine.runOn server set world).1.2.Upholds set.HadMember set.size := by
  have C : Calls (.failing ι fun _ => True) (fun _ => True) set.HadMember :=
    calls_hadMember (fun _ _ => trivial) fun _ _ _ _ _ => trivial
  have hcall := SetCall.obeys C set.upholds_hadMember (fun _ => trivial) call
    fun id call' _ member hmember =>
      hmember.keepsMember (call'.keeps (.failing (fun _ _ => trivial) _) fun _ => trivial)
  have governs : (Protocol.failing ι fun _ => True).Governs server fun _ => True :=
    Protocol.failing_governs fun _ _ _ _ _ => trivial
  exact (hcall.runOn_state governs world trivial).1

/-- The members stay, on the parents that they have. -/
def KeepsLinks (set set' : ImageSet ι) : Prop :=
  ∀ id member, set.member id = .ok member → ∃ image, set'.member id = .ok { member with image }

theorem KeepsLinks.refl (set : ImageSet ι) : set.KeepsLinks set :=
  fun _ member hmember => ⟨member.image, hmember⟩

theorem KeepsLinks.trans {set'' : ImageSet ι} (h : set.KeepsLinks set')
    (h' : set'.KeepsLinks set'') : set.KeepsLinks set'' := by
  intro id member hmember
  obtain ⟨image, hmember'⟩ := h id member hmember
  obtain ⟨image', hmember''⟩ := h' id _ hmember'
  exact ⟨image', hmember''⟩

theorem KeepsLinks.put (hmember : set.member id = .ok member) :
    set.KeepsLinks (set.put id member image) := by
  intro other member' hother
  by_cases hid : other = id
  · subst hid
    obtain rfl := Except.ok.inj (hmember.symm.trans hother)
    exact ⟨image, member_put_self hmember⟩
  · exact ⟨member'.image, (member_put_of_ne hid).trans hother⟩

/-- Moreover, their images are still what they were. -/
def Carries (set set' : ImageSet ι) : Prop :=
  ∀ id member, set.member id = .ok member →
    ∃ image, set'.member id = .ok { member with image } ∧ member.image.SameButBlocks image

theorem Carries.keepsLinks (h : set.Carries set') : set.KeepsLinks set' :=
  fun id member hmember => (h id member hmember).imp fun _ hmember' => hmember'.1

theorem Carries.push : set.Carries (set.push image parent?).2 := fun _ member hmember =>
  ⟨member.image, (member_push_of_ne (Nat.ne_of_lt (lt_size hmember))).trans hmember,
    refl_of Image.SameButBlocks member.image⟩

theorem Upholds.carries (h : set'.Upholds set.HadMember set.size) : set.Carries set' := by
  intro id member hmember
  obtain ⟨member', hmember'⟩ := exists_member (h.size_eq.symm ▸ lt_size hmember)
  obtain ⟨before, hbefore, hparent, hbut⟩ := h.each id member' hmember'
  obtain rfl := Except.ok.inj (hmember.symm.trans hbefore)
  exact ⟨member'.image, hmember'.trans (hparent ▸ rfl), hbut⟩

end ImageSet

open ImageSet in
/-- An act adds an image at the end, replaces one, or leaves every member what it was. -/
theorem SetAct.cases (act : SetAct ι) (server : Server ι ω) (set : ImageSet ι) (world : ω) :
    (∃ image parent?, set.Fits image parent? ∧
      (act.engine.runOn server set world).1.2 = (set.push image parent?).2) ∨
    (∃ id member image, set.member id = .ok member ∧ ¬ act.Preserves ∧
      (act.engine.runOn server set world).1.2 = set.put id member image) ∨
    (act.engine.runOn server set world).1.2.Upholds set.HadMember set.size := by
  cases act with
  | add image parent? =>
    have hrun := runOn_add image parent? server set world
    cases hadded : set.added image parent? with
    | error e =>
      rw [hadded] at hrun
      rw [SetAct.engine, Engine.runOn_bind_error hrun]
      exact .inr (.inr set.upholds_hadMember)
    | ok result =>
      rw [hadded] at hrun
      obtain ⟨hfits, -, hpush⟩ := of_added hadded
      rw [SetAct.engine, Engine.runOn_bind_ok hrun]
      exact .inl ⟨image, parent?, hfits, hpush⟩
  | exchange id image =>
    rw [SetAct.engine, runOn_exchange]
    cases hmember : set.member id with
    | error e =>
      rw [replace, hmember]
      exact .inr (.inr set.upholds_hadMember)
    | ok member =>
      rw [replace, hmember]
      exact .inr (.inl ⟨id, member, image, hmember, fun h => h, rfl⟩)
  | use call =>
    have hafter := hadMember_of_call call server set world
    rcases hrun : call.engine.runOn server set world with ⟨⟨result, set'⟩, world'⟩
    rw [hrun] at hafter
    cases result with
    | ok answer => exact .inr (.inr ((Engine.runOn_bind_ok hrun fun _ => pure ()) ▸ hafter))
    | error e => exact .inr (.inr ((Engine.runOn_bind_error hrun fun _ => pure ()) ▸ hafter))

namespace ImageSet

variable {set set' set'' : ImageSet ι} {id : Nat} {kind kind' : SetAct ι → Prop}

theorem Becomes.mono (h : Becomes kind set set') (imp : ∀ act, kind act → kind' act) :
    Becomes kind' set set' := by
  induction h with
  | refl => exact .refl
  | act _ act allowed server world ih => exact ih.act act (imp act allowed) server world

theorem Becomes.added (h : Becomes kind set set') (image : Image ι) (parent? : Option Nat)
    (allowed : kind (.add image parent?)) (hadded : set'.added image parent? = .ok (id, set'')) :
    Becomes kind set set'' := by
  have hrun := runOn_add image parent? sole set' .empty
  rw [hadded] at hrun
  have hact := h.act (.add image parent?) allowed sole .empty
  rw [SetAct.engine, Engine.runOn_bind_ok hrun] at hact
  exact hact

/-- A set that was put together came about by adding images. -/
theorem becomes_of_assembled {contents : ι → Content} {written : Nat → Nat → Option Sector}
    (h : Assembled contents set written) : Becomes SetAct.Preserves .empty set := by
  induction h with
  | empty => exact .refl
  | @insert _ _ _ image _ _ _ _ _ inserted ih =>
    exact ih.added image none trivial inserted
  | @insertDifferencing _ _ _ image _ _ parent _ _ _ inserted ih =>
    exact ih.added image (some parent) trivial inserted

end ImageSet

end VirtualDisk
