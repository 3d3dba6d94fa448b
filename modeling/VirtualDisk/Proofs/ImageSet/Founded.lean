import VirtualDisk.Proofs.ImageSet.Acts

/-!
# Chains end

A parent is there before its child is added, so links descend, and a link is never changed.
`ImageSet.walk` follows the links without a look at their order. It comes to an end nevertheless,
and where it ends is what `ImageSet.resolve` finds.

As long as no image is replaced, the differencing images are the ones that have a link, to the image
whose unique id they record. So a chain always ends at an image that can be read, and no read
through it fails because of a missing link.
-/

namespace VirtualDisk

open Storage

variable {ι α ω : Type}

namespace ImageSet

/-- Follows the links to the image that answers for a sector, as often as there are rounds, and
records the members on the way. The order of the links is not looked at; without a round left there
is no answer. -/
def walk (sector : Nat) : (rounds id : Nat) → Engine ι (ImageSet ι × List Nat) (Option Nat)
  | 0, _ => return none
  | rounds + 1, id => do
    let (images, visited) ← get
    let visited := visited ++ [id]
    set (images, visited)
    let member ← images.member id
    if member.image.diskType ≠ .differencing ∨ member.image.totalSectors ≤ sector then
      return some id
    let held ← Engine.on images (·, visited)
      (onImage id (Image.onBlocks fun disk => BlockMap.holds disk sector))
    if held then return some id
    match member.parent with
    | none => throw .parentUnavailable
    | some parent => walk sector rounds parent

variable {set set' : ImageSet ι} {member : Member ι} {image : Image ι} {id : Nat}

/-- All links lead to lower numbers. -/
def Descending (set : ImageSet ι) : Prop :=
  ∀ id member parent, set.member id = .ok member → member.parent = some parent → parent < id

/-- From every number the walk ends where `resolve` does. It needs no more rounds than there are
numbers up to the first, and visits each of them at most once, in descending order. -/
def WalksEnd (set : ImageSet ι) : Prop :=
  ∀ (ω : Type) (server : Server ι ω) (world : ω) (sector id rounds : Nat), id < rounds →
    ∃ visited result set' world',
      (resolve sector id).runOn server set world = ((result, set'), world') ∧
      (walk sector rounds id).runOn server (set, []) world =
        ((result.map some, (set', visited)), world') ∧
      visited.head? = some id ∧ visited.Pairwise (· > ·) ∧ visited.length ≤ id + 1

theorem Descending.put (h : set.Descending) (hmember : set.member id = .ok member) :
    (set.put id member image).Descending := by
  intro other member' parent hother hparent
  by_cases hid : other = id
  · subst hid
    rw [member_put_self hmember, Except.ok.injEq] at hother
    subst hother
    exact h other member parent hmember hparent
  · exact h other member' parent ((member_put_of_ne hid).symm.trans hother) hparent

/-- The walk from a number, after other members were visited. The induction is on the number. -/
theorem Descending.walk (h : set.Descending) (server : Server ι ω) (world : ω)
    (sector : Nat) {id rounds : Nat} (hrounds : id < rounds) (before : List Nat) :
    ∃ visited result set' world',
      (resolve sector id).runOn server set world = ((result, set'), world') ∧
      (ImageSet.walk sector rounds id).runOn server (set, before) world =
        ((result.map some, (set', before ++ id :: visited)), world') ∧
      (id :: visited).Pairwise (· > ·) ∧ visited.length ≤ id := by
  induction id using Nat.strongRecOn generalizing set world rounds before with
  | ind id ih =>
    obtain ⟨rounds, rfl⟩ := Nat.exists_eq_add_of_lt (Nat.zero_lt_of_lt hrounds)
    rw [Nat.zero_add] at hrounds ⊢
    have hstop : ([id] : List Nat).Pairwise (· > ·) := List.pairwise_singleton _ _
    rw [resolve, ImageSet.walk, Engine.runOn_bind_ok (Engine.runOn_get ..),
      Engine.runOn_bind_ok (Engine.runOn_get ..)]
    dsimp only
    rw [Engine.runOn_bind_ok (Engine.runOn_set ..)]
    cases hmember : set.member id with
    | error e =>
      rw [Engine.runOn_bind_error (Engine.runOn_liftExcept ..),
        Engine.runOn_bind_error (Engine.runOn_liftExcept ..)]
      exact ⟨[], .error e, set, world, rfl, rfl, hstop, Nat.zero_le _⟩
    | ok member =>
      rw [Engine.runOn_bind_ok (Engine.runOn_liftExcept ..),
        Engine.runOn_bind_ok (Engine.runOn_liftExcept ..)]
      split
      · exact ⟨[], .ok id, set, world, rfl, rfl, hstop, Nat.zero_le _⟩
      have hdescends : ((onImage id (Image.onBlocks fun disk =>
          BlockMap.holds disk sector)).runOn server set world).1.2.Descending := by
        rw [runOn_onImage hmember]
        exact h.put hmember
      have hheld : (Engine.on set (·, before ++ [id]) (onImage id (Image.onBlocks fun disk =>
          BlockMap.holds disk sector))).runOn server (set, before ++ [id]) world = _ :=
        Engine.runOn_on ..
      rcases hrun : (onImage id (Image.onBlocks fun disk =>
        BlockMap.holds disk sector)).runOn server set world with ⟨⟨result, set'⟩, world'⟩
      rw [hrun] at hdescends hheld
      dsimp only at hdescends hheld
      cases result with
      | error e =>
        rw [Engine.runOn_bind_error hrun, Engine.runOn_bind_error hheld]
        exact ⟨[], .error e, set', world', rfl, rfl, hstop, Nat.zero_le _⟩
      | ok held =>
        rw [Engine.runOn_bind_ok hrun, Engine.runOn_bind_ok hheld]
        split
        · exact ⟨[], .ok id, set', world', rfl, rfl, hstop, Nat.zero_le _⟩
        cases hparent : member.parent with
        | none =>
          exact ⟨[], .error .parentUnavailable, set', world', rfl, rfl, hstop, Nat.zero_le _⟩
        | some parent =>
          have hlt := h id member parent hmember hparent
          obtain ⟨visited, result, set'', world'', hresolve, hwalk, hsorted, hlength⟩ :=
            ih parent hlt hdescends world' (show parent < rounds by omega) (before ++ [id])
          dsimp only
          rw [dif_pos hlt]
          refine ⟨parent :: visited, result, set'', world'', hresolve, ?_, ?_, ?_⟩
          · rw [hwalk, List.append_assoc]
            rfl
          · refine List.pairwise_cons.mpr ⟨fun other hother => ?_, hsorted⟩
            obtain rfl | hother := List.mem_cons.mp hother
            · exact hlt
            · exact Nat.lt_trans (List.rel_of_pairwise_cons hsorted hother) hlt
          · rw [List.length_cons]
            omega

theorem Descending.walksEnd (h : set.Descending) : set.WalksEnd := by
  intro ω server world sector id rounds hrounds
  obtain ⟨visited, result, set', world', hresolve, hwalk, hsorted, hlength⟩ :=
    h.walk server world sector hrounds []
  exact ⟨id :: visited, result, set', world', hresolve, hwalk, rfl, hsorted,
    Nat.succ_le_succ hlength⟩

theorem Descending.act (h : set.Descending) (act : SetAct ι) (server : Server ι ω) (world : ω) :
    (act.engine.runOn server set world).1.2.Descending := by
  obtain ⟨image, parent?, hfits, hset'⟩ | ⟨other, before, image, hbefore, -, hset'⟩ | h' :=
    act.cases server set world
  · rw [hset']
    intro id member parent hmember hparent
    obtain ⟨rfl, rfl⟩ | ⟨-, hbefore⟩ := of_member_push hmember
    · obtain ⟨found, hfound, -⟩ := hfits.2 parent hparent
      exact lt_size hfound
    · exact h id member parent hbefore hparent
  · rw [hset']
    exact h.put hbefore
  · intro id member parent hmember hparent
    obtain ⟨before, hbefore, hsame, -⟩ := h'.each id member hmember
    exact h id before parent hbefore (hsame.symm.trans hparent)

/-- Every member goes with its link. -/
def Linked (set : ImageSet ι) : Prop :=
  ∀ id member, set.member id = .ok member → set.Fits member.image member.parent

theorem Fits.carried {link : Option Nat} (h : set.Fits image link)
    (carried : set.Carries set') : set'.Fits image link := by
  refine ⟨h.1, fun parent hparent => ?_⟩
  obtain ⟨found, hfound, hrecorded⟩ := h.2 parent hparent
  obtain ⟨image', hfound', hbut⟩ := carried parent found hfound
  exact ⟨_, hfound', hrecorded.trans (congrArg (some ·.uniqueId) hbut.footer.symm)⟩

theorem Fits.sameButBlocks {link : Option Nat} {image' : Image ι} (h : set.Fits image link)
    (hbut : image.SameButBlocks image') : set.Fits image' link := by
  refine ⟨hbut.diskType ▸ h.1, fun parent hparent => ?_⟩
  obtain ⟨found, hfound, hrecorded⟩ := h.2 parent hparent
  exact ⟨found, hfound, hbut.parentUniqueId?.trans hrecorded⟩

theorem Linked.act (h : set.Linked) {act : SetAct ι} (preserves : act.Preserves)
    (server : Server ι ω) (world : ω) : (act.engine.runOn server set world).1.2.Linked := by
  obtain ⟨image, parent?, hfits, hset'⟩ | ⟨-, -, -, -, hreplaces, -⟩ | h' :=
    act.cases server set world
  · rw [hset']
    intro id member hmember
    obtain ⟨rfl, rfl⟩ | ⟨-, hbefore⟩ := of_member_push hmember
    · exact hfits.carried .push
    · exact (h id member hbefore).carried .push
  · exact absurd preserves hreplaces
  · intro id member hmember
    obtain ⟨before, hbefore, hsame, hbut⟩ := h'.each id member hmember
    exact hsame ▸ ((h id before hbefore).carried h'.carries).sameButBlocks hbut

/-- From the one number the links lead to the other, which has none. -/
inductive EndsAt (set : ImageSet ι) : (id root : Nat) → Prop
  | here {id : Nat} {member : Member ι} (hmember : set.member id = .ok member)
      (hparent : member.parent = none) : EndsAt set id id
  | up {id parent root : Nat} {member : Member ι} (hmember : set.member id = .ok member)
      (hparent : member.parent = some parent) (above : EndsAt set parent root) :
      EndsAt set id root

/-- The links from every number lead to an image that is no differencing one. -/
def Rooted (set : ImageSet ι) : Prop :=
  ∀ id, id < set.size → ∃ root member, set.EndsAt id root ∧ set.member root = .ok member ∧
    member.image.diskType ≠ .differencing

/-- The induction is on the number, which decreases along the links. -/
theorem Linked.rooted (h : set.Linked) (descending : set.Descending) : set.Rooted := by
  intro id hid
  induction id using Nat.strongRecOn with
  | ind id ih =>
    obtain ⟨member, hmember⟩ := exists_member hid
    have hfits := h id member hmember
    cases hparent : member.parent with
    | none =>
      rw [hparent] at hfits
      exact ⟨id, member, .here hmember hparent, hmember, fun hkind => nomatch hfits.1.mp hkind⟩
    | some parent =>
      obtain ⟨found, hfound, -⟩ := hfits.2 parent hparent
      obtain ⟨root, member', hends, hroot⟩ :=
        ih parent (descending id member parent hmember hparent) (lt_size hfound)
      exact ⟨root, member', .up hmember hparent hends, hroot⟩

/-- Reads of the members do not fail because of a link, unless a disk itself says so. -/
def ReadsLinkless (set : ImageSet ι) : Prop :=
  ∀ (ω : Type) (server : Server ι ω) (world : ω) (id offset count : Nat) (buffer : ByteArray),
    (∀ disk request world, Linkless (server disk request world).1) → id < set.size →
    Linkless ((read id offset count buffer).runOn server set world).1.1 ∧
      Linkless ((readChain id offset count buffer).runOn server set world).1.1

theorem Linked.readsLinkless (h : set.Linked) : set.ReadsLinkless := by
  intro ω server world id offset count buffer replies hid
  have C : Calls (.failing ι (¬ ·.IsLink)) (¬ ·.IsLink) set.HadMember := by
    refine calls_hadMember (fun _ he => he) fun id member hmember hkind hnone _ => ?_
    have hlink := (h id member hmember).1.mp hkind
    rw [hnone] at hlink
    cases hlink
  have governs : (Protocol.failing ι (¬ ·.IsLink)).Governs server fun _ => True :=
    Protocol.failing_governs replies
  have linkless : ∀ engine : Engine ι (ImageSet ι) ReadResult,
      engine.Keeps (.failing ι (¬ ·.IsLink)) (¬ ·.IsLink)
        (fun _ set' => set'.Upholds set.HadMember set.size) set →
      Linkless (engine.runOn server set world).1.1 := by
    intro engine hengine e he
    have hpost := (hengine.runOn governs world trivial).1
    rcases hrun : (engine.runOn server set world).1 with ⟨result, set'⟩
    rw [hrun] at hpost he
    obtain rfl := he
    exact hpost.1
  exact ⟨linkless _ (read_obeys C set.upholds_hadMember offset count buffer (.inl hid)),
    linkless _ (readChain_obeys C set.upholds_hadMember offset count buffer (.inl hid))⟩

variable {kind : SetAct ι → Prop}

theorem Becomes.descending (h : Becomes kind set set') (hset : set.Descending) :
    set'.Descending := by
  induction h with
  | refl => exact hset
  | act _ act _ server world ih => exact ih.act act server world

theorem Becomes.linked (h : Becomes SetAct.Preserves set set') (hset : set.Linked) :
    set'.Linked := by
  induction h with
  | refl => exact hset
  | act _ _ preserves server world ih => exact ih.act preserves server world

theorem Becomes.keepsLinks (h : Becomes kind set set') : set.KeepsLinks set' := by
  induction h with
  | refl => exact .refl set
  | @act before _ _ act _ server world ih =>
    refine ih.trans ?_
    obtain ⟨image, parent?, -, hset'⟩ | ⟨id, member, image, hmember, -, hset'⟩ | h' :=
      act.cases server before world
    · exact hset' ▸ Carries.push.keepsLinks
    · exact hset' ▸ .put hmember
    · exact h'.carries.keepsLinks

/-- An insertion on the way to the set returned the number. -/
def Returned (set : ImageSet ι) (id : Nat) : Prop :=
  ∃ before image parent? after, Becomes (fun _ => True) .empty before ∧
    before.added image parent? = .ok (id, after) ∧ Becomes (fun _ => True) after set

theorem Returned.act (h : set.Returned id) (act : SetAct ι) (server : Server ι ω) (world : ω) :
    (act.engine.runOn server set world).1.2.Returned id := by
  obtain ⟨before, image, parent?, after, hbefore, hadded, hafter⟩ := h
  exact ⟨before, image, parent?, after, hbefore, hadded, hafter.act act trivial server world⟩

/-- The numbers of the members are the ones that insertions returned. -/
theorem Becomes.returned_iff (h : Becomes (fun _ => True) .empty set) (id : Nat) :
    set.Returned id ↔ id < set.size := by
  constructor
  · rintro ⟨before, image, parent?, after, -, hadded, hafter⟩
    obtain ⟨-, rfl, rfl⟩ := of_added hadded
    obtain ⟨image', hmember⟩ := hafter.keepsLinks before.size _ member_push_self
    exact lt_size hmember
  · intro hid
    induction h with
    | refl => exact absurd hid (Nat.not_lt_zero id)
    | @act before _ h act _ server world ih =>
      obtain ⟨image, parent?, hfits, hset'⟩ | ⟨_, _, _, _, -, hset'⟩ | h' :=
        act.cases server before world
      · obtain hlt | rfl := Nat.lt_succ_iff_lt_or_eq.mp (size_push ▸ hset' ▸ hid)
        · exact (ih hlt).act act server world
        · exact ⟨before, image, parent?, _, h, added_of_fits hfits, hset' ▸ .refl⟩
      · exact (ih (size_put ▸ hset' ▸ hid)).act act server world
      · exact (ih (h'.size_eq ▸ hid)).act act server world

theorem runOn_add_error {server : Server ι ω} {world : ω} {parent? : Option Nat} {e : Error}
    (h : ((add image parent?).runOn server set world).1.1 = .error e) :
    ((add image parent?).runOn server set world).1.2 = set := by
  rw [runOn_add] at h ⊢
  cases hadded : set.added image parent? with
  | ok result =>
    rw [hadded] at h
    cases h
  | error e => rfl

end ImageSet

open ImageSet in
/-- Along every chain the numbers decrease, links stay what they are, and following them ends. As
long as no image is replaced, it ends at an image that can be read, and no read of a number that an
insertion returned fails for the lack of a link. An image that is refused leaves the set as it
was. -/
theorem chains_are_founded {set : ImageSet ι} (h : Becomes (fun _ => True) .empty set) :
    set.Descending ∧ set.WalksEnd ∧
    (∀ set', Becomes (fun _ => True) set set' → set.KeepsLinks set') ∧
    (∀ id, set.Returned id ↔ id < set.size) ∧
    (Becomes SetAct.Preserves .empty set → set.Linked ∧ set.Rooted ∧ set.ReadsLinkless) ∧
    ∀ (ω : Type) (server : Server ι ω) (world : ω) (image : Image ι) (parent? : Option Nat) e,
      ((add image parent?).runOn server set world).1.1 = .error e →
      ((add image parent?).runOn server set world).1.2 = set := by
  have none (id : Nat) (member : Member ι) (hmember : ImageSet.empty.member id = .ok member) :
      False := Nat.not_lt_zero id (lt_size hmember)
  have descending := h.descending fun id member _ hmember _ => (none id member hmember).elim
  refine ⟨descending, descending.walksEnd, fun _ h' => h'.keepsLinks, h.returned_iff,
    fun h' => ?_, fun _ _ _ _ _ _ hrefused => runOn_add_error hrefused⟩
  have linked := h'.linked fun id member hmember => (none id member hmember).elim
  exact ⟨linked, linked.rooted descending, linked.readsLinkless⟩

open ImageSet in
/-- A differencing image on its parent. Both were inserted, and the reads of both find their
links. -/
theorem chains_are_founded_small : ∃ (set : ImageSet Bool) (member : Member Bool),
    Becomes SetAct.Preserves .empty set ∧ set.size = 2 ∧ set.member 1 = .ok member ∧
    member.image.diskType = .differencing ∧ member.parent = some 0 ∧ set.Returned 0 ∧
    set.Returned 1 ∧ set.Descending ∧ set.WalksEnd ∧ set.Linked ∧ set.Rooted ∧
    set.ReadsLinkless := by
  obtain ⟨contents, set, written, member, assembled, -, hsize, hmember, hkind, hparent⟩ :=
    exists_assembled_small
  have h := becomes_of_assembled assembled
  obtain ⟨descending, ends, -, returned, intact, -⟩ :=
    chains_are_founded (h.mono fun _ _ => trivial)
  exact ⟨set, member, h, hsize, hmember, hkind, hparent, (returned 0).mpr (by omega),
    (returned 1).mpr (by omega), descending, ends, intact h⟩

end VirtualDisk
