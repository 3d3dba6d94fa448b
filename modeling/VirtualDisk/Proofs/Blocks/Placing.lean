import VirtualDisk.Proofs.Blocks.Discipline
import VirtualDisk.Proofs.Storage.Requests

/-!
# Blocks that get a place and keep it

As long as no block is recorded with the entry of those that are not allocated, every block that is
appended gets a place and keeps it. The bitmap in memory has changes only if its block has a place,
so a flush finds where to store it; and a block is appended at most once.
-/

namespace VirtualDisk

open Storage

variable {ι ω : Type}

/-- The request records a block as one that is not allocated. -/
def Storage.Request.Blanks : Request → Prop
  | .write _ data => data = (Bytes.ofNumber 4 BlockTable.unallocated.toNat).toByteArray
  | _ => False

/-- No block is recorded as one that is not allocated, and no storage speaks for the cached
bitmap. -/
def Storage.Protocol.placing (ι : Type) : Protocol ι where
  permits _ _ := True
  answers _ request reply := ¬ request.Blanks ∧ reply ≠ .error (.corrupt .dirtyUnallocated)

theorem Storage.Protocol.not_blanks_placing (disk : ι) : ¬ (placing ι).Blanks disk :=
  fun ⟨_, hanswer⟩ => hanswer.1 rfl

namespace BlockMap

/-- The cached bitmap has changes only if its block is stored. -/
def Grounded (map : BlockMap) : Prop :=
  map.bitmap.dirty = true →
    ∃ block start, map.bitmap.block = some block ∧ map.table.place? block = some start

/-- The map some steps later: its bitmap is grounded, and every block that was stored is stored
where it was. -/
structure Onward (map map' : BlockMap) : Prop where
  header : map'.header = map.header
  grounded : map'.Grounded
  place? : ∀ block start, map.table.place? block = some start →
    map'.table.place? block = some start

namespace Onward

variable {map map' map'' : BlockMap}

theorem refl (h : map.Grounded) : map.Onward map := ⟨rfl, h, fun _ _ => id⟩

theorem vacant (h : map.Onward map') {block : Nat} (hvacant : map'.table.place? block = none) :
    map.table.place? block = none := by
  cases place : map.table.place? block with
  | none => rfl
  | some start =>
    rw [h.place? block start place] at hvacant
    cases hvacant

theorem clean (h : map.Onward map') {bitmap : BitmapCache} (hclean : bitmap.dirty = false) :
    map.Onward { map' with bitmap } :=
  ⟨h.header, fun hdirty => absurd (hclean.symm.trans hdirty) Bool.false_ne_true, h.place?⟩

theorem allocated (h : map.Onward map') {block start : Nat}
    (hvacant : map'.table.place? block = none) : map.Onward (map'.allocated block start) := by
  have hkeeps : ∀ other place, map'.table.place? other = some place →
      (map'.allocated block start).table.place? other = some place := by
    intro other place hplace
    have hne : other ≠ block := by
      rintro rfl
      rw [hvacant] at hplace
      cases hplace
    exact (BlockTable.place?_withEntry_of_ne hne).trans hplace
  refine ⟨h.header, fun hdirty => ?_, fun other place hplace =>
    hkeeps other place (h.place? other place hplace)⟩
  obtain ⟨other, place, cached, hplace⟩ := h.grounded hdirty
  exact ⟨other, place, cached, hkeeps other place hplace⟩

end Onward

theorem allows_placing (disk : ι) :
    (Protocol.placing ι).Allows disk (· ≠ .corrupt .dirtyUnallocated) where
  permits _ _ := trivial
  fails _ _ hanswer he := hanswer.2 (congrArg Except.error he)
  plain e hmild he := by
    subst he
    exact hmild

theorem discipline_onward (disk : ι) (map : BlockMap) :
    Discipline (.placing ι) disk (· ≠ .corrupt .dirtyUnallocated) map.Onward where
  toAllows := allows_placing disk
  stores _ _ _ := trivial
  stranded map' block h cached dirty hvacant := by
    obtain ⟨other, start, hother, place⟩ := h.grounded dirty
    rw [cached, Option.some.injEq] at hother
    rw [hother, place] at hvacant
    cases hvacant
  cleaned _ h := h.clean rfl
  loaded _ _ h hclean _ := h.clean hclean
  allocated _ _ _ h _ hvacant _ := h.allocated hvacant
  marked map' block _ bitmap h cached hplace hasSet := by
    obtain ⟨start, place⟩ := Option.isSome_iff_exists.mp
      (hplace.resolve_right (Protocol.not_blanks_placing disk))
    exact ⟨h.header, fun _ => ⟨block, start, hasSet.block.trans cached, place⟩, h.place?⟩

theorem discipline_grounded (disk : ι) :
    Discipline (.placing ι) disk (· ≠ .corrupt .dirtyUnallocated) Grounded where
  toAllows := allows_placing disk
  stores _ _ _ := trivial
  stranded map _ h := (discipline_onward disk map).stranded map _ (.refl h)
  cleaned map h := ((discipline_onward disk map).cleaned map (.refl h)).grounded
  loaded map bitmap h hclean hsize :=
    ((discipline_onward disk map).loaded map bitmap (.refl h) hclean hsize).grounded
  allocated map block start h inside hvacant near :=
    ((discipline_onward disk map).allocated map block start (.refl h) inside hvacant near).grounded
  marked map block i bitmap h cached hplace hasSet :=
    ((discipline_onward disk map).marked map block i bitmap (.refl h) cached hplace hasSet).grounded

end BlockMap

/-- The length of the storage is not asked for. -/
def Storage.Protocol.unmeasured (ι : Type) : Protocol ι where
  permits _ request := request ≠ .length
  answers _ _ _ := True

theorem Storage.Access.ask_unmeasured {disk : ι} {request : Request} (h : request ≠ .length) :
    (ask disk request).Minds (.unmeasured ι) fun _ => True :=
  ⟨h, fun reply _ => by cases reply <;> trivial⟩

theorem Storage.Access.readWithin_unmeasured {disk : ι} (offset size : Nat) (what : Corruption) :
    (readWithin disk offset size what).Minds (.unmeasured ι) fun _ => True :=
  obeys_readWithin.mpr ⟨nofun, fun reply _ => by cases reply <;> trivial⟩

namespace BlockMap

open Engine

/-- Maps that differ in the cached bitmap only. -/
structure SameTable (map map' : BlockMap) : Prop where
  header : map'.header = map.header
  table : map'.table = map.table

instance : IsPreorder BlockMap SameTable where
  refl _ := ⟨rfl, rfl⟩
  trans _ _ _ h h' := ⟨h'.header.trans h.header, h'.table.trans h.table⟩

theorem flush_unmeasured (disk : ι) (map : BlockMap) :
    (flush disk).Keeps (.unmeasured ι) (fun _ => True) SameTable map := by
  refine keeps_get_bind (keeps_bind (keeps_liftAccess ?_) fun bitmap map' h => ?_)
  · unfold BitmapCache.flush
    split
    · refine Access.minds_bind (Access.minds_result _) fun found => ?_
      cases found with
      | none => exact Access.minds_throw trivial
      | some start =>
        exact Access.minds_bind (Access.minds_result _) fun _ =>
          Access.minds_bind (Access.ask_unmeasured nofun) fun _ => Access.minds_pure _
    · exact Access.minds_pure _
  · exact keeps_set ⟨h.header.symm, h.table.symm⟩

theorem load_unmeasured (disk : ι) (table : BlockTable) (cache : BitmapCache) (block : Nat) :
    (cache.load disk table block).Minds (.unmeasured ι) fun _ => True := by
  refine Access.minds_bind (Access.minds_result _) fun found => ?_
  cases found with
  | none => exact Access.minds_pure _
  | some start =>
    exact Access.minds_bind (Access.minds_result _) fun _ =>
      Access.minds_bind (Access.readWithin_unmeasured _ _ _) fun _ => Access.minds_pure _

theorem select_unmeasured (disk : ι) (block : Nat) (map : BlockMap) :
    (select disk block).Keeps (.unmeasured ι) (fun _ => True) SameTable map := by
  refine keeps_get_bind ?_
  split
  · exact keeps_pure _
  · refine keeps_bind (flush_unmeasured disk map) fun _ map' _ => keeps_get_bind ?_
    refine keeps_bind (keeps_liftAccess (load_unmeasured disk _ _ _)) fun bitmap map'' h => ?_
    exact keeps_set ⟨h.header.symm, h.table.symm⟩

theorem ensureAllocated_unmeasured (disk : ι) {map : BlockMap} {block start : Nat}
    (hplace : map.table.place? block = some start) :
    (ensureAllocated disk block).Keeps (.unmeasured ι) (fun _ => True) SameTable map := by
  refine keeps_get_bind (obeys_liftExcept_bind.mpr ?_)
  cases hsector : map.table.sector? block with
  | error e => exact ⟨trivial, refl_of SameTable map⟩
  | ok found =>
    rw [(BlockTable.of_sector? hsector).2] at hplace
    subst hplace
    exact keeps_pure _

theorem writeSector_unmeasured (disk : ι) {map : BlockMap} {sector start : Nat}
    (hplace : map.table.place? (sector / map.header.sectorsPerBlock) = some start)
    (content : Sector) :
    (writeSector disk sector content).Keeps (.unmeasured ι) (fun _ => True) SameTable map := by
  refine keeps_get_bind (obeys_liftExcept_bind.mpr ?_)
  cases hlocated : map.locate sector with
  | error e => exact ⟨trivial, refl_of SameTable map⟩
  | ok located =>
  obtain rfl := of_locate hlocated
  refine keeps_bind (select_unmeasured disk _ map) fun _ map' h' => ?_
  have hplace' : map'.table.place? (sector / map.header.sectorsPerBlock) = some start := by
    rw [h'.table]
    exact hplace
  refine keeps_bind (ensureAllocated_unmeasured disk hplace') fun found map'' _ => ?_
  refine keeps_get_bind (keeps_bind (keeps_result _) fun position _ h => ?_)
  refine keeps_bind (keeps_liftAccess (Access.ask_unmeasured nofun)) fun _ _ h' => ?_
  refine keeps_bind (keeps_result _) fun bitmap _ h'' => keeps_set ?_
  have hsame := trans_of SameTable h (trans_of SameTable h' h'')
  exact ⟨hsame.header.symm, hsame.table.symm⟩

theorem writeSectors_succ (disk : ι) (buffer : ByteArray) (count sector slot : Nat) :
    writeSectors disk buffer (count + 1) sector slot =
      writeSectors disk buffer 1 sector slot >>= fun _ =>
        writeSectors disk buffer count (sector + 1) (slot + 1) := by
  simp only [writeSectors, bind_assoc, pure_bind]

/-- The blocks for which the run of a write begins to append, in order. Appending begins with asking
for the length of the storage, and nothing else in a write does that. -/
def appends (server : Server ι ω) (disk : ι) (buffer : ByteArray) :
    (count sector slot : Nat) → BlockMap → ω → List Nat
  | 0, _, _, _, _ => []
  | count + 1, sector, slot, map, world =>
    let step := writeSectors disk buffer 1 sector slot
    let later := match step.runOn server map world with
      | ((.ok _, map'), world') =>
        appends server disk buffer count (sector + 1) (slot + 1) map' world'
      | ((.error _, _), _) => []
    if (step.requests server map world).any (·.2 = .length) then
      sector / map.header.sectorsPerBlock :: later
    else later

variable {server : Server ι ω} {disk : ι} {buffer : ByteArray} {map : BlockMap} {world : ω}

theorem vacant_of_measured {sector slot : Nat}
    (h : ((writeSectors disk buffer 1 sector slot).requests server map world).any (·.2 = .length)) :
    map.table.place? (sector / map.header.sectorsPerBlock) = none := by
  cases hplace : map.table.place? (sector / map.header.sectorsPerBlock) with
  | none => rfl
  | some start =>
    have obeys : (writeSectors disk buffer 1 sector slot).Keeps (.unmeasured ι) (fun _ => True)
        SameTable map := by
      refine obeys_liftExcept_bind.mpr ?_
      cases Buffer.sector buffer slot with
      | error e => exact ⟨trivial, refl_of SameTable map⟩
      | ok content =>
        exact keeps_bind (writeSector_unmeasured disk hplace content) fun _ _ _ => keeps_pure _
    obtain ⟨asked, hasked, hlength⟩ := List.any_eq_true.mp h
    have governs : (Protocol.unmeasured ι).Governs server fun _ => True :=
      fun _ _ _ _ _ => ⟨trivial, trivial⟩
    exact absurd (of_decide_eq_true hlength)
      (Program.Obeys.requests obeys governs trivial asked hasked)

/-- The sector that was written first is in a block that has a place. -/
theorem writeSectors_one_placing (h : map.Grounded) (sector slot : Nat) :
    (writeSectors disk buffer 1 sector slot).Obeys (.placing ι)
      (fun _ map' => map.Onward map' ∧
        (map'.table.place? (sector / map.header.sectorsPerBlock)).isSome)
      (fun e map' => e ≠ .corrupt .dirtyUnallocated ∧ map.Onward map') map := by
  have D := discipline_onward disk map
  refine obeys_bind.mpr (D.liftExcept (.window _ _ _) (.refl h) fun content _ => ?_)
  refine Engine.Obeys.bind (writeSector_disciplined D (.refl h) sector content) ?_
  rintro _ map' ⟨onward, -, hplace⟩
  exact ⟨onward, hplace.resolve_right (Protocol.not_blanks_placing disk)⟩

/-- As long as no block is recorded as one that is not allocated, none is appended twice, and none
that was stored before. -/
theorem appends_nodup
    (fails : ∀ disk request world,
      (server disk request world).1 ≠ .error (.corrupt .dirtyUnallocated))
    {count sector slot : Nat} (h : map.Grounded)
    (recorded : ∀ asked ∈ (writeSectors disk buffer count sector slot).requests server map world,
      ¬ asked.2.Blanks) :
    (appends server disk buffer count sector slot map world).Nodup ∧
      ∀ block ∈ appends server disk buffer count sector slot map world,
        map.table.place? block = none := by
  induction count generalizing sector slot map world with
  | zero => exact ⟨List.nodup_nil, nofun⟩
  | succ count ih =>
  rw [writeSectors_succ, requests_bind] at recorded
  have post := (writeSectors_one_placing h sector slot).runOn_avoiding
    (fun disk request world hrecorded => ⟨hrecorded, fails disk request world⟩)
    fun asked hasked => recorded asked (List.mem_append_left _ hasked)
  unfold appends
  extract_lets step later
  have hlater : later.Nodup ∧ (∀ block ∈ later, map.table.place? block = none) ∧
      sector / map.header.sectorsPerBlock ∉ later := by
    unfold later step
    rcases hrun : (writeSectors disk buffer 1 sector slot).runOn server map world with
      ⟨⟨_ | _, map'⟩, world'⟩
    · exact ⟨List.nodup_nil, nofun, List.not_mem_nil⟩
    · rw [hrun] at post recorded
      obtain ⟨onward, stored⟩ := post
      obtain ⟨nodup, vacant⟩ := ih onward.grounded fun asked hasked =>
        recorded asked (List.mem_append_right _ hasked)
      refine ⟨nodup, fun block hblock => onward.vacant (vacant block hblock), fun hmem => ?_⟩
      rw [vacant _ hmem] at stored
      cases stored
  obtain ⟨nodup, vacant, fresh⟩ := hlater
  split
  · next measured =>
    refine ⟨List.nodup_cons.mpr ⟨fresh, nodup⟩, fun block hblock => ?_⟩
    obtain rfl | hblock := List.mem_cons.mp hblock
    · exact vacant_of_measured measured
    · exact vacant block hblock
  · exact ⟨nodup, vacant⟩

end BlockMap

end VirtualDisk
