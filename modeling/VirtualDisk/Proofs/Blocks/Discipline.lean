import VirtualDisk.Proofs.Blocks.Appended
import VirtualDisk.Proofs.Blocks.Bits
import VirtualDisk.Proofs.Blocks.Causes
import VirtualDisk.Proofs.Blocks.Steps
import VirtualDisk.Proofs.Storage.Media

/-!
# Operations on blocks, whatever they are answered

What an operation on blocks does to the map in memory, and which requests it issues, can be told
without knowing the storage. A `Discipline` is an invariant of the map that every step keeps, as
long as the storage gives no other answers than the protocol has. No operation issues an empty
write, so none has to be permitted. One answer is special: a storage that accepts the entry of a
block that is not allocated for a block that has just been appended leaves it without a place.
-/

namespace VirtualDisk

open Storage

variable {ι α : Type}

namespace Storage

/-- The disk may be asked for anything but an empty write. It fails for these causes, among which
all mild ones are. -/
structure Protocol.Allows (P : Protocol ι) (disk : ι) (cause : Error → Prop) : Prop where
  permits : ∀ request, ¬ request.IsEmptyWrite → P.permits disk request
  fails : ∀ request e, P.answers disk request (.error e) → cause e
  plain : ∀ e, e.IsMild → cause e

/-- The disk may accept, as the entry of a block, the one of a block that is not allocated. -/
def Protocol.Blanks (P : Protocol ι) (disk : ι) : Prop :=
  ∃ position, P.answers disk
    (.write position (Bytes.ofNumber 4 BlockTable.unallocated.toNat).toByteArray) (.ok ())

variable {P : Protocol ι} {disk : ι} {cause : Error → Prop} (A : P.Allows disk cause)

namespace Access

include A

theorem minds_liftExcept {result : Except Error α} (h : Mild result) :
    (liftM result : Access ι α).Minds P cause := by
  cases result with
  | ok a => trivial
  | error e => exact A.plain e (h e rfl)

theorem minds_ask {request : Request} (h : ¬ request.IsEmptyWrite) :
    (ask disk request).Minds P cause := by
  refine ⟨A.permits request h, fun reply hreply => ?_⟩
  cases reply with
  | ok a => trivial
  | error e => exact A.fails request e hreply

theorem minds_write {n : Nat} (hn : 0 < n) (position : Nat) (data : Bytes n) :
    (write disk position data).Minds P cause := by
  refine minds_ask A fun hempty => ?_
  have hsize : n = 0 := data.size_toByteArray.symm.trans hempty
  omega

theorem minds_readWithin {what : Corruption} (h : what ≠ .dirtyUnallocated) (offset size : Nat) :
    (readWithin disk offset size what).Minds P cause := by
  have hwhat : (Error.corrupt what).IsMild := by
    cases what with
    | dirtyUnallocated => exact absurd rfl h
    | _ => trivial
  refine obeys_readWithin.mpr ⟨A.permits _ id, fun reply hreply => ?_⟩
  cases reply with
  | ok bytes => trivial
  | error e =>
    have he := A.fails _ e hreply
    cases e with
    | outOfBounds => exact A.plain _ hwhat
    | _ => exact he

theorem obeys_guard {c : Prop} [Decidable c] {e : Error} {next : PUnit → Access ι α}
    {Q : α → Prop} (he : e.IsMild) (h : (next ⟨⟩).Obeys P Q cause) :
    (if c then throw e >>= next else next ⟨⟩).Obeys P Q cause := by
  split
  · exact obeys_bind.mpr (A.plain e he)
  · exact h

theorem minds_guard {c : Prop} [Decidable c] {e : Error} {next : PUnit → Access ι α}
    (he : e.IsMild) (h : (next ⟨⟩).Minds P cause) :
    (if c then throw e >>= next else next ⟨⟩).Minds P cause :=
  obeys_guard A he h

/-- No chunk is empty: there are only as many as it takes. -/
theorem minds_zeroChunks (count offset size : Nat) (hcount : count = (size + 65535) / 65536) :
    (zeroChunks disk count offset size).Minds P cause := by
  induction count generalizing offset size with
  | zero => exact minds_pure _
  | succ count ih =>
    simp only [zeroChunks]
    split
    · exact minds_bind (minds_write A (by decide) _ _) fun _ =>
        minds_guard A trivial (ih _ _ (by omega))
    · exact minds_bind (minds_write A (by omega) _ _) fun _ =>
        minds_guard A trivial (ih _ _ (by omega))

theorem minds_zeroFill (offset size : Nat) : (zeroFill disk offset size).Minds P cause :=
  minds_zeroChunks A _ _ _ rfl

theorem minds_zeroSectors (offset count : Nat) : (zeroSectors disk offset count).Minds P cause :=
  minds_bind (minds_liftExcept A (.position _)) fun _ => minds_zeroFill A _ _

end Access

end Storage

theorem BlockTable.of_sector? {table : BlockTable} {block : Nat} {found : Option Nat}
    (h : table.sector? block = .ok found) : block < table.size ∧ table.place? block = found := by
  by_cases hblock : block < table.size
  · rw [sector?_eq hblock] at h
    exact ⟨hblock, Except.ok.inj h⟩
  · rw [sector?, entry_eq_error (Nat.not_lt.mp hblock)] at h
    cases h

theorem BlockTable.of_isAllocated {table : BlockTable} {block : Nat}
    (h : table.isAllocated block = .ok false) :
    block < table.size ∧ table.place? block = none := by
  by_cases hblock : block < table.size
  · rw [isAllocated_eq hblock, Except.ok.injEq] at h
    exact ⟨hblock, Option.isNone_iff_eq_none.mp (Option.isSome_eq_false_iff.mp h)⟩
  · rw [isAllocated, entry_eq_error (Nat.not_lt.mp hblock)] at h
    cases h

theorem BlockMap.of_locate {map : BlockMap} {sector : Nat} {located : Nat × Nat}
    (h : map.locate sector = .ok located) :
    located = (sector / map.header.sectorsPerBlock, sector % map.header.sectorsPerBlock) := by
  unfold locate at h
  dsimp only at h
  split at h
  · cases h
  · split at h
    · exact (Except.ok.inj h).symm
    · cases h

theorem BitmapCache.hasSet_of_set {cache cache' : BitmapCache} {bit : Nat}
    (h : cache.set bit = .ok cache') : HasSet bit cache cache' := by
  by_cases hbit : bit / 8 < cache.bytes.size
  · obtain ⟨other, hother, hasSet⟩ := exists_set hbit
    rw [h, Except.ok.injEq] at hother
    exact hother ▸ hasSet
  · rw [set, dif_neg hbit] at h
    cases h

section Allows

variable {P : Protocol ι} {disk : ι} {cause : Error → Prop} (A : P.Allows disk cause)
include A

/-- An entry that is written on disk is written in memory. -/
theorem BlockTable.setEntry_obeys (table : BlockTable) (block : Nat) (sector : UInt32) :
    (table.setEntry disk block sector).Obeys P
      (fun table' => table' = table.withEntry block sector ∧ ∃ position,
        P.answers disk (.write position (Bytes.ofNumber 4 sector.toNat).toByteArray) (.ok ()))
      cause := by
  refine Access.Obeys.bind (Access.minds_liftExcept A (.entry table block)) fun _ _ => ?_
  dsimp only
  split
  · exact Access.obeys_bind.mpr (A.plain _ trivial)
  · refine Access.obeys_bind.mpr (Access.obeys_ask.mpr ⟨A.permits _ ?_, fun reply hreply => ?_⟩)
    · intro hempty
      have hsize := (Bytes.ofNumber 4 sector.toNat).size_toByteArray
      exact absurd (hsize.symm.trans hempty) (by decide)
    · cases reply with
      | ok _ => exact ⟨rfl, _, hreply⟩
      | error e => exact A.fails _ e hreply

namespace BlockMap

theorem findEnd_minds : (findEnd disk).Minds P cause := by
  have hfirst : ∀ size, (Access.readWithin disk 0 512 .footerMissing >>= fun first => (do
      if Footer.hasCookie first.toByteArray then return (size, first)
      throw (.corrupt .footerMissing) : Access ι (Nat × Sector))).Minds P cause := by
    intro size
    refine Access.minds_bind (Access.minds_readWithin A (by decide) _ _) fun _ => ?_
    split
    · exact Access.minds_pure _
    · exact Access.minds_throw (A.plain _ trivial)
  refine Access.minds_bind (Access.minds_ask A id) fun size => ?_
  split
  · refine Access.minds_bind (Access.minds_ask A id) fun _ => ?_
    split
    · exact Access.minds_pure _
    · exact hfirst _
  · exact hfirst _

theorem padEnd_minds (position : Nat) : (padEnd disk position).Minds P cause := by
  unfold padEnd
  split
  · exact Access.minds_pure _
  · exact Access.minds_bind (Access.minds_liftExcept A (.align _)) fun _ =>
      Access.minds_zeroFill A _ _

/-- A block that was appended is recorded, unless its number is that of no block. -/
theorem allocate_obeys (map : BlockMap) (block : Nat) :
    (allocate disk map block).Obeys P
      (fun result => block < map.table.size ∧ map.table.place? block = none ∧
        result.2 = (map.allocated block result.1).table ∧
        (result.1 < 2 ^ 32 - 1 ∨ result.1 = 2 ^ 32 - 1 ∧ P.Blanks disk)) cause := by
  unfold allocate
  refine Access.obeys_bind.mpr (Access.obeys_liftExcept.mpr ?_)
  cases halloc : map.table.isAllocated block with
  | error e => exact A.plain e (Mild.isAllocated _ _ e halloc)
  | ok allocated =>
  cases allocated with
  | true => exact A.plain _ trivial
  | false =>
  obtain ⟨hblock, hvacant⟩ := BlockTable.of_isAllocated halloc
  refine Access.Obeys.bind (findEnd_minds A) fun found _ => ?_
  refine Access.Obeys.bind (padEnd_minds A _) fun position _ => ?_
  dsimp only
  split
  · exact A.plain _ trivial
  next hnear =>
  refine Access.Obeys.bind (Access.minds_zeroSectors A _ _) fun _ _ => ?_
  refine Access.Obeys.bind (Access.minds_zeroSectors A _ _) fun _ _ => ?_
  refine Access.Obeys.bind (Access.minds_write A (by decide) _ _) fun _ _ => ?_
  refine Access.Obeys.bind (BlockTable.setEntry_obeys A _ _ _) ?_
  rintro table ⟨rfl, place, hanswer⟩
  refine ⟨hblock, hvacant, rfl, ?_⟩
  by_cases hlast : position / 512 < 2 ^ 32 - 1
  · exact .inl hlast
  · have hsector : position / 512 = 2 ^ 32 - 1 := by omega
    rw [hsector] at hanswer
    exact .inr ⟨hsector, place, hanswer⟩

end BlockMap

end Allows

/-- An invariant that every step keeps whatever the storage answers. -/
structure Discipline (P : Protocol ι) (disk : ι) (cause : Error → Prop) (J : BlockMap → Prop) : Prop
    extends P.Allows disk cause where
  /-- The cached bitmap may be stored. -/
  stores : ∀ map position, J map → P.permits disk (.write position map.bitmap.bytes)
  /-- What a flush fails for if the bitmap has changes and its block has no place. -/
  stranded : ∀ map block, J map → map.bitmap.block = some block → map.bitmap.dirty = true →
    map.table.place? block = none → cause (.corrupt .dirtyUnallocated)
  cleaned : ∀ map, J map → J map.cleaned
  loaded : ∀ map bitmap, J map → bitmap.dirty = false →
    bitmap.bytes.size = map.bitmap.bytes.size → J { map with bitmap }
  allocated : ∀ map block start, J map → block < map.table.size → map.table.place? block = none →
    start < 2 ^ 32 - 1 → J (map.allocated block start)
  marked : ∀ map block i bitmap, J map → map.bitmap.block = some block →
    ((map.table.place? block).isSome ∨ P.Blanks disk) → BitmapCache.HasSet i map.bitmap bitmap →
      J { map with bitmap }

variable {P : Protocol ι} {disk : ι} {cause : Error → Prop} {J : BlockMap → Prop}
variable (D : Discipline P disk cause J) {map : BlockMap}
include D

theorem Discipline.liftExcept {result : Except Error α} (h : Mild result) {state : BlockMap}
    (hJ : J state) {Q : α → BlockMap → Prop} (hQ : ∀ a, result = .ok a → Q a state) :
    (liftM result : Engine ι BlockMap α).Obeys P Q (fun e map' => cause e ∧ J map') state := by
  refine Engine.obeys_liftExcept.mpr ?_
  cases result with
  | ok a => exact hQ a rfl
  | error e => exact ⟨D.plain e (h e rfl), hJ⟩

omit D in
theorem Discipline.liftAccess {access : Access ι α} (h : access.Minds P cause) {state : BlockMap}
    (hJ : J state) {Q : α → BlockMap → Prop} (hQ : ∀ a, Q a state) :
    (liftM access : Engine ι BlockMap α).Obeys P Q (fun e map' => cause e ∧ J map') state :=
  Engine.obeys_liftAccess.mpr (h.mono (fun a _ => hQ a) fun _ he => ⟨he, hJ⟩)

namespace BlockMap

theorem flush_disciplined (h : J map) :
    (flush disk).Obeys P
      (fun _ map' => J map' ∧ map'.header = map.header ∧ map'.table = map.table)
      (fun e map' => cause e ∧ J map') map := by
  refine Engine.obeys_get_bind.mpr (Engine.obeys_bind.mpr (Engine.obeys_liftAccess.mpr ?_))
  unfold BitmapCache.flush
  split
  · next block hblock hdirty =>
    refine Access.obeys_bind.mpr (Access.obeys_liftExcept.mpr ?_)
    cases hsector : map.table.sector? block with
    | error e => exact ⟨D.plain e (Mild.sector? _ _ e hsector), h⟩
    | ok found =>
    cases found with
    | none => exact ⟨D.stranded map block h hblock hdirty (BlockTable.of_sector? hsector).2, h⟩
    | some start =>
    refine Access.obeys_bind.mpr (Access.obeys_liftExcept.mpr ?_)
    cases hposition : Sector.position start with
    | error e => exact ⟨D.plain e (Mild.position _ e hposition), h⟩
    | ok position =>
    refine Access.obeys_bind.mpr (Access.obeys_ask.mpr ⟨D.stores map position h, ?_⟩)
    intro reply hreply
    cases reply with
    | ok _ => exact ⟨D.cleaned map h, rfl, rfl⟩
    | error e => exact ⟨D.fails _ e hreply, h⟩
  · exact ⟨h, rfl, rfl⟩

omit D in
theorem load_minds (A : P.Allows disk cause) (table : BlockTable) (cache : BitmapCache)
    (block : Nat) :
    (cache.load disk table block).Obeys P
      (fun cache' => cache'.block = some block ∧ cache'.dirty = false ∧
        cache'.bytes.size = cache.bytes.size) cause := by
  refine Access.Obeys.bind (Access.minds_liftExcept A (.sector? _ _)) fun found _ => ?_
  dsimp only
  split
  · refine Access.Obeys.bind (Access.minds_liftExcept A (.position _)) fun _ _ => ?_
    refine Access.Obeys.bind (Access.minds_readWithin A (by decide) _ _) fun _ _ => ?_
    exact ⟨rfl, rfl, Bytes.size_toByteArray _⟩
  · exact ⟨rfl, rfl, Bytes.size_toByteArray _⟩

theorem select_disciplined (h : J map) (block : Nat) :
    (select disk block).Obeys P
      (fun _ map' => J map' ∧ map'.header = map.header ∧ map'.table = map.table ∧
        map'.bitmap.block = some block) (fun e map' => cause e ∧ J map') map := by
  refine Engine.obeys_get_bind.mpr ?_
  split
  · next hcached => exact ⟨h, rfl, rfl, hcached⟩
  · refine Engine.Obeys.bind (flush_disciplined D h) ?_
    rintro _ map' ⟨h', hheader, htable⟩
    refine Engine.obeys_get_bind.mpr (Engine.obeys_bind.mpr (Engine.obeys_liftAccess.mpr ?_))
    refine (load_minds D.toAllows map'.table map'.bitmap block).mono ?_ fun _ he => ⟨he, h'⟩
    rintro bitmap ⟨hcached, hdirty, hsize⟩
    exact ⟨D.loaded map' bitmap h' hdirty hsize, hheader, htable, hcached⟩

theorem holds_disciplined (h : J map) (sector : Nat) :
    (holds disk sector).Keeps P cause (fun _ map' => J map') map := by
  refine Engine.obeys_get_bind.mpr (Engine.obeys_bind.mpr ?_)
  refine Discipline.liftExcept D (.locate map sector) h fun _ _ => ?_
  exact Engine.Obeys.bind (select_disciplined D h _) fun _ map' h' => h'.1

theorem readSector_disciplined (h : J map) (sector : Nat) :
    (readSector disk sector).Keeps P cause (fun _ map' => J map') map := by
  refine Engine.obeys_get_bind.mpr (Engine.obeys_bind.mpr ?_)
  refine Discipline.liftExcept D (.locate map sector) h fun _ _ => ?_
  refine Engine.Obeys.bind (select_disciplined D h _) ?_
  rintro _ map' ⟨h', -⟩
  refine Engine.obeys_get_bind.mpr ?_
  split
  · refine Engine.obeys_bind.mpr (Discipline.liftExcept D (.sector? _ _) h' fun found _ => ?_)
    split
    · refine Engine.obeys_bind.mpr (Discipline.liftExcept D (.position _) h' fun _ _ => ?_)
      exact Discipline.liftAccess (Access.minds_readWithin D.toAllows (by decide) _ _) h'
        fun _ => h'
    · exact ⟨D.plain _ trivial, h'⟩
  · exact h'

theorem readSectors_disciplined (h : J map) (count sector slot : Nat) (buffer : ByteArray) :
    (readSectors disk count sector slot buffer).Keeps P cause (fun _ map' => J map') map := by
  induction count generalizing sector slot buffer map with
  | zero => exact h
  | succ count ih =>
    refine Engine.Obeys.bind (readSector_disciplined D h sector) fun content map' h' => ?_
    exact Engine.obeys_bind.mpr (Discipline.liftExcept D (.fill _ _ _) h' fun _ _ => ih h' _ _ _)

/-- Afterwards the block is where it was or where it was appended. If the disk has accepted the
entry of no block, it is nowhere. -/
theorem ensureAllocated_disciplined (h : J map) (block : Nat) :
    (ensureAllocated disk block).Obeys P
      (fun _ map' => J map' ∧ map'.header = map.header ∧ map'.bitmap = map.bitmap ∧
        ((map'.table.place? block).isSome ∨ P.Blanks disk))
      (fun e map' => cause e ∧ J map') map := by
  refine Engine.obeys_get_bind.mpr (Engine.obeys_liftExcept_bind.mpr ?_)
  cases hsector : map.table.sector? block with
  | error e => exact ⟨D.plain e (Mild.sector? _ _ e hsector), h⟩
  | ok found =>
  have hplace := (BlockTable.of_sector? hsector).2
  cases found with
  | some start => exact ⟨h, rfl, rfl, .inl (by rw [hplace]; rfl)⟩
  | none =>
  refine Engine.obeys_bind.mpr (Engine.obeys_liftAccess.mpr ?_)
  refine (allocate_obeys D.toAllows map block).mono ?_ fun _ he => ⟨he, h⟩
  rintro ⟨start, table⟩ ⟨hblock, hvacant, htable, hstart⟩
  change table = (map.allocated block start).table at htable
  subst htable
  obtain hnear | ⟨hlast, hblanks⟩ := hstart
  · refine ⟨D.allocated map block start h hblock hvacant hnear, rfl, rfl, .inl ?_⟩
    exact Option.isSome_iff_exists.mpr ⟨start, BlockTable.place?_withEntry_ofNat hblock hnear⟩
  · have hsame : map.allocated block start = map := by
      rw [allocated, show start = 2 ^ 32 - 1 from hlast]
      exact congrArg (fun table => BlockMap.mk map.header table map.bitmap)
        (BlockTable.withEntry_unallocated hblock hvacant)
    exact ⟨hsame.symm ▸ h, rfl, rfl, .inr hblanks⟩

/-- A sector that was written lies in a block with a place. -/
theorem writeSector_disciplined (h : J map) (sector : Nat) (content : Sector) :
    (writeSector disk sector content).Obeys P
      (fun _ map' => J map' ∧ map'.header = map.header ∧
        ((map'.table.place? (sector / map.header.sectorsPerBlock)).isSome ∨ P.Blanks disk))
      (fun e map' => cause e ∧ J map') map := by
  refine Engine.obeys_get_bind.mpr (Engine.obeys_bind.mpr ?_)
  refine Discipline.liftExcept D (.locate map sector) h fun located hlocated => ?_
  obtain rfl := of_locate hlocated
  refine Engine.Obeys.bind (select_disciplined D h _) ?_
  rintro _ map₁ ⟨h₁, hheader₁, -, hcached⟩
  refine Engine.Obeys.bind (ensureAllocated_disciplined D h₁ _) ?_
  rintro start map₂ ⟨h₂, hheader₂, hbitmap, hplace⟩
  rw [← hbitmap] at hcached
  refine Engine.obeys_get_bind.mpr (Engine.obeys_bind.mpr ?_)
  refine Discipline.liftExcept D (.position _) h₂ fun _ _ => Engine.obeys_bind.mpr ?_
  refine Discipline.liftAccess (Access.minds_write D.toAllows (by decide) _ _) h₂ fun _ => ?_
  refine Engine.obeys_bind.mpr (Discipline.liftExcept D (.set _ _) h₂ fun bitmap hset => ?_)
  exact ⟨D.marked map₂ _ _ bitmap h₂ hcached hplace (BitmapCache.hasSet_of_set hset),
    hheader₂.trans hheader₁, hplace⟩

theorem writeSectors_disciplined (buffer : ByteArray) (h : J map) (count sector slot : Nat) :
    (writeSectors disk buffer count sector slot).Keeps P cause (fun _ map' => J map') map := by
  induction count generalizing sector slot map with
  | zero => exact h
  | succ count ih =>
    refine Engine.obeys_bind.mpr (Discipline.liftExcept D (.window _ _ _) h fun content _ => ?_)
    exact Engine.Obeys.bind (writeSector_disciplined D h sector content) fun _ _ h' => ih h'.1 _ _

end BlockMap

end VirtualDisk
