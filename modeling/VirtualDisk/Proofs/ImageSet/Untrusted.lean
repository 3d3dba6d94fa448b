import VirtualDisk.ImageSet.Chain
import VirtualDisk.Proofs.Image.Untrusted
import VirtualDisk.Proofs.ImageSet.Assembling

/-!
# Sets of untrusted images

Any images that open may meet in a set, in chains or not, on storages of their own or on shared
ones. As long as no storage reaches 2^63 bytes, no call on the set or on one of its images fails for
a cause that blames the library, and all numbers stay in their ranges.

`Engine.Endures` says so of one engine: it ends with a postcondition, or the library is not to blame
and what holds of the state still holds.
-/

namespace VirtualDisk

open Storage

variable {ι σ α β : Type}

namespace Storage

/-- The postcondition holds, or the library is not to blame and the state satisfies `P`. -/
def Unblamed (P : σ → Prop) (Q : α → σ → Prop) : Except Error α × σ → Prop
  | (.ok a, state) => Q a state
  | (.error e, state) => P state ∧ ¬ e.IsSlip

/-- Whatever the storages hold, the outcome is unblamed while all of them are short. -/
def Engine.Endures [DecidableEq ι] (P : σ → Prop) (engine : Engine ι σ α) (Q : α → σ → Prop)
    (state : σ) : Prop :=
  ∀ contents, (engine.run.run state).Stays Short shelf contents →
    Unblamed P Q (engine.runOn shelf state contents).1

namespace Engine

variable [DecidableEq ι] {P : σ → Prop} {engine : Engine ι σ α} {Q Q' : α → σ → Prop} {state : σ}

theorem Endures.mono (h : engine.Endures P Q state) (imp : ∀ a state, Q a state → Q' a state) :
    engine.Endures P Q' state := by
  intro contents stays
  have hpost := h contents stays
  rcases hrun : (engine.runOn shelf state contents).1 with ⟨result, state'⟩
  rw [hrun] at hpost
  cases result with
  | ok a => exact imp a state' hpost
  | error e => exact hpost

theorem endures_pure {a : α} (h : Q a state) : (pure a : Engine ι σ α).Endures P Q state :=
  fun _ _ => h

theorem endures_throw {e : Error} (hstate : P state) (h : ¬ e.IsSlip) :
    (throw e : Engine ι σ α).Endures P Q state :=
  fun _ _ => ⟨hstate, h⟩

theorem endures_bind {f : α → Engine ι σ β} {Q : β → σ → Prop}
    (h : engine.Endures P (fun a state => (f a).Endures P Q state) state) :
    (engine >>= f).Endures P Q state := by
  intro contents stays
  simp only [runOn, ExceptT.run_bind, StateT.run_bind, Program.run_bind] at stays ⊢
  obtain ⟨stays₁, stays₂⟩ := Program.stays_bind.mp stays
  have hfirst := h contents stays₁
  simp only [runOn] at hfirst
  rcases hrun : Program.run shelf (engine.run.run state) contents with ⟨⟨result, state'⟩, contents'⟩
  rw [hrun] at hfirst stays₂
  cases result with
  | ok a => exact hfirst contents' stays₂
  | error e => exact hfirst

theorem endures_get_bind {f : σ → Engine ι σ β} {Q : β → σ → Prop}
    (h : (f state).Endures P Q state) : (get >>= f).Endures P Q state :=
  endures_bind fun _ _ => h

theorem endures_liftExcept_bind {result : Except Error α} {f : α → Engine ι σ β}
    {Q : β → σ → Prop} (success : ∀ a, result = .ok a → (f a).Endures P Q state)
    (failure : ∀ e, result = .error e → P state ∧ ¬ e.IsSlip) :
    ((liftM result : Engine ι σ α) >>= f).Endures P Q state := by
  refine endures_bind fun _ _ => ?_
  rw [runOn_liftExcept]
  cases result with
  | ok a => exact success a rfl
  | error e => exact failure e rfl

theorem Ensures.endures (disk : ι)
    (h : ∀ content, engine.Ensures (Image.short disk) (fun a state _ => Q a state)
      (fun e state _ => P state ∧ ¬ e.IsSlip) state content) : engine.Endures P Q state := by
  intro contents stays
  have hpost := (Program.Ensures.run Setting.describes_shelf (h (contents disk))
    (stays.mono fun world hworld => hworld disk) (fun _ => True) (fun _ _ _ => trivial) trivial).1
  change Engine.Post _ _ (engine.runOn shelf state contents).1 _ at hpost
  rcases hrun : (engine.runOn shelf state contents).1 with ⟨result, state'⟩
  rw [hrun] at hpost
  cases result with
  | ok a => exact hpost
  | error e => exact hpost

theorem endures_on {τ : Type} {P : τ → Prop} {part : σ} {put : σ → τ} {whole : τ}
    {Q : α → τ → Prop}
    (h : engine.Endures (fun part => P (put part)) (fun a part => Q a (put part)) part) :
    (on part put engine).Endures P Q whole := by
  intro contents stays
  change Program.Stays Short shelf (engine.run.run part >>= fun a => pure (a.1, put a.2))
    contents at stays
  have hpost := h contents (Program.stays_bind.mp stays).1
  rw [runOn_on]
  rcases hrun : (engine.runOn shelf part contents).1 with ⟨result, part'⟩
  rw [hrun] at hpost
  cases result with
  | ok a => exact hpost
  | error e => exact hpost

end Engine

end Storage

namespace ImageSet

/-- All images are covering, and all chains descend. -/
structure CoveringChains (set : ImageSet ι) : Prop where
  images : ∀ id member, set.member id = .ok member → member.image.Covering
  descends : ∀ id member parent, set.member id = .ok member → member.parent = some parent →
    parent < id

variable {set set' : ImageSet ι} {member : Member ι} {image : Image ι} {id : Nat}

theorem CoveringChains.put (h : set.CoveringChains) (hmember : set.member id = .ok member)
    (himage : image.Covering) : (set.put id member image).CoveringChains := by
  constructor
  · intro other member' hother
    by_cases hid : other = id
    · subst hid
      rw [member_put_self hmember, Except.ok.injEq] at hother
      subst hother
      exact himage
    · exact h.images other member' ((member_put_of_ne hid).symm.trans hother)
  · intro other member' parent hother hparent
    by_cases hid : other = id
    · subst hid
      rw [member_put_self hmember, Except.ok.injEq] at hother
      subst hother
      exact h.descends other member parent hmember hparent
    · exact h.descends other member' parent ((member_put_of_ne hid).symm.trans hother) hparent

/-- A number that is not in use is the caller's business. -/
theorem not_isSlip_of_member {e : Error} (h : set.member id = .error e) : ¬ e.IsSlip := by
  rw [member] at h
  split at h
  · cases h
  · cases h
    exact fun hslip => hslip

theorem not_isSlip_of_image {e : Error} (h : set.image id = .error e) : ¬ e.IsSlip := by
  cases hmember : set.member id with
  | ok member =>
    rw [image_eq_ok hmember] at h
    cases h
  | error e' =>
    rw [ImageSet.image, hmember] at h
    cases h
    exact not_isSlip_of_member hmember

variable [DecidableEq ι]

theorem onImage_endures {engine : Engine ι (Image ι) α} {Q : α → Prop} (h : set.CoveringChains)
    (id : Nat) (himage : ∀ member, set.member id = .ok member → ∀ content,
      engine.Ensures (Image.short member.image.disk) (fun a image' _ => image'.Covering ∧ Q a)
        (fun e image' _ => image'.Covering ∧ ¬ e.IsSlip) member.image content) :
    (onImage id engine).Endures CoveringChains (fun a set' => set'.CoveringChains ∧ Q a) set := by
  refine Engine.endures_get_bind (Engine.endures_liftExcept_bind (fun member hmember => ?_)
    fun e he => ⟨h, not_isSlip_of_member he⟩)
  refine Engine.endures_on (Engine.Ensures.endures member.image.disk fun content => ?_)
  refine (himage member hmember content).mono ?_ ?_
  · exact fun a image' _ _ hpost => ⟨h.put hmember hpost.1, hpost.2⟩
  · exact fun e image' _ _ hpost => ⟨h.put hmember hpost.1, hpost.2⟩

/-- The chain is followed to an image. The induction is on the number, which decreases. -/
theorem resolve_endures (h : set.CoveringChains) (sector id : Nat) :
    (resolve sector id).Endures CoveringChains (fun _ set' => set'.CoveringChains) set := by
  induction id using Nat.strongRecOn generalizing set with
  | ind id ih =>
    rw [resolve]
    refine Engine.endures_get_bind (Engine.endures_liftExcept_bind (fun member hmember => ?_)
      fun e he => ⟨h, not_isSlip_of_member he⟩)
    split
    · exact Engine.endures_pure h
    next hask =>
    have hsector : sector < member.image.totalSectors := Nat.not_le.mp (not_or.mp hask).2
    refine Engine.endures_bind ((onImage_endures (Q := fun _ => True) h id
      fun member' hmember' content => ?_).mono ?_)
    · obtain rfl := Except.ok.inj (hmember.symm.trans hmember')
      exact ((h.images id member hmember).holds hsector content).mono_success
        fun _ _ _ _ hchains => ⟨hchains, trivial⟩
    rintro found set' ⟨h', -⟩
    split
    · exact Engine.endures_pure h'
    split
    · exact Engine.endures_throw h' fun hslip => hslip
    next parent hparent =>
    rw [dif_pos (h.descends id member parent hmember hparent)]
    exact ih parent (h.descends id member parent hmember hparent) h'

theorem readSector_endures (h : set.CoveringChains) (id sector : Nat) :
    (readSector id sector).Endures CoveringChains (fun _ set' => set'.CoveringChains) set := by
  rw [readSector]
  refine Engine.endures_bind ((resolve_endures h sector id).mono fun owner set' h' => ?_)
  refine Engine.endures_get_bind (Engine.endures_liftExcept_bind (fun image himage => ?_)
    fun e he => ⟨h', not_isSlip_of_image he⟩)
  have hsize : (Bytes.zero 512).toByteArray.size = 512 := Bytes.size_toByteArray _
  generalize (Bytes.zero 512).toByteArray = blank at hsize ⊢
  have hblank : Buffer.Holds blank.size 1 := ⟨by decide, Nat.le_of_eq hsize.symm⟩
  have hfinish : ∀ (result : ReadResult) (set'' : ImageSet ι), set''.CoveringChains →
      result.buffer.size = blank.size →
      (if result.truncated ≠ 0 then pure (Bytes.zero 512) else
        liftM (Buffer.sector result.buffer 0) : Engine ι (ImageSet ι) Sector).Endures CoveringChains
          (fun _ set' => set'.CoveringChains) set'' := by
    intro result set'' h'' hbuffer
    split
    · exact Engine.endures_pure h''
    · rw [Buffer.sector_eq (by omega)]
      exact Engine.endures_pure h''
  dsimp only
  split
  · refine Engine.endures_bind (Engine.Ensures.endures image.disk fun content => ?_)
    rw [Engine.ensures_liftAccess]
    refine (image.readFlat_excused image.disk rfl sector hblank content).mono ?_ ?_
    · exact fun result _ _ hbuffer => hfinish result set' h' hbuffer
    · exact fun e _ _ hexcused => ⟨h', hexcused.resolve_left fun hm => hm⟩
  · refine Engine.endures_bind ((onImage_endures h' owner fun member hmember content =>
      (h'.images owner member hmember).readBlocks sector hblank content).mono ?_)
    exact fun result set'' hpost => hfinish result set'' hpost.1 hpost.2

theorem readSectors_endures (id count sector slot : Nat) (buffer : ByteArray)
    (hbuffer : (slot + count) * 512 ≤ buffer.size) (h : set.CoveringChains) :
    (readSectors id count sector slot buffer).Endures CoveringChains
      (fun _ set' => set'.CoveringChains) set := by
  induction count generalizing sector slot buffer set with
  | zero => exact Engine.endures_pure h
  | succ count ih =>
    refine Engine.endures_bind ((readSector_endures h id sector).mono fun content set' h' => ?_)
    obtain ⟨buffer', hfill, filled⟩ :=
      Buffer.exists_fill content (show slot * 512 + 512 ≤ buffer.size by omega)
    refine Engine.endures_liftExcept_bind (fun buffer'' hfill' => ?_) fun e he => ?_
    · obtain rfl := Except.ok.inj (hfill.symm.trans hfill')
      exact ih (sector + 1) (slot + 1) buffer' (by rw [filled.size_eq]; lia) h'
    · cases hfill.symm.trans he

theorem readChain_endures (h : set.CoveringChains) (id offset : Nat) {count : Nat}
    {buffer : ByteArray} (hbuffer : Buffer.Holds buffer.size count) :
    (readChain id offset count buffer).Endures CoveringChains
      (fun _ set' => set'.CoveringChains) set := by
  refine Engine.endures_liftExcept_bind (fun _ _ => ?_) fun e he => ?_
  · refine Engine.endures_get_bind (Engine.endures_liftExcept_bind (fun image himage => ?_)
      fun e he => ⟨h, not_isSlip_of_image he⟩)
    refine Engine.endures_bind ((readSectors_endures id _ offset 0 buffer
      (image.transfer_slots offset hbuffer) h).mono fun _ _ h' => ?_)
    exact Engine.endures_pure h'
  · cases (Buffer.check_eq hbuffer).symm.trans he

theorem call_endures (h : set.CoveringChains) (id : Nat) (call : ImageCall) (valid : call.Valid) :
    (onImage id call.engine).Endures CoveringChains (fun _ set' => set'.CoveringChains) set :=
  (onImage_endures (Q := fun _ => True) h id fun member hmember content =>
    ((h.images id member hmember).call call valid content).mono_success
      fun _ _ _ _ hchains => ⟨hchains, trivial⟩).mono fun _ _ hpost => hpost.1

theorem read_endures (h : set.CoveringChains) (id offset : Nat) {count : Nat} {buffer : ByteArray}
    (hbuffer : Buffer.Holds buffer.size count) :
    (read id offset count buffer).Endures CoveringChains
      (fun _ set' => set'.CoveringChains) set := by
  refine Engine.endures_get_bind (Engine.endures_liftExcept_bind (fun image himage => ?_)
    fun e he => ⟨h, not_isSlip_of_image he⟩)
  split
  · exact readChain_endures h id offset hbuffer
  · refine (onImage_endures (Q := fun _ => True) h id fun member hmember content => ?_).mono
      fun _ _ hpost => hpost.1
    have hread := (h.images id member hmember).call (.use (.read offset count buffer)) hbuffer
      content
    simp only [ImageCall.engine, Operation.engine, Engine.ensures_bind, Engine.ensures_pure]
      at hread
    exact hread.mono_success fun _ _ _ hw hpost => ⟨hpost hw, trivial⟩

theorem flushFrom_endures (count first : Nat) (h : set.CoveringChains) :
    (flushFrom count first).Endures CoveringChains (fun _ set' => set'.CoveringChains) set := by
  induction count generalizing first set with
  | zero => exact Engine.endures_pure h
  | succ count ih =>
    refine Engine.endures_bind ((onImage_endures (Q := fun _ => True) h first
      fun member hmember content => ?_).mono fun _ set' hpost => ih (first + 1) hpost.1)
    have hflush := (h.images first member hmember).call (.use .flush) trivial content
    simp only [ImageCall.engine, Operation.engine, Engine.ensures_bind, Engine.ensures_pure]
      at hflush
    exact hflush.mono_success fun _ _ _ hw hpost => ⟨hpost hw, trivial⟩

omit [DecidableEq ι] in
theorem grows_onImage {engine : Engine ι (Image ι) α} (h : engine.Grows) (id : Nat) :
    (onImage id engine).Grows :=
  Engine.grows_bind Engine.grows_get fun _ =>
    Engine.grows_bind (Engine.grows_liftExcept _) fun _ => Engine.grows_on h

omit [DecidableEq ι] in
theorem grows_resolve (sector id : Nat) :
    (resolve sector id : Engine ι (ImageSet ι) Nat).Grows := by
  induction id using Nat.strongRecOn with
  | ind id ih =>
    rw [resolve]
    refine Engine.grows_bind Engine.grows_get fun _ =>
      Engine.grows_bind (Engine.grows_liftExcept _) fun member => ?_
    split
    · exact Engine.grows_pure _
    refine Engine.grows_bind (grows_onImage (Image.grows_onBlocks fun disk =>
      BlockMap.grows_holds disk sector) id) fun found => ?_
    split
    · exact Engine.grows_pure _
    split
    · exact Engine.grows_throw _
    next parent hparent =>
    split
    · next hlt => exact ih parent hlt
    · exact Engine.grows_throw _

omit [DecidableEq ι] in
theorem grows_readSector (id sector : Nat) :
    (readSector id sector : Engine ι (ImageSet ι) Sector).Grows := by
  have hfinish : ∀ result : ReadResult,
      (if result.truncated ≠ 0 then pure (Bytes.zero 512) else
        liftM (Buffer.sector result.buffer 0) : Engine ι (ImageSet ι) Sector).Grows := by
    intro result
    split
    · exact Engine.grows_pure _
    · exact Engine.grows_liftExcept _
  rw [readSector]
  refine Engine.grows_bind (grows_resolve sector id) fun owner =>
    Engine.grows_bind Engine.grows_get fun _ =>
      Engine.grows_bind (Engine.grows_liftExcept _) fun image => ?_
  generalize (Bytes.zero 512).toByteArray = blank
  dsimp only
  split
  · exact Engine.grows_bind (Engine.grows_liftAccess (image.grows_readFlat _ _ _)) hfinish
  · exact Engine.grows_bind (grows_onImage (Image.grows_readBlocks _ _ _) owner) hfinish

omit [DecidableEq ι] in
theorem grows_readSectors (id count sector slot : Nat) (buffer : ByteArray) :
    (readSectors id count sector slot buffer : Engine ι (ImageSet ι) ByteArray).Grows := by
  induction count generalizing sector slot buffer with
  | zero => exact Engine.grows_pure _
  | succ count ih =>
    exact Engine.grows_bind (grows_readSector id sector) fun _ =>
      Engine.grows_bind (Engine.grows_liftExcept _) fun _ => ih _ _ _

omit [DecidableEq ι] in
theorem grows_readChain (id offset count : Nat) (buffer : ByteArray) :
    (readChain id offset count buffer : Engine ι (ImageSet ι) ReadResult).Grows :=
  Engine.grows_bind (Engine.grows_liftExcept _) fun _ =>
    Engine.grows_bind Engine.grows_get fun _ =>
      Engine.grows_bind (Engine.grows_liftExcept _) fun _ =>
        Engine.grows_bind (grows_readSectors id _ _ _ _) fun _ => Engine.grows_pure _

omit [DecidableEq ι] in
theorem grows_read (id offset count : Nat) (buffer : ByteArray) :
    (read id offset count buffer : Engine ι (ImageSet ι) ReadResult).Grows := by
  refine Engine.grows_bind Engine.grows_get fun _ =>
    Engine.grows_bind (Engine.grows_liftExcept _) fun image => ?_
  split
  · exact grows_readChain id offset count buffer
  · exact grows_onImage (Image.grows_read offset count buffer) id

omit [DecidableEq ι] in
theorem grows_flushFrom (count first : Nat) :
    (flushFrom count first : Engine ι (ImageSet ι) Unit).Grows := by
  induction count generalizing first with
  | zero => exact Engine.grows_pure _
  | succ count ih =>
    exact Engine.grows_bind (grows_onImage Image.grows_flush first) fun _ => ih (first + 1)

end ImageSet

/-- One call on a set, or on one of its images. -/
inductive SetCall where
  | on (id : Nat) (call : ImageCall)
  | read (id offset count : Nat) (buffer : ByteArray)
  | readChain (id offset count : Nat) (buffer : ByteArray)
  | flush

namespace SetCall

/-- The call. -/
def engine : SetCall → Engine ι (ImageSet ι) Answer
  | on id call => ImageSet.onImage id call.engine
  | read id offset count buffer => return .shown (← ImageSet.read id offset count buffer)
  | readChain id offset count buffer => return .shown (← ImageSet.readChain id offset count buffer)
  | flush => do
    ImageSet.flush
    return .done

/-- The buffer can hold the request. The number of the image may be any. -/
def Valid : SetCall → Prop
  | on _ call => call.Valid
  | read _ _ count buffer => Buffer.Holds buffer.size count
  | readChain _ _ count buffer => Buffer.Holds buffer.size count
  | flush => True

theorem grows_engine (call : SetCall) : (call.engine : Engine ι (ImageSet ι) Answer).Grows := by
  cases call with
  | on id call => exact ImageSet.grows_onImage call.grows_engine id
  | read id offset count buffer =>
    exact Engine.grows_bind (ImageSet.grows_read id offset count buffer) fun _ =>
      Engine.grows_pure _
  | readChain id offset count buffer =>
    exact Engine.grows_bind (ImageSet.grows_readChain id offset count buffer) fun _ =>
      Engine.grows_pure _
  | flush =>
    exact Engine.grows_bind (Engine.grows_bind Engine.grows_get fun _ =>
      ImageSet.grows_flushFrom _ _) fun _ => Engine.grows_pure _

variable [DecidableEq ι] {set : ImageSet ι}

/-- A good call on a set of covering images leaves one, and if it fails, the library is not to
blame. -/
theorem endures (h : set.CoveringChains) (call : SetCall) (valid : call.Valid) :
    call.engine.Endures ImageSet.CoveringChains (fun _ set' => set'.CoveringChains) set := by
  cases call with
  | on id call => exact ImageSet.call_endures h id call valid
  | read id offset count buffer =>
    exact Engine.endures_bind ((ImageSet.read_endures h id offset valid).mono fun _ _ h' =>
      Engine.endures_pure h')
  | readChain id offset count buffer =>
    exact Engine.endures_bind ((ImageSet.readChain_endures h id offset valid).mono fun _ _ h' =>
      Engine.endures_pure h')
  | flush =>
    refine Engine.endures_bind ((Engine.endures_get_bind (ImageSet.flushFrom_endures _ 0 h)).mono
      fun _ _ h' => ?_)
    exact Engine.endures_pure h'

end SetCall

namespace ImageSet

/-- All numbers of all images are in their ranges. -/
def InRange (set : ImageSet ι) : Prop :=
  ∀ id member, set.member id = .ok member → member.image.InRange

/-- Before and after every one of the calls all numbers are in their ranges, and no call fails for a
cause that blames the library, as long as all storages are shorter than 2^63 bytes. -/
def Safe [DecidableEq ι] : ImageSet ι → (ι → Content) → List SetCall → Prop
  | set, _, [] => set.InRange
  | set, contents, call :: calls => set.InRange ∧ ∀ result set' contents',
    call.engine.runOn shelf set contents = ((result, set'), contents') → Short contents' →
      (∀ e, result = .error e → ¬ e.IsSlip) ∧ Safe set' contents' calls

/-- Sets that are put together from images that were opened on any storages. -/
inductive Gathered : ImageSet ι → Prop
  | empty : Gathered .empty
  | insert {set set' : ImageSet ι} {image : Image ι} {id : Nat} (before : Gathered set)
      (handled : image.Handled) (inserted : set.insert image = .ok (id, set')) : Gathered set'
  | insertDifferencing {set set' : ImageSet ι} {image : Image ι} {id parent : Nat}
      (before : Gathered set) (handled : image.Handled)
      (inserted : set.insertDifferencing image parent = .ok (id, set')) : Gathered set'
  | replace {set set' : ImageSet ι} {image : Image ι} {id : Nat} (before : Gathered set)
      (handled : image.Handled) (replaced : set.replace id image = .ok set') : Gathered set'

variable {set set' : ImageSet ι} {image : Image ι} {parent : Option Nat} {id : Nat}

theorem CoveringChains.inRange (h : set.CoveringChains) : set.InRange :=
  fun id member hmember => (h.images id member hmember).inRange

theorem coveringChains_empty : (empty : ImageSet ι).CoveringChains := by
  have hnone : ∀ id member, (ImageSet.empty : ImageSet ι).member id ≠ .ok member :=
    fun id member hmember => absurd (lt_size hmember) (Nat.not_lt_zero id)
  constructor
  · exact fun id member hmember => absurd hmember (hnone id member)
  · exact fun id member _ hmember => absurd hmember (hnone id member)

theorem CoveringChains.push (h : set.CoveringChains) (himage : image.Covering)
    (hparent : ∀ number, parent = some number → number < set.size) :
    (set.push image parent).2.CoveringChains := by
  constructor
  · intro id member hmember
    obtain ⟨rfl, rfl⟩ | ⟨-, hbefore⟩ := of_member_push hmember
    · exact himage
    · exact h.images id member hbefore
  · intro id member number hmember hnumber
    obtain ⟨rfl, rfl⟩ | ⟨-, hbefore⟩ := of_member_push hmember
    · exact hparent number hnumber
    · exact h.descends id member number hbefore hnumber

theorem of_replace (h : set.replace id image = .ok set') :
    ∃ member, set.member id = .ok member ∧ set' = set.put id member image := by
  rw [replace] at h
  cases hmember : set.member id with
  | error e =>
    rw [hmember] at h
    cases h
  | ok member =>
    rw [hmember] at h
    exact ⟨member, rfl, (Except.ok.inj h).symm⟩

/-- Whatever was put together is covering, and its chains descend. -/
theorem Gathered.coveringChains (h : set.Gathered) : set.CoveringChains := by
  induction h with
  | empty => exact coveringChains_empty
  | insert before handled inserted ih =>
    obtain ⟨-, rfl, rfl⟩ := of_insert inserted
    exact ih.push handled.covering fun _ hnone => by cases hnone
  | insertDifferencing before handled inserted ih =>
    obtain ⟨⟨found, hfound, -⟩, rfl, rfl⟩ := of_insertDifferencing inserted
    exact ih.push handled.covering fun _ hsome => Option.some.inj hsome ▸ lt_size hfound
  | replace before handled replaced ih =>
    obtain ⟨member, hmember, rfl⟩ := of_replace replaced
    exact ih.put hmember handled.covering

/-- Calls on covering images are safe. The induction is on the calls. -/
theorem CoveringChains.safe [DecidableEq ι] (calls : List SetCall)
    (valid : ∀ call ∈ calls, call.Valid)
    (h : set.CoveringChains) (contents : ι → Content) : set.Safe contents calls := by
  induction calls generalizing set contents with
  | nil => exact h.inRange
  | cons call calls ih =>
    refine ⟨h.inRange, fun result set' contents' hrun short => ?_⟩
    have stays : (call.engine.run.run set).Stays Short shelf contents := by
      refine (call.grows_engine set).stays_short ?_
      change Short (call.engine.runOn shelf set contents).2
      rw [hrun]
      exact short
    have hpost := call.endures h (valid call List.mem_cons_self) contents stays
    rw [hrun] at hpost
    have valid' : ∀ call ∈ calls, call.Valid := fun call hcall =>
      valid call (List.mem_cons_of_mem _ hcall)
    cases result with
    | ok answer => exact ⟨fun _ he => (by cases he), ih valid' hpost contents'⟩
    | error e =>
      refine ⟨fun e' he' => ?_, ih valid' hpost.1 contents'⟩
      obtain rfl := Except.error.inj he'
      exact hpost.2

end ImageSet

/-- Whatever bytes a disk has, they cannot make the library compute out of range. Opening ends with
an image or an error and leaves the disk as it is; every header that is read has blocks that can be
divided by, and a table within the limits covers no more than 64 bits can count; and all calls on
all sets of opened images are safe. -/
theorem untrusted_images_are_safe [DecidableEq ι] :
    (∀ (disk : ι) (readOnly : Bool) (content : Content), content.size < 2 ^ 63 →
      ((Image.ofDisk disk readOnly).runOn sole content).2 = content ∧
        ∀ e, ((Image.ofDisk disk readOnly).runOn sole content).1 = .error e → ¬ e.IsTrap) ∧
      (∀ raw header, BlockHeader.parse raw = .ok header → header.blockSize.toNat ≠ 0 ∧
        ∀ count, count * 4 ≤ BlockTable.maxBytes → count * header.sectorsPerBlock < 2 ^ 64) ∧
      ∀ (set : ImageSet ι) (calls : List SetCall), set.Gathered →
        (∀ call ∈ calls, call.Valid) → ∀ contents, set.Safe contents calls := by
  refine ⟨fun disk readOnly content hsize => ?_, fun raw header hparse => ?_,
    fun set calls gathered valid contents => gathered.coveringChains.safe calls valid contents⟩
  · have hpost := (Image.ofDisk_accepts (S := Setting.free disk False fun _ => True)
      ⟨fun _ => trivial, fun _ _ _ => trivial⟩ (Nat.lt_trans hsize (by decide))
      readOnly).runOn_sole fun _ => trivial
    rw [Setting.disk_free] at hpost
    rcases hrun : (Image.ofDisk disk readOnly).runOn sole content with ⟨result, content'⟩
    rw [hrun] at hpost
    cases result with
    | ok image => exact ⟨hpost.1, fun _ he => by cases he⟩
    | error e =>
      refine ⟨hpost.1, fun e' he' => ?_⟩
      obtain rfl := Except.error.inj he'
      exact hpost.2.resolve_left id
  · refine ⟨(BlockHeader.blockSize_of_parse hparse).1, fun count hcount => ?_⟩
    have hlt : count < 2 ^ 32 := by
      rw [BlockTable.maxBytes] at hcount
      omega
    calc count * header.sectorsPerBlock
      _ ≤ 2 ^ 32 * 2 ^ 23 :=
        Nat.mul_le_mul (Nat.le_of_lt hlt) (Nat.le_of_lt header.sectorsPerBlock_lt)
      _ < 2 ^ 64 := by decide

/-- A set with one dynamic image, which is read. -/
theorem untrusted_images_are_safe_small :
    (((Image.ofDisk true false : Access Bool (Image Bool)).runOn sole .empty).2 = .empty ∧
      ∀ e, ((Image.ofDisk true false : Access Bool (Image Bool)).runOn sole .empty).1 = .error e →
        ¬ e.IsTrap) ∧
      ∃ (raw : Bytes 1024) (header : BlockHeader) (set : ImageSet Bool) (contents : Bool → Content),
        BlockHeader.parse raw = .ok header ∧ 1 * header.sectorsPerBlock < 2 ^ 64 ∧
        set.Gathered ∧ set.size = 1 ∧
        set.Safe contents [.on 0 (.use (.read 0 1 (Bytes.zero 512).toByteArray)), .flush] := by
  obtain ⟨image, content, hrun, hnew⟩ := Image.exists_createDynamic
    CreateOptions.checkedGeometry_small creatable_small true .empty
  have hkind : image.footer.diskType = .dynamic := hnew.readAs.diskType
  have hsmall : content.size < 2 ^ 63 := Nat.lt_trans hnew.size_lt (by decide)
  obtain ⟨found, content', hopen, hfound, hcontent⟩ :=
    (Image.ofDisk_ensures (S := Setting.free image.disk False fun _ => True)
      ⟨fun _ => trivial, fun _ _ _ => trivial⟩ hnew.onDisk (by rw [hkind]; decide)
      (Nat.lt_trans hsmall (by decide)) false).runOn_sole_ok (fun _ => trivial)
      fun _ _ hfailed => hfailed.1
  have himage : found = image := by
    rw [hfound, Setting.disk_free, hnew.disk_eq]
    exact hnew.eq_opened.symm
  rw [Setting.disk_free, himage] at hopen
  have gathered : ((ImageSet.empty : ImageSet Bool).push image none).2.Gathered := by
    refine .insert .empty (.opened hsmall hopen) (ImageSet.insert_eq ?_)
    rw [hnew.eq_opened, Image.diskType_opened, hkind]
    decide
  have valid : ∀ call ∈ [SetCall.on 0 (.use (.read 0 1 (Bytes.zero 512).toByteArray)), .flush],
      call.Valid := by
    intro call hcall
    rw [List.mem_cons, List.mem_singleton] at hcall
    obtain rfl | rfl := hcall
    · exact Buffer.holds_sector _
    · trivial
  refine ⟨(untrusted_images_are_safe (ι := Bool)).1 true false .empty (by decide), _, _, _,
    fun _ => content, hnew.onDisk.header_bytes, ?_, gathered, rfl, ?_⟩
  · exact ((untrusted_images_are_safe (ι := Bool)).2.1 _ _ hnew.onDisk.header_bytes).2 1 (by decide)
  · exact (untrusted_images_are_safe (ι := Bool)).2.2 _ _ gathered valid _

end VirtualDisk
