import VirtualDisk.Proofs.Image.Appending
import VirtualDisk.Proofs.Image.Filling
import VirtualDisk.Proofs.ImageSet.Acts

/-!
# Sessions

Images are created, opened, used, put into a set and closed, in any order and on any disks. A
`Session` is what is open in between. Its trace says of every step what it reports, what it asks of
the disks and is answered, and what is in memory and on the disks afterwards.

No step issues an empty write. So a trace on memory is the trace on files that may be written, as
long as no storage outgrows a file.
-/

namespace VirtualDisk

open Storage

variable {ι ω α : Type}

/-- The images that are open: some in numbered slots, the others in a set. -/
structure Session (ι : Type) where
  slots : Nat → Option (Image ι)
  images : ImageSet ι

namespace Session

/-- Nothing is open. -/
def empty : Session ι := ⟨fun _ => none, .empty⟩

/-- The session with something else in a slot, or nothing. -/
def put (session : Session ι) (slot : Nat) (image? : Option (Image ι)) : Session ι :=
  { session with slots := Function.update session.slots slot image? }

/-- Takes what is in a slot out of it. -/
def take (slot : Nat) : Engine ι (Session ι) (Option (Image ι)) := do
  let session ← get
  set (session.put slot none)
  return session.slots slot

/-- Runs an engine on the set. -/
def onImages (engine : Engine ι (ImageSet ι) α) : Engine ι (Session ι) α := do
  let session ← get
  Engine.on session.images (fun images => { session with images }) engine

/-- What kind of image to create. The parent of a differencing image is in a slot or in the set. -/
inductive Kind where
  | fixed
  | dynamic
  | onSlot (parent : Nat)
  | onMember (parent : Nat)

/-- How an image of this kind is created, unless there is nothing in the slot. -/
def creation? (session : Session ι) : Kind → Except Error (Option (Creation ι))
  | .fixed => .ok (some .fixed)
  | .dynamic => .ok (some .dynamic)
  | .onSlot parent => .ok ((session.slots parent).map .differencing)
  | .onMember parent => return some (.differencing (← session.images.image parent))

/-- One step. An image that is put into the set is no longer in its slot, also if the set refuses
it. -/
inductive Step (ι : Type) where
  | create (slot : Nat) (disk : ι) (options : CreateOptions) (kind : Kind)
  | load (slot : Nat) (disk : ι) (readOnly : Bool)
  | use (slot : Nat) (call : ImageCall)
  | insert (slot : Nat) (parent? : Option Nat)
  | replace (id slot : Nat)
  | useSet (call : SetCall)
  | close (slot : Nat)

/-- What a step reports. -/
inductive Report where
  /-- There is nothing in the slot. -/
  | vacant
  | done
  | answered (answer : Answer)
  | numbered (id : Nat)

/-- Puts an image into a slot. -/
def occupy (slot : Nat) (access : Access ι (Image ι)) : Engine ι (Session ι) Report := do
  let image ← access
  set ((← get).put slot (some image))
  return .done

/-- The calls of a step. -/
def Step.engine : Step ι → Engine ι (Session ι) Report
  | create slot disk options kind => do
    let session ← get
    match ← session.creation? kind with
    | none => return .vacant
    | some creation => occupy slot (creation.create disk options)
  | load slot disk readOnly => occupy slot (Image.ofDisk disk readOnly)
  | use slot call => do
    let session ← get
    match session.slots slot with
    | none => return .vacant
    | some image =>
      return .answered (← Engine.on image (fun image => session.put slot (some image)) call.engine)
  | insert slot parent? => do
    match ← take slot with
    | none => return .vacant
    | some image => return .numbered (← onImages (ImageSet.add image parent?))
  | replace id slot => do
    match ← take slot with
    | none => return .vacant
    | some image =>
      onImages (ImageSet.exchange id image)
      return .done
  | useSet call => return .answered (← onImages call.engine)
  | close slot => do
    let _ ← take slot
    return .done

/-- What is known of a step when it is over. -/
structure Record (ι ω : Type) where
  report : Except Error Report
  session : Session ι
  exchanges : List (Exchange ι)
  world : ω

/-- The records of some steps, each of which begins with what the one before leaves. -/
def trace (server : Server ι ω) : List (Step ι) → Session ι → ω → List (Record ι ω)
  | [], _, _ => []
  | step :: steps, session, world =>
    let ((report, session'), world') := step.engine.runOn server session world
    ⟨report, session', step.engine.exchanges server session world, world'⟩ ::
      trace server steps session' world'

variable {session : Session ι} {slot other : Nat} {image? : Option (Image ι)}

theorem trace_cons (server : Server ι ω) (step : Step ι) (steps : List (Step ι))
    (session : Session ι) (world : ω) :
    trace server (step :: steps) session world =
      ⟨(step.engine.runOn server session world).1.1, (step.engine.runOn server session world).1.2,
        step.engine.exchanges server session world, (step.engine.runOn server session world).2⟩ ::
      trace server steps (step.engine.runOn server session world).1.2
        (step.engine.runOn server session world).2 := rfl

theorem slots_put_self : (session.put slot image?).slots slot = image? :=
  Function.update_self ..

theorem slots_put_of_ne (hne : other ≠ slot) :
    (session.put slot image?).slots other = session.slots other :=
  Function.update_of_ne hne ..

end Session

namespace ImageSet

/-- All members have bitmaps. -/
def Filled (set : ImageSet ι) : Prop :=
  ∀ id member, set.member id = .ok member → member.image.Heeds BlockMap.HasBitmap

/-- The engine issues no empty write and leaves bitmaps to all members. -/
def Fills (engine : Engine ι (ImageSet ι) α) (set : ImageSet ι) : Prop :=
  engine.Keeps (.filling ι) (fun _ => True) (fun _ set' => set'.Filled) set

variable {set : ImageSet ι} {image : Image ι}

theorem add_fills (h : set.Filled) (himage : image.Heeds BlockMap.HasBitmap)
    (parent? : Option Nat) : Fills (add image parent?) set := by
  refine Engine.obeys_get_bind.mpr (Engine.obeys_liftExcept_bind.mpr ?_)
  cases hadded : set.added image parent? with
  | error e => exact ⟨trivial, h⟩
  | ok result =>
    obtain ⟨id, set'⟩ := result
    obtain ⟨-, -, rfl⟩ := of_added hadded
    intro id member hmember
    obtain ⟨-, rfl⟩ | ⟨-, hbefore⟩ := of_member_push hmember
    · exact himage
    · exact h id member hbefore

theorem exchange_fills (h : set.Filled) (himage : image.Heeds BlockMap.HasBitmap) (id : Nat) :
    Fills (exchange id image) set := by
  refine Engine.obeys_get_bind.mpr (Engine.obeys_liftExcept_bind.mpr ?_)
  cases hmember : set.member id with
  | error e =>
    rw [replace, hmember]
    exact ⟨trivial, h⟩
  | ok member =>
    rw [replace, hmember]
    intro other member' hother
    by_cases hid : other = id
    · subst hid
      obtain rfl := Except.ok.inj ((member_put_self hmember).symm.trans hother)
      exact himage
    · exact h other member' ((member_put_of_ne hid).symm.trans hother)

theorem calls_filling : Calls (.filling ι) (fun _ => True)
    fun _ member => member.image.Heeds BlockMap.HasBitmap where
  plain _ _ := trivial
  rooted _ _ _ _ _ := trivial
  holds _ _ sector h :=
    Image.keeps_hasBitmap h (Image.holds_disciplined (BlockMap.discipline_filling _) h sector)
  readFlat _ _ _ _ _ _ := Image.readFlat_minds (Protocol.filling_allows _) _ _ _
  readBlocks _ _ _ _ _ h :=
    Image.keeps_hasBitmap h (Image.readBlocks_disciplined (BlockMap.discipline_filling _) h _ _ _)
  flush _ _ h :=
    Image.keeps_hasBitmap h (Image.flush_disciplined (BlockMap.discipline_filling _) h)

end ImageSet

theorem SetCall.fills {set : ImageSet ι} (h : set.Filled) (call : SetCall) :
    ImageSet.Fills call.engine set :=
  (SetCall.obeys ImageSet.calls_filling ⟨rfl, h⟩ (fun _ => trivial) call
    fun _ call' _ _ h' => call'.obeys_filling h').mono
      (fun _ _ h' => h'.each) fun _ _ he => ⟨trivial, he.2.each⟩

namespace Session

variable {session : Session ι} {slot : Nat} {image? : Option (Image ι)}

/-- All images have bitmaps. -/
structure Filled (session : Session ι) : Prop where
  slots : ∀ slot image, session.slots slot = some image → image.Heeds BlockMap.HasBitmap
  images : session.images.Filled

theorem filled_empty : (empty : Session ι).Filled where
  slots _ _ hnone := nomatch hnone
  images id _ hmember := absurd (ImageSet.lt_size hmember) (Nat.not_lt_zero id)

theorem Filled.put (h : session.Filled)
    (himage : ∀ image, image? = some image → image.Heeds BlockMap.HasBitmap) :
    (session.put slot image?).Filled where
  slots other image hother := by
    by_cases hslot : other = slot
    · subst hslot
      exact himage image (slots_put_self.symm.trans hother)
    · exact h.slots other image ((slots_put_of_ne hslot).symm.trans hother)
  images := h.images

theorem Filled.put_some {image : Image ι} (h : session.Filled)
    (himage : image.Heeds BlockMap.HasBitmap) : (session.put slot (some image)).Filled :=
  h.put fun _ hsome => Option.some.inj hsome ▸ himage

/-- The engine issues no empty write and leaves bitmaps to all images. -/
def Fills (engine : Engine ι (Session ι) α) (session : Session ι) : Prop :=
  engine.Keeps (.filling ι) (fun _ => True) (fun _ session' => session'.Filled) session

theorem take_obeys (h : session.Filled) (slot : Nat) :
    (take slot).Obeys (.filling ι)
      (fun image? session' => session'.Filled ∧
        ∀ image, image? = some image → image.Heeds BlockMap.HasBitmap)
      (fun _ session' => True ∧ session'.Filled) session :=
  ⟨h.put nofun, h.slots slot⟩

theorem onImages_fills {engine : Engine ι (ImageSet ι) α} (h : session.Filled)
    (hengine : ImageSet.Fills engine session.images) : Fills (onImages engine) session := by
  refine Engine.obeys_get_bind.mpr (Engine.obeys_on.mpr (hengine.mono ?_ ?_))
  · exact fun _ _ himages => ⟨h.slots, himages⟩
  · exact fun _ _ he => ⟨trivial, h.slots, he.2⟩

theorem occupy_fills {access : Access ι (Image ι)} (h : session.Filled) (slot : Nat)
    (haccess : access.Obeys (.filling ι) (Image.Heeds BlockMap.HasBitmap) fun _ => True) :
    Fills (occupy slot access) session := by
  refine Engine.obeys_bind.mpr (Engine.obeys_liftAccess.mpr (haccess.mono ?_ ?_))
  · exact fun image himage => h.put_some himage
  · exact fun _ _ => ⟨trivial, h⟩

theorem Step.fills (h : session.Filled) (step : Step ι) : Fills step.engine session := by
  cases step with
  | create slot disk options kind =>
    refine Engine.obeys_get_bind.mpr (Engine.obeys_liftExcept_bind.mpr ?_)
    cases session.creation? kind with
    | error e => exact ⟨trivial, h⟩
    | ok creation? =>
      cases creation? with
      | none => exact h
      | some creation =>
        exact occupy_fills h slot
          (creation.create_obeys (Protocol.filling_allows disk) fun _ _ _ => trivial)
  | load slot disk readOnly =>
    exact occupy_fills h slot (Image.ofDisk_obeys (Protocol.filling_allows disk) readOnly)
  | use slot call =>
    refine Engine.obeys_get_bind.mpr ?_
    cases hslot : session.slots slot with
    | none => exact h
    | some image =>
      refine Engine.Obeys.bind (Engine.obeys_on.mpr ?_) fun _ _ h' => h'
      exact (call.obeys_filling (h.slots slot image hslot)).mono
        (fun _ _ himage => h.put_some himage) fun _ _ he => ⟨trivial, h.put_some he.2⟩
  | insert slot parent? =>
    refine Engine.Obeys.bind (take_obeys h slot) ?_
    rintro (_ | image) session' ⟨h', himage⟩
    · exact h'
    · exact Engine.Obeys.bind
        (onImages_fills h' (ImageSet.add_fills h'.images (himage image rfl) parent?))
        fun _ _ h'' => h''
  | replace id slot =>
    refine Engine.Obeys.bind (take_obeys h slot) ?_
    rintro (_ | image) session' ⟨h', himage⟩
    · exact h'
    · exact Engine.Obeys.bind
        (onImages_fills h' (ImageSet.exchange_fills h'.images (himage image rfl) _))
        fun _ _ h'' => h''
  | useSet call =>
    exact Engine.Obeys.bind (onImages_fills h (call.fills h.images)) fun _ _ h' => h'
  | close slot => exact Engine.Obeys.bind (take_obeys h slot) fun _ _ h' => h'.1

end Session

namespace ImageSet

theorem grows_add (image : Image ι) (parent? : Option Nat) : (add image parent?).Grows :=
  Engine.grows_bind Engine.grows_get fun _ =>
    Engine.grows_bind (Engine.grows_liftExcept _) fun _ =>
      Engine.grows_bind (Engine.grows_set _) fun _ => Engine.grows_pure _

theorem grows_exchange (id : Nat) (image : Image ι) : (exchange id image).Grows :=
  Engine.grows_bind Engine.grows_get fun _ =>
    Engine.grows_bind (Engine.grows_liftExcept _) fun _ => Engine.grows_set _

end ImageSet

namespace Session

theorem grows_take (slot : Nat) : (take slot : Engine ι (Session ι) _).Grows :=
  Engine.grows_bind Engine.grows_get fun _ =>
    Engine.grows_bind (Engine.grows_set _) fun _ => Engine.grows_pure _

theorem grows_onImages {engine : Engine ι (ImageSet ι) α} (h : engine.Grows) :
    (onImages engine).Grows :=
  Engine.grows_bind Engine.grows_get fun _ => Engine.grows_on h

variable [DecidableEq ι]

theorem bounded_occupy {access : Access ι (Image ι)} (slot : Nat) (h : access.Bounded) :
    (occupy slot access).Bounded :=
  Engine.bounded_liftAccess_bind h fun _ => Engine.grows_bind Engine.grows_get fun _ =>
    Engine.grows_bind (Engine.grows_set _) fun _ => Engine.grows_pure _

/-- Storages that are short before and after a step are short all along. -/
theorem Step.bounded (step : Step ι) : step.engine.Bounded := by
  cases step with
  | create slot disk options kind =>
    refine Engine.bounded_get_bind fun session => Engine.bounded_result_bind fun creation? => ?_
    cases creation? with
    | none => exact (Engine.grows_pure _).bounded
    | some creation => exact bounded_occupy slot (creation.bounded_create disk options)
  | load slot disk readOnly => exact bounded_occupy slot (Image.grows_ofDisk disk readOnly).bounded
  | use slot call =>
    refine Engine.bounded_get_bind fun session => Engine.Grows.bounded ?_
    cases session.slots slot with
    | none => exact Engine.grows_pure _
    | some image =>
      exact Engine.grows_bind (Engine.grows_on call.grows_engine) fun _ => Engine.grows_pure _
  | insert slot parent? =>
    refine (Engine.grows_bind (grows_take slot) fun image? => ?_).bounded
    cases image? with
    | none => exact Engine.grows_pure _
    | some image =>
      exact Engine.grows_bind (grows_onImages (ImageSet.grows_add image parent?)) fun _ =>
        Engine.grows_pure _
  | replace id slot =>
    refine (Engine.grows_bind (grows_take slot) fun image? => ?_).bounded
    cases image? with
    | none => exact Engine.grows_pure _
    | some image =>
      exact Engine.grows_bind (grows_onImages (ImageSet.grows_exchange id image)) fun _ =>
        Engine.grows_pure _
  | useSet call =>
    exact (Engine.grows_bind (grows_onImages call.grows_engine) fun _ =>
      Engine.grows_pure _).bounded
  | close slot =>
    exact (Engine.grows_bind (grows_take slot) fun _ => Engine.grows_pure _).bounded

variable {media : ι → Medium} {contents : ι → Content} {steps : List (Step ι)}

omit [DecidableEq ι] in
/-- Whatever the disks answer, nothing that is asked of them is an empty write. The induction is on
the steps; each leaves bitmaps to all images. -/
theorem filled_trace {server : Server ι ω} {world : ω} (h : session.Filled) :
    ∀ record ∈ trace server steps session world, ∀ exchange ∈ record.exchanges,
      ¬ exchange.request.IsEmptyWrite := by
  induction steps generalizing session world with
  | nil => exact fun _ hrecord => nomatch hrecord
  | cons step steps ih =>
    have governs := Protocol.filling_governs server
    intro record hrecord
    obtain rfl | hrecord := List.mem_cons.mp hrecord
    · exact Program.Obeys.exchanges (step.fills h) governs trivial
    · exact ih ((step.fills h).runOn_state governs world trivial).1 record hrecord

/-- The trace of filled sessions is the same on all media that can be written. The induction is on
the steps; each leaves the same session and the same contents on both. -/
theorem trace_shelfOf (writable : ∀ disk, (media disk).Writable) (h : session.Filled)
    (before : Short contents)
    (after : ∀ record ∈ trace shelf steps session contents, Short record.world) :
    trace (shelfOf media) steps session contents = trace shelf steps session contents := by
  induction steps generalizing session contents with
  | nil => rfl
  | cons step steps ih =>
    obtain ⟨hstep, hrest⟩ := List.forall_mem_cons.mp after
    obtain ⟨hrun, hexchanges⟩ := Program.run_shelfOf writable (step.fills h)
      (step.bounded session contents before hstep)
    have hfilled := ((step.fills h).runOn_state (Protocol.filling_governs shelf) contents trivial).1
    have hrun' : step.engine.runOn (shelfOf media) session contents =
        step.engine.runOn shelf session contents := hrun
    have hexchanges' : step.engine.exchanges (shelfOf media) session contents =
        step.engine.exchanges shelf session contents := hexchanges
    rw [trace_cons, trace_cons, hrun', hexchanges']
    exact congrArg (List.cons _) (ih hfilled hstep hrest)

/-- Memory and files that may be read and written are interchangeable: as long as no storage reaches
2^63 bytes, every step reports the same, asks the same, is answered the same, and leaves the same
images and the same contents. For no step issues an empty write. -/
theorem same_on_writable_media (writable : ∀ disk, (media disk).Writable)
    (before : Short contents)
    (after : ∀ record ∈ trace shelf steps .empty contents, Short record.world) :
    trace (shelfOf media) steps .empty contents = trace shelf steps .empty contents ∧
      ∀ (ω : Type) (server : Server ι ω) (world : ω) (steps : List (Step ι)),
        ∀ record ∈ trace server steps .empty world, ∀ exchange ∈ record.exchanges,
          ¬ exchange.request.IsEmptyWrite :=
  ⟨trace_shelfOf writable filled_empty before after, fun _ _ _ _ => filled_trace filled_empty⟩

omit [DecidableEq ι] in
theorem runOn_create {server : Server ι ω} {world world' : ω} {image : Image ι}
    {creation : Creation ι} {kind : Kind} {disk : ι} {options : CreateOptions}
    (hkind : session.creation? kind = .ok (some creation))
    (created : (creation.create disk options).runOn server world = (.ok image, world')) :
    (Step.create slot disk options kind).engine.runOn server session world =
      ((.ok .done, session.put slot (some image)), world') := by
  have hlift : (liftM (creation.create disk options) : Engine ι (Session ι) (Image ι)).runOn server
      session world = ((.ok image, session), world') := by
    rw [Engine.runOn_liftAccess, created]
  rw [Step.engine, Engine.runOn_bind_ok (Engine.runOn_get ..), hkind]
  exact Engine.runOn_bind_ok hlift _

omit [DecidableEq ι] in
/-- What a call on an image in a slot does to the disks, it does on the image alone. -/
theorem runOn_use {server : Server ι ω} {world : ω} {image : Image ι} {call : ImageCall}
    (hslot : session.slots slot = some image) :
    ((Step.use slot call).engine.runOn server session world).2 =
      (call.engine.runOn server image world).2 := by
  rw [Step.engine, Engine.runOn_bind_ok (Engine.runOn_get ..), hslot]
  change ((Engine.on image _ call.engine >>= fun answer =>
    pure (Report.answered answer)).runOn server session world).2 = _
  rw [Engine.runOn_bind_pure, Engine.runOn_on]

/-- A small disk is created and its first sector is written, in memory as in a file. -/
theorem same_on_writable_media_small :
    let steps := [Step.create 0 () .small .dynamic,
      .use 0 (.writeBlocks 0 1 (Bytes.replicate 512 0x5a).toByteArray)]
    (∀ disk : Unit, Medium.Writable ((fun _ => .file .readWrite) disk)) ∧
      Short (fun _ : Unit => .empty) ∧
      (∀ record ∈ trace shelf steps .empty fun _ => .empty, Short record.world) ∧
      trace (shelfOf fun _ => .file .readWrite) steps .empty (fun _ => .empty) =
        trace shelf steps .empty fun _ => .empty := by
  obtain ⟨image, content₀, content, map, truncated, created, small₀, written, half⟩ :=
    Image.exists_halfWritten
  intro steps
  have writable : ∀ disk : Unit, Medium.Writable ((fun _ => .file .readWrite) disk) :=
    fun _ => .inr rfl
  have before : Short (fun _ : Unit => .empty) := fun _ => Nat.two_pow_pos 63
  have hcreate : (Step.create 0 () .small .dynamic).engine.runOn shelf .empty (fun _ => .empty) =
      ((.ok .done, empty.put 0 (some image)), fun _ => content₀) := by
    refine runOn_create (show _ = Except.ok (some .dynamic) from rfl) ?_
    rw [Creation.create, Access.runOn_shelf_unit, created]
  have hwrite : ((Step.use 0 (.writeBlocks 0 1 (Bytes.replicate 512 0x5a).toByteArray)).engine.runOn
      shelf (empty.put 0 (some image)) fun _ => content₀).2 = fun _ => content := by
    rw [runOn_use slots_put_self, ImageCall.engine, Engine.runOn_bind_pure,
      Engine.runOn_shelf_unit, written]
  have after : ∀ record ∈ trace shelf steps .empty fun _ => .empty, Short record.world := by
    rw [trace_cons, trace_cons, hcreate, hwrite]
    have hlimit : sizeLimit < 2 ^ 63 := by decide
    have hroom := half.room
    refine List.forall_mem_cons.mpr ⟨fun _ => ?_, List.forall_mem_singleton.mpr fun _ => ?_⟩
    · exact Nat.lt_trans small₀ hlimit
    · change content.size < 2 ^ 63
      omega
  exact ⟨writable, before, after, (same_on_writable_media writable before after).1⟩

end Session

end VirtualDisk
