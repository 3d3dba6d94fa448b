import VirtualDisk.Proofs.Blocks.Caching
import VirtualDisk.Proofs.Image.Reading

/-!
# Images with and without a cache

What is done with an image that has blocks is a `BlockCall`, and it can be done with any caching.
Two images that differ in what is cached only are `Beside` each other. Every call comes to the same
result on both, and leaves the same storage and two images beside each other, or the same image.
-/

namespace VirtualDisk

open Storage

variable {ι α β : Type}

namespace Image

/-- Reads what the image itself holds in its blocks, and zeros for the rest. -/
def readBlocksBy (caching : Caching ι) (offset count : Nat) (buffer : ByteArray) :
    Engine ι (Image ι) ReadResult := do
  Buffer.check buffer.size count
  let span := (← get).span offset count
  let buffer ← onBlocks fun disk =>
    BlockMap.readSectorsBy caching disk span.transfer offset 0 buffer
  return ⟨span.truncated, buffer⟩

/-- Writes to blocks, and stores the bitmap that was changed last. Returns the number of sectors cut
off. -/
def writeBlocksBy (caching : Caching ι) (offset count : Nat) (buffer : ByteArray) :
    Engine ι (Image ι) Nat := do
  Buffer.check buffer.size count
  let span := (← get).span offset count
  onBlocks fun disk => do
    BlockMap.writeSectorsBy caching disk buffer span.transfer offset 0
    BlockMap.flush disk
  return span.truncated

/-- Reads `count` sectors from `offset` on. -/
def readBy (caching : Caching ι) (offset count : Nat) (buffer : ByteArray) :
    Engine ι (Image ι) ReadResult := do
  let image ← get
  match image.layout with
  | .fixed => (image.readFlat offset count buffer : Access ι ReadResult)
  | .dynamic _ => readBlocksBy caching offset count buffer
  | .differencing _ => throw .parentUnavailable

/-- Writes `count` sectors from `offset` on. Returns the number of sectors cut off. -/
def writeBy (caching : Caching ι) (offset count : Nat) (buffer : ByteArray) :
    Engine ι (Image ι) Nat := do
  let image ← get
  if image.readOnly then ignoreWrite offset count buffer
  else match image.layout with
    | .fixed => (image.writeFlat offset count buffer : Access ι Nat)
    | _ => writeBlocksBy caching offset count buffer

/-- Gives the image up, whether or not it was flushed, and opens its storage again. -/
def reopen (readOnly : Bool) : Engine ι (Image ι) Unit := do
  set (← (ofDisk (← get).disk readOnly : Access ι (Image ι)))

theorem readBlocksBy_delayed (offset count : Nat) (buffer : ByteArray) :
    (readBlocksBy .delayed offset count buffer : Engine ι (Image ι) ReadResult) =
      readBlocks offset count buffer := by
  simp only [readBlocksBy, readBlocks, BlockMap.readSectorsBy_delayed]

theorem writeBlocksBy_delayed (offset count : Nat) (buffer : ByteArray) :
    (writeBlocksBy .delayed offset count buffer : Engine ι (Image ι) Nat) =
      writeBlocks offset count buffer := by
  simp only [writeBlocksBy, writeBlocks, BlockMap.writeSectorsBy_delayed]

theorem readBy_delayed (offset count : Nat) (buffer : ByteArray) :
    (readBy .delayed offset count buffer : Engine ι (Image ι) ReadResult) =
      read offset count buffer := by
  simp only [readBy, readBlocksBy_delayed]
  rfl

theorem writeBy_delayed (offset count : Nat) (buffer : ByteArray) :
    (writeBy .delayed offset count buffer : Engine ι (Image ι) Nat) =
      write offset count buffer := by
  simp only [writeBy, writeBlocksBy_delayed]
  rfl

end Image

/-- The operation, with any caching. -/
def Operation.engineBy (caching : Caching ι) : Operation → Engine ι (Image ι) Answer
  | read offset count buffer => return .shown (← Image.readBy caching offset count buffer)
  | write offset count buffer => return .written (← Image.writeBy caching offset count buffer)
  | flush => do
    Image.flush
    return .done

theorem Operation.engineBy_delayed (op : Operation) :
    (op.engineBy .delayed : Engine ι (Image ι) Answer) = op.engine := by
  cases op with
  | read offset count buffer => simp only [engineBy, engine, Image.readBy_delayed]
  | write offset count buffer => simp only [engineBy, engine, Image.writeBy_delayed]
  | flush => rfl

/-- One call on an image with blocks, or on its storage when it is opened again. Reads through a
chain look each sector up, and then read it from the image that holds it. -/
inductive BlockCall where
  | use (op : Operation)
  /-- The image is asked whether it holds a sector itself. -/
  | look (sector : Nat)
  /-- What the image itself holds is read. -/
  | readBlocks (offset count : Nat) (buffer : ByteArray)
  /-- The blocks are written, whether or not the image was opened for that. -/
  | writeBlocks (offset count : Nat) (buffer : ByteArray)
  | reopen (readOnly : Bool)

/-- What a call on an image with blocks returns. -/
inductive BlockReply where
  | held (held : Bool)
  | answered (answer : Answer)

namespace BlockCall

/-- The call. -/
def engine : BlockCall → Engine ι (Image ι) BlockReply
  | use op => return .answered (← op.engine)
  | look sector => return .held (← Image.onBlocks fun disk => BlockMap.holds disk sector)
  | readBlocks offset count buffer =>
    return .answered (.shown (← Image.readBlocks offset count buffer))
  | writeBlocks offset count buffer =>
    return .answered (.written (← Image.writeBlocks offset count buffer))
  | reopen readOnly => do
    Image.reopen readOnly
    return .answered .done

/-- The call, with any caching. -/
def engineBy (caching : Caching ι) : BlockCall → Engine ι (Image ι) BlockReply
  | use op => return .answered (← op.engineBy caching)
  | look sector =>
    return .held (← Image.onBlocks fun disk => BlockMap.holdsBy caching disk sector)
  | readBlocks offset count buffer =>
    return .answered (.shown (← Image.readBlocksBy caching offset count buffer))
  | writeBlocks offset count buffer =>
    return .answered (.written (← Image.writeBlocksBy caching offset count buffer))
  | reopen readOnly => do
    Image.reopen readOnly
    return .answered .done

/-- With its own caching this is the code of the library. -/
theorem engineBy_delayed (call : BlockCall) :
    (call.engineBy .delayed : Engine ι (Image ι) BlockReply) = call.engine := by
  cases call with
  | use op => simp only [engineBy, engine, Operation.engineBy_delayed]
  | look sector => simp only [engineBy, engine, BlockMap.holdsBy_delayed]
  | readBlocks offset count buffer => simp only [engineBy, engine, Image.readBlocksBy_delayed]
  | writeBlocks offset count buffer => simp only [engineBy, engine, Image.writeBlocksBy_delayed]
  | reopen readOnly => rfl

/-- The call only reads. -/
def Reads : BlockCall → Prop
  | use (.read _ _ _) => True
  | look _ => True
  | readBlocks _ _ _ => True
  | _ => False

end BlockCall

namespace Image

variable {ω : Type} {image : Image ι} {map : BlockMap}

/-- A dynamic image is read from its blocks, a differencing image is not read on its own. -/
theorem runOn_readBy (hmap : image.blocks? = some map) (caching : Caching ι) (offset count : Nat)
    (buffer : ByteArray) (server : Server ι ω) (world : ω) :
    (readBy caching offset count buffer).runOn server image world =
      if image.diskType = .dynamic then
        (readBlocksBy caching offset count buffer).runOn server image world
      else ((.error .parentUnavailable, image), world) := by
  rw [readBy, Engine.runOn_bind_ok (Engine.runOn_get ..)]
  obtain ⟨disk, footer, layout, readOnly⟩ := image
  cases layout with
  | fixed => cases hmap
  | dynamic map => rfl
  | differencing map => rfl

theorem runOn_writeBy (hmap : image.blocks? = some map) (caching : Caching ι) (offset count : Nat)
    (buffer : ByteArray) (server : Server ι ω) (world : ω) :
    (writeBy caching offset count buffer).runOn server image world =
      if image.readOnly then ((.ok 0, image), world)
      else (writeBlocksBy caching offset count buffer).runOn server image world := by
  rw [writeBy, Engine.runOn_bind_ok (Engine.runOn_get ..)]
  obtain ⟨disk, footer, layout, readOnly⟩ := image
  cases readOnly with
  | true => rfl
  | false => cases layout with
    | fixed => cases hmap
    | dynamic map => rfl
    | differencing map => rfl

variable {caching : Caching ι} {content : Content}

theorem runOn_readBlocksBy (hmap : image.blocks? = some map) (faithful : caching.Faithful)
    (exact : map.Exact content) (offset count : Nat) (buffer : ByteArray) :
    (readBlocksBy caching offset count buffer).runOn sole image content =
      (readBlocks offset count buffer).runOn sole image content := by
  rw [readBlocksBy, readBlocks, Engine.runOn_bind, Engine.runOn_bind, Engine.runOn_liftExcept]
  cases Buffer.check buffer.size count with
  | error e => rfl
  | ok _ =>
    dsimp only
    rw [Engine.runOn_bind_ok (Engine.runOn_get ..), Engine.runOn_bind_ok (Engine.runOn_get ..)]
    apply Engine.runOn_bind_congr
    rw [runOn_onBlocks hmap, runOn_onBlocks hmap, BlockMap.runOn_readSectorsBy faithful exact]

theorem runOn_flush (hmap : image.blocks? = some map) (clean : map.bitmap.dirty = false)
    (content : Content) :
    (flush : Engine ι (Image ι) Unit).runOn sole image content = ((.ok (), image), content) := by
  have hblocks : (onBlocks BlockMap.flush).runOn sole image content =
      ((.ok (), image), content) := by
    rw [runOn_onBlocks hmap, BlockMap.runOn_flush_of_clean clean, withBlocks_self hmap]
  rw [flush, Engine.runOn_bind_ok (Engine.runOn_get ..), hmap, Option.isSome_some, if_pos rfl,
    Engine.runOn_bind_ok hblocks]
  rfl

end Image

/-- Every faithful caching reads as the library does. -/
theorem BlockCall.runOn_engineBy {ι : Type} {caching : Caching ι} {image : Image ι} {map : BlockMap}
    {content : Content} {call : BlockCall} (reads : call.Reads) (hmap : image.blocks? = some map)
    (faithful : caching.Faithful) (exact : map.Exact content) :
    (call.engineBy caching).runOn sole image content = call.engine.runOn sole image content := by
  cases call with
  | use op => cases op with
    | read offset count buffer =>
      apply Engine.runOn_bind_congr
      apply Engine.runOn_bind_congr
      rw [← Image.readBy_delayed, Image.runOn_readBy hmap, Image.runOn_readBy hmap,
        Image.readBlocksBy_delayed, Image.runOn_readBlocksBy hmap faithful exact]
    | write => exact reads.elim
    | flush => exact reads.elim
  | look sector =>
    apply Engine.runOn_bind_congr
    rw [Image.runOn_onBlocks hmap, Image.runOn_onBlocks hmap,
      BlockMap.runOn_holdsBy faithful exact]
  | readBlocks offset count buffer =>
    apply Engine.runOn_bind_congr
    exact Image.runOn_readBlocksBy hmap faithful exact offset count buffer
  | writeBlocks => exact reads.elim
  | reopen => exact reads.elim

namespace Image

/-- The images differ at most in the bitmap that is cached, and both have none cached but the one
that is stored. -/
def Beside (image image' : Image ι) (content : Content) : Prop :=
  ∃ map map', image.blocks? = some map ∧ image' = image.withBlocks map' ∧ map.Twin map' content

/-- The table as the image has it in memory. -/
def table? (image : Image ι) : Option BlockTable := image.blocks?.map (·.table)

/-- Two runs come to the same result, and leave the same storage and images beside each other, or
even the same image. -/
structure SameCourse (run run' : (Except Error α × Image ι) × Content) : Prop where
  result_eq : run'.1.1 = run.1.1
  content_eq : run'.2 = run.2
  images : run'.1.2 = run.1.2 ∨ run.1.2.Beside run'.1.2 run.2

variable {image image' : Image ι} {map map' : BlockMap} {content : Content} {caching : Caching ι}

theorem SameCourse.of_beside (h : image.Beside image' content) (result : Except Error α) :
    SameCourse ((result, image), content) ((result, image'), content) :=
  ⟨rfl, rfl, .inr h⟩

theorem SameCourse.bind_pure {engine engine' : Engine ι (Image ι) α} {content' : Content}
    (h : SameCourse (engine.runOn sole image content) (engine'.runOn sole image' content'))
    (f : α → β) :
    SameCourse ((engine >>= fun a => pure (f a)).runOn sole image content)
      ((engine' >>= fun a => pure (f a)).runOn sole image' content') := by
  rw [Engine.runOn_bind, Engine.runOn_bind]
  rcases hrun : engine.runOn sole image content with ⟨⟨result, image₁⟩, content₁⟩
  rcases hrun' : engine'.runOn sole image' content' with ⟨⟨result', image₁'⟩, content₁'⟩
  rw [hrun, hrun'] at h
  obtain ⟨hresult, hcontent, himages⟩ := h
  dsimp only at hresult hcontent himages
  subst hresult hcontent
  cases result' with
  | ok a => exact ⟨rfl, rfl, himages⟩
  | error e => exact ⟨rfl, rfl, himages⟩

theorem course_onBlocks (hmap : image.blocks? = some map) {engine : ι → Engine ι BlockMap α}
    (h : BlockMap.Level ((engine image.disk).runOn sole map content)
      ((engine image.disk).runOn sole map' content)) :
    SameCourse ((onBlocks engine).runOn sole image content)
      ((onBlocks engine).runOn sole (image.withBlocks map') content) := by
  rw [runOn_onBlocks hmap, runOn_onBlocks (blocks?_withBlocks hmap), disk_withBlocks]
  obtain heq | hend := h
  · rw [heq, withBlocks_withBlocks]
    exact ⟨rfl, rfl, .inl rfl⟩
  · refine ⟨hend.result_eq, hend.content_eq, .inr ⟨_, _, blocks?_withBlocks hmap, ?_, hend.twin⟩⟩
    rw [withBlocks_withBlocks, withBlocks_withBlocks]

namespace Beside

theorem refl (hmap : image.blocks? = some map) (exact : map.Exact content) :
    image.Beside image content :=
  ⟨map, map, hmap, (withBlocks_self hmap).symm, exact.twin⟩

theorem trans {image'' : Image ι} (h : image.Beside image' content)
    (h' : image'.Beside image'' content) : image.Beside image'' content := by
  obtain ⟨map, map', hmap, rfl, twin⟩ := h
  obtain ⟨found, map'', hfound, rfl, twin'⟩ := h'
  obtain rfl : map' = found := Option.some.inj ((blocks?_withBlocks hmap).symm.trans hfound)
  exact ⟨map, map'', hmap, withBlocks_withBlocks, twin.trans twin'⟩

theorem table?_eq (h : image.Beside image' content) : image'.table? = image.table? := by
  obtain ⟨map, map', hmap, rfl, twin⟩ := h
  rw [table?, table?, blocks?_withBlocks hmap, hmap]
  exact congrArg some twin.table_eq

variable (h : image.Beside image' content) (faithful : caching.Faithful)
include h

theorem course_flush : SameCourse ((flush : Engine ι (Image ι) Unit).runOn sole image content)
    (flush.runOn sole image' content) := by
  have hbeside := h
  obtain ⟨map, map', hmap, rfl, twin⟩ := h
  rw [runOn_flush hmap twin.exact.clean, runOn_flush (blocks?_withBlocks hmap) twin.exact'.clean]
  exact .of_beside hbeside _

theorem course_reopen (small : content.size < 2 ^ 64) (readOnly : Bool) :
    SameCourse ((reopen readOnly : Engine ι (Image ι) Unit).runOn sole image content)
      ((reopen readOnly).runOn sole image' content) := by
  have hbeside := h
  obtain ⟨map, map', hmap, rfl, twin⟩ := h
  have hpost := (ofDisk_accepts (Setting.readable_free image.disk False fun _ => True) small
    readOnly).runOn_sole fun _ => trivial
  rw [Setting.disk_free] at hpost
  rw [reopen, Engine.runOn_bind_ok (Engine.runOn_get ..),
    Engine.runOn_bind_ok (Engine.runOn_get ..), disk_withBlocks, Engine.runOn_bind,
    Engine.runOn_bind, Engine.runOn_liftAccess, Engine.runOn_liftAccess]
  rcases hrun : (ofDisk image.disk readOnly).runOn sole content with ⟨result, content'⟩
  rw [hrun] at hpost
  cases result with
  | ok opened => exact ⟨rfl, rfl, .inl rfl⟩
  | error e =>
    obtain ⟨rfl, -⟩ := hpost
    exact .of_beside hbeside _

include faithful

theorem course_holdsBy (sector : Nat) :
    SameCourse
      ((onBlocks fun disk => BlockMap.holdsBy caching disk sector).runOn sole image content)
      ((onBlocks fun disk => BlockMap.holdsBy caching disk sector).runOn sole image' content) := by
  obtain ⟨map, map', hmap, rfl, twin⟩ := h
  exact course_onBlocks hmap ((twin.merge_holdsBy faithful image.disk sector).level twin)

theorem course_readBlocksBy (offset count : Nat) (buffer : ByteArray) :
    SameCourse ((readBlocksBy caching offset count buffer).runOn sole image content)
      ((readBlocksBy caching offset count buffer).runOn sole image' content) := by
  have hbeside := h
  obtain ⟨map, map', hmap, rfl, twin⟩ := h
  rw [readBlocksBy, Engine.runOn_bind, Engine.runOn_bind, Engine.runOn_liftExcept,
    Engine.runOn_liftExcept]
  cases Buffer.check buffer.size count with
  | error e => exact .of_beside hbeside _
  | ok _ =>
    dsimp only
    rw [Engine.runOn_bind_ok (Engine.runOn_get ..), Engine.runOn_bind_ok (Engine.runOn_get ..)]
    apply SameCourse.bind_pure
    apply course_onBlocks hmap
    exact .inr (twin.readSectorsBy faithful image.disk _ _ _ _)

theorem course_writeBlocksBy (offset count : Nat) (buffer : ByteArray) :
    SameCourse ((writeBlocksBy caching offset count buffer).runOn sole image content)
      ((writeBlocksBy caching offset count buffer).runOn sole image' content) := by
  have hbeside := h
  obtain ⟨map, map', hmap, rfl, twin⟩ := h
  rw [writeBlocksBy, Engine.runOn_bind, Engine.runOn_bind, Engine.runOn_liftExcept,
    Engine.runOn_liftExcept]
  cases Buffer.check buffer.size count with
  | error e => exact .of_beside hbeside _
  | ok _ =>
    dsimp only
    rw [Engine.runOn_bind_ok (Engine.runOn_get ..), Engine.runOn_bind_ok (Engine.runOn_get ..)]
    apply SameCourse.bind_pure
    apply course_onBlocks hmap
    have hwrite := twin.merge_writeSectorsBy faithful image.disk buffer
      (image.span offset count).transfer offset 0
    exact (hwrite.bind fun _ => twin.merge_flush image.disk).level twin

theorem course_operation (op : Operation) :
    SameCourse ((op.engineBy caching).runOn sole image content)
      ((op.engineBy caching).runOn sole image' content) := by
  have hbeside := h
  obtain ⟨map, map', hmap, rfl, twin⟩ := h
  have hmap' : (image.withBlocks map').blocks? = some map' := blocks?_withBlocks hmap
  cases op with
  | read offset count buffer =>
    apply SameCourse.bind_pure
    rw [runOn_readBy hmap, runOn_readBy hmap', diskType_withBlocks]
    split
    · exact hbeside.course_readBlocksBy faithful offset count buffer
    · exact .of_beside hbeside _
  | write offset count buffer =>
    apply SameCourse.bind_pure
    rw [runOn_writeBy hmap, runOn_writeBy hmap', readOnly_withBlocks]
    split
    · exact .of_beside hbeside _
    · exact hbeside.course_writeBlocksBy faithful offset count buffer
  | flush => exact hbeside.course_flush.bind_pure fun _ => Answer.done

/-- Every call takes the same course on images beside each other. -/
theorem course_call (small : content.size < 2 ^ 64) (call : BlockCall) :
    SameCourse ((call.engineBy caching).runOn sole image content)
      ((call.engineBy caching).runOn sole image' content) := by
  cases call with
  | use op =>
    apply SameCourse.bind_pure
    exact h.course_operation faithful op
  | look sector =>
    apply SameCourse.bind_pure
    exact h.course_holdsBy faithful sector
  | readBlocks offset count buffer =>
    apply SameCourse.bind_pure
    exact h.course_readBlocksBy faithful offset count buffer
  | writeBlocks offset count buffer =>
    apply SameCourse.bind_pure
    exact h.course_writeBlocksBy faithful offset count buffer
  | reopen readOnly =>
    exact (h.course_reopen small readOnly).bind_pure fun _ => BlockReply.answered .done

end Beside

end Image

end VirtualDisk
