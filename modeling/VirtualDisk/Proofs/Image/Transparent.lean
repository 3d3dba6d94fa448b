import Mathlib.Data.List.Forall2
import VirtualDisk.Proofs.Image.FlatArray
import VirtualDisk.Proofs.Image.ExactWithRoom

/-!
# The cache is transparent

An image that was reached without a failure is used with the cache of the library, and once more
without a cache: every selection loads the bitmap from the storage, and every bit that is set is
stored at once. Call by call both come to the same result and leave the same bytes. What was read in
between makes no difference to either.
-/

namespace VirtualDisk

open Storage

variable {ι α β : Type}

namespace Image

variable {image image' : Image ι} {map : BlockMap} {content content' : Content}

/-- Where the first engine succeeds it leaves an image that is exact and has room. The second one
comes to the same result and the same image, and leaves the same bytes. -/
def Matched (engine engine' : Engine ι (Image ι) α) (image : Image ι) (content : Content) : Prop :=
  ∀ a image₁ content₁, engine.runOn sole image content = ((.ok a, image₁), content₁) →
    (∃ map, ExactWithRoom image₁ map content₁) ∧
      ∃ content₂, engine'.runOn sole image content = ((.ok a, image₁), content₂) ∧
        content₁.SameBytes content₂

namespace Matched

variable {engine engine' : Engine ι (Image ι) α}

theorem bind_pure (h : Matched engine engine' image content) (f : α → β) :
    Matched (engine >>= fun a => pure (f a)) (engine' >>= fun a => pure (f a)) image content := by
  intro b image₁ content₁ run
  obtain ⟨a, _, _, run, hrest⟩ := Engine.of_runOn_bind run
  cases hrest
  obtain ⟨exactWithRoom, content₂, run', same⟩ := h a image₁ content₁ run
  exact ⟨exactWithRoom, content₂, Engine.runOn_bind_ok run' _, same⟩

theorem of_runOn_eq (heq : engine'.runOn sole image content = engine.runOn sole image content)
    (exactWithRoom : ∃ map, ExactWithRoom (engine.runOn sole image content).1.2 map
      (engine.runOn sole image content).2) : Matched engine engine' image content := by
  intro a image₁ content₁ run
  rw [run] at heq exactWithRoom
  exact ⟨exactWithRoom, content₁, heq, .refl content₁⟩

theorem congr {other other' : Engine ι (Image ι) α} (h : Matched engine engine' image content)
    (heq : other.runOn sole image content = engine.runOn sole image content)
    (heq' : other'.runOn sole image content = engine'.runOn sole image content) :
    Matched other other' image content := by
  intro a image₁ content₁ run
  rw [heq']
  exact h a image₁ content₁ (heq.symm.trans run)

end Matched

theorem runOn_onBlocks_ok {ω : Type} {server : Server ι ω} {world world' : ω}
    {engine : ι → Engine ι BlockMap α} {a : α} {map' : BlockMap} (hmap : image.blocks? = some map)
    (run : (engine image.disk).runOn server map world = ((.ok a, map'), world')) :
    (onBlocks engine).runOn server image world = ((.ok a, image.withBlocks map'), world') := by
  rw [runOn_onBlocks hmap, run]

theorem of_runOn_onBlocks {ω : Type} {server : Server ι ω} {world world' : ω}
    {engine : ι → Engine ι BlockMap α} {a : α} (hmap : image.blocks? = some map)
    (run : (onBlocks engine).runOn server image world = ((.ok a, image'), world')) :
    ∃ map', image' = image.withBlocks map' ∧
      (engine image.disk).runOn server map world = ((.ok a, map'), world') := by
  rw [runOn_onBlocks hmap] at run
  rcases hrun : (engine image.disk).runOn server map world with ⟨⟨result, map'⟩, world₁⟩
  rw [hrun] at run
  cases run
  exact ⟨map', rfl, rfl⟩

namespace ExactWithRoom

variable (h : ExactWithRoom image map content)
include h

theorem matched_of_reads {call : BlockCall} (reads : call.Reads) :
    Matched call.engine (call.engineBy .immediate) image content := by
  apply Matched.of_runOn_eq
  · exact call.runOn_engineBy reads h.synced.blocks Caching.faithful_immediate h.exact
  · obtain ⟨hcontent, hbeside⟩ := call.beside_of_reads h.synced.blocks h.exact reads
    rw [hcontent]
    exact h.beside hbeside

/-- The sectors that are written, and the bitmaps that are stored with them. -/
theorem matched_writeSectors {count : Nat} {buffer : ByteArray}
    (hbuffer : Buffer.Holds buffer.size count) (offset : Nat) :
    Matched
      (onBlocks fun disk => do
        BlockMap.writeSectors disk buffer (image.transfer offset count) offset 0
        BlockMap.flush disk)
      (onBlocks fun disk => do
        BlockMap.writeSectorsBy .immediate disk buffer (image.transfer offset count) offset 0
        BlockMap.flush disk)
      image content := by
  intro _ image₁ content₁ run
  obtain ⟨map₁, rfl, hwrite⟩ := of_runOn_onBlocks h.synced.blocks run
  have under := h.synced.underway_of_room h.room fun _ _ => True
  obtain ⟨under₁, exact₁, content₂, hwrite', same⟩ := h.exact.mirror.writeSectors under
    (fun k hk => lt_capacity_of_lt_transfer h.synced.consistent.onDisk.fits hk)
    (image.transfer_slots offset hbuffer) hwrite
  rw [BlockMap.cleaned_of_clean h.synced.clean] at hwrite'
  constructor
  · refine ⟨map₁, ?_, exact₁, under₁.room⟩
    constructor
    · exact blocks?_withBlocks h.synced.blocks
    · exact diskType_withBlocks.trans h.synced.kind
    · exact under₁.consistent
    · exact under₁.isSealed
    · exact exact₁.clean
  · exact ⟨content₂, runOn_onBlocks_ok h.synced.blocks hwrite', same⟩

theorem matched_writeBlocks (offset count : Nat) (buffer : ByteArray) :
    Matched (writeBlocks offset count buffer) (writeBlocksBy .immediate offset count buffer) image
      content := by
  by_cases hbuffer : Buffer.Holds buffer.size count
  · have hcheck := Buffer.check_eq hbuffer
    apply (Matched.bind_pure (h.matched_writeSectors hbuffer offset) fun _ =>
      (image.span offset count).truncated).congr
    · rw [writeBlocks, hcheck]
      rfl
    · rw [writeBlocksBy, hcheck]
      rfl
  · obtain ⟨e, hcheck⟩ := Buffer.check_eq_error hbuffer
    intro truncated image₁ content₁ run
    rw [writeBlocks, hcheck, Engine.runOn_bind_error (Engine.runOn_liftExcept ..)] at run
    cases run

/-- A call that does the same with any caching, and leaves the image as it is. -/
theorem matched_of_still {engine : Engine ι (Image ι) α} {result : Except Error α}
    (run : engine.runOn sole image content = ((result, image), content)) :
    Matched engine engine image content := by
  apply Matched.of_runOn_eq rfl
  rw [run]
  exact ⟨map, h⟩

theorem matched_write (offset count : Nat) (buffer : ByteArray) :
    Matched (write offset count buffer) (writeBy .immediate offset count buffer) image content := by
  have hrun := fun caching =>
    runOn_writeBy h.synced.blocks caching offset count buffer sole content
  rw [← writeBy_delayed]
  by_cases hmode : image.readOnly = true
  · simp only [if_pos hmode] at hrun
    apply (h.matched_of_still (hrun .delayed)).congr rfl
    rw [hrun, hrun]
  · simp only [if_neg hmode] at hrun
    apply (h.matched_writeBlocks offset count buffer).congr
    · rw [hrun, writeBlocksBy_delayed]
    · exact hrun .immediate

/-- Every call is matched by the same call without a cache. -/
theorem matched (call : BlockCall) :
    Matched call.engine (call.engineBy .immediate) image content := by
  cases call with
  | use op => cases op with
    | read offset count buffer => exact h.matched_of_reads trivial
    | write offset count buffer =>
      apply Matched.bind_pure
      apply Matched.bind_pure
      exact h.matched_write offset count buffer
    | flush =>
      have hflush := runOn_flush h.synced.blocks h.synced.clean content
      apply Matched.bind_pure
      exact (h.matched_of_still hflush).bind_pure fun _ => Answer.done
  | look sector => exact h.matched_of_reads trivial
  | readBlocks offset count buffer => exact h.matched_of_reads trivial
  | writeBlocks offset count buffer =>
    apply Matched.bind_pure
    exact h.matched_writeBlocks offset count buffer
  | reopen readOnly =>
    have hreopen : (BlockCall.reopen readOnly).engine.runOn sole image content =
        ((.ok (.answered .done),
          Image.opened image.disk image.footer map.header map.table readOnly), content) :=
      Engine.runOn_bind_ok (h.runOn_reopen readOnly) _
    apply Matched.of_runOn_eq rfl
    rw [hreopen]
    exact ⟨_, h.opened image.disk readOnly⟩

theorem of_run (call : BlockCall) {reply : BlockReply}
    (run : call.engine.runOn sole image content = ((.ok reply, image'), content')) :
    ∃ map', ExactWithRoom image' map' content' :=
  (h.matched call reply image' content' run).1

end ExactWithRoom

theorem Reached.exactWithRoom (h : Reached image content) :
    ∃ map, ExactWithRoom image map content := by
  induction h with
  | dynamic created =>
    obtain ⟨geometry, hnew⟩ := newImage_of_createDynamic created
    exact ⟨_, hnew.exactWithRoom (by decide)⟩
  | differencing created =>
    exact ⟨_, (newImage_of_createDifferencing created).exactWithRoom (by decide)⟩
  | @resolved _ _ _ _ sector _ _ _ run ih =>
    obtain ⟨map, exactWithRoom⟩ := ih
    exact exactWithRoom.of_run (.look sector) (Engine.runOn_bind_ok run _)
  | @shown _ _ _ _ offset count buffer _ _ run ih =>
    obtain ⟨map, exactWithRoom⟩ := ih
    exact exactWithRoom.of_run (.readBlocks offset count buffer) (Engine.runOn_bind_ok run _)
  | @written _ _ _ _ offset count _ buffer _ run ih =>
    obtain ⟨map, exactWithRoom⟩ := ih
    exact exactWithRoom.of_run (.writeBlocks offset count buffer) (Engine.runOn_bind_ok run _)
  | @used _ _ _ _ op _ _ run ih =>
    obtain ⟨map, exactWithRoom⟩ := ih
    exact exactWithRoom.of_run (.use op) (Engine.runOn_bind_ok run _)
  | @reopened _ _ _ _ readOnly _ run ih =>
    obtain ⟨map, exactWithRoom⟩ := ih
    rw [exactWithRoom.runOn_ofDisk readOnly] at run
    cases run
    exact ⟨_, exactWithRoom.opened _ readOnly⟩

end Image

/-- A call that was made, with its reply and what it left. -/
structure Turn (ι : Type) where
  call : BlockCall
  reply : Except Error BlockReply
  image : Image ι
  content : Content

namespace Turn

/-- The call succeeded. -/
def Succeeds (turn : Turn ι) : Prop := ∃ reply, turn.reply = .ok reply

/-- The same call had the same reply and left the same table and the same bytes. -/
structure Agrees (turn turn' : Turn ι) : Prop where
  call_eq : turn'.call = turn.call
  reply_eq : turn'.reply = turn.reply
  table_eq : turn'.image.table? = turn.image.table?
  same : turn.content.SameBytes turn'.content

end Turn

namespace Image

/-- Calls are made one after the other, whether or not they succeed. -/
def turns (engine : BlockCall → Engine ι (Image ι) BlockReply) :
    List BlockCall → Image ι → Content → List (Turn ι)
  | [], _, _ => []
  | call :: calls, image, content =>
    let run := (engine call).runOn sole image content
    ⟨call, run.1.1, run.1.2, run.2⟩ :: turns engine calls run.1.2 run.2

/-- The second run has the calls of the first one, and calls that only read. -/
inductive Padded : (calls calls' : List BlockCall) → Prop
  | nil : Padded [] []
  | cons {calls calls' : List BlockCall} (call : BlockCall) (rest : Padded calls calls') :
      Padded (call :: calls) (call :: calls')
  | read {calls calls' : List BlockCall} {call : BlockCall} (reads : call.Reads)
      (rest : Padded calls calls') : Padded calls (call :: calls')

/-- The turns of the first run are found in the second one, whose other turns are reads that leave
the storage as it was before. -/
inductive Interspersed : (before : Content) → (turns turns' : List (Turn ι)) → Prop
  | nil {before : Content} : Interspersed before [] []
  | cons {before : Content} {turn turn' : Turn ι} {turns turns' : List (Turn ι)}
      (agrees : turn.Agrees turn') (rest : Interspersed turn'.content turns turns') :
      Interspersed before (turn :: turns) (turn' :: turns')
  | read {before : Content} {turn : Turn ι} {turns turns' : List (Turn ι)}
      (reads : turn.call.Reads) (unchanged : turn.content = before)
      (rest : Interspersed before turns turns') : Interspersed before turns (turn :: turns')

variable {image image' : Image ι} {map : BlockMap} {content content' : Content}

theorem turns_cons {engine : BlockCall → Engine ι (Image ι) BlockReply} {call : BlockCall}
    {result : Except Error BlockReply}
    (run : (engine call).runOn sole image content = ((result, image'), content'))
    (calls : List BlockCall) :
    turns engine (call :: calls) image content =
      ⟨call, result, image', content'⟩ :: turns engine calls image' content' := by
  rw [turns, run]

theorem ExactWithRoom.turns_immediate (h : ExactWithRoom image map content)
    (same : content.SameBytes content') {calls : List BlockCall}
    (succeed : ∀ turn ∈ turns BlockCall.engine calls image content, turn.Succeeds) :
    List.Forall₂ Turn.Agrees (turns BlockCall.engine calls image content)
      (turns (BlockCall.engineBy .immediate) calls image content') := by
  induction calls generalizing image map content content' with
  | nil => exact .nil
  | cons call calls ih =>
    rcases run : call.engine.runOn sole image content with ⟨⟨result, image₁⟩, content₁⟩
    rw [turns_cons run] at succeed ⊢
    obtain ⟨⟨reply, hreply⟩, hrest⟩ := List.forall_mem_cons.mp succeed
    obtain rfl : result = .ok reply := hreply
    obtain ⟨⟨map₁, h₁⟩, content₂, run', hsame⟩ := h.matched call reply image₁ content₁ run
    -- The run without a cache is on a storage of its own by now.
    obtain ⟨hend, hcopy⟩ :=
      Engine.runOn_sole_congr same (call.engineBy (Caching.immediate : Caching ι)) image
    rw [run'] at hend hcopy
    rcases run'' : (call.engineBy .immediate).runOn sole image content' with ⟨end', content₃⟩
    rw [run''] at hend hcopy
    obtain rfl : end' = (.ok reply, image₁) := hend
    rw [turns_cons run'']
    have hbytes := hsame.trans hcopy
    exact .cons ⟨rfl, rfl, rfl, hbytes⟩ (ih h₁ hbytes hrest)

/-- Reads make no difference to the other turns. -/
theorem ExactWithRoom.turns_padded (h : ExactWithRoom image map content)
    (beside : image.Beside image' content)
    {calls calls' : List BlockCall} (padded : Padded calls calls')
    (succeed : (∀ turn ∈ turns BlockCall.engine calls image content, turn.Succeeds) ∨
      ∀ turn ∈ turns BlockCall.engine calls' image' content, turn.Succeeds) :
    Interspersed content (turns BlockCall.engine calls image content)
      (turns BlockCall.engine calls' image' content) := by
  -- Whatever was read, the images differ in what is cached only, so the next call goes alike.
  induction padded generalizing image image' map content with
  | nil => exact .nil
  | @cons calls calls' call rest ih =>
    have course := beside.course_call Caching.faithful_delayed h.size_lt call
    rw [BlockCall.engineBy_delayed] at course
    rcases run : call.engine.runOn sole image content with ⟨⟨result, image₁⟩, content₁⟩
    rcases run' : call.engine.runOn sole image' content with ⟨⟨result', image₁'⟩, content₁'⟩
    rw [run, run'] at course
    obtain ⟨hresult, hcontent, himages⟩ := course
    obtain rfl : result' = result := hresult
    obtain rfl : content₁' = content₁ := hcontent
    rw [turns_cons run, turns_cons run'] at succeed ⊢
    simp only [List.forall_mem_cons] at succeed
    obtain ⟨reply, hreply⟩ : Turn.Succeeds ⟨call, result', image₁, content₁'⟩ := by
      obtain h | h := succeed
      · exact h.1
      · exact h.1
    obtain rfl : result' = .ok reply := hreply
    obtain ⟨map₁, h₁⟩ := h.of_run call run
    have beside₁ : image₁.Beside image₁' content₁' := by
      obtain rfl | hbeside := himages
      · exact .refl h₁.synced.blocks h₁.exact
      · exact hbeside
    have agrees : Turn.Agrees ⟨call, .ok reply, image₁, content₁'⟩
        ⟨call, .ok reply, image₁', content₁'⟩ :=
      ⟨rfl, rfl, beside₁.table?_eq, .refl content₁'⟩
    exact .cons agrees (ih h₁ beside₁ (succeed.imp And.right And.right))
  | @read calls calls' call reads rest ih =>
    obtain ⟨map', h'⟩ := h.beside beside
    obtain ⟨hcontent, hbeside⟩ := call.beside_of_reads h'.synced.blocks h'.exact reads
    rcases run : call.engine.runOn sole image' content with ⟨⟨result, image₁⟩, content₁⟩
    rw [run] at hcontent hbeside
    obtain rfl : content₁ = content := hcontent
    rw [turns_cons run] at succeed ⊢
    simp only [List.forall_mem_cons] at succeed
    exact .read reads rfl (ih h (beside.trans hbeside) (succeed.imp id And.right))

/-- The calls of the library are those of `engineBy` with its own caching. Where all of them
succeed, each has the same reply without a cache, and leaves the same table and the same bytes.
Reads can be made or left out: they change no other reply, and nothing on the storage. -/
theorem cache_is_transparent (reached : Reached image content) :
    (∀ call : BlockCall,
      (call.engineBy .delayed : Engine ι (Image ι) BlockReply) = call.engine) ∧
    (∀ calls, (∀ turn ∈ turns BlockCall.engine calls image content, turn.Succeeds) →
      List.Forall₂ Turn.Agrees (turns BlockCall.engine calls image content)
        (turns (BlockCall.engineBy .immediate) calls image content)) ∧
    ∀ calls calls', Padded calls calls' →
      (∀ turn ∈ turns BlockCall.engine calls image content, turn.Succeeds) ∨
        (∀ turn ∈ turns BlockCall.engine calls' image content, turn.Succeeds) →
      Interspersed content (turns BlockCall.engine calls image content)
        (turns BlockCall.engine calls' image content) := by
  obtain ⟨map, exactWithRoom⟩ := reached.exactWithRoom
  refine ⟨BlockCall.engineBy_delayed, ?_, ?_⟩
  · intro calls succeed
    exact exactWithRoom.turns_immediate (.refl content) succeed
  · intro calls calls' padded succeed
    have beside : image.Beside image content :=
      .refl exactWithRoom.synced.blocks exactWithRoom.exact
    exact exactWithRoom.turns_padded beside padded succeed

theorem turns_succeed {total : Nat} {view : Nat → Sector} {ops : List Operation}
    (h : Behaves total view (ops.map Act.use) image content) :
    ∀ turn ∈ turns BlockCall.engine (ops.map BlockCall.use) image content, turn.Succeeds := by
  induction ops generalizing view image content with
  | nil => exact fun turn hturn => nomatch hturn
  | cons op ops ih =>
    obtain ⟨answer, image', content', run, -, rest⟩ := h
    have hcall : (BlockCall.use op).engine.runOn sole image content =
        ((.ok (.answered answer), image'), content') :=
      Engine.runOn_bind_ok run _
    rw [List.map_cons, turns_cons hcall, List.forall_mem_cons]
    exact ⟨⟨_, rfl⟩, ih rest⟩

/-- Two blocks are written in turn, and looked up in between. -/
theorem cache_is_transparent_small : ∃ (image : Image Unit) (content : Content),
    Reached image content ∧
    let write sector : BlockCall := .use (.write sector 1 (Bytes.replicate 512 0x5a).toByteArray)
    (∀ turn ∈ turns BlockCall.engine [write 0, write 8, write 1] image content, turn.Succeeds) ∧
    List.Forall₂ Turn.Agrees
      (turns BlockCall.engine [write 0, write 8, write 1] image content)
      (turns (BlockCall.engineBy .immediate) [write 0, write 8, write 1] image content) ∧
    Interspersed content
      (turns BlockCall.engine [write 0, write 8, write 1] image content)
      (turns BlockCall.engine [write 0, .look 8, write 8, .look 0, write 1] image content) := by
  obtain ⟨image, content, hrun, hnew⟩ :=
    exists_createDynamic CreateOptions.checkedGeometry_small creatable_small () .empty
  have reached : Reached image content := .dynamic hrun
  obtain ⟨-, immediate, padded⟩ := cache_is_transparent reached
  have valid : ∀ act ∈ ([0, 8, 1].map fun sector =>
      Operation.write sector 1 (Bytes.replicate 512 0x5a).toByteArray).map Act.use, act.Valid := by
    simp only [List.map_map, List.forall_mem_map]
    exact fun _ _ => Buffer.holds_sector _
  have hbehaves := behaves_of_sealedWithRoom () hnew.readAs.diskType _ valid
    (hnew.sealedWithRoom (by decide +kernel)) rfl
  have succeed := turns_succeed hbehaves
  rw [writable, ← opened, ← hnew.eq_opened] at succeed
  refine ⟨image, content, reached, succeed, immediate _ succeed, padded _ _ ?_ (.inl succeed)⟩
  exact .cons _ (.read trivial (.cons _ (.read trivial (.cons _ .nil))))

end Image

end VirtualDisk
