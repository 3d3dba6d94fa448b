import Mathlib.Algebra.GroupWithZero.Nat
import VirtualDisk.Proofs.Blocks.Splitting
import VirtualDisk.Proofs.Image.FlatTransfer
import VirtualDisk.Proofs.Image.Transparent

/-!
# Requests in parts

A request may be made in parts, one after the other, each with its own sectors of the buffer: sector
by sector, or in whatever pieces. As long as the request itself succeeds this makes no difference:
the parts succeed, what they return adds up to what the request returns, and they leave the same
image, its cache included, and the same bytes.
-/

namespace VirtualDisk

open Storage

variable {ι σ α : Type}

/-- How the replies to the parts of a request make up one reply. -/
structure Joining (α : Type) where
  /-- The reply to a request for no sectors, with the given buffer. -/
  nothing : ByteArray → α
  join : α → α → α

/-- Numbers of sectors that were cut off. -/
def Joining.truncations : Joining Nat where
  nothing _ := 0
  join := (· + ·)

/-- Results of reads, each with its part of the buffer. -/
def Joining.results : Joining ReadResult where
  nothing buffer := ⟨0, buffer⟩
  join first second := ⟨first.truncated + second.truncated, first.buffer ++ second.buffer⟩

theorem Joining.results_join {first second result : ReadResult}
    (truncated : first.truncated + second.truncated = result.truncated)
    (buffer : first.buffer ++ second.buffer = result.buffer) :
    results.join first second = result := by
  obtain ⟨_, _⟩ := result
  exact congr (congrArg ReadResult.mk truncated) buffer

/-- Makes a request in parts of the given numbers of sectors, in ascending order. -/
def inParts (joining : Joining α) (call : (offset count : Nat) → ByteArray → Engine ι σ α) :
    (parts : List Nat) → (offset : Nat) → ByteArray → Engine ι σ α
  | [], _, buffer => return joining.nothing buffer
  | count :: parts, offset, buffer => do
    let first ← call offset count (Buffer.front buffer count)
    let others ← inParts joining call parts (offset + count) (Buffer.back buffer count)
    return joining.join first others

/-- On the states that are known, a request for no sectors does nothing, and a request that succeeds
can be made in two parts. -/
structure Splits (joining : Joining α) (call : (offset count : Nat) → ByteArray → Engine ι σ α)
    (Known : σ → Content → Prop) : Prop where
  nothing : ∀ {offset : Nat} {buffer : ByteArray} {a : α} {state state' : σ}
    {content content' : Content}, Known state content →
      (call offset 0 buffer).runOn sole state content = ((.ok a, state'), content') →
        a = joining.nothing buffer ∧ state' = state ∧ content'.SameBytes content
  split : ∀ {offset first second : Nat} {buffer : ByteArray} {a : α} {state state' : σ}
    {content content' : Content}, Known state content →
      (call offset (first + second) buffer).runOn sole state content =
        ((.ok a, state'), content') →
      ∃ a₁ state₁ content₁ a₂ content₂,
        (call offset first (Buffer.front buffer first)).runOn sole state content =
          ((.ok a₁, state₁), content₁) ∧
        Known state₁ content₁ ∧
        (call (offset + first) second (Buffer.back buffer first)).runOn sole state₁ content₁ =
          ((.ok a₂, state'), content₂) ∧
        joining.join a₁ a₂ = a ∧ content'.SameBytes content₂

/-- What can be cut in two can be cut into any number of parts. -/
theorem Splits.runOn_inParts {joining : Joining α}
    {call : (offset count : Nat) → ByteArray → Engine ι σ α} {Known : σ → Content → Prop}
    (h : Splits joining call Known) (parts : List Nat) {offset : Nat} {buffer : ByteArray} {a : α}
    {state state' : σ} {content content' : Content} (known : Known state content)
    (run : (call offset parts.sum buffer).runOn sole state content = ((.ok a, state'), content')) :
    ∃ content₂, (inParts joining call parts offset buffer).runOn sole state content =
        ((.ok a, state'), content₂) ∧ content'.SameBytes content₂ := by
  induction parts generalizing offset buffer a state content content' with
  | nil =>
    obtain ⟨rfl, rfl, same⟩ := h.nothing known run
    exact ⟨content, rfl, same⟩
  | cons count parts ih =>
    rw [List.sum_cons] at run
    obtain ⟨a₁, state₁, content₁, a₂, content₂, hfirst, known₁, hrest, rfl, same⟩ :=
      h.split known run
    obtain ⟨content₃, hparts, same'⟩ := ih known₁ hrest
    refine ⟨content₃, ?_, same.trans same'⟩
    rw [inParts, Engine.runOn_bind_ok hfirst, Engine.runOn_bind_ok hparts, Engine.runOn_pure]

namespace Image

variable {image image' : Image ι} {map : BlockMap} {content content' : Content}
variable {offset count : Nat} {buffer : ByteArray}

theorem runOn_read_of_fixed (fixed : image.layout = .fixed) (offset count : Nat)
    (buffer : ByteArray) (content : Content) :
    (read offset count buffer).runOn sole image content =
      ((((image.readFlat offset count buffer).runOn sole content).1, image),
        ((image.readFlat offset count buffer).runOn sole content).2) := by
  rw [read, Engine.runOn_bind_ok (Engine.runOn_get ..), fixed]
  exact Engine.runOn_liftAccess ..

theorem of_runOn_readFlat {result : ReadResult}
    (run : (image.readFlat offset count buffer).runOn sole content = (.ok result, content')) :
    content' = content ∧ (Buffer.Holds buffer.size count ∧ image.Inside offset count content) ∧
      result.truncated = count - image.transfer offset count ∧
      Buffer.Shows content.flatSector offset 0 (image.transfer offset count) buffer
        result.buffer := by
  have hpost := (readFlat_ensures_or (Setting.readable_free image.disk False fun _ => True) rfl
    offset count buffer content).runOn_sole fun _ => trivial
  rw [run] at hpost
  exact hpost

theorem exists_readFlat (hbuffer : Buffer.Holds buffer.size count)
    (inside : image.Inside offset count content) :
    ∃ result, (image.readFlat offset count buffer).runOn sole content = (.ok result, content) ∧
      result.truncated = count - image.transfer offset count ∧
      Buffer.Shows content.flatSector offset 0 (image.transfer offset count) buffer
        result.buffer := by
  have hpost := (readFlat_ensures_or (Setting.readable_free image.disk False fun _ => True) rfl
    offset count buffer content).runOn_sole fun _ => trivial
  rcases hrun : (image.readFlat offset count buffer).runOn sole content with ⟨result, content'⟩
  rw [hrun] at hpost
  cases result with
  | ok result =>
    obtain ⟨rfl, -, hresult⟩ := hpost
    exact ⟨result, rfl, hresult⟩
  | error e =>
    obtain ⟨-, hm | hnot | ⟨-, hbeyond⟩⟩ := hpost
    · exact hm.elim
    · exact absurd hbuffer hnot
    · exact absurd inside hbeyond

theorem runOn_readFlat_add {first second : Nat} {result : ReadResult}
    (run : (image.readFlat offset (first + second) buffer).runOn sole content =
      (.ok result, content')) :
    content' = content ∧ ∃ result₁ result₂,
      (image.readFlat offset first (Buffer.front buffer first)).runOn sole content =
        (.ok result₁, content) ∧
      (image.readFlat (offset + first) second (Buffer.back buffer first)).runOn sole content =
        (.ok result₂, content) ∧
      Joining.results.join result₁ result₂ = result := by
  obtain ⟨hcontent, ⟨hbuffer, inside⟩, htruncated, hshows⟩ := of_runOn_readFlat run
  rw [inside_add] at inside
  obtain ⟨result₁, hfirst, htruncated₁, hshows₁⟩ :=
    exists_readFlat (Buffer.holds_front hbuffer) inside.1
  obtain ⟨result₂, hsecond, htruncated₂, hshows₂⟩ :=
    exists_readFlat (Buffer.holds_back hbuffer) inside.2
  refine ⟨hcontent, result₁, result₂, hfirst, hsecond, ?_⟩
  have hsize := hbuffer.le_size
  have hle := image.transfer_le_count (offset + first) second
  have happend := hshows₁.append (Buffer.size_front (by lia)) hshows₂
    (image.transfer_le_count offset first) transfer_eq_of_ne_zero
    (by rw [Buffer.size_back]; lia)
  have hshown := image.transfer_le_count offset (first + second)
  rw [Buffer.front_append_back (by lia), ← transfer_add] at happend
  have hsum := truncated_add image offset first second
  rw [← htruncated, ← htruncated₁, ← htruncated₂] at hsum
  exact Joining.results_join hsum.symm (happend.unique hshows (by lia))

/-- A write to a fixed image reaches its row of sectors, unless it is ignored. -/
theorem runOn_write_of_fixed (fixed : image.layout = .fixed) (offset count : Nat)
    (buffer : ByteArray) (content : Content) :
    (write offset count buffer).runOn sole image content =
      if image.readOnly then ((.ok 0, image), content)
      else ((((image.writeFlat offset count buffer).runOn sole content).1, image),
        ((image.writeFlat offset count buffer).runOn sole content).2) := by
  rw [write, Engine.runOn_bind_ok (Engine.runOn_get ..), fixed]
  split
  · rfl
  · exact Engine.runOn_liftAccess ..

theorem of_runOn_writeFlat {truncated : Nat}
    (run : (image.writeFlat offset count buffer).runOn sole content = (.ok truncated, content')) :
    Buffer.Holds buffer.size count ∧ truncated = count - image.transfer offset count ∧
      RowStored content offset (image.transfer offset count) buffer content' := by
  have hpost := (writeFlat_ensures_or (S := .free image.disk False fun _ => True)
    (fun _ _ => trivial) rfl offset count buffer content).runOn_sole fun _ => trivial
  rw [run] at hpost
  exact hpost

theorem exists_writeFlat (image : Image ι) (offset : Nat) (content : Content)
    (hbuffer : Buffer.Holds buffer.size count) :
    ∃ content', (image.writeFlat offset count buffer).runOn sole content =
        (.ok (count - image.transfer offset count), content') ∧
      RowStored content offset (image.transfer offset count) buffer content' := by
  have hpost := (writeFlat_ensures_or (S := .free image.disk False fun _ => True)
    (fun _ _ => trivial) rfl offset count buffer content).runOn_sole fun _ => trivial
  rcases hrun : (image.writeFlat offset count buffer).runOn sole content with ⟨result, content'⟩
  rw [hrun] at hpost
  cases result with
  | ok truncated =>
    obtain ⟨-, rfl, stored⟩ := hpost
    exact ⟨content', rfl, stored⟩
  | error e => exact absurd hbuffer (hpost.2.resolve_left id)

theorem runOn_writeFlat_add {first second truncated : Nat}
    (run : (image.writeFlat offset (first + second) buffer).runOn sole content =
      (.ok truncated, content')) :
    ∃ truncated₁ content₁ truncated₂ content₂,
      (image.writeFlat offset first (Buffer.front buffer first)).runOn sole content =
        (.ok truncated₁, content₁) ∧
      (image.writeFlat (offset + first) second (Buffer.back buffer first)).runOn sole content₁ =
        (.ok truncated₂, content₂) ∧
      truncated₁ + truncated₂ = truncated ∧ content'.SameBytes content₂ := by
  obtain ⟨hbuffer, rfl, stored⟩ := of_runOn_writeFlat run
  obtain ⟨content₁, hfirst, stored₁⟩ :=
    exists_writeFlat image offset content (Buffer.holds_front hbuffer)
  obtain ⟨content₂, hsecond, stored₂⟩ :=
    exists_writeFlat image (offset + first) content₁ (Buffer.holds_back hbuffer)
  have hsize := hbuffer.le_size
  have happend := stored₁.append (by lia) stored₂ (image.transfer_le_count offset first)
    transfer_eq_of_ne_zero
  rw [← transfer_add] at happend
  exact ⟨_, content₁, _, content₂, hfirst, hsecond, (truncated_add image offset first second).symm,
    stored.unique happend⟩

theorem of_runOn_readBlocks {ω : Type} {server : Server ι ω} {world world' : ω}
    {result : ReadResult} (hmap : image.blocks? = some map)
    (run : (readBlocks offset count buffer).runOn server image world =
      ((.ok result, image'), world')) :
    Buffer.Holds buffer.size count ∧ result.truncated = count - image.transfer offset count ∧
      ∃ map', image' = image.withBlocks map' ∧
        (BlockMap.readSectors image.disk (image.transfer offset count) offset 0 buffer).runOn server
          map world = ((.ok result.buffer, map'), world') := by
  obtain ⟨_, _, _, hcheck, hget⟩ := Engine.of_runOn_bind run
  obtain ⟨holds, rfl, rfl⟩ := Engine.of_runOn_liftExcept hcheck
  rw [Engine.runOn_bind_ok (Engine.runOn_get ..)] at hget
  obtain ⟨_, _, _, hblocks, hrest⟩ := Engine.of_runOn_bind hget
  cases hrest
  exact ⟨Buffer.holds_of_check holds, rfl, of_runOn_onBlocks hmap hblocks⟩

theorem runOn_readBlocks {ω : Type} {server : Server ι ω} {world world' : ω} {buffer' : ByteArray}
    {map' : BlockMap} (hmap : image.blocks? = some map) (hbuffer : Buffer.Holds buffer.size count)
    (run : (BlockMap.readSectors image.disk (image.transfer offset count) offset 0 buffer).runOn
      server map world = ((.ok buffer', map'), world')) :
    (readBlocks offset count buffer).runOn server image world =
      ((.ok ⟨count - image.transfer offset count, buffer'⟩, image.withBlocks map'), world') := by
  rw [readBlocks, Buffer.check_eq hbuffer, Engine.runOn_bind_ok (Engine.runOn_liftExcept ..),
    Engine.runOn_bind_ok (Engine.runOn_get ..)]
  exact Engine.runOn_bind_ok (runOn_onBlocks_ok hmap run) _

theorem runOn_readBlocks_add {first second : Nat} {result : ReadResult}
    (hmap : image.blocks? = some map)
    (run : (readBlocks offset (first + second) buffer).runOn sole image content =
      ((.ok result, image'), content')) :
    ∃ result₁ map₁ content₁ result₂,
      (readBlocks offset first (Buffer.front buffer first)).runOn sole image content =
        ((.ok result₁, image.withBlocks map₁), content₁) ∧
      (readBlocks (offset + first) second (Buffer.back buffer first)).runOn sole
          (image.withBlocks map₁) content₁ = ((.ok result₂, image'), content') ∧
      Joining.results.join result₁ result₂ = result := by
  obtain ⟨hbuffer, htruncated, map', rfl, hread⟩ := of_runOn_readBlocks hmap run
  obtain ⟨truncated, whole⟩ := result
  dsimp only at htruncated hread
  have hfits := hbuffer.le_size
  have hwhole : first * 512 ≤ buffer.size := by lia
  have hsize := Buffer.size_front hwhole
  have hle := image.transfer_le_count offset first
  have hle' := image.transfer_le_count (offset + first) second
  rw [transfer_add, BlockMap.readSectors_add, ← Buffer.front_append_back hwhole,
    BlockMap.readSectors_append_left image.disk _ (by lia), bind_assoc] at hread
  obtain ⟨buffer₁, map₁, content₁, hfirst, hread⟩ := Engine.of_runOn_bind hread
  have hsize₁ := (BlockMap.size_of_readSectors hfirst).trans hsize
  have hsecond : ∃ buffer₂,
      (BlockMap.readSectors image.disk (image.transfer (offset + first) second) (offset + first) 0
        (Buffer.back buffer first)).runOn sole map₁ content₁ = ((.ok buffer₂, map'), content') ∧
      buffer₁ ++ buffer₂ = whole := by
    rw [pure_bind] at hread
    by_cases hnone : image.transfer (offset + first) second = 0
    · rw [hnone] at hread ⊢
      cases hread
      exact ⟨_, rfl, rfl⟩
    · have hback := Buffer.size_back buffer first
      have hroom : (0 + image.transfer (offset + first) second) * 512 ≤
          (Buffer.back buffer first).size := by lia
      have happend :=
        BlockMap.readSectors_append_right image.disk hsize₁ (offset + first) 0 hroom
      rw [Nat.add_zero] at happend
      rw [transfer_eq_of_ne_zero hnone, Nat.zero_add, happend] at hread
      obtain ⟨buffer₂, map₂, content₂, hrun, hrest⟩ := Engine.of_runOn_bind hread
      cases hrest
      exact ⟨buffer₂, hrun, rfl⟩
  obtain ⟨buffer₂, hsecond, hbuffers⟩ := hsecond
  have hrun := runOn_readBlocks (blocks?_withBlocks hmap) (Buffer.holds_back hbuffer) hsecond
  rw [withBlocks_withBlocks] at hrun
  exact ⟨_, map₁, content₁, _, runOn_readBlocks hmap (Buffer.holds_front hbuffer) hfirst, hrun,
    Joining.results_join (htruncated.trans (truncated_add image offset first second)).symm
      hbuffers⟩

theorem of_runOn_writeBlocks {truncated : Nat} (hmap : image.blocks? = some map)
    (run : (writeBlocks offset count buffer).runOn sole image content =
      ((.ok truncated, image'), content')) :
    Buffer.Holds buffer.size count ∧ truncated = count - image.transfer offset count ∧
      ∃ map', image' = image.withBlocks map' ∧
        (BlockMap.writeSectors image.disk buffer (image.transfer offset count) offset 0 >>= fun _ =>
          BlockMap.flush image.disk).runOn sole map content = ((.ok (), map'), content') := by
  obtain ⟨_, _, _, hcheck, hget⟩ := Engine.of_runOn_bind run
  obtain ⟨holds, rfl, rfl⟩ := Engine.of_runOn_liftExcept hcheck
  rw [Engine.runOn_bind_ok (Engine.runOn_get ..)] at hget
  obtain ⟨_, _, _, hblocks, hrest⟩ := Engine.of_runOn_bind hget
  cases hrest
  exact ⟨Buffer.holds_of_check holds, rfl, of_runOn_onBlocks hmap hblocks⟩

theorem runOn_writeBlocks {map' : BlockMap} (hmap : image.blocks? = some map)
    (hbuffer : Buffer.Holds buffer.size count)
    (run : (BlockMap.writeSectors image.disk buffer (image.transfer offset count) offset 0 >>=
      fun _ => BlockMap.flush image.disk).runOn sole map content = ((.ok (), map'), content')) :
    (writeBlocks offset count buffer).runOn sole image content =
      ((.ok (count - image.transfer offset count), image.withBlocks map'), content') := by
  rw [writeBlocks, Buffer.check_eq hbuffer, Engine.runOn_bind_ok (Engine.runOn_liftExcept ..),
    Engine.runOn_bind_ok (Engine.runOn_get ..)]
  exact Engine.runOn_bind_ok (runOn_onBlocks_ok hmap run) _

theorem runOn_writeBlocks_add (h : ExactWithRoom image map content) {first second truncated : Nat}
    (run : (writeBlocks offset (first + second) buffer).runOn sole image content =
      ((.ok truncated, image'), content')) :
    ∃ truncated₁ map₁ content₁ truncated₂ content₂,
      (writeBlocks offset first (Buffer.front buffer first)).runOn sole image content =
        ((.ok truncated₁, image.withBlocks map₁), content₁) ∧
      (writeBlocks (offset + first) second (Buffer.back buffer first)).runOn sole
          (image.withBlocks map₁) content₁ = ((.ok truncated₂, image'), content₂) ∧
      truncated₁ + truncated₂ = truncated ∧ content'.SameBytes content₂ := by
  obtain ⟨hbuffer, rfl, map', rfl, hwrite⟩ := of_runOn_writeBlocks h.synced.blocks run
  have hfits := hbuffer.le_size
  have hwhole : first * 512 ≤ buffer.size := by lia
  have hle := image.transfer_le_count offset first
  have hle' := image.transfer_le_count (offset + first) second
  have under := h.synced.underway_of_room h.room fun _ _ => True
  rw [transfer_add] at hwrite
  obtain ⟨map₁, content₁, content₂, hfirst, hsecond, same⟩ :=
    BlockMap.runOn_writeSectors_add h.exact under
      (fun k hk => lt_capacity_of_lt_transfer h.synced.consistent.onDisk.fits
        (by rwa [← transfer_add] at hk)) (by lia) hwrite
  have hfront : BlockMap.writeSectors image.disk (Buffer.front buffer first)
        (image.transfer offset first) offset 0 =
      BlockMap.writeSectors image.disk buffer (image.transfer offset first) offset 0 := by
    apply BlockMap.writeSectors_congr
    intro k hk
    rw [Nat.zero_add]
    exact Buffer.sector_front (Nat.lt_of_lt_of_le hk hle) hwhole
  have hback : BlockMap.writeSectors image.disk (Buffer.back buffer first)
        (image.transfer (offset + first) second) (offset + first) 0 =
      BlockMap.writeSectors image.disk buffer (image.transfer (offset + first) second)
        (offset + image.transfer offset first) (0 + image.transfer offset first) := by
    by_cases hnone : image.transfer (offset + first) second = 0
    · rw [hnone]
      rfl
    · rw [transfer_eq_of_ne_zero hnone]
      apply BlockMap.writeSectors_congr
      intro k hk
      rw [Nat.zero_add, Nat.zero_add]
      exact Buffer.sector_back (by lia)
  rw [← hfront] at hfirst
  rw [← hback] at hsecond
  have hrun := runOn_writeBlocks (blocks?_withBlocks h.synced.blocks) (Buffer.holds_back hbuffer)
    hsecond
  rw [withBlocks_withBlocks] at hrun
  exact ⟨_, map₁, content₁, _, content₂,
    runOn_writeBlocks h.synced.blocks (Buffer.holds_front hbuffer) hfirst, hrun,
    (truncated_add image offset first second).symm, same⟩

/-- A fixed image on any storage, or an image with blocks between two calls. -/
def Divisible (image : Image ι) (content : Content) : Prop :=
  image.layout = .fixed ∨ ∃ map, ExactWithRoom image map content

theorem transfer_nothing (image : Image ι) (offset : Nat) : image.transfer offset 0 = 0 :=
  Nat.zero_min _

theorem runOn_write_of_blocks (hmap : image.blocks? = some map) (offset count : Nat)
    (buffer : ByteArray) (content : Content) :
    (write offset count buffer).runOn sole image content =
      if image.readOnly then ((.ok 0, image), content)
      else (writeBlocks offset count buffer).runOn sole image content := by
  rw [← writeBy_delayed, runOn_writeBy hmap, writeBlocksBy_delayed]

theorem runOn_read_of_blocks (hmap : image.blocks? = some map) (offset count : Nat)
    (buffer : ByteArray) (content : Content) :
    (read offset count buffer).runOn sole image content =
      if image.diskType = .dynamic then (readBlocks offset count buffer).runOn sole image content
      else ((.error .parentUnavailable, image), content) := by
  rw [← readBy_delayed, runOn_readBy hmap, readBlocksBy_delayed]

theorem splits_readBlocks :
    Splits .results (readBlocks : Nat → Nat → ByteArray → Engine ι (Image ι) ReadResult)
      fun image content => ∃ map, ExactWithRoom image map content where
  nothing := by
    rintro offset buffer result image image' content content' ⟨map, h⟩ run
    obtain ⟨-, htruncated, map', rfl, hread⟩ := of_runOn_readBlocks h.synced.blocks run
    obtain ⟨truncated, buffer'⟩ := result
    rw [transfer_nothing] at htruncated hread
    cases htruncated
    cases hread
    exact ⟨rfl, withBlocks_self h.synced.blocks, .refl _⟩
  split := by
    rintro offset first second buffer result image image' content content' ⟨map, h⟩ run
    obtain ⟨result₁, map₁, content₁, result₂, hfirst, hsecond, hjoin⟩ :=
      runOn_readBlocks_add h.synced.blocks run
    exact ⟨result₁, _, content₁, result₂, content', hfirst,
      h.of_run (.readBlocks ..) (Engine.runOn_bind_ok hfirst _), hsecond, hjoin, .refl _⟩

theorem splits_writeBlocks :
    Splits .truncations (writeBlocks : Nat → Nat → ByteArray → Engine ι (Image ι) Nat)
      fun image content => ∃ map, ExactWithRoom image map content where
  nothing := by
    rintro offset buffer truncated image image' content content' ⟨map, h⟩ run
    obtain ⟨-, htruncated, map', rfl, hwrite⟩ := of_runOn_writeBlocks h.synced.blocks run
    rw [transfer_nothing] at htruncated hwrite
    have hflush := BlockMap.runOn_flush_of_clean h.synced.clean image.disk content
    cases hflush.symm.trans hwrite
    exact ⟨htruncated, withBlocks_self h.synced.blocks, .refl _⟩
  split := by
    rintro offset first second buffer truncated image image' content content' ⟨map, h⟩ run
    obtain ⟨truncated₁, map₁, content₁, truncated₂, content₂, hfirst, hsecond, hsum, same⟩ :=
      runOn_writeBlocks_add h run
    exact ⟨truncated₁, _, content₁, truncated₂, content₂, hfirst,
      h.of_run (.writeBlocks ..) (Engine.runOn_bind_ok hfirst _), hsecond, hsum, same⟩

theorem splits_read :
    Splits .results (read : Nat → Nat → ByteArray → Engine ι (Image ι) ReadResult) Divisible where
  nothing := by
    rintro offset buffer result image image' content content' (fixed | ⟨map, h⟩) run
    · rw [runOn_read_of_fixed fixed] at run
      rcases hread : (image.readFlat offset 0 buffer).runOn sole content with ⟨reply, content₁⟩
      rw [hread] at run
      cases run
      obtain ⟨rfl, -, htruncated, hshows⟩ := of_runOn_readFlat hread
      rw [transfer_nothing] at htruncated hshows
      have hbuffer := hshows.unique (.nothing _ _ _ _) (by omega)
      obtain ⟨truncated, buffer'⟩ := result
      cases htruncated
      cases hbuffer
      exact ⟨rfl, rfl, .refl _⟩
    · rw [runOn_read_of_blocks h.synced.blocks] at run
      split at run
      · exact splits_readBlocks.nothing ⟨map, h⟩ run
      · cases run
  split := by
    rintro offset first second buffer result image image' content content' (fixed | ⟨map, h⟩) run
    · rw [runOn_read_of_fixed fixed] at run
      rcases hread : (image.readFlat offset (first + second) buffer).runOn sole content with
        ⟨reply, content₁⟩
      rw [hread] at run
      cases run
      obtain ⟨rfl, result₁, result₂, hfirst, hsecond, hjoin⟩ := runOn_readFlat_add hread
      refine ⟨result₁, image, content₁, result₂, content₁, ?_, .inl fixed, ?_, hjoin, .refl _⟩
      · rw [runOn_read_of_fixed fixed, hfirst]
      · rw [runOn_read_of_fixed fixed, hsecond]
    · rw [runOn_read_of_blocks h.synced.blocks] at run
      split at run
      · next hkind =>
        obtain ⟨result₁, map₁, content₁, result₂, hfirst, hsecond, hjoin⟩ :=
          runOn_readBlocks_add h.synced.blocks run
        have ready₁ := h.of_run (.readBlocks ..) (Engine.runOn_bind_ok hfirst _)
        refine ⟨result₁, _, content₁, result₂, content', ?_, .inr ready₁, ?_, hjoin, .refl _⟩
        · rw [runOn_read_of_blocks h.synced.blocks, if_pos hkind, hfirst]
        · rw [runOn_read_of_blocks (blocks?_withBlocks h.synced.blocks), diskType_withBlocks,
            if_pos hkind, hsecond]
      · cases run

theorem splits_write :
    Splits .truncations (write : Nat → Nat → ByteArray → Engine ι (Image ι) Nat) Divisible where
  nothing := by
    rintro offset buffer truncated image image' content content' (fixed | ⟨map, h⟩) run
    · rw [runOn_write_of_fixed fixed] at run
      split at run
      · cases run
        exact ⟨rfl, rfl, .refl _⟩
      · rcases hwrite : (image.writeFlat offset 0 buffer).runOn sole content with ⟨reply, content₁⟩
        rw [hwrite] at run
        cases run
        obtain ⟨-, htruncated, stored⟩ := of_runOn_writeFlat hwrite
        rw [transfer_nothing] at htruncated stored
        exact ⟨htruncated, rfl, stored.unique (.nothing ..)⟩
    · rw [runOn_write_of_blocks h.synced.blocks] at run
      split at run
      · cases run
        exact ⟨rfl, rfl, .refl _⟩
      · exact splits_writeBlocks.nothing ⟨map, h⟩ run
  split := by
    rintro offset first second buffer truncated image image' content content' (fixed | ⟨map, h⟩) run
    · rw [runOn_write_of_fixed fixed] at run
      split at run
      · next hmode =>
        cases run
        refine ⟨0, image, content, 0, content, ?_, .inl fixed, ?_, rfl, .refl _⟩
        · rw [runOn_write_of_fixed fixed, if_pos hmode]
        · rw [runOn_write_of_fixed fixed, if_pos hmode]
      · next hmode =>
        rcases hwrite : (image.writeFlat offset (first + second) buffer).runOn sole content with
          ⟨reply, content'⟩
        rw [hwrite] at run
        cases run
        obtain ⟨truncated₁, content₁, truncated₂, content₂, hfirst, hsecond, hsum, same⟩ :=
          runOn_writeFlat_add hwrite
        refine ⟨truncated₁, image, content₁, truncated₂, content₂, ?_, .inl fixed, ?_, hsum, same⟩
        · rw [runOn_write_of_fixed fixed, if_neg hmode, hfirst]
        · rw [runOn_write_of_fixed fixed, if_neg hmode, hsecond]
    · rw [runOn_write_of_blocks h.synced.blocks] at run
      split at run
      · next hmode =>
        cases run
        refine ⟨0, image, content, 0, content, ?_, .inr ⟨map, h⟩, ?_, rfl, .refl _⟩
        · rw [runOn_write_of_blocks h.synced.blocks, if_pos hmode]
        · rw [runOn_write_of_blocks h.synced.blocks, if_pos hmode]
      · next hmode =>
        obtain ⟨truncated₁, map₁, content₁, truncated₂, content₂, hfirst, hsecond, hsum, same⟩ :=
          runOn_writeBlocks_add h run
        have ready₁ := h.of_run (.writeBlocks ..) (Engine.runOn_bind_ok hfirst _)
        refine ⟨truncated₁, _, content₁, truncated₂, content₂, ?_, .inr ready₁, ?_, hsum, same⟩
        · rw [runOn_write_of_blocks h.synced.blocks, if_neg hmode, hfirst]
        · rw [runOn_write_of_blocks (blocks?_withBlocks h.synced.blocks), readOnly_withBlocks,
            if_neg hmode, hsecond]

/-- Wherever a request succeeds its parts succeed, in ascending order. They come to the same reply
and the same image, and leave the same bytes. -/
def Divides (joining : Joining α)
    (call : (offset count : Nat) → ByteArray → Engine ι (Image ι) α) (image : Image ι)
    (content : Content) : Prop :=
  ∀ (offset count : Nat) (parts : List Nat) (buffer : ByteArray) (a : α) (image' : Image ι)
    (content' : Content), parts.sum = count →
    (call offset count buffer).runOn sole image content = ((.ok a, image'), content') →
    ∃ content₂, (inParts joining call parts offset buffer).runOn sole image content =
        ((.ok a, image'), content₂) ∧ content'.SameBytes content₂

/-- A request to a fixed image on any storage, or to an image with blocks that was reached without
a failure, is the same as its parts. With `List.replicate count 1` these are its sectors. -/
theorem requests_divide {image : Image ι} {content : Content}
    (known : image.layout = .fixed ∨ Reached image content) :
    Divides .truncations write image content ∧ Divides .results read image content ∧
      (Reached image content → Divides .results readBlocks image content) := by
  have divisible : Divisible image content := known.imp id Reached.exactWithRoom
  refine ⟨?_, ?_, fun reached => ?_⟩
  · rintro offset count parts buffer truncated image' content' rfl run
    exact splits_write.runOn_inParts parts divisible run
  · rintro offset count parts buffer result image' content' rfl run
    exact splits_read.runOn_inParts parts divisible run
  · rintro offset count parts buffer result image' content' rfl run
    exact splits_readBlocks.runOn_inParts parts reached.exactWithRoom run

/-- A write over two blocks, sector by sector. -/
theorem requests_divide_small : ∃ (image image' : Image Unit) (content content' content₂ : Content)
    (truncated : Nat), Reached image content ∧
    (write 6 4 (Bytes.replicate 2048 0x5a).toByteArray).runOn sole image content =
      ((.ok truncated, image'), content') ∧
    (inParts .truncations write [1, 1, 1, 1] 6 (Bytes.replicate 2048 0x5a).toByteArray).runOn sole
      image content = ((.ok truncated, image'), content₂) ∧
    content'.SameBytes content₂ := by
  obtain ⟨image, content, hrun, hnew⟩ :=
    exists_createDynamic CreateOptions.checkedGeometry_small creatable_small () .empty
  have reached : Reached image content := .dynamic hrun
  have valid : ∀ act ∈ [Act.use (.write 6 4 (Bytes.replicate 2048 0x5a).toByteArray)],
      act.Valid := by
    simp only [List.forall_mem_singleton]
    exact ⟨by decide, Nat.le_of_eq (Bytes.size_toByteArray _).symm⟩
  have hbehaves := behaves_of_sealedWithRoom () hnew.readAs.diskType _ valid
    (hnew.sealedWithRoom (by decide +kernel)) rfl
  rw [writable, ← opened, ← hnew.eq_opened] at hbehaves
  obtain ⟨_, image', content', hrun, -, -⟩ := hbehaves
  obtain ⟨truncated, _, _, hwrite, hrest⟩ := Engine.of_runOn_bind hrun
  cases hrest
  obtain ⟨content₂, hparts, same⟩ :=
    (requests_divide (.inr reached)).1 6 4 [1, 1, 1, 1] _ truncated image' content' rfl hwrite
  exact ⟨image, image', content, content', content₂, truncated, reached, hwrite, hparts, same⟩

end Image

end VirtualDisk
