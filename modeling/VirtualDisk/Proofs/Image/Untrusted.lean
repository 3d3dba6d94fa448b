import VirtualDisk.Proofs.Image.Accepting
import VirtualDisk.Proofs.Image.Governed

/-!
# Images from untrusted storages

An image that was opened is `Covering`: its own numbers are in their ranges, whatever is on its
storage and whoever wrote it. Every call on the image keeps this, so no call that gets a good buffer
fails for a cause that blames the library. `InRange` lists the numbers that a covering image
computes with.
-/

namespace VirtualDisk

open Storage

/-- One call on an image, including those that suit another layout. -/
inductive ImageCall where
  | use (op : Operation)
  | readFlat (offset count : Nat) (buffer : ByteArray)
  | writeFlat (offset count : Nat) (buffer : ByteArray)
  | readBlocks (offset count : Nat) (buffer : ByteArray)
  | writeBlocks (offset count : Nat) (buffer : ByteArray)

namespace ImageCall

variable {ι : Type}

/-- The call. -/
def engine : ImageCall → Engine ι (Image ι) Answer
  | use op => op.engine
  | readFlat offset count buffer => do
    let image ← get
    return .shown (← (image.readFlat offset count buffer : Access ι ReadResult))
  | writeFlat offset count buffer => do
    let image ← get
    return .written (← (image.writeFlat offset count buffer : Access ι Nat))
  | readBlocks offset count buffer => return .shown (← Image.readBlocks offset count buffer)
  | writeBlocks offset count buffer => return .written (← Image.writeBlocks offset count buffer)

/-- The buffer can hold the request. -/
def Valid : ImageCall → Prop
  | use op => op.Valid
  | readFlat _ count buffer => Buffer.Holds buffer.size count
  | writeFlat _ count buffer => Buffer.Holds buffer.size count
  | readBlocks _ count buffer => Buffer.Holds buffer.size count
  | writeBlocks _ count buffer => Buffer.Holds buffer.size count

theorem grows_engine (call : ImageCall) : (call.engine : Engine ι (Image ι) Answer).Grows := by
  cases call with
  | use op => exact op.grows_engine
  | readFlat offset count buffer =>
    exact Engine.grows_bind Engine.grows_get fun image =>
      Engine.grows_bind (Engine.grows_liftAccess (image.grows_readFlat _ _ _)) fun _ =>
        Engine.grows_pure _
  | writeFlat offset count buffer =>
    exact Engine.grows_bind Engine.grows_get fun image =>
      Engine.grows_bind (Engine.grows_liftAccess (image.grows_writeFlat _ _ _)) fun _ =>
        Engine.grows_pure _
  | readBlocks offset count buffer =>
    exact Engine.grows_bind (Image.grows_readBlocks _ _ _) fun _ => Engine.grows_pure _
  | writeBlocks offset count buffer =>
    exact Engine.grows_bind (Image.grows_writeBlocks _ _ _) fun _ => Engine.grows_pure _

end ImageCall

/-- What the blocks of an image compute with. -/
structure BlockMap.InRange (map : BlockMap) : Prop where
  divisor : map.header.sectorsPerBlock ≠ 0
  capacity_fits : map.capacity < 2 ^ 64
  block_inside : ∀ sector, sector < map.capacity →
    sector / map.header.sectorsPerBlock < map.table.size
  bit_inside : ∀ i, i < map.header.sectorsPerBlock → i / 8 < map.bitmap.bytes.size
  entry_fits : ∀ block, block < map.table.size → map.table.offset + block * 4 + 4 < 2 ^ 64

/-- What an image computes with: no sum or product leaves the 64 bits, no slot leaves the buffer, no
block leaves the table and no bit leaves the bitmap. -/
structure Image.InRange {ι : Type} (image : Image ι) : Prop where
  capacity_fits : image.capacity < 2 ^ 64
  end_fits : ∀ offset count, offset < 2 ^ 64 →
    offset + (image.span offset count).transfer < 2 ^ 64
  slot_inside : ∀ offset count size k, Buffer.Holds size count →
    k < (image.span offset count).transfer → (k + 1) * 512 ≤ size
  sector_inside : ∀ map, image.blocks? = some map → ∀ offset count k,
    k < (image.span offset count).transfer → offset + k < map.capacity
  blocks : ∀ map, image.blocks? = some map → map.InRange

theorem WellSized.inRange {map : BlockMap} (h : WellSized map) : map.InRange where
  divisor := Nat.ne_of_gt h.sectors_pos
  capacity_fits := by
    have hsize := h.size_lt
    have hperBlock := map.header.sectorsPerBlock_lt
    calc map.capacity
      _ ≤ 2 ^ 32 * 2 ^ 23 := Nat.mul_le_mul (Nat.le_of_lt hsize) (Nat.le_of_lt hperBlock)
      _ < 2 ^ 64 := by decide
  block_inside _ := BlockMap.div_lt_of_lt_capacity h.sectors_pos
  bit_inside _ := h.div_lt_size_bytes
  entry_fits block hblock := by
    have hfits := h.table_fits
    omega

namespace Image

variable {ι : Type} {image : Image ι} {content : Content}

/-- The numbers of the image are in their ranges, whatever its storage holds. -/
def Covering (image : Image ι) : Prop :=
  ∀ map, image.blocks? = some map → WellSized map ∧ image.totalSectors ≤ map.capacity

theorem Covering.inRange (h : image.Covering) : image.InRange where
  capacity_fits := by
    have htotal := image.footer.geometry.totalSectors_lt
    change image.footer.geometry.totalSectors * 512 < 2 ^ 64
    omega
  end_fits offset count hoffset := by
    have htotal := image.footer.geometry.totalSectors_lt
    change offset + min count (image.footer.geometry.totalSectors - offset) < 2 ^ 64
    omega
  slot_inside offset count size k hbuffer hk := by
    have hle := hbuffer.le_size
    have hcount : k + 1 ≤ count := Nat.lt_of_lt_of_le hk (Nat.min_le_left _ _)
    exact Nat.le_trans (Nat.mul_le_mul_right 512 hcount) hle
  sector_inside map hmap offset count k hk := lt_capacity_of_covered (h map hmap).2 hk
  blocks map hmap := (h map hmap).1.inRange

theorem OpenedAs.covering {disk : ι} {readOnly : Bool} (h : OpenedAs disk readOnly content image) :
    image.Covering := by
  intro map hmap
  cases h with
  | fixed found kind room => cases hmap
  | blocks found kind legible limits =>
    rw [blocks?_opened disk kind, Option.some.injEq] at hmap
    subst hmap
    exact ⟨legible.wellSized limits, limits.covered⟩

/-- A sound storage that is shorter than 2^63 bytes. -/
abbrev short (disk : ι) : Setting ι := .free disk False fun content => content.size < 2 ^ 63

/-- Any sectors may be asked for, and any requests issued, as long as the numbers are in range. -/
theorem wellSized_regime (disk : ι) (total : Nat) :
    Regime (short disk) (fun _ => True) fun map _ => WellSized map ∧ total ≤ map.capacity where
  small _ := id
  wellSized _ _ h := h.1
  ask _ _ _ _ _ _ _ := trivial
  effect _ _ _ _ h _ _ effect := ⟨h.1.effect effect, effect.capacity_eq ▸ h.2⟩

theorem covering_of_under {total : Nat} (htotal : image.totalSectors = total) {image' : Image ι}
    {content' : Content} {map : BlockMap} (hmap : image.blocks? = some map)
    (h : Under (fun map _ => WellSized map ∧ total ≤ map.capacity) image image' content') :
    image'.Covering := by
  obtain ⟨map', rfl, hsized, hcovered⟩ := h
  intro map'' hmap''
  rw [blocks?_withBlocks hmap, Option.some.injEq] at hmap''
  subst hmap''
  exact ⟨hsized, by rw [totalSectors_withBlocks, htotal]; exact hcovered⟩

theorem readFlat_excused (disk : ι) (hdisk : image.disk = disk) (offset : Nat) {count : Nat}
    {buffer : ByteArray} (hbuffer : Buffer.Holds buffer.size count) (content : Content) :
    (image.readFlat offset count buffer).Ensures (short disk)
      (fun result _ => result.buffer.size = buffer.size) (fun e _ => (short disk).Excused e)
      content := by
  have readable : (short disk).Readable := ⟨fun _ => trivial, fun _ _ _ => trivial⟩
  refine (readFlat_ensures_or readable hdisk offset count buffer content).mono ?_ ?_
  · rintro result content' _ ⟨-, -, -, hshows⟩
    exact hshows.size_eq
  · rintro e content' _ ⟨-, hm | hnot | ⟨rfl, -⟩⟩
    · exact .inl hm
    · exact absurd hbuffer hnot
    · exact .inr id

theorem writeFlat_excused (disk : ι) (hdisk : image.disk = disk) (offset : Nat) {count : Nat}
    {buffer : ByteArray} (hbuffer : Buffer.Holds buffer.size count) (content : Content) :
    (image.writeFlat offset count buffer).Ensures (short disk) (fun _ _ => True)
      (fun e _ => (short disk).Excused e) content := by
  refine (writeFlat_ensures_or (fun _ _ => trivial) hdisk offset count buffer content).mono ?_ ?_
  · exact fun _ _ _ _ => trivial
  · rintro e content' _ ⟨-, hm | hnot⟩
    · exact .inl hm
    · exact absurd hbuffer hnot

theorem Covering.readBlocks (h : image.Covering) (offset : Nat) {count : Nat} {buffer : ByteArray}
    (hbuffer : Buffer.Holds buffer.size count) (content : Content) :
    (Image.readBlocks offset count buffer).Ensures (short image.disk)
      (fun result image' _ => image'.Covering ∧ result.buffer.size = buffer.size)
      (fun e image' _ => image'.Covering ∧ ¬ e.IsSlip) image content := by
  cases hmap : image.blocks? with
  | none =>
    simp only [Image.readBlocks, Buffer.check_eq hbuffer, onBlocks, hmap, Engine.ensures_bind,
      Engine.ensures_liftExcept_ok, Engine.ensures_get, Engine.ensures_throw]
    exact fun _ _ _ _ => ⟨h, id⟩
  | some map =>
    obtain ⟨hsized, hcovered⟩ := h map hmap
    refine (readBlocks_governed (wellSized_regime image.disk image.totalSectors) rfl hmap hcovered
      ⟨hsized, hcovered⟩ fun _ _ => .of_wanted trivial _).mono ?_ ?_
    · rintro result image' content' _ ⟨hunder, hsize⟩
      exact ⟨covering_of_under rfl hmap hunder, hsize⟩
    · rintro e image' content' _ ⟨hunder, hexcused⟩
      exact ⟨covering_of_under rfl hmap hunder, (hexcused hbuffer).resolve_left id⟩

theorem Covering.writeBlocks (h : image.Covering) (offset : Nat) {count : Nat} {buffer : ByteArray}
    (hbuffer : Buffer.Holds buffer.size count) (content : Content) :
    (Image.writeBlocks offset count buffer).Ensures (short image.disk)
      (fun _ image' _ => image'.Covering) (fun e image' _ => image'.Covering ∧ ¬ e.IsSlip) image
      content := by
  cases hmap : image.blocks? with
  | none =>
    simp only [Image.writeBlocks, Buffer.check_eq hbuffer, onBlocks, hmap, Engine.ensures_bind,
      Engine.ensures_liftExcept_ok, Engine.ensures_get, Engine.ensures_throw]
    exact fun _ _ _ _ => ⟨h, id⟩
  | some map =>
    obtain ⟨hsized, hcovered⟩ := h map hmap
    refine (writeBlocks_governed (wellSized_regime image.disk image.totalSectors) rfl hmap hcovered
      ⟨hsized, hcovered⟩ fun _ _ => trivial).mono ?_ ?_
    · exact fun _ _ _ _ hunder => covering_of_under rfl hmap hunder
    · rintro e image' content' _ ⟨hunder, hexcused⟩
      exact ⟨covering_of_under rfl hmap hunder, (hexcused hbuffer).resolve_left id⟩

theorem Covering.use_fixed (h : image.Covering) (hlayout : image.layout = .fixed) (op : Operation)
    (valid : op.Valid) (content : Content) :
    op.engine.Ensures (short image.disk) (fun _ image' _ => image'.Covering)
      (fun e image' _ => image'.Covering ∧ ¬ e.IsSlip) image content := by
  have hblocks : image.blocks? = none := by
    rw [blocks?, hlayout]
    rfl
  cases op with
  | read offset count buffer =>
    simp only [Operation.engine, Image.read, hlayout, Engine.ensures_bind, Engine.ensures_get,
      Engine.ensures_liftAccess, Engine.ensures_pure]
    intro _
    exact (readFlat_excused image.disk rfl offset valid content).mono (fun _ _ _ _ _ => h)
      fun _ _ _ hexcused => ⟨h, hexcused.resolve_left id⟩
  | write offset count buffer =>
    simp only [Operation.engine, Image.write, Engine.ensures_bind, Engine.ensures_get,
      Engine.ensures_pure]
    intro _
    split
    · rw [ignoreWrite, Engine.ensures_pure]
      exact fun _ _ => h
    · simp only [hlayout, Engine.ensures_liftAccess]
      exact (writeFlat_excused image.disk rfl offset valid content).mono (fun _ _ _ _ _ => h)
        fun _ _ _ hexcused => ⟨h, hexcused.resolve_left id⟩
  | flush =>
    simp only [Operation.engine, Image.flush, hblocks, Option.isSome_none, Bool.false_eq_true,
      if_false, Engine.ensures_bind, Engine.ensures_get, Engine.ensures_liftAccess,
      Engine.ensures_pure]
    intro _
    exact .flush trivial (fun _ => h) fun hm _ => hm.elim

theorem Covering.use_blocks (h : image.Covering) {map : BlockMap} (hmap : image.blocks? = some map)
    (op : Operation) (valid : op.Valid) (content : Content) :
    op.engine.Ensures (short image.disk) (fun _ image' _ => image'.Covering)
      (fun e image' _ => image'.Covering ∧ ¬ e.IsSlip) image content := by
  obtain ⟨hsized, hcovered⟩ := h map hmap
  refine (op.governed (wellSized_regime image.disk image.totalSectors) rfl hmap hcovered
    ⟨hsized, hcovered⟩ (op.wants_all image map)).mono ?_ ?_
  · exact fun _ _ _ _ hunder => covering_of_under rfl hmap hunder
  · rintro e image' content' _ ⟨hunder, hexcused⟩
    exact ⟨covering_of_under rfl hmap hunder, (hexcused valid).resolve_left id⟩

/-- A good call on a covering image leaves it covering, and if it fails, the library is not to
blame. -/
theorem Covering.call (h : image.Covering) (call : ImageCall) (valid : call.Valid)
    (content : Content) :
    call.engine.Ensures (short image.disk) (fun _ image' _ => image'.Covering)
      (fun e image' _ => image'.Covering ∧ ¬ e.IsSlip) image content := by
  cases call with
  | use op =>
    cases hmap : image.blocks? with
    | some map => exact h.use_blocks hmap op valid content
    | none =>
      refine h.use_fixed ?_ op valid content
      cases hlayout : image.layout with
      | fixed => rfl
      | _ =>
        rw [blocks?, hlayout] at hmap
        cases hmap
  | readFlat offset count buffer =>
    simp only [ImageCall.engine, Engine.ensures_bind, Engine.ensures_get, Engine.ensures_liftAccess,
      Engine.ensures_pure]
    intro _
    exact (readFlat_excused image.disk rfl offset valid content).mono (fun _ _ _ _ _ => h)
      fun _ _ _ hexcused => ⟨h, hexcused.resolve_left id⟩
  | writeFlat offset count buffer =>
    simp only [ImageCall.engine, Engine.ensures_bind, Engine.ensures_get, Engine.ensures_liftAccess,
      Engine.ensures_pure]
    intro _
    exact (writeFlat_excused image.disk rfl offset valid content).mono (fun _ _ _ _ _ => h)
      fun _ _ _ hexcused => ⟨h, hexcused.resolve_left id⟩
  | readBlocks offset count buffer =>
    simp only [ImageCall.engine, Engine.ensures_bind, Engine.ensures_pure]
    exact (h.readBlocks offset valid content).mono_success fun _ _ _ _ hread _ => hread.1
  | writeBlocks offset count buffer =>
    simp only [ImageCall.engine, Engine.ensures_bind, Engine.ensures_pure]
    exact (h.writeBlocks offset valid content).mono_success fun _ _ _ _ hwrite _ => hwrite

theorem Covering.holds (h : image.Covering) {sector : Nat} (hsector : sector < image.totalSectors)
    (content : Content) :
    (onBlocks fun disk => BlockMap.holds disk sector).Ensures (short image.disk)
      (fun _ image' _ => image'.Covering) (fun e image' _ => image'.Covering ∧ ¬ e.IsSlip) image
      content := by
  cases hmap : image.blocks? with
  | none =>
    simp only [onBlocks, hmap, Engine.ensures_bind, Engine.ensures_get, Engine.ensures_throw]
    exact fun _ _ => ⟨h, id⟩
  | some map =>
    obtain ⟨hsized, hcovered⟩ := h map hmap
    refine (holds_governed (wellSized_regime image.disk image.totalSectors) rfl hmap hcovered
      ⟨hsized, hcovered⟩ (.of_wanted trivial _) hsector).mono ?_ ?_
    · exact fun _ _ _ _ hunder => covering_of_under rfl hmap hunder
    · rintro e image' content' _ ⟨hunder, hexcused⟩
      exact ⟨covering_of_under rfl hmap hunder, hexcused.resolve_left id⟩

/-- Images that were opened on any storage, and then used in any way while their storage was shorter
than 2^63 bytes. -/
inductive Handled : Image ι → Prop where
  | opened {image : Image ι} {content content' : Content} {readOnly : Bool}
      (small : content.size < 2 ^ 63)
      (run : (ofDisk image.disk readOnly).runOn sole content = (.ok image, content')) :
      Handled image
  | called {image image' : Image ι} {content content' : Content} {call : ImageCall}
      {result : Except Error Answer} (before : Handled image) (valid : call.Valid)
      (small : content'.size < 2 ^ 63)
      (run : call.engine.runOn sole image content = ((result, image'), content')) : Handled image'

/-- Whatever was on its storage, an image that was handled is covering. -/
theorem Handled.covering (h : image.Handled) : image.Covering := by
  induction h with
  | opened small run =>
    obtain ⟨rfl, hopened⟩ := openedAs_of_ofDisk (by omega) run
    exact hopened.covering
  | @called image image' content content' call result before valid small run ih =>
    have hpost := (ih.call call valid content).runOn_sole call.grows_engine fun other hle => by
      rw [run] at hle
      exact Nat.lt_of_le_of_lt hle small
    rw [run] at hpost
    cases result with
    | ok answer => exact hpost
    | error e => exact hpost.1

end Image

end VirtualDisk
