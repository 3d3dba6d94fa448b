import VirtualDisk.Proofs.Blocks.Governed
import VirtualDisk.Proofs.Image.Operations

/-!
# Images under a regime

The invariant of a regime is about blocks. An image keeps its footer, its storage and its mode, so
every operation on it keeps the invariant, too. Whatever is wrong with the storage, an operation
with a good buffer does not fail for a cause that blames the library.
-/

namespace VirtualDisk

open Storage

namespace Image

variable {ι : Type} {S : Setting ι} {wanted : Nat → Prop} {I : BlockMap → Content → Prop}
variable {image : Image ι} {map : BlockMap} {content : Content} {offset count : Nat}
variable {buffer : ByteArray}

/-- The image differs from another one in its blocks only, and they keep the invariant. -/
def Under (I : BlockMap → Content → Prop) (image image' : Image ι) (content' : Content) : Prop :=
  ∃ map', image' = image.withBlocks map' ∧ I map' content'

theorem under_self (hmap : image.blocks? = some map) (h : I map content) :
    Under I image image content :=
  ⟨map, (withBlocks_self hmap).symm, h⟩

/-- The blocks of the sectors that a request transfers are wanted. -/
def Wants (wanted : Nat → Prop) (image : Image ι) (map : BlockMap) (offset count : Nat) : Prop :=
  ∀ k, k < image.transfer offset count → wanted ((offset + k) / map.header.sectorsPerBlock)

/-- The blocks of the sectors that a request transfers are wanted, where they are stored. -/
def Seeks (wanted : Nat → Prop) (image : Image ι) (map : BlockMap) (offset count : Nat) : Prop :=
  ∀ k, k < image.transfer offset count →
    Sought wanted map.table ((offset + k) / map.header.sectorsPerBlock)

theorem lt_capacity_of_covered (covered : image.totalSectors ≤ map.capacity) {k : Nat}
    (hk : k < image.transfer offset count) : offset + k < map.capacity := by
  rw [transfer] at hk
  omega

theorem readBlocks_governed (R : Regime S wanted I) (hdisk : image.disk = S.disk)
    (hmap : image.blocks? = some map) (covered : image.totalSectors ≤ map.capacity)
    (h : I map content) (sought : Seeks wanted image map offset count) :
    (readBlocks offset count buffer).Ensures S
      (fun result image' content' => Under I image image' content' ∧
        result.buffer.size = buffer.size)
      (fun e image' content' => Under I image image' content' ∧
        (Buffer.Holds buffer.size count → S.Excused e)) image content := by
  refine ensures_readBlocks hdisk hmap (fun hbuffer => ?_) fun hbuffer _ =>
    ⟨under_self hmap h, fun hfits => absurd hfits hbuffer⟩
  refine (BlockMap.readSectors_governed R _ offset 0 buffer h sought
    (fun k hk => lt_capacity_of_covered covered hk)
    (image.transfer_slots offset hbuffer)).mono ?_ ?_
  · rintro buffer' map' content' _ ⟨h', -, -, hsize⟩
    exact ⟨⟨map', rfl, h'⟩, hsize⟩
  · rintro e map' content' _ ⟨h', hexcused⟩
    exact ⟨⟨map', rfl, h'⟩, fun _ => hexcused⟩

theorem writeBlocks_governed (R : Regime S wanted I) (hdisk : image.disk = S.disk)
    (hmap : image.blocks? = some map) (covered : image.totalSectors ≤ map.capacity)
    (h : I map content) (asked : Wants wanted image map offset count) :
    (writeBlocks offset count buffer).Ensures S
      (fun _ image' content' => Under I image image' content')
      (fun e image' content' => Under I image image' content' ∧
        (Buffer.Holds buffer.size count → S.Excused e)) image content := by
  refine ensures_writeBlocks hdisk hmap (fun hbuffer => ?_) fun hbuffer _ =>
    ⟨under_self hmap h, fun hfits => absurd hfits hbuffer⟩
  refine (BlockMap.writeSectors_governed R buffer _ offset 0 h asked
    (fun k hk => lt_capacity_of_covered covered hk)
    (image.transfer_slots offset hbuffer)).mono ?_ ?_
  · rintro _ map' content' _ ⟨h', -, -⟩
    refine (BlockMap.flush_governed R h').mono ?_ ?_
    · rintro _ map'' content'' _ ⟨h'', -, -⟩
      exact ⟨map'', rfl, h''⟩
    · rintro e map'' content'' _ ⟨h'', hexcused⟩
      exact ⟨⟨map'', rfl, h''⟩, fun _ => hexcused⟩
  · rintro e map' content' _ ⟨h', hexcused⟩
    exact ⟨⟨map', rfl, h'⟩, fun _ => hexcused⟩

theorem flush_governed (R : Regime S wanted I) (hdisk : image.disk = S.disk)
    (hmap : image.blocks? = some map) (h : I map content) :
    (flush : Engine ι (Image ι) Unit).Ensures S
      (fun _ image' content' => Under I image image' content')
      (fun e image' content' => Under I image image' content' ∧ S.Excused e) image content := by
  simp only [flush, Engine.ensures_bind, Engine.ensures_get, hmap, Option.isSome_some, if_true]
  intro _
  refine ensures_onBlocks hdisk hmap ?_
  refine (BlockMap.flush_governed R h).mono ?_ ?_
  · rintro _ map' content' hw ⟨h', -, -⟩
    rw [Engine.ensures_liftAccess, hdisk]
    exact .flush (R.ask _ _ _ _ h' hw .sync) ⟨map', rfl, h'⟩ fun hm _ =>
      ⟨⟨map', rfl, h'⟩, .inl hm⟩
  · rintro e map' content' _ ⟨h', hexcused⟩
    exact ⟨⟨map', rfl, h'⟩, hexcused⟩

theorem holds_governed (R : Regime S wanted I) (hdisk : image.disk = S.disk)
    (hmap : image.blocks? = some map) (covered : image.totalSectors ≤ map.capacity)
    (h : I map content) {sector : Nat}
    (sought : Sought wanted map.table (sector / map.header.sectorsPerBlock))
    (hsector : sector < image.totalSectors) :
    (onBlocks fun disk => BlockMap.holds disk sector).Ensures S
      (fun _ image' content' => Under I image image' content')
      (fun e image' content' => Under I image image' content' ∧ S.Excused e) image content := by
  refine ensures_onBlocks hdisk hmap ?_
  refine (BlockMap.holds_governed R h sought (Nat.lt_of_lt_of_le hsector covered)).mono ?_ ?_
  · rintro _ map' content' _ ⟨h', -, -⟩
    exact ⟨map', rfl, h'⟩
  · rintro e map' content' _ ⟨h', hexcused⟩
    exact ⟨⟨map', rfl, h'⟩, hexcused⟩

end Image

namespace Operation

variable {ι : Type} {S : Setting ι} {wanted : Nat → Prop} {I : BlockMap → Content → Prop}
variable {image : Image ι} {map : BlockMap} {content : Content}

/-- The blocks of the sectors that an operation transfers are wanted. -/
def Wants (wanted : Nat → Prop) (image : Image ι) (map : BlockMap) : Operation → Prop
  | read offset count _ => image.Seeks wanted map offset count
  | write offset count _ => image.Wants wanted map offset count
  | flush => True

theorem wants_all (image : Image ι) (map : BlockMap) (op : Operation) :
    op.Wants (fun _ => True) image map := by
  cases op with
  | read offset count buffer => exact fun _ _ => .of_wanted trivial _
  | write offset count buffer => exact fun _ _ => trivial
  | flush => trivial

/-- An operation on an image with blocks keeps the invariant. -/
theorem governed (R : Regime S wanted I) (hdisk : image.disk = S.disk)
    (hmap : image.blocks? = some map) (covered : image.totalSectors ≤ map.capacity)
    (h : I map content) (op : Operation) (asked : op.Wants wanted image map) :
    op.engine.Ensures S
      (fun _ image' content' => Image.Under I image image' content')
      (fun e image' content' => Image.Under I image image' content' ∧ (op.Valid → S.Excused e))
      image content := by
  cases op with
  | read offset count buffer =>
    simp only [engine, Engine.ensures_bind, Engine.ensures_pure]
    refine Image.read_ensures hmap (fun _ => ?_) fun _ =>
      ⟨Image.under_self hmap h, fun _ => .inr id⟩
    exact (Image.readBlocks_governed R hdisk hmap covered h asked).mono_success
      fun _ _ _ _ h' _ => h'.1
  | write offset count buffer =>
    simp only [engine, Engine.ensures_bind, Engine.ensures_pure]
    refine Image.write_ensures hmap (fun _ _ => Image.under_self hmap h) fun _ => ?_
    exact (Image.writeBlocks_governed R hdisk hmap covered h asked).mono_success
      fun _ _ _ _ h' _ => h'
  | flush =>
    simp only [engine, Engine.ensures_bind, Engine.ensures_pure]
    refine (Image.flush_governed R hdisk hmap h).mono (fun _ _ _ _ h' _ => h') ?_
    exact fun _ _ _ _ hfailed => ⟨hfailed.1, fun _ => hfailed.2⟩

end Operation

end VirtualDisk
