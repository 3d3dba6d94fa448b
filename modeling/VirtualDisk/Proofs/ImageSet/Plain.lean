import VirtualDisk.Proofs.Image.Splitting
import VirtualDisk.Proofs.ImageSet.Assembling
import VirtualDisk.Proofs.ImageSet.Calls
import VirtualDisk.Proofs.ImageSet.Twins

/-!
# Reads through chains and plain reads

A read through the chain of an image that needs no parent is a plain read of that image, up to the
block that is cached in the end, although it is done sector by sector. Through any chain, a sector
is read the same whether it is read alone or in a request, and whatever is cached.
-/

namespace VirtualDisk

open Storage

variable {ι : Type}

namespace ImageSet

section Own

variable {ω : Type} {server : Server ι ω} {world world' : ω} {set : ImageSet ι}
variable {member : Member ι} {id sector count slot offset : Nat} {buffer buffer' : ByteArray}

theorem runOn_resolve_self (hmember : set.member id = .ok member)
    (hkind : member.image.diskType ≠ .differencing) (sector : Nat) (server : Server ι ω)
    (world : ω) : (resolve sector id).runOn server set world = ((.ok id, set), world) := by
  rw [resolve, Engine.runOn_bind_ok (Engine.runOn_get ..), hmember,
    Engine.runOn_bind_ok (Engine.runOn_liftExcept ..), if_pos (.inl hkind)]
  rfl

variable {map map' : BlockMap}

theorem runOn_readSector_of_blocks (hmember : set.member id = .ok member)
    (hlayout : member.image.layout = .dynamic map) (inside : sector < member.image.totalSectors)
    {bytes : Sector} (run : (BlockMap.readSector member.image.disk sector).runOn server map world =
      ((.ok bytes, map'), world')) :
    (readSector id sector).runOn server set world =
      ((.ok bytes, set.put id member (member.image.withBlocks map')), world') := by
  have hkind : member.image.diskType ≠ .differencing := by
    intro hkind
    rw [Image.diskType, hlayout] at hkind
    cases hkind
  have hmap : member.image.blocks? = some map := congrArg Layout.blocks? hlayout
  have hone := SetState.transfer_one inside
  have hroom : 0 * 512 + 512 ≤ (Bytes.zero 512).toByteArray.size :=
    Nat.le_of_eq (Bytes.size_toByteArray _).symm
  obtain ⟨filled, hfill, hfilled⟩ := Buffer.exists_fill bytes hroom
  have hsectors : (BlockMap.readSectors member.image.disk (member.image.transfer sector 1) sector 0
      (Bytes.zero 512).toByteArray).runOn server map world = ((.ok filled, map'), world') := by
    rw [hone, BlockMap.readSectors, Engine.runOn_bind_ok run, Buffer.fillSector, hfill]
    rfl
  have hread := Image.runOn_readBlocks hmap (Buffer.holds_sector (Bytes.zero 512)) hsectors
  have hself : (onImage id (Image.readBlocks sector 1 (Bytes.zero 512).toByteArray)).runOn server
      set world =
        ((.ok ⟨0, filled⟩, set.put id member (member.image.withBlocks map')), world') := by
    rw [runOn_onImage hmember, hread, hone]
  rw [readSector, Engine.runOn_bind_ok (runOn_resolve_self hmember hkind sector server world),
    Engine.runOn_bind_ok (Engine.runOn_get ..), image_eq_ok hmember,
    Engine.runOn_bind_ok (Engine.runOn_liftExcept ..)]
  simp only [hlayout]
  rw [Engine.runOn_bind_ok hself, if_neg (not_not.mpr rfl),
    Buffer.sector_eq (hfilled.size_eq.symm ▸ hroom), Buffer.Shows.slot_of_filled hfilled hroom]
  rfl

/-- The sectors of a dynamic image are read from its blocks one after the other, as the image itself
does it. -/
theorem runOn_readSectors_of_blocks (hmember : set.member id = .ok member)
    (hlayout : member.image.layout = .dynamic map)
    (inside : ∀ k, k < count → sector + k < member.image.totalSectors)
    (run : (BlockMap.readSectors member.image.disk count sector slot buffer).runOn server map
      world = ((.ok buffer', map'), world')) :
    (readSectors id count sector slot buffer).runOn server set world =
      ((.ok buffer', set.put id member (member.image.withBlocks map')), world') := by
  induction count generalizing set member map world sector slot buffer with
  | zero =>
    cases run
    rw [Image.withBlocks_self (congrArg Layout.blocks? hlayout), put_self hmember]
    rfl
  | succ count ih =>
    obtain ⟨bytes, _, _, hfirst, hrest⟩ := Engine.of_runOn_bind run
    obtain ⟨filled, map₁, world₁, hfill, hothers⟩ := Engine.of_runOn_bind hrest
    obtain ⟨hresult, rfl, rfl⟩ := Engine.of_runOn_liftExcept hfill
    have hlayout₁ : (member.image.withBlocks map₁).layout = .dynamic map₁ := by
      rw [Image.withBlocks, hlayout, Layout.setBlocks]
    have hself : (set.put id member (member.image.withBlocks map₁)).member id =
        .ok { member with image := member.image.withBlocks map₁ } := member_put_self hmember
    have inside₁ : ∀ k, k < count → sector + 1 + k < member.image.totalSectors := by
      intro k hk
      rw [Nat.add_assoc, Nat.add_comm 1]
      exact inside (k + 1) (Nat.succ_lt_succ hk)
    have hnext := ih hself hlayout₁ inside₁ hothers
    rw [put_put, Image.withBlocks_withBlocks] at hnext
    have hinside : sector < member.image.totalSectors := inside 0 (Nat.succ_pos count)
    have hone := runOn_readSector_of_blocks hmember hlayout hinside hfirst
    rw [readSectors, Engine.runOn_bind_ok hone, hresult,
      Engine.runOn_bind_ok (Engine.runOn_liftExcept ..)]
    exact hnext

end Own

section Flat

variable [DecidableEq ι] {contents : ι → Content} {set : ImageSet ι} {member : Member ι}
variable {id sector count slot : Nat} {buffer : ByteArray}

theorem runOn_readSector_of_fixed (hmember : set.member id = .ok member)
    (fixed : member.image.layout = .fixed) (inside : sector < member.image.totalSectors)
    (stored : (sector + 1) * 512 ≤ (contents member.image.disk).size) :
    (readSector id sector).runOn shelf set contents =
      ((.ok ((contents member.image.disk).flatSector sector), set), contents) := by
  have hkind : member.image.diskType ≠ .differencing := by
    intro hkind
    rw [Image.diskType, fixed] at hkind
    cases hkind
  have hone := SetState.transfer_one inside
  have inside' : member.image.Inside sector 1 (contents member.image.disk) := by
    rw [Image.Inside, hone]
    exact fun _ => stored
  obtain ⟨result, hread, htruncated, hshows⟩ :=
    Image.exists_readFlat (Buffer.holds_sector (Bytes.zero 512)) inside'
  have hsize : 0 * 512 + 512 ≤ result.buffer.size :=
    Nat.le_of_eq (hshows.size_eq.trans (Bytes.size_toByteArray _)).symm
  have hflat : (liftM (member.image.readFlat sector 1 (Bytes.zero 512).toByteArray) :
      Engine ι (ImageSet ι) ReadResult).runOn shelf set contents =
        ((.ok result, set), contents) := by
    rw [Engine.runOn_liftAccess, Image.runOn_readFlat_shelf, hread]
  rw [hone] at htruncated hshows
  rw [readSector, Engine.runOn_bind_ok (runOn_resolve_self hmember hkind sector shelf contents),
    Engine.runOn_bind_ok (Engine.runOn_get ..), image_eq_ok hmember,
    Engine.runOn_bind_ok (Engine.runOn_liftExcept ..)]
  simp only [fixed]
  rw [Engine.runOn_bind_ok hflat, if_neg (not_not.mpr htruncated), Buffer.sector_eq hsize,
    hshows.slot_eq 0 Nat.one_pos]
  rfl

theorem runOn_readSectors_of_fixed (hmember : set.member id = .ok member)
    (fixed : member.image.layout = .fixed)
    (inside : ∀ k, k < count → sector + k < member.image.totalSectors ∧
      (sector + k + 1) * 512 ≤ (contents member.image.disk).size)
    (hroom : (slot + count) * 512 ≤ buffer.size) :
    ∃ buffer', (readSectors id count sector slot buffer).runOn shelf set contents =
        ((.ok buffer', set), contents) ∧
      Buffer.Shows (contents member.image.disk).flatSector sector slot count buffer buffer' := by
  induction count generalizing sector slot buffer with
  | zero => exact ⟨buffer, rfl, .nothing ..⟩
  | succ count ih =>
    have hslot : slot * 512 + 512 ≤ buffer.size := by omega
    obtain ⟨filled, hfill, hfilled⟩ :=
      Buffer.exists_fill ((contents member.image.disk).flatSector sector) hslot
    have hfill' : Buffer.fillSector buffer slot _ = .ok filled := hfill
    have hroom' : (slot + 1 + count) * 512 ≤ filled.size := by
      rw [hfilled.size_eq]
      lia
    have inside₁ : ∀ k, k < count → sector + 1 + k < member.image.totalSectors ∧
        (sector + 1 + k + 1) * 512 ≤ (contents member.image.disk).size := by
      intro k hk
      rw [Nat.add_assoc sector, Nat.add_comm 1]
      exact inside (k + 1) (Nat.succ_lt_succ hk)
    obtain ⟨buffer', hothers, hshows⟩ := ih inside₁ hroom'
    obtain ⟨hinside, hstored⟩ : sector < member.image.totalSectors ∧
        (sector + 1) * 512 ≤ (contents member.image.disk).size := inside 0 (Nat.succ_pos count)
    have hone := runOn_readSector_of_fixed hmember fixed hinside hstored
    refine ⟨buffer', ?_, .cons hfilled hslot hshows⟩
    rw [readSectors, Engine.runOn_bind_ok hone, hfill',
      Engine.runOn_bind_ok (Engine.runOn_liftExcept ..)]
    exact hothers

end Flat

variable [DecidableEq ι] {contents contents' : ι → Content} {set : ImageSet ι} {member : Member ι}
variable {id offset count : Nat} {buffer : ByteArray} {result : ReadResult} {image' : Image ι}

theorem runOn_readChain_of_read (hmember : set.member id = .ok member)
    (exact : member.image.Exact (contents member.image.disk))
    (run : (Image.read offset count buffer).runOn shelf member.image contents =
      ((.ok result, image'), contents')) :
    contents' = contents ∧ (readChain id offset count buffer).runOn shelf set contents =
      ((.ok result, set.put id member image'), contents) := by
  have hshelf := (Image.read_keeps_exact Protocol.watching_reads exact offset count
    buffer).runOn_shelf
  obtain rfl : contents' = contents := by
    rw [hshelf.1] at run
    exact (Prod.mk.inj run).2.symm
  refine ⟨rfl, ?_⟩
  have inside : ∀ k, k < member.image.transfer offset count →
      offset + k < member.image.totalSectors := by
    intro k hk
    rw [Image.transfer] at hk
    omega
  have hchain : ∀ {buffer' set' truncated}, Buffer.Holds buffer.size count →
      (readSectors id (member.image.transfer offset count) offset 0 buffer).runOn shelf set
        contents' = ((.ok buffer', set'), contents') →
      truncated = count - member.image.transfer offset count →
      (readChain id offset count buffer).runOn shelf set contents' =
        ((.ok ⟨truncated, buffer'⟩, set'), contents') := by
    rintro buffer' set' _ hbuffer hsectors rfl
    rw [readChain, Buffer.check_eq hbuffer, Engine.runOn_bind_ok (Engine.runOn_liftExcept ..),
      Engine.runOn_bind_ok (Engine.runOn_get ..), image_eq_ok hmember,
      Engine.runOn_bind_ok (Engine.runOn_liftExcept ..)]
    exact Engine.runOn_bind_ok hsectors _
  rw [Image.read, Engine.runOn_bind_ok (Engine.runOn_get ..)] at run
  cases hlayout : member.image.layout with
  | fixed =>
    rw [hlayout] at run
    dsimp only at run
    rw [Engine.runOn_liftAccess, Image.runOn_readFlat_shelf] at run
    rcases hread : (member.image.readFlat offset count buffer).runOn sole
      (contents' member.image.disk) with ⟨found, content'⟩
    rw [hread] at run
    cases run
    obtain ⟨-, ⟨hbuffer, stored⟩, htruncated, hshows⟩ := Image.of_runOn_readFlat hread
    have inside' : ∀ k, k < member.image.transfer offset count →
        offset + k < member.image.totalSectors ∧
          (offset + k + 1) * 512 ≤ (contents' member.image.disk).size := by
      intro k hk
      have hstored := stored (Nat.ne_of_gt (Nat.zero_lt_of_lt hk))
      exact ⟨inside k hk, by lia⟩
    have hroom := member.image.transfer_slots offset hbuffer
    obtain ⟨buffer', hsectors, hshows'⟩ :=
      runOn_readSectors_of_fixed hmember hlayout inside' hroom
    have hsame := hshows.unique hshows' (by lia)
    rw [put_self hmember]
    exact hchain hbuffer (hsame ▸ hsectors) htruncated
  | dynamic map =>
    rw [hlayout] at run
    obtain ⟨hbuffer, htruncated, map', rfl, hsectors⟩ :=
      Image.of_runOn_readBlocks (congrArg Layout.blocks? hlayout) run
    exact hchain hbuffer (runOn_readSectors_of_blocks hmember hlayout inside hsectors) htruncated
  | differencing map =>
    rw [hlayout] at run
    cases run

omit [DecidableEq ι] in
theorem Exact.push (h : set.Exact contents) {image : Image ι}
    (exact : image.Exact (contents image.disk)) (parent : Option Nat) :
    (set.push image parent).2.Exact contents := by
  intro id member hmember
  obtain ⟨-, rfl⟩ | ⟨-, hbefore⟩ := of_member_push hmember
  · exact exact
  · exact h id member hbefore

end ImageSet

open ImageSet in
/-- A read through a chain has the result of a plain read of the image, where that is possible, and
leaves the same set behind. In each slot it has what a read of that sector alone has, whatever is
cached. No storage is changed. -/
theorem chains_read_plainly [DecidableEq ι] {set : ImageSet ι} {contents : ι → Content}
    (exact : set.Exact contents) :
    (∀ (id offset count : Nat) (buffer : ByteArray) (member : Member ι) (result : ReadResult)
      (image' : Image ι) (contents' : ι → Content), set.member id = .ok member →
      (Image.read offset count buffer).runOn shelf member.image contents =
        ((.ok result, image'), contents') →
      contents' = contents ∧ (readChain id offset count buffer).runOn shelf set contents =
        ((.ok result, set.put id member image'), contents)) ∧
    ∀ (id offset count : Nat) (buffer : ByteArray) (result : ReadResult) (set' : ImageSet ι)
      (contents' : ι → Content),
      (readChain id offset count buffer).runOn shelf set contents =
        ((.ok result, set'), contents') →
      contents' = contents ∧ set.Twin set' contents ∧ ∀ (k : Nat), k < count - result.truncated →
        ∀ (other : ImageSet ι) (single : ByteArray), set.Twin other contents →
          Buffer.Holds single.size 1 → ∃ (result' : ReadResult) (other' : ImageSet ι),
            (readChain id (offset + k) 1 single).runOn shelf other contents =
              ((.ok result', other'), contents) ∧
            result'.truncated = 0 ∧
            Buffer.slot result'.buffer 0 = Buffer.slot result.buffer k := by
  refine ⟨?_, ?_⟩
  · intro id offset count buffer member result image' contents' hmember run
    exact runOn_readChain_of_read hmember (exact id member hmember) run
  · intro id offset count buffer result set' contents' run
    obtain ⟨hcontents, htwin, -, member, hmember, htruncated, hfinds, hshows⟩ :=
      exact.of_readChain run
    refine ⟨hcontents, htwin, fun k hk other single twin holds => ?_⟩
    have htransfer : k < member.image.transfer offset count := by
      have hle := member.image.transfer_le_count offset count
      omega
    have inside : offset + k < member.image.totalSectors := by
      rw [Image.transfer] at htransfer
      omega
    have hone := SetState.transfer_one inside
    have halone : ∀ j, j < member.image.transfer (offset + k) 1 →
        set.Finds contents (readSector id (offset + k + j))
          (.ok (set.shown contents id (offset + k + j))) := by
      intro j hj
      obtain rfl : j = 0 := by omega
      exact hfinds k htransfer
    obtain ⟨buffer', hsingle, hshows'⟩ := exists_readChain_finds hmember holds halone
    obtain ⟨other', -, hrun⟩ := hsingle other twin
    refine ⟨_, other', hrun, ?_, ?_⟩
    · rw [hone]
    · have hslot := hshows.slot_eq k htransfer
      rw [Nat.zero_add] at hslot
      rw [hslot]
      exact hshows'.slot_eq 0 (by rw [hone]; exact Nat.one_pos)

theorem SetState.Sound.exists_readChain [DecidableEq ι] {state : SetState ι} (h : state.Sound)
    {id : Nat} {member : Member ι} (hmember : state.set.member id = .ok member)
    (hsize : 2 ≤ member.image.totalSectors) :
    ∃ (result : ReadResult) (set' : ImageSet ι),
      (ImageSet.readChain id 0 2 (Bytes.zero 1024).toByteArray).runOn shelf state.set
        state.contents = ((.ok result, set'), state.contents) ∧ result.truncated = 0 := by
  have holds : Buffer.Holds (Bytes.zero 1024).toByteArray.size 2 := by
    rw [Bytes.size_toByteArray]
    exact ⟨by decide, by decide⟩
  obtain ⟨result, set', contents', hrun, ⟨htruncated, -⟩, onlyRead⟩ :=
    h.readChain_succeeds hmember holds 0
  obtain rfl : contents' = state.contents := onlyRead.contents_eq
  refine ⟨result, set', hrun, ?_⟩
  rw [htruncated, Image.transfer]
  omega

open ImageSet in
/-- Two sectors of a differencing image, at once and alone. -/
theorem chains_read_plainly_small : ∃ (contents : Bool → Content) (set set' : ImageSet Bool)
    (result : ReadResult), set.Exact contents ∧
    (readChain 1 0 2 (Bytes.zero 1024).toByteArray).runOn shelf set contents =
      ((.ok result, set'), contents) ∧
    ∃ (result' : ReadResult) (other' : ImageSet Bool),
      (readChain 1 1 1 (Bytes.zero 512).toByteArray).runOn shelf set' contents =
        ((.ok result', other'), contents) ∧
      Buffer.slot result'.buffer 0 = Buffer.slot result.buffer 1 := by
  obtain ⟨contents, parent, child, written, hparent, hchild, assembled, small⟩ :=
    exists_chain_small
  have htotal : child.totalSectors = 16 := by
    rw [Image.totalSectors, hchild.readAs.geometry]
    rfl
  have hmember : ((ImageSet.empty.push parent none).2.push child (some 0)).2.member 1 =
      .ok ⟨child, some 0⟩ := member_push_self
  have hempty : ImageSet.empty.Exact contents :=
    fun id _ hnone => absurd (lt_size hnone) (Nat.not_lt_zero id)
  have exact : ((ImageSet.empty.push parent none).2.push child (some 0)).2.Exact contents := by
    apply (hempty.push _ _).push
    · rw [hchild.disk_eq]
      exact hchild.exact (by decide)
    · rw [hparent.disk_eq]
      exact hparent.exact (by decide)
  obtain ⟨result, set', hrun, htruncated⟩ := (assembled.sound small).exists_readChain hmember
    (by rw [htotal]; decide)
  obtain ⟨-, twin, halone⟩ := (chains_read_plainly exact).2 1 0 2 _ result set' contents hrun
  obtain ⟨result', other', hrun', -, hslot⟩ := halone 1 (by rw [htruncated]; decide) set'
    (Bytes.zero 512).toByteArray twin (Buffer.holds_sector _)
  exact ⟨contents, _, set', result, exact, hrun, result', other', hrun', hslot⟩

end VirtualDisk
