import VirtualDisk.Proofs.Blocks.Arranged
import VirtualDisk.Proofs.Blocks.Attempts
import VirtualDisk.Proofs.Blocks.Placing
import VirtualDisk.Proofs.Image.Appending
import VirtualDisk.Proofs.Image.Discipline

/-!
# Appending blocks to images

An attempt to append a block to an image either finds a place for it or is refused, and it depends
on the end of the storage which. A refusal leaves the storage as it was, but for the zeros that fill
its last sector if the block would lie too far behind. An attempt that succeeds records where the
block is, unless the number of its sector is the one that stands for no place. Where that does not
happen, blocks keep their places, and the bitmap that is cached can always be stored.
-/

namespace VirtualDisk

open Storage

variable {ι : Type}

theorem Storage.sole_ne_dirtyUnallocated (disk : ι) (request : Request) (content : Content) :
    (sole disk request content).1 ≠ .error (.corrupt .dirtyUnallocated) := by
  intro h
  obtain he | ⟨_, _, _, he⟩ := Medium.of_memory_error h
  · cases he
  · cases he

/-- Maps with the same header whose tables are in the same place. -/
structure BlockMap.SameExtent (map map' : BlockMap) : Prop where
  header : map'.header = map.header
  offset : map'.table.offset = map.table.offset
  size : map'.table.size = map.table.size

/-- No block is recorded as one that is not allocated. -/
def ImageCall.Records (call : ImageCall) (image : Image ι) (content : Content) : Prop :=
  ∀ asked ∈ call.engine.requests sole image content, ¬ asked.2.Blanks

/-- The call writes to the blocks of an image. -/
inductive ImageCall.WritesBlocks (image : Image ι) (offset count : Nat) (buffer : ByteArray) :
    ImageCall → Prop where
  | alone : WritesBlocks image offset count buffer (.writeBlocks offset count buffer)
  | write (mode : image.readOnly = false) :
      WritesBlocks image offset count buffer (.use (.write offset count buffer))

namespace Image

/-- What becomes of an image that is used. The storage may change in any way between the calls. -/
inductive Used (image : Image ι) : Image ι → Prop where
  | fresh : Used image image
  | called {used : Image ι} (before : Used image used) {call : ImageCall} {content : Content}
      (records : call.Records used content) :
      Used image (call.engine.runOn sole used content).1.2

/-- What a call does about the places of blocks. -/
structure Places (image : Image ι) (content : Content) (call : ImageCall) : Prop where
  /-- If the bitmap that is cached has changes, its block has a place. -/
  stored : (call.engine.runOn sole image content).1.1 ≠ .error (.corrupt .dirtyUnallocated)
  /-- Blocks that have a place keep it. -/
  onward : ∀ map, image.blocks? = some map → ∃ map',
    (call.engine.runOn sole image content).1.2.blocks? = some map' ∧ map.Onward map'
  /-- A write does not append a block twice, nor one that has a place. -/
  once : ∀ map offset count buffer, image.blocks? = some map →
    call.WritesBlocks image offset count buffer → Buffer.Holds buffer.size count →
      let blocks :=
        map.appends sole image.disk buffer (image.transfer offset count) offset 0 content
      blocks.Nodup ∧ ∀ block ∈ blocks, map.table.place? block = none

variable {image used : Image ι} {map : BlockMap} {content : Content} {call : ImageCall}

theorem obeys_placing {Q : Answer → Image ι → Prop} {E : Error → Image ι → Prop}
    (h : call.engine.Obeys (.placing ι) Q E image) (records : call.Records image content) :
    Engine.Outcome Q E (call.engine.runOn sole image content).1 :=
  h.runOn_avoiding (fun disk request world hrecords =>
    ⟨hrecords, sole_ne_dirtyUnallocated disk request world⟩) records

/-- The cached bitmap of an image that is used has changes only if its block has a place. -/
theorem Used.grounded (h : image.Used used) (grounded : image.Heeds BlockMap.Grounded) :
    used.Heeds BlockMap.Grounded := by
  induction h with
  | fresh => exact grounded
  | @called used before call content records ih =>
    have post := obeys_placing (call.disciplined (BlockMap.discipline_grounded used.disk) ih
      fun _ => nofun) records
    rcases hrun : (call.engine.runOn sole used content).1 with ⟨result, used'⟩
    rw [hrun] at post
    cases result with
    | ok answer => exact Amid.heeds post ih
    | error e => exact Amid.heeds post.2 ih

theorem requests_writeBlocks (content : Content) (offset : Nat) {count : Nat} {buffer : ByteArray}
    (hmap : image.blocks? = some map) (holds : Buffer.Holds buffer.size count) :
    ∃ rest, (writeBlocks offset count buffer).requests sole image content =
      (BlockMap.writeSectors image.disk buffer (image.transfer offset count) offset 0).requests sole
        map content ++ rest := by
  rw [writeBlocks, Buffer.check_eq holds, Engine.requests_ok_bind, Engine.requests_get_bind,
    Engine.requests_bind, onBlocks, Engine.requests_get_bind, hmap, Engine.requests_on,
    Engine.requests_bind, List.append_assoc]
  exact ⟨_, rfl⟩

theorem requests_of_writesBlocks (content : Content) {offset count : Nat} {buffer : ByteArray}
    (hmap : image.blocks? = some map) (writes : call.WritesBlocks image offset count buffer)
    (holds : Buffer.Holds buffer.size count) :
    ∃ rest, call.engine.requests sole image content =
      (BlockMap.writeSectors image.disk buffer (image.transfer offset count) offset 0).requests sole
        map content ++ rest := by
  obtain ⟨rest, hrequests⟩ := requests_writeBlocks content offset hmap holds
  cases writes with
  | alone =>
    rw [ImageCall.engine, Engine.requests_bind, hrequests, List.append_assoc]
    exact ⟨_, rfl⟩
  | write mode =>
    have hwrite : (write offset count buffer).requests sole image content =
        (writeBlocks offset count buffer).requests sole image content := by
      rw [write, Engine.requests_get_bind, mode, if_neg Bool.false_ne_true]
      cases hlayout : image.layout with
      | fixed => rw [blocks?, hlayout] at hmap; cases hmap
      | dynamic _ => rfl
      | differencing _ => rfl
    rw [ImageCall.engine, Operation.engine, Engine.requests_bind, hwrite, hrequests,
      List.append_assoc]
    exact ⟨_, rfl⟩

/-- A call that records what it appends does right by the places of blocks. -/
theorem places_of_records (grounded : image.Heeds BlockMap.Grounded)
    (records : call.Records image content) : image.Places content call where
  stored he := by
    have post := obeys_placing (call.disciplined (BlockMap.discipline_grounded image.disk) grounded
      fun _ => nofun) records
    rcases hrun : (call.engine.runOn sole image content).1 with ⟨result, image'⟩
    rw [hrun] at post he
    change result = _ at he
    subst he
    exact post.1 rfl
  onward map hmap := by
    have heeds : image.Heeds map.Onward := by
      intro map' hmap'
      rw [hmap, Option.some.injEq] at hmap'
      exact hmap' ▸ .refl (grounded map hmap)
    have post := obeys_placing (call.disciplined (BlockMap.discipline_onward image.disk map) heeds
      fun _ => nofun) records
    have amid : Amid map.Onward image (call.engine.runOn sole image content).1.2 := by
      rcases hrun : (call.engine.runOn sole image content).1 with ⟨result, image'⟩
      rw [hrun] at post
      cases result with
      | ok answer => exact post
      | error e => exact post.2
    obtain heq | ⟨found, map', hfound, onward, heq⟩ := amid
    · rw [heq]
      exact ⟨map, hmap, heeds map hmap⟩
    · rw [heq]
      exact ⟨map', blocks?_withBlocks hfound, onward⟩
  once map offset count buffer hmap writes holds := by
    obtain ⟨rest, hrequests⟩ := requests_of_writesBlocks content hmap writes holds
    unfold ImageCall.Records at records
    rw [hrequests] at records
    refine BlockMap.appends_nodup ?_ (grounded map hmap) fun asked hasked =>
      records asked (List.mem_append_left _ hasked)
    exact sole_ne_dirtyUnallocated

theorem not_blanks_of_size {position : Nat} {data : ByteArray} (h : data.size ≠ 4) :
    ¬ (Request.write position data).Blanks :=
  fun hblanks => h ((congrArg ByteArray.size hblanks).trans (Bytes.size_toByteArray _))

theorem not_blanks_sector {position : Nat} (content : Sector) :
    ¬ (Request.write position content.toByteArray).Blanks :=
  not_blanks_of_size fun h => absurd (content.size_toByteArray.symm.trans h) (by decide)

theorem number_of_blanks {position n : Nat} {bytes : Bytes n}
    (h : (Request.write position bytes.toByteArray).Blanks) :
    ∃ hsize : 4 ≤ n, bytes.number 0 4 hsize = BlockTable.unallocated.toNat := by
  obtain ⟨data, hsize⟩ := bytes
  obtain rfl : data = (Bytes.ofNumber 4 BlockTable.unallocated.toNat).toByteArray := h
  obtain rfl : 4 = n := (Bytes.size_toByteArray _).symm.trans hsize
  exact ⟨Nat.le_refl 4, Bytes.number_ofNumber 4 _⟩

/-- The requests of a storage that stays so short that no block is appended at the sector with the
number that stands for none. -/
def shortBy (disk : ι) : Setting ι where
  disk
  mayFail := False
  within content := content.size + 512 ≤ sizeLimit
  permits request _ := ¬ request.Blanks

theorem regime_shortBy (disk : ι) :
    Regime (shortBy disk) (fun _ => True) fun map _ => WellSized map where
  small content hw := by
    change content.size + 512 ≤ sizeLimit at hw
    rw [sizeLimit] at hw
    omega
  wellSized _ _ h := h
  effect _ _ _ _ h _ _ effect := h.effect effect
  ask map content current request h hw asked := by
    change content.size + 512 ≤ sizeLimit at hw
    cases asked with
    | storeBitmap cached place =>
      refine not_blanks_of_size ?_
      rw [h.size_bytes]
      omega
    | writeData asked place inside => exact not_blanks_sector _
    | trailer missing zeroed extended => exact not_blanks_sector _
    | stray missing extended far inside => exact not_blanks_sector _
    | @zeros _ _ _ bytes _ missing zeroed zero =>
      intro hblanks
      obtain ⟨hsize, hnumber⟩ := number_of_blanks hblanks
      have hzero : bytes.number 0 4 hsize = (Bytes.zero 4).number 0 4 (Nat.le_refl 4) :=
        Bytes.number_congr 4 hsize (Nat.le_refl 4) fun i hi =>
          (zero _ _).trans (Bytes.getElem_zero 4 _ _).symm
      rw [hzero] at hnumber
      exact absurd hnumber (by decide)
    | @record block start _ missing extended =>
      intro hblanks
      obtain ⟨hsize, hnumber⟩ := number_of_blanks hblanks
      rw [Bytes.number_ofNumber] at hnumber
      have hfront := content.front_le
      have hle := extended.start_le
      rw [sizeLimit] at hw
      have near : start < 2 ^ 32 - 1 := by omega
      refine BlockTable.ofNat_ne_unallocated near (UInt32.toNat_inj.mp ?_)
      rw [← hnumber]
      exact (Nat.mod_eq_of_lt (UInt32.toNat_lt _)).symm
    | _ => exact id

theorem records_of_short {offset count : Nat} {buffer : ByteArray} (covering : image.Covering)
    (hmap : image.blocks? = some map)
    (small : ((writeBlocks offset count buffer).runOn sole image content).2.size + 512 ≤
      sizeLimit) : (ImageCall.writeBlocks offset count buffer).Records image content := by
  obtain ⟨hsized, hcovered⟩ := covering map hmap
  have hpost : (writeBlocks offset count buffer).Ensures (shortBy image.disk) _ _ image content :=
    writeBlocks_governed (regime_shortBy image.disk) rfl hmap hcovered hsized fun _ _ => trivial
  have stays : Program.Stays (shortBy image.disk).within sole
      ((writeBlocks offset count buffer).run.run image) content :=
    (grows_writeBlocks offset count buffer image).stays neverShrinks_sole
      fun other hle => Nat.le_trans (Nat.add_le_add_right hle 512) small
  intro asked hasked
  rw [ImageCall.engine, Engine.requests_bind] at hasked
  obtain hasked | hasked := List.mem_append.mp hasked
  · obtain ⟨_, hpermits⟩ := Program.Ensures.requests hpost stays asked hasked
    exact hpermits
  · split at hasked
    · cases hasked
    · cases hasked

variable {disk : ι} {readOnly : Bool} {opened : BlockMap} {prior found : Content}

theorem table_fits_of_opened (prior_lt : prior.size < 2 ^ 64)
    (run : (ofDisk disk readOnly).runOn sole prior = (.ok image, found))
    (blocks : image.blocks? = some opened) (same : opened.SameExtent map) :
    map.table.offset + map.table.size * 4 < 2 ^ 64 := by
  obtain ⟨-, hopened⟩ := openedAs_of_ofDisk prior_lt run
  rw [same.offset, same.size]
  exact (hopened.covering opened blocks).1.table_fits

theorem exists_opened_small : ∃ (image : Image Unit) (content : Content) (header : BlockHeader),
    (ofDisk () false).runOn sole content = (.ok image, content) ∧
      image.blocks? = some (.fresh header (.blank tablePosition 2)) ∧
      SealedWithRoom image.footer (.fresh header (.blank tablePosition 2)) content ∧
      content.size + header.allocationBytes * 2 + 512 ≤ sizeLimit := by
  obtain ⟨image, content, -, hnew⟩ :=
    exists_createDynamic CreateOptions.checkedGeometry_small creatable_small () .empty
  refine ⟨image, content, _, hnew.reopen (by decide), hnew.blocks?_eq (by decide),
    hnew.sealedWithRoom (by decide +kernel), ?_⟩
  rw [hnew.size_eq]
  decide +kernel

/-- A block that the table has is refused where the next sector has no number. -/
theorem allocate_far (disk : ι) (fits : map.table.offset + map.table.size * 4 < 2 ^ 64)
    (size_lt : content.size < 2 ^ 64) {block : Nat} (inside : block < map.table.size)
    (vacant : map.table.place? block = none) (sealed : content.EndsLikeFooter)
    (far : 2 ^ 32 ≤ content.nextSector) (near : content.nextSector * 512 < 2 ^ 64) :
    ∃ content', (map.allocate disk block).runOn sole content =
      (.error (.unsupported .blockOffset), content') := by
  have hpost := (BlockMap.allocate_attempt disk map block fits size_lt).runOn_sole fun _ => trivial
  rcases hrun : (map.allocate disk block).runOn sole content with ⟨result, content'⟩
  rw [hrun] at hpost
  cases result with
  | ok appended =>
    obtain ⟨current, extended, -⟩ := hpost.appended
    have hstart := extended.start_lt
    rw [hpost.start_eq] at hstart
    omega
  | error e =>
    obtain ⟨refusal, -⟩ := hpost
    cases refusal with
    | outside beyond => omega
    | stored place => cases vacant.symm.trans place
    | noFooter missing =>
      rw [Content.trailer, if_pos sealed] at missing
      exact absurd sealed missing
    | overflow beyond => omega
    | tooFar => exact ⟨content', rfl⟩

/-- The footer of an image may stand anywhere behind its storage. -/
theorem onDisk_write_footer {footer : Footer} {header : BlockHeader} {table : BlockTable}
    (h : OnDisk footer header table content) {position : Nat} (behind : content.size ≤ position) :
    OnDisk footer header table (content.write position footer.raw) := by
  have hcopy := h.copy_room
  have hheader := h.header_room
  have htable := h.table_room
  have hsize : (content.write position footer.raw).size = position + 512 := by
    rw [Content.size_write]
    omega
  refine h.of_agree (content.agreeOn_write _ (.inl (by omega)))
    (content.agreeOn_write _ (.inl (by omega))) (content.agreeOn_write _ (.inl (by omega)))
    (by omega) (.inl ?_)
  rw [Content.tail, hsize, Nat.add_sub_cancel]
  exact content.read_write_same position footer.raw

/-- A footer that does not begin a sector is lost where the next sector has no number. -/
theorem not_endsLikeFooter_of_leftBy (sealed : content.EndsLikeFooter)
    (misaligned : content.front % 512 ≠ 0)
    (left : content.LeftBy (.unsupported .blockOffset) found) : ¬ found.EndsLikeFooter := by
  have hsize := sealed.1
  have hfront : content.front = content.size - 512 := if_pos sealed
  have hle := content.front_le_nextSector
  have hlt := content.nextSector_lt
  rw [Content.LeftBy, if_pos ⟨rfl, misaligned⟩] at left
  have hsize' : found.size - 512 = content.front := by
    rw [left.size_eq]
    omega
  refine Content.not_endsLikeFooter ?_
  rw [hsize', left.byte_eq, if_pos (by omega)]

theorem exists_opened_far : ∃ (image : Image Unit) (content : Content) (header : BlockHeader),
    (ofDisk () false).runOn sole content = (.ok image, content) ∧
      image.blocks? = some (.fresh header (.blank tablePosition 2)) ∧
      content.size = 2 ^ 41 + 513 ∧ content.tail = image.footer.raw ∧
      content.EndsLikeFooter := by
  obtain ⟨image, small, -, hnew⟩ :=
    exists_createDynamic CreateOptions.checkedGeometry_small creatable_small () .empty
  have hsmall : small.size = 2560 := hnew.size_eq
  have hsize : (small.write (2 ^ 41 + 1) image.footer.raw).size = 2 ^ 41 + 513 := by
    rw [Content.size_write, hsmall]
    decide
  have onDisk := onDisk_write_footer hnew.onDisk (show small.size ≤ 2 ^ 41 + 1 by omega)
  have hrun := runOn_ofDisk () onDisk (hnew.footer_ne_fixed (by decide)) (by omega) false
  rw [← hnew.eq_opened] at hrun
  have htail : (small.write (2 ^ 41 + 1) image.footer.raw).tail = image.footer.raw := by
    rw [Content.tail, hsize]
    exact small.read_write_same _ _
  refine ⟨image, _, _, hrun, hnew.blocks?_eq (by decide), hsize, htail, by omega, ?_⟩
  rw [htail]
  exact onDisk.copy_eq.2

/-- An attempt to append a block that fails leaves the storage as it was, but for its last sector if
the block would lie too far behind, and in any case the map as it was. -/
theorem refused_allocation (prior_lt : prior.size < 2 ^ 64)
    (run : (ofDisk disk readOnly).runOn sole prior = (.ok image, found))
    (blocks : image.blocks? = some opened) (same : opened.SameExtent map)
    (size_lt : content.size < 2 ^ 64) (block : Nat) :
    (∀ e content', (map.allocate image.disk block).runOn sole content = (.error e, content') →
      Refusal map.table content block e ∧ content.LeftBy e content') ∧
    ∀ e map' content', (BlockMap.ensureAllocated image.disk block).runOn sole map content =
        ((.error e, map'), content') →
      map' = map ∧ Refusal map.table content block e ∧ content.LeftBy e content' := by
  have hmap := table_fits_of_opened prior_lt run blocks same
  constructor
  · intro e content' hrun
    have hpost := (BlockMap.allocate_attempt image.disk map block hmap size_lt).runOn_sole
      fun _ => trivial
    rw [hrun] at hpost
    exact hpost
  · intro e map' content' hrun
    have hpost := (BlockMap.ensureAllocated_attempt image.disk map block hmap size_lt).runOn_sole
      (BlockMap.grows_ensureAllocated image.disk block) fun _ _ => trivial
    rw [hrun] at hpost
    exact hpost

/-- A block outside the table is refused on the storage that was opened, and so is a block of the
table where the footer stands too far behind, but then the footer is gone. -/
theorem refused_allocation_small : ∃ (image : Image Unit) (prior content : Content)
    (opened : BlockMap), prior.size < 2 ^ 64 ∧
      (ofDisk () false).runOn sole prior = (.ok image, prior) ∧ image.blocks? = some opened ∧
      opened.SameExtent opened ∧ prior.tail = image.footer.raw ∧
      (opened.allocate image.disk 2).runOn sole prior =
        (.error (.corrupt .blockOutOfRange), prior) ∧
      Refusal opened.table prior 2 (.corrupt .blockOutOfRange) ∧
      prior.LeftBy (.corrupt .blockOutOfRange) prior ∧
      (opened.allocate image.disk 0).runOn sole prior =
        (.error (.unsupported .blockOffset), content) ∧
      Refusal opened.table prior 0 (.unsupported .blockOffset) ∧
      prior.LeftBy (.unsupported .blockOffset) content ∧ ¬ content.EndsLikeFooter := by
  obtain ⟨image, prior, header, run, blocks, hsize, htail, sealed⟩ := exists_opened_far
  have size_lt : prior.size < 2 ^ 64 := by omega
  have same : (BlockMap.fresh header (.blank tablePosition 2)).SameExtent _ := ⟨rfl, rfl, rfl⟩
  have hfront : prior.front = 2 ^ 41 + 1 := by
    rw [Content.front, if_pos sealed, hsize]
    rfl
  have hnext : prior.nextSector = 2 ^ 32 + 1 := by
    rw [Content.nextSector, hfront]
    rfl
  have outside : ((BlockMap.fresh header (.blank tablePosition 2)).allocate image.disk 2).runOn sole
      prior = (.error (.corrupt .blockOutOfRange), prior) := rfl
  have inside : 0 < (BlockTable.blank tablePosition 2).size := by decide
  obtain ⟨content, far⟩ := allocate_far image.disk (table_fits_of_opened size_lt run blocks same)
    size_lt inside (BlockTable.place?_blank _ _ _) sealed (by omega) (by omega)
  obtain ⟨hrefused, -⟩ := refused_allocation size_lt run blocks same size_lt 2
  obtain ⟨hrefused', -⟩ := refused_allocation size_lt run blocks same size_lt 0
  obtain ⟨houtside, hkept⟩ := hrefused _ _ outside
  obtain ⟨hfar, hleft⟩ := hrefused' _ _ far
  exact ⟨image, prior, content, _, size_lt, run, blocks, same, htail, outside, houtside, hkept, far,
    hfar, hleft, not_endsLikeFooter_of_leftBy sealed (by omega) hleft⟩

/-- An attempt to append a block that succeeds records where the block is, unless its sector has the
number that stands for none. As long as that does not happen, every call finds a place for the
bitmap that is cached, blocks keep their places, and no block is appended twice. -/
theorem granted_allocation (prior_lt : prior.size < 2 ^ 64)
    (run : (ofDisk disk readOnly).runOn sole prior = (.ok image, found))
    (blocks : image.blocks? = some opened) :
    (∀ map content block start table content', opened.SameExtent map → content.size < 2 ^ 64 →
      (map.allocate image.disk block).runOn sole content = (.ok (start, table), content') →
        start = content.nextSector ∧ start < 2 ^ 32 ∧
          table.sector? block = .ok (if start = 2 ^ 32 - 1 then none else some start)) ∧
    ∀ used, image.Used used → ∀ call content, ImageCall.Records call used content →
      used.Places content call := by
  constructor
  · intro map content block start table content' same size_lt hrun
    have hpost := (BlockMap.allocate_attempt image.disk map block
      (table_fits_of_opened prior_lt run blocks same) size_lt).runOn_sole fun _ => trivial
    rw [hrun] at hpost
    obtain ⟨current, extended, -⟩ := hpost.appended
    exact ⟨hpost.start_eq, extended.start_lt, hpost.sector?_eq⟩
  · intro used hused call content records
    refine places_of_records (hused.grounded fun map hmap => ?_) records
    obtain ⟨-, hopened⟩ := openedAs_of_ofDisk prior_lt run
    rw [(hopened.eq_fresh hmap).2]
    exact fun hdirty => absurd hdirty Bool.false_ne_true

/-- On a small disk, of which the first sector is written. -/
theorem granted_allocation_small : ∃ (image : Image Unit) (prior : Content) (opened : BlockMap),
    prior.size < 2 ^ 64 ∧ (ofDisk () false).runOn sole prior = (.ok image, prior) ∧
      image.blocks? = some opened ∧ image.Used image ∧
      (ImageCall.writeBlocks 0 1 (Bytes.replicate 512 0x5a).toByteArray).Records image prior ∧
      image.Places prior (.writeBlocks 0 1 (Bytes.replicate 512 0x5a).toByteArray) := by
  obtain ⟨image, prior, header, run, blocks, sealedWithRoom, room⟩ := exists_opened_small
  have hholds : Buffer.Holds (Bytes.replicate 512 0x5a).toByteArray.size 1 :=
    Buffer.holds_sector _
  obtain ⟨truncated, map', content', hwrite, -, hadvance⟩ :=
    exists_writeBlocks blocks sealedWithRoom 0 hholds
  have small : ((writeBlocks 0 1 (Bytes.replicate 512 0x5a).toByteArray).runOn sole image
      prior).2.size + 512 ≤ sizeLimit := by
    obtain ⟨-, hsize⟩ := hadvance.balance sealedWithRoom.isSealed
    change content'.size + header.allocationBytes * map'.table.vacant =
      prior.size + header.allocationBytes * 2 at hsize
    rw [hwrite]
    change content'.size + 512 ≤ sizeLimit
    omega
  obtain ⟨-, hopened⟩ := openedAs_of_ofDisk sealedWithRoom.size_lt run
  have records := records_of_short hopened.covering blocks small
  exact ⟨image, prior, _, sealedWithRoom.size_lt, run, blocks, .fresh, records,
    (granted_allocation sealedWithRoom.size_lt run blocks).2 image .fresh _ _ records⟩

end Image

end VirtualDisk
