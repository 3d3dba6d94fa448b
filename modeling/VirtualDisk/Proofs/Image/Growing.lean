import VirtualDisk.Image.Transfer
import VirtualDisk.Image.Open
import VirtualDisk.Proofs.Storage.Growth

/-!
# Operations on images never shrink a storage
-/

namespace VirtualDisk

open Storage

variable {ι : Type}

namespace Storage.Access

theorem grows_zeroChunks (disk : ι) (count offset size : Nat) :
    (zeroChunks disk count offset size).Grows := by
  induction count generalizing offset size with
  | zero => exact grows_pure _
  | succ count ih =>
    simp only [zeroChunks]
    split
    · exact grows_bind (grows_ask disk trivial) fun _ => grows_guard (ih _ _)
    · exact grows_bind (grows_ask disk trivial) fun _ => grows_guard (ih _ _)

theorem grows_zeroSectors (disk : ι) (offset count : Nat) : (zeroSectors disk offset count).Grows :=
  grows_bind (grows_liftExcept _) fun _ => grows_zeroChunks disk _ _ _

end Storage.Access

theorem BlockTable.grows_setEntry (disk : ι) (table : BlockTable) (block : Nat) (sector : UInt32) :
    (table.setEntry disk block sector).Grows := by
  refine Access.grows_bind (Access.grows_liftExcept _) fun _ => Access.grows_guard ?_
  exact Access.grows_bind (Access.grows_ask disk trivial) fun _ => Access.grows_pure _

theorem BlockTable.grows_load (disk : ι) (offset count : Nat) : (load disk offset count).Grows := by
  unfold load
  extract_lets size
  refine Access.grows_guard (Access.grows_guard ?_)
  exact Access.grows_bind (Access.grows_readWithin disk _ _ _) fun _ => Access.grows_pure _

namespace BitmapCache

theorem grows_flush (disk : ι) (table : BlockTable) (cache : BitmapCache) :
    (cache.flush disk table).Grows := by
  unfold flush
  split
  · refine Access.grows_bind (Access.grows_liftExcept _) fun found => ?_
    split
    · exact Access.grows_bind (Access.grows_liftExcept _) fun _ =>
        Access.grows_bind (Access.grows_ask disk trivial) fun _ => Access.grows_pure _
    · exact Access.grows_throw _
  · exact Access.grows_pure _

theorem grows_load (disk : ι) (table : BlockTable) (cache : BitmapCache) (block : Nat) :
    (cache.load disk table block).Grows := by
  refine Access.grows_bind (Access.grows_liftExcept _) fun found => ?_
  split
  · refine Access.grows_bind (Access.grows_liftExcept _) fun _ => ?_
    exact Access.grows_bind (Access.grows_readWithin disk _ _ _) fun _ => Access.grows_pure _
  · exact Access.grows_bind (Access.grows_pure _) fun _ => Access.grows_pure _

end BitmapCache

namespace BlockMap

theorem grows_flush (disk : ι) : (flush disk).Grows :=
  Engine.grows_bind Engine.grows_get fun _ =>
    Engine.grows_bind (Engine.grows_liftAccess (BitmapCache.grows_flush disk _ _)) fun _ =>
      Engine.grows_set _

theorem grows_select (disk : ι) (block : Nat) : (select disk block).Grows := by
  refine Engine.grows_bind Engine.grows_get fun map => ?_
  split
  · exact Engine.grows_pure _
  · refine Engine.grows_bind (grows_flush disk) fun _ =>
      Engine.grows_bind Engine.grows_get fun _ => ?_
    exact Engine.grows_bind (Engine.grows_liftAccess (BitmapCache.grows_load disk _ _ _)) fun _ =>
      Engine.grows_set _

theorem grows_holds (disk : ι) (sector : Nat) : (holds disk sector).Grows :=
  Engine.grows_bind Engine.grows_get fun _ =>
    Engine.grows_bind (Engine.grows_liftExcept _) fun _ =>
      Engine.grows_bind (grows_select disk _) fun _ =>
        Engine.grows_bind Engine.grows_get fun _ => Engine.grows_pure _

theorem grows_readSector (disk : ι) (sector : Nat) : (readSector disk sector).Grows := by
  refine Engine.grows_bind Engine.grows_get fun _ =>
    Engine.grows_bind (Engine.grows_liftExcept _) fun _ =>
      Engine.grows_bind (grows_select disk _) fun _ =>
        Engine.grows_bind Engine.grows_get fun map => ?_
  split
  · refine Engine.grows_bind (Engine.grows_liftExcept _) fun found => ?_
    split
    · exact Engine.grows_bind (Engine.grows_liftExcept _) fun _ =>
        Engine.grows_liftAccess (Access.grows_readWithin disk _ _ _)
    · exact Engine.grows_throw _
  · exact Engine.grows_pure _

theorem grows_readSectors (disk : ι) (count sector slot : Nat) (buffer : ByteArray) :
    (readSectors disk count sector slot buffer).Grows := by
  induction count generalizing sector slot buffer with
  | zero => exact Engine.grows_pure _
  | succ count ih =>
    exact Engine.grows_bind (grows_readSector disk _) fun _ =>
      Engine.grows_bind (Engine.grows_liftExcept _) fun _ => ih _ _ _

theorem grows_findEnd (disk : ι) : (findEnd disk).Grows := by
  have hfirst : ∀ size, (Access.readWithin disk 0 512 .footerMissing >>= fun first => (do
      if Footer.hasCookie first.toByteArray then return (size, first)
      throw (.corrupt .footerMissing) : Access ι (Nat × Sector))).Grows := by
    intro size
    refine Access.grows_bind (Access.grows_readWithin disk _ _ _) fun _ => ?_
    split
    · exact Access.grows_pure _
    · exact Access.grows_throw _
  refine Access.grows_bind (Access.grows_ask disk trivial) fun size => ?_
  split
  · refine Access.grows_bind (Access.grows_ask disk trivial) fun _ => ?_
    split
    · exact Access.grows_pure _
    · exact hfirst _
  · exact hfirst _

theorem grows_padEnd (disk : ι) (position : Nat) : (padEnd disk position).Grows := by
  unfold padEnd
  split
  · exact Access.grows_pure _
  · exact Access.grows_bind (Access.grows_liftExcept _) fun _ => Access.grows_zeroChunks disk _ _ _

theorem grows_allocate (disk : ι) (map : BlockMap) (block : Nat) :
    (allocate disk map block).Grows := by
  unfold allocate
  refine Access.grows_bind (Access.grows_liftExcept _) fun allocated => Access.grows_guard ?_
  refine Access.grows_bind (grows_findEnd disk) fun found =>
    Access.grows_bind (grows_padEnd disk _) fun position => Access.grows_guard ?_
  exact Access.grows_bind (Access.grows_zeroSectors disk _ _) fun _ =>
    Access.grows_bind (Access.grows_zeroSectors disk _ _) fun _ =>
      Access.grows_bind (Access.grows_ask disk trivial) fun _ =>
        Access.grows_bind (BlockTable.grows_setEntry disk _ _ _) fun _ => Access.grows_pure _

theorem grows_ensureAllocated (disk : ι) (block : Nat) : (ensureAllocated disk block).Grows := by
  refine Engine.grows_bind Engine.grows_get fun map =>
    Engine.grows_bind (Engine.grows_liftExcept _) fun found => ?_
  split
  · exact Engine.grows_pure _
  · exact Engine.grows_bind (Engine.grows_liftAccess (grows_allocate disk map block)) fun _ =>
      Engine.grows_bind (Engine.grows_set _) fun _ => Engine.grows_pure _

theorem grows_writeSector (disk : ι) (sector : Nat) (bytes : Sector) :
    (writeSector disk sector bytes).Grows :=
  Engine.grows_bind Engine.grows_get fun _ =>
    Engine.grows_bind (Engine.grows_liftExcept _) fun _ =>
      Engine.grows_bind (grows_select disk _) fun _ =>
        Engine.grows_bind (grows_ensureAllocated disk _) fun _ =>
          Engine.grows_bind Engine.grows_get fun _ =>
            Engine.grows_bind (Engine.grows_liftExcept _) fun _ =>
              Engine.grows_bind (Engine.grows_liftAccess (Access.grows_ask disk trivial)) fun _ =>
                Engine.grows_bind (Engine.grows_liftExcept _) fun _ => Engine.grows_set _

theorem grows_writeSectors (disk : ι) (buffer : ByteArray) (count sector slot : Nat) :
    (writeSectors disk buffer count sector slot).Grows := by
  induction count generalizing sector slot with
  | zero => exact Engine.grows_pure _
  | succ count ih =>
    exact Engine.grows_bind (Engine.grows_liftExcept _) fun _ =>
      Engine.grows_bind (grows_writeSector disk _ _) fun _ => ih _ _

end BlockMap

namespace Image

theorem grows_onBlocks {α : Type} {engine : ι → Engine ι BlockMap α}
    (h : ∀ disk, (engine disk).Grows) : (onBlocks engine).Grows := by
  refine Engine.grows_bind Engine.grows_get fun image => ?_
  split
  · exact Engine.grows_on (h _)
  · exact Engine.grows_throw _

theorem grows_readBlocks (offset count : Nat) (buffer : ByteArray) :
    (readBlocks offset count buffer : Engine ι (Image ι) ReadResult).Grows :=
  Engine.grows_bind (Engine.grows_liftExcept _) fun _ =>
    Engine.grows_bind Engine.grows_get fun _ =>
      Engine.grows_bind (grows_onBlocks fun disk => BlockMap.grows_readSectors disk _ _ _ _)
        fun _ => Engine.grows_pure _

theorem grows_writeBlocks (offset count : Nat) (buffer : ByteArray) :
    (writeBlocks offset count buffer : Engine ι (Image ι) Nat).Grows :=
  Engine.grows_bind (Engine.grows_liftExcept _) fun _ =>
    Engine.grows_bind Engine.grows_get fun _ =>
      Engine.grows_bind (grows_onBlocks fun disk =>
        Engine.grows_bind (BlockMap.grows_writeSectors disk _ _ _ _) fun _ =>
          BlockMap.grows_flush disk) fun _ => Engine.grows_pure _

theorem grows_readFlat (image : Image ι) (offset count : Nat) (buffer : ByteArray) :
    (image.readFlat offset count buffer).Grows := by
  refine Access.grows_bind (Access.grows_liftExcept _) fun _ => ?_
  dsimp only
  split
  · exact Access.grows_pure _
  · refine Access.grows_bind (Access.grows_liftExcept _) fun _ =>
      Access.grows_bind (Access.grows_liftExcept _) fun _ =>
        Access.grows_bind (Access.grows_readWithin _ _ _ _) fun _ =>
          Access.grows_bind (Access.grows_liftExcept _) fun _ => Access.grows_pure _

theorem grows_writeFlat (image : Image ι) (offset count : Nat) (buffer : ByteArray) :
    (image.writeFlat offset count buffer).Grows := by
  refine Access.grows_bind (Access.grows_liftExcept _) fun _ => ?_
  dsimp only
  split
  · exact Access.grows_pure _
  · refine Access.grows_bind (Access.grows_liftExcept _) fun _ =>
      Access.grows_bind (Access.grows_liftExcept _) fun _ =>
        Access.grows_bind (Access.grows_liftExcept _) fun _ =>
          Access.grows_bind (Access.grows_ask _ trivial) fun _ => Access.grows_pure _

theorem grows_read (offset count : Nat) (buffer : ByteArray) :
    (read offset count buffer : Engine ι (Image ι) ReadResult).Grows := by
  refine Engine.grows_bind Engine.grows_get fun image => ?_
  split
  · exact Engine.grows_liftAccess (grows_readFlat image _ _ _)
  · exact grows_readBlocks _ _ _
  · exact Engine.grows_throw _

theorem grows_write (offset count : Nat) (buffer : ByteArray) :
    (write offset count buffer : Engine ι (Image ι) Nat).Grows := by
  refine Engine.grows_bind Engine.grows_get fun image => ?_
  split
  · exact Engine.grows_pure _
  · split
    · exact Engine.grows_liftAccess (grows_writeFlat image _ _ _)
    · exact grows_writeBlocks _ _ _

theorem grows_flush : (flush : Engine ι (Image ι) Unit).Grows := by
  refine Engine.grows_bind Engine.grows_get fun image => ?_
  split
  · exact Engine.grows_bind (grows_onBlocks fun disk => BlockMap.grows_flush disk) fun _ =>
      Engine.grows_liftAccess (Access.grows_ask _ trivial)
  · exact Engine.grows_liftAccess (Access.grows_ask _ trivial)

theorem grows_findFooter (disk : ι) (size : Nat) : (findFooter disk size).Grows := by
  refine Access.grows_bind (Access.grows_ask disk trivial) fun _ => ?_
  split
  · exact Access.grows_pure _
  · refine Access.grows_bind (Access.grows_ask disk trivial) fun _ => ?_
    split
    · exact Access.grows_pure _
    · exact Access.grows_throw _

theorem grows_readTable (disk : ι) (footer : Footer) (header : BlockHeader) :
    (readTable disk footer header).Grows := by
  unfold readTable
  refine Access.grows_guard ?_
  exact Access.grows_bind (BlockTable.grows_load disk _ _) fun table =>
    Access.grows_bind (Access.grows_liftExcept _) fun map =>
      Access.grows_guard (Access.grows_pure map)

theorem grows_readBlockMap (disk : ι) (footer : Footer) (size : Nat) :
    (readBlockMap disk footer size).Grows :=
  Access.grows_bind (Access.grows_liftExcept _) fun _ =>
    Access.grows_bind (Access.grows_ask disk trivial) fun _ =>
      Access.grows_bind (Access.grows_liftExcept _) fun header => grows_readTable disk footer header

theorem grows_ofDisk (disk : ι) (readOnly : Bool) : (ofDisk disk readOnly).Grows := by
  have hmap : ∀ (footer : Footer) (size : Nat) (f : BlockMap → Layout) (next : Layout → Image ι),
      ((f <$> readBlockMap disk footer size) >>= fun layout => (pure (next layout) :
        Access ι (Image ι))).Grows := by
    intro footer size f next
    rw [map_eq_pure_bind]
    exact Access.grows_bind (Access.grows_bind (grows_readBlockMap disk footer size)
      fun _ => Access.grows_pure _) fun _ => Access.grows_pure _
  unfold ofDisk
  refine Access.grows_bind (Access.grows_ask disk trivial) fun size => Access.grows_guard ?_
  refine Access.grows_bind (grows_findFooter disk size) fun footer => ?_
  dsimp only
  split
  · exact Access.grows_guard (Access.grows_pure _)
  · exact hmap footer size .dynamic _
  · exact hmap footer size .differencing _

end Image

end VirtualDisk
