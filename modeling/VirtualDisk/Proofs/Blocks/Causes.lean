import VirtualDisk.Blocks.Transfer

/-!
# Causes of single steps

The steps that ask nothing of a storage are alike in what they never fail for: for a link between
images, for a changed bitmap that has no place to go, and for the geometry of a new image. Such a
cause is `IsMild`.
-/

namespace VirtualDisk

variable {α β : Type}

/-- The failure is not about the geometry of a new image. -/
def Error.SparesGeometry : Error → Prop
  | .invalidOption .noSectors => False
  | .invalidOption .geometryTooLarge => False
  | _ => True

/-- Neither a link between images is broken, nor has a changed bitmap no place to go, nor is the
geometry of a new image refused. -/
def Error.IsMild : Error → Prop
  | .parentUnavailable => False
  | .unknownImage _ => False
  | .corrupt .dirtyUnallocated => False
  | e => e.SparesGeometry

/-- If there is no result, the cause is mild. -/
def Mild (result : Except Error α) : Prop := ∀ e, result = .error e → e.IsMild

namespace Mild

theorem ok (a : α) : Mild (.ok a) := fun _ h => by cases h

theorem error {e : Error} (h : e.IsMild) : Mild (.error e : Except Error α) :=
  fun _ he => Except.error.inj he ▸ h

theorem bind {result : Except Error α} {f : α → Except Error β} (h : Mild result)
    (hf : ∀ a, Mild (f a)) : Mild (result >>= f) := by
  cases result with
  | ok a => exact hf a
  | error e => exact error (h e rfl)

theorem position (sector : Nat) : Mild (Sector.position sector) := by
  unfold Sector.position
  split
  · exact ok _
  · exact error trivial

theorem check (size count : Nat) : Mild (Buffer.check size count) := by
  refine bind (position count) fun required => ?_
  split
  · exact error trivial
  · exact ok _

theorem window (buffer : ByteArray) (start size : Nat) :
    Mild (Buffer.window buffer start size) := by
  unfold Buffer.window
  split
  · exact ok _
  · exact error trivial

theorem fill {n : Nat} (buffer : ByteArray) (start : Nat) (part : Bytes n) :
    Mild (Buffer.fill buffer start part) := by
  unfold Buffer.fill
  split
  · exact ok _
  · exact error trivial

theorem align (position : Nat) : Mild (Sector.align position) := by
  unfold Sector.align
  dsimp only
  split
  · exact ok _
  · split
    · exact ok _
    · exact error trivial

theorem entry (table : BlockTable) (block : Nat) : Mild (table.entry block) := by
  unfold BlockTable.entry
  split
  · exact ok _
  · exact error trivial

theorem sector? (table : BlockTable) (block : Nat) : Mild (table.sector? block) :=
  bind (entry table block) fun _ => ok _

theorem isAllocated (table : BlockTable) (block : Nat) : Mild (table.isAllocated block) :=
  bind (entry table block) fun _ => ok _

theorem locate (map : BlockMap) (sector : Nat) : Mild (map.locate sector) := by
  unfold BlockMap.locate
  dsimp only
  split
  · exact error trivial
  · split
    · exact ok _
    · exact error trivial

theorem set (cache : BitmapCache) (bit : Nat) : Mild (cache.set bit) := by
  unfold BitmapCache.set
  split
  · dsimp only
    split
    · exact ok _
    · exact ok _
  · exact error trivial

end Mild

end VirtualDisk
