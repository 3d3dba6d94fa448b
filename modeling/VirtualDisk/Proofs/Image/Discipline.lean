import VirtualDisk.Proofs.Blocks.Discipline
import VirtualDisk.Proofs.Image.Untrusted

/-!
# Calls on an image, whatever they are answered

What a discipline says of the map in memory, every call on the image keeps. Nothing else of the
image changes.
-/

namespace VirtualDisk

open Storage

variable {ι α : Type}

namespace Image

variable {P : Protocol ι} {cause : Error → Prop} {J : BlockMap → Prop}
variable {image image' : Image ι} {map : BlockMap}

/-- The map of the image satisfies the invariant, if it has one. -/
def Heeds (J : BlockMap → Prop) (image : Image ι) : Prop :=
  ∀ map, image.blocks? = some map → J map

/-- The same image, or the image with another map, which satisfies the invariant. -/
def Amid (J : BlockMap → Prop) (image image' : Image ι) : Prop :=
  image' = image ∨
    ∃ map map', image.blocks? = some map ∧ J map' ∧ image' = image.withBlocks map'

theorem Amid.heeds (h : image.Amid J image') (hJ : image.Heeds J) : image'.Heeds J := by
  obtain rfl | ⟨_, map', hmap, hmap', rfl⟩ := h
  · exact hJ
  · intro map hblocks
    rw [blocks?_withBlocks hmap, Option.some.injEq] at hblocks
    exact hblocks ▸ hmap'

section Flat

variable (A : P.Allows image.disk cause)
include A

theorem readFlat_minds (offset count : Nat) (buffer : ByteArray) :
    (image.readFlat offset count buffer).Minds P cause := by
  refine Access.minds_bind (Access.minds_liftExcept A (.check _ _)) fun _ => ?_
  dsimp only
  split
  · exact Access.minds_pure _
  · exact Access.minds_bind (Access.minds_liftExcept A (.position _)) fun _ =>
      Access.minds_bind (Access.minds_liftExcept A (.position _)) fun _ =>
        Access.minds_bind (Access.minds_readWithin A (by decide) _ _) fun _ =>
          Access.minds_bind (Access.minds_liftExcept A (.fill _ _ _)) fun _ =>
            Access.minds_pure _

theorem writeFlat_minds (offset count : Nat) (buffer : ByteArray) :
    (image.writeFlat offset count buffer).Minds P cause := by
  refine Access.minds_bind (Access.minds_liftExcept A (.check _ _)) fun _ => ?_
  dsimp only
  split
  · exact Access.minds_pure _
  next hsome =>
  have hsize : ∀ size, Sector.position (image.span offset count).transfer = .ok size →
      0 < size := by
    intro size h
    unfold Sector.position at h
    split at h
    · cases h
      omega
    · cases h
  refine Access.Obeys.bind (Q := fun size => 0 < size) ?_ fun size hpos => ?_
  · refine Access.obeys_liftExcept.mpr ?_
    cases h : Sector.position (image.span offset count).transfer with
    | ok size => exact hsize size h
    | error e => exact A.plain e (Mild.position _ e h)
  · exact Access.minds_bind (Access.minds_liftExcept A (.position _)) fun _ =>
      Access.minds_bind (Access.minds_liftExcept A (.window _ _ _)) fun _ =>
        Access.minds_bind (Access.minds_write A hpos _ _) fun _ => Access.minds_pure _

end Flat

theorem onBlocks_disciplined (A : P.Allows image.disk cause) {engine : ι → Engine ι BlockMap α}
    (h : ∀ map, image.blocks? = some map →
      (engine image.disk).Keeps P cause (fun _ map' => J map') map) :
    (onBlocks engine).Keeps P cause (Amid J) image := by
  refine Engine.obeys_get_bind.mpr ?_
  split
  · next map hmap =>
    refine Engine.obeys_on.mpr ((h map hmap).mono ?_ ?_)
    · exact fun _ map' hmap' => .inr ⟨map, map', hmap, hmap', rfl⟩
    · exact fun _ map' he => ⟨he.1, .inr ⟨map, map', hmap, he.2, rfl⟩⟩
  · exact ⟨A.plain _ trivial, .inl rfl⟩

variable (D : Discipline P image.disk cause J) (hJ : image.Heeds J)
include D hJ

theorem holds_disciplined (sector : Nat) :
    (onBlocks fun disk => BlockMap.holds disk sector).Keeps P cause (Amid J) image :=
  onBlocks_disciplined D.toAllows fun map hmap => BlockMap.holds_disciplined D (hJ map hmap) sector

omit hJ in
theorem check_disciplined {size count : Nat} {next : Unit → Engine ι (Image ι) α}
    (h : (next ()).Keeps P cause (Amid J) image) :
    (liftM (Buffer.check size count) >>= next).Keeps P cause (Amid J) image := by
  refine Engine.obeys_liftExcept_bind.mpr ?_
  cases hcheck : Buffer.check size count with
  | ok _ => exact h
  | error e => exact ⟨D.plain e (Mild.check _ _ e hcheck), .inl rfl⟩

theorem readBlocks_disciplined (offset count : Nat) (buffer : ByteArray) :
    (readBlocks offset count buffer).Keeps P cause (Amid J) image := by
  refine check_disciplined D (Engine.obeys_get_bind.mpr ?_)
  refine Engine.Obeys.bind (onBlocks_disciplined D.toAllows fun map hmap => ?_) fun _ _ h => h
  exact BlockMap.readSectors_disciplined D (hJ map hmap) _ _ _ _

theorem writeBlocks_disciplined (offset count : Nat) (buffer : ByteArray) :
    (writeBlocks offset count buffer).Keeps P cause (Amid J) image := by
  refine check_disciplined D (Engine.obeys_get_bind.mpr ?_)
  refine Engine.Obeys.bind (onBlocks_disciplined D.toAllows fun map hmap => ?_) fun _ _ h => h
  refine Engine.Obeys.bind (BlockMap.writeSectors_disciplined D buffer (hJ map hmap) _ _ _) ?_
  exact fun _ _ h => (BlockMap.flush_disciplined D h).mono_success fun _ _ h' => h'.1

omit D hJ in
theorem liftAccess_amid {access : Access ι α} (h : access.Minds P cause) :
    (liftM access : Engine ι (Image ι) α).Keeps P cause (Amid J) image :=
  Engine.obeys_liftAccess.mpr (h.mono (fun _ _ => .inl rfl) fun _ he => ⟨he, .inl rfl⟩)

/-- Only a differencing image cannot be read without a link. -/
theorem read_disciplined (alone : image.diskType = .differencing → cause .parentUnavailable)
    (offset count : Nat) (buffer : ByteArray) :
    (read offset count buffer).Keeps P cause (Amid J) image := by
  refine Engine.obeys_get_bind.mpr ?_
  split
  · exact liftAccess_amid (readFlat_minds D.toAllows _ _ _)
  · exact readBlocks_disciplined D hJ _ _ _
  · next hlayout => exact ⟨alone (by rw [diskType, hlayout]; rfl), .inl rfl⟩

theorem write_disciplined (offset count : Nat) (buffer : ByteArray) :
    (write offset count buffer).Keeps P cause (Amid J) image := by
  refine Engine.obeys_get_bind.mpr ?_
  split
  · exact .inl rfl
  · split
    · exact liftAccess_amid (writeFlat_minds D.toAllows _ _ _)
    · exact writeBlocks_disciplined D hJ _ _ _

theorem flush_disciplined : flush.Keeps P cause (Amid J) image := by
  have hflush : (Access.flush image.disk).Minds P cause := Access.minds_ask D.toAllows id
  refine Engine.obeys_get_bind.mpr ?_
  split
  · refine Engine.Obeys.bind (onBlocks_disciplined D.toAllows fun map hmap => ?_) ?_
    · exact (BlockMap.flush_disciplined D (hJ map hmap)).mono_success fun _ _ h => h.1
    · exact fun _ _ h => Engine.obeys_liftAccess.mpr
        (hflush.mono (fun _ _ => h) fun _ he => ⟨he, h⟩)
  · exact liftAccess_amid hflush

end Image

/-- Every call on an image changes nothing of it but its map, which keeps the invariant. -/
theorem ImageCall.disciplined {P : Protocol ι} {cause : Error → Prop} {J : BlockMap → Prop}
    {image : Image ι} (D : Discipline P image.disk cause J) (hJ : image.Heeds J)
    (alone : image.diskType = .differencing → cause .parentUnavailable) (call : ImageCall) :
    call.engine.Keeps P cause (Image.Amid J) image := by
  cases call with
  | use op =>
    cases op with
    | read =>
      exact Engine.Obeys.bind (Image.read_disciplined D hJ alone _ _ _) fun _ _ h => h
    | write => exact Engine.Obeys.bind (Image.write_disciplined D hJ _ _ _) fun _ _ h => h
    | flush => exact Engine.Obeys.bind (Image.flush_disciplined D hJ) fun _ _ h => h
  | readFlat =>
    refine Engine.obeys_get_bind.mpr (Engine.Obeys.bind ?_ fun _ _ h => h)
    exact Image.liftAccess_amid (Image.readFlat_minds D.toAllows _ _ _)
  | writeFlat =>
    refine Engine.obeys_get_bind.mpr (Engine.Obeys.bind ?_ fun _ _ h => h)
    exact Image.liftAccess_amid (Image.writeFlat_minds D.toAllows _ _ _)
  | readBlocks => exact Engine.Obeys.bind (Image.readBlocks_disciplined D hJ _ _ _) fun _ _ h => h
  | writeBlocks => exact Engine.Obeys.bind (Image.writeBlocks_disciplined D hJ _ _ _) fun _ _ h => h

end VirtualDisk
