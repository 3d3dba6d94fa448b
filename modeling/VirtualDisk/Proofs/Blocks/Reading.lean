import VirtualDisk.Proofs.Blocks.Twins
import VirtualDisk.Proofs.Storage.Requests

/-!
# Reads that change nothing

On a disk that may only be read, a map without changes is read all the same: there is nothing to be
stored first. What is cached then is what is stored, whether or not requests fail.
-/

namespace VirtualDisk

open Storage

variable {ι α : Type} {P : Protocol ι} {disk : ι} {content : Content}

theorem BitmapCache.load_obeys (R : P.Reads disk content) (table : BlockTable)
    (cache : BitmapCache) (block : Nat) :
    (cache.load disk table block).Obeys P
      (fun bitmap => stored content table cache.bytes.size block = .ok bitmap) fun _ => True := by
  apply Access.obeys_bind.mpr
  cases hfound : table.sector? block with
  | error e => trivial
  | ok found => cases found with
    | none =>
      change stored content table cache.bytes.size block = _
      rw [stored, hfound]
      rfl
    | some sector =>
      apply Access.obeys_bind.mpr
      cases hposition : Sector.position sector with
      | error e => trivial
      | ok position =>
        apply Access.obeys_bind.mpr
        refine Access.obeys_readWithin.mpr ⟨R.permits _ id, fun reply hreply => ?_⟩
        obtain hread | ⟨e, rfl⟩ := R.answers _ reply hreply
        · cases reply with
          | error e => trivial
          | ok bytes =>
            have hread' : Medium.read content position cache.bytes.size = .ok bytes := hread.symm
            change stored content table cache.bytes.size block = _
            rw [stored, hfound]
            simp only [bind, Except.bind, hposition, hread']
            rfl
        · trivial

namespace Storage

variable (R : P.Reads disk content)
include R

theorem Access.ask_reads {request : Request} (h : ¬ request.Changes) :
    (Access.ask disk request).Minds P fun _ => True :=
  ⟨R.permits request h, fun reply _ => by cases reply <;> trivial⟩

theorem Access.readWithin_reads (offset size : Nat) (what : Corruption) :
    (Access.readWithin disk offset size what).Minds P fun _ => True :=
  Access.obeys_readWithin.mpr ⟨R.permits _ id, fun reply _ => by cases reply <;> trivial⟩

end Storage

namespace BlockMap

open Engine

/-- An exact map comes to a twin. -/
def Stays (content : Content) (map map' : BlockMap) : Prop :=
  map.Exact content → map.Twin map' content

instance : IsPreorder BlockMap (Stays content) where
  refl _ exact := exact.twin
  trans _ _ _ h h' exact := (h exact).trans (h' (h exact).exact')

variable {map : BlockMap} (R : P.Reads disk content)

theorem flush_keeps_exact (exact : map.Exact content) :
    (flush disk).Keeps P (fun _ => True) (Stays content) map := by
  obtain ⟨header, table, ⟨bytes, block, dirty⟩⟩ := map
  obtain rfl : dirty = false := exact.clean
  cases block with
  | none => exact fun _ => exact.twin
  | some block => exact fun _ => exact.twin

include R

theorem select_keeps_exact (exact : map.Exact content) (block : Nat) :
    (select disk block).Keeps P (fun _ => True) (Stays content) map := by
  apply keeps_get_bind
  split
  · exact keeps_pure _
  · apply keeps_bind (flush_keeps_exact exact)
    intro _ map' hstays
    apply keeps_get_bind
    apply obeys_bind.mpr
    apply obeys_liftAccess.mpr
    have hload := BitmapCache.load_obeys R map'.table map'.bitmap block
    apply hload.mono
    · exact fun bitmap hstored => keeps_set fun _ => (hstays exact).exact'.loaded hstored
    · exact fun e _ => ⟨trivial, refl_of (Stays content) map'⟩

theorem holds_keeps_exact (exact : map.Exact content) (sector : Nat) :
    (holds disk sector).Keeps P (fun _ => True) (Stays content) map := by
  apply keeps_get_bind
  apply keeps_bind (keeps_result (map.locate sector))
  intro place map' hstays
  apply keeps_bind (select_keeps_exact R (hstays exact).exact' place.1)
  exact fun _ _ _ => keeps_get_bind (keeps_pure _)

theorem readSector_keeps_exact (exact : map.Exact content) (sector : Nat) :
    (readSector disk sector).Keeps P (fun _ => True) (Stays content) map := by
  apply keeps_get_bind
  apply keeps_bind (keeps_result (map.locate sector))
  intro place map' hstays
  apply keeps_bind (select_keeps_exact R (hstays exact).exact' place.1)
  intro _ map'' _
  apply keeps_get_bind
  split
  · apply keeps_bind (keeps_result _)
    intro found _ _
    split
    · exact keeps_bind (keeps_result _) fun _ _ _ =>
        keeps_liftAccess (Access.readWithin_reads R _ _ _)
    · exact keeps_throw trivial
  · exact keeps_pure _

theorem readSectors_keeps_exact (exact : map.Exact content) (count sector slot : Nat)
    (buffer : ByteArray) :
    (readSectors disk count sector slot buffer).Keeps P (fun _ => True) (Stays content) map := by
  induction count generalizing sector slot buffer map with
  | zero => exact keeps_pure _
  | succ count ih =>
    apply keeps_bind (readSector_keeps_exact R exact sector)
    intro _ map' hstays
    apply keeps_bind (keeps_result _)
    exact fun _ map'' hstays' => ih (hstays' (hstays exact).exact').exact' _ _ _

end BlockMap

end VirtualDisk
