import Mathlib.Order.Defs.Unbundled
import VirtualDisk.Proofs.Image.Discipline
import VirtualDisk.Proofs.Image.HoldsWritten

/-!
# What calls keep of an image

Whatever the storage answers, and whether or not a call fails, an image stays what it is: its disk,
its footer, its kind, its mode, and the parent that it records. A call issues requests to the disk
of the image only. It fails for the causes that the storage gives and for causes of its own; a
missing link of a chain is none of these.
-/

namespace VirtualDisk

open Storage

variable {ι α : Type}

/-- Causes that lie in the links between images. -/
def Error.IsLink : Error → Prop
  | .parentUnavailable => True
  | .unknownImage _ => True
  | _ => False

/-- If there is no result, this is not because of a link. -/
def Linkless (result : Except Error α) : Prop := ∀ e, result = .error e → ¬ e.IsLink

theorem Error.IsMild.not_isLink {e : Error} (h : e.IsMild) : ¬ e.IsLink := by
  intro hlink
  cases e with
  | parentUnavailable => exact h
  | unknownImage id => exact h
  | _ => exact hlink

namespace Storage

variable {P : Protocol ι} {disk : ι} {cause : Error → Prop}

/-- Any request may be issued to the disk. It fails for these causes only, which include all that do
not lie in links. -/
structure Protocol.Grants (P : Protocol ι) (disk : ι) (cause : Error → Prop) : Prop where
  permits : ∀ request, P.permits disk request
  fails : ∀ request e, P.answers disk request (.error e) → cause e
  plain : ∀ e, ¬ e.IsLink → cause e

theorem Protocol.Grants.failing (plain : ∀ e, ¬ e.IsLink → cause e) (disk : ι) :
    (Protocol.failing ι cause).Grants disk cause :=
  ⟨fun _ => trivial, fun _ e h => h e rfl, plain⟩

theorem Protocol.Grants.allows (G : P.Grants disk cause) : P.Allows disk cause :=
  ⟨fun request _ => G.permits request, G.fails, fun e h => G.plain e h.not_isLink⟩

end Storage

/-- Maps with the same header. -/
def BlockMap.SameHeader (map map' : BlockMap) : Prop := map'.header = map.header

namespace Image

open Engine

/-- Images that differ in their blocks only, and record the same parent. -/
structure SameButBlocks (image image' : Image ι) : Prop extends image.SameFooter image' where
  readOnly : image'.readOnly = image.readOnly
  parentUniqueId? : image'.parentUniqueId? = image.parentUniqueId?

instance : IsPreorder (Image ι) SameButBlocks where
  refl image := ⟨.refl image, rfl, rfl⟩
  trans _ _ _ h h' := ⟨h.toSameFooter.trans h'.toSameFooter, h'.readOnly.trans h.readOnly,
    h'.parentUniqueId?.trans h.parentUniqueId?⟩

variable {P : Protocol ι} {cause : Error → Prop} {image : Image ι} {map map' : BlockMap}

/-- The header of a differencing image says which parent it has. -/
theorem sameButBlocks_withBlocks (hmap : image.blocks? = some map) (h : map.SameHeader map') :
    image.SameButBlocks (image.withBlocks map') := by
  refine ⟨sameFooter_withBlocks image map', rfl, ?_⟩
  cases image with
  | mk disk footer layout readOnly => cases layout with
    | fixed => rfl
    | dynamic => rfl
    | differencing =>
      obtain rfl := Option.some.inj hmap
      exact congrArg (fun header : BlockHeader => some header.parentUniqueId) h

/-- Maps that have the header of the image. -/
def Bears (image : Image ι) (map' : BlockMap) : Prop :=
  ∀ map, image.blocks? = some map → map.SameHeader map'

theorem heeds_bears (image : Image ι) : image.Heeds image.Bears := by
  intro map hmap map' hmap'
  exact congrArg BlockMap.header (Option.some.inj (hmap.symm.trans hmap'))

theorem Amid.sameButBlocks {image' : Image ι} (h : image.Amid image.Bears image') :
    image.SameButBlocks image' := by
  obtain rfl | ⟨map, map', hmap, hheader, rfl⟩ := h
  · exact refl_of SameButBlocks image'
  · exact sameButBlocks_withBlocks hmap (hheader map hmap)

theorem discipline_bears (G : P.Grants image.disk cause) :
    Discipline P image.disk cause image.Bears where
  toAllows := G.allows
  stores _ _ _ := G.permits _
  stranded _ _ _ _ _ _ := G.plain _ id
  cleaned _ h := h
  loaded _ _ h _ _ := h
  allocated _ _ _ h _ _ _ := h
  marked _ _ _ _ h _ _ _ := h

theorem keeps_sameButBlocks (G : P.Grants image.disk cause) {engine : Engine ι (Image ι) α}
    (h : Discipline P image.disk cause image.Bears → image.Heeds image.Bears →
      engine.Keeps P cause (Amid image.Bears) image) :
    engine.Keeps P cause SameButBlocks image :=
  (h (discipline_bears G) image.heeds_bears).mono (fun _ _ hamid => hamid.sameButBlocks)
    fun _ _ he => ⟨he.1, he.2.sameButBlocks⟩

variable (G : P.Grants image.disk cause)
include G

theorem holds_keeps (sector : Nat) :
    (onBlocks fun disk => BlockMap.holds disk sector).Keeps P cause SameButBlocks image :=
  keeps_sameButBlocks G fun D hJ => holds_disciplined D hJ sector

theorem readBlocks_keeps (offset count : Nat) (buffer : ByteArray) :
    (readBlocks offset count buffer).Keeps P cause SameButBlocks image :=
  keeps_sameButBlocks G fun D hJ => readBlocks_disciplined D hJ offset count buffer

theorem flush_keeps : flush.Keeps P cause SameButBlocks image :=
  keeps_sameButBlocks G fun D hJ => flush_disciplined D hJ

end Image

/-- Every call leaves an image that differs in its blocks only. -/
theorem ImageCall.keeps {P : Protocol ι} {cause : Error → Prop} {image : Image ι}
    (G : P.Grants image.disk cause)
    (alone : image.diskType = .differencing → cause .parentUnavailable) (call : ImageCall) :
    call.engine.Keeps P cause Image.SameButBlocks image :=
  Image.keeps_sameButBlocks G fun D hJ => call.disciplined D hJ alone

end VirtualDisk
