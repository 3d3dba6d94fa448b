import VirtualDisk.Proofs.Image.Making
import VirtualDisk.Proofs.Storage.Media

/-!
# No empty writes

Images issue no empty write. None is issued when they are made, and a bitmap that is stored has a
byte at least, because a block has a sector at least.
-/

namespace VirtualDisk

open Storage

variable {ι : Type}

theorem Storage.Protocol.filling_allows (disk : ι) :
    (filling ι).Allows disk fun _ => True :=
  ⟨fun _ h => h, fun _ _ _ => trivial, fun _ _ => trivial⟩

theorem BlockMap.discipline_filling (disk : ι) :
    Discipline (.filling ι) disk (fun _ => True) HasBitmap where
  toAllows := Protocol.filling_allows disk
  stores _ _ h := Nat.ne_of_gt h
  stranded _ _ _ _ _ _ := trivial
  cleaned _ h := h
  loaded _ _ h _ hsize := Nat.lt_of_lt_of_eq h hsize.symm
  allocated _ _ _ h _ _ _ := h
  marked _ _ _ _ h _ _ hasSet := Nat.lt_of_lt_of_eq h hasSet.size_bytes.symm

/-- What changes nothing of an image but its map, which keeps its bitmap, leaves the image with a
bitmap. -/
theorem Image.keeps_hasBitmap {α : Type} {image : Image ι} {engine : Engine ι (Image ι) α}
    (h : image.Heeds BlockMap.HasBitmap)
    (hengine : engine.Keeps (.filling ι) (fun _ => True) (Amid BlockMap.HasBitmap) image) :
    engine.Keeps (.filling ι) (fun _ => True) (fun _ image' => image'.Heeds BlockMap.HasBitmap)
      image :=
  hengine.mono (fun _ _ hamid => hamid.heeds h) fun _ _ he => ⟨he.1, he.2.heeds h⟩

/-- A call on an image issues no empty write. -/
theorem ImageCall.obeys_filling {image : Image ι} (h : image.Heeds BlockMap.HasBitmap)
    (call : ImageCall) :
    call.engine.Keeps (.filling ι) (fun _ => True)
      (fun _ image' => image'.Heeds BlockMap.HasBitmap) image :=
  Image.keeps_hasBitmap h
    (call.disciplined (BlockMap.discipline_filling image.disk) h fun _ => trivial)

end VirtualDisk
