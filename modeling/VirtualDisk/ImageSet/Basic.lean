import VirtualDisk.Image.Transfer

/-!
# Sets of images

An image set owns the images of differencing chains. An image is numbered when it is put into the
set, and a differencing image names its parent by the parent's number. The parent has to be there
first, so numbers decrease along a chain and every chain ends. One parent may have any number of
children.
-/

namespace VirtualDisk

open Storage

/-- An image in a set, with the number of its parent. -/
structure Member (ι : Type) where
  image : Image ι
  parent : Option Nat

/-- Images by number. -/
structure ImageSet (ι : Type) where
  members : Array (Member ι)

namespace ImageSet

variable {ι α : Type}

/-- The set without images. -/
def empty : ImageSet ι := ⟨#[]⟩

/-- The number of images. -/
def size (set : ImageSet ι) : Nat := set.members.size

/-- The member of a number. -/
def member (set : ImageSet ι) (id : Nat) : Except Error (Member ι) :=
  match set.members[id]? with
  | some member => .ok member
  | none => .error (.unknownImage id)

/-- The image of a number. -/
def image (set : ImageSet ι) (id : Nat) : Except Error (Image ι) := do
  return (← set.member id).image

/-- The number of an image's parent. -/
def parent (set : ImageSet ι) (id : Nat) : Except Error (Option Nat) := do
  return (← set.member id).parent

/-- Adds a member and returns its number. -/
def push (set : ImageSet ι) (image : Image ι) (parent : Option Nat) : Nat × ImageSet ι :=
  (set.size, ⟨set.members.push ⟨image, parent⟩⟩)

/-- Adds an image that needs no parent. -/
def insert (set : ImageSet ι) (image : Image ι) : Except Error (Nat × ImageSet ι) :=
  match image.diskType with
  | .differencing => .error .parentUnavailable
  | _ => .ok (set.push image none)

/-- Adds a differencing image on top of a member, which must have the unique id that the image
records. -/
def insertDifferencing (set : ImageSet ι) (image : Image ι) (parent : Nat) :
    Except Error (Nat × ImageSet ι) := do
  let some uniqueId := image.parentUniqueId?
    | throw (.unsupported .notDifferencing)
  if (← set.image parent).footer.uniqueId ≠ uniqueId then throw .parentMismatch
  return set.push image (some parent)

/-- Puts another image into the place of a member, whose parent stays what it is. -/
def replace (set : ImageSet ι) (id : Nat) (image : Image ι) : Except Error (ImageSet ι) := do
  let member ← set.member id
  return ⟨set.members.setIfInBounds id { member with image }⟩

/-- Runs an engine on one image of the set. -/
def onImage (id : Nat) (engine : Engine ι (Image ι) α) : Engine ι (ImageSet ι) α := do
  let set ← get
  let member ← set.member id
  Engine.on member.image (fun image => ⟨set.members.setIfInBounds id { member with image }⟩) engine

end ImageSet

end VirtualDisk
