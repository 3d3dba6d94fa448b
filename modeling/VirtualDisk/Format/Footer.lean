import VirtualDisk.Bytes.Field
import VirtualDisk.Format.Geometry

/-!
# The footer

Every image ends with a footer of one sector, which says what kind of disk it is and how large.
Images with a block table keep a copy of it at their beginning.

`Footer.parse` reads a footer and keeps the bytes that it was read from, so that the same bytes can
be written again. `Footer.build` lays out a new one.
-/

namespace VirtualDisk

/-- The kinds of disk. -/
inductive DiskType where
  | fixed
  | dynamic
  | differencing
  deriving DecidableEq, Repr

namespace DiskType

/-- The number by which the footer names a kind of disk. -/
def code : DiskType → Nat
  | fixed => 2
  | dynamic => 3
  | differencing => 4

/-- The kind of disk that a number names. -/
def ofCode? : Nat → Option DiskType
  | 2 => some fixed
  | 3 => some dynamic
  | 4 => some differencing
  | _ => none

@[simp] theorem ofCode?_code (t : DiskType) : ofCode? t.code = some t := by cases t <;> rfl

theorem ofCode?_eq_some_iff {n : Nat} {t : DiskType} : ofCode? n = some t ↔ n = t.code := by
  constructor
  · intro h
    unfold ofCode? at h
    split at h <;> cases h <;> rfl
  · rintro rfl
    exact ofCode?_code t

end DiskType

/-- The version that footers and headers are written for. -/
def formatVersion : Nat := 0x00010000

namespace Footer

/-- The text "conectix", by which a footer is recognised. -/
def cookie : Bytes 8 := Bytes.ofList [0x63, 0x6f, 0x6e, 0x65, 0x63, 0x74, 0x69, 0x78]

/-- The text "Wi2k", which names the host system. -/
def creatorHost : Bytes 4 := Bytes.ofList [0x57, 0x69, 0x32, 0x6b]

def cookieField : Field 512 8 := ⟨0, by decide⟩
def featuresField : Field 512 4 := ⟨8, by decide⟩
def versionField : Field 512 4 := ⟨12, by decide⟩
def dataOffsetField : Field 512 8 := ⟨16, by decide⟩
def timestampField : Field 512 4 := ⟨24, by decide⟩
def creatorAppField : Field 512 4 := ⟨28, by decide⟩
def creatorVersionField : Field 512 4 := ⟨32, by decide⟩
def creatorHostField : Field 512 4 := ⟨36, by decide⟩
def initialSizeField : Field 512 8 := ⟨40, by decide⟩
def currentSizeField : Field 512 8 := ⟨48, by decide⟩
def cylindersField : Field 512 2 := ⟨56, by decide⟩
def headsField : Field 512 1 := ⟨58, by decide⟩
def sectorsPerTrackField : Field 512 1 := ⟨59, by decide⟩
def diskTypeField : Field 512 4 := ⟨60, by decide⟩
def checksumField : Field 512 4 := ⟨64, by decide⟩
def uniqueIdField : Field 512 16 := ⟨68, by decide⟩

end Footer

/-- A footer, with the bytes that hold it. -/
structure Footer where
  /-- Where the header of the block table is, or all ones. -/
  dataOffset : UInt64
  /-- Seconds since the first of January 2000. -/
  timestamp : UInt32
  /-- The size of the disk in bytes. -/
  currentSize : UInt64
  geometry : Geometry
  diskType : DiskType
  uniqueId : Bytes 16
  raw : Sector
  deriving DecidableEq

/-- What a new footer says. -/
structure FooterFields where
  dataOffset : UInt64
  timestamp : UInt32
  creatorApp : Bytes 4
  size : UInt64
  geometry : Geometry
  diskType : DiskType
  uniqueId : Bytes 16
  deriving DecidableEq

namespace Footer

/-- The bytes begin like a footer. This is weaker than being one: nothing else is looked at. -/
def hasCookie (bytes : ByteArray) : Bool := bytes.extract 0 8 = cookie.toByteArray

/-- Reads a footer. It must have the cookie, a right checksum, a known kind of disk, and a size of
one or more whole sectors; the first of these that fails is reported. -/
def parse (raw : Sector) : Except Error Footer := do
  if cookieField.get raw ≠ cookie then throw (.corrupt .footerCookie)
  if ¬ checksumField.Stamped raw then throw (.corrupt .footerChecksum)
  let some diskType := DiskType.ofCode? (diskTypeField.number raw)
    | throw (.unsupported .diskType)
  let size := currentSizeField.number raw
  if size = 0 ∨ size % 512 ≠ 0 then throw (.corrupt .currentSize)
  return {
    dataOffset := UInt64.ofNat (dataOffsetField.number raw)
    timestamp := UInt32.ofNat (timestampField.number raw)
    currentSize := UInt64.ofNat size
    geometry := {
      cylinders := UInt16.ofNat (cylindersField.number raw)
      heads := UInt8.ofNat (headsField.number raw)
      sectorsPerTrack := UInt8.ofNat (sectorsPerTrackField.number raw) }
    diskType
    uniqueId := uniqueIdField.get raw
    raw }

/-- The bytes of a footer, but for the checksum. -/
def layOut (fields : FooterFields) : Sector :=
  Bytes.zero 512
    |> cookieField.set cookie
    |> featuresField.setNumber 2
    |> versionField.setNumber formatVersion
    |> dataOffsetField.setNumber fields.dataOffset.toNat
    |> timestampField.setNumber fields.timestamp.toNat
    |> creatorAppField.set fields.creatorApp
    |> creatorVersionField.setNumber formatVersion
    |> creatorHostField.set creatorHost
    |> initialSizeField.setNumber fields.size.toNat
    |> currentSizeField.setNumber fields.size.toNat
    |> cylindersField.setNumber fields.geometry.cylinders.toNat
    |> headsField.setNumber fields.geometry.heads.toNat
    |> sectorsPerTrackField.setNumber fields.geometry.sectorsPerTrack.toNat
    |> diskTypeField.setNumber fields.diskType.code
    |> uniqueIdField.set fields.uniqueId

/-- Lays out a new footer. It is read back, so a size that no footer may have is refused here. -/
def build (fields : FooterFields) : Except Error Footer :=
  parse (checksumField.stamp (layOut fields))

end Footer

end VirtualDisk
