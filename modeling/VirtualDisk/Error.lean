/-!
# Causes of failure

Every operation of the library fails with an `Error`, which names the cause. The wording is kept
apart in `Error.message`, so that code and proofs speak about causes only.

A transfer that runs past the end of an image is no failure: it is cut at the capacity and the
number of sectors cut off is reported instead.
-/

namespace VirtualDisk

/-- A rule of the format that an image breaks. -/
inductive Corruption where
  | footerCookie
  | footerChecksum
  | currentSize
  | headerCookie
  | headerChecksum
  | tableMisaligned
  | tableEmpty
  | blockSize
  | tableTruncated
  | blockOutOfRange
  | bitmapTruncated
  | dirtyUnallocated
  | bitmapTooSmall
  | alreadyAllocated
  | footerMissing
  | presentUnallocated
  | dataTruncated
  | diskTruncated
  | fileTooSmall
  | headerOffset
  | headerMisaligned
  | headerTruncated
  | tableTooSmall
  | geometryExceedsTable
  deriving DecidableEq, Repr

/-- What the message of a corrupt image says about it. -/
def Corruption.text : Corruption → String
  | .footerCookie => "vhd footer cookie mismatch"
  | .footerChecksum => "vhd footer checksum mismatch"
  | .currentSize => "vhd current_size invalid"
  | .headerCookie => "vhd dynamic header cookie mismatch"
  | .headerChecksum => "vhd dynamic header checksum mismatch"
  | .tableMisaligned => "vhd bat offset misaligned"
  | .tableEmpty => "vhd max_table_entries is zero"
  | .blockSize => "vhd block_size invalid"
  | .tableTruncated => "vhd bat truncated"
  | .blockOutOfRange => "vhd block index out of range"
  | .bitmapTruncated => "vhd block bitmap truncated"
  | .dirtyUnallocated => "vhd dirty bitmap for sparse block"
  | .bitmapTooSmall => "vhd bitmap too small"
  | .alreadyAllocated => "vhd block already allocated"
  | .footerMissing => "vhd footer missing"
  | .presentUnallocated => "vhd bitmap set for sparse block"
  | .dataTruncated => "vhd block data truncated"
  | .diskTruncated => "vhd fixed disk truncated"
  | .fileTooSmall => "vhd file too small"
  | .headerOffset => "vhd dynamic header offset invalid"
  | .headerMisaligned => "vhd dynamic header offset misaligned"
  | .headerTruncated => "vhd dynamic header truncated"
  | .tableTooSmall => "vhd bat too small"
  | .geometryExceedsTable => "vhd geometry exceeds bat"

/-- A feature, or a size, that the library does not handle. -/
inductive Limitation where
  | diskType
  | headerVersion
  | tableSize
  | bitmapSize
  | blockOffset
  | noBlockTable
  | notDifferencing
  deriving DecidableEq, Repr

/-- What the message of an unsupported image says about it. -/
def Limitation.text : Limitation → String
  | .diskType => "vhd disk type"
  | .headerVersion => "vhd dynamic header version"
  | .tableSize => "vhd bat too large"
  | .bitmapSize => "vhd bitmap too large"
  | .blockOffset => "vhd block offset"
  | .noBlockTable => "vhd image is not sparse"
  | .notDifferencing => "vhd image is not differencing"

/-- Why the options of a new image are refused. -/
inductive BadOption where
  | size
  | noSectors
  | geometryTooLarge
  | blockSize
  | tooManyBlocks
  deriving DecidableEq, Repr

/-- What the message of refused options says about them. -/
def BadOption.text : BadOption → String
  | .size => "size_bytes must be a non-zero multiple of 512"
  | .noSectors => "geometry has no sectors"
  | .geometryTooLarge => "geometry exceeds size_bytes"
  | .blockSize => "block_size must be a non-zero multiple of 512"
  | .tooManyBlocks => "too many blocks"

/-- A step that has no result at all. It stops the computation where an operation would
have to be applied outside its domain, so that "this never happens" can be stated and proved. -/
inductive Trap where
  | windowOutOfRange
  | divisionByZero
  | linkNotDescending
  | noSuchDisk
  deriving DecidableEq, Repr

/-- What the message of a trap says about it. -/
def Trap.text : Trap → String
  | .windowOutOfRange => "window outside the buffer"
  | .divisionByZero => "division by zero"
  | .linkNotDescending => "parent link does not descend"
  | .noSuchDisk => "no such disk"

/-- Why an operation failed. -/
inductive Error where
  | bufferTooSmall (size required : Nat)
  | outOfBounds (offset size capacity : Nat)
  | offsetOverflow
  | corrupt (what : Corruption)
  | unsupported (what : Limitation)
  | invalidOption (what : BadOption)
  | notSupported (what : String)
  | parentUnavailable
  | parentMismatch
  | unknownImage (id : Nat)
  | io (what : String)
  | trap (what : Trap)
  deriving DecidableEq, Repr

namespace Error

/-- The wording of an error. -/
def message : Error → String
  | bufferTooSmall size required => s!"buffer too small: len={size} required={required}"
  | outOfBounds offset size capacity =>
    s!"out of bounds: offset={offset} len={size} capacity={capacity}"
  | offsetOverflow => "integer overflow while computing byte offsets"
  | corrupt what => "corrupt vhd image: " ++ what.text
  | unsupported what => "unsupported vhd feature: " ++ what.text
  | invalidOption what => "invalid configuration: " ++ what.text
  | notSupported what => "backend not supported: " ++ what
  | parentUnavailable => "differencing image read requires its parent chain"
  | parentMismatch => "parent unique id does not match the differencing header"
  | unknownImage id => s!"unknown image id {id}"
  | io what => "io error: " ++ what
  | trap what => what.text

/-- Inside a structure whose place the image itself gives, running past the end of the storage
means that the image is cut short. Every other cause stays what it is. -/
def orCorrupt (what : Corruption) : Error → Error
  | outOfBounds .. => corrupt what
  | e => e

@[simp] theorem orCorrupt_outOfBounds (what : Corruption) (offset size capacity : Nat) :
    (outOfBounds offset size capacity).orCorrupt what = corrupt what := rfl

end Error

end VirtualDisk
