import VirtualDisk.Storage.Request
import VirtualDisk.Storage.Content

/-!
# Media

A medium keeps a content and grants or refuses requests on it. Both kinds answer reads alike: a
range that leaves the 64-bit positions is an overflow, and one that leaves the content is out of
bounds. They differ in what changes the content. Memory grows with every write, an empty one
included. A file of the host is not touched by an empty write, may be marked read-only, and is
limited to what the host can address.
-/

namespace VirtualDisk.Storage

/-- How a file of the host is used. -/
structure HostFile where
  /-- Changes are refused before the host is asked. -/
  readOnly : Bool
  /-- The host lets the file be changed. -/
  writable : Bool
  deriving DecidableEq, Repr

/-- What a content is kept in. -/
inductive Medium where
  | memory
  | file (host : HostFile)
  deriving DecidableEq, Repr

namespace HostFile

/-- A file opened for reading and writing. -/
def readWrite : HostFile := { readOnly := false, writable := true }

/-- A file opened for reading. -/
def opened : HostFile := { readOnly := true, writable := false }

/-- A file opened for reading and writing that is marked read-only afterwards. -/
def marked : HostFile := { readOnly := true, writable := true }

/-- The refusal to open a file that is not there. -/
def missing : Error := .io "No such file or directory (os error 2)"

/-- The host was given a number that it does not accept. -/
def invalid : Error := .io "Invalid argument (os error 22)"

/-- Why the host refuses to write a range, if it does. Its positions are signed 64-bit numbers, and
both ends of the range have to be among them. The start is looked at before the file is. -/
def refusal? (host : HostFile) (offset size : Nat) : Option Error :=
  if 2 ^ 63 ≤ offset then some invalid
  else if !host.writable then some (.io "Bad file descriptor (os error 9)")
  else if 2 ^ 63 ≤ offset + size then some invalid
  else none

/-- Why a new size is refused, if it is. -/
def resizeRefusal? (host : HostFile) (size : Nat) : Option Error :=
  if host.readOnly then some (.notSupported "read-only backend")
  else if 2 ^ 63 ≤ size then some (.io "number too large to fit in target type")
  else if !host.writable then some invalid
  else none

end HostFile

namespace Medium

/-- The bytes of a range that lies within the content. -/
def read (content : Content) (offset size : Nat) : Except Error (Bytes size) :=
  if 2 ^ 64 ≤ offset + size then .error .offsetOverflow
  else if content.size < offset + size then .error (.outOfBounds offset size content.size)
  else .ok (content.read offset size)

/-- The content after a write, or the reason why it is refused. -/
def write (medium : Medium) (content : Content) (offset : Nat) (data : ByteArray) :
    Except Error Content :=
  if 2 ^ 64 ≤ offset + data.size then .error .offsetOverflow
  else match medium with
    | .memory => .ok (content.write offset (Bytes.ofByteArray data))
    | .file host =>
      if host.readOnly then .error (.notSupported "read-only backend")
      else if data.size = 0 then .ok content
      else match host.refusal? offset data.size with
        | some e => .error e
        | none => .ok (content.write offset (Bytes.ofByteArray data))

/-- The content with a new size, or the reason why it is refused. -/
def resize (medium : Medium) (content : Content) (size : Nat) : Except Error Content :=
  match medium with
  | .memory => .ok (content.resize size)
  | .file host =>
    match host.resizeRefusal? size with
    | some e => .error e
    | none => .ok (content.resize size)

/-- The answer to a change, and what is left behind: a refused change leaves the content alone. -/
def settle (content : Content) : Except Error Content → Except Error Unit × Content
  | .ok changed => (.ok (), changed)
  | .error e => (.error e, content)

/-- Grants or refuses a request. -/
def serve (medium : Medium) : (request : Request) → Content → Except Error request.Reply × Content
  | .length, content => (.ok content.size, content)
  | .resize size, content => settle content (medium.resize content size)
  | .read offset size, content => (read content offset size, content)
  | .write offset data, content => settle content (medium.write content offset data)
  | .flush, content => (.ok (), content)

end Medium

end VirtualDisk.Storage
