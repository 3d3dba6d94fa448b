import VirtualDisk.Storage.Program
import VirtualDisk.Storage.Fault

/-!
# A rack of drives

A rack holds numbered drives. Each drive has a medium with its content and a script of faults, and
may be watched: requests to a watched drive are recorded, with a mark on those that a fault hit.
Asking for the length of a drive is never recorded.

`Rack.serve` is the server by which programs run on a rack. `Rack.direct` goes past script and
record, straight to the medium.
-/

namespace VirtualDisk.Storage

/-- A medium with its content, as it is installed in a rack. -/
structure Drive where
  /-- The number by which the record refers to the drive. -/
  label : Nat
  medium : Medium
  content : Content
  watched : Bool
  faults : List Fault := []

/-- A recorded request. -/
structure Event where
  label : Nat
  call : Call
  offset : Nat
  size : Nat
  /-- A fault hit the request. -/
  struck : Bool
  deriving DecidableEq, Repr

/-- Drives by number, and what was recorded, the latest first. -/
structure Rack where
  drives : Array Drive
  events : List Event

namespace Drive

/-- Carries out a request on the medium. -/
def direct (drive : Drive) (request : Request) : Except Error request.Reply × Drive :=
  let (reply, content) := drive.medium.serve request drive.content
  (reply, { drive with content })

/-- Carries out a request under the script. The flag says whether a fault hit it. -/
def serve (drive : Drive) (request : Request) : Except Error request.Reply × Bool × Drive :=
  match Fault.consult request drive.faults with
  | (none, faults) =>
    let (reply, content) := drive.medium.serve request drive.content
    (reply, false, { drive with content, faults })
  | (some fault, faults) =>
    let (reply, content) := fault.strike drive.medium request drive.content
    (reply, true, { drive with content, faults })

/-- The record of a request, if the drive is watched and the request is one that is recorded. -/
def event? (drive : Drive) (request : Request) (struck : Bool) : Option Event :=
  if drive.watched ∧ request.call ≠ .length then
    some ⟨drive.label, request.call, request.offset, request.size, struck⟩
  else none

end Drive

namespace Rack

/-- An empty rack. -/
def empty : Rack := ⟨#[], []⟩

/-- Installs a drive and returns its number. -/
def install (rack : Rack) (drive : Drive) : Nat × Rack :=
  (rack.drives.size, { rack with drives := rack.drives.push drive })

/-- The drive of a number. -/
def drive? (rack : Rack) (disk : Nat) : Option Drive := rack.drives[disk]?

/-- Changes the drive of a number. -/
def modify (rack : Rack) (disk : Nat) (f : Drive → Drive) : Rack :=
  { rack with drives := rack.drives.modify disk f }

/-- Carries out a request on a drive, past its script and its record. -/
def direct : Server Nat Rack := fun disk request rack =>
  if h : disk < rack.drives.size then
    let (reply, drive) := rack.drives[disk].direct request
    (reply, { rack with drives := rack.drives.set disk drive })
  else (.error (.trap .noSuchDisk), rack)

/-- Carries out a request on a drive, under its script, and records it. -/
def serve : Server Nat Rack := fun disk request rack =>
  if h : disk < rack.drives.size then
    let (reply, struck, drive) := rack.drives[disk].serve request
    let events := (drive.event? request struck).toList ++ rack.events
    (reply, { rack with drives := rack.drives.set disk drive, events })
  else (.error (.trap .noSuchDisk), rack)

end Rack

end VirtualDisk.Storage
