import VirtualDisk.Error
import VirtualDisk.Bytes.Basic

/-!
# What can be asked of a storage

A storage is a byte string that can be read and written at any position. `Request` lists what the
library asks of one, and `Request.Reply` what a granted request is answered with. Nothing else
passes between an image and the medium that it lives on.
-/

namespace VirtualDisk.Storage

/-- One call to a storage. -/
inductive Request where
  /-- How many bytes are there? -/
  | length
  /-- Cut the storage, or extend it with zeros, to a size. -/
  | resize (size : Nat)
  /-- The bytes of a range; a range past the end is an error. -/
  | read (offset size : Nat)
  /-- Store bytes at a position, growing the storage where needed. -/
  | write (offset : Nat) (data : ByteArray)
  /-- Make everything written so far durable. -/
  | flush
  deriving DecidableEq

/-- The answer to a request that is granted. -/
@[reducible] def Request.Reply : Request → Type
  | .length => Nat
  | .resize _ => Unit
  | .read _ size => Bytes size
  | .write _ _ => Unit
  | .flush => Unit

end VirtualDisk.Storage
