import VirtualDisk.Storage.Medium

/-!
# Scripted faults

A drive can be told to fail. A `Fault` is a rule: which calls it applies to, how many of them it
lets pass first, how often it acts, and what it does. On each call the first rule of the script
that applies is used, and it is the only one.
-/

namespace VirtualDisk.Storage

/-- The kinds of request. -/
inductive Call where
  | length
  | resize
  | read
  | write
  | flush
  deriving DecidableEq, Repr

namespace Request

/-- The kind of a request. -/
def call : Request → Call
  | .length => .length
  | .resize _ => .resize
  | .read _ _ => .read
  | .write _ _ => .write
  | .flush => .flush

/-- The position that a request names, zero where it names none. -/
def offset : Request → Nat
  | .read offset _ => offset
  | .write offset _ => offset
  | _ => 0

/-- The size that a request names, zero where it names none. -/
def size : Request → Nat
  | .resize size => size
  | .read _ size => size
  | .write _ data => data.size
  | _ => 0

end Request

/-- What a fault does with the call that it hits. -/
inductive FaultAction where
  /-- Fail, with no effect. -/
  | fail
  /-- Fail after a write has been carried out for its first bytes only. -/
  | tear (keep : Nat)
  /-- Report success, with no effect. -/
  | swallow
  deriving DecidableEq, Repr

/-- The error that a failing call reports. -/
inductive FaultCause where
  | outOfBounds
  | notSupported (what : String)
  | offsetOverflow
  | io (what : String)
  deriving DecidableEq, Repr

/-- The error that a fault reports for a request. -/
def FaultCause.error (request : Request) : FaultCause → Error
  | .outOfBounds => .outOfBounds request.offset request.size 0
  | .notSupported what => .notSupported what
  | .offsetOverflow => .offsetOverflow
  | .io what => .io what

/-- A rule by which a drive fails. -/
structure Fault where
  call : Call
  /-- The position that a call must name, if any will not do. -/
  offset? : Option Nat
  /-- The size that a call must name, if any will not do. -/
  size? : Option Nat
  /-- How many calls pass before the rule acts. -/
  skip : Nat
  /-- How often the rule acts. -/
  times : Nat
  action : FaultAction
  cause : FaultCause
  deriving DecidableEq, Repr

namespace Fault

/-- The rule is used for this request. -/
def Applies (fault : Fault) (request : Request) : Prop :=
  fault.call = request.call ∧ 0 < fault.times ∧
    (∀ offset ∈ fault.offset?, offset = request.offset) ∧
    (∀ size ∈ fault.size?, size = request.size)

instance (fault : Fault) (request : Request) : Decidable (fault.Applies request) :=
  inferInstanceAs (Decidable (_ ∧ _ ∧ _ ∧ _))

/-- Looks up a request in a script: the fault that hits it, if any, and the script afterwards. -/
def consult (request : Request) : List Fault → Option Fault × List Fault
  | [] => (none, [])
  | fault :: rest =>
    if fault.Applies request then
      if 0 < fault.skip then (none, { fault with skip := fault.skip - 1 } :: rest)
      else (some fault, { fault with times := fault.times - 1 } :: rest)
    else
      let (hit, rest) := consult request rest
      (hit, fault :: rest)

/-- The answer of a request that is granted without being carried out. -/
def swallowed (content : Content) : (request : Request) → request.Reply
  | .length => content.size
  | .resize _ => ()
  | .read _ size => Bytes.zero size
  | .write _ _ => ()
  | .flush => ()

/-- What becomes of a request that the fault hits. A torn write that the medium itself refuses
reports the reason of the medium. -/
def strike (fault : Fault) (medium : Medium) (request : Request) (content : Content) :
    Except Error request.Reply × Content :=
  match fault.action, request with
  | .swallow, request => (.ok (swallowed content request), content)
  | .tear keep, .write offset data =>
    match medium.write content offset (data.extract 0 keep) with
    | .ok torn => (.error (fault.cause.error (.write offset data)), torn)
    | .error e => (.error e, content)
  | _, request => (.error (fault.cause.error request), content)

end Fault

end VirtualDisk.Storage
