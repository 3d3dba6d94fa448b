import VirtualDisk.Storage.Program
import VirtualDisk.Sector

/-!
# Access to storages

Two kinds of computation use disks. An `Access` may fail. An `Engine` also carries a state, and
keeps it when it fails: whatever was cached, flushed or recorded before a failure stays so, exactly
as the requests that were already granted stay granted.

`Engine.on` runs an engine on a part of a larger state.
-/

namespace VirtualDisk.Storage

/-- A computation on disks that may fail. -/
abbrev Access (ι : Type) := ExceptT Error (Program ι)

/-- A computation on disks with a state that outlives failures. -/
abbrev Engine (ι σ : Type) := ExceptT Error (StateT σ (Program ι))

variable {ι σ τ ω α β : Type}

instance : MonadLift (Access ι) (Engine ι σ) where
  monadLift access := ExceptT.mk (StateT.lift access.run)

namespace Access

/-- Issues one request and fails if it is refused. -/
def ask (disk : ι) (request : Request) : Access ι request.Reply :=
  ExceptT.mk (.ask disk request .done)

/-- The size of a storage. -/
def length (disk : ι) : Access ι Nat := ask disk .length

/-- Gives a storage a new size. -/
def resize (disk : ι) (size : Nat) : Access ι Unit := ask disk (.resize size)

/-- Reads a range. -/
def read (disk : ι) (offset size : Nat) : Access ι (Bytes size) := ask disk (.read offset size)

/-- Writes bytes at a position. -/
def write {n : Nat} (disk : ι) (offset : Nat) (data : Bytes n) : Access ι Unit :=
  ask disk (.write offset data.toByteArray)

/-- Makes a storage durable. -/
def flush (disk : ι) : Access ι Unit := ask disk .flush

/-- Reads a range whose place is given by the image: if the storage ends before it, the image is
corrupt. -/
def readWithin (disk : ι) (offset size : Nat) (what : Corruption) : Access ι (Bytes size) :=
  (read disk offset size).adapt (·.orCorrupt what)

/-- Plays a computation against a server. -/
def runOn (server : Server ι ω) (access : Access ι α) (world : ω) : Except Error α × ω :=
  access.run.run server world

@[simp] theorem runOn_pure (server : Server ι ω) (a : α) (world : ω) :
    runOn server (pure a) world = (.ok a, world) := rfl

@[simp] theorem runOn_ask (server : Server ι ω) (disk : ι) (request : Request) (world : ω) :
    runOn server (ask disk request) world = server disk request world := rfl

@[simp] theorem runOn_length (server : Server ι ω) (disk : ι) (world : ω) :
    runOn server (length disk) world = server disk .length world := rfl

@[simp] theorem runOn_resize (server : Server ι ω) (disk : ι) (size : Nat) (world : ω) :
    runOn server (resize disk size) world = server disk (.resize size) world := rfl

@[simp] theorem runOn_read (server : Server ι ω) (disk : ι) (offset size : Nat) (world : ω) :
    runOn server (read disk offset size) world = server disk (.read offset size) world := rfl

@[simp] theorem runOn_write {n : Nat} (server : Server ι ω) (disk : ι) (offset : Nat)
    (data : Bytes n) (world : ω) :
    runOn server (write disk offset data) world =
      server disk (.write offset data.toByteArray) world := rfl

@[simp] theorem runOn_flush (server : Server ι ω) (disk : ι) (world : ω) :
    runOn server (flush disk) world = server disk .flush world := rfl

@[simp] theorem runOn_liftExcept (server : Server ι ω) (result : Except Error α) (world : ω) :
    runOn server (liftM result : Access ι α) world = (result, world) := rfl

/-- What comes second runs only if what comes first succeeds, on the world that the first leaves. -/
theorem runOn_bind (server : Server ι ω) (access : Access ι α) (f : α → Access ι β) (world : ω) :
    runOn server (access >>= f) world =
      match runOn server access world with
      | (.ok a, world) => runOn server (f a) world
      | (.error e, world) => (.error e, world) := by
  simp only [runOn, ExceptT.run_bind, Program.run_bind]
  rcases h : Program.run server access.run world with ⟨_ | _, _⟩ <;> simp

theorem runOn_bind_ok {server : Server ι ω} {access : Access ι α} {world world' : ω} {a : α}
    (h : runOn server access world = (.ok a, world')) (f : α → Access ι β) :
    runOn server (access >>= f) world = runOn server (f a) world' := by
  rw [runOn_bind, h]

theorem runOn_bind_error {server : Server ι ω} {access : Access ι α} {world world' : ω} {e : Error}
    (h : runOn server access world = (.error e, world')) (f : α → Access ι β) :
    runOn server (access >>= f) world = (.error e, world') := by
  rw [runOn_bind, h]

theorem runOn_readWithin (server : Server ι ω) (disk : ι) (offset size : Nat) (what : Corruption)
    (world : ω) :
    runOn server (readWithin disk offset size what) world =
      ((server disk (.read offset size) world).1.mapError (·.orCorrupt what),
        (server disk (.read offset size) world).2) := by
  change Program.run server ((read disk offset size).run >>= fun result =>
    pure (result.mapError (·.orCorrupt what))) world = _
  rw [Program.run_bind]
  rfl

end Access

namespace Engine

/-- Runs an engine on a part of the state, from the value `part` on. Whether or not it fails, the
state afterwards is what `put` makes of the part that it leaves. -/
def on (part : σ) (put : σ → τ) (engine : Engine ι σ α) : Engine ι τ α :=
  ExceptT.mk fun _ => do
    let (result, part) ← engine.run.run part
    pure (result, put part)

/-- Plays a computation against a server, from a given state on. -/
def runOn (server : Server ι ω) (engine : Engine ι σ α) (state : σ) (world : ω) :
    (Except Error α × σ) × ω :=
  (engine.run.run state).run server world

@[simp] theorem runOn_pure (server : Server ι ω) (a : α) (state : σ) (world : ω) :
    runOn server (pure a) state world = ((.ok a, state), world) := rfl

@[simp] theorem runOn_get (server : Server ι ω) (state : σ) (world : ω) :
    runOn server (get : Engine ι σ σ) state world = ((.ok state, state), world) := rfl

@[simp] theorem runOn_set (server : Server ι ω) (next state : σ) (world : ω) :
    runOn server (set next : Engine ι σ PUnit) state world = ((.ok ⟨⟩, next), world) := rfl

@[simp] theorem runOn_liftExcept (server : Server ι ω) (result : Except Error α) (state : σ)
    (world : ω) :
    runOn server (liftM result : Engine ι σ α) state world = ((result, state), world) := rfl

@[simp] theorem runOn_liftAccess (server : Server ι ω) (access : Access ι α) (state : σ)
    (world : ω) :
    runOn server (liftM access : Engine ι σ α) state world =
      (((access.runOn server world).1, state), (access.runOn server world).2) := by
  change Program.run server (access.run >>= fun a => pure (a, state)) world = _
  rw [Program.run_bind]
  rfl

theorem runOn_bind (server : Server ι ω) (engine : Engine ι σ α) (f : α → Engine ι σ β) (state : σ)
    (world : ω) :
    runOn server (engine >>= f) state world =
      match runOn server engine state world with
      | ((.ok a, state), world) => runOn server (f a) state world
      | ((.error e, state), world) => ((.error e, state), world) := by
  simp only [runOn, ExceptT.run_bind, StateT.run_bind, Program.run_bind]
  rcases h : Program.run server (engine.run.run state) world with ⟨⟨_ | _, _⟩, _⟩ <;> simp

theorem runOn_bind_ok {server : Server ι ω} {engine : Engine ι σ α} {state state' : σ}
    {world world' : ω} {a : α} (h : runOn server engine state world = ((.ok a, state'), world'))
    (f : α → Engine ι σ β) :
    runOn server (engine >>= f) state world = runOn server (f a) state' world' := by
  rw [runOn_bind, h]

theorem runOn_bind_error {server : Server ι ω} {engine : Engine ι σ α} {state state' : σ}
    {world world' : ω} {e : Error}
    (h : runOn server engine state world = ((.error e, state'), world')) (f : α → Engine ι σ β) :
    runOn server (engine >>= f) state world = ((.error e, state'), world') := by
  rw [runOn_bind, h]

/-- The part is run on its own and stored back; the whole is not looked at. -/
@[simp] theorem runOn_on (server : Server ι ω) (part : σ) (put : σ → τ) (engine : Engine ι σ α)
    (whole : τ) (world : ω) :
    runOn server (on part put engine) whole world =
      (((engine.runOn server part world).1.1, put (engine.runOn server part world).1.2),
        (engine.runOn server part world).2) := by
  change Program.run server (engine.run.run part >>= fun a => pure (a.1, put a.2)) world = _
  rw [Program.run_bind]
  rfl

end Engine

end VirtualDisk.Storage
