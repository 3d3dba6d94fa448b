import VirtualDisk.Storage.Request

/-!
# Programs over storages

A `Program` is a tree: it is done with a value, or it issues a request to one of the disks and goes
on with whatever the answer is. A program says nothing about media. A `Server` answers the requests
of a program from some state of the world, and `Program.run` plays the one against the other.

Everything the library does to a disk is such a tree. Running it on sound media, on media that
fail, recording its requests or cutting it off half-way are different servers for one and the same
program, so they cannot disagree about what the program does.
-/

namespace VirtualDisk.Storage

/-- A program that uses the disks named by `ι` and ends with an `α`. -/
inductive Program (ι α : Type) where
  | done (value : α)
  | ask (disk : ι) (request : Request) (next : Except Error request.Reply → Program ι α)

/-- How requests are answered, given a state of the world. -/
abbrev Server (ι ω : Type) :=
  ι → (request : Request) → ω → Except Error request.Reply × ω

namespace Program

variable {ι ω α β γ : Type}

/-- Goes on with another program after the first is done. -/
def bind : Program ι α → (α → Program ι β) → Program ι β
  | done value, f => f value
  | ask disk request next, f => ask disk request fun reply => (next reply).bind f

instance : Monad (Program ι) where
  pure := done
  bind := bind

@[simp] theorem pure_eq (a : α) : (pure a : Program ι α) = done a := rfl

@[simp] theorem done_bind (a : α) (f : α → Program ι β) : done a >>= f = f a := rfl

@[simp] theorem ask_bind (disk : ι) (request : Request)
    (next : Except Error request.Reply → Program ι α) (f : α → Program ι β) :
    ask disk request next >>= f = ask disk request fun reply => next reply >>= f := rfl

theorem bind_done (p : Program ι α) : p.bind done = p := by
  induction p with
  | done => rfl
  | ask disk request next ih => exact congrArg (ask disk request) (funext ih)

theorem bind_assoc (p : Program ι α) (f : α → Program ι β) (g : β → Program ι γ) :
    (p.bind f).bind g = p.bind fun a => (f a).bind g := by
  induction p with
  | done => rfl
  | ask disk request next ih => exact congrArg (ask disk request) (funext ih)

instance : LawfulMonad (Program ι) :=
  LawfulMonad.mk' (Program ι) bind_done (fun _ _ => rfl) bind_assoc

/-- Plays a program against a server. -/
def run (server : Server ι ω) : Program ι α → ω → α × ω
  | done value, world => (value, world)
  | ask disk request next, world =>
    let (reply, world) := server disk request world
    run server (next reply) world

@[simp] theorem run_done (server : Server ι ω) (a : α) (world : ω) :
    run server (done a) world = (a, world) := rfl

@[simp] theorem run_ask (server : Server ι ω) (disk : ι) (request : Request)
    (next : Except Error request.Reply → Program ι α) (world : ω) :
    run server (ask disk request next) world =
      run server (next (server disk request world).1) (server disk request world).2 := rfl

@[simp] theorem run_bind (server : Server ι ω) (p : Program ι α) (f : α → Program ι β) (world : ω) :
    run server (p >>= f) world = run server (f (run server p world).1) (run server p world).2 := by
  induction p generalizing world with
  | done => rfl
  | ask disk request next ih => exact ih _ _

end Program

end VirtualDisk.Storage
