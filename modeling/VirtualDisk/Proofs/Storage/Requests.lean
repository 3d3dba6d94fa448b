import VirtualDisk.Proofs.Storage.Replies
import VirtualDisk.Proofs.Storage.Servers

/-!
# The requests of a run

`Program.requests` lists what a run asks of the disks, and `Program.exchanges` also what they
answer. A disk of which no change is asked keeps its
content; what it answers is then known in advance, up to failures. A run that meets none of these,
and asks one disk only, is the run on that disk alone.
-/

namespace VirtualDisk.Storage

variable {ι ω α β σ τ : Type}

/-- The request may change the content. -/
def Request.Changes : Request → Prop
  | .length => False
  | .resize _ => True
  | .read _ _ => False
  | .write _ _ => True
  | .flush => False

theorem Medium.serve_of_not_changes {request : Request} (h : ¬ request.Changes)
    (content : Content) : (Medium.memory.serve request content).2 = content := by
  cases request with
  | length => rfl
  | resize => exact absurd trivial h
  | read => rfl
  | write => exact absurd trivial h
  | flush => rfl

/-- The disk holds the content, and no change is asked of it. Where `others` is false, it is the
only disk that is used. -/
def Protocol.watching (disk : ι) (content : Content) (others : Prop) : Protocol ι where
  permits other request := (other = disk ∧ ¬ request.Changes) ∨ (other ≠ disk ∧ others)
  answers other request reply := other = disk →
    reply = (Medium.memory.serve request content).1 ∨ ∃ e, reply = .error e

/-- The disk may be read, and holds the content. -/
structure Protocol.Reads (P : Protocol ι) (disk : ι) (content : Content) : Prop where
  permits : ∀ request, ¬ request.Changes → P.permits disk request
  answers : ∀ request reply, P.answers disk request reply →
    reply = (Medium.memory.serve request content).1 ∨ ∃ e, reply = .error e

variable {disk : ι} {content : Content} {others : Prop}

theorem Protocol.watching_reads : (watching disk content others).Reads disk content :=
  ⟨fun _ h => .inl ⟨rfl, h⟩, fun _ _ h => h rfl⟩

theorem shelf_of_not_changes [DecidableEq ι] {request : Request} (h : ¬ request.Changes) (disk : ι)
    (contents : ι → Content) : (shelf disk request contents).2 disk = contents disk :=
  (Function.update_self disk _ contents).trans (Medium.serve_of_not_changes h _)

theorem Protocol.watching_governs [DecidableEq ι] :
    (watching disk content others).Governs shelf.flaky fun world => world.1 disk = content := by
  rintro other request ⟨contents, plan⟩ hcontent hpermits
  have hserve : (shelf other request contents).2 disk = content := by
    obtain ⟨rfl, hkeeps⟩ | ⟨hne, -⟩ := hpermits
    · exact (shelf_of_not_changes hkeeps other contents).trans hcontent
    · exact (Function.update_of_ne (Ne.symm hne) _ contents).trans hcontent
  have hreply : other = disk →
      (shelf other request contents).1 = (Medium.memory.serve request content).1 := by
    rintro rfl
    exact congrArg (fun content => (Medium.memory.serve request content).1) hcontent
  match plan with
  | some e :: plan => exact ⟨fun _ => .inr ⟨e, rfl⟩, hcontent⟩
  | none :: plan => exact ⟨fun hother => .inl (hreply hother), hserve⟩
  | [] => exact ⟨fun hother => .inl (hreply hother), hserve⟩

/-- A request and what it was answered. -/
structure Exchange (ι : Type) where
  disk : ι
  request : Request
  reply : Except Error request.Reply

namespace Program

/-- What a run asks and what it is answered, in order. -/
def exchanges (server : Server ι ω) : Program ι α → ω → List (Exchange ι)
  | done _, _ => []
  | ask disk request next, world =>
    ⟨disk, request, (server disk request world).1⟩ ::
      exchanges server (next (server disk request world).1) (server disk request world).2

/-- What a run asks, in order. -/
def requests (server : Server ι ω) : Program ι α → ω → List (ι × Request)
  | done _, _ => []
  | ask disk request next, world =>
    (disk, request) ::
      requests server (next (server disk request world).1) (server disk request world).2

variable {P : Protocol ι} {Q : α → Prop} {p : Program ι α}

theorem map_exchanges (server : Server ι ω) (p : Program ι α) (world : ω) :
    (p.exchanges server world).map (fun exchange => (exchange.disk, exchange.request)) =
      p.requests server world := by
  induction p generalizing world with
  | done value => rfl
  | ask disk request next ih => exact congrArg (List.cons _) (ih _ _)

theorem Obeys.requests {server : Server ι ω} {I : ω → Prop} {world : ω} (h : p.Obeys P Q)
    (governs : P.Governs server I) (hI : I world) :
    ∀ asked ∈ p.requests server world, P.permits asked.1 asked.2 := by
  induction p generalizing world with
  | done value => exact fun asked hasked => nomatch hasked
  | ask disk request next ih =>
    obtain ⟨hanswer, hI'⟩ := governs disk request world hI h.1
    intro asked hasked
    obtain rfl | hasked := List.mem_cons.mp hasked
    · exact h.1
    · exact ih _ (h.2 _ hanswer) hI' asked hasked

theorem Obeys.exchanges {server : Server ι ω} {I : ω → Prop} {world : ω} (h : p.Obeys P Q)
    (governs : P.Governs server I) (hI : I world) :
    ∀ exchange ∈ p.exchanges server world, P.permits exchange.disk exchange.request := by
  intro exchange hexchange
  have hasked := List.mem_map_of_mem (f := fun exchange => (exchange.disk, exchange.request))
    hexchange
  rw [map_exchanges] at hasked
  exact h.requests governs hI _ hasked

/-- What a program asks of the one disk is permitted in the content in which it asks. -/
theorem Ensures.requests {S : Setting ι} {Q : α → Content → Prop} {content : Content}
    (h : p.Ensures S Q content) (stays : p.Stays S.within sole content) :
    ∀ asked ∈ p.requests sole content, ∃ current, S.permits asked.2 current := by
  induction p generalizing content with
  | done value => exact fun asked hasked => nomatch hasked
  | ask disk request next ih =>
    obtain ⟨-, hpermits, hnext, -⟩ := h stays.1
    intro asked hasked
    obtain rfl | hasked := List.mem_cons.mp hasked
    · exact ⟨content, hpermits⟩
    · exact ih _ hnext stays.2 asked hasked

/-- The calls that a run makes do not fail, as far as the plan has a say in it. -/
def Faultless (server : Server ι ω) (p : Program ι α) (world : ω)
    (plan : List (Option Error)) : Prop :=
  ∀ fault ∈ plan.take (p.requests server.flaky (world, plan)).length, fault = none

/-- Without failures, what a program finds on the one disk that it reads is what is there. -/
theorem Obeys.run_faultless [DecidableEq ι] {contents : ι → Content} {plan : List (Option Error)}
    (h : p.Obeys (.watching disk content False) Q) (hcontent : contents disk = content)
    (faultless : p.Faultless shelf contents plan) :
    (p.run shelf.flaky (contents, plan)).1 = (p.run sole content).1 := by
  induction p generalizing contents plan with
  | done value => rfl
  | ask other request next ih =>
    obtain ⟨hpermits, hnext⟩ := h
    obtain ⟨rfl, hkeeps⟩ := hpermits.resolve_right fun hother => hother.2
    have hreply : (shelf other request contents).1 = (sole other request content).1 :=
      congrArg (fun content => (Medium.memory.serve request content).1) hcontent
    have hcontent' : (shelf other request contents).2 other = content :=
      (shelf_of_not_changes hkeeps other contents).trans hcontent
    have hsame : (sole other request content).2 = content := Medium.serve_of_not_changes hkeeps _
    have hgoes := hnext (shelf other request contents).1 fun _ => .inl hreply
    rw [run_ask sole, ← hreply, hsame]
    match plan with
    | some e :: plan => exact nomatch faultless _ (List.mem_cons_self ..)
    | none :: plan =>
      exact ih _ hgoes hcontent' fun fault hfault =>
        faultless fault (List.mem_cons_of_mem _ hfault)
    | [] => exact ih _ hgoes hcontent' fun fault hfault => by simp at hfault

/-- A program that only reads one disk of a shelf runs as it does on that disk alone. -/
theorem Obeys.run_shelf [DecidableEq ι] {contents : ι → Content}
    (h : p.Obeys (.watching disk (contents disk) False) Q) :
    p.run shelf contents = ((p.run sole (contents disk)).1, contents) ∧
      Q (p.run sole (contents disk)).1 := by
  induction p with
  | done value => exact ⟨rfl, h⟩
  | ask other request next ih =>
    obtain ⟨hpermits, hnext⟩ := h
    obtain ⟨rfl, hkeeps⟩ := hpermits.resolve_right fun hother => hother.2
    have hsame : (sole other request (contents other)).2 = contents other :=
      Medium.serve_of_not_changes hkeeps _
    have hshelf : (shelf other request contents).2 = contents :=
      (congrArg (Function.update contents other) hsame).trans (Function.update_eq_self ..)
    rw [run_ask shelf, run_ask sole, hshelf, hsame]
    exact ih _ (hnext _ fun _ => .inl rfl)

theorem requests_bind {server : Server ι ω} (p : Program ι α) (f : α → Program ι β) (world : ω) :
    (p >>= f).requests server world = p.requests server world ++
      (f (p.run server world).1).requests server (p.run server world).2 := by
  induction p generalizing world with
  | done value => rfl
  | ask disk request next ih => exact congrArg (List.cons _) (ih _ _)

/-- Where no request is among those to be avoided, the server may give any answer to these. -/
theorem Obeys.run_avoiding {server : Server ι ω} {avoid : Request → Prop} {world : ω}
    (h : p.Obeys P Q)
    (answers : ∀ disk request world, ¬ avoid request →
      P.answers disk request (server disk request world).1)
    (avoids : ∀ asked ∈ p.requests server world, ¬ avoid asked.2) :
    Q (p.run server world).1 := by
  induction p generalizing world with
  | done value => exact h
  | ask disk request next ih =>
    have hanswer := answers disk request world (avoids (disk, request) (List.mem_cons_self ..))
    exact ih _ (h.2 _ hanswer) fun asked hasked => avoids asked (List.mem_cons_of_mem _ hasked)

end Program

namespace Engine

/-- What a run asks and what it is answered, in order. -/
def exchanges (server : Server ι ω) (engine : Engine ι σ α) (state : σ) (world : ω) :
    List (Exchange ι) :=
  (engine.run.run state).exchanges server world

/-- What a run asks, in order. -/
def requests (server : Server ι ω) (engine : Engine ι σ α) (state : σ) (world : ω) :
    List (ι × Request) :=
  (engine.run.run state).requests server world

/-- What comes second asks only if what comes first succeeds. -/
theorem requests_bind {server : Server ι ω} (engine : Engine ι σ α) (f : α → Engine ι σ β)
    (state : σ) (world : ω) :
    (engine >>= f).requests server state world = engine.requests server state world ++
      match engine.runOn server state world with
      | ((.ok a, state), world) => (f a).requests server state world
      | ((.error _, _), _) => [] := by
  simp only [requests, runOn, ExceptT.run_bind, StateT.run_bind, Program.requests_bind]
  rcases h : Program.run server (engine.run.run state) world with ⟨⟨_ | _, _⟩, _⟩ <;> rfl

theorem requests_get_bind {server : Server ι ω} (f : σ → Engine ι σ β) (state : σ) (world : ω) :
    (get >>= f).requests server state world = (f state).requests server state world := rfl

theorem requests_ok_bind {server : Server ι ω} (a : α) (f : α → Engine ι σ β) (state : σ)
    (world : ω) :
    (liftM (.ok a : Except Error α) >>= f : Engine ι σ β).requests server state world =
      (f a).requests server state world := rfl

/-- An engine on a part of the state asks what it asks on the part alone. -/
theorem requests_on {server : Server ι ω} (part : σ) (put : σ → τ) (engine : Engine ι σ α)
    (whole : τ) (world : ω) :
    (on part put engine).requests server whole world = engine.requests server part world := by
  change Program.requests server (engine.run.run part >>= fun a => pure (a.1, put a.2)) world = _
  rw [Program.requests_bind]
  exact List.append_nil _

theorem Obeys.runOn_avoiding {P : Protocol ι} {Q : α → σ → Prop} {E : Error → σ → Prop}
    {server : Server ι ω} {avoid : Request → Prop} {engine : Engine ι σ α} {state : σ} {world : ω}
    (h : engine.Obeys P Q E state)
    (answers : ∀ disk request world, ¬ avoid request →
      P.answers disk request (server disk request world).1)
    (avoids : ∀ asked ∈ engine.requests server state world, ¬ avoid asked.2) :
    Outcome Q E (engine.runOn server state world).1 :=
  Program.Obeys.run_avoiding h answers avoids

theorem Keeps.runOn_shelf [DecidableEq ι] {cause : Error → Prop} {R : σ → σ → Prop}
    {engine : Engine ι σ α} {state : σ} {contents : ι → Content}
    (h : engine.Keeps (.watching disk (contents disk) False) cause R state) :
    engine.runOn shelf state contents =
        ((engine.runOn sole state (contents disk)).1, contents) ∧
      R state (engine.runOn sole state (contents disk)).1.2 := by
  obtain ⟨hrun, hpost⟩ := Program.Obeys.run_shelf h
  refine ⟨hrun, ?_⟩
  change Outcome _ _ (engine.runOn sole state (contents disk)).1 at hpost
  rcases h' : (engine.runOn sole state (contents disk)).1 with ⟨result, state'⟩
  rw [h'] at hpost
  cases result with
  | ok a => exact hpost
  | error e => exact hpost.2

/-- No request of the run fails because of the plan. -/
def Faultless (server : Server ι ω) (engine : Engine ι σ α) (state : σ) (world : ω)
    (plan : List (Option Error)) : Prop :=
  (engine.run.run state).Faultless server world plan

end Engine

end VirtualDisk.Storage
