import Mathlib.Order.Defs.Unbundled
import VirtualDisk.Storage.Access

/-!
# What a program does whatever it is answered

A `Protocol` says which requests may be issued to which disk, and which answers may be given. A
program `Obeys` it if it issues no other requests as long as it gets no other answers; the
postcondition holds of what it ends with. Nothing is said about what the disks hold. Where that
matters, the invariant of `Protocol.Governs` says so about the world of a server.
-/

namespace VirtualDisk.Storage

/-- The terms on which programs and disks talk to each other. -/
structure Protocol (ι : Type) where
  /-- Requests that may be issued. -/
  permits : ι → Request → Prop
  /-- Answers that may be given. -/
  answers : ι → (request : Request) → Except Error request.Reply → Prop

/-- Any request may be issued, and it may fail for these causes only. -/
def Protocol.failing (ι : Type) (cause : Error → Prop) : Protocol ι where
  permits _ _ := True
  answers _ _ reply := ∀ e, reply = .error e → cause e

variable {ι ω σ τ α β : Type} {P : Protocol ι}

/-- As long as the world satisfies `I`, the server keeps to the protocol, and the world satisfies
`I` afterwards. -/
def Protocol.Governs (P : Protocol ι) (server : Server ι ω) (I : ω → Prop) : Prop :=
  ∀ disk request world, I world → P.permits disk request →
    P.answers disk request (server disk request world).1 ∧ I (server disk request world).2

/-- Where the server fails for these causes only, it keeps to the protocol. -/
theorem Protocol.failing_governs {cause : Error → Prop} {server : Server ι ω}
    (fails : ∀ disk request world e, (server disk request world).1 = .error e → cause e) :
    (failing ι cause).Governs server fun _ => True :=
  fun disk request world _ _ => ⟨fun e he => fails disk request world e he, trivial⟩

namespace Program

/-- Whatever answers it gets, the program issues permitted requests only, and ends with `Q`. -/
def Obeys (P : Protocol ι) (Q : α → Prop) : Program ι α → Prop
  | done value => Q value
  | ask disk request next =>
    P.permits disk request ∧ ∀ reply, P.answers disk request reply → (next reply).Obeys P Q

variable {Q Q' : α → Prop}

theorem Obeys.mono {p : Program ι α} (h : p.Obeys P Q) (imp : ∀ a, Q a → Q' a) :
    p.Obeys P Q' := by
  induction p with
  | done value => exact imp value h
  | ask disk request next ih => exact ⟨h.1, fun reply hreply => ih reply (h.2 reply hreply)⟩

theorem obeys_bind {p : Program ι α} {f : α → Program ι β} {Q : β → Prop} :
    (p >>= f).Obeys P Q ↔ p.Obeys P fun a => (f a).Obeys P Q := by
  induction p with
  | done value => exact Iff.rfl
  | ask disk request next ih => simp only [ask_bind, Obeys, ih]

/-- On a server that keeps to the protocol the postcondition holds in the end. -/
theorem Obeys.run {server : Server ι ω} {I : ω → Prop} {p : Program ι α} {world : ω}
    (h : p.Obeys P Q) (governs : P.Governs server I) (hI : I world) :
    Q (p.run server world).1 ∧ I (p.run server world).2 := by
  induction p generalizing world with
  | done value => exact ⟨h, hI⟩
  | ask disk request next ih =>
    obtain ⟨hanswer, hI'⟩ := governs disk request world hI h.1
    exact ih _ (h.2 _ hanswer) hI'

end Program

namespace Access

/-- One postcondition from two. -/
def Outcome (Q : α → Prop) (E : Error → Prop) : Except Error α → Prop
  | .ok a => Q a
  | .error e => E e

/-- The computation obeys the protocol and ends in success with `Q` and in failure with `E`. -/
def Obeys (P : Protocol ι) (access : Access ι α) (Q : α → Prop) (E : Error → Prop) : Prop :=
  Program.Obeys P (Outcome Q E) access.run

variable {access : Access ι α} {Q Q' : α → Prop} {E E' : Error → Prop}

theorem Obeys.mono (h : access.Obeys P Q E) (success : ∀ a, Q a → Q' a)
    (failure : ∀ e, E e → E' e) : access.Obeys P Q' E' := by
  refine Program.Obeys.mono h fun result hr => ?_
  cases result with
  | ok a => exact success a hr
  | error e => exact failure e hr

@[simp] theorem obeys_pure {a : α} : (pure a : Access ι α).Obeys P Q E ↔ Q a := Iff.rfl

@[simp] theorem obeys_throw {e : Error} : (throw e : Access ι α).Obeys P Q E ↔ E e := Iff.rfl

@[simp] theorem obeys_liftExcept {result : Except Error α} :
    (liftM result : Access ι α).Obeys P Q E ↔ Outcome Q E result := Iff.rfl

/-- What comes second is skipped if the first fails. -/
@[simp] theorem obeys_bind {f : α → Access ι β} {Q : β → Prop} :
    (access >>= f).Obeys P Q E ↔ access.Obeys P (fun a => (f a).Obeys P Q E) E := by
  unfold Obeys
  rw [ExceptT.run_bind, Program.obeys_bind]
  constructor
  · intro h
    refine h.mono fun result hr => ?_
    cases result with
    | ok a => exact hr
    | error e => exact hr
  · intro h
    refine h.mono fun result hr => ?_
    cases result with
    | ok a => exact hr
    | error e => exact hr

theorem Obeys.bind {f : α → Access ι β} {Q' : β → Prop} (h : access.Obeys P Q E)
    (next : ∀ a, Q a → (f a).Obeys P Q' E) : (access >>= f).Obeys P Q' E :=
  obeys_bind.mpr (h.mono next fun _ he => he)

theorem obeys_ask {disk : ι} {request : Request} {Q : request.Reply → Prop} :
    (Access.ask disk request).Obeys P Q E ↔ P.permits disk request ∧
      ∀ reply, P.answers disk request reply → Outcome Q E reply := Iff.rfl

theorem obeys_readWithin {disk : ι} {offset size : Nat} {what : Corruption}
    {Q : Bytes size → Prop} :
    (Access.readWithin disk offset size what).Obeys P Q E ↔
      P.permits disk (.read offset size) ∧
        ∀ reply, P.answers disk (.read offset size) reply →
          Outcome Q (fun e => E (e.orCorrupt what)) reply := by
  refine and_congr_right fun _ => forall₂_congr fun reply _ => ?_
  cases reply with
  | ok bytes => exact Iff.rfl
  | error e => exact Iff.rfl

/-- The access obeys the protocol, and fails for these causes only. -/
def Minds (P : Protocol ι) (cause : Error → Prop) (access : Access ι α) : Prop :=
  access.Obeys P (fun _ => True) cause

variable {cause : Error → Prop}

theorem minds_pure (a : α) : (pure a : Access ι α).Minds P cause := trivial

theorem minds_throw {e : Error} (h : cause e) : (throw e : Access ι α).Minds P cause := h

theorem minds_result (result : Except Error α) :
    (liftM result : Access ι α).Minds P fun _ => True := by
  cases result <;> trivial

theorem minds_bind {f : α → Access ι β} (h : access.Minds P cause)
    (hf : ∀ a, (f a).Minds P cause) : (access >>= f).Minds P cause :=
  obeys_bind.mpr (h.mono (fun a _ => hf a) fun _ he => he)

end Access

namespace Engine

/-- One postcondition from two. -/
def Outcome (Q : α → σ → Prop) (E : Error → σ → Prop) : Except Error α × σ → Prop
  | (.ok a, state) => Q a state
  | (.error e, state) => E e state

/-- The computation obeys the protocol and ends in success with `Q` and in failure with `E`; both
see the state that it leaves. -/
def Obeys (P : Protocol ι) (engine : Engine ι σ α) (Q : α → σ → Prop) (E : Error → σ → Prop)
    (state : σ) : Prop :=
  Program.Obeys P (Outcome Q E) (engine.run.run state)

variable {engine : Engine ι σ α} {Q Q' : α → σ → Prop} {E E' : Error → σ → Prop} {state : σ}

theorem Obeys.mono (h : engine.Obeys P Q E state) (success : ∀ a state, Q a state → Q' a state)
    (failure : ∀ e state, E e state → E' e state) : engine.Obeys P Q' E' state := by
  refine Program.Obeys.mono h fun result hr => ?_
  obtain ⟨result, state⟩ := result
  cases result with
  | ok a => exact success a state hr
  | error e => exact failure e state hr

theorem Obeys.mono_success (h : engine.Obeys P Q E state)
    (success : ∀ a state, Q a state → Q' a state) : engine.Obeys P Q' E state :=
  h.mono success fun _ _ he => he

theorem Obeys.runOn {server : Server ι ω} {I : ω → Prop} (h : engine.Obeys P Q E state)
    (governs : P.Governs server I) (world : ω) (hI : I world) :
    Outcome Q E (engine.runOn server state world).1 ∧ I (engine.runOn server state world).2 :=
  Program.Obeys.run h governs hI

@[simp] theorem obeys_pure {a : α} :
    (pure a : Engine ι σ α).Obeys P Q E state ↔ Q a state := Iff.rfl

@[simp] theorem obeys_throw {e : Error} :
    (throw e : Engine ι σ α).Obeys P Q E state ↔ E e state := Iff.rfl

@[simp] theorem obeys_get {Q : σ → σ → Prop} :
    (get : Engine ι σ σ).Obeys P Q E state ↔ Q state state := Iff.rfl

@[simp] theorem obeys_set {next : σ} {Q : PUnit → σ → Prop} :
    (set next : Engine ι σ PUnit).Obeys P Q E state ↔ Q ⟨⟩ next := Iff.rfl

@[simp] theorem obeys_liftExcept {result : Except Error α} :
    (liftM result : Engine ι σ α).Obeys P Q E state ↔
      Access.Outcome (fun a => Q a state) (fun e => E e state) result := by
  cases result with
  | ok a => exact Iff.rfl
  | error e => exact Iff.rfl

@[simp] theorem obeys_liftAccess {access : Access ι α} :
    (liftM access : Engine ι σ α).Obeys P Q E state ↔
      access.Obeys P (fun a => Q a state) (fun e => E e state) := by
  change Program.Obeys P _ (access.run >>= fun a => pure (a, state)) ↔ _
  rw [Program.obeys_bind]
  constructor
  · intro h
    refine Program.Obeys.mono h fun result hr => ?_
    cases result <;> exact hr
  · intro h
    refine Program.Obeys.mono h fun result hr => ?_
    cases result <;> exact hr

@[simp] theorem obeys_bind {f : α → Engine ι σ β} {Q : β → σ → Prop} :
    (engine >>= f).Obeys P Q E state ↔
      engine.Obeys P (fun a state => (f a).Obeys P Q E state) E state := by
  unfold Obeys
  rw [ExceptT.run_bind, StateT.run_bind, Program.obeys_bind]
  constructor
  · intro h
    refine h.mono fun result hr => ?_
    obtain ⟨result, state⟩ := result
    cases result <;> exact hr
  · intro h
    refine h.mono fun result hr => ?_
    obtain ⟨result, state⟩ := result
    cases result <;> exact hr

theorem Obeys.bind {f : α → Engine ι σ β} {Q' : β → σ → Prop} (h : engine.Obeys P Q E state)
    (next : ∀ a state, Q a state → (f a).Obeys P Q' E state) :
    (engine >>= f).Obeys P Q' E state :=
  obeys_bind.mpr (h.mono_success next)

theorem obeys_get_bind {f : σ → Engine ι σ β} {Q : β → σ → Prop} :
    (get >>= f).Obeys P Q E state ↔ (f state).Obeys P Q E state :=
  obeys_bind.trans obeys_get

theorem obeys_liftExcept_bind {result : Except Error α} {f : α → Engine ι σ β}
    {Q : β → σ → Prop} :
    (liftM result >>= f).Obeys P Q E state ↔
      Access.Outcome (fun a => (f a).Obeys P Q E state) (fun e => E e state) result :=
  obeys_bind.trans obeys_liftExcept

/-- An engine on a part of the state sees only that part. -/
@[simp] theorem obeys_on {part : σ} {put : σ → τ} {whole : τ} {Q : α → τ → Prop}
    {E : Error → τ → Prop} :
    (on part put engine).Obeys P Q E whole ↔
      engine.Obeys P (fun a part => Q a (put part)) (fun e part => E e (put part)) part := by
  change Program.Obeys P _ (engine.run.run part >>= fun a => pure (a.1, put a.2)) ↔ _
  rw [Program.obeys_bind]
  constructor
  · intro h
    refine Program.Obeys.mono h fun result hr => ?_
    obtain ⟨result, part⟩ := result
    cases result <;> exact hr
  · intro h
    refine Program.Obeys.mono h fun result hr => ?_
    obtain ⟨result, part⟩ := result
    cases result <;> exact hr

/-- The engine obeys the protocol, fails for these causes only, and leaves a state that is related
to the one before. -/
def Keeps (P : Protocol ι) (cause : Error → Prop) (R : σ → σ → Prop) (engine : Engine ι σ α)
    (state : σ) : Prop :=
  engine.Obeys P (fun _ state' => R state state') (fun e state' => cause e ∧ R state state') state

section Keeps

variable {cause : Error → Prop} {R : σ → σ → Prop}

theorem Keeps.runOn_state {server : Server ι ω} {I : ω → Prop} (h : engine.Keeps P cause R state)
    (governs : P.Governs server I) (world : ω) (hI : I world) :
    R state (engine.runOn server state world).1.2 ∧ I (engine.runOn server state world).2 := by
  obtain ⟨hpost, hI'⟩ := h.runOn governs world hI
  refine ⟨?_, hI'⟩
  rcases hrun : (engine.runOn server state world).1 with ⟨result, state'⟩
  rw [hrun] at hpost
  cases result with
  | ok a => exact hpost
  | error e => exact hpost.2

theorem keeps_set {next : σ} (h : R state next) :
    (set next : Engine ι σ PUnit).Keeps P cause R state := h

theorem keeps_get_bind {f : σ → Engine ι σ β} (h : (f state).Keeps P cause R state) :
    (get >>= f).Keeps P cause R state :=
  obeys_get_bind.mpr h

variable [IsPreorder σ R]

theorem keeps_pure (a : α) : (pure a : Engine ι σ α).Keeps P cause R state := refl_of R state

theorem keeps_throw {e : Error} (h : cause e) : (throw e : Engine ι σ α).Keeps P cause R state :=
  ⟨h, refl_of R state⟩

theorem keeps_liftAccess {access : Access ι α} (h : access.Minds P cause) :
    (liftM access : Engine ι σ α).Keeps P cause R state :=
  obeys_liftAccess.mpr (h.mono (fun _ _ => refl_of R state) fun _ he => ⟨he, refl_of R state⟩)

theorem keeps_bind {f : α → Engine ι σ β} (h : engine.Keeps P cause R state)
    (hf : ∀ a state', R state state' → (f a).Keeps P cause R state') :
    (engine >>= f).Keeps P cause R state := by
  refine obeys_bind.mpr (h.mono_success fun a state' hR => ?_)
  exact (hf a state' hR).mono (fun _ _ hR' => trans_of R hR hR')
    fun _ _ he => ⟨he.1, trans_of R hR he.2⟩

theorem keeps_result (result : Except Error α) :
    (liftM result : Engine ι σ α).Keeps P (fun _ => True) R state := by
  cases result with
  | ok a => exact refl_of R state
  | error e => exact ⟨trivial, refl_of R state⟩

end Keeps

end Engine

end VirtualDisk.Storage
