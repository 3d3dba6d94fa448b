import VirtualDisk.Storage.Access
import VirtualDisk.Storage.Medium

/-!
# What a program ensures

`Program.Ensures S Q p content` says that the program `p`, started on a memory medium with the
given content, ends with a value and a content that satisfy `Q`, whatever happens on the way that
the setting `S` allows. A setting names the one disk that the program may use. It says whether
requests may fail without effect, which contents are considered at all, and which requests the
program may issue in which content; the last of these is what a program has to guarantee before
each request, so that statements about single requests, or about a loss of power in the middle of
one, can be read off.

`Access.Ensures` and `Engine.Ensures` have two postconditions, one for success and one for
failure. The rules below take computations apart along `bind`; programs are not looked at any more
afterwards.
-/

namespace VirtualDisk.Storage

/-- The terms on which a program uses a disk. -/
structure Setting (ι : Type) where
  /-- The disk that is used. -/
  disk : ι
  /-- Requests may fail, with any error and without effect. -/
  mayFail : Prop
  /-- Contents that are considered. Nothing is claimed once any other is reached. -/
  within : Content → Prop
  /-- Requests that may be issued. -/
  permits : Request → Content → Prop

/-- Any request may be issued. -/
def Setting.free {ι : Type} (disk : ι) (mayFail : Prop) (within : Content → Prop) : Setting ι where
  disk
  mayFail
  within
  permits _ _ := True

@[simp] theorem Setting.disk_free {ι : Type} (disk : ι) (mayFail : Prop) (within : Content → Prop) :
    (Setting.free disk mayFail within).disk = disk := rfl

variable {ι σ τ α β : Type} {S : Setting ι}

namespace Program

/-- Whatever happens, the program ends with a value and a content that satisfy `Q`. -/
def Ensures (S : Setting ι) (Q : α → Content → Prop) : Program ι α → Content → Prop
  | done value, content => S.within content → Q value content
  | ask disk request next, content => S.within content →
    disk = S.disk ∧ S.permits request content ∧
      Ensures S Q (next (Medium.memory.serve request content).1)
        (Medium.memory.serve request content).2 ∧
      (S.mayFail → ∀ e, Ensures S Q (next (.error e)) content)

variable {Q Q' : α → Content → Prop} {content : Content}

theorem Ensures.of_within {p : Program ι α} (h : S.within content → p.Ensures S Q content) :
    p.Ensures S Q content := by
  cases p with
  | done value => exact fun hw => h hw hw
  | ask disk request next => exact fun hw => h hw hw

theorem Ensures.mono {p : Program ι α} (h : p.Ensures S Q content)
    (imp : ∀ a content, S.within content → Q a content → Q' a content) :
    p.Ensures S Q' content := by
  induction p generalizing content with
  | done value => exact fun hw => imp _ _ hw (h hw)
  | ask disk request next ih =>
    intro hw
    obtain ⟨hdisk, hpermits, hnext, hfail⟩ := h hw
    exact ⟨hdisk, hpermits, ih _ hnext, fun hm e => ih _ (hfail hm e)⟩

theorem ensures_bind {p : Program ι α} {f : α → Program ι β} {Q : β → Content → Prop} :
    (p >>= f).Ensures S Q content ↔
      p.Ensures S (fun a content => (f a).Ensures S Q content) content := by
  induction p generalizing content with
  | done value => exact ⟨fun h _ => h, fun h => .of_within h⟩
  | ask disk request next ih =>
    simp only [ask_bind, Ensures, ih]

end Program

namespace Access

/-- One postcondition from two. -/
def Post (Q : α → Content → Prop) (E : Error → Content → Prop) : Except Error α → Content → Prop
  | .ok a, content => Q a content
  | .error e, content => E e content

/-- The computation ends, in success with `Q` and in failure with `E`. -/
def Ensures (S : Setting ι) (access : Access ι α) (Q : α → Content → Prop)
    (E : Error → Content → Prop) (content : Content) : Prop :=
  access.run.Ensures S (Post Q E) content

variable {access : Access ι α} {Q Q' : α → Content → Prop} {E E' : Error → Content → Prop}
variable {content : Content}

theorem Ensures.of_within (h : S.within content → access.Ensures S Q E content) :
    access.Ensures S Q E content :=
  Program.Ensures.of_within h

theorem Ensures.mono (h : access.Ensures S Q E content)
    (success : ∀ a content, S.within content → Q a content → Q' a content)
    (failure : ∀ e content, S.within content → E e content → E' e content) :
    access.Ensures S Q' E' content := by
  refine Program.Ensures.mono h fun result content hw => ?_
  cases result with
  | ok a => exact success a content hw
  | error e => exact failure e content hw

theorem Ensures.mono_success (h : access.Ensures S Q E content)
    (success : ∀ a content, S.within content → Q a content → Q' a content) :
    access.Ensures S Q' E content :=
  h.mono success fun _ _ _ he => he

@[simp] theorem ensures_pure {a : α} :
    (pure a : Access ι α).Ensures S Q E content ↔ (S.within content → Q a content) := Iff.rfl

@[simp] theorem ensures_throw {e : Error} :
    (throw e : Access ι α).Ensures S Q E content ↔ (S.within content → E e content) := Iff.rfl

@[simp] theorem ensures_liftExcept_ok {a : α} :
    (liftM (.ok a : Except Error α) : Access ι α).Ensures S Q E content ↔
      (S.within content → Q a content) := Iff.rfl

@[simp] theorem ensures_liftExcept_error {e : Error} :
    (liftM (.error e : Except Error α) : Access ι α).Ensures S Q E content ↔
      (S.within content → E e content) := Iff.rfl

/-- What comes second starts from what the first leaves, and is skipped if the first fails. -/
@[simp] theorem ensures_bind {f : α → Access ι β} {Q : β → Content → Prop} :
    (access >>= f).Ensures S Q E content ↔
      access.Ensures S (fun a content => (f a).Ensures S Q E content) E content := by
  unfold Ensures
  rw [ExceptT.run_bind, Program.ensures_bind]
  constructor
  · intro h
    refine h.mono fun result content hw hr => ?_
    cases result with
    | ok a => exact hr
    | error e => exact hr hw
  · intro h
    refine h.mono fun result content hw hr => ?_
    cases result with
    | ok a => exact hr
    | error e => exact fun _ => hr

theorem Ensures.ask {request : Request} {Q : request.Reply → Content → Prop}
    {reply : Except Error request.Reply} {next : Content}
    (serve : Medium.memory.serve request content = (reply, next))
    (permits : S.permits request content)
    (success : ∀ a, S.within next → reply = .ok a → Q a next)
    (refusal : ∀ e, S.within next → reply = .error e → E e next)
    (failure : S.mayFail → ∀ e, E e content) :
    (Access.ask S.disk request).Ensures S Q E content := by
  refine fun _ => ⟨rfl, permits, ?_, fun hm e _ => failure hm e⟩
  rw [serve]
  cases reply with
  | ok a => exact fun hw => success a hw rfl
  | error e => exact fun hw => refusal e hw rfl

theorem Ensures.length {Q : Nat → Content → Prop} (permits : S.permits .length content)
    (success : Q content.size content) (failure : S.mayFail → ∀ e, E e content) :
    (Access.length S.disk).Ensures S Q E content :=
  Ensures.ask rfl permits (fun _ _ ha => by cases ha; exact success) (fun _ _ he => by cases he)
    failure

theorem Ensures.flush {Q : Unit → Content → Prop} (permits : S.permits .flush content)
    (success : Q () content) (failure : S.mayFail → ∀ e, E e content) :
    (Access.flush S.disk).Ensures S Q E content :=
  Ensures.ask rfl permits (fun _ _ _ => success) (fun _ _ he => by cases he) failure

theorem Ensures.resize {size : Nat} {Q : Unit → Content → Prop}
    (permits : S.permits (.resize size) content)
    (success : S.within (content.resize size) → Q () (content.resize size))
    (failure : S.mayFail → ∀ e, E e content) :
    (Access.resize S.disk size).Ensures S Q E content :=
  Ensures.ask rfl permits (fun _ hw _ => success hw) (fun _ _ he => by cases he) failure

theorem Ensures.write {n offset : Nat} {data : Bytes n} {Q : Unit → Content → Prop}
    (fits : offset + n < 2 ^ 64) (permits : S.permits (.write offset data.toByteArray) content)
    (success : S.within (content.write offset data) → Q () (content.write offset data))
    (failure : S.mayFail → ∀ e, E e content) :
    (Access.write S.disk offset data).Ensures S Q E content := by
  have serve : Medium.memory.serve (.write offset data.toByteArray) content =
      (.ok (), content.write offset data) := by
    obtain ⟨data, rfl⟩ := data
    simp only [Medium.serve, Medium.write, if_neg (Nat.not_le.mpr fits)]
    rfl
  exact Ensures.ask serve permits (fun _ hw _ => success hw) (fun _ _ he => by cases he) failure

theorem Ensures.read_or {offset size : Nat} {Q : Bytes size → Content → Prop}
    (fits : offset + size < 2 ^ 64) (permits : S.permits (.read offset size) content)
    (success : offset + size ≤ content.size → Q (content.read offset size) content)
    (beyond : content.size < offset + size → E (.outOfBounds offset size content.size) content)
    (failure : S.mayFail → ∀ e, E e content) :
    (Access.read S.disk offset size).Ensures S Q E content := by
  have serve : Medium.memory.serve (.read offset size) content =
      (Medium.read content offset size, content) := rfl
  refine Ensures.ask serve permits (fun a _ ha => ?_) (fun e _ he => ?_) failure
  · rw [Medium.read, if_neg (Nat.not_le.mpr fits)] at ha
    split at ha
    · cases ha
    · next hinside =>
      cases ha
      exact success (Nat.not_lt.mp hinside)
  · rw [Medium.read, if_neg (Nat.not_le.mpr fits)] at he
    split at he
    · next hbeyond =>
      cases he
      exact beyond hbeyond
    · cases he

theorem Ensures.read {offset size : Nat} {Q : Bytes size → Content → Prop}
    (fits : offset + size < 2 ^ 64) (inside : offset + size ≤ content.size)
    (permits : S.permits (.read offset size) content)
    (success : Q (content.read offset size) content) (failure : S.mayFail → ∀ e, E e content) :
    (Access.read S.disk offset size).Ensures S Q E content :=
  .read_or fits permits (fun _ => success) (fun hbeyond => absurd inside (Nat.not_le.mpr hbeyond))
    failure

/-- A read that the image asks for is a read; only running past the end is called otherwise. -/
theorem Ensures.readWithin_of_read {offset size : Nat} {what : Corruption}
    {Q : Bytes size → Content → Prop}
    (h : (Access.read S.disk offset size).Ensures S Q (fun e c => E (e.orCorrupt what) c) content) :
    (Access.readWithin S.disk offset size what).Ensures S Q E content := by
  change Program.Ensures S _ ((Access.read S.disk offset size).run >>= fun result =>
    pure (result.mapError (·.orCorrupt what))) content
  rw [Program.ensures_bind]
  refine Program.Ensures.mono h fun result content hw hr => ?_
  cases result with
  | ok bytes => exact fun _ => hr
  | error e => exact fun _ => hr

/-- A read that the image asks for finds the image corrupt if the content ends before. -/
theorem Ensures.readWithin_or {offset size : Nat} {what : Corruption}
    {Q : Bytes size → Content → Prop} (fits : offset + size < 2 ^ 64)
    (permits : S.permits (.read offset size) content)
    (success : offset + size ≤ content.size → Q (content.read offset size) content)
    (beyond : content.size < offset + size → E (.corrupt what) content)
    (failure : S.mayFail → ∀ e, E e content) :
    (Access.readWithin S.disk offset size what).Ensures S Q E content :=
  .readWithin_of_read (.read_or fits permits success beyond fun hm _ => failure hm _)

theorem Ensures.readWithin_overflow {offset size : Nat} {what : Corruption}
    {Q : Bytes size → Content → Prop} (overflow : 2 ^ 64 ≤ offset + size)
    (permits : S.permits (.read offset size) content) (refused : E .offsetOverflow content)
    (failure : S.mayFail → ∀ e, E e content) :
    (Access.readWithin S.disk offset size what).Ensures S Q E content := by
  have serve : Medium.memory.serve (.read offset size) content =
      (.error .offsetOverflow, content) := by
    simp only [Medium.serve, Medium.read, if_pos overflow]
  refine .readWithin_of_read (.ask serve permits (fun _ _ ha => by cases ha) (fun _ _ he => ?_)
    fun hm e => failure hm _)
  cases he
  exact refused

theorem Ensures.readWithin {offset size : Nat} {what : Corruption} {Q : Bytes size → Content → Prop}
    (fits : offset + size < 2 ^ 64) (inside : offset + size ≤ content.size)
    (permits : S.permits (.read offset size) content)
    (success : Q (content.read offset size) content) (failure : S.mayFail → ∀ e, E e content) :
    (Access.readWithin S.disk offset size what).Ensures S Q E content :=
  .readWithin_or fits permits (fun _ => success)
    (fun hbeyond => absurd inside (Nat.not_le.mpr hbeyond)) failure

end Access

namespace Engine

/-- One postcondition from two. -/
def Post (Q : α → σ → Content → Prop) (E : Error → σ → Content → Prop) :
    Except Error α × σ → Content → Prop
  | (.ok a, state), content => Q a state content
  | (.error e, state), content => E e state content

/-- The computation ends, in success with `Q` and in failure with `E`; both see the state that it
leaves. -/
def Ensures (S : Setting ι) (engine : Engine ι σ α) (Q : α → σ → Content → Prop)
    (E : Error → σ → Content → Prop) (state : σ) (content : Content) : Prop :=
  (engine.run.run state).Ensures S (Post Q E) content

variable {engine : Engine ι σ α} {Q Q' : α → σ → Content → Prop}
variable {E E' : Error → σ → Content → Prop} {state : σ} {content : Content}

theorem Ensures.of_within (h : S.within content → engine.Ensures S Q E state content) :
    engine.Ensures S Q E state content :=
  Program.Ensures.of_within h

theorem Ensures.mono (h : engine.Ensures S Q E state content)
    (success : ∀ a state content, S.within content → Q a state content → Q' a state content)
    (failure : ∀ e state content, S.within content → E e state content → E' e state content) :
    engine.Ensures S Q' E' state content := by
  refine Program.Ensures.mono h fun result content hw => ?_
  obtain ⟨result, state⟩ := result
  cases result with
  | ok a => exact success a state content hw
  | error e => exact failure e state content hw

theorem Ensures.mono_success (h : engine.Ensures S Q E state content)
    (success : ∀ a state content, S.within content → Q a state content → Q' a state content) :
    engine.Ensures S Q' E state content :=
  h.mono success fun _ _ _ _ he => he

@[simp] theorem ensures_pure {a : α} :
    (pure a : Engine ι σ α).Ensures S Q E state content ↔ (S.within content → Q a state content) :=
  Iff.rfl

@[simp] theorem ensures_throw {e : Error} :
    (throw e : Engine ι σ α).Ensures S Q E state content ↔
      (S.within content → E e state content) := Iff.rfl

@[simp] theorem ensures_get {Q : σ → σ → Content → Prop} :
    (get : Engine ι σ σ).Ensures S Q E state content ↔
      (S.within content → Q state state content) := Iff.rfl

@[simp] theorem ensures_set {next : σ} {Q : PUnit → σ → Content → Prop} :
    (set next : Engine ι σ PUnit).Ensures S Q E state content ↔
      (S.within content → Q ⟨⟩ next content) := Iff.rfl

@[simp] theorem ensures_liftExcept_ok {a : α} :
    (liftM (.ok a : Except Error α) : Engine ι σ α).Ensures S Q E state content ↔
      (S.within content → Q a state content) := Iff.rfl

@[simp] theorem ensures_liftExcept_error {e : Error} :
    (liftM (.error e : Except Error α) : Engine ι σ α).Ensures S Q E state content ↔
      (S.within content → E e state content) := Iff.rfl

@[simp] theorem ensures_liftAccess {access : Access ι α} :
    (liftM access : Engine ι σ α).Ensures S Q E state content ↔
      access.Ensures S (fun a content => Q a state content) (fun e content => E e state content)
        content := by
  change Program.Ensures S _ (access.run >>= fun a => pure (a, state)) content ↔ _
  rw [Program.ensures_bind]
  constructor
  · intro h
    refine Program.Ensures.mono h fun result content hw hr => ?_
    cases result <;> exact hr hw
  · intro h
    refine Program.Ensures.mono h fun result content hw hr => ?_
    cases result <;> exact fun _ => hr

@[simp] theorem ensures_bind {f : α → Engine ι σ β} {Q : β → σ → Content → Prop} :
    (engine >>= f).Ensures S Q E state content ↔
      engine.Ensures S (fun a state content => (f a).Ensures S Q E state content) E state
        content := by
  unfold Ensures
  rw [ExceptT.run_bind, StateT.run_bind, Program.ensures_bind]
  constructor
  · intro h
    refine h.mono fun result content hw hr => ?_
    obtain ⟨result, state⟩ := result
    cases result with
    | ok a => exact hr
    | error e => exact hr hw
  · intro h
    refine h.mono fun result content hw hr => ?_
    obtain ⟨result, state⟩ := result
    cases result with
    | ok a => exact hr
    | error e => exact fun _ => hr

/-- An engine on a part of the state sees only that part. -/
@[simp] theorem ensures_on {part : σ} {put : σ → τ} {whole : τ} {Q : α → τ → Content → Prop}
    {E : Error → τ → Content → Prop} :
    (on part put engine).Ensures S Q E whole content ↔
      engine.Ensures S (fun a part content => Q a (put part) content)
        (fun e part content => E e (put part) content) part content := by
  change Program.Ensures S _ (engine.run.run part >>= fun a => pure (a.1, put a.2)) content ↔ _
  rw [Program.ensures_bind]
  constructor
  · intro h
    refine Program.Ensures.mono h fun result content hw hr => ?_
    obtain ⟨result, part⟩ := result
    cases result <;> exact hr hw
  · intro h
    refine Program.Ensures.mono h fun result content hw hr => ?_
    obtain ⟨result, part⟩ := result
    cases result <;> exact fun _ => hr

end Engine

end VirtualDisk.Storage
