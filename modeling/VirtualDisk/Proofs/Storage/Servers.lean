import Mathlib.Logic.Function.Basic
import VirtualDisk.Proofs.Storage.Ensures
import VirtualDisk.Proofs.Storage.Growth

/-!
# Sound, failing and interrupted storages

Four servers for the same programs. `sole` is one memory storage; `shelf` is one for each disk.
`Server.flaky` lets chosen calls of another server fail without effect, with any error. `outage`
carries out some writes, applies the next one up to a byte and grants nothing afterwards; the four
bytes of a table entry reach the storage together or not at all.

What a program ensures holds of its runs on all of them. `Program.Ensures.run` covers the first
three, and `Program.Ensures.run_outage` says what an interrupted run leaves behind.
-/

namespace VirtualDisk.Storage

variable {ι ω α β σ : Type}

/-- One memory storage, by whatever name it is called. -/
def sole : Server ι Content := fun _ request content => Medium.memory.serve request content

/-- A memory storage for each disk. -/
def shelf [DecidableEq ι] : Server ι (ι → Content) := fun disk request contents =>
  let (reply, content) := Medium.memory.serve request (contents disk)
  (reply, Function.update contents disk content)

/-- A server whose next calls fail, without effect, where the plan has an error for them. -/
def Server.flaky (server : Server ι ω) : Server ι (ω × List (Option Error)) :=
  fun disk request (world, plan) =>
    match plan with
    | some e :: plan => (.error e, (world, plan))
    | none :: plan =>
      let (reply, world) := server disk request world
      (reply, (world, plan))
    | [] =>
      let (reply, world) := server disk request world
      (reply, (world, []))

/-- How much of a write reaches the storage when the power is lost after `keep` bytes of it. Four
bytes are the entry of a table: images of whole sectors are written nothing else of that size. -/
def keptSize (size keep : Nat) : Nat :=
  if size = 4 then (if keep < 4 then 0 else 4) else keep

/-- A content on which a write was begun. -/
def Content.tear (content : Content) (offset : Nat) (data : ByteArray) (keep : Nat) : Content :=
  content.write offset (Bytes.ofByteArray (data.extract 0 (keptSize data.size keep)))

/-- A storage that carries out a number of writes, then loses power in the middle of a write, after
`keep` bytes of it. -/
def outage (keep : Nat) : Server ι (Content × Option Nat) := fun _ request (content, left) =>
  match left with
  | none => (.error (.io "power lost"), (content, none))
  | some left =>
    match request with
    | .write offset data =>
      match left with
      | 0 => (.error (.io "power lost"), (content.tear offset data keep, none))
      | left + 1 =>
        let (reply, content) := Medium.memory.serve (.write offset data) content
        (reply, (content, some left))
    | request =>
      let (reply, content) := Medium.memory.serve request content
      (reply, (content, some left))

/-- Seen through `view`, the server answers for the disk of the setting as a memory storage does, or
fails as the setting allows. -/
def Setting.Describes (S : Setting ι) (server : Server ι ω) (view : ω → Content) : Prop :=
  ∀ request world,
    (((server S.disk request world).1, view (server S.disk request world).2) =
        Medium.memory.serve request (view world)) ∨
      S.mayFail ∧ ∃ e, (server S.disk request world).1 = .error e ∧
        view (server S.disk request world).2 = view world

/-- Seen through `view`, no storage of the server shrinks unless it is given a new size. -/
def Server.NeverShrinks (server : Server ι ω) (view : ω → Content) : Prop :=
  ∀ disk request world, request.Grows →
    (view world).size ≤ (view (server disk request world).2).size

variable {S : Setting ι} {server : Server ι ω} {view : ω → Content}

theorem Setting.describes_sole : S.Describes sole id := fun _ _ => .inl rfl

theorem Setting.describes_shelf [DecidableEq ι] : S.Describes shelf (· S.disk) := by
  intro request contents
  refine .inl (Prod.ext rfl ?_)
  exact Function.update_self (f := contents) ..

theorem Setting.Describes.flaky (h : S.Describes server view) (fails : S.mayFail) :
    S.Describes server.flaky (fun world => view world.1) := by
  rintro request ⟨world, plan⟩
  match plan with
  | some e :: plan => exact .inr ⟨fails, e, rfl, rfl⟩
  | none :: plan => exact h request world
  | [] => exact h request world

theorem neverShrinks_sole : (sole : Server ι Content).NeverShrinks id :=
  fun _ _ content h => Medium.size_le_serve h content

theorem neverShrinks_shelf [DecidableEq ι] (disk : ι) :
    (shelf : Server ι (ι → Content)).NeverShrinks (· disk) := by
  intro other request contents h
  change (contents disk).size ≤ (Function.update contents other _ disk).size
  by_cases hd : disk = other
  · subst hd
    rw [Function.update_self]
    exact Medium.size_le_serve h _
  · exact Nat.le_of_eq (congrArg Content.size (Function.update_of_ne hd _ contents).symm)

theorem Server.NeverShrinks.flaky (h : server.NeverShrinks view) :
    server.flaky.NeverShrinks (fun world => view world.1) := by
  rintro disk request ⟨world, plan⟩ hr
  match plan with
  | some e :: plan => exact Nat.le_refl _
  | none :: plan => exact h disk request world hr
  | [] => exact h disk request world hr

theorem neverShrinks_outage (keep : Nat) :
    (outage keep : Server ι (Content × Option Nat)).NeverShrinks (·.1) := by
  rintro disk request ⟨content, left⟩ h
  cases left with
  | none => exact Nat.le_refl _
  | some left =>
    cases request with
    | write offset data =>
      cases left with
      | zero => exact Nat.le_max_left _ _
      | succ left => exact Medium.size_le_serve h content
    | length => exact Nat.le_refl _
    | read offset size => exact Nat.le_refl _
    | flush => exact Nat.le_refl _
    | resize size => exact h.elim

namespace Program

/-- All worlds that the run passes through satisfy `within`. -/
def Stays (within : ω → Prop) (server : Server ι ω) : Program ι α → ω → Prop
  | done _, world => within world
  | ask disk request next, world => within world ∧
    Stays within server (next (server disk request world).1) (server disk request world).2

theorem stays_of_forall {within : ω → Prop} (h : ∀ world, within world) (p : Program ι α)
    (world : ω) : p.Stays within server world := by
  induction p generalizing world with
  | done value => exact h world
  | ask disk request next ih => exact ⟨h world, ih _ _⟩

theorem Stays.head {within : ω → Prop} {p : Program ι α} {world : ω}
    (h : p.Stays within server world) : within world := by
  cases p with
  | done value => exact h
  | ask disk request next => exact h.1

theorem Stays.mono {within within' : ω → Prop} {p : Program ι α} {world : ω}
    (h : p.Stays within server world) (imp : ∀ world, within world → within' world) :
    p.Stays within' server world := by
  induction p generalizing world with
  | done value => exact imp _ h
  | ask disk request next ih => exact ⟨imp _ h.1, ih _ h.2⟩

/-- The run of a sequence is the run of its first part, then that of the other. -/
theorem stays_bind {within : ω → Prop} {p : Program ι α} {f : α → Program ι β} {world : ω} :
    (p >>= f).Stays within server world ↔ p.Stays within server world ∧
      (f (p.run server world).1).Stays within server (p.run server world).2 := by
  induction p generalizing world with
  | done value => exact ⟨fun h => ⟨h.head, h⟩, fun h => h.2⟩
  | ask disk request next ih =>
    simp only [ask_bind, Stays, ih, run_ask, and_assoc]

theorem Grows.size_le_run {p : Program ι α} (h : p.Grows) (hs : server.NeverShrinks view)
    (world : ω) : (view world).size ≤ (view (p.run server world).2).size := by
  induction p generalizing world with
  | done value => exact Nat.le_refl _
  | ask disk request next ih =>
    exact Nat.le_trans (hs disk request world h.1) (ih _ (h.2 _) _)

/-- For a program that grows, the size at the end bounds all sizes before. -/
theorem Grows.stays {p : Program ι α} (h : p.Grows) (hs : server.NeverShrinks view)
    {within : Content → Prop} {world : ω}
    (hw : ∀ content, content.size ≤ (view (p.run server world).2).size → within content) :
    p.Stays (fun world => within (view world)) server world := by
  induction p generalizing world with
  | done value => exact hw _ (Nat.le_refl _)
  | ask disk request next ih =>
    exact ⟨hw _ (h.size_le_run hs world), ih _ (h.2 _) hw⟩

/-- What a program ensures holds of its runs. `F` says what requests to the one disk leave alone in
the world of the server. -/
theorem Ensures.run {p : Program ι α} {Q : α → Content → Prop} {world : ω}
    (describes : S.Describes server view) (h : p.Ensures S Q (view world))
    (stays : p.Stays (fun world => S.within (view world)) server world) (F : ω → Prop)
    (frame : ∀ request world, F world → F (server S.disk request world).2) (hF : F world) :
    Q (p.run server world).1 (view (p.run server world).2) ∧ F (p.run server world).2 := by
  induction p generalizing world with
  | done value => exact ⟨h stays, hF⟩
  | ask disk request next ih =>
    obtain ⟨rfl, -, hnext, hfail⟩ := h stays.1
    refine ih _ ?_ stays.2 (frame _ _ hF)
    obtain hserve | ⟨hm, e, hreply, hview⟩ := describes request world
    · rw [← hserve] at hnext
      exact hnext
    · rw [hreply, hview]
      exact hfail hm e

theorem run_flaky_nil (p : Program ι α) (world : ω) :
    p.run server.flaky (world, []) = ((p.run server world).1, (p.run server world).2, []) := by
  induction p generalizing world with
  | done value => rfl
  | ask disk request next ih => exact ih _ _

/-- The write that a program issues after `left` other writes, on a sound storage. -/
def nthWrite? : (left : Nat) → Program ι α → Content → Option (Nat × ByteArray)
  | _, done _, _ => none
  | 0, ask _ (.write offset data) _, _ => some (offset, data)
  | left + 1, ask _ (.write offset data) next, content =>
    nthWrite? left (next (Medium.memory.serve (.write offset data) content).1)
      (Medium.memory.serve (.write offset data) content).2
  | left, ask _ request next, content =>
    nthWrite? left (next (Medium.memory.serve request content).1)
      (Medium.memory.serve request content).2

theorem run_outage_none (keep : Nat) (p : Program ι α) (content : Content) :
    (p.run (outage keep) (content, none)).2 = (content, none) := by
  induction p with
  | done value => rfl
  | ask disk request next ih => exact ih _

/-- An interrupted run either comes to its end, or leaves a content on which a permitted write was
begun, the one after all that were carried out. -/
theorem Ensures.run_outage {p : Program ι α} {Q : α → Content → Prop} {content : Content}
    {keep left : Nat} (h : p.Ensures S Q content) (grows : p.Grows)
    (hw : ∀ other : Content,
      other.size ≤ (p.run (outage keep) (content, some left)).2.1.size → S.within other) :
    Q (p.run (outage keep) (content, some left)).1
        (p.run (outage keep) (content, some left)).2.1 ∨
      ∃ offset data before, S.within before ∧ S.permits (.write offset data) before ∧
        (p.run (outage keep) (content, some left)).2.1 = before.tear offset data keep ∧
        p.nthWrite? left content = some (offset, data) := by
  induction p generalizing content left with
  | done value => exact .inl (h (hw _ (Nat.le_refl _)))
  | ask disk request next ih =>
    have hwithin :=
      hw content (Grows.size_le_run grows (neverShrinks_outage keep) (content, some left))
    obtain ⟨rfl, hpermits, hnext, -⟩ := h hwithin
    cases request with
    | write offset data =>
      cases left with
      | zero =>
        refine .inr ⟨offset, data, content, hwithin, hpermits, ?_, rfl⟩
        exact congrArg Prod.fst (run_outage_none keep _ _)
      | succ left => exact ih _ hnext (grows.2 _) hw
    | length => exact ih _ hnext (grows.2 _) hw
    | read offset size => exact ih _ hnext (grows.2 _) hw
    | flush => exact ih _ hnext (grows.2 _) hw
    | resize size => exact grows.1.elim

end Program

namespace Access

variable {access : Access ι α} {Q : α → Content → Prop} {E : Error → Content → Prop}

theorem Ensures.runOn_sole {content : Content} (h : access.Ensures S Q E content)
    (hw : ∀ other, S.within other) :
    Post Q E (access.runOn sole content).1 (access.runOn sole content).2 :=
  (Program.Ensures.run Setting.describes_sole h (Program.stays_of_forall (fun _ => hw _) _ _)
    (fun _ => True) (fun _ _ _ => trivial) trivial).1

theorem Ensures.runOn_sole_ok {content : Content} (h : access.Ensures S Q E content)
    (hw : ∀ other, S.within other) (excluded : ∀ e content, ¬ E e content) :
    ∃ a content', access.runOn sole content = (.ok a, content') ∧ Q a content' := by
  have hpost := h.runOn_sole hw
  cases hrun : access.runOn sole content with
  | mk result content' =>
    rw [hrun] at hpost
    cases result with
    | ok a => exact ⟨a, content', rfl, hpost⟩
    | error e => exact absurd hpost (excluded e content')

end Access

namespace Engine

variable {engine : Engine ι σ α} {Q : α → σ → Content → Prop} {E : Error → σ → Content → Prop}
variable {state : σ}

theorem Grows.size_le_of_run {content content' : Content} {outcome : Except Error α × σ}
    (grows : engine.Grows) (run : engine.runOn sole state content = (outcome, content')) :
    content.size ≤ content'.size := by
  have hle := (grows state).size_le_run neverShrinks_sole content
  change content.size ≤ (engine.runOn sole state content).2.size at hle
  rw [run] at hle
  exact hle

theorem Ensures.runOn_sole {content : Content} (h : engine.Ensures S Q E state content)
    (grows : engine.Grows)
    (hw : ∀ other : Content, other.size ≤ (engine.runOn sole state content).2.size →
      S.within other) :
    Post Q E (engine.runOn sole state content).1 (engine.runOn sole state content).2 :=
  (Program.Ensures.run Setting.describes_sole h ((grows state).stays neverShrinks_sole hw)
    (fun _ => True) (fun _ _ _ => trivial) trivial).1

theorem Ensures.runOn_sole_ok {content : Content} (h : engine.Ensures S Q E state content)
    (grows : engine.Grows)
    (hw : ∀ other : Content, other.size ≤ (engine.runOn sole state content).2.size →
      S.within other)
    (excluded : ∀ e state content, ¬ E e state content) :
    ∃ a state' content', engine.runOn sole state content = ((.ok a, state'), content') ∧
      Q a state' content' := by
  have hpost := h.runOn_sole grows hw
  cases hrun : engine.runOn sole state content with
  | mk outcome content' =>
    obtain ⟨result, state'⟩ := outcome
    rw [hrun] at hpost
    cases result with
    | ok a => exact ⟨a, state', content', rfl, hpost⟩
    | error e => exact absurd hpost (excluded e state' content')

theorem Ensures.runOn_flaky {content : Content} (h : engine.Ensures S Q E state content)
    (plan : List (Option Error)) (fails : S.mayFail) (grows : engine.Grows)
    (hw : ∀ other : Content,
      other.size ≤ (engine.runOn (Server.flaky sole) state (content, plan)).2.1.size →
        S.within other) :
    Post Q E (engine.runOn (Server.flaky sole) state (content, plan)).1
      (engine.runOn (Server.flaky sole) state (content, plan)).2.1 := by
  have stays := (grows state).stays neverShrinks_sole.flaky hw
  refine (Program.Ensures.run (Setting.describes_sole.flaky fails) ?_ stays (fun _ => True)
    (fun _ _ _ => trivial) trivial).1
  exact h

/-- A run at whose end the storage is small enough was within the setting all along. -/
theorem Ensures.of_flaky_run {limit : Nat} {content content' : Content} {result : Except Error α}
    {state' : σ} {plan plan' : List (Option Error)} (h : engine.Ensures S Q E state content)
    (fails : S.mayFail) (grows : engine.Grows)
    (within : ∀ other : Content, other.size < limit → S.within other)
    (run : engine.runOn (Server.flaky sole) state (content, plan) =
      ((result, state'), content', plan'))
    (small : content'.size < limit) : Post Q E (result, state') content' := by
  have hpost := h.runOn_flaky plan fails grows (by
    rw [run]
    exact fun other hle => within other (Nat.lt_of_le_of_lt hle small))
  rwa [run] at hpost

theorem runOn_flaky_nil {ω : Type} (server : Server ι ω) (engine : Engine ι σ α) (state : σ)
    (world : ω) : engine.runOn server.flaky state (world, []) =
      ((engine.runOn server state world).1, (engine.runOn server state world).2, []) :=
  Program.run_flaky_nil _ _

/-- The write that an engine issues after `writes` other writes, on a sound storage. -/
def nthWrite? (engine : Engine ι σ α) (writes : Nat) (state : σ) (content : Content) :
    Option (Nat × ByteArray) :=
  (engine.run.run state).nthWrite? writes content

theorem Ensures.runOn_outage {content : Content} (h : engine.Ensures S Q E state content)
    (keep writes : Nat) (grows : engine.Grows)
    (hw : ∀ other : Content,
      other.size ≤ (engine.runOn (outage keep) state (content, some writes)).2.1.size →
        S.within other) :
    Post Q E (engine.runOn (outage keep) state (content, some writes)).1
        (engine.runOn (outage keep) state (content, some writes)).2.1 ∨
      ∃ offset data before, S.within before ∧ S.permits (.write offset data) before ∧
        (engine.runOn (outage keep) state (content, some writes)).2.1 =
          before.tear offset data keep ∧
        engine.nthWrite? writes state content = some (offset, data) :=
  Program.Ensures.run_outage h (grows state) hw

theorem Ensures.runOn_shelf [DecidableEq ι] {contents : ι → Content}
    (h : engine.Ensures S Q E state (contents S.disk)) (grows : engine.Grows)
    (hw : ∀ other : Content,
      other.size ≤ ((engine.runOn shelf state contents).2 S.disk).size → S.within other) :
    Post Q E (engine.runOn shelf state contents).1 ((engine.runOn shelf state contents).2 S.disk) ∧
      ∀ disk, disk ≠ S.disk → (engine.runOn shelf state contents).2 disk = contents disk :=
  Program.Ensures.run Setting.describes_shelf h
    ((grows state).stays (neverShrinks_shelf S.disk) hw)
    (fun world => ∀ disk, disk ≠ S.disk → world disk = contents disk)
    (fun _ _ hF disk hd => (Function.update_of_ne hd _ _).trans (hF disk hd)) fun _ _ => rfl

end Engine

end VirtualDisk.Storage
