import VirtualDisk.Proofs.Storage.Servers

/-!
# Engines on many disks

An engine that uses more than one disk is run on a shelf of memory storages. `Succeeds` says that it
comes to its end with a value, and what is left then. Parts of the engine that use one disk only are
known by what they ensure; all other disks are left alone by them.
-/

namespace VirtualDisk.Storage

variable {ι σ τ α β : Type} [DecidableEq ι]

/-- On a shelf of sound storages the engine ends with a value and with `Q`. -/
def Engine.Succeeds (engine : Engine ι σ α) (Q : α → σ → (ι → Content) → Prop) (state : σ)
    (contents : ι → Content) : Prop :=
  ∃ a state' contents', engine.runOn shelf state contents = ((.ok a, state'), contents') ∧
    Q a state' contents'

namespace Engine

variable {engine : Engine ι σ α} {Q Q' : α → σ → (ι → Content) → Prop} {state : σ}
variable {contents : ι → Content}

theorem Succeeds.mono (h : engine.Succeeds Q state contents)
    (imp : ∀ a state contents, Q a state contents → Q' a state contents) :
    engine.Succeeds Q' state contents := by
  obtain ⟨a, state', contents', hrun, hpost⟩ := h
  exact ⟨a, state', contents', hrun, imp _ _ _ hpost⟩

theorem succeeds_pure {a : α} (h : Q a state contents) :
    (pure a : Engine ι σ α).Succeeds Q state contents :=
  ⟨a, state, contents, rfl, h⟩

theorem succeeds_bind {f : α → Engine ι σ β} {Q : β → σ → (ι → Content) → Prop}
    (h : engine.Succeeds (fun a state contents => (f a).Succeeds Q state contents) state contents) :
    (engine >>= f).Succeeds Q state contents := by
  obtain ⟨a, state₁, contents₁, hrun, b, state₂, contents₂, hrun', hpost⟩ := h
  exact ⟨b, state₂, contents₂, (runOn_bind_ok hrun f).trans hrun', hpost⟩

omit [DecidableEq ι] in
theorem runOn_bind_pure {ω : Type} (engine : Engine ι σ α) (f : α → β) (server : Server ι ω)
    (state : σ) (world : ω) :
    ((engine >>= fun a => pure (f a)).runOn server state world).2 =
      (engine.runOn server state world).2 := by
  rw [runOn_bind]
  split
  · next hrun =>
    rw [hrun]
    rfl
  · next hrun => rw [hrun]

theorem succeeds_get_bind {f : σ → Engine ι σ β} {Q : β → σ → (ι → Content) → Prop}
    (h : (f state).Succeeds Q state contents) : (get >>= f).Succeeds Q state contents :=
  succeeds_bind ⟨state, state, contents, rfl, h⟩

theorem succeeds_liftExcept_bind {a : α} {result : Except Error α} {f : α → Engine ι σ β}
    {Q : β → σ → (ι → Content) → Prop} (hresult : result = .ok a)
    (h : (f a).Succeeds Q state contents) :
    ((liftM result : Engine ι σ α) >>= f).Succeeds Q state contents := by
  subst hresult
  exact succeeds_bind ⟨a, state, contents, rfl, h⟩

theorem succeeds_on {part : σ} {put : σ → τ} {whole : τ} {Q : α → τ → (ι → Content) → Prop}
    (h : engine.Succeeds (fun a part contents => Q a (put part) contents) part contents) :
    (on part put engine).Succeeds Q whole contents := by
  obtain ⟨a, part', contents', hrun, hpost⟩ := h
  refine ⟨a, put part', contents', ?_, hpost⟩
  rw [runOn_on, hrun]

variable {S : Setting ι}

/-- An engine on one disk succeeds if failure is excluded, and changes no other disk. -/
theorem Ensures.succeeds {Q : α → σ → Content → Prop}
    (h : engine.Ensures S Q (fun _ _ _ => False) state (contents S.disk)) (grows : engine.Grows)
    (hw : ∀ other : Content,
      other.size ≤ ((engine.runOn shelf state contents).2 S.disk).size → S.within other) :
    engine.Succeeds (fun a state contents' => Q a state (contents' S.disk) ∧
      ∀ disk, disk ≠ S.disk → contents' disk = contents disk) state contents := by
  obtain ⟨hpost, hframe⟩ := h.runOn_shelf grows hw
  cases hrun : engine.runOn shelf state contents with
  | mk outcome contents' =>
    obtain ⟨result, state'⟩ := outcome
    rw [hrun] at hpost hframe
    cases result with
    | ok a => exact ⟨a, state', contents', hrun, hpost, hframe⟩
    | error e => exact hpost.elim

theorem Ensures.succeeds_unchanged {Q : α → σ → Prop}
    (h : engine.Ensures S (fun a state content => Q a state ∧ content = contents S.disk)
      (fun _ _ _ => False) state (contents S.disk)) (grows : engine.Grows)
    (hw : ∀ content, S.within content) :
    engine.Succeeds (fun a state contents' => Q a state ∧ contents' = contents) state contents := by
  refine (h.succeeds grows fun _ _ => hw _).mono ?_
  rintro a state' contents' ⟨⟨hpost, hsame⟩, hframe⟩
  refine ⟨hpost, funext fun disk => ?_⟩
  by_cases hdisk : disk = S.disk
  · rw [hdisk, hsame]
  · exact hframe disk hdisk

end Engine

theorem Program.run_shelf_unit (p : Program Unit α) (content : Content) :
    p.run shelf (fun _ => content) = ((p.run sole content).1, fun _ => (p.run sole content).2) := by
  induction p generalizing content with
  | done value => rfl
  | ask disk request next ih =>
    have hserve : shelf disk request (fun _ => content) =
        ((sole disk request content).1, fun _ => (sole disk request content).2) :=
      Prod.ext rfl (funext fun _ => Function.update_self disk _ fun _ => content)
    rw [run_ask, run_ask, hserve]
    exact ih _ _

theorem Access.runOn_shelf_unit (access : Access Unit α) (content : Content) :
    access.runOn shelf (fun _ => content) =
      ((access.runOn sole content).1, fun _ => (access.runOn sole content).2) :=
  Program.run_shelf_unit access.run content

theorem Engine.runOn_shelf_unit (engine : Engine Unit σ α) (state : σ) (content : Content) :
    engine.runOn shelf state (fun _ => content) =
      ((engine.runOn sole state content).1, fun _ => (engine.runOn sole state content).2) :=
  Program.run_shelf_unit (engine.run.run state) content

/-- All storages are shorter than 2^63 bytes. -/
def Short (contents : ι → Content) : Prop := ∀ disk, (contents disk).size < 2 ^ 63

/-- For a program that grows storages, it is enough that they are short at the end. -/
theorem Program.Grows.stays_short {p : Program ι α} (h : p.Grows) {contents : ι → Content}
    (short : Short (p.run shelf contents).2) : p.Stays Short shelf contents := by
  induction p generalizing contents with
  | done value => exact short
  | ask disk request next ih =>
    refine ⟨fun other => ?_, ih _ (h.2 _) short⟩
    exact Nat.lt_of_le_of_lt (h.size_le_run (neverShrinks_shelf other) contents) (short other)

/-- If all storages are short before and after, they are short all along. -/
def Program.Bounded (p : Program ι α) : Prop :=
  ∀ contents, Short contents → Short (p.run shelf contents).2 → p.Stays Short shelf contents

theorem Program.Bounded.bind {p : Program ι α} {f : α → Program ι β} (h : p.Bounded)
    (hf : ∀ a, (f a).Grows) : (p >>= f).Bounded := by
  intro contents before after
  rw [run_bind] at after
  have hsecond := (hf _).stays_short after
  exact stays_bind.mpr ⟨h contents before hsecond.head, hsecond⟩

/-- In failure as in success, storages that are short before and after are short all along. -/
def Access.Bounded (access : Access ι α) : Prop := Program.Bounded access.run

/-- From any state on, storages that are short before and after are short all along. -/
def Engine.Bounded (engine : Engine ι σ α) : Prop := ∀ state, Program.Bounded (engine.run.run state)

namespace Access

variable {disk : ι} {next : Unit → Access ι α}

theorem Grows.bounded {access : Access ι α} (h : access.Grows) : access.Bounded :=
  fun _ _ after => Program.Grows.stays_short h after

theorem bounded_result_bind {result : Except Error α} {f : α → Access ι β}
    (h : ∀ a, (f a).Bounded) : (liftM result >>= f).Bounded := by
  cases result with
  | ok a => exact h a
  | error e => exact fun _ _ after => after

theorem bounded_throw_bind {e : Error} {f : α → Access ι β} : (throw e >>= f).Bounded :=
  fun _ _ after => after

theorem bounded_empty_bind (h : (next ⟨⟩).Bounded) : (resize disk 0 >>= next).Bounded := by
  intro contents before after
  refine ⟨before, h _ (fun other => ?_) after⟩
  change (Function.update contents disk ((contents disk).resize 0) other).size < 2 ^ 63
  by_cases hother : other = disk
  · subst hother
    rw [Function.update_self, Content.size_resize]
    decide
  · rw [Function.update_of_ne hother]
    exact before other

theorem bounded_resize_bind {size : Nat} (h : (next ⟨⟩).Grows) :
    (resize disk size >>= next).Bounded :=
  fun _ before after => ⟨before, Program.Grows.stays_short h after⟩

end Access

namespace Engine

theorem Grows.bounded {engine : Engine ι σ α} (h : engine.Grows) : engine.Bounded :=
  fun state _ _ after => (h state).stays_short after

theorem bounded_get_bind {f : σ → Engine ι σ β} (h : ∀ state, (f state).Bounded) :
    (get >>= f).Bounded :=
  fun state => h state state

theorem bounded_result_bind {result : Except Error α} {f : α → Engine ι σ β}
    (h : ∀ a, (f a).Bounded) : (liftM result >>= f).Bounded := by
  cases result with
  | ok a => exact h a
  | error e => exact fun _ _ _ after => after

theorem bounded_liftAccess_bind {access : Access ι α} {f : α → Engine ι σ β} (h : access.Bounded)
    (hf : ∀ a, (f a).Grows) : (liftM access >>= f).Bounded := by
  intro state
  rw [ExceptT.run_bind, StateT.run_bind]
  refine Program.Bounded.bind (Program.Bounded.bind h fun _ => trivial) fun result => ?_
  obtain ⟨result, state⟩ := result
  cases result with
  | ok a => exact hf a state
  | error e => trivial

end Engine

end VirtualDisk.Storage
