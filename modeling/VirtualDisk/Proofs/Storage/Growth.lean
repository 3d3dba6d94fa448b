import VirtualDisk.Storage.Access
import VirtualDisk.Storage.Medium

/-!
# Programs that never shrink a storage

Writes extend a storage where needed and nothing but a request for a new size cuts it. A program
that issues no such request leaves a storage at least as long as it was before every single step.
So it is enough to know the size at the end, if sizes matter on the way.
-/

namespace VirtualDisk.Storage

variable {ι ω α β σ τ : Type}

/-- Requests that give no storage a new size, but for what is written past its end. -/
def Request.Grows : Request → Prop
  | .resize _ => False
  | _ => True

theorem Medium.size_le_serve {request : Request} (h : request.Grows) (content : Content) :
    content.size ≤ (Medium.memory.serve request content).2.size := by
  cases request with
  | resize size => exact h.elim
  | length => exact Nat.le_refl _
  | read offset size => exact Nat.le_refl _
  | flush => exact Nat.le_refl _
  | write offset data =>
    simp only [Medium.serve, Medium.write]
    split
    · exact Nat.le_refl _
    · exact Nat.le_max_left _ _

/-- The programs that issue no other requests. -/
def Program.Grows : Program ι α → Prop
  | .done _ => True
  | .ask _ request next => request.Grows ∧ ∀ reply, (next reply).Grows

theorem Program.grows_bind {p : Program ι α} {f : α → Program ι β} (hp : p.Grows)
    (hf : ∀ a, (f a).Grows) : (p >>= f).Grows := by
  induction p with
  | done value => exact hf value
  | ask disk request next ih => exact ⟨hp.1, fun reply => ih reply (hp.2 reply)⟩

/-- The accesses that never give a storage a smaller size. -/
def Access.Grows (access : Access ι α) : Prop := Program.Grows access.run

/-- The engines that never give a storage a smaller size. -/
def Engine.Grows (engine : Engine ι σ α) : Prop := ∀ state, Program.Grows (engine.run.run state)

namespace Access

theorem grows_pure (a : α) : (pure a : Access ι α).Grows := trivial

theorem grows_throw (e : Error) : (throw e : Access ι α).Grows := trivial

theorem grows_liftExcept (result : Except Error α) : (liftM result : Access ι α).Grows := trivial

theorem grows_ask {request : Request} (disk : ι) (h : request.Grows) :
    (ask disk request).Grows := ⟨h, fun _ => trivial⟩

theorem grows_bind {access : Access ι α} {f : α → Access ι β} (h : access.Grows)
    (hf : ∀ a, (f a).Grows) : (access >>= f).Grows := by
  unfold Grows
  rw [ExceptT.run_bind]
  refine Program.grows_bind h fun result => ?_
  cases result with
  | ok a => exact hf a
  | error e => trivial

theorem grows_throw_bind (e : Error) (next : α → Access ι β) : (throw e >>= next).Grows := trivial

theorem grows_guard {c : Prop} [Decidable c] {e : Error} {next : PUnit → Access ι α}
    (h : (next ⟨⟩).Grows) : (if c then throw e >>= next else next ⟨⟩).Grows := by
  split
  · exact grows_throw_bind e next
  · exact h

theorem grows_readWithin (disk : ι) (offset size : Nat) (what : Corruption) :
    (readWithin disk offset size what).Grows := ⟨trivial, fun _ => trivial⟩

end Access

namespace Engine

theorem grows_pure (a : α) : (pure a : Engine ι σ α).Grows := fun _ => trivial

theorem grows_throw (e : Error) : (throw e : Engine ι σ α).Grows := fun _ => trivial

theorem grows_get : (get : Engine ι σ σ).Grows := fun _ => trivial

theorem grows_set (state : σ) : (set state : Engine ι σ PUnit).Grows := fun _ => trivial

theorem grows_liftExcept (result : Except Error α) : (liftM result : Engine ι σ α).Grows :=
  fun _ => trivial

theorem grows_liftAccess {access : Access ι α} (h : access.Grows) :
    (liftM access : Engine ι σ α).Grows :=
  fun _ => Program.grows_bind h fun _ => trivial

theorem grows_bind {engine : Engine ι σ α} {f : α → Engine ι σ β} (h : engine.Grows)
    (hf : ∀ a, (f a).Grows) : (engine >>= f).Grows := by
  intro state
  rw [ExceptT.run_bind, StateT.run_bind]
  refine Program.grows_bind (h state) fun result => ?_
  obtain ⟨result, state⟩ := result
  cases result with
  | ok a => exact hf a state
  | error e => trivial

theorem grows_on {part : σ} {put : σ → τ} {engine : Engine ι σ α} (h : engine.Grows) :
    (on part put engine).Grows :=
  fun _ => Program.grows_bind (h part) fun _ => trivial

end Engine

end VirtualDisk.Storage
