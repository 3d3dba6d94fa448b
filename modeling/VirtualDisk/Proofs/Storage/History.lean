import Mathlib.Data.List.Chain
import VirtualDisk.Proofs.Storage.Servers

/-!
# What a storage goes through

The history of a run lists the worlds that it passes through, call by call. If every request that a
program may issue changes a content in one way only, the history is a chain of such changes,
whichever calls fail.
-/

namespace VirtualDisk.Storage

variable {ι ω α σ : Type}

/-- A permitted request changes a content in no other way. -/
def Setting.Moves (S : Setting ι) (R : Content → Content → Prop) : Prop :=
  ∀ request content, S.within content → S.within (Medium.memory.serve request content).2 →
    S.permits request content → R content (Medium.memory.serve request content).2

namespace Program

/-- The worlds of a run, from the first one to the last. -/
def history (server : Server ι ω) : Program ι α → ω → List ω
  | done _, world => [world]
  | ask disk request next, world =>
    world :: history server (next (server disk request world).1) (server disk request world).2

variable {server : Server ι ω} {view : ω → Content} {S : Setting ι}

theorem head?_history (p : Program ι α) (world : ω) :
    (p.history server world).head? = some world := by
  cases p with
  | done value => rfl
  | ask disk request next => rfl

theorem getLast?_history (p : Program ι α) (world : ω) :
    (p.history server world).getLast? = some (p.run server world).2 := by
  induction p generalizing world with
  | done value => rfl
  | ask disk request next ih =>
    rw [history, List.getLast?_cons, ih, Option.getD_some, run_ask]

/-- The contents of a run are a chain of permitted changes. -/
theorem Ensures.isChain_history {p : Program ι α} {Q : α → Content → Prop} {world : ω}
    {R : Content → Content → Prop} (describes : S.Describes server view)
    (h : p.Ensures S Q (view world))
    (stays : p.Stays (fun world => S.within (view world)) server world) (moves : S.Moves R)
    (same : ∀ content, R content content) :
    List.IsChain (fun before after => R (view before) (view after)) (p.history server world) := by
  induction p generalizing world with
  | done value => exact List.IsChain.singleton world
  | ask disk request next ih =>
    obtain ⟨hwithin, hstays⟩ := stays
    obtain ⟨rfl, hpermits, hnext, hfail⟩ := h hwithin
    rw [history, List.isChain_cons]
    obtain hserve | ⟨hm, e, hreply, hview⟩ := describes request world
    · rw [← hserve] at hnext
      refine ⟨fun other hother => ?_, ih _ hnext hstays⟩
      rw [head?_history, Option.mem_def, Option.some.injEq] at hother
      subst hother
      have hwithin' := hstays.head
      have hmove := moves request (view world) hwithin
      rw [← hserve] at hmove
      exact hmove hwithin' hpermits
    · refine ⟨fun other hother => ?_, ih _ ?_ hstays⟩
      · rw [head?_history, Option.mem_def, Option.some.injEq] at hother
        subst hother
        rw [hview]
        exact same _
      · rw [hreply, hview]
        exact hfail hm e

end Program

namespace Engine

/-- The contents of one memory storage during the run of an engine, calls of which fail according to
a plan. -/
def contents (engine : Engine ι σ α) (state : σ) (content : Content) (plan : List (Option Error)) :
    List Content :=
  ((engine.run.run state).history (Server.flaky sole) (content, plan)).map (·.1)

variable {engine : Engine ι σ α} {state : σ} {content : Content} {plan : List (Option Error)}

theorem head?_contents : (engine.contents state content plan).head? = some content := by
  rw [contents, List.head?_map, Program.head?_history]
  rfl

theorem getLast?_contents : (engine.contents state content plan).getLast? =
    some (engine.runOn (Server.flaky sole) state (content, plan)).2.1 := by
  rw [contents, List.getLast?_map, Program.getLast?_history]
  rfl

/-- Whichever calls fail, the contents are a chain of permitted changes. -/
theorem Ensures.isChain_contents {S : Setting ι} {Q : α → σ → Content → Prop}
    {E : Error → σ → Content → Prop} {R : Content → Content → Prop}
    (h : engine.Ensures S Q E state content) (fails : S.mayFail) (grows : engine.Grows)
    (hw : ∀ other : Content,
      other.size ≤ (engine.runOn (Server.flaky sole) state (content, plan)).2.1.size →
        S.within other)
    (moves : S.Moves R) (same : ∀ content, R content content) :
    List.IsChain R (engine.contents state content plan) := by
  have stays := (grows state).stays neverShrinks_sole.flaky hw
  rw [contents, List.isChain_map]
  exact Program.Ensures.isChain_history (Setting.describes_sole.flaky fails) h stays moves same

end Engine

end VirtualDisk.Storage
