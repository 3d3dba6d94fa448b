import VirtualDisk.Proofs.Storage.Ranges
import VirtualDisk.Proofs.Storage.Servers

/-!
# Contents with the same bytes

A content is kept in pieces. No program can tell how: on contents of the same size with the same
bytes it comes to the same results, and leaves the same bytes behind.
-/

namespace VirtualDisk.Storage

variable {ι ω α β σ : Type}

namespace Content

/-- The contents have the same size and the same bytes. -/
def SameBytes (content content' : Content) : Prop := content.SameFrom content' 0

theorem write_comm {n m offset offset' : Nat} (content : Content) (data : Bytes n) (data' : Bytes m)
    (apart : offset + n ≤ offset' ∨ offset' + m ≤ offset) :
    ((content.write offset data).write offset' data').SameBytes
      ((content.write offset' data').write offset data) := by
  constructor
  · simp only [size_write]
    omega
  · intro position _
    simp only [byte_write]
    split
    · rw [dif_neg (by omega)]
    · rfl

theorem write_again {n m : Nat} (content : Content) (offset : Nat) (data : Bytes n)
    (data' : Bytes m) (covers : n ≤ m) :
    ((content.write offset data).write offset data').SameBytes (content.write offset data') := by
  constructor
  · simp only [size_write]
    omega
  · intro position _
    simp only [byte_write]
    split
    · rfl
    · rw [dif_neg (by omega)]

namespace SameBytes

variable {content content' content'' : Content}

theorem refl (content : Content) : content.SameBytes content := SameFrom.refl content 0

theorem symm (h : content.SameBytes content') : content'.SameBytes content :=
  ⟨h.size_eq.symm, fun position hstart => (h.byte_eq position hstart).symm⟩

theorem trans (h : content.SameBytes content') (h' : content'.SameBytes content'') :
    content.SameBytes content'' :=
  ⟨h'.size_eq.trans h.size_eq, fun position hstart =>
    (h'.byte_eq position hstart).trans (h.byte_eq position hstart)⟩

theorem agreeOn (h : content.SameBytes content') (start size : Nat) :
    content.AgreeOn content' start size :=
  fun position _ _ => h.byte_eq position (Nat.zero_le _)

theorem read_eq (h : content.SameBytes content') (offset size : Nat) :
    content'.read offset size = content.read offset size :=
  (h.agreeOn offset size).read_eq

theorem write {n : Nat} (h : content.SameBytes content') (offset : Nat) (data : Bytes n) :
    (content.write offset data).SameBytes (content'.write offset data) := by
  constructor
  · rw [size_write, size_write, h.size_eq]
  · intro position hstart
    rw [byte_write, byte_write, h.byte_eq position hstart]

theorem resize (h : content.SameBytes content') (size : Nat) :
    (content.resize size).SameBytes (content'.resize size) := by
  constructor
  · rw [size_resize, size_resize]
  · intro position hstart
    rw [byte_resize, byte_resize, h.byte_eq position hstart]

/-- A request is answered alike, and leaves the same bytes. -/
theorem serve (h : content.SameBytes content') (request : Request) :
    (Medium.memory.serve request content').1 = (Medium.memory.serve request content).1 ∧
      (Medium.memory.serve request content).2.SameBytes
        (Medium.memory.serve request content').2 := by
  cases request with
  | length => exact ⟨congrArg Except.ok h.size_eq, h⟩
  | resize size => exact ⟨rfl, h.resize size⟩
  | read offset size =>
    refine ⟨?_, h⟩
    change Medium.read content' offset size = Medium.read content offset size
    rw [Medium.read, Medium.read, h.size_eq, h.read_eq]
  | write offset data =>
    change (Medium.settle content' (Medium.memory.write content' offset data)).1 =
        (Medium.settle content (Medium.memory.write content offset data)).1 ∧
      (Medium.settle content (Medium.memory.write content offset data)).2.SameBytes
        (Medium.settle content' (Medium.memory.write content' offset data)).2
    simp only [Medium.write]
    split
    · exact ⟨rfl, h⟩
    · exact ⟨rfl, h.write offset _⟩
  | flush => exact ⟨rfl, h⟩

end SameBytes

end Content

variable {content content' : Content}

theorem Program.run_sole_congr (h : content.SameBytes content') (p : Program ι α) :
    (p.run sole content').1 = (p.run sole content).1 ∧
      (p.run sole content).2.SameBytes (p.run sole content').2 := by
  induction p generalizing content content' with
  | done value => exact ⟨rfl, h⟩
  | ask disk request next ih =>
    obtain ⟨hreply, hsame⟩ := h.serve request
    have hreply' : (sole disk request content').1 = (sole disk request content).1 := hreply
    rw [run_ask, run_ask, hreply']
    exact ih _ hsame

theorem Access.runOn_sole_congr (h : content.SameBytes content') (access : Access ι α) :
    (access.runOn sole content').1 = (access.runOn sole content).1 ∧
      (access.runOn sole content).2.SameBytes (access.runOn sole content').2 :=
  Program.run_sole_congr h access.run

theorem Engine.runOn_sole_congr (h : content.SameBytes content') (engine : Engine ι σ α)
    (state : σ) :
    (engine.runOn sole state content').1 = (engine.runOn sole state content).1 ∧
      (engine.runOn sole state content).2.SameBytes (engine.runOn sole state content').2 :=
  Program.run_sole_congr h (engine.run.run state)

variable {server : Server ι ω} {world : ω}

theorem Access.runOn_bind_same {access : Access ι α} {result : Except Error α} {f : α → Access ι β}
    {g : α → Except Error β} (h : access.runOn server world = (result, world))
    (hf : ∀ a, (f a).runOn server world = (g a, world)) :
    (access >>= f).runOn server world = (result >>= g, world) := by
  cases result with
  | ok a => exact (runOn_bind_ok h f).trans (hf a)
  | error e => exact runOn_bind_error h f

theorem Access.runOn_bind_congr {access access' : Access ι α} {f f' : α → Access ι β}
    (h : access'.runOn server world = access.runOn server world)
    (hf : ∀ a world, (f' a).runOn server world = (f a).runOn server world) :
    (access' >>= f').runOn server world = (access >>= f).runOn server world := by
  rw [runOn_bind, runOn_bind, h]
  rcases access.runOn server world with ⟨result, world'⟩
  cases result with
  | ok a => exact hf a world'
  | error e => rfl

theorem Engine.runOn_bind_congr {engine engine' : Engine ι σ α} {state : σ}
    (h : engine'.runOn server state world = engine.runOn server state world)
    (f : α → Engine ι σ β) :
    (engine' >>= f).runOn server state world = (engine >>= f).runOn server state world := by
  rw [runOn_bind, runOn_bind, h]

theorem Access.of_runOn_bind {access : Access ι α} {f : α → Access ι β} {world' : ω} {b : β}
    (h : (access >>= f).runOn server world = (.ok b, world')) :
    ∃ a world₁, access.runOn server world = (.ok a, world₁) ∧
      (f a).runOn server world₁ = (.ok b, world') := by
  rw [runOn_bind] at h
  rcases hrun : access.runOn server world with ⟨result, world₁⟩
  rw [hrun] at h
  cases result with
  | ok a => exact ⟨a, world₁, rfl, h⟩
  | error e => cases h

theorem Access.runOn_sole_write {n offset : Nat} (disk : ι) (data : Bytes n)
    (fits : offset + n < 2 ^ 64) (content : Content) :
    (write disk offset data).runOn sole content = (.ok (), content.write offset data) := by
  obtain ⟨data, rfl⟩ := data
  change Medium.settle content (Medium.memory.write content offset data) = _
  rw [Medium.write, if_neg (Nat.not_le.mpr fits)]
  rfl

theorem Access.of_runOn_write {disk : ι} {n offset : Nat} {data : Bytes n}
    {content content' : Content}
    (h : (write disk offset data).runOn sole content = (.ok (), content')) :
    content' = content.write offset data ∧ offset + n < 2 ^ 64 := by
  obtain ⟨data, rfl⟩ := data
  change Medium.settle content (Medium.memory.write content offset data) = _ at h
  rw [Medium.write] at h
  split at h
  · cases h
  · next hfits => exact ⟨(Prod.mk.inj h).2.symm, Nat.not_le.mp hfits⟩

theorem Engine.of_runOn_bind {engine : Engine ι σ α} {f : α → Engine ι σ β} {state state' : σ}
    {world' : ω} {b : β}
    (h : (engine >>= f).runOn server state world = ((.ok b, state'), world')) :
    ∃ a state₁ world₁, engine.runOn server state world = ((.ok a, state₁), world₁) ∧
      (f a).runOn server state₁ world₁ = ((.ok b, state'), world') := by
  rw [runOn_bind] at h
  rcases hrun : engine.runOn server state world with ⟨⟨result, state₁⟩, world₁⟩
  rw [hrun] at h
  cases result with
  | ok a => exact ⟨a, state₁, world₁, rfl, h⟩
  | error e => cases h

theorem Engine.of_runOn_liftExcept {result : Except Error α} {a : α} {state state' : σ} {world' : ω}
    (h : (liftM result : Engine ι σ α).runOn server state world = ((.ok a, state'), world')) :
    result = .ok a ∧ state' = state ∧ world' = world := by
  rw [runOn_liftExcept, Prod.mk.injEq, Prod.mk.injEq] at h
  exact ⟨h.1.1, h.1.2.symm, h.2.symm⟩

theorem Engine.result_bind_pure (engine : Engine ι σ α) (f : α → β) (server : Server ι ω)
    (state : σ) (world : ω) :
    ((engine >>= fun a => pure (f a)).runOn server state world).1.1 =
      (engine.runOn server state world).1.1.map f := by
  rw [runOn_bind]
  rcases engine.runOn server state world with ⟨⟨result, state'⟩, world'⟩
  cases result with
  | ok a => rfl
  | error e => rfl

end VirtualDisk.Storage
