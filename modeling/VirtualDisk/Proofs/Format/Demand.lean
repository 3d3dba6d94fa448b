import VirtualDisk.Error

/-!
# Demands in order

A record is read by looking at one demand after the other. The first that is not met is reported,
and a record that meets all of them is accepted. `Answers` says this about a result, apart from how
it is computed: both directions, so neither may a demand be missing nor one be added, and two
demands that fail at once are reported in the order of the list.
-/

namespace VirtualDisk

/-- What is asked of a record, and the failure where the record does not meet it. -/
structure Demand where
  met : Prop
  cause : Error

/-- The failure is that of the first demand that is not met. -/
inductive FirstUnmet : List Demand → Error → Prop
  | here {demand : Demand} {rest : List Demand} (unmet : ¬ demand.met) :
      FirstUnmet (demand :: rest) demand.cause
  | later {demand : Demand} {rest : List Demand} {e : Error} (met : demand.met)
      (first : FirstUnmet rest e) : FirstUnmet (demand :: rest) e

/-- A failure blames the first demand that is not met, and a success means that there is none; what
is accepted is what `accepted` describes. -/
structure Answers {α : Type} (demands : List Demand) (accepted : α → Prop)
    (result : Except Error α) : Prop where
  ok_iff : ∀ a, result = .ok a ↔ (∀ demand ∈ demands, demand.met) ∧ accepted a
  error_iff : ∀ e, result = .error e ↔ FirstUnmet demands e

/-- A size of one or more whole sectors. -/
def WholeSectors (size : Nat) : Prop := size ≠ 0 ∧ size % 512 = 0

instance (size : Nat) : Decidable (WholeSectors size) := inferInstanceAs (Decidable (_ ∧ _))

theorem not_wholeSectors_iff {size : Nat} : size = 0 ∨ size % 512 ≠ 0 ↔ ¬ WholeSectors size := by
  unfold WholeSectors
  omega

variable {α : Type} {demand : Demand} {demands : List Demand} {accepted accepted' : α → Prop}
variable {result : Except Error α} {e : Error}

@[simp] theorem not_firstUnmet_nil : ¬ FirstUnmet [] e := nofun

theorem firstUnmet_cons :
    FirstUnmet (demand :: demands) e ↔
      ¬ demand.met ∧ e = demand.cause ∨ demand.met ∧ FirstUnmet demands e := by
  constructor
  · intro h
    cases h with
    | here unmet => exact .inl ⟨unmet, rfl⟩
    | later met first => exact .inr ⟨met, first⟩
  · rintro (⟨unmet, rfl⟩ | ⟨met, first⟩)
    · exact .here unmet
    · exact .later met first

theorem FirstUnmet.exists_mem (h : FirstUnmet demands e) :
    ∃ demand ∈ demands, ¬ demand.met ∧ demand.cause = e := by
  induction h with
  | here unmet => exact ⟨_, List.mem_cons_self, unmet, rfl⟩
  | later _ _ ih =>
    obtain ⟨demand, hmem, hunmet⟩ := ih
    exact ⟨demand, List.mem_cons_of_mem _ hmem, hunmet⟩

theorem firstUnmet_append {others : List Demand} :
    FirstUnmet (demands ++ others) e ↔
      FirstUnmet demands e ∨ (∀ demand ∈ demands, demand.met) ∧ FirstUnmet others e := by
  induction demands with
  | nil => simp
  | cons demand demands ih =>
    rw [List.cons_append, firstUnmet_cons, firstUnmet_cons, ih, List.forall_mem_cons,
      and_or_left, or_assoc, and_assoc]

theorem FirstUnmet.not_forall_met (h : FirstUnmet demands e) :
    ¬ ∀ demand ∈ demands, demand.met := by
  intro hmet
  obtain ⟨demand, hmem, hunmet, -⟩ := h.exists_mem
  exact hunmet (hmet demand hmem)

theorem FirstUnmet.unique {e' : Error} (h : FirstUnmet demands e) (h' : FirstUnmet demands e') :
    e = e' := by
  induction h with
  | here unmet =>
    cases h' with
    | here => rfl
    | later met => exact absurd met unmet
  | later met _ ih =>
    cases h' with
    | here unmet => exact absurd met unmet
    | later _ first => exact ih first

theorem forall_met_or_firstUnmet (demands : List Demand) :
    (∀ demand ∈ demands, demand.met) ∨ ∃ e, FirstUnmet demands e := by
  induction demands with
  | nil => exact .inl nofun
  | cons demand demands ih =>
    by_cases hmet : demand.met
    · obtain hall | ⟨e, first⟩ := ih
      · exact .inl (List.forall_mem_cons.mpr ⟨hmet, hall⟩)
      · exact .inr ⟨e, .later hmet first⟩
    · exact .inr ⟨_, .here hmet⟩

namespace Answers

theorem nil {a : α} (ha : accepted a) (unique : ∀ b, accepted b → a = b) :
    Answers [] accepted (.ok a) where
  ok_iff b := by
    constructor
    · intro h
      obtain rfl := Except.ok.inj h
      exact ⟨nofun, ha⟩
    · intro h
      exact congrArg Except.ok (unique b h.2)
  error_iff e := by simp

theorem cons (met : demand.met → Answers demands accepted result)
    (unmet : ¬ demand.met → result = .error demand.cause) :
    Answers (demand :: demands) accepted result := by
  by_cases hmet : demand.met
  · obtain ⟨hok, herror⟩ := met hmet
    constructor
    · intro a
      simp [hok, hmet]
    · intro e
      simp [herror, firstUnmet_cons, hmet]
  · have hresult := unmet hmet
    subst hresult
    constructor
    · intro a
      simp [hmet]
    · intro e
      simp [firstUnmet_cons, hmet, eq_comm]

/-- A check before the others reports a demand that is not met. -/
theorem guard {fails : Prop} [Decidable fails] (hfails : fails ↔ ¬ demand.met)
    (met : demand.met → Answers demands accepted result) :
    Answers (demand :: demands) accepted (if fails then .error demand.cause else result) := by
  refine cons (fun hmet => ?_) fun hunmet => if_pos (hfails.mpr hunmet)
  rw [if_neg fun h => hfails.mp h hmet]
  exact met hmet

theorem tail (h : Answers (demand :: demands) accepted result) (met : demand.met) :
    Answers demands accepted result where
  ok_iff a := by simpa [met] using h.ok_iff a
  error_iff e := by simpa [firstUnmet_cons, met] using h.error_iff e

theorem forall_error {C : Error → Prop} (h : Answers demands accepted result)
    (causes : ∀ demand ∈ demands, C demand.cause) (he : result = .error e) : C e := by
  obtain ⟨demand, hmem, -, rfl⟩ := ((h.error_iff e).mp he).exists_mem
  exact causes demand hmem

/-- A record is accepted if all demands are met, and only then. -/
theorem exists_ok_iff (h : Answers demands accepted result) :
    (∃ a, result = .ok a) ↔ ∀ demand ∈ demands, demand.met := by
  cases hresult : result with
  | ok a => simpa using ((h.ok_iff a).mp hresult).1
  | error e =>
    obtain ⟨demand, hmem, hunmet, -⟩ := ((h.error_iff e).mp hresult).exists_mem
    constructor
    · nofun
    · intro hmet
      exact absurd (hmet demand hmem) hunmet

theorem congr (h : Answers demands accepted result) (same : ∀ a, accepted a ↔ accepted' a) :
    Answers demands accepted' result where
  ok_iff a := by rw [← same a, h.ok_iff a]
  error_iff := h.error_iff

end Answers

end VirtualDisk
