import VirtualDisk.Proofs.Format.Geometry
import VirtualDisk.Proofs.Image.Making
import VirtualDisk.Proofs.Storage.Media

/-!
# Creating images with a derived geometry

Only the check of the options speaks of the geometry of a new image. All that comes after it has
milder causes or those of the disk, so a creation is refused for its geometry just where the check
refuses it, as long as the disk does not speak of geometries. A derived geometry never is too large.
It has no sector if the disk is smaller than the smallest cylinder.
-/

namespace VirtualDisk

open Storage

variable {ι κ ω : Type}

theorem Error.IsMild.sparesGeometry {e : Error} (h : e.IsMild) : e.SparesGeometry := by
  cases e with
  | corrupt what => trivial
  | parentUnavailable => trivial
  | unknownImage id => trivial
  | _ => exact h

namespace CreateOptions

variable {options : CreateOptions}

theorem checkedGeometry_derived (hderived : options.geometry? = none) :
    Answers
      [⟨WholeSectors options.size.toNat, .invalidOption .size⟩,
        ⟨68 ≤ options.size.toNat / 512, .invalidOption .noSectors⟩]
      (Geometry.ofSize options.size.toNat = ·) options.checkedGeometry := by
  have hgeometry : options.geometry?.getD (Geometry.ofSize options.size.toNat) =
      Geometry.ofSize options.size.toNat := by
    rw [hderived, Option.getD_none]
  have hle := (Geometry.derivedFor_ofSize options.size.toNat).totalSectors_le
  have hreach : Geometry.reach options.size.toNat ≤ options.size.toNat / 512 := Nat.min_le_left _ _
  have hzero := Geometry.totalSectors_ofSize_eq_zero_iff options.size.toNat
  obtain ⟨hok, herror⟩ := checkedGeometry_answers hgeometry
  simp only [geometryDemands, hgeometry] at hok herror
  constructor
  · intro geometry
    rw [hok]
    simp only [List.forall_mem_cons, ne_eq, hzero, Nat.not_lt, Nat.le_trans hle hreach, true_and]
  · intro e
    rw [herror]
    simp only [firstUnmet_cons, ne_eq, hzero, Nat.not_lt, Nat.le_trans hle hreach, true_and,
      not_true, false_and, false_or, not_firstUnmet_nil]

end CreateOptions

namespace Creation

/-- The failure is not about the geometry, or it is that of the check of the options. -/
def Excuses (creation : Creation κ) (options : CreateOptions) (e : Error) : Prop :=
  e.SparesGeometry ∨ creation.ChecksGeometry ∧ options.checkedGeometry = .error e

variable {server : Server ι ω} {disk : ι} {options : CreateOptions} {creation : Creation κ}
variable {world : ω}

section Running

variable (spares : ∀ disk request world e,
  (server disk request world).1 = .error e → e.SparesGeometry)
include spares

theorem of_create_error {e : Error} (he : ¬ e.SparesGeometry)
    (run : ((creation.create disk options).runOn server world).1 = .error e) :
    creation.ChecksGeometry ∧ options.checkedGeometry = .error e := by
  have A : (Protocol.failing ι Error.SparesGeometry).Allows disk (creation.Excuses options) :=
    ⟨fun _ _ => trivial, fun _ e h => .inl (h e rfl), fun _ h => .inl h.sparesGeometry⟩
  have hobeys := creation.create_obeys A fun checks e hchecked => .inr ⟨checks, hchecked⟩
  have hpost : Access.Outcome _ _ ((creation.create disk options).runOn server world).1 :=
    (Program.Obeys.run hobeys (Protocol.failing_governs spares) trivial).1
  rw [run] at hpost
  exact hpost.resolve_left he

omit spares in
theorem create_error_of_check (checks : creation.ChecksGeometry) {e : Error}
    (hchecked : options.checkedGeometry = .error e) :
    ((creation.create disk options).runOn server world).1 = .error e := by
  cases creation with
  | fixed =>
    change ((Image.createFixed disk options).runOn server world).1 = _
    rw [Image.createFixed, hchecked, Access.runOn_bind, Access.runOn_liftExcept]
  | dynamic =>
    change ((Image.createDynamic disk options).runOn server world).1 = _
    rw [Image.createDynamic, hchecked, Access.runOn_bind, Access.runOn_liftExcept]
  | differencing parent => exact checks.elim

theorem create_ne_geometryTooLarge (derived : options.geometry? = none) :
    ((creation.create disk options).runOn server world).1 ≠
      .error (.invalidOption .geometryTooLarge) := by
  intro run
  obtain ⟨-, hchecked⟩ := of_create_error spares id run
  have hfirst := ((CreateOptions.checkedGeometry_derived derived).error_iff _).mp hchecked
  simp [firstUnmet_cons] at hfirst

theorem create_eq_noSectors_iff (checks : creation.ChecksGeometry)
    (derived : options.geometry? = none) (hsize : WholeSectors options.size.toNat) :
    ((creation.create disk options).runOn server world).1 = .error (.invalidOption .noSectors) ↔
      options.size.toNat / 512 < 68 := by
  have hchecked : options.checkedGeometry = .error (.invalidOption .noSectors) ↔
      options.size.toNat / 512 < 68 := by
    rw [(CreateOptions.checkedGeometry_derived derived).error_iff]
    simp [firstUnmet_cons, hsize]
  rw [← hchecked]
  constructor
  · intro run
    exact (of_create_error spares id run).2
  · exact create_error_of_check checks

end Running

/-- A derived geometry has the tracks and heads of the format and all cylinders that fit. It is
never too large for a new image, and too small only where the disk has fewer than 68 sectors. -/
theorem derived_geometries_fit :
    (∀ size : Nat,
      (Geometry.ofSize size).DerivedFor (min (size / 512) (65535 * 16 * 255))) ∧
      ∀ {ι κ ω : Type} (server : Server ι ω),
        (∀ disk request world e,
          (server disk request world).1 = .error e → e.SparesGeometry) →
        ∀ (creation : Creation κ) (disk : ι) (options : CreateOptions) (world : ω),
          options.geometry? = none →
            ((creation.create disk options).runOn server world).1 ≠
              .error (.invalidOption .geometryTooLarge) ∧
            (creation.ChecksGeometry → WholeSectors options.size.toNat →
              (((creation.create disk options).runOn server world).1 =
                .error (.invalidOption .noSectors) ↔ options.size.toNat / 512 < 68)) := by
  refine ⟨Geometry.derivedFor_ofSize, ?_⟩
  intro ι κ ω server spares creation disk options world derived
  exact ⟨create_ne_geometryTooLarge spares derived,
    fun checks hsize => create_eq_noSectors_iff spares checks derived hsize⟩

theorem spares_sole (disk : ι) (request : Request) (content : Content) (e : Error)
    (h : (sole disk request content).1 = .error e) : e.SparesGeometry := by
  obtain rfl | ⟨offset, size, capacity, rfl⟩ := Medium.of_memory_error h <;> trivial

/-- Of 67 sectors there is no cylinder, and of 68 there is one. -/
theorem derived_geometries_fit_small : ∃ few enough : CreateOptions,
    few.size.toNat / 512 = 67 ∧ enough.size.toNat / 512 = 68 ∧
      (Geometry.ofSize enough.size.toNat).DerivedFor 68 ∧
      (((fixed : Creation Unit).create () few).runOn sole .empty).1 =
        .error (.invalidOption .noSectors) ∧
      (((dynamic : Creation Unit).create () enough).runOn sole .empty).1 ≠
        .error (.invalidOption .noSectors) ∧
      (((dynamic : Creation Unit).create () enough).runOn sole .empty).1 ≠
        .error (.invalidOption .geometryTooLarge) := by
  let few : CreateOptions := { CreateOptions.small with size := 34304, geometry? := none }
  let enough : CreateOptions := { CreateOptions.small with size := 34816, geometry? := none }
  have hfew : WholeSectors few.size.toNat := by decide
  have henough : WholeSectors enough.size.toNat := by decide
  obtain ⟨-, hnone⟩ := derived_geometries_fit.2 sole spares_sole (fixed : Creation Unit) () few
    .empty rfl
  obtain ⟨hlarge, hsome⟩ := derived_geometries_fit.2 sole spares_sole (dynamic : Creation Unit) ()
    enough .empty rfl
  refine ⟨few, enough, by decide, by decide, derived_geometries_fit.1 34816, ?_, ?_, hlarge⟩
  · exact (hnone trivial hfew).mpr (by decide)
  · intro run
    exact absurd ((hsome trivial henough).mp run) (by decide)

end Creation

end VirtualDisk
