import Mathlib.Tactic
import MeshDiffusion.Proofs.Equation.Step
import MeshDiffusion.Proofs.Index.Tiling
import MeshDiffusion.Proofs.Operator.Flux
import MeshDiffusion.Proofs.Setup.Options

/-!
The balance of a cell, in exact arithmetic.

Without rounding, a step that succeeds leaves in every cell a balance between the change of momentum
and the flux through the faces of the cell (`ImplicitDiffusion.LevelSolved.balance`), with a
viscosity on each face that is the mean of the two cells next to it
(`ImplicitDiffusion.LevelSolved.viscosity_eq`). The cells of a level are those of `Layout.cells`.
-/

namespace MeshDiffusion

/-- The mean of a cell and its neighbour, whichever comes first. -/
lemma faceAverage_eq {cells : MeshField ℚ} {i : ℕ} {p : Point} {f : Face} :
    faceAverage cells i p f
      = (cells.get i p 0 + cells.get i (p.move f.axis f.side.step) 0) / 2 := by
  rw [faceAverage]
  cases hside : f.side with
  | lo =>
      calc (0.5 : ℚ) * (cells.get i (p.move f.axis (-1)) 0 + cells.get i p 0)
          = 1 / 2 * (cells.get i (p.move f.axis (-1)) 0 + cells.get i p 0) := by rw [Exact.half]
        _ = (cells.get i p 0 + cells.get i (p.move f.axis Side.lo.step) 0) / 2 := by
            rw [show Side.lo.step = -1 from rfl]
            ring
  | hi =>
      calc (0.5 : ℚ) * (cells.get i p 0 + cells.get i (p.move f.axis 1) 0)
          = 1 / 2 * (cells.get i p 0 + cells.get i (p.move f.axis 1) 0) := by rw [Exact.half]
        _ = (cells.get i p 0 + cells.get i (p.move f.axis Side.hi.step) 0) / 2 := by
            rw [show Side.hi.step = 1 from rfl]
            ring

namespace ImplicitDiffusion

variable {setup : Setup ℚ} {boundary : DomainBoundary} {level : ℕ} {dt target : ℚ}
  {vel ro eta after u : MeshField ℚ} {o : FiniteVolume ℚ} {l : LevelOperator ℚ} {c : ℕ × Point}
  {n : ℕ}

namespace LevelSolved

/-- The viscosity on a face is the mean of the two cells next to it. -/
lemma viscosity_eq (h : LevelSolved setup boundary level dt target vel ro eta after o l u)
    (hc : c ∈ (setup.hierarchy.layout level).cells) (f : Face) :
    l.faceViscosity c.1 c.2 f
      = (eta.get c.1 c.2 0 + eta.get c.1 (c.2.move f.axis f.side.step) 0) / 2 := by
  obtain ⟨hi, hp⟩ := Layout.mem_cells.1 hc
  rw [h.viscosity c.1 hi c.2 hp f, faceAverage_eq]

/-- A viscosity from zero on around the cells is from zero on on their faces. -/
lemma viscosity_nonneg (h : LevelSolved setup boundary level dt target vel ro eta after o l u)
    (hc : c ∈ (setup.hierarchy.layout level).cells)
    (heta : ∀ i < (setup.hierarchy.layout level).count,
      ∀ p ∈ ((setup.hierarchy.layout level).box i).grow 1, 0 ≤ eta.get i p 0) (f : Face) :
    0 ≤ l.faceViscosity c.1 c.2 f := by
  obtain ⟨hi, hp⟩ := Layout.mem_cells.1 hc
  have hself := heta c.1 hi c.2 (Box.mem_grow_of_mem 1 hp)
  have hnext := heta c.1 hi (c.2.move f.axis f.side.step) (Box.move_mem_grow hp f.side.step_eq)
  rw [h.viscosity_eq hc]
  linarith

/-- **The loss of momentum of a cell and the flux into it cancel up to the target.** -/
theorem balance (h : LevelSolved setup boundary level dt target vel ro eta after o l u)
    (hc : c ∈ (setup.hierarchy.layout level).cells) (hn : n < velocityComponents) :
    |ro.get c.1 c.2 0 * (vel.get c.1 c.2 n - after.get c.1 c.2 n)
        + dt * o.inflow l c.1 (fun q => u.get c.1 q n) c.2| ≤ target := by
  obtain ⟨hi, hp⟩ := Layout.mem_cells.1 hc
  have halpha : o.alpha = 1 := h.alpha.trans Exact.one
  have hneg : (-(1.0) : ℚ) = -1 := by rw [Exact.one]
  have himage : o.image l c.1 (fun q => u.get c.1 q n) c.2
      = ro.get c.1 c.2 0 * after.get c.1 c.2 n
        - dt * o.inflow l c.1 (fun q => u.get c.1 q n) c.2 := by
    rw [FiniteVolume.image_eq, halpha, h.beta, h.mass c.1 hi c.2 hp, h.valid c.1 hi c.2 hp n hn,
      one_mul]
  have hres : |vel.get c.1 c.2 n * ro.get c.1 c.2 0
      + -1 * o.image l c.1 (fun q => u.get c.1 q n) c.2| ≤ target := by
    rw [← hneg]
    exact h.residual c.1 hi c.2 hp n hn
  rw [himage] at hres
  have hsum : ro.get c.1 c.2 0 * (vel.get c.1 c.2 n - after.get c.1 c.2 n)
        + dt * o.inflow l c.1 (fun q => u.get c.1 q n) c.2
      = vel.get c.1 c.2 n * ro.get c.1 c.2 0
        + -1 * (ro.get c.1 c.2 0 * after.get c.1 c.2 n
          - dt * o.inflow l c.1 (fun q => u.get c.1 q n) c.2) := by ring
  rwa [hsum]

end LevelSolved

end ImplicitDiffusion

/-! ### Two cells in a duct -/

/-- Two cells in a row. -/
def ductDomain : Box := ⟨⟨0, 0, 0⟩, ⟨1, 0, 0⟩, .cell⟩

/-- Two cells in a row that wraps around along the second and the third axis, each in a box of its
own. -/
def ductPlan : Hierarchy.Plan ℚ where
  geometry := ⟨ductDomain, ⟨0, 0, 0⟩, ⟨2, 1, 1⟩, ⟨false, true, true⟩⟩
  maxBoxLength := 1

/-- The only level of the duct. -/
def ductLevel : MeshLevel ℚ where
  geometry := ductPlan.geometry
  layout := ⟨#[⟨⟨0, 0, 0⟩, ⟨0, 0, 0⟩, .cell⟩, ⟨⟨1, 0, 0⟩, ⟨1, 0, 0⟩, .cell⟩]⟩
  owners := .dealt 2 1

/-- The mesh of the duct. -/
def ductMesh : Hierarchy ℚ := ⟨.ofList [ductLevel], 0⟩

lemma ductLevel_tiles : ductLevel.layout.Tiles ductDomain := by
  refine Layout.tiles_pair (fun q => ?_) (fun q hq hq' => ?_)
  · simp only [ductDomain, Box.mem_iff, Axis.forall_axis, Triple.get]
    omega
  · simp only [Box.mem_iff, Axis.forall_axis, Triple.get] at hq hq'
    omega

/-- A field on the duct with one layer of ghosts. -/
def ductLevels (ncomp : ℕ) (v : Point → ℚ) : Levels (MeshField ℚ) :=
  ductMesh.levelsOfFn ncomp 1 fun _ p _ => v p

lemma get_ductLevels {ncomp i n : ℕ} {v : Point → ℚ} {p : Point} (hi : i < 2)
    (hp : p ∈ (ductLevel.layout.box i).grow 1) (hn : n < ncomp) :
    ((ductLevels ncomp v).get 0).get i p n = v p := by
  have hactive : 0 < ductMesh.active := Nat.one_pos
  rw [ductLevels, Hierarchy.levelsOfFn, Levels.get_ofFn hactive, MeshField.get_ofFn,
    if_pos ⟨hi, hp, hn⟩]

/-- A velocity of one in the first cell and zero everywhere else, the same in all components. -/
def ductVelocity : Levels (MeshField ℚ) :=
  ductLevels velocityComponents fun p => if p.x = 0 then 1 else 0

/-- A density or a viscosity of one. -/
def ductOnes : Levels (MeshField ℚ) := ductLevels 1 fun _ => 1

lemma shape_ductLevels (ncomp : ℕ) (v : Point → ℚ) :
    ((ductLevels ncomp v).get 0).shape = ⟨ductLevel.layout, ductLevel.owners, ncomp, 1⟩ := by
  have hactive : 0 < ductMesh.active := Nat.one_pos
  rw [ductLevels, Hierarchy.levelsOfFn, Levels.get_ofFn hactive]
  rfl

namespace ImplicitDiffusion

/-- A duct without an obstacle, with the same condition at both ends. -/
def duct (wall : WallCondition) : Setup ℚ where
  hierarchy := ductMesh
  obstacles := ductMesh.withoutObstacles
  tags := .ofConditions ductDomain 1 (.const wall)
  ghosts := 1
  speed := 0

/-- The functions of an angle at zero, where the absent obstacle of a duct would ask for them. -/
abbrev trigAtZero : Trig ℚ := ⟨fun _ _ => 0, fun _ _ => 0, fun _ => 0, fun _ => 1⟩

/-- The kinds of boundary of a duct whose ends are of a given kind. -/
def ductBoundary (kind : BoundaryKind) : DomainBoundary :=
  ⟨⟨kind, .periodic, .periodic⟩, ⟨kind, .periodic, .periodic⟩⟩

/-- The equation on a duct whose ends are of a given kind. -/
def ductEquation (wall : WallCondition) (kind : BoundaryKind) : Standard ℚ :=
  letI := trigAtZero
  allocate (duct wall) .defaults (ductBoundary kind) FiniteVolume.unbound {}

/-- Options with tolerances from zero on and caps above zero pass their check. -/
lemma validate_of_nonneg {config : DiffusionOptions ℚ} (hrtol : 0 ≤ config.rtol)
    (hatol : 0 ≤ config.atol) (hcycles : config.maxCycles ≠ 0) (hinner : config.maxInner ≠ 0) :
    config.validate = .ok () := by
  have htolerance {tol : ℚ} (htol : 0 ≤ tol) : DiffusionOptions.Tolerable tol :=
    ⟨rfl, Exact.zero.symm ▸ htol⟩
  exact ((DiffusionOptions.outcome_validate config).ok_iff ()).2
    ⟨htolerance hrtol, htolerance hatol, Nat.one_le_iff_ne_zero.2 hcycles,
      Nat.one_le_iff_ne_zero.2 hinner⟩

/-- The two ends of a duct are of the kind of their condition, whatever the options. -/
lemma check_duct_of_valid {config : DiffusionOptions ℚ} {wall : WallCondition} {kind : BoundaryKind}
    (hvalid : config.validate = .ok ()) (h : wall.kind? = some kind) :
    check (duct wall) config = .ok (ductBoundary kind) := by
  have hresolve : (duct wall).tags.resolve ⟨false, true, true⟩ 1 = .ok (ductBoundary kind) := by
    cases wall <;> cases h <;> rfl
  have hobstacles : ¬(duct wall).obstacles.count < (duct wall).hierarchy.topLevel + 1 := by
    have hcount : (duct wall).obstacles.count = 1 := Levels.count_ofFn ..
    have htop : (duct wall).hierarchy.topLevel = 0 := rfl
    omega
  have hghosts : (duct wall).ghosts ≠ 0 := one_ne_zero
  rw [check, hvalid]
  simp only [if_neg hobstacles, if_neg hghosts]
  exact congrArg (Except.mapError DiffusionFailure.boundary) hresolve

lemma make_duct_of_valid {config : DiffusionOptions ℚ} {wall : WallCondition} {kind : BoundaryKind}
    (hvalid : config.validate = .ok ()) (h : wall.kind? = some kind) :
    letI := trigAtZero
    (make (duct wall) config).value
      = .ok (allocate (duct wall) config (ductBoundary kind) FiniteVolume.unbound {}) := by
  let := trigAtZero
  rw [make, makeWith_eq, check_duct_of_valid hvalid h]

/-- The options that are not given pass their own check. -/
lemma validate_defaults : (DiffusionOptions.defaults : DiffusionOptions ℚ).validate = .ok () :=
  validate_of_nonneg (by decide +kernel) (by decide +kernel) (by decide) (by decide)

lemma check_duct {wall : WallCondition} {kind : BoundaryKind} (h : wall.kind? = some kind) :
    check (duct wall) .defaults = .ok (ductBoundary kind) :=
  check_duct_of_valid validate_defaults h

lemma make_duct {wall : WallCondition} {kind : BoundaryKind} (h : wall.kind? = some kind) :
    letI := trigAtZero
    (make (duct wall) .defaults).value = .ok (ductEquation wall kind) :=
  make_duct_of_valid validate_defaults h

lemma reached_ductEquation {wall : WallCondition} {kind : BoundaryKind}
    (h : wall.kind? = some kind) :
    letI := trigAtZero
    Reached (duct wall) .defaults (ductEquation wall kind) :=
  letI := trigAtZero
  .made (make_duct h)

/-- Between walls at rest, the solve in a duct converges. -/
lemma isOk_solve_duct :
    letI := trigAtZero
    ((ductEquation .noSlipWall .dirichlet).solve ductVelocity ductOnes ductOnes
      1).value.result.isOk = true := by
  decide +kernel

end ImplicitDiffusion

end MeshDiffusion
