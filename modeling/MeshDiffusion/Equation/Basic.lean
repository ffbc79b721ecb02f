import MeshDiffusion.Equation.LevelSystem
import MeshDiffusion.Equation.Failure
import MeshDiffusion.Equation.WallVelocity
import MeshDiffusion.Mesh.LevelFields
import MeshDiffusion.Operator.FiniteVolume
import MeshDiffusion.Setup.Options
import MeshDiffusion.Solver.ResidualCorrection

/-!
The implicit diffusion of a velocity.

One step replaces the velocity `vel` on every level by the solution `u` of

  `ro * u - dt * div (eta * grad u) = ro * vel`

with the viscosity `eta` averaged to faces. The operator and the solver are parameters.

* `ImplicitDiffusion.Setup` is what the equation needs of its surroundings, and
  `ImplicitDiffusion.construct` checks it in a fixed order, resolves the boundary, allocates the
  fields of all levels, computes the velocity of the obstacle's surface, and binds the operator;
  `ImplicitDiffusion.makeWith` keeps the equation or the reason of a refusal, and
  `ImplicitDiffusion.make` uses the finite-volume operator and residual correction;
* `ImplicitDiffusion.solve` makes a step: coefficients of all levels, right-hand sides and first
  guesses of all levels, the linear solve, and, if it converged, the new velocity;
* `ImplicitDiffusion.updateMesh` refuses another mesh.
-/

namespace MeshDiffusion

/-- The diffusion equation on a hierarchy, with its fields for all levels. -/
structure ImplicitDiffusion (O S K : Type) where
  hierarchy : Hierarchy K
  obstacles : Levels (Obstacle K)
  config : DiffusionOptions K
  ghosts : Nat
  speed : K
  boundary : DomainBoundary
  /-- The viscosity on faces from the last step. -/
  faces : Levels (Triple (MeshField K))
  /-- The solution of the last step. -/
  solution : Levels (MeshField K)
  /-- The right-hand side of the last step. -/
  rhs : Levels (MeshField K)
  /-- The velocity of the obstacle's surface. -/
  wallVelocity : Levels (MeshField K)
  operator : O
  solver : S

namespace ImplicitDiffusion

variable {O S K : Type}

/-- What the equation needs of its surroundings. -/
structure Setup (K : Type) where
  hierarchy : Hierarchy K
  obstacles : Levels (Obstacle K)
  tags : DomainTags
  /-- The halo of the fields that the equation is given, and of its face fields. -/
  ghosts : Nat
  /-- The speed of the obstacle's surface. -/
  speed : K

/-- The order of the derivative at walls. -/
def wallOrder : Nat := 3

/-- A notice, if the configuration asks for progress. -/
def tell (config : DiffusionOptions K) (n : Notice K) : List (Notice K) :=
  if 0 < config.verbose then [n] else []

/-- The notices on a failure of the resolution. -/
def boundaryNotices : TagFault → List (Notice K)
  | .invalidTag face tag => [.invalidTag face tag]
  | .noTag _ => []

/-! ### Construction -/

section Construction

variable [Scalar K]

/-- Checks the configuration, the number of obstacles and the halo, and resolves the tags. -/
def check (setup : Setup K) (config : DiffusionOptions K) :
    Except (DiffusionFailure K) DomainBoundary :=
  match config.validate with
  | .error e => .error (.config e)
  | .ok () =>
    let levels := setup.hierarchy.topLevel + 1
    if setup.obstacles.count < levels then
      .error (.mesh (.tooFewObstacles setup.obstacles.count levels))
    else if setup.ghosts = 0 then .error (.mesh .noGhosts)
    else
      (setup.tags.resolve (setup.hierarchy.geometry 0).periodic setup.ghosts).mapError .boundary

/-- The notices on a failure. -/
def failureNotices : DiffusionFailure K → List (Notice K)
  | .boundary e => boundaryNotices e
  | _ => []

/-- The equation on checked surroundings, with fields for all levels. -/
def allocate [Trig K] [DiffusionOperator O K] (setup : Setup K) (config : DiffusionOptions K)
    (boundary : DomainBoundary) (operator : O) (solver : S) : ImplicitDiffusion O S K :=
  let h := setup.hierarchy
  let levels := h.topLevel + 1
  let options : OperatorOptions := ⟨config.maxCoarsening⟩
  let operator := DiffusionOperator.bind operator h setup.obstacles options
  let operator := DiffusionOperator.setWallOrder operator wallOrder
  let operator := DiffusionOperator.setBoundary operator boundary
  { hierarchy := h
    obstacles := setup.obstacles
    config := config
    ghosts := setup.ghosts
    speed := setup.speed
    boundary := boundary
    faces := .ofFn levels fun l => h.zeroFaceFields l setup.ghosts
    solution := .ofFn levels fun l => h.zeroField l velocityComponents 1
    rhs := .ofFn levels fun l => h.zeroField l velocityComponents 0
    wallVelocity := .ofFn levels fun l =>
      fillWallVelocity (h.zeroField l velocityComponents setup.ghosts) (setup.obstacles.get l)
        setup.speed
    operator := operator
    solver := solver }

/-- What is left of a refused construction: the operator, as it was then, and the reason. -/
structure Refused (O K : Type) where
  operator : O
  failure : DiffusionFailure K

/-- Constructs the equation with a given operator and solver. The operator is set up after all
checks, and a construction that is refused gives it back. -/
def construct [Trig K] [DiffusionOperator O K] (setup : Setup K) (config : DiffusionOptions K)
    (operator : O) (solver : S) : Noted K (Except (Refused O K) (ImplicitDiffusion O S K)) :=
  let heard := tell config .constructing
  match check setup config with
  | .error e => ⟨heard ++ failureNotices e, .error ⟨operator, e⟩⟩
  | .ok boundary => ⟨heard, .ok (allocate setup config boundary operator solver)⟩

/-- The equation with a given operator and solver, or the reason why it was refused. -/
def makeWith [Trig K] [DiffusionOperator O K] (setup : Setup K) (config : DiffusionOptions K)
    (operator : O) (solver : S) :
    Noted K (Except (DiffusionFailure K) (ImplicitDiffusion O S K)) :=
  let built := construct setup config operator solver
  ⟨built.notices, built.value.mapError Refused.failure⟩

/-- The check of its surroundings decides a construction. -/
theorem makeWith_eq [Trig K] [DiffusionOperator O K] (setup : Setup K) (config : DiffusionOptions K)
    (operator : O) (solver : S) :
    makeWith setup config operator solver = match check setup config with
      | .error e => ⟨tell config .constructing ++ failureNotices e, .error e⟩
      | .ok boundary =>
        ⟨tell config .constructing, .ok (allocate setup config boundary operator solver)⟩ := by
  rw [makeWith, construct]
  cases check setup config with
  | error e => rfl
  | ok boundary => rfl

/-- The equation with the finite-volume operator and residual correction. -/
def make [Trig K] (setup : Setup K) (config : DiffusionOptions K) :
    Noted K (Except (DiffusionFailure K)
      (ImplicitDiffusion (FiniteVolume K) ResidualCorrection K)) :=
  makeWith setup config .unbound {}

end Construction

/-! ### A step -/

section Step

variable [Scalar K] [DiffusionOperator O K]

/-- What is left after a step: the equation, the velocity, and the report or the failure. -/
structure Stepped (O S K : Type) where
  equation : ImplicitDiffusion O S K
  velocity : Levels (MeshField K)
  result : Except (DiffusionFailure K) (SolveSummary K)

/-- Sets the coefficients of a level. -/
@[specialize] def loadCoefficients (ro eta : Levels (MeshField K)) (eq : ImplicitDiffusion O S K)
    (level : Nat) : ImplicitDiffusion O S K :=
  let (op, faces) := levelCoefficients eq.operator level (eq.hierarchy.geometry level)
    (eq.faces.get level) (ro.get level) (eta.get level)
  { eq with operator := op, faces := eq.faces.set level faces }

/-- Sets the right-hand side, the first guess and the boundary values of a level. -/
@[specialize] def loadSystem (vel ro : Levels (MeshField K)) (eq : ImplicitDiffusion O S K)
    (level : Nat) : ImplicitDiffusion O S K :=
  let rhs := momentum (eq.rhs.get level) (vel.get level) (ro.get level)
  let (op, phi) := firstGuess eq.operator level (eq.hierarchy.geometry level)
    (eq.solution.get level) (vel.get level)
  { eq with operator := op, rhs := eq.rhs.set level rhs, solution := eq.solution.set level phi }

/-- The system of a step on the first `n` levels. -/
@[specialize] def assemble (eq : ImplicitDiffusion O S K) (n : Nat)
    (vel ro eta : Levels (MeshField K)) (dt : K) : ImplicitDiffusion O S K :=
  let eq := { eq with operator := DiffusionOperator.setAlphaBeta eq.operator 1.0 dt }
  let eq := (List.range n).foldl (loadCoefficients ro eta) eq
  (List.range n).foldl (loadSystem vel ro) eq

/-- Replaces the first levels of a collection by those of another one. -/
def overwrite (all first : Levels (MeshField K)) (n : Nat) : Levels (MeshField K) :=
  (List.range n).foldl (fun all l => all.set l (first.get l)) all

/-- Exchanges the halo of the solution of a level and copies it into the velocity, with one layer of
ghosts. -/
@[specialize] def storeLevel (hierarchy : Hierarchy K)
    (state : Levels (MeshField K) × Levels (MeshField K)) (level : Nat) :
    Levels (MeshField K) × Levels (MeshField K) :=
  let (solution, vel) := state
  let phi := (solution.get level).exchange (hierarchy.geometry level).periods
  (solution.set level phi,
    vel.set level ((vel.get level).copy phi 0 0 velocityComponents 1))

/-- Diffuses a velocity over a step of `dt`, with the density `ro` and the viscosity `eta`. The
velocity is changed only if the solve converges. -/
@[specialize] def solve [LinearSolver S K] (eq : ImplicitDiffusion O S K)
    (vel ro eta : Levels (MeshField K)) (dt : K) : Noted K (Stepped O S K) :=
  let n := eq.hierarchy.active
  let got := min (min vel.count ro.count) eta.count
  if got < n then
    .quiet ⟨eq, vel, .error (.solve (.fewerLevels n got))⟩
  else
    let eq := eq.assemble n vel ro eta dt
    let configured := LinearSolver.configure eq.solver eq.config.solveOptions
    let solved := LinearSolver.solve configured.value eq.operator (eq.solution.take n)
      (eq.rhs.take n) eq.config.rtol eq.config.atol
    let heard := tell eq.config .diffusing ++ configured.notices ++ solved.notices
    let solution := overwrite eq.solution solved.value.solution n
    let eq := { eq with solver := solved.value.solver }
    match solved.value.result with
    | .error e => ⟨heard, { eq with solution := solution }, vel, .error (.solve e)⟩
    | .ok report =>
      let (solution, vel) := (List.range n).foldl (storeLevel eq.hierarchy) (solution, vel)
      ⟨heard ++ tell eq.config (.diffused report.cycles report.endResidual),
        { eq with solution := solution }, vel, .ok report⟩

end Step

/-! ### Views -/

/-- Refuses a mesh to replace the one of the equation. -/
def updateMesh (_ : ImplicitDiffusion O S K) (hierarchy : Hierarchy K)
    (obstacles : Levels (Obstacle K)) : Noted K (Except (DiffusionFailure K) Unit) :=
  ⟨[.meshChangeRefused (hierarchy.topLevel + 1) obstacles.count],
    .error (.unsupported "update_internals")⟩

/-- The number of levels that the equation has fields for. -/
def levelCount (eq : ImplicitDiffusion O S K) : Nat := eq.solution.count

/-- The description of an equation. -/
def describe [Scalar K] [Text.DecimalText K] (eq : ImplicitDiffusion O S K) : String :=
  "DiffusionEquation \x7b num_levels: " ++ toString eq.levelCount ++
    ", nghost: " ++ toString eq.ghosts ++
    ", cyl_speed: " ++ Text.DecimalText.debug eq.speed ++
    ", bc: " ++ DomainBoundary.describe eq.boundary ++
    ", config: " ++ eq.config.describe ++ ", .. \x7d"

end ImplicitDiffusion

end MeshDiffusion
