import MeshDiffusion.Solver.LinearSolver

/-!
A backend that records.

`OperatorRecorder` is an operator and `SolveRecorder` a solver without arithmetic. They keep what
they are asked to do, in order, so that the way in which the diffusion equation drives its backend
can be read off.

* `SetupRequest` is one request to set the operator up; `OperatorRecorder` keeps them all, its
  images are zero and its diagonal is one;
* `SolveRequest` is one request to solve; `SolveRecorder` keeps them all and leaves the solution as
  it is, or fails with a given failure.
-/

namespace MeshDiffusion

/-! ### Operators -/

/-- A request to set up an operator. -/
inductive SetupRequest (K : Type) where
  | bind (obstacles maxCoarsening : Nat)
  | setWallOrder (order : Nat)
  | setBoundary (boundary : DomainBoundary)
  | setAlphaBeta (alpha beta : K)
  | setMass (level : Nat)
  | setFaceViscosity (level : Nat)
  | setObstacleViscosity (level : Nat)
  | setBoundaryValues (level : Nat)

/-- An operator that keeps the requests it was set up with. -/
structure OperatorRecorder (K : Type) where
  requests : Array (SetupRequest K) := #[]
  levels : Nat := 0

namespace OperatorRecorder

variable {K : Type}

/-- Adds a request. -/
def record (r : OperatorRecorder K) (c : SetupRequest K) : OperatorRecorder K :=
  { r with requests := r.requests.push c }

/-- Forgets all requests. -/
def clear (r : OperatorRecorder K) : OperatorRecorder K := { r with requests := #[] }

instance [Scalar K] : DiffusionOperator (OperatorRecorder K) K where
  bind r h obstacles options :=
    { r.record (.bind obstacles.count options.maxCoarsening) with levels := h.active }
  setWallOrder r n := r.record (.setWallOrder n)
  setBoundary r b := r.record (.setBoundary b)
  setAlphaBeta r alpha beta := r.record (.setAlphaBeta alpha beta)
  setMass r level _ := r.record (.setMass level)
  setFaceViscosity r level _ := r.record (.setFaceViscosity level)
  setObstacleViscosity r level _ := r.record (.setObstacleViscosity level)
  setBoundaryValues r level _ := r.record (.setBoundaryValues level)
  levelCount r := r.levels
  fillHalo _ _ phi _ := phi
  apply _ _ phi out _ := (phi, out.fill 0.0)
  diagonal _ _ out := out.fill 1.0

end OperatorRecorder

/-! ### Solvers -/

/-- A request to solve. -/
structure SolveRequest (K : Type) where
  settings : SolveOptions
  rtol : K
  atol : K
  levels : Nat

/-- A solver that keeps the requests to solve, and fails if it holds a failure. -/
structure SolveRecorder (K : Type) where
  settings : SolveOptions := {}
  requests : Array (SolveRequest K) := #[]
  failure? : Option (SolveFailure K) := none

namespace SolveRecorder

variable {K : Type}

instance [Scalar K] : LinearSolver (SolveRecorder K) K where
  configure s settings := .quiet { s with settings := settings }
  solve s _ sol _ rtol atol :=
    let s := { s with requests := s.requests.push ⟨s.settings, rtol, atol, sol.count⟩ }
    .quiet ⟨s, sol, match s.failure? with
      | some e => .error e
      | none => .ok ⟨0, 0.0, 0.0, sol.count⟩⟩

end SolveRecorder

end MeshDiffusion
