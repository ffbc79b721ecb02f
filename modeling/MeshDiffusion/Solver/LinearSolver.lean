import MeshDiffusion.Notice
import MeshDiffusion.Operator.Basic
import MeshDiffusion.Solver.Basic

/-!
Linear solvers.

`LinearSolver S K` is a type of iterative solvers of `L sol = rhs` on all levels of an operator. A
solve starts from the solution it is given and returns the solution it reached, also when it
fails, together with the report or the reason of the failure, and with the solver itself.
-/

namespace MeshDiffusion

/-- What is left after a solve. -/
structure Solved (S K : Type) where
  solver : S
  solution : Levels (MeshField K)
  result : Except (SolveFailure K) (SolveSummary K)

/-- A type of solvers. -/
class LinearSolver (S K : Type) where
  configure : S → SolveOptions → Noted K S
  /-- Solves from an initial solution for a right-hand side, until the largest residual of every
  level is at most `max (rtol * r0) atol`, where `r0` is the initial one. -/
  solve : {O : Type} → [DiffusionOperator O K] → S → O → (sol rhs : Levels (MeshField K)) →
    (rtol atol : K) → Noted K (Solved S K)

end MeshDiffusion
