import MeshDiffusion.Text.Blank
import MeshDiffusion.Text.Decimal

/-!
Settings, reports and failures of linear solvers.

* `InnerMethod` is the choice of the inner solver; `InnerMethod.ofName` reads it and takes every
  name it does not know as the default;
* `SolveOptions` holds the caps and the verbosity of one solve;
* `SolveSummary` is the outcome of a solve that converged, `SolveFailure` the reason of one that
  did not, with its text in `SolveFailure.message`.
-/

namespace MeshDiffusion

/-- The choice of the inner solver. -/
inductive InnerMethod where
  | default
  | smoother
  | hypre
deriving DecidableEq, Inhabited

namespace InnerMethod

/-- The name of a choice. -/
def label : InnerMethod → String
  | default => "default"
  | smoother => "smoother"
  | hypre => "hypre"

/-- The name of a choice in the description of a value. -/
def constructorLabel : InnerMethod → String
  | default => "Default"
  | smoother => "Smoother"
  | hypre => "Hypre"

/-- The choice of a name, white space around it ignored. -/
def ofName (name : String) : InnerMethod :=
  let name := String.ofList (Text.trim name.toList)
  if name = "smoother" then smoother else if name = "hypre" then hypre else default

end InnerMethod

/-- The caps, the verbosity and the inner solver of one solve. -/
structure SolveOptions where
  verbose : Int := 0
  innerVerbose : Int := 0
  /-- The largest number of outer cycles. -/
  maxCycles : Nat := 100
  /-- The largest number of full cycles before the outer ones. -/
  maxFullCycles : Nat := 0
  /-- The largest number of iterations of each inner solve. -/
  maxInner : Nat := 100
  innerMethod : InnerMethod := .default
  /-- Refill the ghosts of the solution from the boundary values at the end. -/
  finalFill : Bool := false
deriving DecidableEq, Inhabited

/-- The outcome of a solve that converged. -/
structure SolveSummary (K : Type) where
  /-- Outer cycles, summed over the levels. -/
  cycles : Nat
  startResidual : K
  endResidual : K
  levels : Nat

/-- A number that an inner solve divides by or multiplies with. -/
inductive InnerProduct where
  | rho
  | shadowV
  | tS
  | tT
deriving DecidableEq

namespace InnerProduct

/-- The name of an inner product. -/
def label : InnerProduct → String
  | rho => "rho"
  | shadowV => "r_hat . v"
  | tS => "t . s"
  | tT => "t . t"

end InnerProduct

/-- Why an iteration cannot go on. -/
inductive Breakdown where
  /-- The residual before a cycle is not finite. -/
  | residualNotFinite (cycle : Nat)
  | notFinite (product : InnerProduct) (iteration : Nat)
  | vanished (product : InnerProduct) (iteration : Nat)
  | other (reason : String)
deriving DecidableEq

namespace Breakdown

/-- The text of a reason. -/
def message : Breakdown → String
  | residualNotFinite cycle => s!"non-finite residual in cycle {cycle}"
  | notFinite product it => s!"{product.label} is not finite at iteration {it}"
  | vanished product it => s!"{product.label} vanished at iteration {it}"
  | other reason => reason

end Breakdown

/-- Why a solve failed. -/
inductive SolveFailure (K : Type) where
  | notConverged (cycles : Nat) (residual target : K)
  | breakdown (level : Nat) (reason : Breakdown)
  | fewerLevels (expected got : Nat)

namespace SolveFailure

variable {K : Type} [Text.DecimalText K]

/-- The text of a failure. -/
def message : SolveFailure K → String
  | notConverged cycles residual target =>
    s!"failed to converge after {cycles} iterations: residual " ++
      Text.DecimalText.scientific residual ++ " > " ++ Text.DecimalText.scientific target
  | breakdown level reason => s!"solver breakdown on level {level}: {reason.message}"
  | fewerLevels expected got => s!"expected {expected} levels, got {got}"

end SolveFailure

end MeshDiffusion
