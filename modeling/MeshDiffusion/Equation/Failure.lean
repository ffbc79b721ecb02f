import MeshDiffusion.Setup.Tags
import MeshDiffusion.Setup.Params
import MeshDiffusion.Solver.Basic

/-!
Failures of the diffusion equation.

A `DiffusionFailure` wraps the failure of one part, or says how the mesh does not fit the input.
`DiffusionFailure.message` is its text and `DiffusionFailure.cause?` the text of what it wraps.
-/

namespace MeshDiffusion

/-- How a mesh does not fit the input. -/
inductive Misfit where
  | tooFewObstacles (got levels : Nat)
  | noGhosts
  | other (reason : String)
deriving DecidableEq

/-- The text of a misfit. -/
def Misfit.message : Misfit → String
  | tooFewObstacles got levels => s!"{got} embedded-boundary factories for {levels} levels"
  | noGhosts => "ghost width must be at least 1"
  | other reason => reason

/-- Why the diffusion equation cannot be set up or solved. -/
inductive DiffusionFailure (K : Type) where
  | boundary (e : TagFault)
  | config (e : ParamFault K)
  | solve (e : SolveFailure K)
  | mesh (fault : Misfit)
  | unsupported (operation : String)

namespace DiffusionFailure

variable {K : Type} [Text.DecimalText K]

/-- The text of the failure that an error wraps. -/
def cause? : DiffusionFailure K → Option String
  | boundary e => some e.message
  | config e => some e.message
  | solve e => some e.message
  | mesh _ | unsupported _ => none

/-- The text of a failure. -/
def message : DiffusionFailure K → String
  | boundary e => "boundary conditions: " ++ e.message
  | config e => "configuration: " ++ e.message
  | solve e => "diffusion solve: " ++ e.message
  | mesh fault => "mesh: " ++ fault.message
  | unsupported operation => operation ++ ": not yet implemented"

end DiffusionFailure

end MeshDiffusion
