import MeshDiffusion.Arith.Scalar
import MeshDiffusion.Setup.Params
import MeshDiffusion.Solver.Basic

/-!
The configuration of the diffusion solve.

`DiffusionOptions.ofParams` reads the options of the scope `diffusion` in a fixed order, leaves
those that are not given at their defaults, and then checks the ranges by
`DiffusionOptions.validate`: tolerances are finite and not negative, and the caps on cycles and
inner iterations are positive.
-/

namespace MeshDiffusion

/-- The options of the diffusion solve. -/
structure DiffusionOptions (K : Type) where
  verbose : Int
  solverVerbose : Int
  innerVerbose : Int
  maxCycles : Nat
  maxInner : Nat
  maxFullCycles : Nat
  maxCoarsening : Nat
  rtol : K
  atol : K
  innerMethod : InnerMethod

namespace DiffusionOptions

variable {K : Type} [Scalar K]

/-- The scope of the options. -/
def scope : String := "diffusion"

/-- The options that are not given. -/
def defaults : DiffusionOptions K where
  verbose := 0
  solverVerbose := 0
  innerVerbose := 0
  maxCycles := 100
  maxInner := 100
  maxFullCycles := 0
  maxCoarsening := 100
  rtol := 1e-11
  atol := 1e-14
  innerMethod := .default

instance : Inhabited (DiffusionOptions K) := ⟨defaults⟩

/-- Refuses a tolerance that is not finite or negative. -/
def checkTolerance (key : String) (tol : K) : Except (ParamFault K) Unit :=
  if !Scalar.isFinite tol || decide (tol < 0.0) then
    .error (.outOfRange (scope ++ "." ++ key) (.badTolerance tol))
  else .ok ()

/-- Refuses a cap of zero. -/
def checkCap (key : String) (cap : Nat) : Except (ParamFault K) Unit :=
  if cap = 0 then .error (.outOfRange (scope ++ "." ++ key) .zeroCap) else .ok ()

/-- Checks the ranges of all options. -/
def validate (c : DiffusionOptions K) : Except (ParamFault K) Unit := do
  checkTolerance "mg_rtol" c.rtol
  checkTolerance "mg_atol" c.atol
  checkCap "mg_max_iter" c.maxCycles
  checkCap "mg_cg_maxiter" c.maxInner

/-- An option, or its default. -/
def option {α : Type} (t : Params) (kind : ValueKind α) (key : String) (default : α) :
    Except (ParamFault K) α :=
  (t.query kind scope key).map (·.getD default)

/-- Reads the options that a table gives, without checking their ranges. -/
def read [Text.DecimalText K] (t : Params) : Except (ParamFault K) (DiffusionOptions K) := do
  let d : DiffusionOptions K := defaults
  let verbose ← option t .int32 "verbose" d.verbose
  let solverVerbose ← option t .int32 "mg_verbose" d.solverVerbose
  let innerVerbose ← option t .int32 "mg_cg_verbose" d.innerVerbose
  let maxCycles ← option t .nat64 "mg_max_iter" d.maxCycles
  let maxInner ← option t .nat64 "mg_cg_maxiter" d.maxInner
  let maxFullCycles ← option t .nat64 "mg_max_fmg_iter" d.maxFullCycles
  let maxCoarsening ← option t .nat64 "mg_max_coarsening_level" d.maxCoarsening
  let rtol ← option t .number "mg_rtol" d.rtol
  let atol ← option t .number "mg_atol" d.atol
  let innerMethod := ((t.get? scope "bottom_solver_type").map InnerMethod.ofName).getD
    d.innerMethod
  return ⟨verbose, solverVerbose, innerVerbose, maxCycles, maxInner, maxFullCycles, maxCoarsening,
    rtol, atol, innerMethod⟩

/-- Reads the options that a table gives and checks their ranges. -/
def ofParams [Text.DecimalText K] (t : Params) :
    Except (ParamFault K) (DiffusionOptions K) := do
  let c ← read t
  c.validate
  return c

/-- The settings of one solve; the ghosts of the solution are always refilled at its end. -/
def solveOptions (c : DiffusionOptions K) : SolveOptions where
  verbose := c.solverVerbose
  innerVerbose := c.innerVerbose
  maxCycles := c.maxCycles
  maxFullCycles := c.maxFullCycles
  maxInner := c.maxInner
  innerMethod := c.innerMethod
  finalFill := true

/-- The description of a configuration. -/
def describe [Text.DecimalText K] (c : DiffusionOptions K) : String :=
  "DiffusionConfig \x7b verbose: " ++ toString c.verbose ++
    ", mg_verbose: " ++ toString c.solverVerbose ++
    ", mg_cg_verbose: " ++ toString c.innerVerbose ++
    ", mg_max_iter: " ++ toString c.maxCycles ++
    ", mg_cg_maxiter: " ++ toString c.maxInner ++
    ", mg_max_fmg_iter: " ++ toString c.maxFullCycles ++
    ", mg_max_coarsening_level: " ++ toString c.maxCoarsening ++
    ", mg_rtol: " ++ Text.DecimalText.debug c.rtol ++
    ", mg_atol: " ++ Text.DecimalText.debug c.atol ++
    ", bottom_solver: " ++ c.innerMethod.constructorLabel ++ " \x7d"

end DiffusionOptions

end MeshDiffusion
