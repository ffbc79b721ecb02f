import MeshDiffusion.Index.Axis
import MeshDiffusion.Text.Decimal

/-!
Notices.

A computation that has something to tell on its way returns its notices in order. A `Notice` is what
happened; `Notice.severity` and `Notice.text` say how it is told. `Noted` pairs a result with the
notices that came with it.
-/

namespace MeshDiffusion

/-- How urgent a notice is. -/
inductive Severity where
  | error
  | warning
  | info
  | debug
  | trace
deriving DecidableEq

namespace Severity

/-- The name of a severity. -/
def label : Severity → String
  | error => "ERROR"
  | warning => "WARN"
  | info => "INFO"
  | debug => "DEBUG"
  | trace => "TRACE"

end Severity

/-- Something that happened on the way. -/
inductive Notice (K : Type) where
  | constructing
  | invalidTag (face : Face) (tag : Int)
  | diffusing
  | diffused (cycles : Nat) (residual : K)
  | meshChangeRefused (levels obstacles : Nat)
  | methodMissing
  | solveStarts (residual target : K) (levels : Nat)
  | cycle (level cycle : Nat) (residual : K)
  | sweep (level iteration : Nat) (residual : K)
  | halfStep (level iteration : Nat) (residual : K)
  | fullStep (level iteration : Nat) (residual : K)
  | solveEnds (cycles : Nat) (residual : K)

namespace Notice

variable {K : Type}

/-- The severity of a notice. -/
def severity : Notice K → Severity
  | invalidTag .. | meshChangeRefused .. => .error
  | methodMissing => .warning
  | constructing | diffusing | diffused .. => .info
  | solveStarts .. | cycle .. | solveEnds .. => .debug
  | sweep .. | halfStep .. | fullStep .. => .trace

/-- The text of a notice. -/
def text [Text.DecimalText K] : Notice K → String
  | constructing => "constructing diffusion equation"
  | invalidTag face tag => s!"wrong bc type {tag} on domain face {face.label}"
  | diffusing => "diffusing velocity components all together"
  | diffused cycles residual =>
    s!"diffusion done: {cycles} iterations, residual " ++ Text.DecimalText.scientific residual
  | meshChangeRefused levels obstacles =>
    s!"update_internals called for a hierarchy with {levels} level(s) and {obstacles} " ++
      "factories; changing meshes are not supported"
  | methodMissing => "hypre bottom solver is not available; using BiCGStab"
  | solveStarts residual target levels =>
    "solve: initial residual " ++ Text.DecimalText.scientific residual ++ ", target " ++
      Text.DecimalText.scientific target ++ s!", {levels} level(s)"
  | cycle level n residual =>
    s!"level {level} cycle {n}: residual " ++ Text.DecimalText.scientific residual
  | sweep level it residual =>
    s!"level {level} jacobi {it}: residual " ++ Text.DecimalText.scientific residual
  | halfStep level it residual =>
    s!"level {level} bicgstab {it}: half-step residual " ++ Text.DecimalText.scientific residual
  | fullStep level it residual =>
    s!"level {level} bicgstab {it}: residual " ++ Text.DecimalText.scientific residual
  | solveEnds cycles residual =>
    s!"solve: converged in {cycles} cycle(s), residual " ++ Text.DecimalText.scientific residual

/-- A notice as a line of a log: its severity, then its text. -/
def line [Text.DecimalText K] (n : Notice K) : String := n.severity.label ++ " " ++ n.text

end Notice

/-- A result and the notices on the way to it. -/
structure Noted (K α : Type) where
  notices : List (Notice K)
  value : α

namespace Noted

variable {K α β : Type}

/-- A result without notices. -/
def quiet (v : α) : Noted K α := ⟨[], v⟩

/-- Puts notices before those of a result. -/
def after (ns : List (Notice K)) (r : Noted K α) : Noted K α := ⟨ns ++ r.notices, r.value⟩

/-- Changes the result. -/
def map (f : α → β) (r : Noted K α) : Noted K β := ⟨r.notices, f r.value⟩

end Noted

end MeshDiffusion
