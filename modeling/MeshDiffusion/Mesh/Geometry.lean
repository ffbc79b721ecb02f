import MeshDiffusion.Arith.Scalar
import MeshDiffusion.Index.Periods

/-!
The physical geometry of a level.

A `Geometry` lays the cells of a box evenly over a physical extent and says which axes wrap around.

* `Geometry.make` accepts a domain with cells and an extent of positive length along every axis,
  and otherwise names the fault (`MeshFault`);
* `Geometry.widths`, `Geometry.lowOf` and `Geometry.centerOf` locate the cells;
* `Geometry.refine` keeps the extent and splits every cell.
-/

namespace MeshDiffusion

/-- Why a geometry or a hierarchy cannot be built, or a level not be found. -/
inductive MeshFault where
  | emptyDomain
  | extentNotIncreasing (axis : Axis)
  | zeroBoxLength
  | regionNotNested (level : Nat) (region : Box)
  | tooFewLevels (topLevel finest : Nat)
  | noSuchLevel (level topLevel : Nat)
deriving DecidableEq

namespace MeshFault

/-- The text of a fault. -/
def message : MeshFault → String
  | emptyDomain => "domain must have at least one cell"
  | extentNotIncreasing axis => "prob_hi must exceed prob_lo along " ++ axis.label
  | zeroBoxLength => "max_grid_size must be at least 1"
  | regionNotNested level region =>
    s!"level {level} region {region.label} is not covered by level {level - 1}"
  | tooFewLevels topLevel finest => s!"max_level {topLevel} is below finest level {finest}"
  | noSuchLevel level topLevel => s!"level {level} out of range 0..={topLevel}"

end MeshFault

/-- The cells of a domain laid over a physical extent. -/
structure Geometry (K : Type) where
  domain : Box
  low : Triple K
  high : Triple K
  periodic : Triple Bool
deriving Inhabited

namespace Geometry

variable {K : Type} [Scalar K]

/-- A geometry for a domain with cells and an increasing extent. -/
def make (domain : Box) (low high : Triple K) (periodic : Triple Bool) :
    Except MeshFault (Geometry K) :=
  if domain.isEmpty then .error .emptyDomain
  else match Axis.all.find? fun a => !decide (low.get a < high.get a) with
    | some a => .error (.extentNotIncreasing a)
    | none => .ok ⟨domain, low, high, periodic⟩

/-- The width of a cell along an axis. -/
def width (g : Geometry K) (a : Axis) : K :=
  (g.high.get a - g.low.get a) / Scalar.ofInt (g.domain.length a)

/-- The widths of a cell. -/
def widths (g : Geometry K) : Triple K := .ofFn g.width

/-- The physical position of the low corner of a cell. -/
def lowOf (g : Geometry K) (p : Point) : Triple K :=
  .ofFn fun a => g.low.get a + Scalar.ofInt (p.get a - g.domain.lo.get a) * g.width a

/-- The physical position of the centre of a cell. -/
def centerOf (g : Geometry K) (p : Point) : Triple K :=
  let low := g.lowOf p
  .ofFn fun a => low.get a + 0.5 * g.width a

/-- The periods of the domain. -/
def periods (g : Geometry K) : Periods := .ofDomain g.domain g.periodic

/-- The same extent with every cell split into `r` cells along each axis. -/
def refine (g : Geometry K) (r : Int) : Geometry K := { g with domain := g.domain.refine r }

end Geometry

end MeshDiffusion
