import MeshDiffusion.Index.Faces

/-!
Kinds of boundary on the faces of a domain.

A `DomainBoundary` gives each of the six faces a `BoundaryKind`: values wrap around, the value on
the face is prescribed, or nothing flows through it. `DomainBoundary.matchesPeriods` compares it
with the axes that wrap around in a geometry.
-/

namespace MeshDiffusion

/-- What holds on one face of a domain. -/
inductive BoundaryKind where
  /-- Values wrap around to the opposite face. -/
  | periodic
  /-- The value on the face is prescribed. -/
  | dirichlet
  /-- The normal derivative vanishes. -/
  | neumann
deriving DecidableEq, Inhabited

namespace BoundaryKind

/-- The name of a kind. -/
def label : BoundaryKind → String
  | periodic => "periodic"
  | dirichlet => "dirichlet"
  | neumann => "neumann"

/-- The name of a kind in the description of a value. -/
def constructorLabel : BoundaryKind → String
  | periodic => "Periodic"
  | dirichlet => "Dirichlet"
  | neumann => "Neumann"

end BoundaryKind

/-- The kinds of boundary on the six faces of a domain. -/
abbrev DomainBoundary := Faces BoundaryKind

namespace DomainBoundary

/-- Every face wraps around. -/
def periodic : DomainBoundary := .const .periodic

/-- Both faces of an axis wrap around exactly when the axis does. -/
def matchesPeriods (b : DomainBoundary) (periodic : Triple Bool) : Bool :=
  Face.all.all fun f => (b.get f == .periodic) == periodic.get f.axis

/-- The description of the kinds on all faces. -/
def describe (b : DomainBoundary) : String :=
  let side (t : Triple BoundaryKind) :=
    "[" ++ ", ".intercalate (t.toList.map BoundaryKind.constructorLabel) ++ "]"
  "DomainBc \x7b lo: " ++ side b.lo ++ ", hi: " ++ side b.hi ++ " \x7d"

end DomainBoundary

end MeshDiffusion
