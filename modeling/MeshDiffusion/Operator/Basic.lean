import MeshDiffusion.Field.Basic
import MeshDiffusion.Mesh.Hierarchy
import MeshDiffusion.Mesh.Obstacle
import MeshDiffusion.Operator.Boundary

/-!
Viscous operators.

A viscous operator on the levels of a hierarchy is

  `L phi = alpha * a * phi - beta * div (b * grad phi)`

with `a` on cells and `b` on the faces normal to each axis. `DiffusionOperator O K` is what the
diffusion equation and a solver ask of a type `O` of operators: the first part binds an operator to
a hierarchy and stores its coefficients, level by level; the second part fills ghosts, applies the
operator and gives its diagonal.
-/

namespace MeshDiffusion

/-- What is fixed when an operator is bound to a hierarchy. -/
structure OperatorOptions where
  /-- How often a level may be coarsened inside the operator. -/
  maxCoarsening : Nat := 30
deriving DecidableEq

/-- A type of viscous operators. -/
class DiffusionOperator (O : Type) (K : outParam Type) where
  /-- Binds the operator to the levels of a hierarchy that have boxes. -/
  bind : O → Hierarchy K → Levels (Obstacle K) → OperatorOptions → O
  /-- The largest order of the derivative at a wall. -/
  setWallOrder : O → Nat → O
  setBoundary : O → DomainBoundary → O
  /-- The scalars `alpha` and `beta`. -/
  setAlphaBeta : O → K → K → O
  /-- The coefficient `a` of a level. -/
  setMass : O → Nat → MeshField K → O
  /-- The coefficient `b` of a level, on the faces normal to each axis. -/
  setFaceViscosity : O → Nat → Triple (MeshField K) → O
  /-- The viscosity at the surface of an obstacle. -/
  setObstacleViscosity : O → Nat → MeshField K → O
  /-- The field whose ghosts hold the values prescribed at walls and around the boxes of a level. -/
  setBoundaryValues : O → Nat → MeshField K → O
  /-- The number of levels that the operator is bound to. -/
  levelCount : O → Nat
  /-- Fills the ghosts of a field: from boxes and periodic images, and elsewhere from the boundary
  values, or with zeros when the boundary is homogeneous. -/
  fillHalo : O → Nat → MeshField K → (homogeneous : Bool) → MeshField K
  /-- Fills the ghosts of a field and writes its image into a second field; gives both. -/
  apply : O → Nat → MeshField K → MeshField K → (homogeneous : Bool) → MeshField K × MeshField K
  /-- Writes the diagonal of the homogeneous operator into a field. -/
  diagonal : O → Nat → MeshField K → MeshField K

end MeshDiffusion
