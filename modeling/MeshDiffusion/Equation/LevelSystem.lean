import MeshDiffusion.Field.Arithmetic
import MeshDiffusion.Field.Exchange
import MeshDiffusion.Operator.Basic

/-!
The linear system of one level.

The density `ro` and the viscosity `eta` on cells give the coefficients of the operator, and the
velocity `vel` gives its right-hand side, the first guess and the boundary values.

* `averageToFaces` gives a face half the sum of the two cells beside it;
* `levelCoefficients` averages the viscosity, exchanges the halos of the face fields and hands
  all coefficients to the operator;
* `momentum` is the right-hand side `ro * vel`, `firstGuess` the field that a solve starts from.
-/

namespace MeshDiffusion

variable {K : Type} [Scalar K]

/-- The number of components of the velocity. -/
def velocityComponents : Nat := 3

/-- Writes half the sum of the cells on both sides into each valid face, normal to each axis. -/
@[specialize] def averageToFaces (faces : Triple (MeshField K)) (cells : MeshField K) :
    Triple (MeshField K) :=
  .ofFn fun a =>
    let f := faces.get a
    f.update fun i p n old =>
      if f.Window 0 0 1 i p n then 0.5 * (cells.get i (p.move a (-1)) 0 + cells.get i p 0) else old

/-- The operator with the coefficients of a level, and the face fields they were computed in. -/
@[specialize] def levelCoefficients {O : Type} [DiffusionOperator O K] (op : O) (level : Nat)
    (geometry : Geometry K) (faces : Triple (MeshField K)) (ro eta : MeshField K) :
    O × Triple (MeshField K) :=
  let faces := (averageToFaces faces eta).map (·.exchange geometry.periods)
  let op := DiffusionOperator.setMass op level ro
  let op := DiffusionOperator.setFaceViscosity op level faces
  (DiffusionOperator.setObstacleViscosity op level eta, faces)

/-- Writes the momentum into a field: the velocity on valid cells, multiplied by the density on all
cells of the field. -/
@[specialize] def momentum (rhs vel ro : MeshField K) : MeshField K :=
  (List.range velocityComponents).foldl (fun rhs n => rhs.mulFrom ro 0 n 1 rhs.ghosts)
    (rhs.copy vel 0 0 velocityComponents 0)

/-- Loads the velocity and one layer of its ghosts as first guess, exchanges its halo, and hands it
to the operator as boundary values. -/
@[specialize] def firstGuess {O : Type} [DiffusionOperator O K] (op : O) (level : Nat)
    (geometry : Geometry K) (phi vel : MeshField K) : O × MeshField K :=
  let phi := (phi.copy vel 0 0 velocityComponents 1).exchange geometry.periods
  (DiffusionOperator.setBoundaryValues op level phi, phi)

end MeshDiffusion
