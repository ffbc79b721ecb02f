import MeshDiffusion.Field.Arithmetic
import MeshDiffusion.Field.Exchange
import MeshDiffusion.Operator.Basic
import MeshDiffusion.Text.Decimal

/-!
The seven-point operator on cells.

The flux through each face of a cell is a difference of the cell and its neighbour over that face.
`FaceRule` says which difference: with the neighbour itself, none at all, or one through the value
prescribed on a wall, which is stored in the ghost behind it. Covered cells keep only the term
`alpha * a * phi`, and no flux passes between them and the fluid.

* `LevelOperator` holds the coefficients of one level; `bodyMask` finds its covered cells;
* `FiniteVolume.rule` decides the rule of a face, `FaceRule.derivative` is the outward derivative
  times the cell width, and `FaceRule.cellWeight` the weight of the cell in it;
* `FiniteVolume.image` and `FiniteVolume.diagonalAt` are the operator and its diagonal at one cell;
* the instance of `DiffusionOperator` applies them to all valid cells of a level.
-/

namespace MeshDiffusion

/-! ### One level -/

/-- The coefficients of an operator on one level. -/
structure LevelOperator (K : Type) where
  geometry : Geometry K
  mass : MeshField K
  viscosity : Triple (MeshField K)
  obstacleViscosity : MeshField K
  boundary? : Option (MeshField K)
  /-- The covered cells of every box and of the layer around it; none if all of them are regular. -/
  covered? : Option (MeshField Bool)

/-- The covered cells of every box and of the layer around it, unless an obstacle leaves all of
them regular. -/
def bodyMask {K : Type} (layout : Layout) (owners : Ownership) (o : Obstacle K) :
    Option (MeshField Bool) :=
  if layout.boxes.all fun b => o.boxKind (b.grow 1) == .regular then none
  else
    let regular := layout.boxes.map fun b => o.boxKind (b.grow 1) == .regular
    some <| .ofFn layout owners 1 1 fun i p _ =>
      !regular.getD i true && o.kind p == .covered

namespace LevelOperator

variable {K : Type} [Scalar K]

/-- The operator of a level before any coefficient is set. -/
def ofLevel (l : MeshLevel K) (obstacle? : Option (Obstacle K)) : LevelOperator K where
  geometry := l.geometry
  mass := .const l.layout l.owners 1 0 0.0
  viscosity := .ofFn fun a => .const (l.layout.faces a) l.owners 1 0 0.0
  obstacleViscosity := .const l.layout l.owners 1 0 0.0
  boundary? := none
  covered? := obstacle?.bind fun o => bodyMask l.layout l.owners o

instance : Inhabited (LevelOperator K) := ⟨ofLevel default none⟩

/-- The cell, as stored for a box, is covered. -/
@[inline] def inBody (l : LevelOperator K) (i : Nat) (p : Point) : Bool :=
  match l.covered? with
  | some m => m.get i p 0
  | none => false

/-- The coefficient `b` on a face of a cell. -/
@[inline] def faceViscosity (l : LevelOperator K) (i : Nat) (p : Point) (f : Face) : K :=
  let q := match f.side with
    | .lo => p
    | .hi => p.move f.axis 1
  (l.viscosity.get f.axis).get i q 0

/-- The square of the cell width along an axis. -/
@[inline] def widthSquared (l : LevelOperator K) (a : Axis) : K :=
  l.geometry.width a * l.geometry.width a

end LevelOperator

/-! ### Faces of a cell -/

/-- How one face of a cell enters the operator. -/
inductive FaceRule where
  /-- The difference with the neighbour or its ghost. -/
  | interior
  /-- No flux. -/
  | closed
  /-- A wall, linear through the value on the face. -/
  | linearWall
  /-- A wall, quadratic through the value on the face and two cells. -/
  | quadraticWall
deriving DecidableEq

namespace FaceRule

variable {K : Type} [Scalar K]

/-- The weight of the cell itself in the outward derivative. -/
def cellWeight : FaceRule → K
  | interior => -(1.0)
  | closed => 0.0
  | linearWall => -(2.0)
  | quadraticWall => -(3.0)

/-- The outward derivative of a function of cells through a face of a cell, times the cell width. -/
@[specialize] def derivative (r : FaceRule) (phi : Point → K) (p : Point) (f : Face) : K :=
  match r with
  | interior => phi (p.move f.axis f.side.step) - phi p
  | closed => 0.0
  | linearWall => 2.0 * (phi (p.move f.axis f.side.step) - phi p)
  | quadraticWall =>
    (8.0 * phi (p.move f.axis f.side.step) - 9.0 * phi p + phi (p.move f.axis (-f.side.step))) / 3.0

end FaceRule

/-! ### The operator -/

/-- A viscous operator that keeps its coefficients as fields. -/
structure FiniteVolume (K : Type) where
  levels : Levels (LevelOperator K)
  boundary : DomainBoundary
  alpha : K
  beta : K
  wallOrder : Nat
  options : OperatorOptions

namespace FiniteVolume

variable {K : Type} [Scalar K]

/-- An operator that is not bound to a hierarchy yet. -/
def unbound : FiniteVolume K where
  levels := .ofList []
  boundary := DomainBoundary.periodic
  alpha := 0.0
  beta := 1.0
  wallOrder := 2
  options := {}

/-- The level has a mask of covered cells. -/
def hasBody (o : FiniteVolume K) (level : Nat) : Bool :=
  ((o.levels.get? level).bind LevelOperator.covered?).isSome

/-- The rule for a face of a cell: closed towards a covered neighbour, a wall at a face of a domain
that does not wrap around, and a difference with the neighbour everywhere else. A quadratic wall
needs a domain two cells deep. -/
@[inline] def rule (o : FiniteVolume K) (l : LevelOperator K) (i : Nat) (p : Point) (f : Face) :
    FaceRule :=
  let domain := l.geometry.domain
  let edge := match f.side with
    | .lo => domain.lo.get f.axis
    | .hi => domain.hi.get f.axis
  if l.inBody i (p.move f.axis f.side.step) then .closed
  else if l.geometry.periodic.get f.axis || p.get f.axis != edge then .interior
  else match o.boundary.get f with
    | .periodic => .interior
    | .neumann => .closed
    | .dirichlet =>
      if 3 ≤ o.wallOrder ∧ 2 ≤ domain.length f.axis then .quadraticWall else .linearWall

/-- The flux into a cell through a face, added to the flux through others. -/
@[specialize] def addFlux (o : FiniteVolume K) (l : LevelOperator K) (i : Nat) (phi : Point → K)
    (p : Point) (sum : K) (f : Face) : K :=
  match o.rule l i p f with
  | .closed => sum
  | r => sum + l.faceViscosity i p f * r.derivative phi p f / l.widthSquared f.axis

/-- The image of a function of cells at one cell. -/
@[specialize] def image (o : FiniteVolume K) (l : LevelOperator K) (i : Nat) (phi : Point → K)
    (p : Point) : K :=
  let flux :=
    if l.inBody i p then 0.0 else Face.all.foldl (o.addFlux l i phi p) 0.0
  o.alpha * l.mass.get i p 0 * phi p - o.beta * flux

/-- Takes the weight of a cell in the flux through a face from a sum. -/
@[specialize] def subWeight (o : FiniteVolume K) (l : LevelOperator K) (i : Nat) (p : Point)
    (sum : K) (f : Face) : K :=
  sum - o.beta * l.faceViscosity i p f * (o.rule l i p f).cellWeight / l.widthSquared f.axis

/-- The diagonal of the operator at one cell. -/
@[specialize] def diagonalAt (o : FiniteVolume K) (l : LevelOperator K) (i : Nat) (p : Point) : K :=
  let mass := o.alpha * l.mass.get i p 0
  if l.inBody i p then mass else Face.all.foldl (o.subWeight l i p) mass

/-- The value for a ghost that no box and no periodic image provides. -/
@[specialize] def boundaryValue (bc? : Option (MeshField K)) (i : Nat) (p : Point) (n : Nat) : K :=
  match bc? with
  | some bc => if bc.Stores i p n then bc.get i p n else 0.0
  | none => 0.0

/-- Fills the ghosts of a field on a level. -/
@[specialize] def filled (l : LevelOperator K) (phi : MeshField K) (homogeneous : Bool) :
    MeshField K :=
  let halo := phi.halo l.geometry.periods
  let bc? := if homogeneous then none else l.boundary?
  (phi.exchangeBy halo).update fun i p n old =>
    if p ∈ phi.layout.box i ∨ (halo.source? i p).isSome then old else boundaryValue bc? i p n

/-- Writes the image of a field whose ghosts are filled into another field. -/
@[specialize] def applyFilled (o : FiniteVolume K) (l : LevelOperator K) (phi out : MeshField K) :
    MeshField K :=
  out.update fun i p n old =>
    if out.Window 0 0 (min out.ncomp phi.ncomp) i p n then
      o.image l i (fun q => phi.get i q n) p
    else old

/-- Writes the diagonal into component zero of a field. -/
@[specialize] def writeDiagonal (o : FiniteVolume K) (l : LevelOperator K) (out : MeshField K) :
    MeshField K :=
  out.update fun i p n old => if out.Window 0 0 1 i p n then o.diagonalAt l i p else old

/-- Changes the coefficients of a level. -/
def onLevel (o : FiniteVolume K) (level : Nat) (f : LevelOperator K → LevelOperator K) :
    FiniteVolume K :=
  { o with levels := o.levels.modify level f }

instance : DiffusionOperator (FiniteVolume K) K where
  bind o h obstacles options :=
    { o with
      options := options
      levels := .ofFn h.active fun l => .ofLevel (h.level l) (obstacles.get? l) }
  setWallOrder o n := { o with wallOrder := n }
  setBoundary o b := { o with boundary := b }
  setAlphaBeta o alpha beta := { o with alpha := alpha, beta := beta }
  setMass o level a := o.onLevel level fun l => { l with mass := l.mass.copy a 0 0 1 0 }
  setFaceViscosity o level b := o.onLevel level fun l =>
    { l with viscosity := .ofFn fun a => (l.viscosity.get a).copy (b.get a) 0 0 1 0 }
  setObstacleViscosity o level eta := o.onLevel level fun l =>
    { l with obstacleViscosity := l.obstacleViscosity.copy eta 0 0 1 0 }
  setBoundaryValues o level bc := o.onLevel level fun l => { l with boundary? := some bc }
  levelCount o := o.levels.count
  fillHalo o level phi homogeneous := filled (o.levels.get level) phi homogeneous
  apply o level phi out homogeneous :=
    let l := o.levels.get level
    let phi := filled l phi homogeneous
    (phi, o.applyFilled l phi out)
  diagonal o level out := o.writeDiagonal (o.levels.get level) out

/-- The description of an operator: its size, its boundary, its scalars and its order. -/
def describe [Text.DecimalText K] (o : FiniteVolume K) : String :=
  "ReferenceOperator \x7b num_levels: " ++ toString o.levels.count ++
    ", bc: " ++ DomainBoundary.describe o.boundary ++
    ", alpha: " ++ Text.DecimalText.debug o.alpha ++
    ", beta: " ++ Text.DecimalText.debug o.beta ++
    ", max_order: " ++ toString o.wallOrder ++ " \x7d"

end FiniteVolume

end MeshDiffusion
