import MeshDiffusion.Mesh.Geometry

/-!
Obstacles embedded in the mesh.

An `Obstacle` classifies every cell of a level as covered by the body, as regular, or as cut by its
surface, and gives the direction out of the fluid at a cut cell. It also classifies a whole box of
cells; `CellKind.ofBox` does so cell by cell and stops at the first cell that settles the answer.

* `Obstacle.absent`: every cell is regular;
* `Cylinder`, a solid cylinder along the third axis. A cell is covered when its four corners lie
  inside the circle and cut when some do; with no corner inside, the point of the cell nearest to
  the axis decides between cut and regular, so that a circle that enters through one face, or
  lies inside one cell, is seen.
-/

namespace MeshDiffusion

/-! ### Kinds of cells -/

/-- How a cell, or a box of cells, lies to an obstacle. -/
inductive CellKind where
  | covered
  | regular
  | cut
deriving DecidableEq, Inhabited

namespace CellKind

/-- The name of a kind. -/
def label : CellKind → String
  | covered => "covered"
  | regular => "regular"
  | cut => "cut"

/-- The common kind of a list of cells, `cut` for a mixture, given what was seen before them. -/
def ofCells (kind : Point → CellKind) : (seenCovered seenRegular : Bool) → List Point → CellKind
  | seenCovered, _, [] => if seenCovered then covered else regular
  | seenCovered, seenRegular, p :: ps =>
    match kind p with
    | cut => cut
    | covered => if seenRegular then cut else ofCells kind true seenRegular ps
    | regular => if seenCovered then cut else ofCells kind seenCovered true ps

/-- The common kind of the cells of a box, `cut` for a mixture. -/
def ofBox (kind : Point → CellKind) (region : Box) : CellKind :=
  ofCells kind false false region.points

end CellKind

/-! ### Obstacles -/

/-- The classification of the cells and boxes of a level, and the unit vector out of the fluid at
each cut cell, which is zero at all others. -/
structure Obstacle (K : Type) where
  kind : Point → CellKind
  normal : Point → Triple K
  boxKind : Box → CellKind

namespace Obstacle

variable {K : Type} [Scalar K]

/-- No obstacle. -/
def absent : Obstacle K := ⟨fun _ => .regular, fun _ => .const 0.0, fun _ => .regular⟩

instance : Inhabited (Obstacle K) := ⟨absent⟩

end Obstacle

/-! ### Cylinders -/

/-- A solid cylinder along the third axis, in the mesh of a level. -/
structure Cylinder (K : Type) where
  geometry : Geometry K
  centerX : K
  centerY : K
  radius : K

namespace Cylinder

variable {K : Type} [Scalar K]

/-- The point of the plane lies inside the circle. -/
def inside (c : Cylinder K) (x y : K) : Bool :=
  let dx := x - c.centerX
  let dy := y - c.centerY
  dx * dx + dy * dy < c.radius * c.radius

/-- The four corners of a cell in the plane. -/
def corners (c : Cylinder K) (p : Point) : List (K × K) :=
  let low := c.geometry.lowOf p
  let h := c.geometry.widths
  [0.0, h.y].flatMap fun oy => [0.0, h.x].map fun ox => (low.x + ox, low.y + oy)

/-- The point of a cell nearest to the axis. -/
def nearest (c : Cylinder K) (p : Point) : K × K :=
  let low := c.geometry.lowOf p
  let h := c.geometry.widths
  (Scalar.clamp c.centerX low.x (low.x + h.x), Scalar.clamp c.centerY low.y (low.y + h.y))

/-- The kind of a cell. -/
def kind (c : Cylinder K) (p : Point) : CellKind :=
  match (c.corners p).countP fun q => c.inside q.1 q.2 with
  | 0 => if c.inside (c.nearest p).1 (c.nearest p).2 then .cut else .regular
  | 4 => .covered
  | _ => .cut

/-- The unit vector from the centre of a cut cell towards the axis, and zero for all other cells. -/
def normal [Trig K] (c : Cylinder K) (p : Point) : Triple K :=
  if c.kind p = .cut then
    let center := c.geometry.centerOf p
    let dx := center.x - c.centerX
    let dy := center.y - c.centerY
    let r := Trig.hypot dx dy
    if r == 0.0 then .const 0.0 else ⟨-dx / r, -dy / r, 0.0⟩
  else .const 0.0

/-- The cylinder as an obstacle. -/
def obstacle [Trig K] (c : Cylinder K) : Obstacle K :=
  ⟨c.kind, c.normal, CellKind.ofBox c.kind⟩

end Cylinder

end MeshDiffusion
