import MeshDiffusion.Field.Basic
import MeshDiffusion.Mesh.Hierarchy
import MeshDiffusion.Mesh.Obstacle

/-!
Fields on the levels of a hierarchy.

* `Hierarchy.zeroField` and `Hierarchy.zeroFaceFields` are fields of zeros on the cells and on the
  faces of a level;
* `Hierarchy.constantLevels` and `Hierarchy.levelsOfFn` give a field for each level with boxes;
* `Hierarchy.overCells` is a single level over a block of cells at the origin, and
  `Hierarchy.withoutObstacles` an absent obstacle for every level.
-/

namespace MeshDiffusion

namespace Hierarchy

variable {K : Type} [Scalar K]

/-- A field of zeros on the cells of a level. -/
def zeroField (h : Hierarchy K) (level ncomp ghosts : Nat) : MeshField K :=
  .const (h.layout level) (h.owners level) ncomp ghosts 0.0

/-- Fields of zeros, with one component, on the faces of a level normal to each axis. -/
def zeroFaceFields (h : Hierarchy K) (level ghosts : Nat) : Triple (MeshField K) :=
  .ofFn fun a => .const ((h.layout level).faces a) (h.owners level) 1 ghosts 0.0

/-- A field with one value everywhere, for each level with boxes. -/
def constantLevels (h : Hierarchy K) (ncomp ghosts : Nat) (v : K) : Levels (MeshField K) :=
  .ofFn h.active fun l => .const (h.layout l) (h.owners l) ncomp ghosts v

/-- A field for each level with boxes from a function of the level, the cell and the component. -/
@[specialize] def levelsOfFn (h : Hierarchy K) (ncomp ghosts : Nat) (v : Nat → Point → Nat → K) :
    Levels (MeshField K) :=
  .ofFn h.active fun l => .ofFn (h.layout l) (h.owners l) ncomp ghosts fun _ p n => v l p n

/-- An absent obstacle for every level. -/
def withoutObstacles (h : Hierarchy K) : Levels (Obstacle K) :=
  .ofFn (h.topLevel + 1) fun _ => .absent

/-- A single level over cells from zero on, laid over an extent from zero on. -/
def overCells (cells : Point) (high : Triple K) (periodic : Triple Bool) (maxBoxLength : Nat) :
    Except MeshFault (Hierarchy K) := do
  let g ← Geometry.make ⟨Point.zero, cells.map (· - 1), .cell⟩ (.const 0.0) high periodic
  Hierarchy.uniform g maxBoxLength

end Hierarchy

end MeshDiffusion
