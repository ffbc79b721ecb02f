import MeshDiffusion.Field.Basic
import MeshDiffusion.Index.Periods

/-!
Exchange of halos.

A ghost point takes the value that another box, or a periodic image of a box, holds for it as a
valid point. `Halo` lists for each box the images that reach into its region, moves first and boxes
second, and `Halo.source?` finds the one a point is copied from: of several images the last.

* `Halo.ofLayout` leaves out the box itself, unmoved; its periodic images stay;
* `MeshField.exchangeBy` writes all ghost points that have a source and leaves every other
  value as it is; sources are valid points, which are never written, so the order of the boxes
  is of no effect;
* `MeshField.exchange` makes the halo of the field's own layout.
-/

namespace MeshDiffusion

/-! ### Sources of ghost points -/

/-- A box of a layout moved to a periodic image. -/
structure Image where
  move : Point
  place : Nat
  box : Box
deriving DecidableEq

/-- For each box of a layout, the images that reach into its region. -/
abbrev Halo := Array (List Image)

namespace Halo

/-- All images of the boxes of a layout, moves first and boxes second. -/
def images (layout : Layout) (periods : Periods) : List Image :=
  periods.shifts.flatMap fun s =>
    layout.toList.mapIdx fun j b => ⟨s, j, b.shift s⟩

/-- The images that reach into the region of box `i`, the box itself left out. -/
def reaching (all : List Image) (region : Box) (i : Nat) : List Image :=
  all.filter fun im =>
    !(im.place == i && im.move == Point.zero) && !(region.meet im.box).isEmpty

/-- The halo of a layout whose boxes are grown by a number of ghost layers. -/
def ofLayout (layout : Layout) (periods : Periods) (ghosts : Nat) : Halo :=
  let all := images layout periods
  layout.boxes.mapIdx fun i b => reaching all (b.grow ghosts) i

/-- The box and the valid point that a point of box `i` is copied from. -/
def source? (h : Halo) (i : Nat) (p : Point) : Option (Nat × Point) :=
  ((h.getD i []).findRev? fun im => decide (p ∈ im.box)).map fun im => (im.place, p - im.move)

end Halo

/-! ### Exchange -/

namespace MeshField

variable {K : Type} [Inhabited K]

/-- The halo of a field's own layout. -/
def halo (f : MeshField K) (periods : Periods) : Halo :=
  .ofLayout f.layout periods f.ghosts

/-- Writes every ghost point that has a source in the halo. -/
@[specialize] def exchangeBy (f : MeshField K) (h : Halo) : MeshField K :=
  f.update fun i p n old =>
    if p ∈ f.layout.box i then old
    else match h.source? i p with
      | some (j, q) => f.get j q n
      | none => old

/-- Writes every ghost point that another box or a periodic image holds as a valid point. -/
@[specialize] def exchange (f : MeshField K) (periods : Periods) : MeshField K :=
  f.exchangeBy (f.halo periods)

@[simp] theorem shape_exchangeBy (f : MeshField K) (h : Halo) :
    (f.exchangeBy h).shape = f.shape := rfl

@[simp] theorem shape_exchange (f : MeshField K) (periods : Periods) :
    (f.exchange periods).shape = f.shape := rfl

end MeshField

end MeshDiffusion
