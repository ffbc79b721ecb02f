import MeshDiffusion.Index.Box

/-!
Periodic images.

`Periods` gives the period of each periodic axis, in points. A point of the index space stands for
all its images, the points moved by a whole period along some of the periodic axes, and
`Periods.shifts` lists the moves to the nearest images, the zero move first.
-/

namespace MeshDiffusion

/-- The period of each axis, in points; an axis without one is not periodic. -/
structure Periods where
  period? : Triple (Option Int)
deriving DecidableEq

namespace Periods

/-- No axis is periodic. -/
def none : Periods := ⟨.const .none⟩

/-- The periods of a domain whose periodic axes wrap around. -/
def ofDomain (domain : Box) (periodic : Triple Bool) : Periods :=
  ⟨.ofFn fun a => if periodic.get a then some (domain.length a : Int) else .none⟩

/-- The axis is periodic. -/
def wraps (p : Periods) (a : Axis) : Bool := (p.period?.get a).isSome

/-- Some axis is periodic. -/
def wrapsSomewhere (p : Periods) : Bool := Axis.all.any p.wraps

/-- Adds to a list of moves those with one period down and one period up along an axis. -/
def wrap (p : Periods) (moves : List Point) (a : Axis) : List Point :=
  match p.period?.get a with
  | .none => moves
  | some n => moves ++ moves.flatMap fun s => [s.set a (-n), s.set a n]

/-- The moves to the nearest images of a point, the zero move first. -/
def shifts (p : Periods) : List Point := Axis.all.foldl p.wrap [Point.zero]

end Periods

end MeshDiffusion
