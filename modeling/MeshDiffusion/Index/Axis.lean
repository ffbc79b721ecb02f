/-!
Axes, sides and faces of a box in three dimensions.

* `Axis` with its position `Axis.index`, inverted by `Axis.ofIndex?` (`Axis.ofIndex?_index`);
* `Side`, the low or the high end of an axis;
* `Face`, a side of an axis: the six faces of a box, listed by `Face.all` in the order
  of `Face.slot` (`Face.all_getElem?_slot`).
-/

namespace MeshDiffusion

/-! ### Axes -/

/-- A coordinate axis. -/
inductive Axis where
  | x
  | y
  | z
deriving DecidableEq

namespace Axis

/-- The three axes in order. -/
def all : List Axis := [.x, .y, .z]

/-- The position of an axis in `Axis.all`. -/
def index : Axis → Nat
  | .x => 0
  | .y => 1
  | .z => 2

/-- The axis at a position, if there is one. -/
def ofIndex? (i : Nat) : Option Axis := all[i]?

/-- The letter of an axis. -/
def label : Axis → String
  | .x => "x"
  | .y => "y"
  | .z => "z"

/-- The two axes along a face normal to this one, in order. -/
def tangents : Axis → Axis × Axis
  | .x => (.y, .z)
  | .y => (.x, .z)
  | .z => (.x, .y)

@[simp] theorem mem_all (a : Axis) : a ∈ all := by cases a <;> decide

@[simp] theorem ofIndex?_index (a : Axis) : ofIndex? a.index = some a := by cases a <;> rfl

/-- A statement about all axes is a statement about the three of them. -/
theorem forall_axis {P : Axis → Prop} : (∀ a, P a) ↔ P .x ∧ P .y ∧ P .z :=
  ⟨fun h => ⟨h _, h _, h _⟩, fun h a => by cases a <;> simp [h]⟩

end Axis

/-! ### Sides and faces -/

/-- The low or the high end of an axis. -/
inductive Side where
  | lo
  | hi
deriving DecidableEq

namespace Side

/-- Both ends, the low one first. -/
def all : List Side := [.lo, .hi]

/-- The name of an end. -/
def label : Side → String
  | .lo => "lo"
  | .hi => "hi"

/-- One step outwards along the axis. -/
def step : Side → Int
  | .lo => -1
  | .hi => 1

@[simp] theorem mem_all (s : Side) : s ∈ all := by cases s <;> decide

/-- A step goes up or down. -/
theorem step_eq (s : Side) : s.step = 1 ∨ s.step = -1 := by cases s <;> decide

end Side

/-- One of the six faces of a box: an end of an axis. -/
structure Face where
  axis : Axis
  side : Side
deriving DecidableEq

namespace Face

/-- The six faces, axis by axis, each with its low end first. -/
def all : List Face := Axis.all.flatMap fun a => Side.all.map fun s => ⟨a, s⟩

/-- The place of a face in `Face.all`. -/
def slot (f : Face) : Nat :=
  2 * f.axis.index + match f.side with
    | .lo => 0
    | .hi => 1

/-- The name of a face, such as `x-lo`. -/
def label (f : Face) : String := f.axis.label ++ "-" ++ f.side.label

@[simp] theorem mem_all (f : Face) : f ∈ all := by
  obtain ⟨a, s⟩ := f
  cases a <;> cases s <;> decide

/-- A face stands in `Face.all` at its slot. -/
@[simp] theorem all_getElem?_slot (f : Face) : all[f.slot]? = some f := by
  obtain ⟨a, s⟩ := f
  cases a <;> cases s <;> rfl

end Face

end MeshDiffusion
