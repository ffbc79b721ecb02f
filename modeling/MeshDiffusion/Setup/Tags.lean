import MeshDiffusion.Mesh.Geometry
import MeshDiffusion.Operator.Boundary

/-!
Tags on the faces of a domain.

Each face of the domain carries a two-dimensional array of tags, which spans the face and a margin
of ghost cells on every side.

* `WallCondition` is what a tag stands for, if it stands for anything; some conditions bound
  a diffusion solve by a `BoundaryKind`;
* `TagGrid` is the array of one face, the first tangential axis fastest;
* `resolve` samples every face of an axis that does not wrap around at the first cell of the
  domain and gives the kinds of boundary, or the fault of the first face that has one
  (`TagFault`).
-/

namespace MeshDiffusion

/-! ### Conditions -/

/-- A physical condition on a face of the domain. -/
inductive WallCondition where
  | unassigned
  | pressureInflow
  | pressureOutflow
  | massInflow
  | noSlipWall
deriving DecidableEq

namespace WallCondition

/-- All conditions. -/
def all : List WallCondition :=
  [unassigned, pressureInflow, pressureOutflow, massInflow, noSlipWall]

/-- The tag of a condition. -/
def tag : WallCondition → Int
  | unassigned => 1
  | pressureInflow => 10
  | pressureOutflow => 11
  | massInflow => 20
  | noSlipWall => 100

/-- The condition of a tag. -/
def ofTag? (tag : Int) : Option WallCondition := all.find? fun c => c.tag == tag

/-- The name of a condition. -/
def label : WallCondition → String
  | unassigned => "undefined"
  | pressureInflow => "pressure inflow"
  | pressureOutflow => "pressure outflow"
  | massInflow => "mass inflow"
  | noSlipWall => "no-slip wall"

/-- The kind of boundary that a condition is for the velocity, if it bounds a solve. -/
def kind? : WallCondition → Option BoundaryKind
  | pressureInflow | pressureOutflow => some .neumann
  | massInflow | noSlipWall => some .dirichlet
  | unassigned => none

end WallCondition

/-! ### Tags -/

/-- The tags of one face, the first tangential axis fastest. -/
structure TagGrid where
  first : Nat
  second : Nat
  tags : Array Int
  size_tags : tags.size = first * second
deriving DecidableEq

namespace TagGrid

/-- An array of tags with given extents, if it has as many entries. -/
def make? (first second : Nat) (tags : Array Int) : Option TagGrid :=
  if h : tags.size = first * second then some ⟨first, second, tags, h⟩ else none

/-- One tag everywhere on a face of a domain and a margin around it. -/
def uniform (domain : Box) (axis : Axis) (ghosts : Nat) (tag : Int) : TagGrid :=
  let first := domain.length axis.tangents.1 + 2 * ghosts
  let second := domain.length axis.tangents.2 + 2 * ghosts
  ⟨first, second, .replicate (first * second) tag, by simp⟩

instance : Inhabited TagGrid := ⟨⟨0, 0, #[], rfl⟩⟩

/-- The tag at a place. -/
def get? (t : TagGrid) (a b : Nat) : Option Int :=
  if a < t.first ∧ b < t.second then t.tags[b * t.first + a]? else none

/-- Replaces the tag at a place; a place outside is left out. -/
def set (t : TagGrid) (a b : Nat) (tag : Int) : TagGrid :=
  if a < t.first ∧ b < t.second then
    { t with
      tags := t.tags.setIfInBounds (b * t.first + a) tag
      size_tags := by simp [t.size_tags] }
  else t

end TagGrid

/-- The tags of the six faces of a domain. -/
abbrev DomainTags := Faces TagGrid

namespace DomainTags

/-- One tag for each face, the same at all of its places. -/
def uniform (domain : Box) (ghosts : Nat) (tags : Faces Int) : DomainTags :=
  .ofFn fun f => .uniform domain f.axis ghosts (tags.get f)

/-- One condition for each face. -/
def ofConditions (domain : Box) (ghosts : Nat) (c : Faces WallCondition) : DomainTags :=
  uniform domain ghosts (.ofFn fun f => (c.get f).tag)

end DomainTags

/-! ### Resolution -/

/-- Why tags cannot be resolved. -/
inductive TagFault where
  | invalidTag (face : Face) (tag : Int)
  | noTag (face : Face)
deriving DecidableEq

/-- The text of a fault. -/
def TagFault.message : TagFault → String
  | invalidTag face tag => s!"wrong bc type {tag} on domain face {face.label}"
  | noTag face => s!"no boundary tag data for domain face {face.label}"

namespace DomainTags

/-- The kind of boundary on a face: it wraps around with its axis, and otherwise the tag sampled at
the first cell of the domain decides. -/
def kind (periodic : Triple Bool) (tags : DomainTags) (ghosts : Nat) (f : Face) :
    Except TagFault BoundaryKind :=
  if periodic.get f.axis then .ok .periodic
  else match (tags.get f).get? ghosts ghosts with
    | none => .error (.noTag f)
    | some tag =>
      match (WallCondition.ofTag? tag).bind WallCondition.kind? with
      | some k => .ok k
      | none => .error (.invalidTag f tag)

/-- The kinds of boundary on the faces of a list, in its order, written over those given. -/
def resolveFrom (periodic : Triple Bool) (tags : DomainTags) (ghosts : Nat) :
    List Face → DomainBoundary → Except TagFault DomainBoundary
  | [], b => .ok b
  | f :: fs, b =>
    match kind periodic tags ghosts f with
    | .ok k => resolveFrom periodic tags ghosts fs (b.set f k)
    | .error e => .error e

/-- The kinds of boundary on the six faces of a domain. -/
def resolve (periodic : Triple Bool) (tags : DomainTags) (ghosts : Nat) :
    Except TagFault DomainBoundary :=
  resolveFrom periodic tags ghosts Face.all DomainBoundary.periodic

end DomainTags

end MeshDiffusion
