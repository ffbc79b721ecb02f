import MeshDiffusion.Index.Box

/-!
Lists of boxes and their owners.

A `Layout` is the list of boxes that a level is stored in.

* `Layout.cut` cuts a box into pieces no longer than a given length: along each axis
  `Box.cuts` lists the intervals, whose lengths differ by at most one, longer ones first;
* `Layout.contains`, `Layout.size` and `Layout.bounds?` are views of the boxes as one set of points;
* `Ownership` names the rank that owns each box.
-/

namespace MeshDiffusion

/-! ### Cutting a box -/

namespace Box

/-- The number of pieces that an axis is cut into: enough for pieces no longer than `maxLength`,
at least one, and a length limit of zero counts as one. -/
def pieces (b : Box) (a : Axis) (maxLength : Nat) : Nat :=
  max 1 ((b.length a + max 1 maxLength - 1) / max 1 maxLength)

/-- The low end of piece `i` of an axis: the first `length % pieces` pieces are one longer
than the others. -/
def cutStart (b : Box) (a : Axis) (maxLength i : Nat) : Int :=
  let n := b.pieces a maxLength
  let base := b.length a / n
  let extra := b.length a % n
  b.lo.get a + (i * base + min i extra : Nat)

/-- The pieces of an axis, low and high end each, from low to high. -/
def cuts (b : Box) (a : Axis) (maxLength : Nat) : List (Int × Int) :=
  (List.range (b.pieces a maxLength)).map fun i =>
    (b.cutStart a maxLength i, b.cutStart a maxLength (i + 1) - 1)

end Box

/-! ### Layouts -/

/-- The boxes of a level, in order. -/
structure Layout where
  boxes : Array Box
deriving DecidableEq, Inhabited

namespace Layout

/-- The layout of a list of boxes. -/
def ofList (bs : List Box) : Layout := ⟨bs.toArray⟩

/-- The boxes as a list. -/
def toList (l : Layout) : List Box := l.boxes.toList

/-- Cuts a box into pieces no longer than `maxLength` along any axis, the first axis fastest. -/
def cut (domain : Box) (maxLength : Nat) : Layout :=
  ofList <|
    (domain.cuts .z maxLength).flatMap fun k =>
      (domain.cuts .y maxLength).flatMap fun j =>
        (domain.cuts .x maxLength).map fun i =>
          ⟨⟨i.1, j.1, k.1⟩, ⟨i.2, j.2, k.2⟩, domain.centering⟩

/-- The number of boxes. -/
def count (l : Layout) : Nat := l.boxes.size

/-- The box at a place, if there is one. -/
def get? (l : Layout) (i : Nat) : Option Box := l.boxes[i]?

/-- The box at a place of the layout. -/
def box (l : Layout) (i : Nat) : Box := l.boxes.getD i default

/-- What the points of the boxes stand for: that of the first box, and cells without one. -/
def centering (l : Layout) : Centering := (l.boxes[0]?.map Box.centering).getD .cell

/-- The faces normal to an axis that bound each box. -/
def faces (l : Layout) (a : Axis) : Layout := ⟨l.boxes.map (·.faces a)⟩

/-- Every box refined. -/
def refine (l : Layout) (r : Int) : Layout := ⟨l.boxes.map (·.refine r)⟩

/-- The number of points, box by box. -/
def size (l : Layout) : Nat := Box.total l.toList

/-- Some box holds the point. -/
def contains (l : Layout) (p : Point) : Bool := l.boxes.any fun b => decide (p ∈ b)

/-- The place of the first box that holds the point. -/
def find? (l : Layout) (p : Point) : Option Nat := l.boxes.findIdx? fun b => decide (p ∈ b)

/-- The smallest box with the corners of two boxes. -/
def hull (b c : Box) : Box :=
  { b with
    lo := .ofFn fun a => min (b.lo.get a) (c.lo.get a)
    hi := .ofFn fun a => max (b.hi.get a) (c.hi.get a) }

/-- The smallest box with the corners of all boxes, if there is a box. -/
def bounds? (l : Layout) : Option Box :=
  match l.toList with
  | [] => none
  | b :: bs => some (bs.foldl hull b)

@[simp] theorem boxes_faces (l : Layout) (a : Axis) :
    (l.faces a).boxes = l.boxes.map (·.faces a) := rfl

@[simp] theorem count_faces (l : Layout) (a : Axis) : (l.faces a).count = l.count := by
  simp [count]

theorem getElem_boxes {l : Layout} {i : Nat} (h : i < l.boxes.size) : l.boxes[i] = l.box i := by
  simp [box, Array.getD_eq_getD_getElem?, h]

theorem box_faces {l : Layout} {i : Nat} (h : i < l.count) (a : Axis) :
    (l.faces a).box i = (l.box i).faces a := by
  have h' : i < (l.faces a).boxes.size := by simpa [count] using h
  simp [← getElem_boxes h', getElem_boxes]

end Layout

/-! ### Owners -/

/-- The rank that owns each box of a layout. -/
structure Ownership where
  ranks : Array Nat
deriving DecidableEq, Inhabited

namespace Ownership

/-- One rank owns all of `n` boxes. -/
def single (n : Nat) : Ownership := ⟨Array.replicate n 0⟩

/-- Boxes are dealt to the ranks in turn; there is at least one rank. -/
def dealt (n ranks : Nat) : Ownership := ⟨(Array.range n).map (· % max 1 ranks)⟩

/-- The number of boxes. -/
def count (o : Ownership) : Nat := o.ranks.size

end Ownership

end MeshDiffusion
