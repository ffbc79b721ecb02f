import MeshDiffusion.Field.Basic

/-!
Sums, norms and extremes of a field.

All of them run over the valid points, box by box, so that a point stored for several boxes counts
once for each box that holds it as a valid point.

* `MeshField.dot` is the sum of products: over the points of one component of one box, then over
  the components of the box, then over the boxes;
* `MeshField.norm` and `MeshField.normAll` are the largest absolute values of one and of all
  components; a value that is not a number stays to the end;
* `MeshField.min?` and `MeshField.max?` pass over values that are not numbers and are `none` if
  there are no others.
-/

namespace MeshDiffusion

namespace MeshField

variable {K : Type} [Scalar K]

/-- The values of one component at the valid points of a box. -/
@[specialize] def valid (f : MeshField K) (i n : Nat) : List K :=
  (f.layout.box i).points.map fun p => f.get i p n

/-- The values of one component at the valid points of all boxes, box by box. -/
@[specialize] def validAll (f : MeshField K) (n : Nat) : List K :=
  (List.range f.layout.count).flatMap fun i => f.valid i n

/-- The sum of products of two fields on the same boxes, over their common components. -/
@[specialize] def dot (f g : MeshField K) : K :=
  Scalar.sum <| (List.range f.layout.count).map fun i =>
    Scalar.sum <| (List.range (min f.ncomp g.ncomp)).map fun n =>
      Scalar.sum <| (f.layout.box i).points.map fun p => f.get i p n * g.get i p n

/-- The larger of a bound and an absolute value; what is not a number stays. -/
@[inline] def enlarge (bound v : K) : K :=
  if Scalar.isNaN bound then bound
  else if Scalar.isNaN v then v
  else Scalar.maxNum bound v

/-- The largest absolute value of a component, zero on no points. -/
@[specialize] def norm (f : MeshField K) (n : Nat) : K :=
  ((f.validAll n).map Scalar.abs).foldl enlarge 0.0

/-- The largest absolute value of all components. -/
@[specialize] def normAll (f : MeshField K) : K :=
  ((List.range f.ncomp).map f.norm).foldl enlarge 0.0

/-- The first of two numbers by a choice that passes over what is not a number. -/
@[inline] def pick (choose : K → K → K) (best : Option K) (v : K) : Option K :=
  match best with
  | none => if Scalar.isNaN v then none else some v
  | some b => some (choose b v)

/-- The smallest value of a component. -/
@[specialize] def min? (f : MeshField K) (n : Nat) : Option K :=
  (f.validAll n).foldl (pick Scalar.minNum) none

/-- The largest value of a component. -/
@[specialize] def max? (f : MeshField K) (n : Nat) : Option K :=
  (f.validAll n).foldl (pick Scalar.maxNum) none

end MeshField

end MeshDiffusion
