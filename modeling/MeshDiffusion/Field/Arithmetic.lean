import MeshDiffusion.Field.Basic

/-!
Pointwise arithmetic of fields.

Each operation writes a window: some components at the valid points of every box grown by a given
number of layers. `MeshField.Window` says what the window holds, and every operation is an
update that applies its rule inside the window and keeps all other values.

* `MeshField.assign` writes a constant, `MeshField.scale` multiplies by one;
* `MeshField.copy`, `MeshField.mulFrom` and `MeshField.axpy` combine a window with the values
  that another field on the same boxes has there, by the rules `s`, `d * s` and `d + a * s`.
-/

namespace MeshDiffusion

namespace MeshField

variable {K : Type}

/-- The place lies within `layers` layers around its valid box and its component among the `count`
components from `comp` on. -/
def Window (f : MeshField K) (layers comp count : Nat) (i : Nat) (p : Point) (n : Nat) : Prop :=
  p ∈ (f.layout.box i).grow layers ∧ comp ≤ n ∧ n < comp + count

@[inline] instance (f : MeshField K) (layers comp count i : Nat) (p : Point) (n : Nat) :
    Decidable (f.Window layers comp count i p n) :=
  inferInstanceAs (Decidable (_ ∧ _ ∧ _))

/-- Writes a constant into the components from `comp` on, `count` of them, at the valid points and
at most the given number of ghost layers. -/
@[specialize] def assign [Inhabited K] (f : MeshField K) (v : K) (comp count layers : Nat) :
    MeshField K :=
  f.update fun i p n old =>
    if f.Window (min layers f.ghosts) comp count i p n then v else old

/-- Combines `count` components, from `dstComp` on, with those of `src` from `srcComp` on, at the
valid points and the given number of ghost layers. Both fields live on the same boxes. -/
@[specialize] def combine [Inhabited K] (op : K → K → K) (dst src : MeshField K)
    (srcComp dstComp count layers : Nat) : MeshField K :=
  dst.update fun i p n old =>
    if dst.Window layers dstComp count i p n then op old (src.get i p (srcComp + (n - dstComp)))
    else old

/-- Copies components of another field. -/
@[specialize] def copy [Inhabited K] (dst src : MeshField K)
    (srcComp dstComp count layers : Nat) : MeshField K :=
  dst.combine (fun _ s => s) src srcComp dstComp count layers

/-- Multiplies components by those of another field. -/
@[specialize] def mulFrom [Scalar K] (dst src : MeshField K)
    (srcComp dstComp count layers : Nat) : MeshField K :=
  dst.combine (fun d s => d * s) src srcComp dstComp count layers

/-- Adds `a` times the common components of another field. -/
@[specialize] def axpy [Scalar K] (y : MeshField K) (a : K) (x : MeshField K) (layers : Nat) :
    MeshField K :=
  y.combine (fun d s => d + a * s) x 0 0 (min y.ncomp x.ncomp) layers

/-- Multiplies every component by a number. -/
@[specialize] def scale [Scalar K] (f : MeshField K) (s : K) (layers : Nat) : MeshField K :=
  f.update fun i p n old =>
    if f.Window (min layers f.ghosts) 0 f.ncomp i p n then s * old else old

/-- A field of zeros on the boxes of another one. -/
def zeros [Scalar K] (f : MeshField K) (ncomp ghosts : Nat) : MeshField K :=
  const f.layout f.owners ncomp ghosts 0.0

/-! ### Shapes and readings -/

@[simp] theorem shape_assign [Inhabited K] (f : MeshField K) (v : K) (comp count layers : Nat) :
    (f.assign v comp count layers).shape = f.shape := rfl

@[simp] theorem shape_combine [Inhabited K] (op : K → K → K) (dst src : MeshField K)
    (srcComp dstComp count layers : Nat) :
    (combine op dst src srcComp dstComp count layers).shape = dst.shape := rfl

@[simp] theorem shape_copy [Inhabited K] (dst src : MeshField K)
    (srcComp dstComp count layers : Nat) :
    (dst.copy src srcComp dstComp count layers).shape = dst.shape := rfl

@[simp] theorem shape_mulFrom [Scalar K] (dst src : MeshField K)
    (srcComp dstComp count layers : Nat) :
    (dst.mulFrom src srcComp dstComp count layers).shape = dst.shape := rfl

@[simp] theorem shape_axpy [Scalar K] (y : MeshField K) (a : K) (x : MeshField K) (layers : Nat) :
    (y.axpy a x layers).shape = y.shape := rfl

@[simp] theorem shape_scale [Scalar K] (f : MeshField K) (s : K) (layers : Nat) :
    (f.scale s layers).shape = f.shape := rfl

@[simp] theorem shape_zeros [Scalar K] (f : MeshField K) (ncomp ghosts : Nat) :
    (f.zeros ncomp ghosts).shape = ⟨f.layout, f.owners, ncomp, ghosts⟩ := rfl

/-- The window without ghost layers. -/
theorem window_zero_iff {f : MeshField K} {comp count i : Nat} {p : Point} {n : Nat} :
    f.Window 0 comp count i p n ↔ p ∈ f.layout.box i ∧ comp ≤ n ∧ n < comp + count := by
  rw [Window, Int.ofNat_zero, Box.mem_grow_zero]

/-- A combined field keeps its values outside the window and applies the rule inside. -/
theorem get_combine [Inhabited K] (op : K → K → K) {dst src : MeshField K}
    {srcComp dstComp count layers i : Nat} {p : Point} {n : Nat} (h : dst.Stores i p n) :
    (combine op dst src srcComp dstComp count layers).get i p n =
      if dst.Window layers dstComp count i p n then
        op (dst.get i p n) (src.get i p (srcComp + (n - dstComp)))
      else dst.get i p n := by
  rw [combine, get_update, if_pos h]

theorem get_copy [Inhabited K] {dst src : MeshField K} {srcComp dstComp count layers i : Nat}
    {p : Point} {n : Nat} (h : dst.Stores i p n) :
    (dst.copy src srcComp dstComp count layers).get i p n =
      if dst.Window layers dstComp count i p n then src.get i p (srcComp + (n - dstComp))
      else dst.get i p n :=
  get_combine _ h

end MeshField

end MeshDiffusion
