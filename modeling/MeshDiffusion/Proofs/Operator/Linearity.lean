import Mathlib.Tactic
import MeshDiffusion.Proofs.Operator.Decoupling
import MeshDiffusion.Proofs.Operator.Flux

/-!
Linearity of the operator, in exact arithmetic.

The ghosts of a field are filled from a place that only its boxes decide, or with a value that does
not depend on the field. So the filled field is affine in the field and linear if the boundary is
homogeneous, and its image is as well.

* `MeshField.IsCombination`: on the cells of a level, a field is another one plus a multiple of a
  third one; `MeshField.isCombination_axpy`: as the update of an iteration makes it;
* `FiniteVolume.homogeneousImage` is the operator with a homogeneous boundary as a function of
  fields;
* `FiniteVolume.image_add_mul`: the image of a function of cells is linear;
* `FiniteVolume.image_combination`: the operator is affine, with the homogeneous operator as its
  linear part.
-/

namespace MeshDiffusion

namespace MeshField

/-- On its cells, a field is another one plus a multiple of a third one. -/
structure IsCombination (h f : MeshField ℚ) (a : ℚ) (g : MeshField ℚ) : Prop where
  layout_left : f.layout = h.layout
  ncomp_left : f.ncomp = h.ncomp
  layout_right : g.layout = h.layout
  ncomp_right : g.ncomp = h.ncomp
  valid : ∀ i < h.layout.count, ∀ p ∈ h.layout.box i, ∀ n < h.ncomp,
    h.get i p n = f.get i p n + a * g.get i p n

lemma isCombination_axpy {f g : MeshField ℚ} {a : ℚ} (hlayout : g.layout = f.layout)
    (hncomp : g.ncomp = f.ncomp) : (f.axpy a g 0).IsCombination f a g where
  layout_left := rfl
  ncomp_left := rfl
  layout_right := hlayout
  ncomp_right := hncomp
  valid _ hi _ hp _ hn := get_axpy_of_mem hi hp hn (hn.trans_eq hncomp.symm)

end MeshField

/-! ### Functions of cells -/

namespace FiniteVolume

variable {o : FiniteVolume ℚ} {l : LevelOperator ℚ} {phi psi : Point → ℚ} {a : ℚ} {i : ℕ}
  {p : Point} {n : ℕ}

/-- The image of a cell is linear in the function of cells. -/
lemma image_add_mul :
    o.image l i (fun q => phi q + a * psi q) p = o.image l i phi p + a * o.image l i psi p := by
  rw [image_eq, image_eq, image_eq, inflow_add_mul]
  ring

/-! ### Fields -/

/-- The image of a field under the operator with a homogeneous boundary. -/
def homogeneousImage {K : Type} [Scalar K] (o : FiniteVolume K) (level : ℕ) (x : MeshField K) :
    MeshField K :=
  (DiffusionOperator.apply o level x (x.zeros x.ncomp 0) true).2

variable {f g h : MeshField ℚ} {homogeneous : Bool} {level : ℕ}

/-- What a valid point of an image holds. -/
lemma get_apply {K : Type} [Scalar K] {o : FiniteVolume K} {f out : MeshField K}
    (hi : i < out.layout.count) (hp : p ∈ out.layout.box i) (hn : n < out.ncomp)
    (hn' : n < f.ncomp) :
    (DiffusionOperator.apply o level f out homogeneous).2.get i p n
      = o.image (o.levels.get level) i
        (fun q => (filled (o.levels.get level) f homogeneous).get i q n) p :=
  get_applyFilled hi hp (lt_min hn hn')

lemma get_homogeneousImage (hi : i < f.layout.count) (hp : p ∈ f.layout.box i) (hn : n < f.ncomp) :
    (o.homogeneousImage level f).get i p n
      = o.image (o.levels.get level) i (fun q => (filled (o.levels.get level) f true).get i q n) p :=
  get_apply hi hp hn hn

/-- A filled field is affine in the field, with the field filled by zeros as its linear part. -/
lemma filled_combination (hcomb : h.IsCombination f a g) (hh : h.Stores i p n)
    (hf : f.Stores i p n) (hg : g.Stores i p n) :
    (filled l h homogeneous).get i p n
      = (filled l f homogeneous).get i p n + a * (filled l g true).get i p n := by
  rw [get_filled hh, get_filled hf, get_filled hg, hcomb.layout_left, hcomb.layout_right]
  by_cases hp : p ∈ h.layout.box i
  · rw [if_pos hp, if_pos hp, if_pos hp, hcomb.valid i hh.1 p hp n hh.2.2]
  · rw [if_neg hp, if_neg hp, if_neg hp]
    cases hlast : Halo.lastProvider h.layout (Halo.pairs h.layout l.geometry.periods) i p with
    | none =>
        -- the prescribed value is the same for both fields, and zero for the third one
        have hzero : boundaryValue (none : Option (MeshField ℚ)) i p n = 0 := Exact.zero
        simp only [if_true, hzero, mul_zero, add_zero]
    | some sj =>
        obtain ⟨hpair, -, hmem⟩ := Halo.lastProvider_mem hlast
        exact hcomb.valid _ (Halo.mem_pairs.1 hpair).2 _ hmem n hh.2.2

/-- **The operator is affine**, with the homogeneous operator as its linear part. -/
theorem image_combination (hcomb : h.IsCombination f a g) (hghosts : 1 ≤ h.ghosts)
    (hghosts' : 1 ≤ f.ghosts) (hghosts'' : 1 ≤ g.ghosts) (hi : i < h.layout.count)
    (hp : p ∈ h.layout.box i) (hn : n < h.ncomp) :
    o.image l i (fun q => (filled l h homogeneous).get i q n) p
      = o.image l i (fun q => (filled l f homogeneous).get i q n) p
        + a * o.image l i (fun q => (filled l g true).get i q n) p := by
  have hnext : ∀ q ∈ (h.layout.box i).grow 1,
      (filled l h homogeneous).get i q n
        = (filled l f homogeneous).get i q n + a * (filled l g true).get i q n := fun q hq =>
    filled_combination hcomb (MeshField.stores_of_next rfl hghosts hi hq hn)
      (MeshField.stores_of_next hcomb.layout_left hghosts' hi hq (hcomb.ncomp_left ▸ hn))
      (MeshField.stores_of_next hcomb.layout_right hghosts'' hi hq (hcomb.ncomp_right ▸ hn))
  calc o.image l i (fun q => (filled l h homogeneous).get i q n) p
      = o.image l i (fun q => (filled l f homogeneous).get i q n
          + a * (filled l g true).get i q n) p :=
        image_congr (hnext p (Box.mem_grow_of_mem 1 hp))
          fun _ q hq => hnext q (FaceRule.mem_grow_of_mem_reads hp hq)
    _ = _ := image_add_mul

end FiniteVolume

end MeshDiffusion
