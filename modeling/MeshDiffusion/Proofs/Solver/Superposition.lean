import Mathlib.Tactic
import MeshDiffusion.Proofs.Operator.Linearity
import MeshDiffusion.Proofs.Solver.ResidualCorrection

/-!
What a correction does to a residual, in exact arithmetic.

A cycle solves for the correction with a homogeneous boundary and adds it to a solution with
boundary values. That is sound because the operator is affine: what the boundary values contribute
to the image of the solution, they contribute once, and a correction takes exactly its homogeneous
image off the residual. The components of a field do not mix on the way.

* `FiniteVolume.withBoundaryValues`: an operator with other boundary values on a level, or none;
* `MeshField.SameComponent`: two fields hold the same in the cells of a component, and
  `FiniteVolume.SameBoundary`: two boundaries prescribe the same next to the boxes;
* `FiniteVolume.get_apply_component`: a component of an image comes from the same component of the
  field and of the boundary values, in any arithmetic;
* `ResidualCorrection.get_residual_axpy`: what a correction takes off a residual;
* `ResidualCorrection.superposition` collects this for a field and a correction.
-/

namespace MeshDiffusion

/-! ### Components -/

/-- In a component, two fields on the same boxes hold the same in all cells. -/
structure MeshField.SameComponent {K : Type} [Inhabited K] (f g : MeshField K) (n : ℕ) : Prop where
  layout : g.layout = f.layout
  valid : ∀ i < f.layout.count, ∀ p ∈ f.layout.box i, f.get i p n = g.get i p n

section Components

variable {K : Type} [Scalar K] {o : FiniteVolume K} {l : LevelOperator K} {f g out : MeshField K}
  {bc? bc?' : Option (MeshField K)} {homogeneous : Bool} {level i n : ℕ} {p : Point}

/-- The level with given boundary values, or with none. -/
def LevelOperator.withBoundaryValues (l : LevelOperator K) (bc? : Option (MeshField K)) :
    LevelOperator K :=
  { l with boundary? := bc? }

namespace FiniteVolume

/-- The operator with given boundary values on a level, or with none. -/
def withBoundaryValues (o : FiniteVolume K) (level : ℕ) (bc? : Option (MeshField K)) :
    FiniteVolume K :=
  o.onLevel level fun l => l.withBoundaryValues bc?

lemma setBoundaryValues_eq (bc : MeshField K) :
    DiffusionOperator.setBoundaryValues o level bc = o.withBoundaryValues level (some bc) := rfl

lemma get_withBoundaryValues (hlevel : level < o.levels.count) :
    (o.withBoundaryValues level bc?).levels.get level
      = (o.levels.get level).withBoundaryValues bc? :=
  Levels.get_modify_self hlevel _

/-- Boundary values enter an image through the filled field only. -/
lemma image_withBoundaryValues {phi : Point → K} :
    (o.withBoundaryValues level bc?).image (l.withBoundaryValues bc?') i phi p
      = o.image l i phi p := rfl

/-- In a component, two boundaries prescribe the same next to the boxes. -/
def SameBoundary (layout : Layout) (bc? bc?' : Option (MeshField K)) (n : ℕ) : Prop :=
  ∀ i < layout.count, ∀ p ∈ (layout.box i).grow 1, p ∉ layout.box i →
    boundaryValue bc? i p n = boundaryValue bc?' i p n

/-- Filling a component of a field reads that component only, of the field and of the boundary
values. -/
lemma filled_component (hsame : f.SameComponent g n)
    (hboundary : homogeneous = false → SameBoundary f.layout bc? bc?' n) (hf : f.Stores i p n)
    (hg : g.Stores i p n) (hp : p ∈ (f.layout.box i).grow 1) :
    (filled (l.withBoundaryValues bc?) f homogeneous).get i p n
      = (filled (l.withBoundaryValues bc?') g homogeneous).get i p n := by
  refine get_filled_congr rfl hsame.layout hf hg (fun s _ j hj hcell => hsame.valid j hj _ hcell)
    fun hghost => ?_
  cases homogeneous with
  | true => rfl
  | false => exact hboundary rfl i hf.1 p hp hghost

/-- **Components do not mix.** -/
lemma get_apply_component (hlevel : level < o.levels.count) (hsame : f.SameComponent g n)
    (hboundary : homogeneous = false → SameBoundary f.layout bc? bc?' n) (hf : 1 ≤ f.ghosts)
    (hg : 1 ≤ g.ghosts) (hn : n < f.ncomp) (hn' : n < g.ncomp) (hout : out.layout = f.layout)
    (hcomp : n < out.ncomp) (hi : i < f.layout.count) (hp : p ∈ f.layout.box i) :
    (DiffusionOperator.apply (o.withBoundaryValues level bc?) level f out homogeneous).2.get i p n
      = (DiffusionOperator.apply (o.withBoundaryValues level bc?') level g out homogeneous).2.get
          i p n := by
  have himage (bc? : Option (MeshField K)) (u : MeshField K) (hu : n < u.ncomp) :
      (DiffusionOperator.apply (o.withBoundaryValues level bc?) level u out homogeneous).2.get i p n
        = o.image (o.levels.get level) i (fun q => (filled
            ((o.levels.get level).withBoundaryValues bc?) u homogeneous).get i q n) p := by
    rw [get_apply (hout ▸ hi) (hout ▸ hp) hcomp hu, get_withBoundaryValues hlevel,
      image_withBoundaryValues]
  have hnext : ∀ q ∈ (f.layout.box i).grow 1,
      (filled ((o.levels.get level).withBoundaryValues bc?) f homogeneous).get i q n
        = (filled ((o.levels.get level).withBoundaryValues bc?') g homogeneous).get i q n :=
    fun q hq => filled_component hsame hboundary (MeshField.stores_of_next rfl hf hi hq hn)
      (MeshField.stores_of_next hsame.layout hg hi hq hn') hq
  rw [himage bc? f hn, himage bc?' g hn']
  exact image_congr (hnext p (Box.mem_grow_of_mem 1 hp))
    fun _ q hq => hnext q (FaceRule.mem_grow_of_mem_reads hp hq)

end FiniteVolume

end Components

/-! ### Corrections -/

namespace ResidualCorrection

variable {o : FiniteVolume ℚ} {level i n : ℕ} {p : Point} {sol e rhs : MeshField ℚ}

/-- **A correction takes its image off the residual.** -/
lemma get_residual_axpy (hlayout : e.layout = sol.layout) (hncomp : e.ncomp = sol.ncomp)
    (hsol : 1 ≤ sol.ghosts) (he : 1 ≤ e.ghosts) (hi : i < sol.layout.count)
    (hp : p ∈ sol.layout.box i) (hn : n < sol.ncomp) :
    (residual o level (sol.axpy 1.0 e 0) rhs).2.get i p n
      = (residual o level sol rhs).2.get i p n - (o.homogeneousImage level e).get i p n := by
  have hcomb : (sol.axpy 1.0 e 0).IsCombination sol 1.0 e :=
    MeshField.isCombination_axpy hlayout hncomp
  have hmoved : (residual o level (sol.axpy 1.0 e 0) rhs).2.get i p n = _ := get_residual hi hp hn
  rw [hmoved, get_residual hi hp hn,
    FiniteVolume.get_homogeneousImage (hlayout ▸ hi) (hlayout ▸ hp) (hncomp ▸ hn),
    residual_fst, residual_fst,
    FiniteVolume.image_combination hcomb hsol hsol he hi hp hn, Exact.one]
  ring

/-- **Superposition.** In exact arithmetic, for every operator and level, whether the level has
boundary values or not, and for two fields on the same boxes:

* the image of any field that is `phi + c * e` on the cells is the image of `phi` plus `c` times the
  homogeneous image of `e`, on all cells and components;
* a component of an image is decided by that component of the field on the cells and, if the
  boundary is not homogeneous, by what the boundary values prescribe for it next to the boxes;
* so the residual of `phi + e` is the residual of `phi` less the homogeneous image of `e`. -/
theorem superposition (o : FiniteVolume ℚ) (level : ℕ) (phi e : MeshField ℚ)
    (hlayout : e.layout = phi.layout) (hncomp : e.ncomp = phi.ncomp) (hphi : 1 ≤ phi.ghosts)
    (he : 1 ≤ e.ghosts) :
    (∀ (c : ℚ) (sum out : MeshField ℚ), sum.IsCombination phi c e → 1 ≤ sum.ghosts →
      out.layout = phi.layout → ∀ i < phi.layout.count, ∀ p ∈ phi.layout.box i,
      ∀ n < min out.ncomp phi.ncomp,
        (DiffusionOperator.apply o level sum out false).2.get i p n
          = (DiffusionOperator.apply o level phi out false).2.get i p n
            + c * (DiffusionOperator.apply o level e out true).2.get i p n) ∧
    (level < o.levels.count → ∀ (n : ℕ) (bc? bc?' : Option (MeshField ℚ)) (phi' out : MeshField ℚ)
      (homogeneous : Bool), phi.SameComponent phi' n → 1 ≤ phi'.ghosts →
      n < min phi.ncomp phi'.ncomp →
      (homogeneous = false → FiniteVolume.SameBoundary phi.layout bc? bc?' n) →
      out.layout = phi.layout → n < out.ncomp →
      ∀ i < phi.layout.count, ∀ p ∈ phi.layout.box i,
        (DiffusionOperator.apply (o.withBoundaryValues level bc?) level phi out homogeneous).2.get
            i p n
          = (DiffusionOperator.apply (o.withBoundaryValues level bc?') level phi' out
              homogeneous).2.get i p n) ∧
    ∀ (rhs : MeshField ℚ), ∀ i < phi.layout.count, ∀ p ∈ phi.layout.box i, ∀ n < phi.ncomp,
      (residual o level (phi.axpy 1.0 e 0) rhs).2.get i p n
        = (residual o level phi rhs).2.get i p n
          - (DiffusionOperator.apply o level e (e.zeros e.ncomp 0) true).2.get i p n := by
  refine ⟨?_, ?_, fun rhs i hi p hp n hn => get_residual_axpy hlayout hncomp hphi he hi hp hn⟩
  · intro c sum out hcomb hsum hout i hi p hp n hn
    have hsumlayout : sum.layout = phi.layout := hcomb.layout_left.symm
    have hsumncomp : sum.ncomp = phi.ncomp := hcomb.ncomp_left.symm
    have hnphi : n < phi.ncomp := by omega
    have hnout : n < out.ncomp := by omega
    rw [FiniteVolume.get_apply (hout ▸ hi) (hout ▸ hp) hnout (hsumncomp ▸ hnphi),
      FiniteVolume.get_apply (hout ▸ hi) (hout ▸ hp) hnout hnphi,
      FiniteVolume.get_apply (hout ▸ hi) (hout ▸ hp) hnout (hncomp ▸ hnphi)]
    exact FiniteVolume.image_combination hcomb hsum hphi he (hsumlayout ▸ hi) (hsumlayout ▸ hp)
      (hsumncomp ▸ hnphi)
  · intro hlevel n bc? bc?' phi' out homogeneous hsame hghosts hn hboundary hout hcomp i hi p hp
    exact FiniteVolume.get_apply_component hlevel hsame hboundary hphi hghosts (by omega) (by omega)
      hout hcomp hi hp

/-! ### A rod between walls -/

/-- Four cells in a row. -/
private def rod : Box := ⟨⟨0, 0, 0⟩, ⟨3, 0, 0⟩, .cell⟩

/-- The row in two boxes. -/
private def rodLayout : Layout := .cut rod 2

/-- The row in cells of unit width, closed to a ring along the third axis. -/
private def rodMesh : Hierarchy ℚ :=
  ⟨.ofList [⟨⟨rod, ⟨0, 0, 0⟩, ⟨4, 1, 1⟩, ⟨false, false, true⟩⟩, rodLayout, .single 0⟩], 0⟩

/-- An operator on the row between quadratic walls, with a viscosity that grows along the row. -/
private def rodOperator : FiniteVolume ℚ :=
  let o : FiniteVolume ℚ := DiffusionOperator.bind .unbound rodMesh (.ofList []) {}
  let o := DiffusionOperator.setWallOrder o 3
  let o := DiffusionOperator.setBoundary o
    ⟨⟨.dirichlet, .neumann, .periodic⟩, ⟨.dirichlet, .neumann, .periodic⟩⟩
  let o := DiffusionOperator.setMass o 0 (.const rodLayout (.single 0) 1 0 1)
  let o := DiffusionOperator.setAlphaBeta o 1 1
  DiffusionOperator.setFaceViscosity o 0 (.ofFn fun a =>
    .ofFn (rodLayout.faces a) (.single 0) 1 0 fun _ p _ => (p.x : ℚ) + 1)

/-- Boundary values of five and seven for the first component, and of another one for the second. -/
private def rodValues (second : ℚ) : MeshField ℚ :=
  .ofFn rodLayout (.single 0) 2 1 fun _ p n => if n = 0 then if p.x < 0 then 5 else 7 else second

/-- A field with the squares of the places of the cells in its first component. -/
private def rodField (second : ℚ) : MeshField ℚ :=
  .ofFn rodLayout (.single 0) 2 1 fun _ p n => if n = 0 then p.x * p.x else second

/-- A correction that is largest at one end. -/
private def rodCorrection : MeshField ℚ :=
  .ofFn rodLayout (.single 0) 2 1 fun _ p _ => p.x

private lemma rodField_sameComponent (second second' : ℚ) :
    (rodField second).SameComponent (rodField second') 0 := by
  refine ⟨rfl, fun i hi p hp => ?_⟩
  have hvalue (v : ℚ) : (rodField v).get i p 0 = p.x * p.x := by
    have hstores : (rodField v).Stores i p 0 := MeshField.stores_of_mem hi hp Nat.two_pos
    exact (MeshField.get_ofFn ..).trans ((if_pos hstores).trans (if_pos rfl))
  rw [hvalue, hvalue]

private lemma rodValues_sameBoundary (second second' : ℚ) :
    FiniteVolume.SameBoundary rodLayout (some (rodValues second)) (some (rodValues second'))
      0 := by
  intro i hi p hp _
  have hvalue (v : ℚ) : FiniteVolume.boundaryValue (some (rodValues v)) i p 0
      = if p.x < 0 then 5 else 7 := by
    have hstores : (rodValues v).Stores i p 0 :=
      MeshField.stores_of_next rfl le_rfl hi hp Nat.two_pos
    rw [FiniteVolume.boundaryValue, if_pos hstores]
    exact (MeshField.get_ofFn ..).trans ((if_pos hstores).trans (if_pos rfl))
  rw [hvalue, hvalue]

/-- At the wall, the image of a field with a correction added twice is put together from those of
the two, of which the boundary values belong to the field alone. It does not see the second
component of the field nor that of the boundary values, and the correction takes its image off the
residual. -/
theorem superposition_rod :
    let o := DiffusionOperator.setBoundaryValues rodOperator 0 (rodValues 1)
    let image (o : FiniteVolume ℚ) (u : MeshField ℚ) (homogeneous : Bool) : ℚ :=
      (DiffusionOperator.apply o 0 u (rodField 0) homogeneous).2.get 0 ⟨0, 0, 0⟩ 0
    let rest (u : MeshField ℚ) : ℚ := (residual o 0 u (rodField 0)).2.get 0 ⟨0, 0, 0⟩ 0
    image o (rodField 1) false = -47 / 3 ∧ image o rodCorrection true = -7 / 3 ∧
    image o rodCorrection false ≠ image o rodCorrection true ∧
    image o ((rodField 1).axpy 2 rodCorrection 0) false = -61 / 3 ∧
    image (DiffusionOperator.setBoundaryValues rodOperator 0 (rodValues 8)) (rodField 9) false
      = -47 / 3 ∧
    rest (rodField 1) = 47 / 3 ∧
    rest ((rodField 1).axpy 1.0 rodCorrection 0) = 47 / 3 + 7 / 3 := by
  intro o image rest
  have hlevel : 0 < rodOperator.levels.count := by decide +kernel
  have hi : 0 < (rodField 1).layout.count := by decide +kernel
  have hp : (⟨0, 0, 0⟩ : Point) ∈ (rodField 1).layout.box 0 := by decide +kernel
  obtain ⟨hsum, -, hresidual⟩ := superposition o 0 (rodField 1) rodCorrection rfl rfl le_rfl
    le_rfl
  have hcomponent := (superposition rodOperator 0 (rodField 1) rodCorrection rfl rfl le_rfl
    le_rfl).2.1 hlevel
  have himage : image o (rodField 1) false = -47 / 3 := by decide +kernel
  have hcorrection : image o rodCorrection true = -7 / 3 := by decide +kernel
  have hstart : rest (rodField 1) = 47 / 3 := by decide +kernel
  refine ⟨himage, hcorrection, by decide +kernel, ?_, ?_, hstart, ?_⟩
  · have hadded := hsum 2 ((rodField 1).axpy 2 rodCorrection 0) (rodField 0)
      (MeshField.isCombination_axpy rfl rfl) le_rfl rfl 0 hi _ hp 0 (by decide)
    refine hadded.trans ?_
    change image o (rodField 1) false + 2 * image o rodCorrection true = _
    rw [himage, hcorrection]
    norm_num
  · rw [← himage]
    simp only [image, o, FiniteVolume.setBoundaryValues_eq]
    exact Eq.symm <| hcomponent 0 (some (rodValues 1)) (some (rodValues 8)) (rodField 9)
      (rodField 0) false (rodField_sameComponent 1 9) le_rfl (by decide)
      (fun _ => rodValues_sameBoundary 1 8) rfl (by decide) 0 hi _ hp
  · refine (hresidual (rodField 0) 0 hi _ hp 0 (by decide)).trans ?_
    have htaken : (DiffusionOperator.apply o 0 rodCorrection
        (rodCorrection.zeros rodCorrection.ncomp 0) true).2.get 0 ⟨0, 0, 0⟩ 0 = -7 / 3 := by
      decide +kernel
    change rest (rodField 1) - _ = _
    rw [hstart, htaken]
    norm_num

end ResidualCorrection

end MeshDiffusion
