import Mathlib.Tactic
import MeshDiffusion.Proofs.Operator.Coverage
import MeshDiffusion.Proofs.Operator.Linearity

/-!
The diagonal of the operator, in exact arithmetic.

The entry of a cell in the diagonal is what a field that is one at the cell and zero at all others
is mapped to there. It is computed from a weight for each rule of a face, without such a field. The
weights take every neighbour to be another cell. Where a domain wraps around after a single cell,
the neighbour is the cell itself, no difference is left, and the weight is one too many.

* `LevelOperator.RingOfOne`: the level is a ring of a single cell along an axis;
* `MeshField.UnitAt`: the field that is one at a cell; filled, it is zero next to the cell
  (`FiniteVolume.filled_unit_next`), or one on a ring of one cell
  (`FiniteVolume.filled_unit_ring`);
* `FaceRule.derivative_unit`: a rule maps it to its weight, or to nothing on such a ring;
* `FiniteVolume.diagonal_eq_apply_unit`: so the diagonal is the response to the unit field and, on
  rings of one cell, the viscosity of the faces that the cell has with itself;
* `FiniteVolume.diagonal_ne_apply_unit`: there the two differ.
-/

namespace MeshDiffusion

/-! ### Unit fields and rings of one cell -/

/-- The level wraps around along an axis after a single cell. -/
def LevelOperator.RingOfOne {K : Type} (l : LevelOperator K) (a : Axis) : Prop :=
  l.geometry.periodic.get a = true ∧ l.geometry.domain.length a = 1

instance {K : Type} (l : LevelOperator K) (a : Axis) : Decidable (l.RingOfOne a) :=
  inferInstanceAs (Decidable (_ ∧ _))

/-- A component of a field is one at a point and zero at all other cells of its boxes. -/
def MeshField.UnitAt (e : MeshField ℚ) (p : Point) (n : ℕ) : Prop :=
  ∀ i < e.layout.count, ∀ q ∈ e.layout.box i, e.get i q n = if q = p then 1 else 0

/-- The image of a cell next to it is the cell itself only on a ring of one cell. -/
lemma LevelOperator.RingOfOne.of_shift {K : Type} [Scalar K] {l : LevelOperator K} {a : Axis}
    {p s : Point} {z : ℤ} (hz : z = 1 ∨ z = -1) (hs : s ∈ l.geometry.periods.shifts)
    (hback : p.move a z - s = p) : l.RingOfOne a := by
  have hentry : s.get a = z := by
    have hcoord := congrArg (Triple.get · a) hback
    simp only [Triple.get_sub, Point.get_move, if_true] at hcoord
    omega
  rcases Periods.mem_shifts_ofDomain.1 hs a with hzero | ⟨hwraps, hlength⟩
  · omega
  · exact ⟨hwraps, by omega⟩

namespace FiniteVolume

variable {l : LevelOperator ℚ} {e : MeshField ℚ} {i n : ℕ} {p : Point} {a : Axis} {z : ℤ}

/-- Next to its cell, the unit field is filled with zeros. -/
lemma filled_unit_next (hunit : e.UnitAt p n) (hring : ¬l.RingOfOne a) (hz : z = 1 ∨ z = -1)
    (hst : e.Stores i (p.move a z) n) : (filled l e true).get i (p.move a z) n = 0 := by
  have hne : p.move a z ≠ p := by
    intro heq
    have hcoord := congrArg (Triple.get · a) heq
    simp only [Point.get_move, if_true] at hcoord
    omega
  rw [get_filled hst]
  by_cases hbox : p.move a z ∈ e.layout.box i
  · rw [if_pos hbox, hunit i hst.1 _ hbox, if_neg hne]
  · rw [if_neg hbox]
    cases hlast : Halo.lastProvider e.layout (Halo.pairs e.layout l.geometry.periods) i
        (p.move a z) with
    | none => exact Exact.zero
    | some sj =>
        obtain ⟨hpair, -, hmem⟩ := Halo.lastProvider_mem hlast
        obtain ⟨hs, hj⟩ := Halo.mem_pairs.1 hpair
        exact (hunit _ hj _ hmem).trans (if_neg fun hback => hring (.of_shift hz hs hback))

/-- On a ring of one cell, the cell finds itself next to it. -/
lemma filled_unit_ring (hunit : e.UnitAt p n) (hring : l.RingOfOne a) (hz : z = 1 ∨ z = -1)
    (hin : e.layout.Within l.geometry.domain) (hst : e.Stores i (p.move a z) n)
    (hp : p ∈ e.layout.box i) : (filled l e true).get i (p.move a z) n = 1 := by
  obtain ⟨hwraps, hlength⟩ := hring
  have hdomain := hin i hst.1 p hp
  have hshift : Point.zero.set a z ∈ l.geometry.periods.shifts := by
    refine Periods.mem_shifts_ofDomain.2 fun c => ?_
    rw [Triple.get_set]
    split_ifs with hca
    · subst hca
      exact .inr ⟨hwraps, by omega⟩
    · exact .inl (Point.get_zero c)
  have hback : p.move a z - Point.zero.set a z = p := by
    refine Triple.ext_get fun c => ?_
    rw [Triple.get_sub, Point.get_move, Triple.get_set]
    split_ifs
    · omega
    · rw [Point.get_zero, Int.sub_zero]
  have hghost : p.move a z ∉ e.layout.box i := by
    intro hbox
    have h₁ := Box.mem_iff.1 hdomain a
    have h₂ := Box.mem_iff.1 (hin i hst.1 _ hbox) a
    rw [Point.get_move, if_pos rfl] at h₂
    rw [Box.length] at hlength
    omega
  rw [get_filled hst, if_neg hghost]
  cases hlast : Halo.lastProvider e.layout (Halo.pairs e.layout l.geometry.periods) i
      (p.move a z) with
  | none =>
      have hexposed := (Halo.lastProvider_eq_none_iff hghost).1 hlast
      exact absurd (hback.symm ▸ hp) (hexposed _ hshift i hst.1)
  | some sj =>
      obtain ⟨t, j⟩ := sj
      obtain ⟨hpair, -, hmem⟩ := Halo.lastProvider_mem hlast
      obtain ⟨ht, hj⟩ := Halo.mem_pairs.1 hpair
      -- the images of the domain do not overlap, so the value comes from the cell, in some box
      obtain rfl : t = Point.zero.set a z :=
        Periods.shift_unique ht hshift (hin j hj _ hmem) (hback.symm ▸ hdomain)
      exact (hunit j hj _ hmem).trans (if_pos hback)

end FiniteVolume

/-! ### The response of one face -/

/-- A sum over the faces taken from a number, as the fold that computes it. -/
lemma Face.foldl_sub (g : Face → ℚ) (m : ℚ) :
    Face.all.foldl (fun s f => s - g f) m = m - ∑ f, g f := by
  rw [← Face.foldl_add, Face.all_eq]
  simp only [List.foldl_cons, List.foldl_nil]
  ring

namespace FaceRule

/-- The weight of the cell in the outward derivative, exactly. -/
lemma cellWeight_eq {r : FaceRule} :
    (r.cellWeight : ℚ) =
      match r with
      | interior => -1
      | closed => 0
      | linearWall => -2
      | quadraticWall => -3 := by
  cases r with
  | interior => exact congrArg (fun w : ℚ => -w) Exact.one
  | closed => exact Exact.zero
  | linearWall => exact congrArg (fun w : ℚ => -w) Exact.two
  | quadraticWall => exact congrArg (fun w : ℚ => -w) Exact.three

/-- The derivative of a function that is one at the cell and zero next to it is the weight of the
cell. -/
lemma derivative_unit {r : FaceRule} {phi : Point → ℚ} {p : Point} {f : Face} (hself : phi p = 1)
    (hnext : ∀ z : ℤ, z = 1 ∨ z = -1 → phi (p.move f.axis z) = 0) :
    r.derivative phi p f = r.cellWeight := by
  have hstep := f.side.step_eq
  have hout : phi (p.move f.axis f.side.step) = 0 := hnext _ hstep
  have hin : phi (p.move f.axis (-f.side.step)) = 0 := hnext _ (by omega)
  rw [derivative_eq, cellWeight_eq, hself, hout, hin]
  cases r <;> norm_num

end FaceRule

namespace FiniteVolume

variable {o : FiniteVolume ℚ} {l : LevelOperator ℚ} {i : ℕ} {phi : Point → ℚ} {p : Point}
  {f : Face}

/-- What the weight of a face takes from the cell. -/
def weightFlux (o : FiniteVolume ℚ) (l : LevelOperator ℚ) (i : ℕ) (p : Point) (f : Face) : ℚ :=
  if l.inBody i p then 0
  else l.faceViscosity i p f * (o.rule l i p f).cellWeight / l.widthSquared f.axis

/-- What the weight of an open face takes from the cell although the cell is its own neighbour
there. -/
def ringFlux (o : FiniteVolume ℚ) (l : LevelOperator ℚ) (i : ℕ) (p : Point) (f : Face) : ℚ :=
  if l.inBody i p = false ∧ o.rule l i p f = .interior ∧ l.RingOfOne f.axis then
    l.faceViscosity i p f / l.widthSquared f.axis
  else 0

/-- Along an axis that wraps around there is no wall. -/
lemma rule_of_wraps (hwraps : l.geometry.periodic.get f.axis = true) :
    o.rule l i p f = .closed ∨ o.rule l i p f = .interior := by
  rw [rule_inner (.inr hwraps)]
  split_ifs
  · exact .inl rfl
  · exact .inr rfl

/-- The flux of a unit function into its cell: the weight of the face, and nothing on a ring of one
cell. -/
lemma flux_unit (hself : phi p = 1)
    (hnext : ∀ z : ℤ, z = 1 ∨ z = -1 →
      phi (p.move f.axis z) = if l.RingOfOne f.axis then 1 else 0) :
    o.flux l i phi p f = o.weightFlux l i p f + o.ringFlux l i p f := by
  rw [flux, weightFlux, ringFlux]
  by_cases hbody : l.inBody i p = true
  · simp [hbody]
  · rw [Bool.not_eq_true] at hbody
    by_cases hring : l.RingOfOne f.axis
    · rw [FaceRule.derivative_of_flat fun z hz => by rw [hnext z hz, if_pos hring, hself]]
      rcases rule_of_wraps (o := o) (i := i) (p := p) hring.1 with hrule | hrule
      · simp [hbody, hrule, FaceRule.cellWeight_eq]
      · simp only [hbody, hrule, hring, FaceRule.cellWeight_eq, and_self, if_true,
          Bool.false_eq_true, if_false]
        ring
    · rw [FaceRule.derivative_unit hself fun z hz => by rw [hnext z hz, if_neg hring]]
      simp [hbody, hring]

/-- The diagonal takes the weights of all faces from the mass term, in any order. -/
theorem diagonalAt_eq :
    o.diagonalAt l i p = o.alpha * l.mass.get i p 0 - o.beta * ∑ f, o.weightFlux l i p f := by
  by_cases hbody : l.inBody i p = true
  · have hzero : ∑ f, o.weightFlux l i p f = 0 :=
      Finset.sum_eq_zero fun f _ => by rw [weightFlux, if_pos hbody]
    rw [hzero, diagonalAt, if_pos hbody, mul_zero, sub_zero]
  · have hsub : o.subWeight l i p = fun sum f => sum - o.beta * o.weightFlux l i p f := by
      funext sum f
      rw [subWeight, weightFlux, if_neg hbody]
      ring
    rw [diagonalAt, if_neg hbody, hsub, Face.foldl_sub, Finset.mul_sum]

/-- The diagonal is the image of a unit function at its cell and what the weights take too much on
rings of one cell. -/
theorem diagonalAt_eq_image (hself : phi p = 1)
    (hnext : ∀ (a : Axis) (z : ℤ), z = 1 ∨ z = -1 →
      phi (p.move a z) = if l.RingOfOne a then 1 else 0) :
    o.diagonalAt l i p = o.image l i phi p + o.beta * ∑ f, o.ringFlux l i p f := by
  have hinflow : o.inflow l i phi p = ∑ f, o.weightFlux l i p f + ∑ f, o.ringFlux l i p f := by
    rw [inflow, ← Finset.sum_add_distrib]
    exact Finset.sum_congr rfl fun f _ => flux_unit hself (hnext f.axis)
  rw [diagonalAt_eq, image_eq, hinflow, hself]
  ring

/-! ### The response of a cell -/

/-- **The diagonal is the response of a cell to its own unit field, except on rings of one cell.**
For every operator and every cell of a level, whatever the ghosts of the unit field hold: if the
level is no ring of a single cell along any axis, the two are equal. If it is one, and its boxes lie
inside the domain, the diagonal exceeds the response by `beta` times the viscosity over the squared
width of each open face that the cell has with itself. -/
theorem diagonal_eq_apply_unit {level n : ℕ} {e diag out : MeshField ℚ} (hghosts : 1 ≤ e.ghosts)
    (hunit : e.UnitAt p n) (hi : i < e.layout.count) (hp : p ∈ e.layout.box i) (hn : n < e.ncomp)
    (hdiag : diag.layout = e.layout ∧ 0 < diag.ncomp)
    (hout : out.layout = e.layout ∧ n < out.ncomp) :
    ((∀ a, ¬(o.levels.get level).RingOfOne a) →
      (DiffusionOperator.diagonal o level diag).get i p 0
        = (DiffusionOperator.apply o level e out true).2.get i p n) ∧
    (e.layout.Within (o.levels.get level).geometry.domain →
      (DiffusionOperator.diagonal o level diag).get i p 0
        = (DiffusionOperator.apply o level e out true).2.get i p n
          + o.beta * ∑ f, o.ringFlux (o.levels.get level) i p f) := by
  have hentry : (DiffusionOperator.diagonal o level diag).get i p 0
      = o.diagonalAt (o.levels.get level) i p :=
    get_writeDiagonal (hdiag.1 ▸ hi) (hdiag.1 ▸ hp) hdiag.2
  let phi : Point → ℚ := fun q => (filled (o.levels.get level) e true).get i q n
  have hself : phi p = 1 :=
    ((filled_agrees e).valid i p n hp).trans ((hunit i hi p hp).trans (if_pos rfl))
  have hst (a : Axis) (z : ℤ) (hz : z = 1 ∨ z = -1) : e.Stores i (p.move a z) n :=
    MeshField.stores_of_next rfl hghosts hi (Box.move_mem_grow hp hz) hn
  rw [hentry, get_apply (hout.1 ▸ hi) (hout.1 ▸ hp) hout.2 hn]
  constructor
  · intro hring
    have hnone : ∑ f, o.ringFlux (o.levels.get level) i p f = 0 :=
      Finset.sum_eq_zero fun f _ => if_neg fun h => hring f.axis h.2.2
    have hnext (a : Axis) (z : ℤ) (hz : z = 1 ∨ z = -1) :
        phi (p.move a z) = if (o.levels.get level).RingOfOne a then 1 else 0 := by
      rw [if_neg (hring a)]
      exact filled_unit_next hunit (hring a) hz (hst a z hz)
    rw [diagonalAt_eq_image hself hnext, hnone, mul_zero, add_zero]
  · intro hin
    refine diagonalAt_eq_image hself fun a z hz => ?_
    split_ifs with hring
    · exact filled_unit_ring hunit hring hz hin (hst a z hz) hp
    · exact filled_unit_next hunit hring hz (hst a z hz)

/-! ### Two cells in a layer -/

/-- Two cells between walls, in a domain one cell thick that wraps around along the third axis if
asked to. -/
private def layerGeometry (wraps : Bool) : Geometry ℚ :=
  ⟨⟨⟨0, 0, 0⟩, ⟨1, 0, 0⟩, .cell⟩, ⟨0, 0, 0⟩, ⟨2, 1, 1⟩, ⟨false, false, wraps⟩⟩

/-- Each of the two cells in a box of its own. -/
private def layerLayout : Layout := .cut ⟨⟨0, 0, 0⟩, ⟨1, 0, 0⟩, .cell⟩ 1

private def layerMesh (wraps : Bool) : Hierarchy ℚ :=
  ⟨.ofList [⟨layerGeometry wraps, layerLayout, .single 2⟩], 0⟩

/-- The operator on the layer with closed walls and coefficients of one. -/
private def layerOperator (wraps : Bool) : FiniteVolume ℚ :=
  let o : FiniteVolume ℚ := DiffusionOperator.bind unbound (layerMesh wraps) (.ofList [.absent]) {}
  let o := DiffusionOperator.setBoundary o (.const .neumann)
  let o := DiffusionOperator.setAlphaBeta o 1 1
  let o := DiffusionOperator.setMass o 0 (.const layerLayout (.single 2) 1 0 1)
  DiffusionOperator.setFaceViscosity o 0
    (.ofFn fun a => .const (layerLayout.faces a) (.single 2) 1 0 1)

private lemma layerOperator_loaded (wraps : Bool) :
    Loaded (layerMesh wraps) (.ofList [.absent]) (layerOperator wraps) :=
  .faceViscosity _ _ (.mass _ _ (.scalars _ _ (.boundary _ (.bind _ _))))

/-- The field that is one at the first cell, with fives around the boxes. -/
private def layerUnit : MeshField ℚ :=
  .ofFn layerLayout (.single 2) 1 1 fun i p _ =>
    if p ∈ layerLayout.box i then if p = Point.zero then 1 else 0 else 5

private lemma layerUnit_unitAt : layerUnit.UnitAt Point.zero 0 := by
  have hpoints : ∀ i < layerLayout.count, ∀ q ∈ (layerLayout.box i).points,
      layerUnit.get i q 0 = if q = Point.zero then 1 else 0 := by decide +kernel
  exact fun i hi q hq => hpoints i hi q (Box.mem_points.2 hq)

/-- Between walls on all sides, the diagonal at the first of the two cells is its response. Where
the layer wraps around, the two are four and two, and the difference is that of the two faces that
the cell has with itself. -/
theorem diagonal_eq_apply_unit_layer :
    let entry (wraps : Bool) :=
      (DiffusionOperator.diagonal (layerOperator wraps) 0 layerUnit).get 0 Point.zero 0
    let response (wraps : Bool) :=
      (DiffusionOperator.apply (layerOperator wraps) 0 layerUnit layerUnit true).2.get 0
        Point.zero 0
    entry false = response false ∧ response false = 2 ∧
    entry true = response true
      + 1 * ∑ f, (layerOperator true).ringFlux ((layerOperator true).levels.get 0) 0 Point.zero f ∧
    entry true = 4 ∧ response true = 2 := by
  intro entry response
  have hunit (wraps : Bool) := @diagonal_eq_apply_unit (layerOperator wraps) 0 Point.zero 0 0
    layerUnit layerUnit layerUnit le_rfl layerUnit_unitAt (by decide +kernel) (by decide +kernel)
    Nat.one_pos ⟨rfl, Nat.one_pos⟩ ⟨rfl, Nat.one_pos⟩
  have hring : ∀ a, ¬((layerOperator false).levels.get 0).RingOfOne a := by
    intro a
    cases a <;> decide +kernel
  have hin : layerUnit.layout.Within ((layerOperator true).levels.get 0).geometry.domain := by
    rw [(layerOperator_loaded true).bound.geometry 0 Nat.one_pos]
    exact (Layout.cut_tiles _ 1).within
  exact ⟨(hunit false).1 hring, by decide +kernel, (hunit true).2 hin, by decide +kernel,
    by decide +kernel⟩

/-- Where the layer wraps around, the diagonal at a cell is not its response to the unit field. -/
theorem diagonal_ne_apply_unit :
    Loaded (layerMesh true) (.ofList [.absent]) (layerOperator true) ∧
    layerLayout.Tiles (layerGeometry true).domain ∧ layerUnit.UnitAt Point.zero 0 ∧
    Point.zero ∈ layerLayout.box 0 ∧
    (DiffusionOperator.diagonal (layerOperator true) 0 layerUnit).get 0 Point.zero 0
      ≠ (DiffusionOperator.apply (layerOperator true) 0 layerUnit layerUnit true).2.get 0
        Point.zero 0 :=
  ⟨layerOperator_loaded true, Layout.cut_tiles _ 1, layerUnit_unitAt, by decide +kernel,
    by decide +kernel⟩

end FiniteVolume

end MeshDiffusion
