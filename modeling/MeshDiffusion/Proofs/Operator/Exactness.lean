import Mathlib.Tactic
import MeshDiffusion.Proofs.Arith.Profile
import MeshDiffusion.Proofs.Mesh.Footprint
import MeshDiffusion.Proofs.Operator.Coverage
import MeshDiffusion.Proofs.Operator.Symmetry

/-!
Exactness on polynomials, in exact arithmetic.

Between walls where the value is prescribed, the operator does not approximate polynomials of low
degree but reproduces them. The reason is the same for every rule of a face: on a profile of degree
two, the outward derivative times the cell width is the slope and half of the curvature, whether
it is taken between two cells or through the value on a wall and two cells. The rule through one
cell loses the curvature. The slopes at the two ends of an axis cancel, and the curvatures add up
to the Laplacian.

* `Geometry.centerOf_move`, `Geometry.wallOf_eq`: the next centre is one width away, and the wall
  half a width;
* `FaceRule.derivative_parabola`: what every rule makes of a parabola;
* `FiniteVolume.Walled`: a level between walls with one viscosity;
* `MeshField.HoldsProfile`, `MeshField.HoldsOnWalls`: a profile on the cells and on the walls;
* `FiniteVolume.derivative_profile`: what a face of a cell takes from a profile, and
  `FiniteVolume.inflow_profile`: what flows in through all of them;
* `FiniteVolume.apply_profile`: so the operator is exact.
-/

namespace MeshDiffusion

/-! ### Centres and walls -/

namespace Geometry

variable {g : Geometry ℚ} {p : Point} {a : Axis} {f : Face} {z : ℤ}

/-- The place on a face of a cell where the extent ends. -/
def wallOf (g : Geometry ℚ) (p : Point) (f : Face) : Triple ℚ :=
  (g.centerOf p).set f.axis <| match f.side with
    | .lo => g.low.get f.axis
    | .hi => g.high.get f.axis

/-- The centre of the cell `z` steps along an axis is `z` widths away. -/
lemma centerOf_move :
    g.centerOf (p.move a z)
      = (g.centerOf p).set a ((g.centerOf p).get a + z * g.width a) := by
  refine Triple.ext_get fun b => ?_
  rw [Triple.get_set]
  split_ifs with hb
  · subst hb
    rw [get_centerOf, get_centerOf, Point.get_move, if_pos rfl, startAt, startAt]
    push_cast
    ring
  · rw [get_centerOf, get_centerOf, Point.get_move, if_neg hb]

/-- At the end of the domain, the wall is half a width away. -/
lemma wallOf_eq (hend : p.get f.axis = g.domain.edge f) (hcells : g.domain.length f.axis ≠ 0) :
    g.wallOf p f
      = (g.centerOf p).set f.axis
        ((g.centerOf p).get f.axis + f.side.step * (1 / 2 * g.width f.axis)) := by
  have hlength := length_mul_width hcells
  obtain ⟨a, side⟩ := f
  cases side with
  | lo =>
      have hlo : p.get a = g.domain.lo.get a := hend
      simp only [wallOf, get_centerOf, startAt, hlo, Side.step]
      congr 1
      push_cast
      ring
  | hi =>
      have hhi : p.get a = g.domain.hi.get a := hend
      have hspan : (g.domain.length a : ℚ) = g.domain.hi.get a - g.domain.lo.get a + 1 := by
        have : (g.domain.length a : ℤ) = g.domain.hi.get a - g.domain.lo.get a + 1 := by
          simp only [Box.length] at hcells ⊢
          omega
        exact_mod_cast this
      simp only [wallOf, get_centerOf, startAt, hhi, Side.step]
      congr 1
      rw [hspan] at hlength
      push_cast
      linarith

end Geometry

/-! ### One rule -/

namespace Box

variable {b : Box} {p : Point} {f : Face}

/-- Only the last cells before a face have no neighbour across it. -/
lemma move_mem (h : p ∈ b) (hinner : p.get f.axis ≠ b.edge f) :
    p.move f.axis f.side.step ∈ b := by
  have hacross := across_mem (f := f) h
  rwa [across, if_neg hinner] at hacross

/-- In a box two cells deep, no cell is the last one before both faces of an axis. -/
lemma move_back_mem (h : p ∈ b) (hdeep : 2 ≤ b.length f.axis) (hend : p.get f.axis = b.edge f) :
    p.move f.axis (-f.side.step) ∈ b := by
  have hinner : p.get f.opposite.axis ≠ b.edge f.opposite := by
    rw [Face.axis_opposite, hend]
    rw [length] at hdeep
    obtain ⟨a, side⟩ := f
    cases side with
    | lo =>
        simp only [edge, Face.opposite] at hdeep ⊢
        omega
    | hi =>
        simp only [edge, Face.opposite] at hdeep ⊢
        omega
  have hback := move_mem h hinner
  rwa [Face.axis_opposite, Face.step_opposite] at hback

end Box

namespace FaceRule

/-- How far from the centre of a cell the value beyond its face stands, in cell widths: a neighbour
at its centre, a prescribed value on the wall. -/
def reach : FaceRule → ℚ
  | interior => 1
  | closed => 0
  | linearWall => 1 / 2
  | quadraticWall => 1 / 2

/-- **Every open rule takes the slope and half of the curvature of a parabola**, the rule through
one cell of a straight line only. -/
theorem derivative_parabola {r : FaceRule} {phi : Point → ℚ} {p : Point} {f : Face}
    {v : ℚ → ℚ} {slope curvature h : ℚ}
    (hv : ∀ t, v t = v 0 + slope * t + curvature / 2 * t ^ 2) (hopen : r ≠ .closed)
    (hstraight : r = .linearWall → curvature = 0) (hself : phi p = v 0)
    (hout : phi (p.move f.axis f.side.step) = v (f.side.step * (r.reach * h)))
    (hin : r = .quadraticWall → phi (p.move f.axis (-f.side.step)) = v (-f.side.step * h)) :
    r.derivative phi p f = slope * (f.side.step * h) + curvature / 2 * h ^ 2 := by
  have hsquare : (f.side.step : ℚ) ^ 2 = 1 := by
    rcases f.side.step_eq with hz | hz <;> rw [hz] <;> norm_num
  rw [derivative_eq]
  cases r with
  | interior =>
      simp only [hself, hout, hv (_ * _), reach]
      linear_combination curvature / 2 * h ^ 2 * hsquare
  | closed => exact absurd rfl hopen
  | linearWall =>
      simp only [hself, hout, hv (_ * _), hstraight rfl, reach]
      ring
  | quadraticWall =>
      simp only [hself, hout, hin rfl, hv (_ * _), reach]
      linear_combination curvature / 2 * h ^ 2 * hsquare

end FaceRule

/-! ### Sums over the faces -/

/-- A sum over the faces, axis by axis. -/
lemma Face.sum_eq (g : Face → ℚ) : ∑ f, g f = ∑ a, (g ⟨a, .lo⟩ + g ⟨a, .hi⟩) := by
  rw [Axis.sum_eq, ← Face.foldl_add, Face.all_eq]
  simp only [List.foldl_cons, List.foldl_nil]
  ring

/-! ### Sampled profiles -/

namespace MeshField

/-- A component holds a profile at the centres of its cells. -/
def HoldsProfile (u : MeshField ℚ) (g : Geometry ℚ) (P : Profile) (n : ℕ) : Prop :=
  ∀ i < u.layout.count, ∀ p ∈ u.layout.box i, u.get i p n = P.value (g.centerOf p)

/-- The ghosts behind the walls of a domain hold a profile at the centres of the wall faces. -/
def HoldsOnWalls (bc : MeshField ℚ) (layout : Layout) (g : Geometry ℚ) (P : Profile) (n : ℕ) :
    Prop :=
  ∀ i < layout.count, ∀ p ∈ layout.box i, ∀ f : Face, p.get f.axis = g.domain.edge f →
    bc.Stores i (p.move f.axis f.side.step) n ∧
      bc.get i (p.move f.axis f.side.step) n = P.value (g.wallOf p f)

end MeshField

namespace FiniteVolume

/-- A level between walls where the value is prescribed, at least two cells deep along every axis,
without covered cells and with one viscosity on all faces. -/
structure Walled (o : FiniteVolume ℚ) (l : LevelOperator ℚ) (layout : Layout) (c : ℚ) : Prop where
  tiles : layout.Tiles l.geometry.domain
  extent : ∀ a, l.geometry.low.get a < l.geometry.high.get a
  wrapsNowhere : ∀ a, l.geometry.periodic.get a = false
  deep : ∀ a, 2 ≤ l.geometry.domain.length a
  uncovered : ∀ i < layout.count, ∀ p ∈ layout.box i, l.inBody i p = false ∧
    ∀ f : Face, l.inBody i (p.move f.axis f.side.step) = false
  prescribed : ∀ f, o.boundary.get f = .dirichlet
  uniform : ∀ a, ∀ i < layout.count, ∀ q ∈ (layout.faces a).box i,
    (l.viscosity.get a).get i q 0 = c

section Level

variable {o : FiniteVolume ℚ} {l : LevelOperator ℚ} {c : ℚ} {u bc : MeshField ℚ} {P : Profile}
  {i n : ℕ} {p : Point} {f : Face} {a : Axis} {z : ℤ}

lemma Walled.faceViscosity (hwalled : o.Walled l u.layout c) (hi : i < u.layout.count)
    (hp : p ∈ u.layout.box i) (f : Face) : l.faceViscosity i p f = c := by
  obtain ⟨hlow, hhigh⟩ := Layout.mem_faces_of_mem (a := f.axis) hi hp
  obtain ⟨a, side⟩ := f
  cases side with
  | lo => exact hwalled.uniform a i hi _ hlow
  | hi => exact hwalled.uniform a i hi _ hhigh

/-- Next to a cell and inside the domain, the filled field holds the profile. -/
lemma filled_profile (hwalled : o.Walled l u.layout c) (hu : u.HoldsProfile l.geometry P n)
    (hst : u.Stores i (p.move a z) n) (hin : p.move a z ∈ l.geometry.domain) :
    (filled l u false).get i (p.move a z) n
      = P.value ((l.geometry.centerOf p).set a
          ((l.geometry.centerOf p).get a + z * l.geometry.width a)) := by
  obtain ⟨j, hj, hq⟩ := hwalled.tiles.covers _ hin
  have hself : p.move a z - Point.zero ∈ u.layout.box j := by rwa [Point.sub_zero]
  rw [get_filled_of_image hwalled.tiles.within hwalled.tiles.disjoint hst Periods.zero_mem_shifts
    hj hself, Point.sub_zero, hu j hj _ hq, Geometry.centerOf_move]

/-- Behind a wall, the filled field holds the profile on the wall. -/
lemma filled_profile_wall (hwalled : o.Walled l u.layout c) (hbc : l.boundary? = some bc)
    (hwalls : bc.HoldsOnWalls u.layout l.geometry P n) (hi : i < u.layout.count)
    (hp : p ∈ u.layout.box i) (hst : u.Stores i (p.move f.axis f.side.step) n)
    (hend : p.get f.axis = l.geometry.domain.edge f) :
    (filled l u false).get i (p.move f.axis f.side.step) n
      = P.value ((l.geometry.centerOf p).set f.axis ((l.geometry.centerOf p).get f.axis
          + f.side.step * (1 / 2 * l.geometry.width f.axis))) := by
  have hcells : l.geometry.domain.length f.axis ≠ 0 := by
    have := hwalled.deep f.axis
    omega
  have hexposed : u.layout.Exposed l.geometry.periods (p.move f.axis f.side.step) :=
    Layout.exposed_of_end (c := (i, p)) hwalled.tiles.within hend (hwalled.wrapsNowhere f.axis)
  obtain ⟨hstores, hvalue⟩ := hwalls i hi p hp f hend
  rw [get_filled_of_exposed hst hexposed, if_neg Bool.false_ne_true, hbc, boundaryValue,
    if_pos hstores, hvalue, Geometry.wallOf_eq hend hcells]

variable (hwalled : o.Walled l u.layout c)
  (hdegree : P.totalDegree ≤ if 3 ≤ o.wallOrder then 2 else 1) (hghosts : 1 ≤ u.ghosts)
  (hu : u.HoldsProfile l.geometry P n) (hbc : l.boundary? = some bc)
  (hwalls : bc.HoldsOnWalls u.layout l.geometry P n) (hi : i < u.layout.count)
  (hp : p ∈ u.layout.box i) (hn : n < u.ncomp)

include hwalled hdegree hghosts hu hbc hwalls hi hp hn

/-- **Every face of a cell takes the slope and half of the curvature of a profile.** -/
theorem derivative_profile :
    (o.rule l i p f).derivative (fun q => (filled l u false).get i q n) p f
      = P.slope f.axis (l.geometry.centerOf p) * (f.side.step * l.geometry.width f.axis)
        + P.curvature f.axis (l.geometry.centerOf p) / 2 * l.geometry.width f.axis ^ 2 := by
  let x := l.geometry.centerOf p
  let v : ℚ → ℚ := fun t => P.value (x.set f.axis (x.get f.axis + t))
  have htwo : P.totalDegree ≤ 2 := hdegree.trans (by split_ifs <;> omega)
  have hzero : v 0 = P.value x := by simp only [v, add_zero, Triple.set_get]
  have hv : ∀ t, v t = v 0 + P.slope f.axis x * t + P.curvature f.axis x / 2 * t ^ 2 := by
    intro t
    rw [hzero]
    exact Profile.value_set htwo
  have hstep := f.side.step_eq
  have hst (z : ℤ) (hz : z = 1 ∨ z = -1) : u.Stores i (p.move f.axis z) n :=
    MeshField.stores_of_next rfl hghosts hi (Box.move_mem_grow hp hz) hn
  have hself : (filled l u false).get i p n = v 0 :=
    (((filled_agrees u).valid i p n hp).trans (hu i hi p hp)).trans hzero.symm
  have hopen := (hwalled.uncovered i hi p hp).2 f
  have hdomain := hwalled.tiles.within i hi p hp
  by_cases hend : p.get f.axis = l.geometry.domain.edge f
  · have hout := filled_profile_wall hwalled hbc hwalls hi hp (hst _ hstep) hend
    have hback := Box.move_back_mem hdomain (hwalled.deep f.axis) hend
    have hin := filled_profile hwalled hu (hst _ (by omega)) hback
    rw [Int.cast_neg] at hin
    rw [rule_wall hend (hwalled.wrapsNowhere f.axis) (hwalled.prescribed f) hopen]
    by_cases horder : 3 ≤ o.wallOrder
    · rw [if_pos ⟨horder, hwalled.deep f.axis⟩]
      exact FaceRule.derivative_parabola hv nofun nofun hself hout fun _ => hin
    · rw [if_neg fun h => horder h.1]
      rw [if_neg horder] at hdegree
      exact FaceRule.derivative_parabola hv nofun (fun _ => Profile.curvature_eq_zero hdegree) hself
        hout nofun
  · have hout := filled_profile hwalled hu (hst _ hstep) (Box.move_mem hdomain hend)
    rw [rule_inner (.inl hend), hopen, if_neg Bool.false_ne_true]
    exact FaceRule.derivative_parabola hv nofun nofun hself
      (by simpa only [FaceRule.reach, one_mul] using hout) nofun

/-- **The flux of a profile into a cell** is the viscosity times the Laplacian: the slopes at the
two ends of an axis cancel, and the curvatures add up. -/
theorem inflow_profile :
    o.inflow l i (fun q => (filled l u false).get i q n) p
      = c * P.laplacian.value (l.geometry.centerOf p) := by
  have hflux (f : Face) : o.flux l i (fun q => (filled l u false).get i q n) p f
      = c * (P.slope f.axis (l.geometry.centerOf p) * (f.side.step * l.geometry.width f.axis)
          + P.curvature f.axis (l.geometry.centerOf p) / 2 * l.geometry.width f.axis ^ 2)
        / l.geometry.width f.axis ^ 2 := by
    rw [flux, (hwalled.uncovered i hi p hp).1, if_neg Bool.false_ne_true,
      hwalled.faceViscosity hi hp,
      derivative_profile hwalled hdegree hghosts hu hbc hwalls hi hp hn, LevelOperator.widthSquared,
      pow_two]
  rw [inflow, Face.sum_eq, Profile.value_laplacian, Finset.mul_sum]
  refine Finset.sum_congr rfl fun a _ => ?_
  have hwidth : l.geometry.width a ≠ 0 :=
    (Geometry.width_pos (hwalled.extent a) (by have := hwalled.deep a; omega)).ne'
  rw [hflux, hflux]
  simp only [Side.step]
  push_cast
  field_simp
  ring

end Level

/-- **Between walls, the operator reproduces polynomials exactly.** On any tiling of a domain that
does not wrap around and is at least two cells deep, without covered cells, with prescribed values
on all walls and one viscosity `c` on all faces: if a field holds a polynomial at the centres of its
cells and the boundary values hold it at the centres of the wall faces, the image at every cell is
`alpha * a` times the polynomial less `beta * c` times its Laplacian. The degree may be two if walls
have an order of three or more, and one if not. -/
theorem apply_profile {o : FiniteVolume ℚ} {level n : ℕ} {c : ℚ} {u bc out : MeshField ℚ}
    {P : Profile} (hwalled : o.Walled (o.levels.get level) u.layout c)
    (hdegree : P.totalDegree ≤ if 3 ≤ o.wallOrder then 2 else 1) (hghosts : 1 ≤ u.ghosts)
    (hu : u.HoldsProfile (o.levels.get level).geometry P n)
    (hbc : (o.levels.get level).boundary? = some bc)
    (hwalls : bc.HoldsOnWalls u.layout (o.levels.get level).geometry P n) (hn : n < u.ncomp)
    (hout : out.layout = u.layout ∧ n < out.ncomp) :
    ∀ i < u.layout.count, ∀ p ∈ u.layout.box i,
      (DiffusionOperator.apply o level u out false).2.get i p n
        = o.alpha * (o.levels.get level).mass.get i p 0
            * P.value ((o.levels.get level).geometry.centerOf p)
          - o.beta * c * P.laplacian.value ((o.levels.get level).geometry.centerOf p) := by
  intro i hi p hp
  have hself : (filled (o.levels.get level) u false).get i p n
      = P.value ((o.levels.get level).geometry.centerOf p) :=
    ((filled_agrees u).valid i p n hp).trans (hu i hi p hp)
  rw [get_apply (hout.1 ▸ hi) (hout.1 ▸ hp) hout.2 hn, image_eq, hself,
    inflow_profile hwalled hdegree hghosts hu hbc hwalls hi hp hn]
  ring

/-! ### A crate -/

/-- Two cells along every axis, of three different widths. -/
private def crate : Geometry ℚ :=
  ⟨⟨⟨0, 0, 0⟩, ⟨1, 1, 1⟩, .cell⟩, ⟨0, 0, 0⟩, ⟨2, 4, 1⟩, .const false⟩

/-- Every cell in a box of its own. -/
private def crateLayout : Layout := .cut crate.domain 1

private def crateMesh : Hierarchy ℚ := ⟨.ofList [⟨crate, crateLayout, .single 8⟩], 0⟩

/-- A polynomial of degree two with a mixed term. -/
private noncomputable def saddle : Profile :=
  .X .x * .X .y + .C 3 * (.X .z * .X .z) - .X .x

/-- The values of the polynomial. -/
private def saddleAt (x : Triple ℚ) : ℚ := x.x * x.y + 3 * (x.z * x.z) - x.x

private lemma value_saddle (x : Triple ℚ) : saddle.value x = saddleAt x := by
  simp [saddle, saddleAt, Profile.value, Triple.get]

private lemma totalDegree_saddle : saddle.totalDegree ≤ 2 := by
  have hmixed : (.X .x * .X .y : Profile).totalDegree ≤ 1 + 1 :=
    (MvPolynomial.totalDegree_mul _ _).trans (by simp)
  have hsquare : (.X .z * .X .z : Profile).totalDegree ≤ 1 + 1 :=
    (MvPolynomial.totalDegree_mul _ _).trans (by simp)
  have hscaled : (.C 3 * (.X .z * .X .z) : Profile).totalDegree ≤ 0 + 2 :=
    (MvPolynomial.totalDegree_mul _ _).trans (add_le_add (by simp) hsquare)
  have hsum := (MvPolynomial.totalDegree_add _ _).trans (max_le hmixed hscaled)
  exact (MvPolynomial.totalDegree_sub _ _).trans (max_le hsum (by simp))

private lemma laplacian_saddle (x : Triple ℚ) : saddle.laplacian.value x = 6 := by
  rw [Profile.value_laplacian, Axis.sum_eq]
  simp [saddle, Profile.curvature, Profile.value]
  norm_num

/-- The polynomial at the centres of the cells, with nines around the boxes. -/
private def crateField : MeshField ℚ :=
  .ofFn crateLayout (.single 8) 1 1 fun i p _ =>
    if p ∈ crateLayout.box i then saddleAt (crate.centerOf p) else 9

/-- The polynomial at the centre of every ghost, moved back to the extent. -/
private def crateWalls : MeshField ℚ :=
  .ofFn crateLayout (.single 8) 1 1 fun _ p _ =>
    let x := crate.centerOf p
    saddleAt (.ofFn fun a => max (crate.low.get a) (min (crate.high.get a) (x.get a)))

/-- The operator on the crate with prescribed values on all walls. -/
private def crateOperator : FiniteVolume ℚ :=
  let o : FiniteVolume ℚ := DiffusionOperator.bind unbound crateMesh (.ofList [.absent]) {}
  let o := DiffusionOperator.setWallOrder o 3
  let o := DiffusionOperator.setBoundary o (.const .dirichlet)
  let o := DiffusionOperator.setAlphaBeta o 2 3
  let o := DiffusionOperator.setMass o 0 (.const crateLayout (.single 8) 1 0 5)
  let o := DiffusionOperator.setFaceViscosity o 0
    (.ofFn fun a => .const (crateLayout.faces a) (.single 8) 1 0 (1 / 2))
  DiffusionOperator.setBoundaryValues o 0 crateWalls

private lemma crateOperator_geometry : (crateOperator.levels.get 0).geometry = crate :=
  have hloaded : Loaded crateMesh (.ofList [.absent]) crateOperator :=
    .boundaryValues _ _ (.faceViscosity _ _ (.mass _ _ (.scalars _ _ (.boundary _
      (.wallOrder _ (.bind _ _))))))
  hloaded.bound.geometry 0 Nat.one_pos

private lemma crateOperator_walled :
    crateOperator.Walled (crateOperator.levels.get 0) crateLayout (1 / 2) where
  tiles := by
    rw [crateOperator_geometry]
    exact Layout.cut_tiles _ 1
  extent := by decide +kernel
  wrapsNowhere := by decide +kernel
  deep := by decide +kernel
  uncovered := by
    have hpoints : ∀ i < crateLayout.count, ∀ p ∈ (crateLayout.box i).points,
        (crateOperator.levels.get 0).inBody i p = false ∧ ∀ f : Face,
          (crateOperator.levels.get 0).inBody i (p.move f.axis f.side.step) = false := by
      decide +kernel
    exact fun i hi p hp => hpoints i hi p (Box.mem_points.2 hp)
  prescribed := by decide +kernel
  uniform := by
    have hpoints : ∀ a, ∀ i < crateLayout.count, ∀ q ∈ ((crateLayout.faces a).box i).points,
        ((crateOperator.levels.get 0).viscosity.get a).get i q 0 = 1 / 2 := by
      decide +kernel
    exact fun a i hi q hq => hpoints a i hi q (Box.mem_points.2 hq)

private lemma crateField_holds : crateField.HoldsProfile crate saddle 0 := by
  have hpoints : ∀ i < crateLayout.count, ∀ p ∈ (crateLayout.box i).points,
      crateField.get i p 0 = saddleAt (crate.centerOf p) := by decide +kernel
  intro i hi p hp
  rw [value_saddle]
  exact hpoints i hi p (Box.mem_points.2 hp)

private lemma crateWalls_holds : crateWalls.HoldsOnWalls crateLayout crate saddle 0 := by
  have hpoints : ∀ i < crateLayout.count, ∀ p ∈ (crateLayout.box i).points, ∀ f : Face,
      p.get f.axis = crate.domain.edge f →
        crateWalls.Stores i (p.move f.axis f.side.step) 0 ∧
          crateWalls.get i (p.move f.axis f.side.step) 0 = saddleAt (crate.wallOf p f) := by
    decide +kernel
  intro i hi p hp f hend
  rw [value_saddle]
  exact hpoints i hi p (Box.mem_points.2 hp) f hend

/-- In the crate every cell is a corner cell, with a wall of order three on one side of every axis.
The image of the polynomial at the first cell is ten times its value less one and a half times its
Laplacian. -/
theorem apply_profile_crate :
    let l := crateOperator.levels.get 0
    saddle.totalDegree ≤ 2 ∧ crateOperator.wallOrder = 3 ∧
    crateOperator.Walled l crateField.layout (1 / 2) ∧
    crateField.HoldsProfile l.geometry saddle 0 ∧ l.boundary? = some crateWalls ∧
    crateWalls.HoldsOnWalls crateField.layout l.geometry saddle 0 ∧
    Point.zero ∈ crateField.layout.box 0 ∧
    (DiffusionOperator.apply crateOperator 0 crateField crateField false).2.get 0 Point.zero 0
      = 2 * 5 * (3 / 16) - 3 * (1 / 2) * 6 := by
  intro l
  have hfield : crateField.HoldsProfile l.geometry saddle 0 :=
    crateOperator_geometry ▸ crateField_holds
  have hwalls : crateWalls.HoldsOnWalls crateField.layout l.geometry saddle 0 :=
    crateOperator_geometry ▸ crateWalls_holds
  have hbc : l.boundary? = some crateWalls :=
    congrArg LevelOperator.boundary? (Levels.get_modify_self (by decide +kernel) _)
  have hmem : Point.zero ∈ crateField.layout.box 0 := by decide +kernel
  refine ⟨totalDegree_saddle, rfl, crateOperator_walled, hfield, hbc, hwalls, hmem, ?_⟩
  have himage := apply_profile crateOperator_walled totalDegree_saddle le_rfl hfield hbc hwalls
    Nat.one_pos ⟨rfl, Nat.one_pos⟩ 0 (by decide +kernel) Point.zero hmem
  have hmass : l.mass.get 0 Point.zero 0 = 5 := by decide +kernel
  have hvalue : saddleAt (crate.centerOf Point.zero) = 3 / 16 := by decide +kernel
  rw [himage, hmass, crateOperator_geometry, value_saddle, laplacian_saddle, hvalue]
  rfl

end FiniteVolume

end MeshDiffusion
