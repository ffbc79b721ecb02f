import Mathlib.Tactic
import MeshDiffusion.Field.Reduction
import MeshDiffusion.Proofs.Operator.Coverage
import MeshDiffusion.Proofs.Operator.Decoupling
import MeshDiffusion.Proofs.Operator.Linearity

/-!
Symmetry of the homogeneous operator, in exact arithmetic.

For two fields `phi` and `psi`, what `phi` takes of the flux of `psi` through a face of a cell, less
what `psi` takes of the flux of `phi`, is `FiniteVolume.crossFlux`. It vanishes where nothing lies
across the face but a homogeneous boundary, and the two cells at a face see it with opposite signs.
So it vanishes over a whole level, and the operator is symmetric (`FiniteVolume.dot_apply_comm`).

* `MeshField.dot_eq_sum`: the sum of products of two fields as a sum over cells;
* `LevelOperator.SingleValued`: a face has the same viscosity wherever it is stored;
* `FiniteVolume.crossFlux_exposed` and `FiniteVolume.crossFlux_across` are the two cases of a face.
-/

namespace MeshDiffusion

/-! ### Sums of products -/

/-- A sum without rounding. -/
lemma Exact.sum_eq (xs : List ℚ) : Scalar.sum xs = xs.sum := by
  have hzero : (-0.0 : ℚ) = 0 := by norm_num
  rw [Scalar.sum, hzero, List.sum_eq_foldl]

/-- A sum over the cells of a layout, box by box. -/
lemma Layout.sum_cells (l : Layout) (g : ℕ → Point → ℚ) :
    ∑ i ∈ Finset.range l.count, ((l.box i).points.map (g i)).sum
      = ∑ c ∈ l.cells.toFinset, g c.1 c.2 := by
  have hboxes : ∑ i ∈ Finset.range l.count, ((l.box i).points.map (g i)).sum
      = ((List.range l.count).map fun i => ((l.box i).points.map (g i)).sum).sum := rfl
  rw [hboxes, List.sum_toFinset _ (nodup_cells l), cells, List.map_flatMap, List.flatMap_def,
    List.sum_flatten]
  simp only [List.map_map, Function.comp_def]

/-- The sum of products runs over the common components and over the cells. -/
lemma MeshField.dot_eq_sum (f g : MeshField ℚ) :
    f.dot g = ∑ n ∈ Finset.range (min f.ncomp g.ncomp),
      ∑ c ∈ f.layout.cells.toFinset, f.get c.1 c.2 n * g.get c.1 c.2 n := by
  calc f.dot g
      = ∑ i ∈ Finset.range f.layout.count, ∑ n ∈ Finset.range (min f.ncomp g.ncomp),
          ((f.layout.box i).points.map fun p => f.get i p n * g.get i p n).sum := by
        simp only [dot, Exact.sum_eq]
        rfl
    _ = ∑ n ∈ Finset.range (min f.ncomp g.ncomp), ∑ i ∈ Finset.range f.layout.count,
          ((f.layout.box i).points.map fun p => f.get i p n * g.get i p n).sum := Finset.sum_comm
    _ = _ := Finset.sum_congr rfl fun n _ =>
        Layout.sum_cells f.layout fun i p => f.get i p n * g.get i p n

/-! ### The two sides of a face -/

/-- A face has the same viscosity in every box that it belongs to, and at its periodic images. -/
def LevelOperator.SingleValued {K : Type} [Scalar K] (l : LevelOperator K) (layout : Layout) : Prop :=
  ∀ a, ∀ i < layout.count, ∀ q ∈ (layout.faces a).box i, ∀ s ∈ l.geometry.periods.shifts,
    ∀ j < layout.count, q - s ∈ (layout.faces a).box j →
      (l.viscosity.get a).get i q 0 = (l.viscosity.get a).get j (q - s) 0

/-- The two cells at a face see the same viscosity on it. -/
lemma LevelOperator.SingleValued.adjacent {K : Type} [Scalar K] {l : LevelOperator K}
    {layout : Layout} {c d : ℕ × Point} {f : Face} (h : l.SingleValued layout)
    (hc : c ∈ layout.cells) (hd : d ∈ layout.cells)
    (hadjacent : Point.Adjacent l.geometry.periods c.2 d.2 f) :
    l.faceViscosity c.1 c.2 f = l.faceViscosity d.1 d.2 f.opposite := by
  obtain ⟨hi, hp⟩ := Layout.mem_cells.1 hc
  obtain ⟨hj, hq⟩ := Layout.mem_cells.1 hd
  obtain ⟨s, hs, hmove⟩ := hadjacent
  obtain ⟨a, side⟩ := f
  obtain ⟨hlo, hhi⟩ := Layout.mem_faces_of_mem (a := a) hi hp
  obtain ⟨hlo', hhi'⟩ := Layout.mem_faces_of_mem (a := a) hj hq
  cases side with
  | lo =>
      have hface : c.2 - s = d.2.move a 1 := by
        rw [← hmove]
        exact Triple.ext_get fun b => by
          simp only [Triple.get_sub, Point.get_move, Side.step]
          split_ifs <;> omega
      have hvalue := h a c.1 hi c.2 hlo s hs d.1 hj (hface ▸ hhi')
      rw [hface] at hvalue
      exact hvalue
  | hi =>
      have hface : c.2.move a 1 - s = d.2 := hmove
      have hvalue := h a c.1 hi _ hhi s hs d.1 hj (hface ▸ hlo')
      rw [hface] at hvalue
      exact hvalue

namespace Layout

variable {l : Layout} {domain : Box} {periodic : Triple Bool} {c : ℕ × Point} {f : Face}

/-- Beyond the end of a domain that does not wrap around lies nothing. -/
lemma exposed_of_end (hin : l.Within domain) (hend : c.2.get f.axis = domain.edge f)
    (hwraps : periodic.get f.axis = false) :
    l.Exposed (.ofDomain domain periodic) (c.2.move f.axis f.side.step) := by
  intro s hs j hj hmem
  have hs' := (Periods.mem_shifts_ofDomain.1 hs f.axis).resolve_right (by simp [hwraps])
  have hbox := Box.mem_iff.1 (hin j hj _ hmem) f.axis
  rw [Triple.get_sub, Point.get_move, if_pos rfl, hs', hend] at hbox
  obtain ⟨a, side⟩ := f
  cases side with
  | lo =>
      simp only [Box.edge, Side.step] at hbox
      omega
  | hi =>
      simp only [Box.edge, Side.step] at hbox
      omega

/-- Where no box holds the cell across a face, no image does. -/
lemma exposed_of_hole (hin : l.Within domain) (hc : c ∈ l.cells)
    (hinner : c.2.get f.axis ≠ domain.edge f ∨ periodic.get f.axis = true)
    (hhole : l.across domain c f ∉ l.cells) :
    l.Exposed (.ofDomain domain periodic) (c.2.move f.axis f.side.step) := by
  have hp := hin _ (mem_cells.1 hc).1 _ (mem_cells.1 hc).2
  obtain ⟨s, hs, hmove⟩ := Box.adjacent_across hp hinner
  intro t ht j hj hmem
  have hacross : c.2.move f.axis f.side.step - s ∈ domain := hmove ▸ Box.across_mem hp
  obtain rfl : s = t := Periods.shift_unique hs ht hacross (hin j hj _ hmem)
  exact hhole (owner_mem ⟨j, hj, hmove ▸ hmem⟩)

end Layout

namespace FiniteVolume

variable {o : FiniteVolume ℚ} {l : LevelOperator ℚ} {layout : Layout} {u v : MeshField ℚ}
  {c d : ℕ × Point} {f : Face} {n : ℕ}

/-- The two cells at a face see the same of each other, and no wall reads more than its ghost. -/
structure Paired (o : FiniteVolume ℚ) (l : LevelOperator ℚ) (layout : Layout) : Prop where
  within : layout.Within l.geometry.domain
  disjoint : layout.Disjoint
  body : ∀ c ∈ layout.cells, ∀ d ∈ layout.cells, ∀ f,
    Point.Adjacent l.geometry.periods c.2 d.2 f →
      l.inBody c.1 (c.2.move f.axis f.side.step) = l.inBody d.1 d.2
  viscosity : l.SingleValued layout
  linear : ∀ i p f, o.rule l i p f ≠ .quadraticWall

/-- A field on the boxes of a layout, with a layer of ghosts, stores a component. -/
structure OnLevel (layout : Layout) (n : ℕ) (u : MeshField ℚ) : Prop where
  layout : u.layout = layout
  ghosts : 1 ≤ u.ghosts
  ncomp : n < u.ncomp

/-- What a cell sees of a component of a field with a homogeneous boundary. -/
def seen (l : LevelOperator ℚ) (u : MeshField ℚ) (n : ℕ) (c : ℕ × Point) : Point → ℚ :=
  fun q => (filled l u true).get c.1 q n

lemma OnLevel.seen_self (hu : OnLevel layout n u) (hc : c ∈ layout.cells) :
    seen l u n c c.2 = u.get c.1 c.2 n := by
  have hp : c.2 ∈ (filled l u true).layout.box c.1 := by
    have hlayout : (filled l u true).layout = layout := hu.layout
    rw [hlayout]
    exact (Layout.mem_cells.1 hc).2
  exact (filled_agrees u).valid c.1 c.2 n hp

/-- A cell sees a zero across a face with nothing behind it. -/
lemma OnLevel.seen_exposed (hu : OnLevel layout n u) (hc : c ∈ layout.cells)
    (hexposed : layout.Exposed l.geometry.periods (c.2.move f.axis f.side.step)) :
    seen l u n c (c.2.move f.axis f.side.step) = 0 := by
  obtain ⟨hi, hp⟩ := Layout.mem_cells.1 hc
  have hst := MeshField.stores_of_next hu.layout hu.ghosts hi
    (Box.move_mem_grow (a := f.axis) hp f.side.step_eq) hu.ncomp
  exact (get_filled_of_exposed hst (hu.layout ▸ hexposed)).trans Exact.zero

/-- A cell sees the adjacent cell across a face. -/
lemma OnLevel.seen_adjacent (hu : OnLevel layout n u) (hpaired : o.Paired l layout)
    (hc : c ∈ layout.cells) (hd : d ∈ layout.cells)
    (hadjacent : Point.Adjacent l.geometry.periods c.2 d.2 f) :
    seen l u n c (c.2.move f.axis f.side.step) = seen l u n d d.2 := by
  obtain ⟨hi, hp⟩ := Layout.mem_cells.1 hc
  obtain ⟨hj, hq⟩ := Layout.mem_cells.1 hd
  obtain ⟨s, hs, hmove⟩ := hadjacent
  have hst := MeshField.stores_of_next hu.layout hu.ghosts hi
    (Box.move_mem_grow (a := f.axis) hp f.side.step_eq) hu.ncomp
  have hmem : c.2.move f.axis f.side.step - s ∈ u.layout.box d.1 := by
    rw [hmove, hu.layout]
    exact hq
  have hget : (filled l u true).get c.1 (c.2.move f.axis f.side.step) n
      = u.get d.1 (c.2.move f.axis f.side.step - s) n :=
    get_filled_of_image (hu.layout ▸ hpaired.within) (hu.layout ▸ hpaired.disjoint) hst hs
      (hu.layout ▸ hj) hmem
  rw [hu.seen_self hd, ← hmove]
  exact hget

/-- What one function of cells takes of the flux of another one, less what the other one takes of
its flux. -/
def crossFlux (o : FiniteVolume ℚ) (l : LevelOperator ℚ) (i : ℕ) (phi psi : Point → ℚ) (p : Point)
    (f : Face) : ℚ :=
  phi p * o.flux l i psi p f - psi p * o.flux l i phi p f

/-- Nothing crosses a face with nothing behind it. -/
lemma crossFlux_of_zero {i : ℕ} {phi psi : Point → ℚ} {p : Point}
    (hlinear : o.rule l i p f ≠ .quadraticWall) (hphi : phi (p.move f.axis f.side.step) = 0)
    (hpsi : psi (p.move f.axis f.side.step) = 0) : o.crossFlux l i phi psi p f = 0 := by
  rw [crossFlux, flux, flux, FaceRule.derivative_eq, FaceRule.derivative_eq, hphi, hpsi]
  by_cases hbody : l.inBody i p = true
  · rw [if_pos hbody, if_pos hbody]
    ring
  · rw [if_neg hbody, if_neg hbody]
    cases hrule : o.rule l i p f with
    | interior => ring
    | closed => ring
    | linearWall => ring
    | quadraticWall => exact absurd hrule hlinear

/-- Where the domain does not end, what crosses a face is antisymmetric in its two sides. -/
lemma crossFlux_inner {i : ℕ} {phi psi : Point → ℚ} {p : Point}
    (hinner : p.get f.axis ≠ l.geometry.domain.edge f ∨ l.geometry.periodic.get f.axis = true) :
    o.crossFlux l i phi psi p f =
      if l.inBody i p = true ∨ l.inBody i (p.move f.axis f.side.step) = true then 0
      else l.faceViscosity i p f / l.widthSquared f.axis
        * (phi p * psi (p.move f.axis f.side.step) - psi p * phi (p.move f.axis f.side.step)) := by
  rw [crossFlux, flux_inner hinner, flux_inner hinner]
  split_ifs <;> ring

/-- **What crosses a face cancels between its two sides.** -/
lemma crossFlux_across (hpaired : o.Paired l layout) (hu : OnLevel layout n u)
    (hv : OnLevel layout n v) (hc : c ∈ layout.cells)
    (hd : d = layout.across l.geometry.domain c f) (hcell : d ∈ layout.cells) :
    o.crossFlux l c.1 (seen l u n c) (seen l v n c) c.2 f
      + o.crossFlux l d.1 (seen l u n d) (seen l v n d) d.2 f.opposite = 0 := by
  have hin := hpaired.within _ (Layout.mem_cells.1 hc).1 _ (Layout.mem_cells.1 hc).2
  have hpoint : d.2 = l.geometry.domain.across c.2 f := by rw [hd]; rfl
  have hedge : d.2.get f.opposite.axis = l.geometry.domain.edge f.opposite ↔
      c.2.get f.axis = l.geometry.domain.edge f := by
    rw [hpoint, Face.axis_opposite]
    exact Box.across_edge hin
  by_cases hinner : c.2.get f.axis ≠ l.geometry.domain.edge f ∨
      l.geometry.periodic.get f.axis = true
  · have hinner' : d.2.get f.opposite.axis ≠ l.geometry.domain.edge f.opposite ∨
        l.geometry.periodic.get f.opposite.axis = true := by
      rw [ne_eq, hedge, Face.axis_opposite]
      exact hinner
    have hadjacent : Point.Adjacent l.geometry.periods c.2 d.2 f := by
      rw [hpoint]
      exact Box.adjacent_across hin hinner
    have hbody := hpaired.body c hc d hcell f hadjacent
    have hbody' := hpaired.body d hcell c hc f.opposite hadjacent.symm
    rw [crossFlux_inner hinner, crossFlux_inner hinner', hbody, hbody',
      hu.seen_adjacent hpaired hc hcell hadjacent, hv.seen_adjacent hpaired hc hcell hadjacent,
      hu.seen_adjacent hpaired hcell hc hadjacent.symm,
      hv.seen_adjacent hpaired hcell hc hadjacent.symm,
      hpaired.viscosity.adjacent hc hcell hadjacent, Face.axis_opposite]
    by_cases hcovered : l.inBody c.1 c.2 = true ∨ l.inBody d.1 d.2 = true
    · rw [if_pos hcovered, if_pos hcovered.symm, add_zero]
    · rw [if_neg hcovered, if_neg (mt Or.symm hcovered)]
      ring
  · -- Here the domain ends on both sides.
    obtain ⟨hend, hwraps⟩ := not_or.1 hinner
    rw [not_not] at hend
    rw [Bool.not_eq_true] at hwraps
    have hexposed := Layout.exposed_of_end (c := c) hpaired.within hend hwraps
    have hexposed' := Layout.exposed_of_end (c := d) (f := f.opposite) hpaired.within (hedge.2 hend)
      (by rw [Face.axis_opposite]; exact hwraps)
    rw [crossFlux_of_zero (hpaired.linear _ _ _) (hu.seen_exposed hc hexposed)
        (hv.seen_exposed hc hexposed),
      crossFlux_of_zero (hpaired.linear _ _ _) (hu.seen_exposed hcell hexposed')
        (hv.seen_exposed hcell hexposed'), add_zero]

/-- Nothing crosses a face that has a cell on one side only. -/
lemma crossFlux_open (hpaired : o.Paired l layout) (hu : OnLevel layout n u)
    (hv : OnLevel layout n v) (hc : c ∈ layout.cells)
    (hhole : layout.across l.geometry.domain c f ∉ layout.cells) :
    o.crossFlux l c.1 (seen l u n c) (seen l v n c) c.2 f = 0 := by
  have hexposed : layout.Exposed l.geometry.periods (c.2.move f.axis f.side.step) := by
    by_cases hinner : c.2.get f.axis ≠ l.geometry.domain.edge f ∨
        l.geometry.periodic.get f.axis = true
    · exact Layout.exposed_of_hole hpaired.within hc hinner hhole
    · obtain ⟨hend, hwraps⟩ := not_or.1 hinner
      exact Layout.exposed_of_end hpaired.within (not_not.1 hend) (Bool.not_eq_true _ ▸ hwraps)
  exact crossFlux_of_zero (hpaired.linear _ _ _) (hu.seen_exposed hc hexposed)
    (hv.seen_exposed hc hexposed)

/-- Over a level, nothing crosses. -/
lemma sum_crossFlux (hpaired : o.Paired l layout) (hu : OnLevel layout n u)
    (hv : OnLevel layout n v) :
    ∑ c ∈ layout.cells.toFinset, ∑ f, o.crossFlux l c.1 (seen l u n c) (seen l v n c) c.2 f = 0 :=
  Layout.sum_faces hpaired.within hpaired.disjoint _
    (fun _ hc _ hcell => crossFlux_across hpaired hu hv hc rfl hcell)
    fun _ hc _ hhole => crossFlux_open hpaired hu hv hc hhole

/-! ### Symmetry -/

/-- Two images compared cell by cell differ by what crosses the faces. -/
lemma sum_mul_image_comm (hpaired : o.Paired l layout) (hu : OnLevel layout n u)
    (hv : OnLevel layout n v) :
    ∑ c ∈ layout.cells.toFinset, u.get c.1 c.2 n * o.image l c.1 (seen l v n c) c.2
      = ∑ c ∈ layout.cells.toFinset, v.get c.1 c.2 n * o.image l c.1 (seen l u n c) c.2 := by
  have hcell : ∀ c ∈ layout.cells.toFinset,
      u.get c.1 c.2 n * o.image l c.1 (seen l v n c) c.2
          - v.get c.1 c.2 n * o.image l c.1 (seen l u n c) c.2
        = -o.beta * ∑ f, o.crossFlux l c.1 (seen l u n c) (seen l v n c) c.2 f := by
    intro c hc
    rw [List.mem_toFinset] at hc
    have hcross : ∑ f, o.crossFlux l c.1 (seen l u n c) (seen l v n c) c.2 f
        = u.get c.1 c.2 n * o.inflow l c.1 (seen l v n c) c.2
          - v.get c.1 c.2 n * o.inflow l c.1 (seen l u n c) c.2 := by
      simp only [crossFlux, inflow, hu.seen_self hc, hv.seen_self hc]
      rw [Finset.sum_sub_distrib, ← Finset.mul_sum, ← Finset.mul_sum]
    rw [hcross, image_eq, image_eq, hu.seen_self hc, hv.seen_self hc]
    ring
  rw [← sub_eq_zero, ← Finset.sum_sub_distrib, Finset.sum_congr rfl hcell, ← Finset.mul_sum,
    sum_crossFlux hpaired hu hv, mul_zero]

/-- The sum of products of a field and an image, over the cells of the level. -/
lemma dot_apply {level : ℕ} {out : MeshField ℚ} (hu : u.layout = layout)
    (hout : out.layout = layout ∧ out.ncomp = v.ncomp) :
    u.dot (DiffusionOperator.apply o level v out true).2
      = ∑ n ∈ Finset.range (min u.ncomp v.ncomp), ∑ c ∈ layout.cells.toFinset,
        u.get c.1 c.2 n * o.image (o.levels.get level) c.1 (seen (o.levels.get level) v n c) c.2 := by
  have hncomp : (DiffusionOperator.apply o level v out true).2.ncomp = v.ncomp := hout.2
  rw [MeshField.dot_eq_sum, hncomp, hu]
  refine Finset.sum_congr rfl fun n hn => Finset.sum_congr rfl fun c hc => ?_
  obtain ⟨hi, hp⟩ := Layout.mem_cells.1 (List.mem_toFinset.1 hc)
  have hlt : n < v.ncomp := (Finset.mem_range.1 hn).trans_le (min_le_right _ _)
  rw [get_apply (hout.1 ▸ hi) (hout.1 ▸ hp) (hout.2 ▸ hlt) hlt]
  rfl

/-- Without a Dirichlet face no wall is quadratic. -/
lemma rule_ne_quadraticWall_of_boundary {i : ℕ} {p : Point} (h : o.boundary.get f ≠ .dirichlet) :
    o.rule l i p f ≠ .quadraticWall := by
  rw [rule]
  split_ifs
  · decide
  · decide
  · cases hkind : o.boundary.get f with
    | dirichlet => exact absurd hkind h
    | neumann => decide
    | periodic => decide
  · cases o.boundary.get f <;> decide

section Loaded

variable {h : Hierarchy ℚ} {obstacles : Levels (Obstacle ℚ)} {level : ℕ}

/-- On disjoint boxes inside the domain, the two cells at a face see the same of each other if the
obstacle and the viscosity repeat where cells do. -/
lemma Loaded.paired (ho : Loaded h obstacles o) (hlevel : level < h.active)
    (hin : (h.layout level).Within (h.geometry level).domain) (hdisj : (h.layout level).Disjoint)
    (hobstacle : ∀ b ∈ obstacles.get? level, b.Classifies)
    (hrepeats : ∀ b ∈ obstacles.get? level, ∀ s ∈ (h.geometry level).periods.shifts, ∀ p,
      b.kind (p + s) = b.kind p)
    (hviscosity : (o.levels.get level).SingleValued (h.layout level))
    (hwalls : o.wallOrder < 3 ∨ ∀ f, o.boundary.get f ≠ .dirichlet) :
    o.Paired (o.levels.get level) (h.layout level) := by
  have hgeometry := ho.bound.geometry level hlevel
  refine ⟨hgeometry ▸ hin, hdisj, fun c hc d hd f hadjacent => ?_, hviscosity, fun i p f => ?_⟩
  · obtain ⟨hi, hp⟩ := Layout.mem_cells.1 hc
    obtain ⟨hj, hq⟩ := Layout.mem_cells.1 hd
    obtain ⟨s, hs, hmove⟩ := hadjacent
    have hback : c.2.move f.axis f.side.step = d.2 + s := by
      rw [← hmove]
      exact Triple.ext_get fun a => by simp
    have hcovered : coveredAt (obstacles.get? level) (d.2 + s)
        = coveredAt (obstacles.get? level) d.2 := by
      rw [coveredAt, coveredAt]
      cases hsome : obstacles.get? level with
      | none => rfl
      | some b =>
          simp only [Option.any_some]
          rw [hrepeats b hsome s (hgeometry ▸ hs)]
    rw [ho.inBody_eq hlevel hobstacle hi (Box.move_mem_grow hp f.side.step_eq),
      ho.inBody_eq hlevel hobstacle hj (Box.mem_grow_of_mem 1 hq), hback, hcovered]
  · rcases hwalls with horder | hboundary
    · exact rule_ne_quadraticWall horder
    · exact rule_ne_quadraticWall_of_boundary (hboundary f)

/-- **The homogeneous operator is symmetric.** The boxes of the level lie inside the domain and do
not overlap, and need not fill it. The obstacle keeps its contract and repeats where cells do, a
face has one viscosity, and no wall is quadratic. -/
theorem dot_apply_comm (ho : Loaded h obstacles o) (hlevel : level < h.active)
    (hin : (h.layout level).Within (h.geometry level).domain) (hdisj : (h.layout level).Disjoint)
    (hobstacle : ∀ b ∈ obstacles.get? level, b.Classifies)
    (hrepeats : ∀ b ∈ obstacles.get? level, ∀ s ∈ (h.geometry level).periods.shifts, ∀ p,
      b.kind (p + s) = b.kind p)
    (hviscosity : (o.levels.get level).SingleValued (h.layout level))
    (hwalls : o.wallOrder < 3 ∨ ∀ f, o.boundary.get f ≠ .dirichlet)
    {u v outU outV : MeshField ℚ} (hu : u.layout = h.layout level ∧ 1 ≤ u.ghosts)
    (hv : v.layout = h.layout level ∧ 1 ≤ v.ghosts)
    (houtU : outU.layout = h.layout level ∧ outU.ncomp = u.ncomp)
    (houtV : outV.layout = h.layout level ∧ outV.ncomp = v.ncomp) :
    u.dot (DiffusionOperator.apply o level v outV true).2
      = v.dot (DiffusionOperator.apply o level u outU true).2 := by
  have hpaired := ho.paired hlevel hin hdisj hobstacle hrepeats hviscosity hwalls
  rw [dot_apply hu.1 houtV, dot_apply hv.1 houtU, min_comm]
  refine Finset.sum_congr rfl fun n hn => ?_
  have hlt := lt_min_iff.1 (Finset.mem_range.1 hn)
  exact sum_mul_image_comm hpaired ⟨hu.1, hu.2, hlt.2⟩ ⟨hv.1, hv.2, hlt.1⟩

end Loaded

/-! ### A ring with a gap -/

/-- Two rows of four cells, each closed to a ring along the first axis. -/
private def ringGeometry : Geometry ℚ :=
  ⟨⟨⟨0, 0, 0⟩, ⟨3, 1, 0⟩, .cell⟩, ⟨0, 0, 0⟩, ⟨4, 2, 1⟩, ⟨true, false, false⟩⟩

/-- The first three cells of each row, in two boxes. -/
private def ringLayout : Layout :=
  ⟨#[⟨⟨0, 0, 0⟩, ⟨1, 1, 0⟩, .cell⟩, ⟨⟨2, 0, 0⟩, ⟨2, 1, 0⟩, .cell⟩]⟩

private def ringMesh : Hierarchy ℚ := ⟨.ofList [⟨ringGeometry, ringLayout, .single 0⟩], 0⟩

/-- A post on the second cell of the second row, in every turn of the ring. -/
private def post : Obstacle ℚ :=
  let kind (p : Point) : CellKind := if p.x % 4 = 1 ∧ p.y = 1 then .covered else .regular
  ⟨kind, fun _ => .const 0, CellKind.ofBox kind⟩

/-- The post turns with the ring. -/
private lemma kind_post (s : Point) (hs : s ∈ ringGeometry.periods.shifts) (p : Point) :
    post.kind (p + s) = post.kind p := by
  have hturns : ∀ s ∈ ringGeometry.periods.shifts, s.x % 4 = 0 ∧ s.y = 0 := by decide +kernel
  obtain ⟨hx, hy⟩ := hturns s hs
  have hturn : (p.x + s.x) % 4 = p.x % 4 := by omega
  calc post.kind (p + s)
      = if (p.x + s.x) % 4 = 1 ∧ p.y + s.y = 1 then .covered else .regular := rfl
    _ = if p.x % 4 = 1 ∧ p.y = 1 then .covered else .regular := by rw [hturn, hy, add_zero]
    _ = post.kind p := rfl

/-- An operator on the ring with walls of second order and the same viscosity on all faces. -/
private def ringOperator : FiniteVolume ℚ :=
  let o : FiniteVolume ℚ := DiffusionOperator.bind unbound ringMesh (.ofList [post]) {}
  let o := DiffusionOperator.setBoundary o (.const .dirichlet)
  DiffusionOperator.setFaceViscosity o 0 (.ofFn fun a =>
    .const (ringLayout.faces a) (.single 0) 1 0 2)

/-- A field on the ring. -/
private def ringField (v : Point → ℚ) : MeshField ℚ :=
  .ofFn ringLayout (.single 0) 1 1 fun _ p _ => v p

/-- On the ring with a gap and a post, two fields have the same product with the image of the other
one, which is not zero. -/
theorem dot_apply_comm_ring :
    let u := ringField fun p => p.x + 1
    let v := ringField fun p => p.x * p.x + p.y
    u.dot (DiffusionOperator.apply ringOperator 0 v (v.zeros 1 0) true).2 = 424 ∧
    u.dot (DiffusionOperator.apply ringOperator 0 v (v.zeros 1 0) true).2
      = v.dot (DiffusionOperator.apply ringOperator 0 u (u.zeros 1 0) true).2 := by
  intro u v
  have hloaded : Loaded ringMesh (.ofList [post]) ringOperator :=
    .faceViscosity _ _ (.boundary _ (.bind _ _))
  have hin : ringLayout.Within ringGeometry.domain := by
    have hpoints : ∀ i < ringLayout.count, ∀ q ∈ (ringLayout.box i).points,
        q ∈ ringGeometry.domain := by decide +kernel
    exact fun i hi q hq => hpoints i hi q (Box.mem_points.2 hq)
  have hdisj : ringLayout.Disjoint := by
    have hpoints : ∀ i < ringLayout.count, ∀ j < ringLayout.count, ∀ q ∈ (ringLayout.box i).points,
        q ∈ ringLayout.box j → i = j := by decide +kernel
    exact fun i hi j hj q hq => hpoints i hi j hj q (Box.mem_points.2 hq)
  have hobstacle : ∀ b ∈ (Levels.ofList [post]).get? 0, b.Classifies := by
    rintro b ⟨⟩
    exact Obstacle.classifies_ofBox rfl
  have hrepeats : ∀ b ∈ (Levels.ofList [post]).get? 0, ∀ s ∈ ringGeometry.periods.shifts, ∀ p,
      b.kind (p + s) = b.kind p := by
    rintro b ⟨⟩ s hs p
    exact kind_post s hs p
  have hviscosity : (ringOperator.levels.get 0).SingleValued ringLayout := by
    have hpoints : ∀ a ∈ Axis.all, ∀ i < ringLayout.count,
        ∀ q ∈ ((ringLayout.faces a).box i).points,
          ((ringOperator.levels.get 0).viscosity.get a).get i q 0 = 2 := by decide +kernel
    intro a i hi q hq s hs j hj hq'
    rw [hpoints a (Axis.mem_all a) i hi q (Box.mem_points.2 hq),
      hpoints a (Axis.mem_all a) j hj _ (Box.mem_points.2 hq')]
  refine ⟨by decide +kernel, ?_⟩
  exact dot_apply_comm hloaded Nat.one_pos hin hdisj hobstacle hrepeats hviscosity
    (.inl (by decide)) ⟨rfl, le_rfl⟩ ⟨rfl, le_rfl⟩ ⟨rfl, rfl⟩ ⟨rfl, rfl⟩

end FiniteVolume

end MeshDiffusion
