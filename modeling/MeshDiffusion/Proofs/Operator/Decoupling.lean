import Mathlib.Tactic
import MeshDiffusion.Proofs.Operator.Coverage
import MeshDiffusion.Proofs.Operator.Filling

/-!
What a cell reads of an obstacle.

The values inside an obstacle mean nothing, so a cell of the fluid should not read them. It reads
the neighbours over its open faces, and a face towards a covered neighbour is closed. But behind a
quadratic wall it reads the cell on its other side as well, and nothing looks whether that one is
covered.

* `FaceRule.reads` are the points that a rule reads besides the cell, and `FiniteVolume.image_congr`
  says that the image of a cell depends on them only;
* `FiniteVolume.inBody_of_mem_reads`: a cell reads no covered one, except behind a quadratic
  wall;
* `FiniteVolume.apply_uncovered`: so without periodic images the fluid does not depend on what is
  stored inside the obstacle as long as no quadratic wall has a covered cell behind it, as with
  walls of second order; a covered cell depends on itself only;
* `FiniteVolume.apply_uncovered_wall`: between a wall and an obstacle one cell away the fluid does
  depend on it.
-/

namespace MeshDiffusion

variable {K : Type} [Scalar K] {phi phi' : Point → K} {p q : Point} {f : Face}

/-! ### What a face reads -/

namespace FaceRule

variable {r : FaceRule}

/-- The points that a rule reads besides the cell. -/
def reads (r : FaceRule) (p : Point) (f : Face) : List Point :=
  match r with
  | interior => [p.move f.axis f.side.step]
  | closed => []
  | linearWall => [p.move f.axis f.side.step]
  | quadraticWall => [p.move f.axis f.side.step, p.move f.axis (-f.side.step)]

/-- The outward derivative depends on the cell and on what its rule reads. -/
lemma derivative_congr_of_reads (hself : phi p = phi' p)
    (hreads : ∀ q ∈ r.reads p f, phi q = phi' q) : r.derivative phi p f = r.derivative phi' p f := by
  cases r with
  | interior =>
      have hout := hreads _ List.mem_cons_self
      simp only [derivative, hself, hout]
  | closed => rfl
  | linearWall =>
      have hout := hreads _ List.mem_cons_self
      simp only [derivative, hself, hout]
  | quadraticWall =>
      have hout := hreads _ List.mem_cons_self
      have hin := hreads _ (List.mem_cons_of_mem _ List.mem_cons_self)
      simp only [derivative, hself, hout, hin]

/-- A rule reads the points next to a cell. -/
lemma mem_grow_of_mem_reads {b : Box} (hp : p ∈ b) (hq : q ∈ r.reads p f) : q ∈ b.grow 1 := by
  have hout := Box.move_mem_grow (a := f.axis) hp f.side.step_eq
  have hin := Box.move_mem_grow (a := f.axis) (z := -f.side.step) hp
    (by have := f.side.step_eq; omega)
  cases r <;> simp only [reads, List.mem_cons, List.not_mem_nil, or_false] at hq
  · rwa [hq]
  · rwa [hq]
  · rcases hq with rfl | rfl
    · exact hout
    · exact hin

end FaceRule

namespace FiniteVolume

variable {o : FiniteVolume K} {l : LevelOperator K} {i : ℕ}

/-- The image of a cell depends on the cell and on what the rules of its faces read. -/
theorem image_congr (hself : phi p = phi' p)
    (hreads : ∀ f, ∀ q ∈ (o.rule l i p f).reads p f, phi q = phi' q) :
    o.image l i phi p = o.image l i phi' p := by
  have hflux : o.addFlux l i phi p = o.addFlux l i phi' p := by
    funext sum f
    have hderivative := FaceRule.derivative_congr_of_reads hself (hreads f)
    rw [addFlux, addFlux]
    generalize o.rule l i p f = r at hderivative ⊢
    cases r with
    | closed => rfl
    | interior => dsimp only; rw [hderivative]
    | linearWall => dsimp only; rw [hderivative]
    | quadraticWall => dsimp only; rw [hderivative]
  simp only [image, hself, hflux]

/-- A covered cell keeps its mass term only. -/
lemma image_of_inBody (hbody : l.inBody i p = true) :
    o.image l i phi p = o.alpha * l.mass.get i p 0 * phi p - o.beta * 0.0 := by
  simp only [image, hbody, if_true]

omit [Scalar K] in
/-- A face towards a covered neighbour is closed. -/
lemma rule_of_inBody (hnext : l.inBody i (p.move f.axis f.side.step) = true) :
    o.rule l i p f = .closed := by
  simp only [rule, hnext, if_true]

omit [Scalar K] in
/-- Below the third order no wall is quadratic. -/
lemma rule_ne_quadraticWall (horder : o.wallOrder < 3) : o.rule l i p f ≠ .quadraticWall := by
  rw [rule]
  split_ifs with hnext hinner hdeep
  · nofun
  · nofun
  · exact absurd hdeep.1 (Nat.not_le.2 horder)
  · cases o.boundary.get f <;> nofun

omit [Scalar K] in
/-- What a face reads is not covered, unless it is the cell behind a quadratic wall. -/
lemma inBody_of_mem_reads (hq : q ∈ (o.rule l i p f).reads p f) :
    l.inBody i q = false ∨
      o.rule l i p f = .quadraticWall ∧ q = p.move f.axis (-f.side.step) := by
  by_cases hnext : l.inBody i (p.move f.axis f.side.step) = true
  · rw [rule_of_inBody hnext] at hq
    cases hq
  · rw [Bool.not_eq_true] at hnext
    cases hrule : o.rule l i p f <;> rw [hrule] at hq <;>
      simp only [FaceRule.reads, List.mem_cons, List.not_mem_nil, or_false] at hq
    · exact .inl (hq ▸ hnext)
    · exact .inl (hq ▸ hnext)
    · exact hq.imp (fun hout => by rwa [hout]) fun hin => ⟨rfl, hin⟩

/-! ### What the fluid reads -/

section Fluid

variable {h : Hierarchy K} {obstacles : Levels (Obstacle K)} {level n : ℕ} {phi phi' : MeshField K}
  {homogeneous : Bool}

/-- Where nothing wraps around, a filled field holds at a place outside the obstacle what its cells
outside the obstacle make it hold. -/
lemma filled_uncovered (hwraps : ∀ a, l.geometry.periodic.get a = false)
    {obstacle? : Option (Obstacle K)} (hshape : phi.shape = phi'.shape)
    (hagree : ∀ i < phi.layout.count, ∀ p ∈ phi.layout.box i, coveredAt obstacle? p = false →
      phi.get i p n = phi'.get i p n)
    (hstores : phi.Stores i p n) (hfluid : coveredAt obstacle? p = false) :
    (filled l phi homogeneous).get i p n = (filled l phi' homogeneous).get i p n := by
  have hlayout : phi.layout = phi'.layout := congrArg MeshField.Shape.layout hshape
  have hshift : ∀ s ∈ l.geometry.periods.shifts, s = Point.zero := by
    intro s hs
    refine Triple.ext_get fun a => ?_
    rcases Periods.mem_shifts_ofDomain.1 hs a with hzero | ⟨hwrap, -⟩
    · rw [hzero, Point.get_zero]
    · rw [hwraps a] at hwrap
      cases hwrap
  have hstores' : phi'.Stores i p n := (MeshField.stores_iff_of_shape hshape).1 hstores
  refine get_filled_congr rfl hlayout.symm hstores hstores' (fun s hs j hj hcell => ?_) fun _ => rfl
  obtain rfl := hshift s hs
  exact hagree j hj _ hcell (by rwa [Point.sub_zero])

/-- **The fluid does not read the obstacle, except behind a quadratic wall.** On a level without
periodic axes, two fields that agree on all cells that are not covered have the same image at such
a cell, if none of its quadratic walls has a covered cell behind it; walls of an order below the
third are never quadratic. The image of a covered cell is its mass term, whatever the rest of the
field is, less `beta` times a flux of zero. -/
theorem apply_uncovered (ho : Loaded h obstacles o) (hlevel : level < h.active)
    (hwraps : ∀ a, (h.geometry level).periodic.get a = false)
    (hobstacle : ∀ b ∈ obstacles.get? level, b.Classifies)
    (hlayout : phi.layout = h.layout level) (hghosts : 1 ≤ phi.ghosts)
    (hshape : phi.shape = phi'.shape)
    (hagree : ∀ i < (h.layout level).count, ∀ p ∈ (h.layout level).box i,
      coveredAt (obstacles.get? level) p = false → ∀ n < phi.ncomp,
        phi.get i p n = phi'.get i p n) :
    ∀ (out : MeshField K) (homogeneous : Bool), out.layout = h.layout level →
      ∀ i < (h.layout level).count, ∀ p ∈ (h.layout level).box i,
      ∀ n < min out.ncomp phi.ncomp,
        (coveredAt (obstacles.get? level) p = true →
          (DiffusionOperator.apply o level phi out homogeneous).2.get i p n
            = o.alpha * (o.levels.get level).mass.get i p 0 * phi.get i p n - o.beta * 0.0) ∧
        (coveredAt (obstacles.get? level) p = false →
          (o.wallOrder < 3 ∨ ∀ f, o.rule (o.levels.get level) i p f = .quadraticWall →
            coveredAt (obstacles.get? level) (p.move f.axis (-f.side.step)) = false) →
          (DiffusionOperator.apply o level phi out homogeneous).2.get i p n
            = (DiffusionOperator.apply o level phi' out homogeneous).2.get i p n) := by
  intro out homogeneous hout i hi p hp n hn
  have hncomp : phi.ncomp = phi'.ncomp := congrArg MeshField.Shape.ncomp hshape
  have hin : p ∈ ((h.layout level).box i).grow 1 := Box.mem_grow_of_mem 1 hp
  -- what the operator writes at the cell, for any field on the level
  have himage : ∀ psi : MeshField K, psi.ncomp = phi.ncomp →
      (DiffusionOperator.apply o level psi out homogeneous).2.get i p n
        = o.image (o.levels.get level) i
            (fun q => (filled (o.levels.get level) psi homogeneous).get i q n) p := by
    intro psi hpsi
    exact get_applyFilled (f := filled (o.levels.get level) psi homogeneous) (hout ▸ hi)
      (hout ▸ hp) (lt_of_lt_of_eq hn (congrArg _ hpsi.symm))
  refine ⟨fun hcovered => ?_, fun hfluid hwalls => ?_⟩
  · rw [← ho.inBody_eq hlevel hobstacle hi hin] at hcovered
    have hvalue : (filled (o.levels.get level) phi homogeneous).get i p n = phi.get i p n :=
      (filled_agrees phi).valid i p n (by rw [← hlayout] at hp; exact hp)
    rw [himage phi rfl, image_of_inBody hcovered, hvalue]
  · rw [himage phi rfl, himage phi' hncomp.symm]
    have hfilled : ∀ q ∈ ((h.layout level).box i).grow 1,
        coveredAt (obstacles.get? level) q = false →
        (filled (o.levels.get level) phi homogeneous).get i q n
          = (filled (o.levels.get level) phi' homogeneous).get i q n := by
      intro q hq hopen
      have hlt : n < phi.ncomp := lt_of_lt_of_le hn (min_le_right _ _)
      refine filled_uncovered (by rwa [ho.bound.geometry level hlevel]) hshape ?_
        (MeshField.stores_of_next hlayout hghosts hi hq hlt) hopen
      intro j hj q hq hopen
      rw [hlayout] at hj hq
      exact hagree j hj q hq hopen n hlt
    refine image_congr (hfilled p hin hfluid) fun f q hq => ?_
    have hnext := FaceRule.mem_grow_of_mem_reads hp hq
    refine hfilled q hnext ?_
    rcases inBody_of_mem_reads hq with hopen | ⟨hrule, rfl⟩
    · rwa [ho.inBody_eq hlevel hobstacle hi hnext] at hopen
    · exact hwalls.elim (fun horder => absurd hrule (rule_ne_quadraticWall horder))
        fun hclear => hclear f hrule

end Fluid

/-! ### A lane between a wall and a pillar -/

/-- A row of cells that ends at a place. -/
private def lane (last : ℤ) : Box := ⟨⟨0, 0, 0⟩, ⟨last, 0, 0⟩, .cell⟩

/-- The row in cells of unit width. -/
private def laneGeometry (last : ℤ) : Geometry ℚ :=
  ⟨lane last, ⟨0, 0, 0⟩, ⟨last + 1, 1, 1⟩, ⟨false, false, false⟩⟩

private def laneMesh (last : ℤ) : Hierarchy ℚ :=
  ⟨.ofList [⟨laneGeometry last, .cut (lane last) 8, .single 0⟩], 0⟩

/-- A pillar that covers the last cell of the row and cuts the cell before it. -/
private def lanePillar (last : ℤ) : Obstacle ℚ :=
  let c : Cylinder ℚ := ⟨laneGeometry last, last + 1 / 2, 1 / 2, 3 / 4⟩
  ⟨c.kind, fun _ => .const 0, CellKind.ofBox c.kind⟩

/-- The operator on the row, with quadratic walls at its ends and coefficients of one. -/
private def laneOperator (last : ℤ) : FiniteVolume ℚ :=
  let o : FiniteVolume ℚ :=
    DiffusionOperator.bind unbound (laneMesh last) (.ofList [lanePillar last]) {}
  let o := DiffusionOperator.setWallOrder o 3
  let o := DiffusionOperator.setBoundary o
    ⟨⟨.dirichlet, .neumann, .neumann⟩, ⟨.dirichlet, .neumann, .neumann⟩⟩
  let o := DiffusionOperator.setAlphaBeta o 1 1
  let o := DiffusionOperator.setMass o 0 (.const (.cut (lane last) 8) (.single 0) 1 0 1)
  DiffusionOperator.setFaceViscosity o 0
    (.ofFn fun a => .const ((Layout.cut (lane last) 8).faces a) (.single 0) 1 0 1)

/-- A field on the row with the places of the cells as values, but another one inside the pillar. -/
private def laneField (last : ℤ) (inside : ℚ) : MeshField ℚ :=
  .ofFn (.cut (lane last) 8) (.single 0) 1 1 fun _ p _ => if p.x = last then inside else p.x

private lemma laneOperator_loaded (last : ℤ) :
    Loaded (laneMesh last) (.ofList [lanePillar last]) (laneOperator last) :=
  .faceViscosity _ _ <| .mass _ _ <| .scalars _ _ <| .boundary _ <| .wallOrder _ <| .bind _ _

private lemma lanePillar_classifies (last : ℤ) :
    ∀ b ∈ (Levels.ofList [lanePillar last]).get? 0, b.Classifies := by
  rintro b ⟨⟩
  exact Obstacle.classifies_ofBox rfl

/-- With a cell between them, the cell at the wall and the cell at the pillar do not depend on what
is inside the pillar, and the cell inside keeps its mass term. -/
theorem apply_uncovered_lane :
    let image (inside : ℚ) (p : Point) : ℚ := (DiffusionOperator.apply (laneOperator 2) 0
      (laneField 2 inside) (laneField 2 0) true).2.get 0 p 0
    coveredAt (some (lanePillar 2)) ⟨2, 0, 0⟩ = true ∧ image 7 ⟨2, 0, 0⟩ = 7 ∧
    image 7 ⟨0, 0, 0⟩ = image 0 ⟨0, 0, 0⟩ ∧ image 7 ⟨1, 0, 0⟩ = image 0 ⟨1, 0, 0⟩ := by
  intro image
  have hcovered : coveredAt (some (lanePillar 2)) ⟨2, 0, 0⟩ = true := by decide +kernel
  have hagree : ∀ i < (Layout.cut (lane 2) 8).count, ∀ p ∈ (Layout.cut (lane 2) 8).box i,
      coveredAt (some (lanePillar 2)) p = false → ∀ n < 1,
        (laneField 2 7).get i p n = (laneField 2 0).get i p n := by
    intro i hi p hp hfluid n hn
    have hcells : ∀ i < (Layout.cut (lane 2) 8).count,
        ∀ p ∈ ((Layout.cut (lane 2) 8).box i).points,
          coveredAt (some (lanePillar 2)) p = false → p.x ≠ 2 := by decide +kernel
    have hx := hcells i hi p (Box.mem_points.2 hp) hfluid
    simp only [laneField, MeshField.get_ofFn, if_neg hx]
    rfl
  have hlayout : (laneField 2 7).layout = (laneMesh 2).layout 0 := rfl
  have hghosts : 1 ≤ (laneField 2 7).ghosts := le_rfl
  have hshape : (laneField 2 7).shape = (laneField 2 0).shape := rfl
  have happly := apply_uncovered (laneOperator_loaded 2) Nat.one_pos
    (fun a => by cases a <;> rfl) (lanePillar_classifies 2) hlayout hghosts hshape hagree
    (laneField 2 0) true rfl 0 (by decide +kernel)
  have hopen : ∀ x ∈ [(0 : ℤ), 1], ∀ f : Face,
      (laneOperator 2).rule ((laneOperator 2).levels.get 0) 0 ⟨x, 0, 0⟩ f = .quadraticWall →
        coveredAt (some (lanePillar 2)) (Point.move ⟨x, 0, 0⟩ f.axis (-f.side.step)) = false := by
    decide +kernel
  refine ⟨hcovered, ?_, ?_, ?_⟩
  · exact ((happly ⟨2, 0, 0⟩ (by decide +kernel) 0 Nat.one_pos).1 hcovered).trans
      (by decide +kernel)
  · exact (happly ⟨0, 0, 0⟩ (by decide +kernel) 0 Nat.one_pos).2 (by decide +kernel)
      (.inr (hopen _ List.mem_cons_self))
  · exact (happly ⟨1, 0, 0⟩ (by decide +kernel) 0 Nat.one_pos).2 (by decide +kernel)
      (.inr (hopen _ (List.mem_cons_of_mem _ List.mem_cons_self)))

/-- Without a cell between them, the cell at the wall depends on what is inside the pillar, although
the two fields agree on it and it is the only cell that is not covered. -/
theorem apply_uncovered_wall :
    let image (inside : ℚ) : ℚ := (DiffusionOperator.apply (laneOperator 1) 0
      (laneField 1 inside) (laneField 1 0) true).2.get 0 ⟨0, 0, 0⟩ 0
    Loaded (laneMesh 1) (.ofList [lanePillar 1]) (laneOperator 1) ∧ (lanePillar 1).Classifies ∧
    (∀ a, (laneGeometry 1).periodic.get a = false) ∧
    coveredAt (some (lanePillar 1)) ⟨0, 0, 0⟩ = false ∧
    coveredAt (some (lanePillar 1)) ⟨1, 0, 0⟩ = true ∧
    (laneField 1 3).get 0 ⟨0, 0, 0⟩ 0 = (laneField 1 0).get 0 ⟨0, 0, 0⟩ 0 ∧
    image 3 = -1 ∧ image 0 = 0 := by
  refine ⟨laneOperator_loaded 1, lanePillar_classifies 1 _ rfl, fun a => by cases a <;> rfl,
    by decide +kernel, by decide +kernel, by decide +kernel, by decide +kernel, by decide +kernel⟩

end FiniteVolume

end MeshDiffusion
