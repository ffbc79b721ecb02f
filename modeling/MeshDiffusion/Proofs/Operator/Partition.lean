import Mathlib.Tactic
import MeshDiffusion.Proofs.Arith.Exact
import MeshDiffusion.Proofs.Index.Cutting
import MeshDiffusion.Proofs.Operator.Body
import MeshDiffusion.Proofs.Operator.Filling

/-!
Cuts of a level.

The cells of a level may be cut into boxes in many ways. What a cell reads comes from its own box,
from a ghost that repeats a cell of another box or of a periodic image, from the boundary values, or
from the second cell behind a wall, depending on where the cuts fall. Whichever it is, the operator
is the same, in any arithmetic.

* `LevelProblem` is the operator on a level as a whole: functions of the point, without boxes.
  `FiniteVolume.Realizes` says that an operator has these values in the boxes of a layout, as one
  that is bound and loaded with them does (`FiniteVolume.realizes_load`);
* `FiniteVolume.Alike`: two operators agree around a cell, and so on its image and its diagonal;
* `FiniteVolume.filled_eq_of_same_cells`: the ghosts of two cuts of a level agree;
* `FiniteVolume.apply_eq_of_same_cells`: the operator does not depend on the cut.
-/

namespace MeshDiffusion

/-! ### Operators that agree around a cell -/

section Alike

variable {K : Type} [Scalar K] {phi phi' : Point → K} {p : Point}

/-- The outward derivative reads the cell and the cells on its two sides only. -/
lemma FaceRule.derivative_congr {r : FaceRule} {f : Face} (hself : phi p = phi' p)
    (hnext : ∀ z : ℤ, z = 1 ∨ z = -1 → phi (p.move f.axis z) = phi' (p.move f.axis z)) :
    r.derivative phi p f = r.derivative phi' p f := by
  have hstep := f.side.step_eq
  have hout : phi (p.move f.axis f.side.step) = phi' (p.move f.axis f.side.step) := hnext _ hstep
  have hin : phi (p.move f.axis (-f.side.step)) = phi' (p.move f.axis (-f.side.step)) :=
    hnext _ (by omega)
  cases r with
  | interior => simp only [derivative, hself, hout]
  | closed => rfl
  | linearWall => simp only [derivative, hself, hout]
  | quadraticWall => simp only [derivative, hself, hout, hin]

namespace FiniteVolume

variable {o o' : FiniteVolume K} {l l' : LevelOperator K} {i j : ℕ}

/-- Two operators have the same coefficients at a cell, and the same covered cells around it. -/
structure Alike (o o' : FiniteVolume K) (l l' : LevelOperator K) (i j : ℕ) (p : Point) : Prop where
  alpha : o.alpha = o'.alpha
  beta : o.beta = o'.beta
  boundary : o.boundary = o'.boundary
  wallOrder : o.wallOrder = o'.wallOrder
  geometry : l.geometry = l'.geometry
  mass : l.mass.get i p 0 = l'.mass.get j p 0
  viscosity : ∀ f, l.faceViscosity i p f = l'.faceViscosity j p f
  body : l.inBody i p = l'.inBody j p
  bodyNext : ∀ f : Face,
    l.inBody i (p.move f.axis f.side.step) = l'.inBody j (p.move f.axis f.side.step)

namespace Alike

lemma rule (h : Alike o o' l l' i j p) (f : Face) : o.rule l i p f = o'.rule l' j p f := by
  simp only [FiniteVolume.rule, h.bodyNext f, h.geometry, h.boundary, h.wallOrder]

lemma widthSquared (h : Alike o o' l l' i j p) (a : Axis) :
    l.widthSquared a = l'.widthSquared a := by
  rw [LevelOperator.widthSquared, LevelOperator.widthSquared, h.geometry]

/-- The image of a cell is a function of what is around it. -/
theorem image (h : Alike o o' l l' i j p) (hself : phi p = phi' p)
    (hnext : ∀ (a : Axis) (z : ℤ), z = 1 ∨ z = -1 → phi (p.move a z) = phi' (p.move a z)) :
    o.image l i phi p = o'.image l' j phi' p := by
  have hflux : o.addFlux l i phi p = o'.addFlux l' j phi' p := by
    funext sum f
    have hderivative (r : FaceRule) : r.derivative phi p f = r.derivative phi' p f :=
      FaceRule.derivative_congr hself (hnext f.axis)
    simp only [addFlux, h.rule f, h.viscosity f, h.widthSquared, hderivative]
  simp only [FiniteVolume.image, h.alpha, h.beta, h.mass, h.body, hself, hflux]

/-- The diagonal at a cell is a function of the coefficients around it. -/
theorem diagonalAt (h : Alike o o' l l' i j p) : o.diagonalAt l i p = o'.diagonalAt l' j p := by
  have hweight : o.subWeight l i p = o'.subWeight l' j p := by
    funext sum f
    simp only [subWeight, h.rule f, h.viscosity f, h.widthSquared, h.beta]
  simp only [FiniteVolume.diagonalAt, h.alpha, h.mass, h.body, hweight]

end Alike

end FiniteVolume

end Alike

/-! ### A level as a whole -/

/-- The operator on a level, whichever boxes its cells are stored in. -/
structure LevelProblem (K : Type) where
  geometry : Geometry K
  obstacle? : Option (Obstacle K)
  boundary : DomainBoundary
  wallOrder : ℕ
  alpha : K
  beta : K
  /-- The coefficient `a` of a cell. -/
  mass : Point → K
  /-- The coefficient `b` of a face normal to an axis. -/
  viscosity : Axis → Point → K
  /-- What is prescribed next to the cells, where it is. -/
  outside? : Option (Point → ℕ → K)

variable {K : Type} [Scalar K]

/-- The value next to the cells, zero where none is prescribed. -/
def LevelProblem.outside (P : LevelProblem K) (homogeneous : Bool) (p : Point) (n : ℕ) : K :=
  match if homogeneous then none else P.outside? with
  | some v => v p n
  | none => 0.0

namespace MeshField

/-- A field on the boxes of a layout, with a layer of ghosts, has the values of a function of
cells. -/
structure Samples (f : MeshField K) (layout : Layout) (u : Point → ℕ → K) : Prop where
  onLayout : f.layout = layout
  ghosts_pos : 1 ≤ f.ghosts
  valid : ∀ i < layout.count, ∀ p ∈ layout.box i, ∀ n < f.ncomp, f.get i p n = u p n

/-- A field on the boxes of a layout, with a layer of ghosts and enough components, has the values
of a function at the ghosts next to the boxes that no image of a box holds. -/
structure Surrounds (f : MeshField K) (layout : Layout) (periods : Periods) (ncomp : ℕ)
    (v : Point → ℕ → K) : Prop where
  onLayout : f.layout = layout
  ghosts_pos : 1 ≤ f.ghosts
  ncomp_le : ncomp ≤ f.ncomp
  exposed : ∀ i < layout.count, ∀ p ∈ (layout.box i).grow 1, layout.Exposed periods p →
    ∀ n < ncomp, f.get i p n = v p n

end MeshField

namespace FiniteVolume

/-- An operator has, in the boxes of a layout, the values that a problem has on a level. -/
structure Realizes (o : FiniteVolume K) (level : ℕ) (layout : Layout) (owners : Ownership)
    (ncomp : ℕ) (P : LevelProblem K) : Prop where
  boundary : o.boundary = P.boundary
  wallOrder : o.wallOrder = P.wallOrder
  alpha : o.alpha = P.alpha
  beta : o.beta = P.beta
  geometry : (o.levels.get level).geometry = P.geometry
  covered : (o.levels.get level).covered? = P.obstacle?.bind (bodyMask layout owners)
  mass : ∀ i < layout.count, ∀ p ∈ layout.box i, (o.levels.get level).mass.get i p 0 = P.mass p
  viscosity : ∀ a, ∀ i < layout.count, ∀ p ∈ (layout.faces a).box i,
    ((o.levels.get level).viscosity.get a).get i p 0 = P.viscosity a p
  outside : Option.Rel (fun bc v => MeshField.Surrounds bc layout P.geometry.periods ncomp v)
    (o.levels.get level).boundary? P.outside?

namespace Realizes

variable {o o' : FiniteVolume K} {level level' ncomp i j n : ℕ} {layout layout' : Layout}
  {owners owners' : Ownership} {P : LevelProblem K} {phi phi' : MeshField K} {u : Point → ℕ → K}
  {homogeneous : Bool} {p s : Point}

/-- The coefficient on a face of a cell is that of the face. -/
lemma faceViscosity (h : o.Realizes level layout owners ncomp P) (hi : i < layout.count)
    (hp : p ∈ layout.box i) (f : Face) :
    (o.levels.get level).faceViscosity i p f =
      P.viscosity f.axis (match f.side with
        | .lo => p
        | .hi => p.move f.axis 1) := by
  obtain ⟨hlo, hhi⟩ := Layout.mem_faces_of_mem (a := f.axis) hi hp
  rw [LevelOperator.faceViscosity]
  cases f.side with
  | lo => exact h.viscosity _ i hi _ hlo
  | hi => exact h.viscosity _ i hi _ hhi

/-- The boundary values next to the boxes are those of the problem. -/
lemma boundaryValue (h : o.Realizes level layout owners ncomp P) (hi : i < layout.count)
    (hp : p ∈ (layout.box i).grow 1) (hexposed : layout.Exposed P.geometry.periods p)
    (hn : n < ncomp) :
    FiniteVolume.boundaryValue (if homogeneous then none else (o.levels.get level).boundary?) i p n
      = P.outside homogeneous p n := by
  cases homogeneous with
  | true => rfl
  | false =>
      have hrel := h.outside
      simp only [LevelProblem.outside, Bool.false_eq_true, if_false]
      generalize (o.levels.get level).boundary? = bc? at hrel ⊢
      generalize P.outside? = v? at hrel ⊢
      cases hrel with
      | none => rfl
      | some hbc =>
          have hst := MeshField.stores_of_next hbc.onLayout hbc.ghosts_pos hi hp
            (hn.trans_le hbc.ncomp_le)
          rw [FiniteVolume.boundaryValue, if_pos hst, hbc.exposed i hi p hp hexposed n hn]

/-- Two operators that realize one problem, each in its own boxes, are alike at every cell. -/
theorem alike (h : o.Realizes level layout owners ncomp P)
    (h' : o'.Realizes level' layout' owners' ncomp P) (hobstacle : ∀ b ∈ P.obstacle?, b.Classifies)
    (hi : i < layout.count) (hj : j < layout'.count) (hp : p ∈ layout.box i)
    (hp' : p ∈ layout'.box j) :
    Alike o o' (o.levels.get level) (o'.levels.get level') i j p := by
  have hbody : ∀ q ∈ (layout.box i).grow 1, q ∈ (layout'.box j).grow 1 →
      (o.levels.get level).inBody i q = (o'.levels.get level').inBody j q := by
    intro q hq hq'
    rw [Bool.eq_iff_iff, LevelOperator.inBody_iff h.covered hobstacle hi hq,
      LevelOperator.inBody_iff h'.covered hobstacle hj hq']
  refine ⟨h.alpha.trans h'.alpha.symm, h.beta.trans h'.beta.symm,
    h.boundary.trans h'.boundary.symm, h.wallOrder.trans h'.wallOrder.symm,
    h.geometry.trans h'.geometry.symm, ?_, fun f => ?_, ?_, fun f => ?_⟩
  · rw [h.mass i hi p hp, h'.mass j hj p hp']
  · rw [h.faceViscosity hi hp, h'.faceViscosity hj hp']
  · exact hbody p (Box.mem_grow_of_mem 1 hp) (Box.mem_grow_of_mem 1 hp')
  · exact hbody _ (Box.move_mem_grow hp f.side.step_eq) (Box.move_mem_grow hp' f.side.step_eq)

/-- A filled field has the value of a cell wherever an image of the cell lies. -/
lemma filled_image (h : o.Realizes level layout owners ncomp P)
    (hphi : phi.Samples layout u) (hin : layout.Within P.geometry.domain)
    (hdisj : layout.Disjoint) (hi : i < layout.count) (hp : p ∈ (layout.box i).grow 1)
    (hn : n < phi.ncomp) (hs : s ∈ P.geometry.periods.shifts) (hj : j < layout.count)
    (hmem : p - s ∈ layout.box j) :
    (filled (o.levels.get level) phi homogeneous).get i p n = u (p - s) n := by
  have hst := MeshField.stores_of_next hphi.onLayout hphi.ghosts_pos hi hp hn
  obtain ⟨hlayout, -, hvalid⟩ := hphi
  subst hlayout
  rw [get_filled_of_image (h.geometry ▸ hin) hdisj hst (h.geometry ▸ hs) hj hmem,
    hvalid j hj _ hmem n hn]

/-- A filled field has the boundary values of the problem where no image of a cell lies. -/
lemma filled_exposed (h : o.Realizes level layout owners ncomp P)
    (hphi : phi.Samples layout u) (hi : i < layout.count) (hp : p ∈ (layout.box i).grow 1)
    (hn : n < phi.ncomp) (hncomp : n < ncomp)
    (hexposed : layout.Exposed P.geometry.periods p) :
    (filled (o.levels.get level) phi homogeneous).get i p n = P.outside homogeneous p n := by
  have hst := MeshField.stores_of_next hphi.onLayout hphi.ghosts_pos hi hp hn
  obtain ⟨hlayout, -, -⟩ := hphi
  subst hlayout
  rw [get_filled_of_exposed hst (h.geometry ▸ hexposed), h.boundaryValue hi hp hexposed hncomp]

end Realizes

/-- An operator that is bound to a hierarchy, and loaded with the scalars of a problem and with
fields for one level. -/
def load (P : LevelProblem K) (h : Hierarchy K) (obstacles : Levels (Obstacle K)) (level : ℕ)
    (a : MeshField K) (b : Triple (MeshField K)) (bc? : Option (MeshField K)) : FiniteVolume K :=
  let o : FiniteVolume K := DiffusionOperator.bind unbound h obstacles {}
  let o := DiffusionOperator.setWallOrder o P.wallOrder
  let o := DiffusionOperator.setBoundary o P.boundary
  let o := DiffusionOperator.setAlphaBeta o P.alpha P.beta
  let o := DiffusionOperator.setMass o level a
  let o := DiffusionOperator.setFaceViscosity o level b
  match bc? with
  | some bc => DiffusionOperator.setBoundaryValues o level bc
  | none => o

/-- An operator realizes the problem whose values it is loaded with. -/
theorem realizes_load {P : LevelProblem K} {h : Hierarchy K} {obstacles : Levels (Obstacle K)}
    {level ncomp : ℕ} {a : MeshField K} {b : Triple (MeshField K)} {bc? : Option (MeshField K)}
    (hlevel : level < h.active) (hgeometry : h.geometry level = P.geometry)
    (hobstacle : obstacles.get? level = P.obstacle?)
    (hmass : ∀ i < (h.layout level).count, ∀ p ∈ (h.layout level).box i, a.get i p 0 = P.mass p)
    (hviscosity : ∀ c, ∀ i < (h.layout level).count, ∀ p ∈ ((h.layout level).faces c).box i,
      (b.get c).get i p 0 = P.viscosity c p)
    (houtside : Option.Rel
      (fun bc v => MeshField.Surrounds bc (h.layout level) P.geometry.periods ncomp v)
      bc? P.outside?) :
    (load P h obstacles level a b bc?).Realizes level (h.layout level) (h.owners level) ncomp P := by
  let bound : LevelOperator K := .ofLevel (h.level level) (obstacles.get? level)
  have hloaded : (load P h obstacles level a b bc?).levels.get level
      = { bound with
          mass := bound.mass.copy a 0 0 1 0
          viscosity := .ofFn fun c => (bound.viscosity.get c).copy (b.get c) 0 0 1 0
          boundary? := bc? } := by
    have hcount : level < (Levels.ofFn h.active fun l =>
        LevelOperator.ofLevel (h.level l) (obstacles.get? l)).count := by
      rwa [Levels.count_ofFn]
    cases bc? <;>
      simp only [load, DiffusionOperator.bind, DiffusionOperator.setWallOrder,
        DiffusionOperator.setBoundary, DiffusionOperator.setAlphaBeta, DiffusionOperator.setMass,
        DiffusionOperator.setFaceViscosity, DiffusionOperator.setBoundaryValues, onLevel,
        Levels.get_modify_self, Levels.count_modify, hcount, Levels.get_ofFn hlevel] <;> rfl
  have hscalars : (load P h obstacles level a b bc?).boundary = P.boundary ∧
      (load P h obstacles level a b bc?).wallOrder = P.wallOrder ∧
      (load P h obstacles level a b bc?).alpha = P.alpha ∧
      (load P h obstacles level a b bc?).beta = P.beta := by
    cases bc? <;> exact ⟨rfl, rfl, rfl, rfl⟩
  obtain ⟨hboundary, horder, halpha, hbeta⟩ := hscalars
  refine ⟨hboundary, horder, halpha, hbeta, ?_, ?_, fun i hi p hp => ?_, fun c i hi p hp => ?_, ?_⟩
  · rw [hloaded]
    exact hgeometry
  · rw [hloaded, ← hobstacle]
    rfl
  · rw [hloaded, ← hmass i hi p hp]
    exact MeshField.get_copy_of_mem
      (MeshField.stores_of_shape (MeshField.shape_const ..) hi hp Nat.one_pos) Nat.one_pos
  · rw [hloaded, ← hviscosity c i hi p hp]
    simp only [Triple.get_ofFn, bound, LevelOperator.ofLevel]
    exact MeshField.get_copy_of_mem (MeshField.stores_of_shape (MeshField.shape_const ..)
      (by rwa [Layout.count_faces]) hp Nat.one_pos) Nat.one_pos
  · rw [hloaded]
    exact houtside

/-! ### Two cuts of a level -/

section Cuts

variable {o₁ o₂ : FiniteVolume K} {level₁ level₂ ncomp i j n : ℕ} {cut₁ cut₂ : Layout}
  {owners₁ owners₂ : Ownership} {P : LevelProblem K} {phi₁ phi₂ : MeshField K}
  {u : Point → ℕ → K} {homogeneous : Bool} {p : Point}

/-- **The ghosts of two cuts of a level agree.** A point next to a box of each has one value,
whatever box it lies in or is copied from. -/
theorem filled_eq_of_same_cells (h₁ : o₁.Realizes level₁ cut₁ owners₁ ncomp P)
    (h₂ : o₂.Realizes level₂ cut₂ owners₂ ncomp P)
    (hin : cut₁.Within P.geometry.domain) (hdisj₁ : cut₁.Disjoint) (hdisj₂ : cut₂.Disjoint)
    (hcells : ∀ q, cut₁.contains q = cut₂.contains q)
    (hphi₁ : phi₁.Samples cut₁ u) (hphi₂ : phi₂.Samples cut₂ u)
    (hi : i < cut₁.count) (hj : j < cut₂.count) (hp₁ : p ∈ (cut₁.box i).grow 1)
    (hp₂ : p ∈ (cut₂.box j).grow 1) (hn₁ : n < phi₁.ncomp) (hn₂ : n < phi₂.ncomp)
    (hn : n < ncomp) :
    (filled (o₁.levels.get level₁) phi₁ homogeneous).get i p n
      = (filled (o₂.levels.get level₂) phi₂ homogeneous).get j p n := by
  have hsame : ∀ q, (∃ k < cut₁.count, q ∈ cut₁.box k) ↔ ∃ k < cut₂.count, q ∈ cut₂.box k := by
    intro q
    rw [← Layout.contains_iff, ← Layout.contains_iff, hcells q]
  have hin₂ : cut₂.Within P.geometry.domain := by
    intro k hk q hq
    obtain ⟨k', hk', hq'⟩ := (hsame q).2 ⟨k, hk, hq⟩
    exact hin k' hk' q hq'
  by_cases hexposed : cut₁.Exposed P.geometry.periods p
  · have hexposed₂ : cut₂.Exposed P.geometry.periods p := by
      intro s hs k hk hmem
      obtain ⟨k', hk', hmem'⟩ := (hsame _).2 ⟨k, hk, hmem⟩
      exact hexposed s hs k' hk' hmem'
    rw [h₁.filled_exposed hphi₁ hi hp₁ hn₁ hn hexposed,
      h₂.filled_exposed hphi₂ hj hp₂ hn₂ hn hexposed₂]
  · obtain ⟨s, hs, k₁, hk₁, hmem₁⟩ := Layout.not_exposed_iff.1 hexposed
    obtain ⟨k₂, hk₂, hmem₂⟩ := (hsame _).1 ⟨k₁, hk₁, hmem₁⟩
    rw [h₁.filled_image hphi₁ hin hdisj₁ hi hp₁ hn₁ hs hk₁ hmem₁,
      h₂.filled_image hphi₂ hin₂ hdisj₂ hj hp₂ hn₂ hs hk₂ hmem₂]

/-- **The operator does not depend on the cut.** Two operators that realize one problem on disjoint
boxes with the same cells give every cell the same image, and the same diagonal, in any
arithmetic. -/
theorem apply_eq_of_same_cells (h₁ : o₁.Realizes level₁ cut₁ owners₁ ncomp P)
    (h₂ : o₂.Realizes level₂ cut₂ owners₂ ncomp P) (hobstacle : ∀ b ∈ P.obstacle?, b.Classifies)
    (hin : cut₁.Within P.geometry.domain) (hdisj₁ : cut₁.Disjoint) (hdisj₂ : cut₂.Disjoint)
    (hcells : ∀ q, cut₁.contains q = cut₂.contains q)
    (hphi₁ : phi₁.Samples cut₁ u) (hphi₂ : phi₂.Samples cut₂ u)
    (hncomp₁ : phi₁.ncomp = ncomp) (hncomp₂ : phi₂.ncomp = ncomp) :
    ∀ out₁ out₂ : MeshField K, out₁.layout = cut₁ → out₂.layout = cut₂ →
      ∀ i < cut₁.count, ∀ j < cut₂.count, ∀ p ∈ cut₁.box i, p ∈ cut₂.box j →
        (∀ homogeneous, ∀ n < ncomp, n < out₁.ncomp → n < out₂.ncomp →
          (DiffusionOperator.apply o₁ level₁ phi₁ out₁ homogeneous).2.get i p n
            = (DiffusionOperator.apply o₂ level₂ phi₂ out₂ homogeneous).2.get j p n) ∧
        (0 < out₁.ncomp → 0 < out₂.ncomp →
          (DiffusionOperator.diagonal o₁ level₁ out₁).get i p 0
            = (DiffusionOperator.diagonal o₂ level₂ out₂).get j p 0) := by
  rintro out₁ out₂ rfl rfl i hi j hj p hp₁ hp₂
  have halike := h₁.alike h₂ hobstacle hi hj hp₁ hp₂
  refine ⟨fun homogeneous n hn hout₁ hout₂ => ?_, fun hout₁ hout₂ => ?_⟩
  · have hfilled : ∀ q ∈ (out₁.layout.box i).grow 1, q ∈ (out₂.layout.box j).grow 1 →
        (filled (o₁.levels.get level₁) phi₁ homogeneous).get i q n
          = (filled (o₂.levels.get level₂) phi₂ homogeneous).get j q n := fun q hq₁ hq₂ =>
      filled_eq_of_same_cells h₁ h₂ hin hdisj₁ hdisj₂ hcells hphi₁ hphi₂ hi hj hq₁ hq₂
        (hncomp₁ ▸ hn) (hncomp₂ ▸ hn) hn
    have hmin₁ : n < min out₁.ncomp
        (filled (o₁.levels.get level₁) phi₁ homogeneous).ncomp := lt_min hout₁ (hncomp₁ ▸ hn)
    have hmin₂ : n < min out₂.ncomp
        (filled (o₂.levels.get level₂) phi₂ homogeneous).ncomp := lt_min hout₂ (hncomp₂ ▸ hn)
    refine (get_applyFilled hi hp₁ hmin₁).trans (Eq.trans ?_ (get_applyFilled hj hp₂ hmin₂).symm)
    refine halike.image ?_ fun a z hz => ?_
    · exact hfilled p (Box.mem_grow_of_mem 1 hp₁) (Box.mem_grow_of_mem 1 hp₂)
    · exact hfilled _ (Box.move_mem_grow hp₁ hz) (Box.move_mem_grow hp₂ hz)
  · refine (get_writeDiagonal hi hp₁ hout₁).trans ?_
    rw [halike.diagonalAt]
    exact (get_writeDiagonal hj hp₂ hout₂).symm

end Cuts

/-! ### A strip of four cells -/

/-- Four cells in a row. -/
private def strip : Box := ⟨⟨0, 0, 0⟩, ⟨3, 0, 0⟩, .cell⟩

/-- A strip between two walls, with a value of five prescribed on them. -/
private def stripProblem : LevelProblem ℚ where
  geometry := ⟨strip, ⟨0, 0, 0⟩, ⟨4, 1, 1⟩, ⟨false, true, true⟩⟩
  obstacle? := some .absent
  boundary := ⟨⟨.dirichlet, .periodic, .periodic⟩, ⟨.dirichlet, .periodic, .periodic⟩⟩
  wallOrder := 3
  alpha := 1
  beta := 1
  mass p := p.x
  viscosity _ p := p.x + 1
  outside? := some fun _ _ => 5

/-- The strip in boxes no longer than a given length. -/
private def stripMesh (m : ℕ) : Hierarchy ℚ :=
  ⟨.ofList [⟨stripProblem.geometry, .cut strip m, .single 0⟩], 0⟩

/-- The operator on the strip in boxes no longer than a given length. -/
private def stripOperator (m : ℕ) : FiniteVolume ℚ :=
  load stripProblem (stripMesh m) (.ofList [.absent]) 0
    (.ofFn (.cut strip m) (.single 0) 1 0 fun _ p _ => stripProblem.mass p)
    (.ofFn fun c => .ofFn ((Layout.cut strip m).faces c) (.single 0) 1 0 fun _ p _ =>
      stripProblem.viscosity c p)
    (some <| .ofFn (.cut strip m) (.single 0) 1 1 fun _ _ _ => 5)

/-- The squares of the places of the cells, with zeros around the boxes. -/
private def stripSquares (m : ℕ) : MeshField ℚ :=
  .ofFn (.cut strip m) (.single 0) 1 1 fun i p _ =>
    if p ∈ (Layout.cut strip m).box i then (p.x : ℚ) * p.x else 0

private lemma stripOperator_realizes (m : ℕ) :
    (stripOperator m).Realizes 0 (.cut strip m) (.single 0) 1 stripProblem := by
  refine realizes_load (h := stripMesh m) Nat.one_pos rfl rfl (fun i hi p hp => ?_)
    (fun c i hi p hp => ?_) (.some ⟨rfl, le_rfl, le_rfl, fun i hi p hp _ n hn => ?_⟩)
  · exact (MeshField.get_ofFn ..).trans (if_pos ⟨hi, Box.mem_grow_of_mem 0 hp, Nat.one_pos⟩)
  · simp only [Triple.get_ofFn]
    have hi' : i < ((Layout.cut strip m).faces c).count := by
      rw [Layout.count_faces]
      exact hi
    exact (MeshField.get_ofFn ..).trans (if_pos ⟨hi', Box.mem_grow_of_mem 0 hp, Nat.one_pos⟩)
  · exact (MeshField.get_ofFn ..).trans (if_pos ⟨hi, hp, hn⟩)

private lemma stripSquares_samples (m : ℕ) :
    (stripSquares m).Samples (.cut strip m) fun p _ => (p.x : ℚ) * p.x where
  onLayout := rfl
  ghosts_pos := le_rfl
  valid i hi p hp n hn := by
    refine (MeshField.get_ofFn ..).trans ?_
    rw [if_pos ⟨hi, Box.mem_grow_of_mem 1 hp, hn⟩, if_pos hp]

private lemma contains_cut_strip (m : ℕ) (q : Point) :
    (Layout.cut strip m).contains q = true ↔ q ∈ strip := by
  obtain ⟨hwithin, -, hcovers⟩ := Layout.cut_tiles strip m
  rw [Layout.contains_iff]
  constructor
  · rintro ⟨j, hj, hq⟩
    exact hwithin j hj q hq
  · exact hcovers q

/-- Next to a wall, the strip in one box and in boxes of one cell each give the same image and the
same diagonal, although the second cell behind the wall lies in another box. -/
theorem apply_eq_of_same_cells_strip :
    let whole := DiffusionOperator.apply (stripOperator 4) 0 (stripSquares 4) (stripSquares 4) false
    let pieces :=
      DiffusionOperator.apply (stripOperator 1) 0 (stripSquares 1) (stripSquares 1) false
    (Layout.cut strip 4).count = 1 ∧ (Layout.cut strip 1).count = 4 ∧
    whole.2.get 0 ⟨3, 0, 0⟩ 0 = 326 / 3 ∧
    whole.2.get 0 ⟨3, 0, 0⟩ 0 = pieces.2.get 3 ⟨3, 0, 0⟩ 0 ∧
    (DiffusionOperator.diagonal (stripOperator 4) 0 (stripSquares 4)).get 0 ⟨3, 0, 0⟩ 0
      = (DiffusionOperator.diagonal (stripOperator 1) 0 (stripSquares 1)).get 3 ⟨3, 0, 0⟩ 0 := by
  have hwhole := Layout.cut_tiles strip 4
  have hpieces := Layout.cut_tiles strip 1
  have hcells : ∀ q, (Layout.cut strip 4).contains q = (Layout.cut strip 1).contains q := by
    intro q
    rw [Bool.eq_iff_iff, contains_cut_strip, contains_cut_strip]
  have hobstacle : ∀ b ∈ stripProblem.obstacle?, b.Classifies := by
    rintro b ⟨⟩
    exact Obstacle.absent_classifies
  obtain ⟨happly, hdiagonal⟩ := apply_eq_of_same_cells (stripOperator_realizes 4)
    (stripOperator_realizes 1) hobstacle hwhole.within hwhole.disjoint hpieces.disjoint hcells
    (stripSquares_samples 4) (stripSquares_samples 1) rfl rfl (stripSquares 4) (stripSquares 1)
    rfl rfl 0 (by decide +kernel) 3 (by decide +kernel) ⟨3, 0, 0⟩ (by decide +kernel)
    (by decide +kernel)
  exact ⟨by decide +kernel, by decide +kernel, by decide +kernel,
    happly false 0 Nat.one_pos Nat.one_pos Nat.one_pos, hdiagonal Nat.one_pos Nat.one_pos⟩

end FiniteVolume

end MeshDiffusion
