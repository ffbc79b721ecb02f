import Mathlib.Tactic
import MeshDiffusion.Proofs.Access.Field
import MeshDiffusion.Proofs.Operator.Filling

/-!
Access of the operator.

The operator at a cell reads the cell and the cells next to it along the axes, the mask of covered
cells at the same places, and the coefficients of the cell and of its faces. All of these are stored
when the coefficients fit the layout of the level (`LevelOperator.Fits`) and the field that it is
applied to has a layer of ghosts.

* `Checked.image_eq` and `Checked.diagonalAt_eq`: one cell, whatever the rules of its faces are;
* `Checked.filled_eq`: filling of ghosts, also where the boundary values have a smaller halo or
  fewer components;
* `Checked.apply_eq`, `Checked.diagonal_eq`, `Checked.fillHalo_eq`: the operator on a level;
* `Checked.onLevel_eq`, `Checked.bindOperator_eq`: loading of coefficients, which keeps the operator
  on the boxes of the level, and binding to a hierarchy.
-/

namespace MeshDiffusion

/-- The coefficients of a level live on the boxes of a layout and on their faces, and its mask
covers the layer around the boxes. -/
structure LevelOperator.Fits {K : Type} (l : LevelOperator K) (layout : Layout) : Prop where
  mass : l.mass.Fits layout 1 0
  viscosity : ∀ a, (l.viscosity.get a).Fits (layout.faces a) 1 0
  obstacleViscosity : l.obstacleViscosity.Fits layout 1 0
  covered : ∀ m, l.covered? = some m → m.Fits layout 1 1
  boundary : ∀ bc, l.boundary? = some bc → bc.layout = layout

/-- The operator is bound to a level, with coefficients on the boxes of a layout. -/
structure FiniteVolume.FitsAt {K : Type} [Scalar K] (o : FiniteVolume K) (level : ℕ)
    (layout : Layout) : Prop where
  level_lt : level < o.levels.count
  fits : (o.levels.get level).Fits layout

lemma shape_bodyMask {K : Type} {layout : Layout} {owners : Ownership} {o : Obstacle K}
    {m : MeshField Bool} (h : bodyMask layout owners o = some m) :
    m.shape = ⟨layout, owners, 1, 1⟩ := by
  rw [bodyMask] at h
  split_ifs at h
  cases h
  rfl

namespace Checked

variable {K : Type} [Scalar K]

/-! ### One cell -/

/-- The cell, as stored for a box, is covered. -/
def inBody (l : LevelOperator K) (i : ℕ) (p : Point) : Option Bool :=
  match l.covered? with
  | some m => read m i p 0
  | none => some false

/-- The coefficient `b` on a face of a cell. -/
def faceViscosity (l : LevelOperator K) (i : ℕ) (p : Point) (f : Face) : Option K :=
  let q := match f.side with
    | .lo => p
    | .hi => p.move f.axis 1
  read (l.viscosity.get f.axis) i q 0

/-- The rule for a face of a cell. -/
def rule (o : FiniteVolume K) (l : LevelOperator K) (i : ℕ) (p : Point) (f : Face) :
    Option FaceRule := do
  let domain := l.geometry.domain
  let edge := match f.side with
    | .lo => domain.lo.get f.axis
    | .hi => domain.hi.get f.axis
  if ← inBody l i (p.move f.axis f.side.step) then return .closed
  else if l.geometry.periodic.get f.axis || p.get f.axis != edge then return .interior
  else match o.boundary.get f with
    | .periodic => return .interior
    | .neumann => return .closed
    | .dirichlet =>
      return if 3 ≤ o.wallOrder ∧ 2 ≤ domain.length f.axis then .quadraticWall else .linearWall

/-- The outward derivative of a function of cells through a face of a cell, times the cell width. -/
def derivative (r : FaceRule) (phi : Point → Option K) (p : Point) (f : Face) : Option K := do
  let here ← phi p
  match r with
  | .interior =>
    let next ← phi (p.move f.axis f.side.step)
    return next - here
  | .closed => return 0.0
  | .linearWall =>
    let next ← phi (p.move f.axis f.side.step)
    return 2.0 * (next - here)
  | .quadraticWall =>
    let next ← phi (p.move f.axis f.side.step)
    let inner ← phi (p.move f.axis (-f.side.step))
    return (8.0 * next - 9.0 * here + inner) / 3.0

/-- The flux into a cell through a face, added to the flux through others. -/
def addFlux (o : FiniteVolume K) (l : LevelOperator K) (i : ℕ) (phi : Point → Option K) (p : Point)
    (sum : K) (f : Face) : Option K := do
  match ← rule o l i p f with
  | .closed => return sum
  | r =>
    let b ← faceViscosity l i p f
    let d ← derivative r phi p f
    return sum + b * d / l.widthSquared f.axis

/-- The image of a function of cells at one cell. -/
def image (o : FiniteVolume K) (l : LevelOperator K) (i : ℕ) (phi : Point → Option K) (p : Point) :
    Option K := do
  let covered ← inBody l i p
  let a ← read l.mass i p 0
  let here ← phi p
  let flux ← if covered then some 0.0 else Face.all.foldlM (addFlux o l i phi p) 0.0
  return o.alpha * a * here - o.beta * flux

/-- Takes the weight of a cell in the flux through a face from a sum. -/
def subWeight (o : FiniteVolume K) (l : LevelOperator K) (i : ℕ) (p : Point) (sum : K) (f : Face) :
    Option K := do
  let r ← rule o l i p f
  let b ← faceViscosity l i p f
  return sum - o.beta * b * r.cellWeight / l.widthSquared f.axis

/-- The diagonal of the operator at one cell. -/
def diagonalAt (o : FiniteVolume K) (l : LevelOperator K) (i : ℕ) (p : Point) : Option K := do
  let a ← read l.mass i p 0
  if ← inBody l i p then return o.alpha * a
  else Face.all.foldlM (subWeight o l i p) (o.alpha * a)

section Cell

variable {o : FiniteVolume K} {l : LevelOperator K} {layout : Layout} {i : ℕ} {p : Point} {f : Face}
  {phi : Point → Option K} {psi : Point → K}

omit [Scalar K] in
/-- The mask reaches over the layer around the boxes. -/
lemma inBody_eq (h : l.Fits layout) (hi : i < layout.count) (hp : p ∈ (layout.box i).grow 1) :
    inBody l i p = some (l.inBody i p) := by
  rw [inBody, LevelOperator.inBody]
  cases hm : l.covered? with
  | none => rfl
  | some m => exact read_of_stores ((h.covered m hm).stores hi hp Nat.zero_lt_one)

/-- Both faces of a cell along an axis are faces of its box. -/
lemma faceViscosity_eq (h : l.Fits layout) (hi : i < layout.count) (hp : p ∈ layout.box i) :
    faceViscosity l i p f = some (l.faceViscosity i p f) := by
  have hfaces := Layout.mem_faces_of_mem (a := f.axis) hi hp
  have hface : (match f.side with
      | .lo => p
      | .hi => p.move f.axis 1) ∈ (layout.faces f.axis).box i := by
    cases f.side
    · exact hfaces.1
    · exact hfaces.2
  have hcount : i < (layout.faces f.axis).count := by rwa [Layout.count_faces]
  exact read_of_stores ((h.viscosity f.axis).stores hcount (Box.mem_grow_of_mem 0 hface)
    Nat.zero_lt_one)

omit [Scalar K] in
lemma rule_eq (h : l.Fits layout) (hi : i < layout.count) (hp : p ∈ layout.box i) :
    rule o l i p f = some (o.rule l i p f) := by
  have hnext := Box.move_mem_grow (a := f.axis) hp f.side.step_eq
  simp only [rule, FiniteVolume.rule, inBody_eq h hi hnext, Option.bind_eq_bind, Option.bind_some]
  by_cases hclosed : l.inBody i (p.move f.axis f.side.step) = true
  · rw [if_pos hclosed, if_pos hclosed]
    rfl
  · rw [if_neg hclosed, if_neg hclosed]
    generalize (l.geometry.periodic.get f.axis || p.get f.axis != _) = away
    cases away
    · cases o.boundary.get f <;> rfl
    · rfl

omit [Scalar K] in
/-- A function of cells that is read around a box is read at the neighbours of its cells. -/
lemma read_next (hphi : ∀ q ∈ (layout.box i).grow 1, phi q = some (psi q)) (hp : p ∈ layout.box i)
    {z : ℤ} (hz : z = 1 ∨ z = -1) : phi (p.move f.axis z) = some (psi (p.move f.axis z)) :=
  hphi _ (Box.move_mem_grow hp hz)

lemma derivative_eq (hphi : ∀ q ∈ (layout.box i).grow 1, phi q = some (psi q))
    (hp : p ∈ layout.box i) (r : FaceRule) :
    derivative r phi p f = some (r.derivative psi p f) := by
  have hhere := hphi p (Box.mem_grow_of_mem 1 hp)
  have hnext := read_next (f := f) hphi hp f.side.step_eq
  have hinner := read_next (f := f) hphi hp (z := -f.side.step)
    (by rcases f.side.step_eq with h | h <;> simp [h])
  cases r <;>
    simp only [derivative, hhere, hnext, hinner, Option.bind_eq_bind, Option.bind_some] <;> rfl

lemma addFlux_eq (h : l.Fits layout) (hphi : ∀ q ∈ (layout.box i).grow 1, phi q = some (psi q))
    (hi : i < layout.count) (hp : p ∈ layout.box i) (sum : K) :
    addFlux o l i phi p sum f = some (o.addFlux l i psi p sum f) := by
  rw [addFlux, FiniteVolume.addFlux, rule_eq h hi hp]
  cases o.rule l i p f <;>
    simp only [faceViscosity_eq h hi hp, derivative_eq hphi hp, Option.bind_eq_bind,
      Option.bind_some] <;> rfl

/-- **The operator at a cell reads the cells around it, its coefficients and the mask inside.** -/
theorem image_eq (h : l.Fits layout) (hphi : ∀ q ∈ (layout.box i).grow 1, phi q = some (psi q))
    (hi : i < layout.count) (hp : p ∈ layout.box i) :
    image o l i phi p = some (o.image l i psi p) := by
  have hgrow := Box.mem_grow_of_mem 1 hp
  have hmass : l.mass.Stores i p 0 := h.mass.stores hi (Box.mem_grow_of_mem 0 hp) Nat.zero_lt_one
  have hflux : ∀ start : K, Face.all.foldlM (addFlux o l i phi p) start
      = some (Face.all.foldl (o.addFlux l i psi p) start) := fun start =>
    (foldlM_eq_foldl (P := fun _ => True) (fun sum _ f _ =>
      ⟨addFlux_eq h hphi hi hp sum, trivial⟩) trivial).1
  rw [image, FiniteVolume.image, inBody_eq h hi hgrow, read_of_stores hmass, hphi p hgrow, hflux]
  cases l.inBody i p <;> rfl

/-- **So does its diagonal.** -/
theorem diagonalAt_eq (h : l.Fits layout) (hi : i < layout.count) (hp : p ∈ layout.box i) :
    diagonalAt o l i p = some (o.diagonalAt l i p) := by
  have hgrow := Box.mem_grow_of_mem 1 hp
  have hmass : l.mass.Stores i p 0 := h.mass.stores hi (Box.mem_grow_of_mem 0 hp) Nat.zero_lt_one
  have hstep : ∀ sum f, subWeight o l i p sum f = some (o.subWeight l i p sum f) := fun sum f => by
    rw [subWeight, rule_eq h hi hp, faceViscosity_eq h hi hp]
    rfl
  have hweights : ∀ start : K, Face.all.foldlM (subWeight o l i p) start
      = some (Face.all.foldl (o.subWeight l i p) start) := fun start =>
    (foldlM_eq_foldl (P := fun _ => True) (fun sum _ f _ => ⟨hstep sum f, trivial⟩) trivial).1
  rw [diagonalAt, FiniteVolume.diagonalAt, read_of_stores hmass, inBody_eq h hi hgrow]
  cases l.inBody i p
  · exact hweights _
  · rfl

end Cell

/-! ### One level -/

/-- The value for a ghost that no box and no periodic image provides. -/
def boundaryValue (bc? : Option (MeshField K)) (i : ℕ) (p : Point) (n : ℕ) : Option K :=
  match bc? with
  | some bc =>
    if n < bc.ncomp then do
      let b ← bc.blocks[i]?
      if p ∈ b.region then readBlock b p n else return 0.0
    else some 0.0
  | none => some 0.0

/-- Fills the ghosts of a field on a level. -/
def filled (l : LevelOperator K) (phi : MeshField K) (homogeneous : Bool) :
    Option (MeshField K) := do
  let halo := phi.halo l.geometry.periods
  let bc? := if homogeneous then none else l.boundary?
  let exchanged ← exchange phi l.geometry.periods
  let ghosts := (window phi.layout phi.ghosts 0 phi.ncomp).filter fun a =>
    ¬(a.1.2 ∈ phi.layout.box a.1.1 ∨ (halo.source? a.1.1 a.1.2).isSome)
  sweep exchanged ghosts fun i p n _ => boundaryValue bc? i p n

/-- Writes the image of a field whose ghosts are filled into another field. -/
def applyFilled (o : FiniteVolume K) (l : LevelOperator K) (phi out : MeshField K) :
    Option (MeshField K) :=
  sweep out (window out.layout 0 0 (min out.ncomp phi.ncomp)) fun i p n _ =>
    image o l i (fun q => read phi i q n) p

/-- Writes the diagonal into component zero of a field. -/
def writeDiagonal (o : FiniteVolume K) (l : LevelOperator K) (out : MeshField K) :
    Option (MeshField K) :=
  sweep out (window out.layout 0 0 1) fun i p _ _ => diagonalAt o l i p

section Level

variable {o : FiniteVolume K} {l : LevelOperator K} {layout : Layout} {phi out : MeshField K}
  {homogeneous : Bool}

/-- Boundary values are read only where they are stored. -/
lemma boundaryValue_eq {bc? : Option (MeshField K)} (h : ∀ bc, bc? = some bc → bc.layout = layout)
    {i : ℕ} (hi : i < layout.count) (p : Point) (n : ℕ) :
    boundaryValue bc? i p n = some (FiniteVolume.boundaryValue bc? i p n) := by
  cases hbc : bc? with
  | none => rfl
  | some bc =>
      simp only [boundaryValue, FiniteVolume.boundaryValue]
      have hi' : i < bc.layout.count := h bc hbc ▸ hi
      have hblock : i < bc.blocks.size := bc.size_blocks ▸ hi'
      have hregion : bc.blocks[i].region = bc.region i := bc.region_blocks i hblock
      by_cases hn : n < bc.ncomp
      · by_cases hp : p ∈ bc.region i
        · have hst : bc.Stores i p n := ⟨hi', hp, hn⟩
          have hread := read_of_stores hst
          rw [read, Array.getElem?_eq_getElem hblock] at hread
          rw [if_pos hn, if_pos hst, Array.getElem?_eq_getElem hblock, Option.bind_eq_bind,
            Option.bind_some, if_pos (hregion ▸ hp)]
          exact hread
        · have hst : ¬bc.Stores i p n := fun hst => hp hst.2.1
          rw [if_pos hn, if_neg hst, Array.getElem?_eq_getElem hblock, Option.bind_eq_bind,
            Option.bind_some, if_neg (hregion ▸ hp)]
          rfl
      · have hst : ¬bc.Stores i p n := fun hst => hn hst.2.2
        rw [if_neg hn, if_neg hst]

/-- **Filling of ghosts stays inside the field and its boundary values.** -/
theorem filled_eq (h : ∀ bc, l.boundary? = some bc → bc.layout = phi.layout) :
    filled l phi homogeneous = some (FiniteVolume.filled l phi homogeneous) := by
  have hbc : ∀ bc, (if homogeneous then none else l.boundary?) = some bc →
      bc.layout = phi.layout := by
    intro bc hsome
    cases homogeneous
    · exact h bc hsome
    · cases hsome
  simp only [filled, exchange_eq, Option.bind_eq_bind, Option.bind_some]
  rw [sweep_eq (g := fun i p n _ => FiniteVolume.boundaryValue
      (if homogeneous then none else l.boundary?) i p n)
    (C := fun i p _ => ¬(p ∈ phi.layout.box i ∨
      ((phi.halo l.geometry.periods).source? i p).isSome)) ((nodup_window ..).filter _)]
  · simp only [ite_not]
    rfl
  · intro i p n
    rw [List.mem_filter, decide_eq_true_iff, mem_window_stored]
    exact Iff.rfl
  · intro i p n hst _
    exact boundaryValue_eq hbc hst.1 p n

/-- The image of a field with a layer of ghosts is written inside. -/
theorem applyFilled_eq (h : l.Fits layout) (hphi : phi.Fits layout 0 1)
    (hout : out.layout = layout) :
    applyFilled o l phi out = some (o.applyFilled l phi out) := by
  refine sweep_window (Nat.zero_le _) (by omega) fun i p n hst hw => ?_
  obtain ⟨hp, -, hn⟩ := hw
  rw [Int.ofNat_zero, Box.mem_grow_zero, hout] at hp
  have hi : i < layout.count := hout ▸ hst.1
  have hread : ∀ q ∈ (layout.box i).grow 1, read phi i q n = some (phi.get i q n) := fun q hq =>
    read_of_stores (hphi.all.stores hi hq (by omega))
  exact image_eq h hread hi hp

theorem writeDiagonal_eq (h : l.Fits layout) (hout : out.Fits layout 1 0) :
    writeDiagonal o l out = some (o.writeDiagonal l out) := by
  refine sweep_window (Nat.zero_le _) hout.ncomp_le fun i p n hst hw => ?_
  obtain ⟨hp, -, -⟩ := hw
  rw [Int.ofNat_zero, Box.mem_grow_zero, hout.layout_eq] at hp
  exact diagonalAt_eq h (hout.layout_eq ▸ hst.1) hp

end Level

/-! ### The operator on the levels of a hierarchy -/

/-- Fills the ghosts of a field on a level. -/
def fillHalo (o : FiniteVolume K) (level : ℕ) (phi : MeshField K) (homogeneous : Bool) :
    Option (MeshField K) := do
  let l ← o.levels.get? level
  filled l phi homogeneous

/-- Fills the ghosts of a field on a level and writes its image into a second field. -/
def apply (o : FiniteVolume K) (level : ℕ) (phi out : MeshField K) (homogeneous : Bool) :
    Option (MeshField K × MeshField K) := do
  let l ← o.levels.get? level
  let phi ← filled l phi homogeneous
  let out ← applyFilled o l phi out
  return (phi, out)

/-- Writes the diagonal of a level into a field. -/
def diagonal (o : FiniteVolume K) (level : ℕ) (out : MeshField K) : Option (MeshField K) := do
  let l ← o.levels.get? level
  writeDiagonal o l out

/-- Changes the coefficients of a level. -/
def onLevel (o : FiniteVolume K) (level : ℕ) (F : LevelOperator K → Option (LevelOperator K)) :
    Option (FiniteVolume K) := do
  let l ← o.levels.get? level
  let l ← F l
  let levels ← o.levels.set? level l
  return { o with levels := levels }

/-- One result for each axis. -/
def perAxis {α : Type} (F : Axis → Option α) : Option (Triple α) := do
  let x ← F .x
  let y ← F .y
  let z ← F .z
  return ⟨x, y, z⟩

/-- Loads the coefficient `a` of a level. -/
def setMass (o : FiniteVolume K) (level : ℕ) (a : MeshField K) : Option (FiniteVolume K) :=
  onLevel o level fun l => do
    let mass ← copy l.mass a 0 0 1 0
    return { l with mass := mass }

/-- Loads the coefficient `b` of a level. -/
def setFaceViscosity (o : FiniteVolume K) (level : ℕ) (b : Triple (MeshField K)) :
    Option (FiniteVolume K) :=
  onLevel o level fun l => do
    let viscosity ← perAxis fun a => copy (l.viscosity.get a) (b.get a) 0 0 1 0
    return { l with viscosity := viscosity }

/-- Loads the viscosity at the surface of an obstacle. -/
def setObstacleViscosity (o : FiniteVolume K) (level : ℕ) (eta : MeshField K) :
    Option (FiniteVolume K) :=
  onLevel o level fun l => do
    let obstacleViscosity ← copy l.obstacleViscosity eta 0 0 1 0
    return { l with obstacleViscosity := obstacleViscosity }

/-- Loads the boundary values of a level. -/
def setBoundaryValues (o : FiniteVolume K) (level : ℕ) (bc : MeshField K) :
    Option (FiniteVolume K) :=
  onLevel o level fun l => some { l with boundary? := some bc }

/-- The covered cells of every box and of the layer around it, unless an obstacle leaves all of
them regular. -/
def bodyMask (layout : Layout) (owners : Ownership) (o : Obstacle K) :
    Option (Option (MeshField Bool)) :=
  if layout.boxes.all fun b => o.boxKind (b.grow 1) == .regular then some none
  else do
    let regular := layout.boxes.map fun b => o.boxKind (b.grow 1) == .regular
    let covered := (window layout 1 0 1).filter fun a =>
      !regular.getD a.1.1 true && o.kind a.1.2 == .covered
    let mask ← sweep (.const layout owners 1 1 false) covered fun _ _ _ _ => some true
    return some mask

/-- Binds the operator to the levels of a hierarchy that have boxes. -/
def bindOperator (o : FiniteVolume K) (h : Hierarchy K) (obstacles : Levels (Obstacle K))
    (options : OperatorOptions) : Option (FiniteVolume K) := do
  let levels ← levelsOf h.active fun l => do
    let level ← h.levels.get? l
    let covered? ← match obstacles.get? l with
      | some obstacle => bodyMask level.layout level.owners obstacle
      | none => some none
    return { LevelOperator.ofLevel level none with covered? := covered? }
  return { o with options := options, levels := levels }

section Levels

variable {o : FiniteVolume K} {level : ℕ} {layout : Layout} {phi out : MeshField K}
  {homogeneous : Bool}

theorem fillHalo_eq (ho : o.FitsAt level phi.layout) :
    fillHalo o level phi homogeneous
      = some (DiffusionOperator.fillHalo o level phi homogeneous) :=
  bind_eq (get?_of_lt ho.level_lt) (filled_eq ho.fits.boundary)

theorem apply_eq (ho : o.FitsAt level layout) (hphi : phi.Fits layout 0 1)
    (hout : out.layout = layout) :
    apply o level phi out homogeneous
      = some (DiffusionOperator.apply o level phi out homogeneous) := by
  have hbc : ∀ bc, (o.levels.get level).boundary? = some bc → bc.layout = phi.layout :=
    fun bc hbc => (ho.fits.boundary bc hbc).trans hphi.layout_eq.symm
  have hfilled : (FiniteVolume.filled (o.levels.get level) phi homogeneous).Fits layout 0 1 :=
    hphi.congr rfl
  refine bind_eq (get?_of_lt ho.level_lt) ?_
  refine bind_eq (filled_eq hbc) ?_
  exact bind_eq (applyFilled_eq ho.fits hfilled hout) rfl

theorem diagonal_eq (ho : o.FitsAt level layout) (hout : out.Fits layout 1 0) :
    diagonal o level out = some (DiffusionOperator.diagonal o level out) :=
  bind_eq (get?_of_lt ho.level_lt) (writeDiagonal_eq ho.fits hout)

/-- A change of the coefficients of a level is made when it has a result, and when it keeps the
boxes of these, so does the operator. -/
theorem onLevel_eq {F : LevelOperator K → Option (LevelOperator K)}
    {G : LevelOperator K → LevelOperator K} (ho : o.FitsAt level layout)
    (hF : F (o.levels.get level) = some (G (o.levels.get level)))
    (hG : (G (o.levels.get level)).Fits layout) :
    onLevel o level F = some (o.onLevel level G) ∧ (o.onLevel level G).FitsAt level layout := by
  obtain ⟨hlevel, -⟩ := ho
  have hset : o.levels.set level (G (o.levels.get level)) = o.levels.modify level G := by
    refine Levels.ext_get (by simp) fun k hk => ?_
    by_cases hkl : k = level
    · rw [hkl, Levels.get_set_self hlevel, Levels.get_modify_self hlevel]
    · rw [Levels.get_set_of_ne hkl, Levels.get_modify_of_ne hkl]
  constructor
  · rw [onLevel, get?_of_lt hlevel, Option.bind_eq_bind, Option.bind_some, hF, Option.bind_eq_bind,
      Option.bind_some, set?_of_lt hlevel, FiniteVolume.onLevel, ← hset]
    rfl
  · refine ⟨hlevel.trans_eq (Levels.count_modify ..).symm, ?_⟩
    rw [FiniteVolume.onLevel, Levels.get_modify_self hlevel]
    exact hG

omit [Scalar K] in
lemma perAxis_eq {α : Type} {F : Axis → Option α} {G : Axis → α} (h : ∀ a, F a = some (G a)) :
    perAxis F = some (.ofFn G) := by
  rw [perAxis, h, h, h]
  rfl

theorem setMass_eq {a : MeshField K} (ho : o.FitsAt level layout) (ha : a.Fits layout 1 0) :
    setMass o level a = some (DiffusionOperator.setMass o level a) ∧
      (DiffusionOperator.setMass o level a).FitsAt level layout :=
  onLevel_eq ho (bind_eq (copy_eq ho.fits.mass ha) rfl)
    { ho.fits with mass := ho.fits.mass.congr rfl }

theorem setFaceViscosity_eq {b : Triple (MeshField K)} (ho : o.FitsAt level layout)
    (hb : ∀ a, (b.get a).Fits (layout.faces a) 1 0) :
    setFaceViscosity o level b = some (DiffusionOperator.setFaceViscosity o level b) ∧
      (DiffusionOperator.setFaceViscosity o level b).FitsAt level layout := by
  refine onLevel_eq ho (bind_eq (perAxis_eq fun a => copy_eq (ho.fits.viscosity a) (hb a)) rfl)
    { ho.fits with viscosity := fun a => ?_ }
  rw [Triple.get_ofFn]
  exact (ho.fits.viscosity a).congr rfl

theorem setObstacleViscosity_eq {eta : MeshField K} (ho : o.FitsAt level layout)
    (heta : eta.Fits layout 1 0) :
    setObstacleViscosity o level eta = some (DiffusionOperator.setObstacleViscosity o level eta) ∧
      (DiffusionOperator.setObstacleViscosity o level eta).FitsAt level layout :=
  onLevel_eq ho (bind_eq (copy_eq ho.fits.obstacleViscosity heta) rfl)
    { ho.fits with obstacleViscosity := ho.fits.obstacleViscosity.congr rfl }

theorem setBoundaryValues_eq {bc : MeshField K} (ho : o.FitsAt level layout)
    (hbc : bc.layout = layout) :
    setBoundaryValues o level bc = some (DiffusionOperator.setBoundaryValues o level bc) ∧
      (DiffusionOperator.setBoundaryValues o level bc).FitsAt level layout :=
  onLevel_eq ho rfl { ho.fits with boundary := fun _ h => Option.some.inj h ▸ hbc }

omit [Scalar K] in
/-- A mask is written in the layer around the boxes at most. -/
lemma mask_eq (layout : Layout) (owners : Ownership) (covered : ℕ → Point → Bool) :
    sweep (.const layout owners 1 1 false)
        ((window layout 1 0 1).filter fun a => covered a.1.1 a.1.2) (fun _ _ _ _ => some true)
      = some (.ofFn layout owners 1 1 fun i p _ => covered i p) := by
  rw [sweep_eq (g := fun _ _ _ _ => true) (C := fun i p _ => covered i p = true)
    ((nodup_window ..).filter _)]
  · refine congrArg some (MeshField.ext_get rfl fun i p n hst => ?_)
    have hst' : (MeshField.const layout owners 1 1 false).Stores i p n := hst
    have hst'' : (MeshField.ofFn layout owners 1 1 fun i p _ => covered i p).Stores i p n := hst
    rw [MeshField.get_update, if_pos hst', MeshField.get_ofFn, if_pos hst'',
      MeshField.get_const hst']
    cases covered i p <;> rfl
  · intro i p n
    rw [List.mem_filter]
    exact and_congr_left fun _ => mem_window_stored (f := .const layout owners 1 1 false)
  · exact fun _ _ _ _ _ => rfl

omit [Scalar K] in
lemma bodyMask_eq (layout : Layout) (owners : Ownership) (obstacle : Obstacle K) :
    bodyMask layout owners obstacle = some (MeshDiffusion.bodyMask layout owners obstacle) := by
  rw [bodyMask, MeshDiffusion.bodyMask]
  split_ifs with hregular
  · rfl
  · have hmask := mask_eq layout owners fun i p =>
      !(layout.boxes.map fun b => obstacle.boxKind (b.grow 1) == .regular).getD i true &&
        obstacle.kind p == .covered
    simp only [hmask]
    rfl

/-- Binding reads the levels that have boxes. -/
theorem bindOperator_eq {h : Hierarchy K} (hlevels : h.active ≤ h.levels.count)
    (obstacles : Levels (Obstacle K)) (options : OperatorOptions) :
    bindOperator o h obstacles options = some (DiffusionOperator.bind o h obstacles options) := by
  rw [bindOperator, levelsOf_eq (G := fun l => .ofLevel (h.level l) (obstacles.get? l))]
  · rfl
  · intro l hl
    rw [get?_of_lt (hl.trans_le hlevels)]
    cases obstacles.get? l with
    | none => rfl
    | some obstacle =>
        simp only [Option.bind_eq_bind, Option.bind_some, bodyMask_eq]
        rfl

end Levels

end Checked

end MeshDiffusion
