import Mathlib.Tactic
import MeshDiffusion.Proofs.Access.Solver
import MeshDiffusion.Proofs.Equation.Step

/-!
Access of a step.

A step is repeated here with every access checked: of the levels of the mesh, of the fields of a
level that the equation owns or is given, and of their values. It stays inside, and has the result
of the step without checks, on an equation that is ready (`ImplicitDiffusion.Ready`) and for fields
on the boxes of its mesh (`Checked.Given`).

* `Checked.averageToFaces_eq`, `Checked.momentum_eq`, `Checked.firstGuess_eq`: the system of a
  level;
* `Checked.assemble_eq`: the systems of all levels with boxes;
* `Checked.solveAssembled_eq`, `Checked.storeLevels_eq`: the solve and what is stored after it;
* `Checked.solve_eq`: a step stays inside, whether it has too few levels, fails to converge or
  succeeds, and leaves the equation ready.
-/

namespace MeshDiffusion

open ImplicitDiffusion

namespace Checked

variable {K : Type} [Scalar K]

/-! ### The system of a level -/

/-- Writes half the sum of the cells on both sides into each valid face, normal to each axis. -/
def averageToFaces (faces : Triple (MeshField K)) (cells : MeshField K) :
    Option (Triple (MeshField K)) :=
  perAxis fun a =>
    sweep (faces.get a) (window (faces.get a).layout 0 0 1) fun i p _ _ => do
      let below ← read cells i (p.move a (-1)) 0
      let above ← read cells i p 0
      return 0.5 * (below + above)

/-- The operator with the coefficients of a level, and the face fields they were computed in. -/
def levelCoefficients (op : FiniteVolume K) (level : ℕ) (geometry : Geometry K)
    (faces : Triple (MeshField K)) (ro eta : MeshField K) :
    Option (FiniteVolume K × Triple (MeshField K)) := do
  let averaged ← averageToFaces faces eta
  let faces ← perAxis fun a => exchange (averaged.get a) geometry.periods
  let op ← setMass op level ro
  let op ← setFaceViscosity op level faces
  let op ← setObstacleViscosity op level eta
  return (op, faces)

/-- Writes the momentum into a field. -/
def momentum (rhs vel ro : MeshField K) : Option (MeshField K) := do
  let rhs ← copy rhs vel 0 0 velocityComponents 0
  (List.range velocityComponents).foldlM (fun rhs n => mulFrom rhs ro 0 n 1 rhs.ghosts) rhs

/-- Loads the velocity as first guess and as boundary values. -/
def firstGuess (op : FiniteVolume K) (level : ℕ) (geometry : Geometry K) (phi vel : MeshField K) :
    Option (FiniteVolume K × MeshField K) := do
  let loaded ← copy phi vel 0 0 velocityComponents 1
  let phi ← exchange loaded geometry.periods
  let op ← setBoundaryValues op level phi
  return (op, phi)

section Level

variable {op : FiniteVolume K} {level : ℕ} {layout : Layout} {geometry : Geometry K}
  {faces : Triple (MeshField K)} {cells rhs phi vel ro eta : MeshField K}

/-- The averages on faces read one layer around the boxes. -/
theorem averageToFaces_eq (hfaces : ∀ a, (faces.get a).Fits (layout.faces a) 1 0)
    (hcells : cells.Fits layout 1 1) :
    averageToFaces faces cells = some (MeshDiffusion.averageToFaces faces cells) := by
  refine perAxis_eq fun a => ?_
  refine sweep_window (Nat.zero_le _) (hfaces a).ncomp_le fun i p n hst hw => ?_
  obtain ⟨hp, -, -⟩ := hw
  have hi : i < layout.count := by
    have := hst.1
    rwa [(hfaces a).layout_eq, Layout.count_faces] at this
  rw [Int.ofNat_zero, Box.mem_grow_zero, (hfaces a).layout_eq, Layout.box_faces hi] at hp
  obtain ⟨hbelow, habove⟩ := Box.mem_grow_of_mem_faces hp
  refine bind_eq (read_of_stores (hcells.stores hi hbelow Nat.zero_lt_one)) ?_
  exact bind_eq (read_of_stores (hcells.stores hi habove Nat.zero_lt_one)) rfl

theorem levelCoefficients_eq (hop : op.FitsAt level layout)
    (hfaces : ∀ a, (faces.get a).Fits (layout.faces a) 1 0) (hro : ro.Fits layout 1 0)
    (heta : eta.Fits layout 1 1) :
    levelCoefficients op level geometry faces ro eta
      = some (MeshDiffusion.levelCoefficients op level geometry faces ro eta) := by
  have hloaded : ∀ a, (((MeshDiffusion.averageToFaces faces eta).map
      (MeshField.exchange · geometry.periods)).get a).Fits (layout.faces a) 1 0 := by
    intro a
    rw [Triple.get_map, MeshDiffusion.averageToFaces, Triple.get_ofFn]
    exact (hfaces a).congr rfl
  refine bind_eq (averageToFaces_eq hfaces heta) ?_
  refine bind_eq (perAxis_eq fun a => exchange_eq _ _) ?_
  obtain ⟨hmass, hop⟩ := setMass_eq hop hro
  obtain ⟨hviscosity, hop⟩ := setFaceViscosity_eq hop hloaded
  obtain ⟨hobstacle, -⟩ := setObstacleViscosity_eq hop (heta.mono le_rfl (Nat.zero_le 1))
  refine bind_eq hmass ?_
  refine bind_eq hviscosity ?_
  exact bind_eq hobstacle rfl

/-- The density is read at valid cells only, since the right-hand side has no ghosts. -/
theorem momentum_eq (hrhs : rhs.Fits layout velocityComponents 0) (hghosts : rhs.ghosts = 0)
    (hvel : vel.Fits layout velocityComponents 0) (hro : ro.Fits layout 1 0) :
    momentum rhs vel ro = some (MeshDiffusion.momentum rhs vel ro) := by
  let Kept (f : MeshField K) : Prop := f.Fits layout velocityComponents 0 ∧ f.ghosts = 0
  have hloaded : Kept (rhs.copy vel 0 0 velocityComponents 0) := ⟨hrhs.congr rfl, hghosts⟩
  refine bind_eq (copy_eq hrhs hvel) ?_
  refine (foldlM_eq_foldl (P := Kept) (G := fun f n => f.mulFrom ro 0 n 1 f.ghosts)
    (fun f hf n hn => ⟨?_, hf.1.congr rfl, hf.2⟩) hloaded).1
  rw [hf.2]
  exact mulFrom_eq (hf.1.mono (List.mem_range.1 hn) le_rfl) hro

theorem firstGuess_eq (hop : op.FitsAt level layout) (hphi : phi.Fits layout velocityComponents 1)
    (hvel : vel.Fits layout velocityComponents 1) :
    firstGuess op level geometry phi vel
      = some (MeshDiffusion.firstGuess op level geometry phi vel) := by
  refine bind_eq (copy_eq hphi hvel) ?_
  refine bind_eq (exchange_eq _ _) ?_
  have hloaded : ((phi.copy vel 0 0 velocityComponents 1).exchange geometry.periods).layout
      = layout := hphi.layout_eq
  exact bind_eq (setBoundaryValues_eq hop hloaded).1 rfl

end Level

/-! ### A step -/

/-- The first `n` levels, if there are so many. -/
def take {α : Type} (l : Levels α) (n : ℕ) : Option (Levels α) :=
  if n ≤ l.count then some (l.take n) else none

/-- Sets the coefficients of a level. -/
def loadCoefficients (ro eta : Levels (MeshField K)) (eq : Standard K) (level : ℕ) :
    Option (Standard K) := do
  let mesh ← eq.hierarchy.levels.get? level
  let faces ← eq.faces.get? level
  let density ← ro.get? level
  let viscosity ← eta.get? level
  let (op, averaged) ← levelCoefficients eq.operator level mesh.geometry faces density viscosity
  let stored ← eq.faces.set? level averaged
  return { eq with operator := op, faces := stored }

/-- Sets the right-hand side, the first guess and the boundary values of a level. -/
def loadSystem (vel ro : Levels (MeshField K)) (eq : Standard K) (level : ℕ) :
    Option (Standard K) := do
  let mesh ← eq.hierarchy.levels.get? level
  let b ← eq.rhs.get? level
  let phi ← eq.solution.get? level
  let velocity ← vel.get? level
  let density ← ro.get? level
  let b ← momentum b velocity density
  let (op, phi) ← firstGuess eq.operator level mesh.geometry phi velocity
  let rhs ← eq.rhs.set? level b
  let solution ← eq.solution.set? level phi
  return { eq with operator := op, rhs := rhs, solution := solution }

/-- The system of a step on the first `n` levels. -/
def assemble (eq : Standard K) (n : ℕ) (vel ro eta : Levels (MeshField K)) (dt : K) :
    Option (Standard K) := do
  let scaled : Standard K :=
    { eq with operator := DiffusionOperator.setAlphaBeta eq.operator 1.0 dt }
  let loaded ← (List.range n).foldlM (loadCoefficients ro eta) scaled
  (List.range n).foldlM (loadSystem vel ro) loaded

/-- Replaces the first levels of a collection by those of another one. -/
def overwrite (all first : Levels (MeshField K)) (n : ℕ) : Option (Levels (MeshField K)) :=
  (List.range n).foldlM
    (fun all l => do
      let f ← first.get? l
      all.set? l f) all

/-- Exchanges the halo of the solution of a level and copies it into the velocity. -/
def storeLevel (hierarchy : Hierarchy K) (state : Levels (MeshField K) × Levels (MeshField K))
    (level : ℕ) : Option (Levels (MeshField K) × Levels (MeshField K)) := do
  let mesh ← hierarchy.levels.get? level
  let x ← state.1.get? level
  let phi ← exchange x mesh.geometry.periods
  let solution ← state.1.set? level phi
  let v ← state.2.get? level
  let v ← copy v phi 0 0 velocityComponents 1
  let vel ← state.2.set? level v
  return (solution, vel)

/-- Diffuses a velocity over a step of `dt`. -/
def solve (eq : Standard K) (vel ro eta : Levels (MeshField K)) (dt : K) :
    Option (Noted K (Stepped (FiniteVolume K) ResidualCorrection K)) :=
  let n := eq.hierarchy.active
  let got := min (min vel.count ro.count) eta.count
  if got < n then
    some (.quiet ⟨eq, vel, .error (.solve (.fewerLevels n got))⟩)
  else do
    let eq ← assemble eq n vel ro eta dt
    let configured := LinearSolver.configure (K := K) eq.solver eq.config.solveOptions
    let sol ← take eq.solution n
    let b ← take eq.rhs n
    let solved ← run configured.value eq.operator sol b eq.config.rtol eq.config.atol
    let heard := tell eq.config .diffusing ++ configured.notices ++ solved.notices
    let solution ← overwrite eq.solution solved.value.solution n
    let eq := { eq with solver := solved.value.solver }
    match solved.value.result with
    | .error e => return ⟨heard, { eq with solution := solution }, vel, .error (.solve e)⟩
    | .ok report =>
      let (solution, vel) ← (List.range n).foldlM (storeLevel eq.hierarchy) (solution, vel)
      return ⟨heard ++ tell eq.config (.diffused report.cycles report.endResidual),
        { eq with solution := solution }, vel, .ok report⟩

end Checked

/-- There are at least `n` levels of fields, and the first `n` of them fit the layouts of their
levels. -/
structure LevelsFit {K : Type} (fields : Levels (MeshField K)) (layout : ℕ → Layout)
    (n m k : ℕ) : Prop where
  count_le : n ≤ fields.count
  fits : ∀ l < n, (fields.get l).Fits (layout l) m k

/-- Fields still fit when one of them is replaced by one of its shape. -/
lemma LevelsFit.set {K : Type} {fields : Levels (MeshField K)} {layout : ℕ → Layout} {n m k l : ℕ}
    {f : MeshField K} (h : LevelsFit fields layout n m k) (hs : f.shape = (fields.get l).shape) :
    LevelsFit (fields.set l f) layout n m k where
  count_le := h.count_le.trans_eq (Levels.count_set ..).symm
  fits j hj := by
    rw [Levels.get_set]
    split_ifs with hsame
    · exact (h.fits j hj).congr (hs.trans (by rw [hsame.1]))
    · exact h.fits j hj

namespace ImplicitDiffusion

variable {K : Type} [Scalar K] {setup : Setup K} {config : DiffusionOptions K}
  {boundary : DomainBoundary} {eq : Standard K} {vel ro eta : Levels (MeshField K)} {dt : K}
  {l k : ℕ}

/-- An equation formed as it was set up on a mesh that has all levels with boxes, whose boundary
values, if it has any, are on the boxes of their level. -/
structure Ready (setup : Setup K) (config : DiffusionOptions K) (boundary : DomainBoundary)
    (eq : Standard K) : Prop where
  mesh : setup.hierarchy.active ≤ setup.hierarchy.levels.count
  formed : Formed setup config boundary eq
  values : ∀ l < setup.hierarchy.active, ∀ bc, (eq.levelState l).operator.boundary? = some bc →
    bc.shape = ⟨setup.hierarchy.layout l, setup.hierarchy.owners l, velocityComponents, 1⟩

lemma Ready.lt_topLevel (h : Ready setup config boundary eq) (hl : l < setup.hierarchy.active) :
    l < setup.hierarchy.topLevel + 1 := by
  have := h.mesh
  rw [Hierarchy.topLevel]
  omega

lemma Ready.level (h : Ready setup config boundary eq) (hl : l < setup.hierarchy.active) :
    LevelFormed setup l (eq.levelState l) :=
  h.formed.level l hl (h.lt_topLevel hl)

lemma Ready.active_le (h : Ready setup config boundary eq) :
    setup.hierarchy.active ≤ setup.hierarchy.topLevel + 1 :=
  h.lt_topLevel (Nat.lt_succ_self setup.hierarchy.finest)

/-- The operator is on the boxes of every level. -/
lemma Ready.fitsAt (h : Ready setup config boundary eq) (hl : l < setup.hierarchy.active) :
    eq.operator.FitsAt l (setup.hierarchy.layout l) := by
  have hlevel := h.level hl
  refine ⟨h.formed.count_operator ▸ hl, MeshField.fits_of_shape hlevel.mass le_rfl le_rfl,
    fun a => MeshField.fits_of_shape (hlevel.viscosity a) le_rfl le_rfl,
    MeshField.fits_of_shape hlevel.obstacleViscosity le_rfl le_rfl, fun m hm => ?_,
    fun bc hbc => congrArg MeshField.Shape.layout (h.values l hl bc hbc)⟩
  obtain ⟨o, -, hmask⟩ := Option.bind_eq_some_iff.1 (hlevel.covered.symm.trans hm)
  exact MeshField.fits_of_shape (shape_bodyMask hmask) le_rfl le_rfl

lemma Ready.loadCoefficients (h : Ready setup config boundary eq) (k : ℕ) :
    Ready setup config boundary (loadCoefficients ro eta eq k) where
  mesh := h.mesh
  formed := h.formed.loadCoefficients k
  values l hl bc hbc := by
    by_cases hlk : l = k
    · subst hlk
      rw [levelState_loadCoefficients (h.formed.count_operator ▸ hl)
        (h.formed.count_faces ▸ h.lt_topLevel hl)] at hbc
      exact h.values l hl bc hbc
    · rw [levelState_loadCoefficients_of_ne hlk] at hbc
      exact h.values l hl bc hbc

/-- The first guess becomes the boundary values. -/
lemma Ready.loadSystem (h : Ready setup config boundary eq) (k : ℕ) :
    Ready setup config boundary (loadSystem vel ro eq k) where
  mesh := h.mesh
  formed := h.formed.loadSystem k
  values l hl bc hbc := by
    by_cases hlk : l = k
    · subst hlk
      have hs := h.lt_topLevel hl
      rw [levelState_loadSystem (h.formed.count_operator ▸ hl) (h.formed.count_rhs ▸ hs)
        (h.formed.count_solution ▸ hs)] at hbc
      exact Option.some.inj hbc ▸ (h.level hl).solution
    · rw [levelState_loadSystem_of_ne hlk] at hbc
      exact h.values l hl bc hbc

/-- The end of a step leaves the operator alone. -/
lemma Ready.finish (h : Ready setup config boundary eq) {n : ℕ} (hvel : n ≤ vel.count) :
    Ready setup config boundary (finish eq n vel (solveAssembled eq n).value).equation where
  mesh := h.mesh
  formed := finish_formed h.formed hvel
  values l hl bc hbc := by
    refine h.values l hl bc (Eq.trans ?_ hbc)
    rw [ImplicitDiffusion.finish]
    cases (solveAssembled eq n).value.result with
    | error e => rfl
    | ok report => rfl

end ImplicitDiffusion

namespace Checked

section Step

variable {K : Type} [Scalar K] {setup : Setup K} {config : DiffusionOptions K}
  {boundary : DomainBoundary} {eq : Standard K} {vel ro eta : Levels (MeshField K)} {l : ℕ}

theorem loadCoefficients_eq (h : Ready setup config boundary eq)
    (hro : LevelsFit ro setup.hierarchy.layout setup.hierarchy.active 1 0)
    (heta : LevelsFit eta setup.hierarchy.layout setup.hierarchy.active 1 1)
    (hl : l < setup.hierarchy.active) :
    loadCoefficients ro eta eq l = some (eq.loadCoefficients ro eta l) ∧
      Ready setup config boundary (eq.loadCoefficients ro eta l) := by
  have hfaces : l < eq.faces.count := h.formed.count_faces ▸ h.lt_topLevel hl
  have hlevel : l < eq.hierarchy.levels.count := h.formed.hierarchy ▸ hl.trans_le h.mesh
  refine ⟨?_, h.loadCoefficients l⟩
  refine bind_eq (get?_of_lt hlevel) ?_
  refine bind_eq (get?_of_lt hfaces) ?_
  refine bind_eq (get?_of_lt (hl.trans_le hro.count_le)) ?_
  refine bind_eq (get?_of_lt (hl.trans_le heta.count_le)) ?_
  refine bind_eq (levelCoefficients_eq (h.fitsAt hl)
    (fun a => MeshField.fits_of_shape ((h.level hl).faces a) le_rfl (Nat.zero_le _))
    (hro.fits l hl) (heta.fits l hl)) ?_
  exact bind_eq (set?_of_lt hfaces _) rfl

theorem loadSystem_eq (h : Ready setup config boundary eq)
    (hvel : LevelsFit vel setup.hierarchy.layout setup.hierarchy.active velocityComponents 1)
    (hro : LevelsFit ro setup.hierarchy.layout setup.hierarchy.active 1 0)
    (hl : l < setup.hierarchy.active) :
    loadSystem vel ro eq l = some (eq.loadSystem vel ro l) ∧
      Ready setup config boundary (eq.loadSystem vel ro l) := by
  have hrhs : l < eq.rhs.count := h.formed.count_rhs ▸ h.lt_topLevel hl
  have hsolution : l < eq.solution.count := h.formed.count_solution ▸ h.lt_topLevel hl
  have hlevel : l < eq.hierarchy.levels.count := h.formed.hierarchy ▸ hl.trans_le h.mesh
  have hstate := h.level hl
  refine ⟨?_, h.loadSystem l⟩
  refine bind_eq (get?_of_lt hlevel) ?_
  refine bind_eq (get?_of_lt hrhs) ?_
  refine bind_eq (get?_of_lt hsolution) ?_
  refine bind_eq (get?_of_lt (hl.trans_le hvel.count_le)) ?_
  refine bind_eq (get?_of_lt (hl.trans_le hro.count_le)) ?_
  refine bind_eq (momentum_eq (MeshField.fits_of_shape hstate.rhs le_rfl le_rfl)
    (congrArg MeshField.Shape.ghosts hstate.rhs) ((hvel.fits l hl).mono le_rfl (Nat.zero_le 1))
    (hro.fits l hl)) ?_
  refine bind_eq (firstGuess_eq (h.fitsAt hl)
    (MeshField.fits_of_shape hstate.solution le_rfl le_rfl) (hvel.fits l hl)) ?_
  refine bind_eq (set?_of_lt hrhs _) ?_
  exact bind_eq (set?_of_lt hsolution _) rfl

/-- **The assembly of all levels stays inside.** -/
theorem assemble_eq (h : Ready setup config boundary eq)
    (hvel : LevelsFit vel setup.hierarchy.layout setup.hierarchy.active velocityComponents 1)
    (hro : LevelsFit ro setup.hierarchy.layout setup.hierarchy.active 1 0)
    (heta : LevelsFit eta setup.hierarchy.layout setup.hierarchy.active 1 1) (dt : K) :
    assemble eq setup.hierarchy.active vel ro eta dt
        = some (eq.assemble setup.hierarchy.active vel ro eta dt) ∧
      Ready setup config boundary (eq.assemble setup.hierarchy.active vel ro eta dt) := by
  have hscaled : Ready setup config boundary
      { eq with operator := DiffusionOperator.setAlphaBeta eq.operator 1.0 dt } :=
    ⟨h.mesh, ⟨h.formed.hierarchy, h.formed.config, h.formed.boundary, h.formed.order,
      h.formed.count_operator, h.formed.count_faces, h.formed.count_rhs, h.formed.count_solution,
      h.formed.level⟩, h.values⟩
  obtain ⟨hcoefficients, hloaded⟩ := foldlM_eq_foldl (P := Ready setup config boundary)
    (G := ImplicitDiffusion.loadCoefficients ro eta)
    (fun s hs k hk => loadCoefficients_eq hs hro heta (List.mem_range.1 hk)) hscaled
  obtain ⟨hsystem, hready⟩ := foldlM_eq_foldl (P := Ready setup config boundary)
    (G := ImplicitDiffusion.loadSystem vel ro)
    (fun s hs k hk => loadSystem_eq hs hvel hro (List.mem_range.1 hk)) hloaded
  exact ⟨bind_eq hcoefficients hsystem, hready⟩

omit [Scalar K] in
lemma overwrite_eq {all first : Levels (MeshField K)} {n : ℕ} (hall : n ≤ all.count)
    (hfirst : n ≤ first.count) :
    overwrite all first n = some (ImplicitDiffusion.overwrite all first n) := by
  refine (foldlM_eq_foldl (P := fun fields : Levels (MeshField K) => n ≤ fields.count)
    (G := fun fields k => fields.set k (first.get k)) (fun fields hcount k hk => ⟨?_, ?_⟩) hall).1
  · have hlt := List.mem_range.1 hk
    refine bind_eq (get?_of_lt (hlt.trans_le hfirst)) ?_
    exact set?_of_lt (hlt.trans_le hcount) _
  · exact hcount.trans_eq (Levels.count_set ..).symm

/-- **The levels of a solution are stored inside.** -/
theorem storeLevels_eq {hierarchy : Hierarchy K} {layout : ℕ → Layout} {n : ℕ}
    {solution : Levels (MeshField K)} (hmesh : n ≤ hierarchy.levels.count)
    (hsolution : LevelsFit solution layout n velocityComponents 1)
    (hvel : LevelsFit vel layout n velocityComponents 1) :
    (List.range n).foldlM (storeLevel hierarchy) (solution, vel)
      = some ((List.range n).foldl (ImplicitDiffusion.storeLevel hierarchy) (solution, vel)) := by
  let Fit (fields : Levels (MeshField K)) : Prop := LevelsFit fields layout n velocityComponents 1
  refine (foldlM_eq_foldl
    (P := fun s : Levels (MeshField K) × Levels (MeshField K) => Fit s.1 ∧ Fit s.2)
    (G := ImplicitDiffusion.storeLevel hierarchy)
    (fun s hs k hk => ⟨?_, hs.1.set rfl, hs.2.set rfl⟩) ⟨hsolution, hvel⟩).1
  have hlt := List.mem_range.1 hk
  obtain ⟨hphi, hv⟩ := hs
  refine bind_eq (get?_of_lt (hlt.trans_le hmesh)) ?_
  refine bind_eq (get?_of_lt (hlt.trans_le hphi.count_le)) ?_
  refine bind_eq (exchange_eq _ _) ?_
  refine bind_eq (set?_of_lt (hlt.trans_le hphi.count_le) _) ?_
  refine bind_eq (get?_of_lt (hlt.trans_le hv.count_le)) ?_
  refine bind_eq (copy_eq (hv.fits k hlt) ((hphi.fits k hlt).congr rfl)) ?_
  exact bind_eq (set?_of_lt (hlt.trans_le hv.count_le) _) rfl

/-- The assembled system fits the solver. -/
lemma systemFits_of_ready (h : Ready setup config boundary eq) :
    SystemFits eq.operator setup.hierarchy.layout (eq.solution.take setup.hierarchy.active)
      (eq.rhs.take setup.hierarchy.active) where
  count_solution := by
    rw [Levels.count_take, h.formed.count_operator, h.formed.count_solution]
    exact le_min le_rfl h.active_le
  count_rhs := by
    rw [Levels.count_take, h.formed.count_operator, h.formed.count_rhs]
    exact le_min le_rfl h.active_le
  level l hl := by
    rw [h.formed.count_operator] at hl
    have hstate := h.level hl
    have hsolution : (eq.solution.get l).ncomp = velocityComponents :=
      congrArg MeshField.Shape.ncomp hstate.solution
    rw [Levels.get_take hl, Levels.get_take hl]
    exact ⟨h.fitsAt hl, MeshField.fits_of_shape hstate.solution (Nat.zero_le _) le_rfl,
      MeshField.fits_of_shape hstate.rhs hsolution.le le_rfl⟩

/-- **The solve of an assembled system stays inside**, and its solution is stored in place. -/
theorem solveAssembled_eq (h : Ready setup config boundary eq) :
    run ⟨eq.config.solveOptions⟩ eq.operator (eq.solution.take setup.hierarchy.active)
        (eq.rhs.take setup.hierarchy.active) eq.config.rtol eq.config.atol
      = some (solveAssembled eq setup.hierarchy.active) ∧
    overwrite eq.solution (solveAssembled eq setup.hierarchy.active).value.solution
        setup.hierarchy.active
      = some (ImplicitDiffusion.overwrite eq.solution
          (solveAssembled eq setup.hierarchy.active).value.solution setup.hierarchy.active) ∧
    LevelsFit (ImplicitDiffusion.overwrite eq.solution
        (solveAssembled eq setup.hierarchy.active).value.solution setup.hierarchy.active)
      setup.hierarchy.layout setup.hierarchy.active velocityComponents 1 := by
  obtain ⟨hrun, hsolved⟩ := run_eq (s := ⟨eq.config.solveOptions⟩) (systemFits_of_ready h)
  have hcount : setup.hierarchy.active ≤ eq.solution.count :=
    h.active_le.trans_eq h.formed.count_solution.symm
  refine ⟨hrun, overwrite_eq hcount ?_, hcount.trans_eq count_overwrite.symm, fun l hl => ?_⟩
  · exact h.formed.count_operator.ge.trans hsolved.count_solution
  · rw [get_overwrite (hl.trans_le hcount), if_pos hl]
    exact MeshField.fits_of_shape ((shape_solveAssembled hl).trans (h.level hl).solution) le_rfl
      le_rfl

/-- What a step is given fits the mesh: as far as there are fields for the levels with boxes, they
are on the boxes of their levels, the velocity and the viscosity with a layer of ghosts. -/
structure Given (h : Hierarchy K) (vel ro eta : Levels (MeshField K)) : Prop where
  velocity : ∀ l < h.active, l < vel.count → (vel.get l).Fits (h.layout l) velocityComponents 1
  density : ∀ l < h.active, l < ro.count → (ro.get l).Fits (h.layout l) 1 0
  viscosity : ∀ l < h.active, l < eta.count → (eta.get l).Fits (h.layout l) 1 1

/-- **A step stays inside**, whether it has too few levels, fails to converge or succeeds. -/
theorem solve_eq (h : Ready setup config boundary eq) (hgiven : Given setup.hierarchy vel ro eta)
    (dt : K) :
    solve eq vel ro eta dt = some (eq.solve vel ro eta dt) ∧
      Ready setup config boundary (eq.solve vel ro eta dt).value.equation := by
  by_cases hfew : min (min vel.count ro.count) eta.count < eq.hierarchy.active
  · rw [solve_few hfew]
    exact ⟨if_pos hfew, h⟩
  · have hlevels := not_lt.1 hfew
    rw [h.formed.hierarchy] at hlevels
    have hvel : LevelsFit vel setup.hierarchy.layout setup.hierarchy.active velocityComponents 1 :=
      ⟨by omega, fun l hl => hgiven.velocity l hl (by omega)⟩
    have hro : LevelsFit ro setup.hierarchy.layout setup.hierarchy.active 1 0 :=
      ⟨by omega, fun l hl => hgiven.density l hl (by omega)⟩
    have heta : LevelsFit eta setup.hierarchy.layout setup.hierarchy.active 1 1 :=
      ⟨by omega, fun l hl => hgiven.viscosity l hl (by omega)⟩
    obtain ⟨hassemble, hready⟩ := assemble_eq h hvel hro heta dt
    constructor
    · rw [solve, ImplicitDiffusion.solve, if_neg hfew, if_neg hfew, h.formed.hierarchy]
      generalize eq.assemble setup.hierarchy.active vel ro eta dt = a at hassemble hready ⊢
      obtain ⟨hrun, hoverwrite, hfits⟩ := solveAssembled_eq hready
      have hmesh : setup.hierarchy.active ≤ a.hierarchy.levels.count :=
        hready.formed.hierarchy ▸ h.mesh
      have hlinear : LinearSolver.solve
          (LinearSolver.configure (K := K) a.solver a.config.solveOptions).value a.operator
          (a.solution.take setup.hierarchy.active) (a.rhs.take setup.hierarchy.active)
          a.config.rtol a.config.atol = solveAssembled a setup.hierarchy.active := rfl
      refine bind_eq hassemble ?_
      refine bind_eq (if_pos (hready.active_le.trans_eq hready.formed.count_solution.symm)) ?_
      refine bind_eq (if_pos (hready.active_le.trans_eq hready.formed.count_rhs.symm)) ?_
      refine bind_eq hrun ?_
      refine bind_eq hoverwrite ?_
      dsimp only
      rw [hlinear]
      cases (solveAssembled a setup.hierarchy.active).value.result with
      | error e => rfl
      | ok report => exact bind_eq (storeLevels_eq hmesh hfits hvel) rfl
    · rw [solve_value hfew, h.formed.hierarchy]
      exact hready.finish hvel.count_le

end Step

end Checked

end MeshDiffusion
