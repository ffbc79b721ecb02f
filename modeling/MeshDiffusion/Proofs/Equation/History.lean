import Mathlib.Tactic
import MeshDiffusion.Proofs.Equation.Balance

/-!
Steps do not depend on the steps before them.

An equation keeps its fields from one step to the next, also from a step that failed halfway. A step
overwrites nearly all of them before it reads them. What survives are the ghosts of the face fields
that no image of a box holds, which no step ever writes, and the levels without boxes, which no step
ever touches.

* `ImplicitDiffusion.Constants` is the part of an equation that no step changes;
* `ImplicitDiffusion.LevelFormed.load_eq`: two states of a level that agree on these ghosts are
  loaded into the same system;
* `ImplicitDiffusion.Carried` says that one equation has from another one all that a step cannot
  overwrite; a step carries it over (`ImplicitDiffusion.carried_solve`), and it decides the next step
  (`ImplicitDiffusion.Carried.solve_eq`);
* `ImplicitDiffusion.solve_history`: so a step after any history is the step of a fresh equation.
-/

namespace MeshDiffusion

/-! ### Faces -/

section Faces

variable {K : Type} [Scalar K] {faces faces' : Triple (MeshField K)} {cells : MeshField K}
  {a : Axis}

/-- Averaging leaves alone what no image of a box holds. -/
lemma get_averageToFaces_of_exposed {periods : Periods} {i n : ℕ} {p : Point}
    (h : (faces.get a).layout.Exposed periods p) :
    ((averageToFaces faces cells).get a).get i p n = (faces.get a).get i p n := by
  by_cases hst : (faces.get a).Stores i p n
  · have hw : ¬(faces.get a).Window 0 0 1 i p n := fun hw =>
      h.not_mem hst.1 (MeshField.window_zero_iff.1 hw).1
    rw [averageToFaces, Triple.get_ofFn, MeshField.get_update, if_pos hst, if_neg hw]
  · rw [MeshField.get_of_not_stores hst]
    exact MeshField.get_of_not_stores (mt (MeshField.stores_iff_of_shape shape_averageToFaces).1 hst)

/-- What averaging writes does not depend on what it is written over. -/
lemma averageToFaces_agrees (hshape : (faces.get a).shape = (faces'.get a).shape)
    (hncomp : (faces.get a).ncomp = 1) :
    ((averageToFaces faces cells).get a).Agrees ((averageToFaces faces' cells).get a) := by
  refine ⟨shape_averageToFaces.trans (hshape.trans shape_averageToFaces.symm),
    fun i p n hp => ?_⟩
  have hlayout : ((averageToFaces faces cells).get a).layout = (faces.get a).layout :=
    congrArg MeshField.Shape.layout shape_averageToFaces
  have hlayout' : (faces.get a).layout = (faces'.get a).layout :=
    congrArg MeshField.Shape.layout hshape
  rw [hlayout] at hp
  by_cases hst : (faces.get a).Stores i p n
  · obtain rfl : n = 0 := Nat.lt_one_iff.1 (hncomp ▸ hst.2.2)
    rw [get_averageToFaces ⟨hst, hp⟩,
      get_averageToFaces ⟨(MeshField.stores_iff_of_shape hshape).1 hst, hlayout' ▸ hp⟩]
  · have hst' : ¬(faces'.get a).Stores i p n := mt (MeshField.stores_iff_of_shape hshape).2 hst
    rw [MeshField.get_of_not_stores
        (mt (MeshField.stores_iff_of_shape shape_averageToFaces).1 hst),
      MeshField.get_of_not_stores
        (mt (MeshField.stores_iff_of_shape shape_averageToFaces).1 hst')]

end Faces

namespace ImplicitDiffusion

variable {K : Type} [Scalar K] {setup : Setup K} {config : DiffusionOptions K}
  {boundary : DomainBoundary}

/-! ### One level -/

section Level

variable {level : ℕ} {st st' st'' : LevelState K}

/-- The face fields of two states of a level agree at the ghosts that no image of a box holds. -/
def SameExposed (setup : Setup K) (level : ℕ) (st st' : LevelState K) : Prop :=
  ∀ a i p n, ((setup.hierarchy.layout level).faces a).Exposed
    (setup.hierarchy.geometry level).periods p →
      (st.faces.get a).get i p n = (st'.faces.get a).get i p n

lemma SameExposed.trans (h : SameExposed setup level st st')
    (h' : SameExposed setup level st' st'') : SameExposed setup level st st'' :=
  fun a i p n hfree => (h a i p n hfree).trans (h' a i p n hfree)

lemma SameExposed.symm (h : SameExposed setup level st st') :
    SameExposed setup level st' st :=
  fun a i p n hfree => (h a i p n hfree).symm

omit [Scalar K] in
/-- A field of a given shape stores its components on its boxes and their halo, and no more. -/
private lemma window_of_shape {f : MeshField K} {layout : Layout} {owners : Ownership}
    {ncomp ghosts : ℕ} (h : f.shape = ⟨layout, owners, ncomp, ghosts⟩) (i : ℕ) (p : Point) (n : ℕ)
    (hst : f.Stores i p n) : f.Window ghosts 0 ncomp i p n := by
  obtain ⟨-, hp, hn⟩ := (MeshField.stores_iff_shape h).1 hst
  have hlayout : f.layout = layout := congrArg MeshField.Shape.layout h
  rw [MeshField.Window, hlayout]
  exact ⟨hp, Nat.zero_le n, hn.trans_eq (Nat.zero_add ncomp).symm⟩

/-- Loading leaves the exposed ghosts of the face fields alone. -/
lemma LevelFormed.sameExposed_load (h : LevelFormed setup level st) (vel ro eta : MeshField K) :
    SameExposed setup level
      ((st.loadCoefficients (setup.hierarchy.geometry level) ro eta).loadSystem
        (setup.hierarchy.geometry level) vel ro) st := by
  intro a i p n hexposed
  have hlayout : (st.faces.get a).layout = (setup.hierarchy.layout level).faces a :=
    congrArg MeshField.Shape.layout (h.faces a)
  have haverage : ((averageToFaces st.faces eta).get a).layout = (st.faces.get a).layout :=
    congrArg MeshField.Shape.layout shape_averageToFaces
  rw [← hlayout] at hexposed
  simp only [LevelState.loadSystem, LevelState.loadCoefficients, Triple.get_map]
  rw [MeshField.get_exchange_of_exposed (haverage ▸ hexposed),
    get_averageToFaces_of_exposed hexposed]

/-- Two states of a level give the same face fields when they agree on what no step writes. -/
private lemma faces_eq (h : LevelFormed setup level st) (h' : LevelFormed setup level st')
    (hexposed : SameExposed setup level st st') (eta : MeshField K) :
    (averageToFaces st.faces eta).map (·.exchange (setup.hierarchy.geometry level).periods)
      = (averageToFaces st'.faces eta).map
        (·.exchange (setup.hierarchy.geometry level).periods) := by
  refine Triple.ext_get fun a => ?_
  have hshape : (st.faces.get a).shape = (st'.faces.get a).shape := (h.faces a).trans (h'.faces a).symm
  have hlayout : (st.faces.get a).layout = (setup.hierarchy.layout level).faces a :=
    congrArg MeshField.Shape.layout (h.faces a)
  have hlayout' : (st'.faces.get a).layout = (setup.hierarchy.layout level).faces a :=
    congrArg MeshField.Shape.layout (h'.faces a)
  have haverage : ((averageToFaces st.faces eta).get a).layout = (st.faces.get a).layout :=
    congrArg MeshField.Shape.layout shape_averageToFaces
  rw [Triple.get_map, Triple.get_map]
  refine MeshField.exchange_congr
    (averageToFaces_agrees hshape (congrArg MeshField.Shape.ncomp (h.faces a)))
    fun i p n _ hfree => ?_
  rw [haverage, hlayout] at hfree
  rw [get_averageToFaces_of_exposed (hlayout ▸ hfree),
    get_averageToFaces_of_exposed (hlayout' ▸ hfree)]
  exact hexposed a i p n hfree

/-- **Two states of a level are loaded into the same system** when they agree on what no step
writes. -/
theorem LevelFormed.load_eq (h : LevelFormed setup level st) (h' : LevelFormed setup level st')
    (hexposed : SameExposed setup level st st') (vel ro eta : MeshField K) :
    (st.loadCoefficients (setup.hierarchy.geometry level) ro eta).loadSystem
        (setup.hierarchy.geometry level) vel ro
      = (st'.loadCoefficients (setup.hierarchy.geometry level) ro eta).loadSystem
        (setup.hierarchy.geometry level) vel ro := by
  have hfaces := faces_eq h h' hexposed eta
  have hmass : st.operator.mass.copy ro 0 0 1 0 = st'.operator.mass.copy ro 0 0 1 0 :=
    MeshField.copy_congr (h.mass.trans h'.mass.symm) (window_of_shape h.mass)
  have hviscosity : ∀ (a : Axis) (b : MeshField K),
      (st.operator.viscosity.get a).copy b 0 0 1 0
        = (st'.operator.viscosity.get a).copy b 0 0 1 0 := fun a b =>
    MeshField.copy_congr ((h.viscosity a).trans (h'.viscosity a).symm)
      (window_of_shape (h.viscosity a))
  have hobstacle : st.operator.obstacleViscosity.copy eta 0 0 1 0
      = st'.operator.obstacleViscosity.copy eta 0 0 1 0 :=
    MeshField.copy_congr (h.obstacleViscosity.trans h'.obstacleViscosity.symm)
      (window_of_shape h.obstacleViscosity)
  have hrhs : st.rhs.copy vel 0 0 velocityComponents 0 = st'.rhs.copy vel 0 0 velocityComponents 0 :=
    MeshField.copy_congr (h.rhs.trans h'.rhs.symm) (window_of_shape h.rhs)
  have hsolution : st.solution.copy vel 0 0 velocityComponents 1
      = st'.solution.copy vel 0 0 velocityComponents 1 :=
    MeshField.copy_congr (h.solution.trans h'.solution.symm) (window_of_shape h.solution)
  have hgeometry : st.operator.geometry = st'.operator.geometry := h.geometry.trans h'.geometry.symm
  have hcovered : st.operator.covered? = st'.operator.covered? := h.covered.trans h'.covered.symm
  simp only [LevelState.loadCoefficients, LevelState.loadSystem, momentum, hfaces, hmass, hviscosity,
    hobstacle, hrhs, hsolution, hgeometry, hcovered]

end Level

/-! ### What no step changes -/

/-- The part of an equation that no step changes. -/
structure Constants (K : Type) where
  hierarchy : Hierarchy K
  obstacles : Levels (Obstacle K)
  config : DiffusionOptions K
  ghosts : ℕ
  speed : K
  boundary : DomainBoundary
  wallVelocity : Levels (MeshField K)
  operatorBoundary : DomainBoundary
  wallOrder : ℕ
  options : OperatorOptions

/-- The constants of an equation. -/
def constants (eq : Standard K) : Constants K :=
  ⟨eq.hierarchy, eq.obstacles, eq.config, eq.ghosts, eq.speed, eq.boundary, eq.wallVelocity,
    eq.operator.boundary, eq.operator.wallOrder, eq.operator.options⟩

variable {eq eq' eq'' : Standard K} {vel ro eta : Levels (MeshField K)} {dt : K} {n : ℕ}

lemma assemble_constants :
    (eq.assemble n vel ro eta dt).constants = eq.constants ∧
      (eq.assemble n vel ro eta dt).solver = eq.solver := by
  let Kept (s : Standard K) : Prop := s.constants = eq.constants ∧ s.solver = eq.solver
  have hscaled : Kept
      { eq with operator := DiffusionOperator.setAlphaBeta eq.operator 1.0 dt } := ⟨rfl, rfl⟩
  have hcoef := List.foldlRecOn (motive := Kept) (List.range n)
    (ImplicitDiffusion.loadCoefficients ro eta) hscaled fun s hs k _ => hs
  exact List.foldlRecOn (motive := Kept) (List.range n)
    (ImplicitDiffusion.loadSystem vel ro) hcoef fun s hs k _ => hs

lemma finish_constants {solved : Solved ResidualCorrection K} :
    (finish eq n vel solved).equation.constants = eq.constants := by
  rw [finish]
  cases solved.result with
  | error e => rfl
  | ok report => rfl

/-! ### What a step carries over -/

/-- One equation has the constants of another one, and all that a step does not overwrite. -/
structure Carried (setup : Setup K) (eq eq' : Standard K) : Prop where
  constants : eq'.constants = eq.constants
  exposed : ∀ l < setup.hierarchy.active, SameExposed setup l (eq'.levelState l) (eq.levelState l)
  outside : ∀ l, setup.hierarchy.active ≤ l → eq'.levelState l = eq.levelState l

lemma Carried.refl (setup : Setup K) (eq : Standard K) : Carried setup eq eq :=
  ⟨rfl, fun _ _ _ _ _ _ _ => rfl, fun _ _ => rfl⟩

lemma Carried.trans (h : Carried setup eq eq') (h' : Carried setup eq' eq'') :
    Carried setup eq eq'' where
  constants := h'.constants.trans h.constants
  exposed l hl := (h'.exposed l hl).trans (h.exposed l hl)
  outside l hl := (h'.outside l hl).trans (h.outside l hl)

/-- Assembly carries over what it does not write. -/
lemma assemble_carried (h : Formed setup config boundary eq)
    (hmesh : setup.hierarchy.finest ≤ setup.hierarchy.topLevel) :
    Carried setup eq (eq.assemble setup.hierarchy.active vel ro eta dt) where
  constants := assemble_constants.1
  exposed l hl := by
    have hs : l < setup.hierarchy.topLevel + 1 := hl.trans_le (Nat.succ_le_succ hmesh)
    rw [(assemble_levelState h ..).2 l hl hl hs]
    exact (h.level l hl hs).sameExposed_load _ _ _
  outside l hl := assemble_levelState_outside hl

/-- The end of a step changes the solution of the levels with boxes, and the solver. -/
lemma finish_carried {solved : Solved ResidualCorrection K} :
    Carried setup eq (finish eq setup.hierarchy.active vel solved).equation := by
  have hoverwrite : ∀ l, setup.hierarchy.active ≤ l →
      (overwrite eq.solution solved.solution setup.hierarchy.active).get l = eq.solution.get l := by
    intro l hl
    obtain ⟨-, hout, -⟩ := Levels.foldl_set (fun l _ => solved.solution.get l)
      (List.nodup_range (n := setup.hierarchy.active)) eq.solution
    rw [overwrite, Levels.get_eq_getD, hout l (mt List.mem_range.1 (not_lt.2 hl)),
      ← Levels.get_eq_getD]
  refine ⟨finish_constants, fun l _ a i p n _ => ?_, fun l hl => ?_⟩
  · rw [finish]
    cases solved.result with
    | error e => rfl
    | ok report => rfl
  · rw [finish]
    cases solved.result with
    | error e => simp only [levelState, hoverwrite l hl]
    | ok report =>
        obtain ⟨-, hstored, -⟩ := foldl_storeLevel eq.hierarchy setup.hierarchy.active
          (overwrite eq.solution solved.solution setup.hierarchy.active) vel
        simp only [levelState, hstored l hl, hoverwrite l hl]

/-- **A step carries over what it does not write**, whether it succeeds or not. -/
theorem carried_solve (h : Formed setup config boundary eq)
    (hmesh : setup.hierarchy.finest ≤ setup.hierarchy.topLevel) :
    Carried setup eq (eq.solve vel ro eta dt).value.equation := by
  by_cases hfew : min (min vel.count ro.count) eta.count < eq.hierarchy.active
  · rw [solve_few hfew]
    exact .refl setup eq
  · rw [solve_value hfew, h.hierarchy]
    exact (assemble_carried h hmesh).trans finish_carried

/-! ### What decides a step -/

/-- An equation is its constants, its scalars, what it stores for the levels, and its solver. -/
private lemma ext_levelState {solver : ResidualCorrection} (hconstants : eq'.constants = eq.constants)
    (hscalars : eq'.operator.alpha = eq.operator.alpha ∧ eq'.operator.beta = eq.operator.beta)
    (hsolver : eq'.solver = solver)
    (hcounts : eq'.operator.levels.count = eq.operator.levels.count ∧
      eq'.faces.count = eq.faces.count ∧ eq'.rhs.count = eq.rhs.count ∧
      eq'.solution.count = eq.solution.count)
    (hlevels : ∀ l, eq'.levelState l = eq.levelState l) :
    eq' = { eq with solver := solver } := by
  obtain ⟨hop, hfaces, hrhs, hsolution⟩ := hcounts
  have hoperators : eq'.operator.levels = eq.operator.levels :=
    Levels.ext_get hop fun l _ => congrArg LevelState.operator (hlevels l)
  have hfaceFields : eq'.faces = eq.faces :=
    Levels.ext_get hfaces fun l _ => congrArg LevelState.faces (hlevels l)
  have hrhss : eq'.rhs = eq.rhs :=
    Levels.ext_get hrhs fun l _ => congrArg LevelState.rhs (hlevels l)
  have hsolutions : eq'.solution = eq.solution :=
    Levels.ext_get hsolution fun l _ => congrArg LevelState.solution (hlevels l)
  obtain ⟨halpha, hbeta⟩ := hscalars
  obtain ⟨_, _, _, _, _, _, _, _, _, _, ⟨_, _, _, _, _, _⟩, _⟩ := eq
  obtain ⟨_, _, _, _, _, _, _, _, _, _, ⟨_, _, _, _, _, _⟩, _⟩ := eq'
  simp only [ImplicitDiffusion.constants, Constants.mk.injEq] at hconstants
  obtain ⟨rfl, rfl, rfl, rfl, rfl, rfl, rfl, rfl, rfl, rfl⟩ := hconstants
  simp only at hoperators hfaceFields hrhss hsolutions halpha hbeta hsolver
  subst hoperators hfaceFields hrhss hsolutions halpha hbeta hsolver
  rfl

/-- Two equations assemble the same system when one has from the other all that is not
overwritten. -/
lemma Carried.assemble_eq (h : Formed setup config boundary eq)
    (h' : Formed setup config boundary eq') (hcarried : Carried setup eq eq')
    (hmesh : setup.hierarchy.finest ≤ setup.hierarchy.topLevel) :
    eq'.assemble setup.hierarchy.active vel ro eta dt
      = { eq.assemble setup.hierarchy.active vel ro eta dt with solver := eq'.solver } := by
  obtain ⟨hformed, hstate⟩ := assemble_levelState h setup.hierarchy.active vel ro eta dt
  obtain ⟨hformed', hstate'⟩ := assemble_levelState h' setup.hierarchy.active vel ro eta dt
  obtain ⟨hconstants, hexposed, houtside⟩ := hcarried
  have hscalars : ∀ s : Standard K,
      (s.assemble setup.hierarchy.active vel ro eta dt).operator.alpha = 1.0 ∧
        (s.assemble setup.hierarchy.active vel ro eta dt).operator.beta = dt :=
    fun s => assemble_scalars
  refine ext_levelState ?_ ?_ assemble_constants.2 ?_ fun l => ?_
  · rw [assemble_constants.1, assemble_constants.1, hconstants]
  · exact ⟨(hscalars eq').1.trans (hscalars eq).1.symm, (hscalars eq').2.trans (hscalars eq).2.symm⟩
  · exact ⟨hformed'.count_operator.trans hformed.count_operator.symm,
      hformed'.count_faces.trans hformed.count_faces.symm,
      hformed'.count_rhs.trans hformed.count_rhs.symm,
      hformed'.count_solution.trans hformed.count_solution.symm⟩
  · by_cases hl : l < setup.hierarchy.active
    · have hs : l < setup.hierarchy.topLevel + 1 := hl.trans_le (Nat.succ_le_succ hmesh)
      rw [hstate' l hl hl hs, hstate l hl hl hs]
      exact (h'.level l hl hs).load_eq (h.level l hl hs) (hexposed l hl) ..
    · rw [assemble_levelState_outside (not_lt.1 hl), assemble_levelState_outside (not_lt.1 hl),
        houtside l (not_lt.1 hl)]

/-- **What is carried over decides the next step.** Only a step that fails for too few levels leaves
two equations as different as they were. -/
theorem Carried.solve_eq (h : Formed setup config boundary eq)
    (h' : Formed setup config boundary eq') (hcarried : Carried setup eq eq')
    (hmesh : setup.hierarchy.finest ≤ setup.hierarchy.topLevel)
    (henough : ¬min (min vel.count ro.count) eta.count < setup.hierarchy.active) :
    eq'.solve vel ro eta dt = eq.solve vel ro eta dt := by
  rw [solve, solve, h.hierarchy, h'.hierarchy]
  simp only [if_neg henough]
  rw [hcarried.assemble_eq h h' hmesh]
  rfl

/-! ### Histories -/

/-- What an equation can be asked for. -/
inductive Request (K : Type) where
  /-- A step. -/
  | step (vel ro eta : Levels (MeshField K)) (dt : K)
  /-- Another mesh. -/
  | updateMesh (hierarchy : Hierarchy K) (obstacles : Levels (Obstacle K))

/-- The equation after a request. Another mesh is refused and leaves the equation as it was. -/
def perform (eq : Standard K) : Request K → Standard K
  | .step vel ro eta dt => (eq.solve vel ro eta dt).value.equation
  | .updateMesh hierarchy obstacles =>
    match (eq.updateMesh hierarchy obstacles).value with
    | .ok () | .error _ => eq

/-- What no step writes is carried over by every request. -/
lemma perform_carried (h : Formed setup config boundary eq)
    (hmesh : setup.hierarchy.finest ≤ setup.hierarchy.topLevel) (request : Request K) :
    Formed setup config boundary (perform eq request) ∧
      Carried setup eq (perform eq request) := by
  cases request with
  | step vel ro eta dt => exact ⟨solve_formed h, carried_solve h hmesh⟩
  | updateMesh hierarchy obstacles => exact ⟨h, .refl setup eq⟩

/-- What no step writes is carried over by every history. -/
theorem history_carried (h : Formed setup config boundary eq)
    (hmesh : setup.hierarchy.finest ≤ setup.hierarchy.topLevel) (history : List (Request K)) :
    Formed setup config boundary (history.foldl perform eq) ∧
      Carried setup eq (history.foldl perform eq) := by
  induction history generalizing eq with
  | nil => exact ⟨h, .refl setup eq⟩
  | cons request history ih =>
      obtain ⟨hnext, hcarried⟩ := perform_carried h hmesh request
      obtain ⟨hformed, hrest⟩ := ih hnext
      exact ⟨hformed, hcarried.trans hrest⟩

/-- **Every step is independent of the history.** Whatever a fresh equation was asked for before, a
step ends with the same result and the same velocity as on the fresh equation. On enough levels it is
the same step in everything it leaves behind: the notices, the right-hand side, the solution, the
viscosity on faces and the operator. The mesh is promised to have the levels that it has boxes
for. -/
theorem solve_history [Trig K] {fresh : Standard K} (hmake : (make setup config).value = .ok fresh)
    (hmesh : setup.hierarchy.finest ≤ setup.hierarchy.topLevel) (history : List (Request K))
    (vel ro eta : Levels (MeshField K)) (dt : K) :
    let eq := history.foldl perform fresh
    (eq.solve vel ro eta dt).value.result = (fresh.solve vel ro eta dt).value.result ∧
    (eq.solve vel ro eta dt).value.velocity = (fresh.solve vel ro eta dt).value.velocity ∧
    (setup.hierarchy.active ≤ min (min vel.count ro.count) eta.count →
      eq.solve vel ro eta dt = fresh.solve vel ro eta dt) ∧
    eq.boundary = fresh.boundary ∧ eq.config = fresh.config ∧
      eq.wallVelocity = fresh.wallVelocity := by
  intro eq
  obtain ⟨boundary, -, hfresh⟩ := (Reached.made hmake).formed
  obtain ⟨hformed, hcarried⟩ := history_carried hfresh hmesh history
  have hsame : setup.hierarchy.active ≤ min (min vel.count ro.count) eta.count →
      eq.solve vel ro eta dt = fresh.solve vel ro eta dt := fun henough =>
    hcarried.solve_eq hfresh hformed hmesh (not_lt.2 henough)
  have hhierarchy : eq.hierarchy = fresh.hierarchy :=
    hformed.hierarchy.trans hfresh.hierarchy.symm
  have hends : (eq.solve vel ro eta dt).value.result = (fresh.solve vel ro eta dt).value.result ∧
      (eq.solve vel ro eta dt).value.velocity = (fresh.solve vel ro eta dt).value.velocity := by
    by_cases hfew : min (min vel.count ro.count) eta.count < setup.hierarchy.active
    · rw [solve_few (hformed.hierarchy ▸ hfew), solve_few (hfresh.hierarchy ▸ hfew)]
      simp only [Noted.quiet, hhierarchy, and_self]
    · rw [hsame (not_lt.1 hfew)]
      exact ⟨rfl, rfl⟩
  have hconstants := hcarried.constants
  exact ⟨hends.1, hends.2, hsame, congrArg Constants.boundary hconstants,
    congrArg Constants.config hconstants, congrArg Constants.wallVelocity hconstants⟩

/-- In a duct, a step that follows another one, a refused mesh and a step without a density is the
step of a fresh equation. -/
theorem solve_history_duct :
    letI := trigAtZero
    let fresh := ductEquation .noSlipWall .dirichlet
    let history : List (Request ℚ) :=
      [.step ductVelocity ductOnes ductOnes 2, .updateMesh ductMesh (.ofList []),
        .step ductVelocity (.ofList []) ductOnes 1]
    (fresh.solve ductVelocity ductOnes ductOnes 1).value.result.isOk = true ∧
    (history.foldl perform fresh).solve ductVelocity ductOnes ductOnes 1
      = fresh.solve ductVelocity ductOnes ductOnes 1 ∧
    (history.foldl perform fresh).wallVelocity = fresh.wallVelocity := by
  let := trigAtZero
  intro fresh history
  have hmake : (make (duct .noSlipWall) .defaults).value = .ok fresh := make_duct rfl
  have hmesh : (duct .noSlipWall).hierarchy.finest ≤ (duct .noSlipWall).hierarchy.topLevel :=
    le_rfl
  have henough : (duct .noSlipWall).hierarchy.active
      ≤ min (min ductVelocity.count ductOnes.count) ductOnes.count := by decide +kernel
  obtain ⟨-, -, hsame, -, -, hwall⟩ :=
    solve_history hmake hmesh history ductVelocity ductOnes ductOnes 1
  exact ⟨isOk_solve_duct, hsame henough, hwall⟩

end ImplicitDiffusion

end MeshDiffusion
