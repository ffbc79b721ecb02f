import Mathlib.Tactic
import MeshDiffusion.Proofs.Access.Step
import MeshDiffusion.Proofs.Equation.History
import MeshDiffusion.Proofs.Mesh.Hierarchy

/-!
Access of the equation.

Construction is repeated here with every access checked: of the levels of the mesh, of the obstacles
and of the fields. With the checked steps it makes a program that stays inside all arrays, on every
mesh that was built, for every history of requests.

* `Checked.fillWallVelocity_eq`, `Checked.allocate_eq`, `Checked.make_eq`: construction, whether it
  fails or not;
* `MeshField.Packed` says what a field stores, and `ImplicitDiffusion.Sized` that every field that
  an equation owns is packed as it was allocated (`ImplicitDiffusion.sized_of_ready`);
* `Checked.history_inside`: no access of construction or of any sequence of requests leaves its
  array, and all owned fields keep their sizes.
-/

namespace MeshDiffusion

open ImplicitDiffusion

namespace Checked

/-! ### Construction -/

section Construction

variable {K : Type} [Scalar K] [Trig K]

/-- What is written at a cell of a box of some kind: the velocity of the surface, or zero unless the
obstacle cuts the box. -/
def wallValue (obstacle : Obstacle K) (speed : K) (kind : CellKind) (p : Point) (n : ℕ) : K :=
  match kind with
  | .covered | .regular => 0.0
  | .cut =>
    let v := rotatingVelocity (obstacle.normal p) speed
    match n with
    | 0 => v.x
    | 1 => v.y
    | _ => v.z

/-- Writes the velocity of the surface into the valid cells of every box that the obstacle cuts, and
zero into all other boxes, ghosts included. -/
def fillWallVelocity (vel : MeshField K) (obstacle : Obstacle K) (speed : K) :
    Option (MeshField K) :=
  let kinds := vel.layout.boxes.map obstacle.boxKind
  let places := (window vel.layout vel.ghosts 0 velocityComponents).filter fun a =>
    kinds.getD a.1.1 .regular ≠ .cut ∨ a.1.2 ∈ vel.layout.box a.1.1
  sweep vel places fun i p n _ => some (wallValue obstacle speed (kinds.getD i .regular) p n)

/-- A field of zeros on the cells of a level. -/
def zeroField (h : Hierarchy K) (level ncomp ghosts : ℕ) : Option (MeshField K) := do
  let mesh ← h.levels.get? level
  return .const mesh.layout mesh.owners ncomp ghosts 0.0

/-- Fields of zeros on the faces of a level. -/
def zeroFaceFields (h : Hierarchy K) (level ghosts : ℕ) : Option (Triple (MeshField K)) := do
  let mesh ← h.levels.get? level
  return .ofFn fun a => .const (mesh.layout.faces a) mesh.owners 1 ghosts 0.0

/-- The equation on checked surroundings, with fields for all levels. -/
def allocate (setup : Setup K) (config : DiffusionOptions K) (boundary : DomainBoundary) :
    Option (Standard K) := do
  let h := setup.hierarchy
  let levels := h.topLevel + 1
  let faces ← levelsOf levels fun l => zeroFaceFields h l setup.ghosts
  let solution ← levelsOf levels fun l => zeroField h l velocityComponents 1
  let rhs ← levelsOf levels fun l => zeroField h l velocityComponents 0
  let wallVelocity ← levelsOf levels fun l => do
    let zero ← zeroField h l velocityComponents setup.ghosts
    let obstacle ← setup.obstacles.get? l
    fillWallVelocity zero obstacle setup.speed
  let bound ← bindOperator .unbound h setup.obstacles ⟨config.maxCoarsening⟩
  return {
    hierarchy := h
    obstacles := setup.obstacles
    config := config
    ghosts := setup.ghosts
    speed := setup.speed
    boundary := boundary
    faces := faces
    solution := solution
    rhs := rhs
    wallVelocity := wallVelocity
    operator :=
      DiffusionOperator.setBoundary (DiffusionOperator.setWallOrder bound wallOrder) boundary
    solver := {} }

/-- Checks the configuration, the number of obstacles and the halo, and resolves the tags by the
geometry of the coarsest level. -/
def check (setup : Setup K) (config : DiffusionOptions K) :
    Option (Except (DiffusionFailure K) DomainBoundary) :=
  match config.validate with
  | .error e => some (.error (.config e))
  | .ok () =>
    let levels := setup.hierarchy.topLevel + 1
    if setup.obstacles.count < levels then
      some (.error (.mesh (.tooFewObstacles setup.obstacles.count levels)))
    else if setup.ghosts = 0 then some (.error (.mesh .noGhosts))
    else do
      let base ← setup.hierarchy.levels.get? 0
      return (setup.tags.resolve base.geometry.periodic setup.ghosts).mapError .boundary

/-- The equation with the finite-volume operator and residual correction. -/
def make (setup : Setup K) (config : DiffusionOptions K) :
    Option (Noted K (Except (DiffusionFailure K) (Standard K))) := do
  let heard := tell config .constructing
  let checked ← check setup config
  match checked with
  | .error e => return ⟨heard ++ failureNotices e, .error e⟩
  | .ok boundary =>
    let eq ← allocate setup config boundary
    return ⟨heard, .ok eq⟩

variable {setup : Setup K} {config : DiffusionOptions K} {boundary : DomainBoundary}

/-- The velocity of a surface is written where it is stored. -/
theorem fillWallVelocity_eq {vel : MeshField K} (h : velocityComponents ≤ vel.ncomp)
    (obstacle : Obstacle K) (speed : K) :
    fillWallVelocity vel obstacle speed
      = some (MeshDiffusion.fillWallVelocity vel obstacle speed) := by
  let kinds := vel.layout.boxes.map obstacle.boxKind
  simp only [fillWallVelocity]
  rw [sweep_eq (g := fun i p n _ => wallValue obstacle speed (kinds.getD i .regular) p n)
    (C := fun i p n => n < velocityComponents ∧
      (kinds.getD i .regular ≠ .cut ∨ p ∈ vel.layout.box i)) ((nodup_window ..).filter _)]
  · refine congrArg some (congrArg vel.update ?_)
    funext i p n old
    by_cases hn : velocityComponents ≤ n
    · simp [hn, not_lt.2 hn]
    · simp only [kinds, hn, not_le.1 hn, true_and, if_false]
      cases (vel.layout.boxes.map obstacle.boxKind).getD i .regular with
      | covered | regular => rfl
      | cut => exact if_congr (by simp) rfl rfl
  · intro i p n
    rw [List.mem_filter, decide_eq_true_iff, mem_window, Nat.zero_add]
    constructor
    · rintro ⟨⟨hi, hp, -, hn⟩, hkind⟩
      exact ⟨⟨hi, hp, hn.trans_le h⟩, hn, hkind⟩
    · rintro ⟨⟨hi, hp, -⟩, hn, hkind⟩
      exact ⟨⟨hi, hp, Nat.zero_le n, hn⟩, hkind⟩
  · exact fun _ _ _ _ _ => rfl

omit [Trig K] in
lemma zeroField_eq {h : Hierarchy K} {l : ℕ} (hl : l < h.levels.count) (ncomp ghosts : ℕ) :
    zeroField h l ncomp ghosts = some (h.zeroField l ncomp ghosts) :=
  bind_eq (get?_of_lt hl) rfl

omit [Trig K] in
lemma zeroFaceFields_eq {h : Hierarchy K} {l : ℕ} (hl : l < h.levels.count) (ghosts : ℕ) :
    zeroFaceFields h l ghosts = some (h.zeroFaceFields l ghosts) :=
  bind_eq (get?_of_lt hl) rfl

/-- **The allocation stays inside** a mesh that has all levels with boxes, if there is an obstacle
for each level. -/
theorem allocate_eq (hmesh : setup.hierarchy.active ≤ setup.hierarchy.levels.count)
    (hobstacles : setup.hierarchy.topLevel + 1 ≤ setup.obstacles.count) :
    allocate setup config boundary
      = some (ImplicitDiffusion.allocate setup config boundary FiniteVolume.unbound {}) := by
  have htop : setup.hierarchy.topLevel + 1 = setup.hierarchy.levels.count := by
    have hpos : 0 < setup.hierarchy.active := Nat.succ_pos _
    rw [Hierarchy.topLevel]
    omega
  have hlt : ∀ l < setup.hierarchy.topLevel + 1, l < setup.hierarchy.levels.count :=
    fun l hl => htop ▸ hl
  refine bind_eq (levelsOf_eq fun l hl => zeroFaceFields_eq (hlt l hl) _) ?_
  refine bind_eq (levelsOf_eq fun l hl => zeroField_eq (hlt l hl) ..) ?_
  refine bind_eq (levelsOf_eq fun l hl => zeroField_eq (hlt l hl) ..) ?_
  refine bind_eq (levelsOf_eq (G := fun l => MeshDiffusion.fillWallVelocity
    (setup.hierarchy.zeroField l velocityComponents setup.ghosts) (setup.obstacles.get l)
    setup.speed) fun l hl => ?_) ?_
  · refine bind_eq (zeroField_eq (hlt l hl) ..) ?_
    refine bind_eq (get?_of_lt (hl.trans_le hobstacles)) ?_
    exact fillWallVelocity_eq le_rfl _ _
  · exact bind_eq (bindOperator_eq hmesh _ _) rfl

omit [Trig K] in
/-- The check asks for the coarsest level only. -/
lemma check_eq (hmesh : 0 < setup.hierarchy.levels.count) :
    check setup config = some (ImplicitDiffusion.check setup config) := by
  rw [check, ImplicitDiffusion.check]
  cases config.validate with
  | error e => rfl
  | ok checked =>
      refine ite_eq (fun _ => rfl) fun _ => ?_
      refine ite_eq (fun _ => rfl) fun _ => ?_
      exact bind_eq (get?_of_lt hmesh) rfl

omit [Trig K] in
/-- A check that succeeds has found an obstacle for each level. -/
lemma count_obstacles_of_check (h : ImplicitDiffusion.check setup config = .ok boundary) :
    setup.hierarchy.topLevel + 1 ≤ setup.obstacles.count := by
  rw [ImplicitDiffusion.check] at h
  cases hvalid : config.validate with
  | error e => simp [hvalid] at h
  | ok checked =>
      simp only [hvalid] at h
      split_ifs at h with hfew
      exact not_lt.1 hfew

/-- **Construction stays inside**, whether the check of its surroundings fails or not. -/
theorem make_eq (hmesh : setup.hierarchy.active ≤ setup.hierarchy.levels.count) :
    make setup config = some (ImplicitDiffusion.make setup config) := by
  have hpos : 0 < setup.hierarchy.levels.count := (Nat.succ_pos _).trans_le hmesh
  refine bind_eq (check_eq hpos) ?_
  rw [ImplicitDiffusion.make, makeWith_eq]
  cases hcheck : ImplicitDiffusion.check setup config with
  | error e => rfl
  | ok boundary => exact bind_eq (allocate_eq hmesh (count_obstacles_of_check hcheck)) rfl

end Construction

end Checked

/-! ### What the equation owns -/

/-- A field keeps one block for each box, over the box and its halo, with a value for each component
of each of their points. -/
structure MeshField.Packed {K : Type} (f : MeshField K) (layout : Layout) (ncomp ghosts : ℕ) :
    Prop where
  layout_eq : f.layout = layout
  count : f.blocks.size = layout.count
  region : ∀ i (h : i < f.blocks.size), f.blocks[i].region = (layout.box i).grow ghosts
  components : ∀ i (h : i < f.blocks.size), f.blocks[i].ncomp = ncomp
  values : ∀ i (h : i < f.blocks.size),
    f.blocks[i].values.size = ncomp * ((layout.box i).grow ghosts).size

/-- A field is packed by its shape. -/
lemma MeshField.packed_of_shape {K : Type} {f : MeshField K} {layout : Layout} {owners : Ownership}
    {m k : ℕ} (h : f.shape = ⟨layout, owners, m, k⟩) : f.Packed layout m k := by
  obtain ⟨rfl, rfl, rfl, rfl⟩ := Shape.mk.inj h
  refine ⟨rfl, f.size_blocks, f.region_blocks, f.ncomp_blocks, fun i hi => ?_⟩
  rw [f.blocks[i].size_values, f.ncomp_blocks i hi, f.region_blocks i hi]

namespace ImplicitDiffusion

variable {K : Type} [Scalar K] {setup : Setup K} {config : DiffusionOptions K}
  {boundary : DomainBoundary} {eq fresh : Standard K} {l : ℕ}

/-- Every field that an equation owns is packed as it was allocated: the fields of all levels, and
those that its operator keeps for the levels with boxes. -/
structure Sized (setup : Setup K) (eq : Standard K) : Prop where
  counts : eq.faces.count = setup.hierarchy.topLevel + 1 ∧
    eq.rhs.count = setup.hierarchy.topLevel + 1 ∧
    eq.solution.count = setup.hierarchy.topLevel + 1 ∧
    eq.wallVelocity.count = setup.hierarchy.topLevel + 1 ∧
    eq.operator.levels.count = setup.hierarchy.active
  faces : ∀ l ≤ setup.hierarchy.topLevel, ∀ a, ((eq.faces.get l).get a).Packed
    ((setup.hierarchy.layout l).faces a) 1 setup.ghosts
  rhs : ∀ l ≤ setup.hierarchy.topLevel, (eq.rhs.get l).Packed
    (setup.hierarchy.layout l) velocityComponents 0
  solution : ∀ l ≤ setup.hierarchy.topLevel, (eq.solution.get l).Packed
    (setup.hierarchy.layout l) velocityComponents 1
  wallVelocity : ∀ l ≤ setup.hierarchy.topLevel, (eq.wallVelocity.get l).Packed
    (setup.hierarchy.layout l) velocityComponents setup.ghosts
  mass : ∀ l < setup.hierarchy.active, (eq.operator.levels.get l).mass.Packed
    (setup.hierarchy.layout l) 1 0
  viscosity : ∀ l < setup.hierarchy.active, ∀ a,
    ((eq.operator.levels.get l).viscosity.get a).Packed ((setup.hierarchy.layout l).faces a) 1 0
  obstacleViscosity : ∀ l < setup.hierarchy.active,
    (eq.operator.levels.get l).obstacleViscosity.Packed (setup.hierarchy.layout l) 1 0
  values : ∀ l < setup.hierarchy.active, ∀ bc, (eq.operator.levels.get l).boundary? = some bc →
    bc.Packed (setup.hierarchy.layout l) velocityComponents 1
  covered : ∀ l < setup.hierarchy.active, ∀ m, (eq.operator.levels.get l).covered? = some m →
    m.Packed (setup.hierarchy.layout l) 1 1

section Fresh

variable [Trig K]

/-- A fresh equation is ready; it has no boundary values yet. -/
lemma ready_allocate (hmesh : setup.hierarchy.active ≤ setup.hierarchy.levels.count)
    (config : DiffusionOptions K) (boundary : DomainBoundary) :
    Ready setup config boundary (allocate setup config boundary FiniteVolume.unbound {}) where
  mesh := hmesh
  formed := allocate_formed setup config boundary
  values l hl bc hbc := by
    have hs : l < setup.hierarchy.topLevel + 1 := by
      rw [Hierarchy.topLevel]
      omega
    rw [levelState_allocate config boundary hl hs] at hbc
    cases hbc

/-- The fields of a level have the shapes of the fresh equation: a step keeps the shapes on levels
with boxes and the fields themselves on the others. -/
lemma shapes_of_carried (h : Ready setup config boundary eq)
    (hcarried : Carried setup (allocate setup config boundary FiniteVolume.unbound {}) eq)
    (hl : l ≤ setup.hierarchy.topLevel) :
    (∀ a, ((eq.faces.get l).get a).shape = ⟨(setup.hierarchy.layout l).faces a,
      setup.hierarchy.owners l, 1, setup.ghosts⟩) ∧
    (eq.rhs.get l).shape
      = ⟨setup.hierarchy.layout l, setup.hierarchy.owners l, velocityComponents, 0⟩ ∧
    (eq.solution.get l).shape
      = ⟨setup.hierarchy.layout l, setup.hierarchy.owners l, velocityComponents, 1⟩ := by
  by_cases hactive : l < setup.hierarchy.active
  · have hlevel := h.level hactive
    exact ⟨hlevel.faces, hlevel.rhs, hlevel.solution⟩
  · have hsame := hcarried.outside l (not_lt.1 hactive)
    have hs : l < setup.hierarchy.topLevel + 1 := Nat.lt_succ_of_le hl
    have hfaces : eq.faces.get l = _ := congrArg LevelState.faces hsame
    have hrhs : eq.rhs.get l = _ := congrArg LevelState.rhs hsame
    have hsolution : eq.solution.get l = _ := congrArg LevelState.solution hsame
    rw [hfaces, hrhs, hsolution]
    simp only [levelState, allocate, Levels.get_ofFn hs, Hierarchy.zeroFaceFields, Triple.get_ofFn]
    exact ⟨fun a => rfl, rfl, rfl⟩

/-- What is ready and has carried over all that no step writes is sized. -/
theorem sized_of_ready (h : Ready setup config boundary eq)
    (hcarried : Carried setup (allocate setup config boundary FiniteVolume.unbound {}) eq) :
    Sized setup eq := by
  have hwall : eq.wallVelocity = .ofFn (setup.hierarchy.topLevel + 1) fun l =>
      fillWallVelocity (setup.hierarchy.zeroField l velocityComponents setup.ghosts)
        (setup.obstacles.get l) setup.speed := congrArg Constants.wallVelocity hcarried.constants
  refine ⟨⟨h.formed.count_faces, h.formed.count_rhs, h.formed.count_solution, ?_,
    h.formed.count_operator⟩, fun l hl a => ?_, fun l hl => ?_, fun l hl => ?_, fun l hl => ?_,
    fun l hl => ?_, fun l hl a => ?_, fun l hl => ?_, fun l hl bc hbc => ?_, fun l hl m hm => ?_⟩
  · rw [hwall, Levels.count_ofFn]
  · exact MeshField.packed_of_shape ((shapes_of_carried h hcarried hl).1 a)
  · exact MeshField.packed_of_shape (shapes_of_carried h hcarried hl).2.1
  · exact MeshField.packed_of_shape (shapes_of_carried h hcarried hl).2.2
  · rw [hwall, Levels.get_ofFn (Nat.lt_succ_of_le hl)]
    have hshape : (fillWallVelocity (setup.hierarchy.zeroField l velocityComponents setup.ghosts)
        (setup.obstacles.get l) setup.speed).shape = ⟨setup.hierarchy.layout l,
          setup.hierarchy.owners l, velocityComponents, setup.ghosts⟩ := rfl
    exact MeshField.packed_of_shape hshape
  · exact MeshField.packed_of_shape (h.level hl).mass
  · exact MeshField.packed_of_shape ((h.level hl).viscosity a)
  · exact MeshField.packed_of_shape (h.level hl).obstacleViscosity
  · exact MeshField.packed_of_shape (h.values l hl bc hbc)
  · obtain ⟨o, -, hmask⟩ := Option.bind_eq_some_iff.1 ((h.level hl).covered.symm.trans hm)
    exact MeshField.packed_of_shape (shape_bodyMask hmask)

end Fresh

/-- What is given to a request fits the mesh. -/
def Request.Fits (mesh : Hierarchy K) : Request K → Prop
  | .step vel ro eta _ => Checked.Given mesh vel ro eta
  | .updateMesh .. => True

end ImplicitDiffusion

/-! ### Histories -/

namespace Checked

variable {K : Type} [Scalar K] {setup : Setup K} {config : DiffusionOptions K}
  {boundary : DomainBoundary} {eq : Standard K}

/-- The equation after a request. The refusal of another mesh reads no field. -/
def perform (eq : Standard K) : Request K → Option (Standard K)
  | .step vel ro eta dt => do
    let step ← solve eq vel ro eta dt
    return step.value.equation
  | .updateMesh hierarchy obstacles =>
    match (eq.updateMesh hierarchy obstacles).value with
    | .ok () | .error _ => some eq

/-- A request stays inside and leaves the equation ready. -/
lemma perform_eq (h : Ready setup config boundary eq) {request : Request K}
    (hfits : request.Fits setup.hierarchy) :
    perform eq request = some (ImplicitDiffusion.perform eq request) ∧
      Ready setup config boundary (ImplicitDiffusion.perform eq request) := by
  cases request with
  | step vel ro eta dt =>
      obtain ⟨hsolve, hready⟩ := solve_eq h hfits dt
      exact ⟨bind_eq hsolve rfl, hready⟩
  | updateMesh hierarchy obstacles => exact ⟨rfl, h⟩

/-- **No access leaves its array.** On a mesh that was built, construction stays inside all arrays,
whether it fails or not. So does every sequence of requests to the equation that it makes, and every
step after them, if the fields of the steps are on the boxes of the mesh. All along, the equation
keeps the sizes of all fields that it owns. -/
theorem history_inside [Trig K] {plan : Hierarchy.Plan K}
    (hbuild : Hierarchy.build plan = .ok setup.hierarchy) (config : DiffusionOptions K)
    {requests : List (Request K)} (hfits : ∀ request ∈ requests, request.Fits setup.hierarchy) :
    make setup config = some (ImplicitDiffusion.make setup config) ∧
    ∀ fresh, (ImplicitDiffusion.make setup config).value = .ok fresh →
      let eq := requests.foldl ImplicitDiffusion.perform fresh
      requests.foldlM perform fresh = some eq ∧ Sized setup eq ∧
      ∀ vel ro eta dt, Given setup.hierarchy vel ro eta →
        solve eq vel ro eta dt = some (eq.solve vel ro eta dt) := by
  have hmesh := Hierarchy.active_le_count hbuild
  have hfinest := (Hierarchy.build_sound hbuild).finest_le
  refine ⟨make_eq hmesh, fun fresh hmake => ?_⟩
  obtain ⟨boundary, -, rfl⟩ := eq_allocate_of_make hmake
  have hready := ready_allocate hmesh config boundary
  obtain ⟨hperform, hlast⟩ := foldlM_eq_foldl (P := Ready setup config boundary)
    (G := ImplicitDiffusion.perform)
    (fun s hs request hrequest => perform_eq hs (hfits request hrequest)) hready
  obtain ⟨-, hcarried⟩ := history_carried hready.formed hfinest requests
  exact ⟨hperform, sized_of_ready hlast hcarried,
    fun vel ro eta dt hgiven => (solve_eq hlast hgiven dt).1⟩

lemma given_duct {ro : Levels (MeshField ℚ)} (hro : ro.count = 0 ∨ ro = ductOnes) :
    Given ductMesh ductVelocity ro ductOnes := by
  have hzero : ∀ l < ductMesh.active, l = 0 := fun l hl => Nat.lt_one_iff.1 hl
  have hones : (ductOnes.get 0).Fits (ductMesh.layout 0) 1 1 :=
    MeshField.fits_of_shape (shape_ductLevels 1 fun _ => 1) le_rfl le_rfl
  refine ⟨fun l hl _ => ?_, fun l hl hlt => ?_, fun l hl _ => ?_⟩
  · obtain rfl := hzero l hl
    exact MeshField.fits_of_shape (shape_ductLevels velocityComponents _) le_rfl le_rfl
  · obtain rfl := hzero l hl
    rcases hro with hnone | rfl
    · omega
    · exact hones.mono le_rfl (Nat.zero_le 1)
  · obtain rfl := hzero l hl
    exact hones

/-- In a duct, construction, a step, a refused mesh, a step without a density and one more step stay
inside. With a velocity without ghosts, a step would not. -/
theorem history_inside_duct :
    letI := trigAtZero
    let fresh := ductEquation .noSlipWall .dirichlet
    let requests : List (Request ℚ) :=
      [.step ductVelocity ductOnes ductOnes 2, .updateMesh ductMesh (.ofList []),
        .step ductVelocity (.ofList []) ductOnes 1]
    let eq := requests.foldl ImplicitDiffusion.perform fresh
    make (duct .noSlipWall) .defaults = some (ImplicitDiffusion.make (duct .noSlipWall) .defaults) ∧
    requests.foldlM perform fresh = some eq ∧ Sized (duct .noSlipWall) eq ∧
    solve eq ductVelocity ductOnes ductOnes 1 = some (eq.solve ductVelocity ductOnes ductOnes 1) ∧
    solve fresh (ductMesh.constantLevels velocityComponents 0 1) ductOnes ductOnes 1 = none := by
  let := trigAtZero
  intro fresh requests eq
  have hbuild : Hierarchy.build ductPlan = .ok (duct .noSlipWall).hierarchy := rfl
  have hmake : (ImplicitDiffusion.make (duct .noSlipWall) .defaults).value = .ok fresh :=
    make_duct rfl
  have hfits : ∀ request ∈ requests, request.Fits (duct .noSlipWall).hierarchy := by
    simp only [requests, List.forall_mem_cons]
    exact ⟨given_duct (.inr rfl), trivial, given_duct (.inl rfl), nofun⟩
  obtain ⟨hmade, hinside⟩ := history_inside hbuild .defaults hfits
  obtain ⟨hrequests, hsized, hsolve⟩ := hinside fresh hmake
  have hbare : (solve fresh (ductMesh.constantLevels velocityComponents 0 1) ductOnes ductOnes
      1).isNone = true := by decide +kernel
  exact ⟨hmade, hrequests, hsized, hsolve _ _ _ _ (given_duct (.inr rfl)),
    Option.isNone_iff_eq_none.1 hbare⟩

end Checked

end MeshDiffusion
