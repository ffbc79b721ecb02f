import Mathlib.Tactic
import MeshDiffusion.Equation.Basic
import MeshDiffusion.Proofs.Solver.ResidualCorrection

/-!
The system of a step, level by level.

A step runs over the levels and changes what is stored for one of them at a time. `LevelState`
collects what is stored for a level; loading the coefficients and loading the system are functions
of it, and what they do to one level is never undone by another one (`foldl_local`).

* `LevelState.loadCoefficients`, `LevelState.loadSystem`: the two halves of the assembly on a level;
* `ImplicitDiffusion.Formed`: every level of an equation has the shapes, the geometry and the
  covered cells that it was set up with; assembly keeps it;
* `ImplicitDiffusion.assemble_levelState`: the system of a level is assembled from what was stored
  for that level.
-/

namespace MeshDiffusion

/-! ### Levels one after another -/

/-- Steps that change one place each, at different places, change every place from its own old
value. `P` is what the steps keep, and `Q` says which places can be changed. -/
theorem foldl_local {σ β : Type} {P : σ → Prop} {Q : ℕ → Prop} {F : σ → ℕ → σ} {v : σ → ℕ → β}
    {G : ℕ → β → β} (hP : ∀ s, P s → ∀ k, P (F s k))
    (hself : ∀ s, P s → ∀ k, Q k → v (F s k) k = G k (v s k))
    (hother : ∀ s k j, j ≠ k → v (F s k) j = v s j) {ks : List ℕ} (hnodup : ks.Nodup) {s : σ}
    (hs : P s) :
    P (ks.foldl F s) ∧ (∀ j, j ∉ ks → v (ks.foldl F s) j = v s j) ∧
      ∀ j ∈ ks, Q j → v (ks.foldl F s) j = G j (v s j) := by
  induction ks generalizing s with
  | nil => exact ⟨hs, fun _ _ => rfl, fun _ h => nomatch h⟩
  | cons k ks ih =>
      obtain ⟨hk, hnodup⟩ := List.nodup_cons.1 hnodup
      obtain ⟨hkept, hout, hin⟩ := ih hnodup (hP s hs k)
      refine ⟨hkept, fun j hj => ?_, fun j hj hQ => ?_⟩
      · obtain ⟨hne, hj⟩ := List.ne_and_not_mem_of_not_mem_cons hj
        exact (hout j hj).trans (hother s k j hne)
      · rcases List.mem_cons.1 hj with rfl | hj
        · exact (hout j hk).trans (hself s hs j hQ)
        · have hne : j ≠ k := fun h => hk (h ▸ hj)
          rw [List.foldl_cons, hin j hj hQ, hother s k j hne]

/-! ### What is stored for a level -/

/-- What an equation stores for one level and reads or writes in a step. -/
structure LevelState (K : Type) where
  operator : LevelOperator K
  faces : Triple (MeshField K)
  rhs : MeshField K
  solution : MeshField K

namespace LevelState

variable {K : Type} [Scalar K]

/-- Averages the viscosity to faces and loads it and the density into the operator. -/
def loadCoefficients (geometry : Geometry K) (ro eta : MeshField K) (st : LevelState K) :
    LevelState K :=
  let faces := (averageToFaces st.faces eta).map (·.exchange geometry.periods)
  { st with
    faces := faces
    operator :=
      { st.operator with
        mass := st.operator.mass.copy ro 0 0 1 0
        viscosity := .ofFn fun a => (st.operator.viscosity.get a).copy (faces.get a) 0 0 1 0
        obstacleViscosity := st.operator.obstacleViscosity.copy eta 0 0 1 0 } }

/-- Loads the momentum as right-hand side, and the velocity as first guess and boundary values. -/
def loadSystem (geometry : Geometry K) (vel ro : MeshField K) (st : LevelState K) : LevelState K :=
  let phi := (st.solution.copy vel 0 0 velocityComponents 1).exchange geometry.periods
  { st with
    rhs := momentum st.rhs vel ro
    solution := phi
    operator := { st.operator with boundary? := some phi } }

end LevelState

namespace ImplicitDiffusion

variable {K : Type} [Scalar K]

/-- The equation with the finite-volume operator and residual correction. -/
abbrev Standard (K : Type) := ImplicitDiffusion (FiniteVolume K) ResidualCorrection K

/-- What an equation stores for a level. -/
def levelState (eq : Standard K) (level : ℕ) : LevelState K :=
  ⟨eq.operator.levels.get level, eq.faces.get level, eq.rhs.get level, eq.solution.get level⟩

/-! ### What a step keeps -/

/-- The shapes, the geometry and the covered cells of a level. -/
structure LevelFormed (setup : Setup K) (level : ℕ) (st : LevelState K) : Prop where
  geometry : st.operator.geometry = setup.hierarchy.geometry level
  covered : st.operator.covered? = (setup.obstacles.get? level).bind
    (bodyMask (setup.hierarchy.layout level) (setup.hierarchy.owners level))
  mass : st.operator.mass.shape
    = ⟨setup.hierarchy.layout level, setup.hierarchy.owners level, 1, 0⟩
  viscosity : ∀ a, (st.operator.viscosity.get a).shape
    = ⟨(setup.hierarchy.layout level).faces a, setup.hierarchy.owners level, 1, 0⟩
  obstacleViscosity : st.operator.obstacleViscosity.shape
    = ⟨setup.hierarchy.layout level, setup.hierarchy.owners level, 1, 0⟩
  faces : ∀ a, (st.faces.get a).shape
    = ⟨(setup.hierarchy.layout level).faces a, setup.hierarchy.owners level, 1, setup.ghosts⟩
  rhs : st.rhs.shape
    = ⟨setup.hierarchy.layout level, setup.hierarchy.owners level, velocityComponents, 0⟩
  solution : st.solution.shape
    = ⟨setup.hierarchy.layout level, setup.hierarchy.owners level, velocityComponents, 1⟩

/-- An equation is still the one that was set up, apart from the values of its fields. -/
structure Formed (setup : Setup K) (config : DiffusionOptions K) (boundary : DomainBoundary)
    (eq : Standard K) : Prop where
  hierarchy : eq.hierarchy = setup.hierarchy
  config : eq.config = config
  boundary : eq.operator.boundary = boundary
  order : eq.operator.wallOrder = wallOrder
  count_operator : eq.operator.levels.count = setup.hierarchy.active
  count_faces : eq.faces.count = setup.hierarchy.topLevel + 1
  count_rhs : eq.rhs.count = setup.hierarchy.topLevel + 1
  count_solution : eq.solution.count = setup.hierarchy.topLevel + 1
  level : ∀ l < setup.hierarchy.active, l < setup.hierarchy.topLevel + 1 →
    LevelFormed setup l (eq.levelState l)

variable {setup : Setup K} {config : DiffusionOptions K} {boundary : DomainBoundary}
  {eq : Standard K} {level : ℕ} {st : LevelState K}

lemma LevelFormed.loadCoefficients (h : LevelFormed setup level st) (geometry : Geometry K)
    (ro eta : MeshField K) : LevelFormed setup level (st.loadCoefficients geometry ro eta) where
  geometry := h.geometry
  covered := h.covered
  mass := h.mass
  viscosity a := by
    simp only [LevelState.loadCoefficients, Triple.get_ofFn]
    exact h.viscosity a
  obstacleViscosity := h.obstacleViscosity
  faces a := by
    simp only [LevelState.loadCoefficients, averageToFaces, Triple.get_map, Triple.get_ofFn]
    exact h.faces a
  rhs := h.rhs
  solution := h.solution

lemma LevelFormed.loadSystem (h : LevelFormed setup level st) (geometry : Geometry K)
    (vel ro : MeshField K) : LevelFormed setup level (st.loadSystem geometry vel ro) where
  geometry := h.geometry
  covered := h.covered
  mass := h.mass
  viscosity := h.viscosity
  obstacleViscosity := h.obstacleViscosity
  faces := h.faces
  rhs := h.rhs
  solution := h.solution

/-! ### One level of the assembly -/

variable {vel ro eta : Levels (MeshField K)} {dt : K} {k : ℕ}

lemma levelState_loadCoefficients (hop : k < eq.operator.levels.count)
    (hfaces : k < eq.faces.count) :
    (loadCoefficients ro eta eq k).levelState k
      = (eq.levelState k).loadCoefficients (eq.hierarchy.geometry k) (ro.get k) (eta.get k) := by
  simp only [levelState, loadCoefficients, levelCoefficients, LevelState.loadCoefficients,
    DiffusionOperator.setMass, DiffusionOperator.setFaceViscosity,
    DiffusionOperator.setObstacleViscosity, FiniteVolume.onLevel]
  rw [Levels.get_modify_self (by simpa using hop), Levels.get_modify_self (by simpa using hop),
    Levels.get_modify_self hop, Levels.get_set_self hfaces]

lemma levelState_loadCoefficients_of_ne {j : ℕ} (h : j ≠ k) :
    (loadCoefficients ro eta eq k).levelState j = eq.levelState j := by
  simp only [levelState, loadCoefficients, levelCoefficients, DiffusionOperator.setMass,
    DiffusionOperator.setFaceViscosity, DiffusionOperator.setObstacleViscosity,
    FiniteVolume.onLevel]
  rw [Levels.get_modify_of_ne h, Levels.get_modify_of_ne h, Levels.get_modify_of_ne h,
    Levels.get_set_of_ne h]

lemma levelState_loadSystem (hop : k < eq.operator.levels.count) (hrhs : k < eq.rhs.count)
    (hsolution : k < eq.solution.count) :
    (loadSystem vel ro eq k).levelState k
      = (eq.levelState k).loadSystem (eq.hierarchy.geometry k) (vel.get k) (ro.get k) := by
  simp only [levelState, loadSystem, firstGuess, LevelState.loadSystem,
    DiffusionOperator.setBoundaryValues, FiniteVolume.onLevel]
  rw [Levels.get_modify_self hop, Levels.get_set_self hrhs, Levels.get_set_self hsolution]

lemma levelState_loadSystem_of_ne {j : ℕ} (h : j ≠ k) :
    (loadSystem vel ro eq k).levelState j = eq.levelState j := by
  simp only [levelState, loadSystem, firstGuess, DiffusionOperator.setBoundaryValues,
    FiniteVolume.onLevel]
  rw [Levels.get_modify_of_ne h, Levels.get_set_of_ne h, Levels.get_set_of_ne h]

lemma Formed.loadCoefficients (h : Formed setup config boundary eq) (k : ℕ) :
    Formed setup config boundary (loadCoefficients ro eta eq k) where
  hierarchy := h.hierarchy
  config := h.config
  boundary := h.boundary
  order := h.order
  count_operator := by
    rw [← h.count_operator]
    exact (Levels.count_modify ..).trans
      ((Levels.count_modify ..).trans (Levels.count_modify ..))
  count_faces := (Levels.count_set ..).trans h.count_faces
  count_rhs := h.count_rhs
  count_solution := h.count_solution
  level l hl hs := by
    by_cases hlk : l = k
    · subst hlk
      rw [levelState_loadCoefficients (h.count_operator ▸ hl) (h.count_faces ▸ hs)]
      exact (h.level l hl hs).loadCoefficients ..
    · rw [levelState_loadCoefficients_of_ne hlk]
      exact h.level l hl hs

lemma Formed.loadSystem (h : Formed setup config boundary eq) (k : ℕ) :
    Formed setup config boundary (loadSystem vel ro eq k) where
  hierarchy := h.hierarchy
  config := h.config
  boundary := h.boundary
  order := h.order
  count_operator := (Levels.count_modify ..).trans h.count_operator
  count_faces := h.count_faces
  count_rhs := (Levels.count_set ..).trans h.count_rhs
  count_solution := (Levels.count_set ..).trans h.count_solution
  level l hl hs := by
    by_cases hlk : l = k
    · subst hlk
      rw [levelState_loadSystem (h.count_operator ▸ hl) (h.count_rhs ▸ hs)
        (h.count_solution ▸ hs)]
      exact (h.level l hl hs).loadSystem ..
    · rw [levelState_loadSystem_of_ne hlk]
      exact h.level l hl hs

/-- An equation keeps its form when its solution is replaced by one of its shape. -/
lemma Formed.withSolution (h : Formed setup config boundary eq) (solver : ResidualCorrection)
    {solution : Levels (MeshField K)} (hcount : solution.count = eq.solution.count)
    (hshape : ∀ l < eq.solution.count, (solution.get l).shape = (eq.solution.get l).shape) :
    Formed setup config boundary { eq with solver := solver, solution := solution } where
  hierarchy := h.hierarchy
  config := h.config
  boundary := h.boundary
  order := h.order
  count_operator := h.count_operator
  count_faces := h.count_faces
  count_rhs := h.count_rhs
  count_solution := hcount.trans h.count_solution
  level l hl hs :=
    { h.level l hl hs with
      solution := (hshape l (h.count_solution ▸ hs)).trans (h.level l hl hs).solution }

/-! ### All levels -/

/-- **A step assembles the system of each level from what was stored for it**, and the equation
keeps its form. -/
theorem assemble_levelState (h : Formed setup config boundary eq) (n : ℕ)
    (vel ro eta : Levels (MeshField K)) (dt : K) :
    Formed setup config boundary (eq.assemble n vel ro eta dt) ∧
    ∀ l < n, l < setup.hierarchy.active → l < setup.hierarchy.topLevel + 1 →
      (eq.assemble n vel ro eta dt).levelState l
        = ((eq.levelState l).loadCoefficients (setup.hierarchy.geometry l) (ro.get l)
            (eta.get l)).loadSystem (setup.hierarchy.geometry l) (vel.get l) (ro.get l) := by
  let scaled : Standard K :=
    { eq with operator := DiffusionOperator.setAlphaBeta eq.operator 1.0 dt }
  have hscaled : Formed setup config boundary scaled := ⟨h.hierarchy, h.config, h.boundary,
    h.order, h.count_operator, h.count_faces, h.count_rhs, h.count_solution, h.level⟩
  have hnodup : (List.range n).Nodup := List.nodup_range
  let stored (l : ℕ) : Prop := l < setup.hierarchy.active ∧ l < setup.hierarchy.topLevel + 1
  obtain ⟨hcoef, -, hcoefl⟩ := foldl_local (v := levelState) (Q := stored)
    (F := ImplicitDiffusion.loadCoefficients ro eta)
    (G := fun l st => st.loadCoefficients (setup.hierarchy.geometry l) (ro.get l) (eta.get l))
    (fun s hs k => hs.loadCoefficients k)
    (fun s hs k hk => by
      rw [levelState_loadCoefficients (hs.count_operator ▸ hk.1) (hs.count_faces ▸ hk.2),
        hs.hierarchy])
    (fun s k j hj => levelState_loadCoefficients_of_ne hj) hnodup hscaled
  obtain ⟨hsys, -, hsysl⟩ := foldl_local (v := levelState) (Q := stored)
    (F := ImplicitDiffusion.loadSystem vel ro)
    (G := fun l st => st.loadSystem (setup.hierarchy.geometry l) (vel.get l) (ro.get l))
    (fun s hs k => hs.loadSystem k)
    (fun s hs k hk => by
      rw [levelState_loadSystem (hs.count_operator ▸ hk.1) (hs.count_rhs ▸ hk.2)
        (hs.count_solution ▸ hk.2), hs.hierarchy])
    (fun s k j hj => levelState_loadSystem_of_ne hj) hnodup hcoef
  refine ⟨hsys, fun l hl ha hs => ?_⟩
  exact (hsysl l (List.mem_range.2 hl) ⟨ha, hs⟩).trans
    (congrArg _ (hcoefl l (List.mem_range.2 hl) ⟨ha, hs⟩))

/-- A step on the first levels leaves what is stored for the others alone. -/
lemma assemble_levelState_outside {n l : ℕ} (hl : n ≤ l) :
    (eq.assemble n vel ro eta dt).levelState l = eq.levelState l := by
  let Kept (s : Standard K) : Prop := s.levelState l = eq.levelState l
  have hne : ∀ k ∈ List.range n, l ≠ k := fun k hk => by
    have := List.mem_range.1 hk
    omega
  have hscaled : Kept
      { eq with operator := DiffusionOperator.setAlphaBeta eq.operator 1.0 dt } := rfl
  have hcoef := List.foldlRecOn (motive := Kept) (List.range n)
    (ImplicitDiffusion.loadCoefficients ro eta) hscaled
    fun s hs k hk => (levelState_loadCoefficients_of_ne (hne k hk)).trans hs
  exact List.foldlRecOn (motive := Kept) (List.range n) (ImplicitDiffusion.loadSystem vel ro) hcoef
    fun s hs k hk => (levelState_loadSystem_of_ne (hne k hk)).trans hs

/-- The scalars of an assembled operator are one and the length of the step. -/
lemma assemble_scalars {n : ℕ} :
    (eq.assemble n vel ro eta dt).operator.alpha = 1.0 ∧
      (eq.assemble n vel ro eta dt).operator.beta = dt := by
  let Scaled (s : Standard K) : Prop := s.operator.alpha = 1.0 ∧ s.operator.beta = dt
  have hscaled : Scaled
      { eq with operator := DiffusionOperator.setAlphaBeta eq.operator 1.0 dt } := ⟨rfl, rfl⟩
  have hcoef := List.foldlRecOn (motive := Scaled) (List.range n)
    (ImplicitDiffusion.loadCoefficients ro eta) hscaled fun s hs k _ => hs
  exact List.foldlRecOn (motive := Scaled) (List.range n)
    (ImplicitDiffusion.loadSystem vel ro) hcoef fun s hs k _ => hs

end ImplicitDiffusion

/-! ### What was assembled -/

section Values

variable {K : Type} [Scalar K] {i n : ℕ} {p : Point}

/-- The first `m` components multiplied by a density, one after another. -/
private lemma get_foldl_mulFrom {f ro : MeshField K} (m : ℕ) (hst : f.Stores i p n)
    (hp : p ∈ f.layout.box i) :
    ((List.range m).foldl (fun f n => f.mulFrom ro 0 n 1 f.ghosts) f).shape = f.shape ∧
    ((List.range m).foldl (fun f n => f.mulFrom ro 0 n 1 f.ghosts) f).get i p n
      = if n < m then f.get i p n * ro.get i p 0 else f.get i p n := by
  induction m with
  | zero => exact ⟨rfl, by simp⟩
  | succ m ih =>
      obtain ⟨hshape, hget⟩ := ih
      rw [List.range_succ, List.foldl_append, List.foldl_cons, List.foldl_nil]
      refine ⟨hshape, ?_⟩
      generalize (List.range m).foldl (fun f n => f.mulFrom ro 0 n 1 f.ghosts) f = g at hshape hget
      have hl : g.layout = f.layout := congrArg MeshField.Shape.layout hshape
      have hw : g.Window g.ghosts m 1 i p n ↔ n = m := by
        rw [MeshField.Window, hl]
        constructor
        · rintro ⟨-, hle, hlt⟩
          omega
        · rintro rfl
          exact ⟨Box.mem_grow_of_mem _ hp, le_rfl, by omega⟩
      rw [MeshField.mulFrom, MeshField.get_combine _ ((MeshField.stores_iff_of_shape hshape).2 hst),
        hget]
      by_cases hn : n = m
      · subst hn
        rw [if_pos (hw.2 rfl), if_neg (lt_irrefl n), if_pos (Nat.lt_succ_self n), Nat.sub_self]
      · rw [if_neg (mt hw.1 hn)]
        exact if_congr (by omega) rfl rfl

/-- The momentum of a valid cell. -/
lemma get_momentum {rhs vel ro : MeshField K} (h : rhs.Stores i p n ∧ p ∈ rhs.layout.box i)
    (hn : n < velocityComponents) :
    (momentum rhs vel ro).get i p n = vel.get i p n * ro.get i p 0 := by
  obtain ⟨hst, hp⟩ := h
  have hcopy : (rhs.copy vel 0 0 velocityComponents 0).Stores i p n := hst
  have hw : rhs.Window 0 0 velocityComponents i p n :=
    MeshField.window_zero_iff.2 ⟨hp, Nat.zero_le n, by omega⟩
  rw [momentum, (get_foldl_mulFrom velocityComponents hcopy hp).2, if_pos hn,
    MeshField.get_copy hst, if_pos hw, Nat.zero_add, Nat.sub_zero]

lemma shape_averageToFaces {faces : Triple (MeshField K)} {cells : MeshField K} {a : Axis} :
    ((averageToFaces faces cells).get a).shape = (faces.get a).shape := by
  rw [averageToFaces, Triple.get_ofFn]
  exact MeshField.shape_update ..

/-- A valid face holds half the sum of the cells beside it. -/
lemma get_averageToFaces {faces : Triple (MeshField K)} {cells : MeshField K} {a : Axis}
    (h : (faces.get a).Stores i p 0 ∧ p ∈ (faces.get a).layout.box i) :
    ((averageToFaces faces cells).get a).get i p 0
      = 0.5 * (cells.get i (p.move a (-1)) 0 + cells.get i p 0) := by
  obtain ⟨hst, hp⟩ := h
  have hw : (faces.get a).Window 0 0 1 i p 0 := MeshField.window_zero_iff.2 ⟨hp, le_rfl, by omega⟩
  rw [averageToFaces, Triple.get_ofFn, MeshField.get_update, if_pos hst, if_pos hw]

/-- Half the sum of a cell and its neighbour over a face, the lower one first. -/
def faceAverage (cells : MeshField K) (i : ℕ) (p : Point) (f : Face) : K :=
  match f.side with
  | .lo => 0.5 * (cells.get i (p.move f.axis (-1)) 0 + cells.get i p 0)
  | .hi => 0.5 * (cells.get i p 0 + cells.get i (p.move f.axis 1) 0)

namespace ImplicitDiffusion

variable {setup : Setup K} {level : ℕ} {st : LevelState K} {geometry : Geometry K}
  {vel ro eta : MeshField K}

/-- The coefficients, the right-hand side and the boundary values that a step assembles on a
level. -/
theorem LevelFormed.assembled (h : LevelFormed setup level st)
    (hi : i < (setup.hierarchy.layout level).count) :
    let st' := (st.loadCoefficients geometry ro eta).loadSystem geometry vel ro
    (∀ p ∈ (setup.hierarchy.layout level).box i, st'.operator.mass.get i p 0 = ro.get i p 0) ∧
    (∀ p ∈ (setup.hierarchy.layout level).box i, ∀ f,
      st'.operator.faceViscosity i p f = faceAverage eta i p f) ∧
    (∀ p ∈ (setup.hierarchy.layout level).box i, ∀ n < velocityComponents,
      st'.rhs.get i p n = vel.get i p n * ro.get i p 0) ∧
    ∀ p ∈ ((setup.hierarchy.layout level).box i).grow 1,
      p ∉ (setup.hierarchy.layout level).box i → ∀ n < velocityComponents,
      Halo.lastProvider (setup.hierarchy.layout level)
        (Halo.pairs (setup.hierarchy.layout level) geometry.periods) i p = none →
      FiniteVolume.boundaryValue st'.operator.boundary? i p n = vel.get i p n := by
  intro st'
  refine ⟨fun p hp => ?_, fun p hp f => ?_, fun p hp n hn => ?_, fun p hp hghost n hn hnone => ?_⟩
  · exact MeshField.get_copy_of_mem (MeshField.stores_of_shape h.mass hi hp Nat.one_pos) Nat.one_pos
  · have hface : ∀ q ∈ ((setup.hierarchy.layout level).faces f.axis).box i,
        (st'.operator.viscosity.get f.axis).get i q 0
          = 0.5 * (eta.get i (q.move f.axis (-1)) 0 + eta.get i q 0) := by
      intro q hq
      have hi' : i < ((setup.hierarchy.layout level).faces f.axis).count := by simpa using hi
      have hstored := MeshField.stores_of_shape (h.faces f.axis) hi' hq Nat.one_pos
      have hlayout : ((averageToFaces st.faces eta).get f.axis).layout
          = (st.faces.get f.axis).layout := by
        rw [averageToFaces, Triple.get_ofFn]
        rfl
      have hexchanged := (MeshField.exchange_agrees ((averageToFaces st.faces eta).get f.axis)
        geometry.periods).valid i q 0 (hlayout.symm ▸ hstored.2)
      calc (st'.operator.viscosity.get f.axis).get i q 0
          = (((averageToFaces st.faces eta).map
              (MeshField.exchange · geometry.periods)).get f.axis).get i q 0 := by
            simp only [st', LevelState.loadSystem, LevelState.loadCoefficients, Triple.get_ofFn]
            exact MeshField.get_copy_of_mem
              (MeshField.stores_of_shape (h.viscosity f.axis) hi' hq Nat.one_pos) Nat.one_pos
        _ = ((averageToFaces st.faces eta).get f.axis).get i q 0 := by
            rw [Triple.get_map, hexchanged]
        _ = 0.5 * (eta.get i (q.move f.axis (-1)) 0 + eta.get i q 0) :=
            get_averageToFaces hstored
    obtain ⟨hlo, hhi⟩ := Layout.mem_faces_of_mem (a := f.axis) hi hp
    rw [LevelOperator.faceViscosity, faceAverage]
    cases hside : f.side with
    | lo => exact hface p (hlo)
    | hi =>
        refine (hface _ (hhi)).trans ?_
        rw [Point.move_move]
        simp
  · exact get_momentum (MeshField.stores_of_shape h.rhs hi hp hn) hn
  · let loaded := st.solution.copy vel 0 0 velocityComponents 1
    have hboundary : st'.operator.boundary? = some (loaded.exchange geometry.periods) := rfl
    have hshape : loaded.shape = _ := h.solution
    have hl : loaded.layout = setup.hierarchy.layout level :=
      congrArg MeshField.Shape.layout hshape
    have hst₀ : st.solution.Stores i p n :=
      (MeshField.stores_iff_shape h.solution).2 ⟨hi, hp, hn⟩
    have hst : loaded.Stores i p n := hst₀
    have hst' : (loaded.exchange geometry.periods).Stores i p n := hst
    have hw : st.solution.Window 1 0 velocityComponents i p n := by
      have hlayout : st.solution.layout = setup.hierarchy.layout level := hl
      rw [MeshField.Window, hlayout]
      exact ⟨hp, Nat.zero_le n, by omega⟩
    have hget : loaded.get i p n = vel.get i p n := by
      refine (MeshField.get_copy hst₀).trans ?_
      rw [if_pos hw, Nat.zero_add, Nat.sub_zero]
    -- no box provides the ghost, so the exchange leaves what was loaded
    rw [hboundary, FiniteVolume.boundaryValue]
    simp only [if_pos hst']
    rw [MeshField.exchange_eq_gather, MeshField.get_gather hst, hl, if_neg hghost,
      MeshField.provided, hl, hnone]
    exact hget

end ImplicitDiffusion

end Values

end MeshDiffusion
