import Mathlib.Tactic
import MeshDiffusion.Proofs.Equation.Assembly

/-!
Steps of an equation.

`ImplicitDiffusion.Reached` are the equations that construction and any number of steps lead to,
whether the steps succeeded or not. All of them are formed as they were set up
(`ImplicitDiffusion.Reached.formed`), so that a step is the same system on every one of them.

* `ImplicitDiffusion.Succeeds`: a step that succeeds has assembled, solved and stored
  (`ImplicitDiffusion.succeeds_of_ok`);
* `ImplicitDiffusion.solve_formed`: every step keeps the form of the equation;
* `ImplicitDiffusion.LevelSolved` is what a step that succeeds says about one level, in terms of the
  density, the viscosity and the velocity that it was given (`ImplicitDiffusion.solve_levelSolved`).
-/

namespace MeshDiffusion

namespace ImplicitDiffusion

variable {K : Type} [Scalar K] {setup : Setup K} {config : DiffusionOptions K}
  {boundary : DomainBoundary} {eq : Standard K} {vel ro eta : Levels (MeshField K)} {dt : K}
  {report : SolveSummary K} {n level : ℕ}

/-! ### The parts of a step -/

/-- The solve of an assembled system. -/
def solveAssembled (eq : Standard K) (n : ℕ) : Noted K (Solved ResidualCorrection K) :=
  (⟨eq.config.solveOptions⟩ : ResidualCorrection).run eq.operator (eq.solution.take n)
    (eq.rhs.take n) eq.config.rtol eq.config.atol

/-- What is left after the solve of an assembled system. -/
def finish (eq : Standard K) (n : ℕ) (vel : Levels (MeshField K))
    (solved : Solved ResidualCorrection K) :
    Stepped (FiniteVolume K) ResidualCorrection K :=
  let solution := overwrite eq.solution solved.solution n
  match solved.result with
  | .error e => ⟨{ eq with solver := solved.solver, solution := solution }, vel, .error (.solve e)⟩
  | .ok report =>
    let stored := (List.range n).foldl (storeLevel eq.hierarchy) (solution, vel)
    ⟨{ eq with solver := solved.solver, solution := stored.1 }, stored.2, .ok report⟩

/-- A step on too few levels fails at once. -/
lemma solve_few (h : min (min vel.count ro.count) eta.count < eq.hierarchy.active) :
    eq.solve vel ro eta dt
      = .quiet ⟨eq, vel, .error (.solve (.fewerLevels eq.hierarchy.active
          (min (min vel.count ro.count) eta.count)))⟩ := by
  rw [solve, if_pos h]

/-- A step on enough levels assembles the system, solves it and finishes. -/
lemma solve_value (h : ¬min (min vel.count ro.count) eta.count < eq.hierarchy.active) :
    (eq.solve vel ro eta dt).value
      = finish (eq.assemble eq.hierarchy.active vel ro eta dt) eq.hierarchy.active vel
          (solveAssembled (eq.assemble eq.hierarchy.active vel ro eta dt)
            eq.hierarchy.active).value := by
  rw [solve, finish]
  simp only [if_neg h]
  generalize eq.assemble eq.hierarchy.active vel ro eta dt = a
  have hsolve : LinearSolver.solve
      (LinearSolver.configure (K := K) a.solver a.config.solveOptions).value a.operator
        (a.solution.take eq.hierarchy.active) (a.rhs.take eq.hierarchy.active) a.config.rtol
        a.config.atol = solveAssembled a eq.hierarchy.active := rfl
  rw [hsolve]
  cases hresult : (solveAssembled a eq.hierarchy.active).value.result with
  | error e => rfl
  | ok r => rfl

/-- What a step that succeeds has done: the solve of the assembled system has succeeded with the
same report, and its levels have been stored. -/
lemma solve_ok (h : (eq.solve vel ro eta dt).value.result = .ok report) :
    eq.hierarchy.active ≤ vel.count ∧
    ∃ a, a = eq.assemble eq.hierarchy.active vel ro eta dt ∧
      (solveAssembled a eq.hierarchy.active).value.result = .ok report ∧
      (eq.solve vel ro eta dt).value.velocity
        = ((List.range eq.hierarchy.active).foldl (storeLevel a.hierarchy)
            (overwrite a.solution (solveAssembled a eq.hierarchy.active).value.solution
              eq.hierarchy.active, vel)).2 := by
  by_cases hfew : min (min vel.count ro.count) eta.count < eq.hierarchy.active
  · rw [solve_few hfew] at h
    cases h
  · rw [solve_value hfew] at h ⊢
    refine ⟨by omega, _, rfl, ?_⟩
    generalize eq.assemble eq.hierarchy.active vel ro eta dt = a at h ⊢
    rw [finish] at h ⊢
    cases hresult : (solveAssembled a eq.hierarchy.active).value.result with
    | error e =>
        rw [hresult] at h
        cases h
    | ok r =>
        rw [hresult] at h
        cases h
        exact ⟨rfl, rfl⟩

omit [Scalar K] in
/-- The first levels are replaced, the others are kept. -/
lemma get_overwrite {all first : Levels (MeshField K)} {l : ℕ} (hl : l < all.count) :
    (overwrite all first n).get l = if l < n then first.get l else all.get l := by
  obtain ⟨-, hout, hin⟩ := Levels.foldl_set (fun l _ => first.get l) List.nodup_range all
  split_ifs with hn
  · exact hin l (List.mem_range.2 hn) hl
  · rw [overwrite, Levels.get_eq_getD, hout l (mt List.mem_range.1 hn), ← Levels.get_eq_getD]

omit [Scalar K] in
lemma count_overwrite {all first : Levels (MeshField K)} :
    (overwrite all first n).count = all.count :=
  (Levels.foldl_set (fun l _ => first.get l) List.nodup_range all).1

/-- Storing the levels of a solution one after another exchanges the halo of each and copies it
into the velocity. -/
lemma foldl_storeLevel (hierarchy : Hierarchy K) (n : ℕ) (solution vel : Levels (MeshField K)) :
    let stored := (List.range n).foldl (storeLevel hierarchy) (solution, vel)
    stored.1.count = solution.count ∧
    (∀ l, n ≤ l → stored.1.get l = solution.get l) ∧
    ∀ l < n, l < solution.count → l < vel.count →
      stored.1.get l = (solution.get l).exchange (hierarchy.geometry l).periods ∧
      stored.2.get l = (vel.get l).copy
        ((solution.get l).exchange (hierarchy.geometry l).periods) 0 0 velocityComponents 1 := by
  let phi (x : MeshField K) (l : ℕ) := x.exchange (hierarchy.geometry l).periods
  obtain ⟨⟨hcount, -⟩, hout, hin⟩ := foldl_local
    (P := fun s => s.1.count = solution.count ∧ s.2.count = vel.count)
    (Q := fun l => l < solution.count ∧ l < vel.count)
    (F := storeLevel hierarchy)
    (v := fun (s : Levels (MeshField K) × Levels (MeshField K)) l => (s.1.get l, s.2.get l))
    (G := fun l s => (phi s.1 l, s.2.copy (phi s.1 l) 0 0 velocityComponents 1))
    (fun s hs k => ⟨(Levels.count_set ..).trans hs.1, (Levels.count_set ..).trans hs.2⟩)
    (fun s hs k hk => by
      simp only [storeLevel]
      rw [Levels.get_set_self (hs.1 ▸ hk.1), Levels.get_set_self (hs.2 ▸ hk.2)])
    (fun s k j hj => by
      simp only [storeLevel]
      rw [Levels.get_set_of_ne hj, Levels.get_set_of_ne hj])
    (List.nodup_range (n := n)) (s := (solution, vel)) ⟨rfl, rfl⟩
  refine ⟨hcount, fun l hl => ?_, fun l hl hs hv => ?_⟩
  · exact congrArg Prod.fst (hout l (by simpa using hl))
  · have hboth := hin l (List.mem_range.2 hl) ⟨hs, hv⟩
    exact ⟨congrArg Prod.fst hboth, congrArg Prod.snd hboth⟩

/-- The velocity that is stored for a level has the valid values of the solution. -/
lemma get_stored {hierarchy : Hierarchy K} {solution : Levels (MeshField K)} {l : ℕ} (hl : l < n)
    (hsolution : l < solution.count) (hvel : l < vel.count)
    (hlayout : (vel.get l).layout = (solution.get l).layout) {i m : ℕ} {p : Point}
    (hi : i < (vel.get l).layout.count) (hp : p ∈ (vel.get l).layout.box i)
    (hm : m < velocityComponents) (hncomp : velocityComponents ≤ (vel.get l).ncomp) :
    (((List.range n).foldl (storeLevel hierarchy) (solution, vel)).2.get l).get i p m
      = (solution.get l).get i p m := by
  obtain ⟨-, -, hin⟩ := foldl_storeLevel hierarchy n solution vel
  have hst : (vel.get l).Stores i p m := MeshField.stores_of_mem hi hp (hm.trans_le hncomp)
  have hw : (vel.get l).Window 1 0 velocityComponents i p m :=
    ⟨Box.mem_grow_of_mem _ hp, Nat.zero_le m, by omega⟩
  rw [(hin l hl hsolution hvel).2, MeshField.get_copy hst, if_pos hw, Nat.zero_add, Nat.sub_zero]
  exact (MeshField.exchange_agrees ..).valid i p m (hlayout ▸ hp)

/-- A level with boxes is a level of the mesh, if a solve of all levels with boxes has succeeded. -/
lemma level_lt_of_solved (h : Formed setup config boundary eq)
    (hsolved : (solveAssembled eq setup.hierarchy.active).value.result = .ok report)
    (hlevel : level < setup.hierarchy.active) : level < setup.hierarchy.topLevel + 1 := by
  have hle := (ResidualCorrection.run_ok hsolved).1
  rw [h.count_operator, Levels.count_take, h.count_solution] at hle
  omega

/-- What a step that succeeds has done, where `a` is the equation that it has assembled. -/
structure Succeeds (setup : Setup K) (config : DiffusionOptions K) (boundary : DomainBoundary)
    (eq a : Standard K) (vel ro eta : Levels (MeshField K)) (dt : K) (report : SolveSummary K) :
    Prop where
  count_vel : setup.hierarchy.active ≤ vel.count
  assembled : a = eq.assemble setup.hierarchy.active vel ro eta dt
  formed : Formed setup config boundary a
  solved : (solveAssembled a setup.hierarchy.active).value.result = .ok report
  lt_levels : ∀ l < setup.hierarchy.active, l < setup.hierarchy.topLevel + 1
  levelState : ∀ l < setup.hierarchy.active,
    a.levelState l = ((eq.levelState l).loadCoefficients (setup.hierarchy.geometry l) (ro.get l)
      (eta.get l)).loadSystem (setup.hierarchy.geometry l) (vel.get l) (ro.get l)
  velocity : (eq.solve vel ro eta dt).value.velocity
    = ((List.range setup.hierarchy.active).foldl (storeLevel setup.hierarchy)
        (overwrite a.solution (solveAssembled a setup.hierarchy.active).value.solution
          setup.hierarchy.active, vel)).2

lemma succeeds_of_ok (h : Formed setup config boundary eq)
    (hok : (eq.solve vel ro eta dt).value.result = .ok report) :
    ∃ a, Succeeds setup config boundary eq a vel ro eta dt report := by
  obtain ⟨hvel, a, rfl, hsolved, hvelocity⟩ := solve_ok hok
  rw [h.hierarchy] at hvel hsolved hvelocity
  obtain ⟨hformed, hstate⟩ := assemble_levelState h setup.hierarchy.active vel ro eta dt
  rw [hformed.hierarchy] at hvelocity
  exact ⟨_, hvel, rfl, hformed, hsolved, fun l hl => level_lt_of_solved hformed hsolved hl,
    fun l hl => hstate l hl hl (level_lt_of_solved hformed hsolved hl), hvelocity⟩

/-- A solve keeps the shapes of the solution. -/
lemma shape_solveAssembled {l : ℕ} (hl : l < n) :
    ((solveAssembled eq n).value.solution.get l).shape = (eq.solution.get l).shape := by
  rw [solveAssembled, ResidualCorrection.shape_run, Levels.get_take hl]

lemma finish_formed (h : Formed setup config boundary eq) (hvel : n ≤ vel.count) :
    Formed setup config boundary
      (finish eq n vel (solveAssembled eq n).value).equation := by
  have hshape : ∀ l < eq.solution.count,
      ((overwrite eq.solution (solveAssembled eq n).value.solution n).get l).shape
        = (eq.solution.get l).shape := by
    intro l hl
    rw [get_overwrite hl]
    split_ifs with hn
    · exact shape_solveAssembled hn
    · rfl
  rw [finish]
  cases hresult : (solveAssembled eq n).value.result with
  | error e => exact h.withSolution _ count_overwrite hshape
  | ok r =>
      obtain ⟨hcount, hout, hin⟩ := foldl_storeLevel eq.hierarchy n
        (overwrite eq.solution (solveAssembled eq n).value.solution n) vel
      refine h.withSolution _ (hcount.trans count_overwrite) fun l hl => ?_
      by_cases hn : l < n
      · rw [(hin l hn (by rwa [count_overwrite]) (hn.trans_le hvel)).1, MeshField.shape_exchange]
        exact hshape l hl
      · rw [hout l (not_lt.1 hn)]
        exact hshape l hl

/-- **Every step keeps the form of the equation**, whether it succeeds or not. -/
theorem solve_formed (h : Formed setup config boundary eq) :
    Formed setup config boundary (eq.solve vel ro eta dt).value.equation := by
  by_cases hfew : min (min vel.count ro.count) eta.count < eq.hierarchy.active
  · rw [solve_few hfew]
    exact h
  · rw [solve_value hfew]
    exact finish_formed (assemble_levelState h ..).1 (by omega)

/-! ### Equations that can be reached -/

/-- A check that succeeds has resolved the tags by the geometry of the coarsest level. -/
lemma resolve_of_check (h : check setup config = .ok boundary) :
    setup.tags.resolve (setup.hierarchy.geometry 0).periodic setup.ghosts = .ok boundary := by
  rw [check] at h
  cases hvalid : config.validate with
  | error e => simp [hvalid] at h
  | ok checked =>
      simp only [hvalid] at h
      split_ifs at h
      cases hresolve : setup.tags.resolve (setup.hierarchy.geometry 0).periodic setup.ghosts with
      | error e => simp [hresolve, Except.mapError] at h
      | ok resolved => simpa [hresolve, Except.mapError] using h

section Reached

variable [Trig K]

/-- The equations that construction and any number of steps lead to. -/
inductive Reached (setup : Setup K) (config : DiffusionOptions K) : Standard K → Prop where
  | made {eq : Standard K} : (make setup config).value = .ok eq → Reached setup config eq
  | stepped {eq : Standard K} (vel ro eta : Levels (MeshField K)) (dt : K) :
      Reached setup config eq → Reached setup config (eq.solve vel ro eta dt).value.equation

/-- What a level stores before the first step. -/
def initialState (setup : Setup K) (level : ℕ) : LevelState K where
  operator := .ofLevel (setup.hierarchy.level level) (setup.obstacles.get? level)
  faces := setup.hierarchy.zeroFaceFields level setup.ghosts
  rhs := setup.hierarchy.zeroField level velocityComponents 0
  solution := setup.hierarchy.zeroField level velocityComponents 1

/-- What construction allocates for a level depends neither on the options nor on the boundary. -/
lemma levelState_allocate (config : DiffusionOptions K) (boundary : DomainBoundary)
    (hlevel : level < setup.hierarchy.active) (hs : level < setup.hierarchy.topLevel + 1) :
    (allocate setup config boundary FiniteVolume.unbound ({} : ResidualCorrection)).levelState level
      = initialState setup level := by
  simp only [allocate, levelState, initialState, DiffusionOperator.bind,
    DiffusionOperator.setWallOrder, DiffusionOperator.setBoundary]
  rw [Levels.get_ofFn hlevel, Levels.get_ofFn hs, Levels.get_ofFn hs, Levels.get_ofFn hs]

/-- What construction allocates is formed. -/
lemma allocate_formed (setup : Setup K) (config : DiffusionOptions K) (boundary : DomainBoundary) :
    Formed setup config boundary (allocate setup config boundary FiniteVolume.unbound {}) where
  hierarchy := rfl
  config := rfl
  boundary := rfl
  order := rfl
  count_operator := Levels.count_ofFn ..
  count_faces := Levels.count_ofFn ..
  count_rhs := Levels.count_ofFn ..
  count_solution := Levels.count_ofFn ..
  level l hl hs := by
    rw [levelState_allocate config boundary hl hs]
    exact ⟨rfl, rfl, rfl, fun a => by simp [initialState, LevelOperator.ofLevel, Hierarchy.layout,
      Hierarchy.owners], rfl, fun a => by simp [initialState, Hierarchy.zeroFaceFields], rfl, rfl⟩

/-- An equation that was made is what construction allocates, with the boundary that the check of
its surroundings has resolved. -/
lemma eq_allocate_of_make (h : (make setup config).value = .ok eq) :
    ∃ boundary, check setup config = .ok boundary ∧
      eq = allocate setup config boundary FiniteVolume.unbound {} := by
  rw [make, makeWith_eq] at h
  cases hcheck : check setup config with
  | error e => simp [hcheck] at h
  | ok boundary =>
      simp only [hcheck, Except.ok.injEq] at h
      exact ⟨boundary, rfl, h.symm⟩

/-- Every equation that can be reached is formed as it was set up, with the boundary that the check
of its surroundings has resolved. -/
theorem Reached.formed (h : Reached setup config eq) :
    ∃ boundary, check setup config = .ok boundary ∧ Formed setup config boundary eq := by
  induction h with
  | made hmade =>
      obtain ⟨boundary, hcheck, rfl⟩ := eq_allocate_of_make hmade
      exact ⟨boundary, hcheck, allocate_formed setup config boundary⟩
  | stepped vel ro eta dt _ ih =>
      obtain ⟨boundary, hcheck, hformed⟩ := ih
      exact ⟨boundary, hcheck, solve_formed hformed⟩

end Reached

/-! ### What a step that succeeds says about a level -/

/-- On a level, the new velocity `after` solves the system of the old velocity up to `target`: with
an operator of the level's mass and face viscosity, and ghosts filled from the new velocity where
some box provides them and from the old velocity elsewhere. -/
structure LevelSolved (setup : Setup K) (boundary : DomainBoundary) (level : ℕ) (dt target : K)
    (vel ro eta after : MeshField K) (o : FiniteVolume K) (l : LevelOperator K)
    (u : MeshField K) : Prop where
  alpha : o.alpha = 1.0
  beta : o.beta = dt
  boundary : o.boundary = boundary
  order : o.wallOrder = wallOrder
  geometry : l.geometry = setup.hierarchy.geometry level
  covered : l.covered? = (setup.obstacles.get? level).bind
    (bodyMask (setup.hierarchy.layout level) (setup.hierarchy.owners level))
  mass : ∀ i < (setup.hierarchy.layout level).count, ∀ p ∈ (setup.hierarchy.layout level).box i,
    l.mass.get i p 0 = ro.get i p 0
  viscosity : ∀ i < (setup.hierarchy.layout level).count,
    ∀ p ∈ (setup.hierarchy.layout level).box i, ∀ f,
      l.faceViscosity i p f = faceAverage eta i p f
  valid : ∀ i < (setup.hierarchy.layout level).count,
    ∀ p ∈ (setup.hierarchy.layout level).box i, ∀ n < velocityComponents,
      u.get i p n = after.get i p n
  ghost : ∀ i < (setup.hierarchy.layout level).count,
    ∀ p ∈ ((setup.hierarchy.layout level).box i).grow 1,
      p ∉ (setup.hierarchy.layout level).box i → ∀ n < velocityComponents,
      u.get i p n =
        match Halo.lastProvider (setup.hierarchy.layout level)
          (Halo.pairs (setup.hierarchy.layout level) (setup.hierarchy.geometry level).periods)
          i p with
        | some (s, j) => after.get j (p - s) n
        | none => vel.get i p n
  residual : ∀ i < (setup.hierarchy.layout level).count,
    ∀ p ∈ (setup.hierarchy.layout level).box i, ∀ n < velocityComponents,
      Scalar.abs (vel.get i p n * ro.get i p 0
        + -(1.0) * o.image l i (fun q => u.get i q n) p) ≤ target

/-- **A step that succeeds solves the system of every level.** -/
theorem solve_levelSolved [Scalar.LawfulOrder K] (h : Formed setup config boundary eq)
    (hok : (eq.solve vel ro eta dt).value.result = .ok report)
    (hlevel : level < setup.hierarchy.active)
    (hlayout : (vel.get level).layout = setup.hierarchy.layout level)
    (hncomp : velocityComponents ≤ (vel.get level).ncomp) :
    ∃ o l u, LevelSolved setup boundary level dt
      (Scalar.maxNum (config.rtol * report.startResidual) config.atol) (vel.get level)
      (ro.get level) (eta.get level) ((eq.solve vel ro eta dt).value.velocity.get level) o l u := by
  obtain ⟨a, hstep⟩ := succeeds_of_ok h hok
  obtain ⟨hvel, ha, hformed, hsolved, hlevels, hstate, hstored⟩ := hstep
  have hop : a.operator.levels.count = setup.hierarchy.active := hformed.count_operator
  have hs := hlevels level hlevel
  have hsolution : level < a.solution.count := hformed.count_solution ▸ hs
  have hst := hstate level hlevel
  have hnew := hformed.level level hlevel hs
  have hnorm : ResidualCorrection.residualNorm a.operator level
      ((solveAssembled a setup.hierarchy.active).value.solution.get level) (a.rhs.get level)
        ≤ Scalar.maxNum (a.config.rtol * report.startResidual) a.config.atol := by
    have hle := (ResidualCorrection.run_converged hsolved).norm_le level (hop ▸ hlevel)
    rwa [Levels.get_take hlevel] at hle
  -- the solution of the level, its ghosts filled for the last residual
  generalize hx : (solveAssembled a setup.hierarchy.active).value.solution.get level = x
  have hxshape : x.shape = _ := hx ▸ (shape_solveAssembled hlevel).trans hnew.solution
  have hxlayout : x.layout = setup.hierarchy.layout level :=
    congrArg MeshField.Shape.layout hxshape
  have hxncomp : x.ncomp = velocityComponents := congrArg MeshField.Shape.ncomp hxshape
  rw [hx] at hnorm
  have hvalid : ∀ i < (setup.hierarchy.layout level).count,
      ∀ p ∈ (setup.hierarchy.layout level).box i, ∀ n < velocityComponents,
        ((eq.solve vel ro eta dt).value.velocity.get level).get i p n = x.get i p n := by
    intro i hi p hp n hn
    have hget : (overwrite a.solution (solveAssembled a setup.hierarchy.active).value.solution
        setup.hierarchy.active).get level = x := by
      rw [get_overwrite hsolution, if_pos hlevel, hx]
    have hcount : level < (overwrite a.solution
        (solveAssembled a setup.hierarchy.active).value.solution setup.hierarchy.active).count := by
      rwa [count_overwrite]
    rw [hstored, get_stored hlevel hcount (hlevel.trans_le hvel) (by rw [hget, hlayout, hxlayout])
      (hlayout ▸ hi) (hlayout ▸ hp) hn hncomp, hget]
  have hL : a.operator.levels.get level = _ := congrArg LevelState.operator hst
  have hR : a.rhs.get level = _ := congrArg LevelState.rhs hst
  refine ⟨a.operator, a.operator.levels.get level,
    (ResidualCorrection.residual a.operator level x (a.rhs.get level)).1, ?_⟩
  have hold := h.level level hlevel hs
  obtain ⟨halpha, hbeta⟩ : a.operator.alpha = 1.0 ∧ a.operator.beta = dt := ha ▸ assemble_scalars
  refine ⟨halpha, hbeta, hformed.boundary, hformed.order, hnew.geometry, hnew.covered,
    fun i hi p hp => ?_, fun i hi p hp f => ?_, fun i hi p hp n hn => ?_,
    fun i hi p hp hghost n hn => ?_, fun i hi p hp n hn => ?_⟩
  · rw [hL]
    exact (hold.assembled hi).1 p hp
  · rw [hL]
    exact (hold.assembled hi).2.1 p hp f
  · rw [hvalid i hi p hp n hn]
    exact (ResidualCorrection.residual_fst_agrees ..).valid i p n (hxlayout ▸ hp)
  · have hxst : x.Stores i p n := (MeshField.stores_iff_shape hxshape).2 ⟨hi, hp, hn⟩
    have hgeometry : (a.operator.levels.get level).geometry = setup.hierarchy.geometry level :=
      hnew.geometry
    rw [ResidualCorrection.residual_fst, FiniteVolume.get_filled hxst, hxlayout, if_neg hghost,
      hgeometry]
    cases hlast : Halo.lastProvider (setup.hierarchy.layout level)
        (Halo.pairs (setup.hierarchy.layout level) (setup.hierarchy.geometry level).periods)
        i p with
    | none =>
        rw [hL]
        exact (hold.assembled hi).2.2.2 p hp hghost n hn hlast
    | some sj =>
        obtain ⟨hpair, hprovides⟩ := Halo.lastProvider_mem hlast
        exact (hvalid sj.2 (Halo.mem_pairs.1 hpair).2 _ hprovides.2 n hn).symm
  · have hxi : i < x.layout.count := hxlayout ▸ hi
    have hxp : p ∈ x.layout.box i := hxlayout ▸ hp
    have hxn : n < x.ncomp := hxncomp ▸ hn
    have hentry := ResidualCorrection.abs_le_of_residualNorm_le hnorm hxi hxp hxn
    have hrhs : (a.rhs.get level).get i p n
        = (vel.get level).get i p n * (ro.get level).get i p 0 := by
      rw [hR]
      exact (hold.assembled hi).2.2.1 p hp n hn
    rwa [ResidualCorrection.get_residual hxi hxp hxn, hrhs, hformed.config] at hentry

end ImplicitDiffusion

end MeshDiffusion
