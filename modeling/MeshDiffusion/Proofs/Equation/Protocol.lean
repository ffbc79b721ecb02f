import Mathlib.Tactic
import MeshDiffusion.Recorder
import MeshDiffusion.Proofs.Equation.Balance
import MeshDiffusion.Proofs.Equation.History

/-!
The way in which an equation drives its backend.

With `OperatorRecorder` and `SolveRecorder` for a backend, everything that the operator and the
solver are asked for is on record. `ImplicitDiffusion.bindRequests` is what construction asks for,
and `ImplicitDiffusion.setupRequests` and `ImplicitDiffusion.solveRequests` are what a request to
the equation asks for. None of them depends on the values of a field.

* `ImplicitDiffusion.ask` is the equation after a request;
* `ImplicitDiffusion.Driven.ask`: one request adds what it asks for at the end of both records, with
  any solver failure, and keeps what decides the next request; `ImplicitDiffusion.Driven.history`:
  so do any requests, one after the other;
* `ImplicitDiffusion.record_history`: the record of construction and any history of requests.
-/

namespace MeshDiffusion

/-- A record `R` that every step of a fold extends at its end, by `G`. `P` is what the steps
keep. -/
lemma foldl_record {σ α β : Type} {P : σ → Prop} {R : σ → List β} {F : σ → α → σ}
    {G : α → List β} (hstep : ∀ s, P s → ∀ a, P (F s a) ∧ R (F s a) = R s ++ G a)
    (as : List α) {s : σ} (hs : P s) :
    P (as.foldl F s) ∧ R (as.foldl F s) = R s ++ as.flatMap G := by
  induction as generalizing s with
  | nil => exact ⟨hs, (List.append_nil _).symm⟩
  | cons a as ih =>
      obtain ⟨hkept, hadded⟩ := hstep s hs a
      obtain ⟨hrest, hall⟩ := ih hkept
      exact ⟨hrest, by rw [List.foldl_cons, hall, hadded, List.append_assoc, List.flatMap_cons]⟩

namespace ImplicitDiffusion

variable {K : Type} [Scalar K]

/-! ### Requests to any backend -/

section Backend

variable {O S : Type} [DiffusionOperator O K]

/-- The equation after a request. Another mesh is refused and leaves the equation as it was. -/
def ask [LinearSolver S K] (eq : ImplicitDiffusion O S K) : Request K → ImplicitDiffusion O S K
  | .step vel ro eta dt => (eq.solve vel ro eta dt).value.equation
  | .updateMesh hierarchy obstacles =>
    match (eq.updateMesh hierarchy obstacles).value with
    | .ok () | .error _ => eq

end Backend

/-! ### What is asked for -/

/-- What construction asks the operator for. -/
def bindRequests (setup : Setup K) (config : DiffusionOptions K) (boundary : DomainBoundary) :
    List (SetupRequest K) :=
  [.bind setup.obstacles.count config.maxCoarsening, .setWallOrder 3, .setBoundary boundary]

/-- What the coefficients of a level ask the operator for. -/
def coefficientRequests (level : ℕ) : List (SetupRequest K) :=
  [.setMass level, .setFaceViscosity level, .setObstacleViscosity level]

/-- The length of a step that comes with fields for `n` levels. -/
def stepLength? (n : ℕ) : Request K → Option K
  | .step vel ro eta dt => if n ≤ min (min vel.count ro.count) eta.count then some dt else none
  | .updateMesh .. => none

/-- What a request asks the operator for, on `n` levels: the scalars, then all coefficients, then
all boundary values. -/
def setupRequests (n : ℕ) (request : Request K) : List (SetupRequest K) :=
  match stepLength? n request with
  | some dt =>
    .setAlphaBeta 1.0 dt :: (List.range n).flatMap coefficientRequests
      ++ (List.range n).map .setBoundaryValues
  | none => []

/-- What a request asks the solver for, on `n` levels, if `once` is what a step asks for. -/
def solveRequests (n : ℕ) (once : SolveRequest K) (request : Request K) : List (SolveRequest K) :=
  match stepLength? n request with
  | some _ => [once]
  | none => []

/-! ### The record of one request -/

/-- An equation whose backend is on record. -/
abbrev Recorded (K : Type) := ImplicitDiffusion (OperatorRecorder K) (SolveRecorder K) K

/-- What decides the requests of an equation to its backend, and stays. -/
structure Driven (setup : Setup K) (config : DiffusionOptions K) (eq : Recorded K) : Prop where
  hierarchy : eq.hierarchy = setup.hierarchy
  config : eq.config = config
  count_solution : eq.solution.count = setup.hierarchy.topLevel + 1

variable {setup : Setup K} {config : DiffusionOptions K} {eq : Recorded K}

/-- Assembly asks for the scalars, for the coefficients of all levels, and then for the boundary
values of all levels. It does not touch the solver. -/
lemma Driven.assemble (h : Driven setup config eq) (vel ro eta : Levels (MeshField K)) (dt : K)
    (n : ℕ) :
    Driven setup config (eq.assemble n vel ro eta dt) ∧
    (eq.assemble n vel ro eta dt).solver = eq.solver ∧
    (eq.assemble n vel ro eta dt).operator.requests.toList = eq.operator.requests.toList
      ++ (.setAlphaBeta 1.0 dt :: (List.range n).flatMap coefficientRequests
        ++ (List.range n).map .setBoundaryValues) := by
  let Kept (s : Recorded K) : Prop := Driven setup config s ∧ s.solver = eq.solver
  let record (s : Recorded K) : List (SetupRequest K) := s.operator.requests.toList
  have hcoefficients : ∀ s, Kept s → ∀ l, Kept (s.loadCoefficients ro eta l) ∧
      record (s.loadCoefficients ro eta l) = record s ++ coefficientRequests l := by
    rintro s ⟨hs, hsolver⟩ l
    refine ⟨⟨⟨hs.hierarchy, hs.config, hs.count_solution⟩, hsolver⟩, ?_⟩
    simp [record, loadCoefficients, levelCoefficients, coefficientRequests,
      DiffusionOperator.setMass, DiffusionOperator.setFaceViscosity,
      DiffusionOperator.setObstacleViscosity, OperatorRecorder.record]
  have hsystem : ∀ s, Kept s → ∀ l, Kept (s.loadSystem vel ro l) ∧
      record (s.loadSystem vel ro l) = record s ++ [.setBoundaryValues l] := by
    rintro s ⟨hs, hsolver⟩ l
    refine ⟨⟨⟨hs.hierarchy, hs.config, ?_⟩, hsolver⟩, ?_⟩
    · exact (Levels.count_set ..).trans hs.count_solution
    · simp [record, loadSystem, firstGuess, DiffusionOperator.setBoundaryValues,
        OperatorRecorder.record]
  have hscaled : Kept
      { eq with operator := DiffusionOperator.setAlphaBeta eq.operator 1.0 dt } :=
    ⟨⟨h.hierarchy, h.config, h.count_solution⟩, rfl⟩
  obtain ⟨hloaded, hfirst⟩ := foldl_record hcoefficients (List.range n) hscaled
  obtain ⟨⟨hkept, hsolver⟩, hsecond⟩ := foldl_record hsystem (List.range n) hloaded
  have hrecord : record (eq.assemble n vel ro eta dt) = record eq ++ [.setAlphaBeta 1.0 dt]
      ++ (List.range n).flatMap coefficientRequests
      ++ (List.range n).flatMap fun l => [.setBoundaryValues l] := by
    refine hsecond.trans (congrArg (· ++ _) (hfirst.trans (congrArg (· ++ _) ?_)))
    exact Array.toList_push ..
  refine ⟨hkept, hsolver, hrecord.trans ?_⟩
  simp only [← List.map_eq_flatMap, List.append_assoc, List.cons_append, List.nil_append, record]

/-- **A request adds what it asks for at the end of both records**, whether the solver fails or
not. -/
lemma Driven.ask (h : Driven setup config eq)
    (hmesh : setup.hierarchy.finest ≤ setup.hierarchy.topLevel) (request : Request K) :
    Driven setup config (eq.ask request) ∧
    (eq.ask request).operator.requests.toList = eq.operator.requests.toList
      ++ setupRequests setup.hierarchy.active request ∧
    (eq.ask request).solver.requests.toList = eq.solver.requests.toList
      ++ solveRequests setup.hierarchy.active
        ⟨config.solveOptions, config.rtol, config.atol, setup.hierarchy.active⟩ request := by
  cases request with
  | updateMesh hierarchy obstacles =>
      exact ⟨h, (List.append_nil _).symm, (List.append_nil _).symm⟩
  | step vel ro eta dt =>
      rw [ImplicitDiffusion.ask, solve, h.hierarchy]
      by_cases hfew : min (min vel.count ro.count) eta.count < setup.hierarchy.active
      · simp only [if_pos hfew, Noted.quiet, setupRequests, solveRequests, stepLength?,
          if_neg (not_le.2 hfew), List.append_nil, and_self, and_true]
        exact h
      · obtain ⟨hloaded, hsolver, hrecord⟩ :=
          h.assemble vel ro eta dt setup.hierarchy.active
        simp only [if_neg hfew, setupRequests, solveRequests, stepLength?, if_pos (not_lt.1 hfew)]
        rw [← hrecord, ← hsolver]
        generalize eq.assemble setup.hierarchy.active vel ro eta dt = loaded at hloaded ⊢
        -- the solver counts the levels that it is given
        have hlevels : (loaded.solution.take setup.hierarchy.active).count
            = setup.hierarchy.active := by
          have hle : setup.hierarchy.active ≤ setup.hierarchy.topLevel + 1 := Nat.succ_le_succ hmesh
          rw [Levels.count_take, hloaded.count_solution, min_eq_left hle]
        have hcount : (overwrite loaded.solution (loaded.solution.take setup.hierarchy.active)
            setup.hierarchy.active).count = setup.hierarchy.topLevel + 1 :=
          count_overwrite.trans hloaded.count_solution
        have hasked : (loaded.solver.requests.push ⟨loaded.config.solveOptions,
            loaded.config.rtol, loaded.config.atol,
            (loaded.solution.take setup.hierarchy.active).count⟩).toList
            = loaded.solver.requests.toList ++ [⟨config.solveOptions, config.rtol, config.atol,
              setup.hierarchy.active⟩] := by
          rw [Array.toList_push, hlevels, hloaded.config]
        cases hfailure : loaded.solver.failure? with
        | some e =>
            simp only [LinearSolver.solve, LinearSolver.configure, Noted.quiet, hfailure]
            exact ⟨⟨hloaded.hierarchy, hloaded.config, hcount⟩, trivial, hasked⟩
        | none =>
            simp only [LinearSolver.solve, LinearSolver.configure, Noted.quiet, hfailure]
            exact ⟨⟨hloaded.hierarchy, hloaded.config,
              (foldl_storeLevel ..).1.trans hcount⟩, trivial, hasked⟩

/-- **The requests of a history add what they ask for, one after the other.** -/
lemma Driven.history (h : Driven setup config eq)
    (hmesh : setup.hierarchy.finest ≤ setup.hierarchy.topLevel) (history : List (Request K)) :
    (history.foldl ImplicitDiffusion.ask eq).operator.requests.toList
      = eq.operator.requests.toList ++ history.flatMap (setupRequests setup.hierarchy.active) ∧
    (history.foldl ImplicitDiffusion.ask eq).solver.requests.toList
      = eq.solver.requests.toList ++ history.flatMap (solveRequests setup.hierarchy.active
        ⟨config.solveOptions, config.rtol, config.atol, setup.hierarchy.active⟩) := by
  constructor
  · refine (foldl_record (R := fun s => s.operator.requests.toList) (fun s hs request => ?_)
      history h).2
    obtain ⟨hkept, hsetup, -⟩ := hs.ask hmesh request
    exact ⟨hkept, hsetup⟩
  · refine (foldl_record (R := fun s => s.solver.requests.toList) (fun s hs request => ?_)
      history h).2
    obtain ⟨hkept, -, hsolve⟩ := hs.ask hmesh request
    exact ⟨hkept, hsolve⟩

/-- A fresh equation has bound its operator and has not asked its solver. -/
lemma driven_allocate [Trig K] (setup : Setup K) (config : DiffusionOptions K)
    (boundary : DomainBoundary) (solver : SolveRecorder K) :
    Driven setup config (allocate setup config boundary ({} : OperatorRecorder K) solver) ∧
    (allocate setup config boundary ({} : OperatorRecorder K) solver).operator.requests.toList
      = bindRequests setup config boundary :=
  ⟨⟨rfl, rfl, Levels.count_ofFn ..⟩, rfl⟩

/-! ### The record of a history -/

/-- **The backend is driven by one protocol.** A construction that fails gives back an operator that
was asked for nothing. One that succeeds has bound it, and then every step with fields for all
levels that have boxes sets the scalars, the coefficients of these levels in order and their
boundary values in order, and solves once on these levels, whether the solver fails or not: with the
verbosities, caps, inner solver and tolerances of the configuration, and the ghosts refilled at the
end. Nothing else is ever asked for. The mesh is promised to have the levels that it has boxes
for. -/
theorem record_history [Trig K] (setup : Setup K) (config : DiffusionOptions K)
    (failure? : Option (SolveFailure K))
    (hmesh : setup.hierarchy.finest ≤ setup.hierarchy.topLevel) (history : List (Request K)) :
    let solver : SolveRecorder K := { failure? := failure? }
    let once : SolveRequest K :=
      { settings :=
          { verbose := config.solverVerbose
            innerVerbose := config.innerVerbose
            maxCycles := config.maxCycles
            maxFullCycles := config.maxFullCycles
            maxInner := config.maxInner
            innerMethod := config.innerMethod
            finalFill := true }
        rtol := config.rtol
        atol := config.atol
        levels := setup.hierarchy.active }
    (∀ e, (makeWith setup config ({} : OperatorRecorder K) solver).value = .error e →
      ∃ operator, (construct setup config ({} : OperatorRecorder K) solver).value
          = .error ⟨operator, e⟩ ∧
        operator.requests.toList = []) ∧
    ∀ fresh, (makeWith setup config ({} : OperatorRecorder K) solver).value = .ok fresh →
      ∃ boundary,
        setup.tags.resolve (setup.hierarchy.geometry 0).periodic setup.ghosts = .ok boundary ∧
        (history.foldl ask fresh).operator.requests.toList = bindRequests setup config boundary
          ++ history.flatMap (setupRequests setup.hierarchy.active) ∧
        (history.foldl ask fresh).solver.requests.toList
          = history.flatMap (solveRequests setup.hierarchy.active once) := by
  intro solver once
  rw [makeWith, construct]
  cases hcheck : check setup config with
  | error failure =>
      refine ⟨fun e he => ?_, fun fresh hfresh => ?_⟩
      · obtain rfl : failure = e := Except.error.inj he
        exact ⟨{}, rfl, rfl⟩
      · cases hfresh
  | ok boundary =>
      refine ⟨fun e he => ?_, fun fresh hfresh => ?_⟩
      · cases he
      · obtain rfl : allocate setup config boundary {} solver = fresh := Except.ok.inj hfresh
        obtain ⟨hdriven, hbound⟩ := driven_allocate setup config boundary solver
        obtain ⟨hsetup, hsolve⟩ := hdriven.history hmesh history
        exact ⟨boundary, resolve_of_check hcheck, hsetup.trans (congrArg (· ++ _) hbound), hsolve⟩

/-- In a duct, with options of its own and a solver that always fails: two steps are two assemblies
and two solves, and a refused mesh and a step without a density are none. Without a halo the
operator is given back with no request. -/
theorem record_history_duct :
    letI := trigAtZero
    let config : DiffusionOptions ℚ :=
      { verbose := 1, solverVerbose := 2, innerVerbose := 3, maxCycles := 4, maxInner := 5
        maxFullCycles := 6, maxCoarsening := 7, rtol := 1 / 8, atol := 1 / 9
        innerMethod := .smoother }
    let history : List (Request ℚ) :=
      [.step ductVelocity ductOnes ductOnes 2, .updateMesh ductMesh (.ofList []),
        .step ductVelocity (.ofList []) ductOnes 1, .step ductVelocity ductOnes ductOnes 3]
    let solver : SolveRecorder ℚ := { failure? := some (.notConverged 7 1 0) }
    let settings : SolveOptions :=
      { verbose := 2, innerVerbose := 3, maxCycles := 4, maxFullCycles := 6, maxInner := 5
        innerMethod := .smoother, finalFill := true }
    (∃ fresh, (makeWith (duct .noSlipWall) config ({} : OperatorRecorder ℚ) solver).value
        = .ok fresh ∧
      (history.foldl ask fresh).operator.requests.toList =
        [.bind 1 7, .setWallOrder 3, .setBoundary (ductBoundary .dirichlet), .setAlphaBeta 1.0 2,
          .setMass 0, .setFaceViscosity 0, .setObstacleViscosity 0, .setBoundaryValues 0,
          .setAlphaBeta 1.0 3, .setMass 0, .setFaceViscosity 0, .setObstacleViscosity 0,
          .setBoundaryValues 0] ∧
      (history.foldl ask fresh).solver.requests.toList
        = [⟨settings, 1 / 8, 1 / 9, 1⟩, ⟨settings, 1 / 8, 1 / 9, 1⟩]) ∧
    ∃ operator : OperatorRecorder ℚ,
      (construct { duct .noSlipWall with ghosts := 0 } config {} solver).value
        = .error ⟨operator, .mesh .noGhosts⟩ ∧
      operator.requests.toList = [] := by
  let := trigAtZero
  intro config history solver settings
  have hmesh : (duct .noSlipWall).hierarchy.finest ≤ (duct .noSlipWall).hierarchy.topLevel :=
    le_rfl
  have hvalid : config.validate = .ok () :=
    validate_of_nonneg (by decide +kernel) (by decide +kernel) (by decide) (by decide)
  have hobstacles : (duct .noSlipWall).obstacles.count = 1 := Levels.count_ofFn ..
  have hcovered : ¬(duct .noSlipWall).obstacles.count < (duct .noSlipWall).hierarchy.topLevel + 1 :=
    hobstacles.symm ▸ lt_irrefl 1
  constructor
  · have hcheck : check (duct .noSlipWall) config = .ok (ductBoundary .dirichlet) :=
      check_duct_of_valid hvalid rfl
    have hbuilt : (makeWith (duct .noSlipWall) config ({} : OperatorRecorder ℚ) solver).value
        = .ok (allocate (duct .noSlipWall) config (ductBoundary .dirichlet) {} solver) := by
      rw [makeWith_eq, hcheck]
    obtain ⟨-, hrecord⟩ := record_history (duct .noSlipWall) config
      (some (.notConverged 7 1 0)) hmesh history
    obtain ⟨boundary, hresolve, hsetup, hsolve⟩ := hrecord _ hbuilt
    obtain rfl : ductBoundary .dirichlet = boundary :=
      Except.ok.inj ((resolve_of_check hcheck).symm.trans hresolve)
    -- only the first and the last step come with all fields
    have hfirst : stepLength? (duct .noSlipWall).hierarchy.active
        (.step ductVelocity ductOnes ductOnes 2) = some 2 := if_pos (by decide +kernel)
    have hfew : stepLength? (duct .noSlipWall).hierarchy.active
        (.step ductVelocity (.ofList []) ductOnes (1 : ℚ)) = none := if_neg (by decide +kernel)
    have hlast : stepLength? (duct .noSlipWall).hierarchy.active
        (.step ductVelocity ductOnes ductOnes 3) = some 3 := if_pos (by decide +kernel)
    refine ⟨_, hbuilt, hsetup.trans ?_, hsolve.trans ?_⟩
    · simp only [history, List.flatMap_cons, List.flatMap_nil, setupRequests, hfirst, hfew, hlast,
        bindRequests, hobstacles]
      rfl
    · simp only [history, List.flatMap_cons, List.flatMap_nil, solveRequests, hfirst, hfew, hlast]
      rfl
  · have hcheck : check { duct .noSlipWall with ghosts := 0 } config
        = .error (.mesh .noGhosts) := by
      rw [check, hvalid]
      exact (if_neg hcovered).trans (if_pos rfl)
    have hrefused : (makeWith { duct .noSlipWall with ghosts := 0 } config
        ({} : OperatorRecorder ℚ) solver).value = .error (.mesh .noGhosts) := by
      rw [makeWith_eq, hcheck]
    exact (record_history { duct .noSlipWall with ghosts := 0 } config
      (some (.notConverged 7 1 0)) hmesh []).1 _ hrefused

end ImplicitDiffusion

end MeshDiffusion
