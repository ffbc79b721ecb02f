import MeshDiffusion.Solver.Inner
import MeshDiffusion.Solver.LinearSolver

/-!
Residual correction.

An outer cycle on a level computes the residual `r = rhs - L sol` with the boundary values, solves
`L e = r` with a homogeneous boundary by an inner solver, and adds `e` to the solution. The levels
are solved one after another, the coarsest first; what surrounds the boxes of a level comes from its
boundary values.

* `ResidualCorrection.cycles` runs the cycles of one level until the residual is at most the
  target, and fails when the residual is not finite before a cycle, when the inner solver breaks
  down, or when the cycles are used up;
* `ResidualCorrection.runLevels` runs the levels and stops at the first failure;
* `ResidualCorrection.run` is the solve: initial residuals, levels, and a last filling of the
  ghosts if the settings ask for it.
-/

namespace MeshDiffusion

/-- A solver by residual correction, which is its settings. -/
structure ResidualCorrection where
  settings : SolveOptions := {}
deriving Inhabited

namespace ResidualCorrection

variable {K : Type} [Scalar K] {O : Type} [DiffusionOperator O K]

/-- The solution with its ghosts filled, and the residual of a level. -/
@[specialize] def residual (op : O) (level : Nat) (sol rhs : MeshField K) :
    MeshField K × MeshField K :=
  let (sol, ax) := DiffusionOperator.apply op level sol (sol.zeros sol.ncomp 0) false
  (sol, Inner.residual rhs ax)

/-- The inverse of the diagonal, one where it vanishes. -/
@[specialize] def diagonalInverse (op : O) (level : Nat) (like : MeshField K) : MeshField K :=
  (DiffusionOperator.diagonal op level (like.zeros 1 0)).update fun _ _ _ v =>
    if v == 0.0 then 1.0 else 1.0 / v

/-- The correction of a level for a residual. -/
@[specialize] def correction (s : ResidualCorrection) (op : O) (level : Nat)
    (sol diagonalInverse r : MeshField K) (target : K) :
    Noted K (Except Breakdown (MeshField K)) :=
  let pb : Inner.Problem K :=
    { level := level
      action := fun x out => DiffusionOperator.apply op level x out true
      diagonalInverse := diagonalInverse
      rhs := r
      target := target
      verbose := 0 < s.settings.innerVerbose
      maxIterations := s.settings.maxInner }
  let e := sol.zeros sol.ncomp 1
  match s.settings.innerMethod with
  | .smoother => (Inner.relax pb e).map .ok
  | .default | .hypre => Inner.bicgstab pb e

/-- The solution that a level reached, and the number of cycles with the last residual. -/
structure LevelRun (K : Type) where
  solution : MeshField K
  result : Except (SolveFailure K) (Nat × K)

/-- The cycles of a level from number `cycle` on, at most `fuel` of them. -/
@[specialize] def cycles (s : ResidualCorrection) (op : O) (level : Nat)
    (rhs diagonalInverse : MeshField K) (target : K) :
    (fuel cycle : Nat) → (sol r : MeshField K) → Noted K (LevelRun K)
  | 0, cycle, sol, r =>
    let norm := r.normAll
    .quiet ⟨sol, if norm ≤ target then .ok (cycle, norm)
      else .error (.notConverged cycle norm target)⟩
  | fuel + 1, cycle, sol, r =>
    let norm := r.normAll
    if !Scalar.isFinite norm then
      .quiet ⟨sol, .error (.breakdown level (.residualNotFinite cycle))⟩
    else
      let heard := if 0 < s.settings.verbose then [.cycle level cycle norm] else []
      if norm ≤ target then ⟨heard, sol, .ok (cycle, norm)⟩
      else
        let inner := s.correction op level sol diagonalInverse r target
        let heard := heard ++ inner.notices
        match inner.value with
        | .error e => ⟨heard, sol, .error (.breakdown level e)⟩
        | .ok e =>
          let (sol, r) := residual op level (sol.axpy 1.0 e 0) rhs
          (s.cycles op level rhs diagonalInverse target fuel (cycle + 1) sol r).after heard

/-- Solves one level. -/
@[specialize] def runLevel (s : ResidualCorrection) (op : O) (level : Nat)
    (sol rhs : MeshField K) (target : K) : Noted K (LevelRun K) :=
  let inverse := diagonalInverse op level sol
  let (sol, r) := residual op level sol rhs
  s.cycles op level rhs inverse target s.settings.maxCycles 0 sol r

/-- Fills the ghosts of every level and finds the largest residual. -/
@[specialize] def startResidual (op : O) (levels : List Nat) (sol rhs : Levels (MeshField K)) :
    Levels (MeshField K) × K :=
  levels.foldl
    (fun (sol, r0) level =>
      let (filled, r) := residual op level (sol.get level) (rhs.get level)
      (sol.set level filled, Scalar.maxNum r0 r.normAll))
    (sol, 0.0)

/-- Solves levels one after another up to the first failure. The number of cycles is summed and
the largest residual kept. -/
@[specialize] def runLevels (s : ResidualCorrection) (op : O) (rhs : Levels (MeshField K))
    (target : K) : List Nat → (sol : Levels (MeshField K)) → (count : Nat) → (residual : K) →
      Noted K (Levels (MeshField K) × Except (SolveFailure K) (Nat × K))
  | [], sol, count, residual => .quiet (sol, .ok (count, residual))
  | level :: levels, sol, count, residual =>
    let run := s.runLevel op level (sol.get level) (rhs.get level) target
    let sol := sol.set level run.value.solution
    match run.value.result with
    | .error e => ⟨run.notices, sol, .error e⟩
    | .ok (n, r) =>
      (s.runLevels op rhs target levels sol (count + n) (Scalar.maxNum residual r)).after
        run.notices

/-- Fills the ghosts of levels from the boundary values. -/
@[specialize] def finalFill (op : O) (levels : List Nat) (sol : Levels (MeshField K)) :
    Levels (MeshField K) :=
  levels.foldl
    (fun sol level => sol.set level (DiffusionOperator.fillHalo op level (sol.get level) false)) sol

/-- Solves all levels of an operator. -/
@[specialize] def run (s : ResidualCorrection) (op : O) (sol rhs : Levels (MeshField K))
    (rtol atol : K) : Noted K (Solved ResidualCorrection K) :=
  let n := DiffusionOperator.levelCount op
  if sol.count < n ∨ rhs.count < n then
    .quiet ⟨s, sol, .error (.fewerLevels n (min sol.count rhs.count))⟩
  else
    let levels := List.range n
    let (sol, r0) := startResidual op levels sol rhs
    let target := Scalar.maxNum (rtol * r0) atol
    let told (x : Notice K) : List (Notice K) := if 0 < s.settings.verbose then [x] else []
    let body := s.runLevels op rhs target levels sol 0 0.0
    let heard := told (.solveStarts r0 target n) ++ body.notices
    match body.value with
    | (sol, .error e) => ⟨heard, s, sol, .error e⟩
    | (sol, .ok (count, residual)) =>
      let sol := if s.settings.finalFill then finalFill op levels sol else sol
      ⟨heard ++ told (.solveEnds count residual), s, sol, .ok ⟨count, r0, residual, n⟩⟩

instance : LinearSolver ResidualCorrection K where
  configure _ settings :=
    ⟨if settings.innerMethod = .hypre then [.methodMissing] else [], ⟨settings⟩⟩
  solve s op sol rhs rtol atol := s.run op sol rhs rtol atol

end ResidualCorrection

end MeshDiffusion
