import Mathlib.Tactic
import MeshDiffusion.Proofs.Arith.DoubleOrder
import MeshDiffusion.Proofs.Solver.ResidualCorrection

/-!
How a solve fails.

Before each cycle a level checks its residual, first whether it is finite and then against the
target; after the last allowed cycle only against the target. An overflow is therefore named as a
breakdown wherever it happens but there, where it is reported as cycles that did not suffice.

* `ResidualCorrection.Checks` are the residuals that the cycles of a level check, and
  `ResidualCorrection.Fails` the three ways in which the level fails
  (`ResidualCorrection.runLevel_error_iff`);
* `ResidualCorrection.Arrives`: the levels that a solve comes to, since all before have passed;
* `ResidualCorrection.Meets`: the residuals that a solve checks on all levels, and
  `ResidualCorrection.run_error_iff`, how it fails;
* `ResidualCorrection.run_notFinite`: what it reports when one of them is not finite.
-/

namespace MeshDiffusion

namespace ResidualCorrection

open Scalar

variable {K : Type} [Scalar K] {O : Type} [DiffusionOperator O K] {s : ResidualCorrection} {op : O}
  {level cycle fuel : ℕ} {start sol rhs inverse r : MeshField K} {target : K} {e : SolveFailure K}

/-! ### One level -/

/-- The residuals that the cycles of a level check, with the number of cycles before the check and
the solution that the residual belongs to. Another cycle follows a residual that is finite and above
the target. -/
inductive Checks (s : ResidualCorrection) (op : O) (level : ℕ) (start rhs : MeshField K)
    (target : K) : ℕ → MeshField K → MeshField K → Prop where
  | start : Checks s op level start rhs target 0 (residual op level start rhs).1
      (residual op level start rhs).2
  | next {cycle : ℕ} {sol r e : MeshField K} : Checks s op level start rhs target cycle sol r →
      cycle < s.settings.maxCycles → isFinite r.normAll = true → ¬r.normAll ≤ target →
      (s.correction op level sol (diagonalInverse op level start) r target).value = .ok e →
      Checks s op level start rhs target (cycle + 1) (residual op level (sol.axpy 1.0 e 0) rhs).1
        (residual op level (sol.axpy 1.0 e 0) rhs).2

/-- The ways in which a level fails. -/
inductive Fails (s : ResidualCorrection) (op : O) (level : ℕ) (start rhs : MeshField K)
    (target : K) : SolveFailure K → Prop where
  | notFinite {cycle : ℕ} {sol r : MeshField K} : Checks s op level start rhs target cycle sol r →
      cycle < s.settings.maxCycles → isFinite r.normAll = false →
      Fails s op level start rhs target (.breakdown level (.residualNotFinite cycle))
  | inner {cycle : ℕ} {sol r : MeshField K} {b : Breakdown} :
      Checks s op level start rhs target cycle sol r → cycle < s.settings.maxCycles →
      isFinite r.normAll = true → ¬r.normAll ≤ target →
      (s.correction op level sol (diagonalInverse op level start) r target).value = .error b →
      Fails s op level start rhs target (.breakdown level b)
  | capped {sol r : MeshField K} : Checks s op level start rhs target s.settings.maxCycles sol r →
      ¬r.normAll ≤ target →
      Fails s op level start rhs target (.notConverged s.settings.maxCycles r.normAll target)

omit [Scalar K] in
/-- The cycle after a check is one of those that are left. -/
private lemma cyclesLeft (h : cycle < s.settings.maxCycles) :
    s.settings.maxCycles - cycle = s.settings.maxCycles - (cycle + 1) + 1 := by
  omega

/-- The cycles that are left at a check are those of the whole level. -/
lemma Checks.runLevel_eq (h : Checks s op level start rhs target cycle sol r) :
    cycle ≤ s.settings.maxCycles ∧ (s.runLevel op level start rhs target).value
      = (s.cycles op level rhs (diagonalInverse op level start) target
          (s.settings.maxCycles - cycle) cycle sol r).value := by
  induction h with
  | start => exact ⟨Nat.zero_le _, rfl⟩
  | @next cycle sol r e _ hcycle hfinite habove hinner ih =>
      refine ⟨hcycle, ih.2.trans ?_⟩
      rw [cyclesLeft hcycle, cycles]
      simp only [hfinite, Bool.not_true, Bool.false_eq_true, if_false, if_neg habove, hinner,
        Noted.after]

/-- Cycles that fail from a check on have failed in one of the three ways. -/
lemma Checks.fails (h : Checks s op level start rhs target cycle sol r)
    (hfuel : cycle + fuel = s.settings.maxCycles)
    (herror : (s.cycles op level rhs (diagonalInverse op level start) target fuel cycle sol
      r).value.result = .error e) : Fails s op level start rhs target e := by
  induction fuel generalizing cycle sol r with
  | zero =>
      obtain rfl : cycle = s.settings.maxCycles := hfuel
      rw [cycles] at herror
      by_cases hle : r.normAll ≤ target
      · simp [if_pos hle, Noted.quiet] at herror
      · simp only [if_neg hle, Noted.quiet, Except.error.injEq] at herror
        exact herror ▸ .capped h hle
  | succ fuel ih =>
      have hcycle : cycle < s.settings.maxCycles := by omega
      rw [cycles] at herror
      cases hfinite : isFinite r.normAll with
      | false =>
          simp only [hfinite, Bool.not_false, if_true, Noted.quiet, Except.error.injEq] at herror
          exact herror ▸ .notFinite h hcycle hfinite
      | true =>
          simp only [hfinite, Bool.not_true, Bool.false_eq_true, if_false] at herror
          by_cases hle : r.normAll ≤ target
          · simp [if_pos hle] at herror
          · simp only [if_neg hle] at herror
            cases hinner : (s.correction op level sol (diagonalInverse op level start) r
                target).value with
            | error b =>
                simp only [hinner, Except.error.injEq] at herror
                exact herror ▸ .inner h hcycle hfinite hle hinner
            | ok e =>
                simp only [hinner, Noted.after] at herror
                exact ih (h.next hcycle hfinite hle hinner) (by omega) herror

/-- A level that fails in one of the three ways reports it. -/
lemma Fails.runLevel_eq (h : Fails s op level start rhs target e) :
    (s.runLevel op level start rhs target).value.result = .error e := by
  cases h with
  | notFinite hs hcycle hfinite =>
      rw [hs.runLevel_eq.2, cyclesLeft hcycle, cycles]
      simp only [hfinite, Bool.not_false, if_true, Noted.quiet]
  | inner hs hcycle hfinite habove hinner =>
      rw [hs.runLevel_eq.2, cyclesLeft hcycle, cycles]
      simp only [hfinite, Bool.not_true, Bool.false_eq_true, if_false, if_neg habove, hinner]
  | capped hs habove =>
      rw [hs.runLevel_eq.2, Nat.sub_self, cycles]
      simp only [if_neg habove, Noted.quiet]

/-- A level reports exactly the ways in which it fails. -/
theorem runLevel_error_iff :
    (s.runLevel op level start rhs target).value.result = .error e ↔
      Fails s op level start rhs target e :=
  ⟨fun h => Checks.start.fails (Nat.zero_add _) h, Fails.runLevel_eq⟩

/-! ### The levels -/

variable {sols rhss first before : Levels (MeshField K)} {levels count : ℕ} {rtol atol : K}

/-- The levels that a solve comes to, each with the fields that it finds: those before it have
passed. -/
inductive Arrives (s : ResidualCorrection) (op : O) (rhss : Levels (MeshField K)) (target : K)
    (first : Levels (MeshField K)) : ℕ → Levels (MeshField K) → Prop where
  | first : Arrives s op rhss target first 0 first
  | next {level cycles : ℕ} {sols : Levels (MeshField K)} {x : K} :
      Arrives s op rhss target first level sols →
      (s.runLevel op level (sols.get level) (rhss.get level) target).value.result
        = .ok (cycles, x) →
      Arrives s op rhss target first (level + 1)
        (sols.set level
          (s.runLevel op level (sols.get level) (rhss.get level) target).value.solution)

/-- The levels from one on. -/
private lemma drop_range (hlevel : level < levels) :
    (List.range levels).drop level = level :: (List.range levels).drop (level + 1) := by
  rw [List.drop_eq_getElem_cons (by simpa using hlevel), List.getElem_range]

/-- The levels that are left on arrival decide how the solve of all levels ends. -/
lemma Arrives.runLevels_eq (h : Arrives s op rhss target first level before)
    (hlevel : level ≤ levels) :
    ∃ count x, (s.runLevels op rhss target (List.range levels) first 0 0.0).value
      = (s.runLevels op rhss target ((List.range levels).drop level) before count x).value := by
  induction h with
  | first => exact ⟨0, 0.0, rfl⟩
  | @next level cycles sols x _ hok ih =>
      obtain ⟨count, residual, hrun⟩ := ih (by omega)
      refine ⟨count + cycles, maxNum residual x, hrun.trans ?_⟩
      rw [drop_range hlevel, runLevels]
      simp only [hok, Noted.after]

/-- The levels that are left on arrival fail only where one of them does. -/
lemma Arrives.fails (h : Arrives s op rhss target first level before) {x : K} {left : ℕ}
    (hleft : level + left = levels)
    (herror : (s.runLevels op rhss target ((List.range levels).drop level) before count x).value.2
      = .error e) :
    ∃ l < levels, ∃ found, Arrives s op rhss target first l found ∧
      Fails s op l (found.get l) (rhss.get l) target e := by
  induction left generalizing level before count x with
  | zero =>
      have hnone : (List.range levels).drop level = [] := List.drop_eq_nil_of_le (by simp; omega)
      rw [hnone] at herror
      cases herror
  | succ left ih =>
      rw [drop_range (by omega), runLevels] at herror
      cases hrun : (s.runLevel op level (before.get level) (rhss.get level)
          target).value.result with
      | error e' =>
          simp only [hrun, Except.error.injEq] at herror
          subst herror
          exact ⟨level, by omega, before, h, runLevel_error_iff.1 hrun⟩
      | ok nr =>
          simp only [hrun, Noted.after] at herror
          exact ih (h.next hrun) (by omega) herror

/-- The levels of a solve fail exactly where it comes to one that does. -/
lemma runLevels_error_iff :
    (s.runLevels op rhss target (List.range levels) first 0 0.0).value.2 = .error e ↔
      ∃ l < levels, ∃ found, Arrives s op rhss target first l found ∧
        Fails s op l (found.get l) (rhss.get l) target e := by
  constructor
  · exact fun herror => Arrives.first.fails (Nat.zero_add _) herror
  · rintro ⟨l, hl, found, harrives, hfails⟩
    obtain ⟨count, x, hrun⟩ := harrives.runLevels_eq hl.le
    rw [hrun, drop_range hl, runLevels]
    simp only [hfails.runLevel_eq]

/-! ### The whole solve -/

/-- The start of a solve fills the ghosts of the levels one after another. -/
private lemma startResidual_fst (op : O) (levels : List ℕ) (sols rhss : Levels (MeshField K)) :
    (startResidual op levels sols rhss).1
      = levels.foldl (fun sol l => sol.set l (residual op l (sol.get l) (rhss.get l)).1) sols := by
  rw [startResidual]
  generalize (0.0 : K) = x
  induction levels generalizing sols x with
  | nil => rfl
  | cons l levels ih =>
      simp only [List.foldl_cons]
      exact ih _ _

/-- On arrival a level, and all after it, are as they were at the start. -/
lemma Arrives.get_eq (h : Arrives s op rhss target first level before) {l : ℕ} (hl : level ≤ l) :
    before.get l = first.get l := by
  induction h with
  | first => rfl
  | next _ _ ih => exact (Levels.get_set_of_ne (by omega) _).trans (ih (by omega))

/-- The target of a solve. -/
def goal (op : O) (sols rhss : Levels (MeshField K)) (rtol atol : K) : K :=
  maxNum (rtol * (startResidual op (List.range (DiffusionOperator.levelCount op)) sols rhss).2) atol

/-- The levels that the solve of an operator comes to, with the fields that it finds there. -/
def Finds (s : ResidualCorrection) (op : O) (sols rhss : Levels (MeshField K)) (rtol atol : K)
    (level : ℕ) (before : Levels (MeshField K)) : Prop :=
  level < DiffusionOperator.levelCount op ∧
    Arrives s op rhss (goal op sols rhss rtol atol)
      (startResidual op (List.range (DiffusionOperator.levelCount op)) sols rhss).1 level before

/-- The residuals that a solve checks, with the level and the number of cycles on it. -/
structure Meets (s : ResidualCorrection) (op : O) (sols rhss : Levels (MeshField K))
    (rtol atol : K) (level cycle : ℕ) (r : MeshField K) : Prop where
  enough : DiffusionOperator.levelCount op ≤ sols.count ∧
    DiffusionOperator.levelCount op ≤ rhss.count
  checked : ∃ before, Finds s op sols rhss rtol atol level before ∧
    ∃ sol, Checks s op level (before.get level) (rhss.get level) (goal op sols rhss rtol atol) cycle
      sol r

/-- **A solve fails exactly where it comes to a level that does**, if it is given all levels. -/
theorem run_error_iff (henough : DiffusionOperator.levelCount op ≤ sols.count ∧
      DiffusionOperator.levelCount op ≤ rhss.count) :
    (s.run op sols rhss rtol atol).value.result = .error e ↔
      ∃ level before, Finds s op sols rhss rtol atol level before ∧
        Fails s op level (before.get level) (rhss.get level) (goal op sols rhss rtol atol) e := by
  have hfew : ¬(sols.count < DiffusionOperator.levelCount op ∨
      rhss.count < DiffusionOperator.levelCount op) := by omega
  have hrun : (s.run op sols rhss rtol atol).value.result = .error e ↔
      (s.runLevels op rhss (goal op sols rhss rtol atol)
        (List.range (DiffusionOperator.levelCount op))
        (startResidual op (List.range (DiffusionOperator.levelCount op)) sols rhss).1 0
        0.0).value.2 = .error e := by
    rw [run, goal]
    simp only [if_neg hfew]
    cases hbody : (s.runLevels op rhss (maxNum (rtol * (startResidual op (List.range
        (DiffusionOperator.levelCount op)) sols rhss).2) atol) (List.range
        (DiffusionOperator.levelCount op)) (startResidual op (List.range
        (DiffusionOperator.levelCount op)) sols rhss).1 0 0.0).value with
    | mk after result => cases result <;> simp
  rw [hrun, runLevels_error_iff]
  constructor
  · rintro ⟨level, hlevel, before, harrives, hfails⟩
    exact ⟨level, before, ⟨hlevel, harrives⟩, hfails⟩
  · rintro ⟨level, before, ⟨hlevel, harrives⟩, hfails⟩
    exact ⟨level, hlevel, before, harrives, hfails⟩

/-- A solve that is given too few levels says so. -/
lemma run_few (hfew : ¬(DiffusionOperator.levelCount op ≤ sols.count ∧
      DiffusionOperator.levelCount op ≤ rhss.count)) :
    (s.run op sols rhss rtol atol).value.result
      = .error (.fewerLevels (DiffusionOperator.levelCount op) (min sols.count rhss.count)) := by
  rw [run]
  simp only [Noted.quiet]
  rw [if_pos (by omega)]

/-- The first residual that a level checks is the one of the first guess, with its ghosts filled. -/
lemma Meets.first_eq (h : Meets s op sols rhss rtol atol level 0 r) :
    r = (residual op level (residual op level (sols.get level) (rhss.get level)).1
      (rhss.get level)).2 := by
  obtain ⟨before, ⟨hlevel, harrives⟩, sol, hchecks⟩ := h.checked
  have hlt : level < sols.count := hlevel.trans_le h.enough.1
  have hguess : before.get level = (residual op level (sols.get level) (rhss.get level)).1 := by
    obtain ⟨-, -, hin⟩ := Levels.foldl_set (fun l phi => (residual op l phi (rhss.get l)).1)
      (List.nodup_range (n := DiffusionOperator.levelCount op)) sols
    rw [harrives.get_eq le_rfl, startResidual_fst]
    exact hin level (List.mem_range.2 hlevel) hlt
  cases hchecks
  rw [hguess]

section Ordered

variable [LawfulOrder K]

/-- After a cycle, a residual that is not finite is not at most the target. -/
lemma Checks.above (h : Checks s op level start rhs target cycle sol r) (hcycle : 1 ≤ cycle)
    (hfinite : isFinite r.normAll = false) : ¬r.normAll ≤ target := by
  intro hle
  cases h with
  | start => omega
  | @next cycle sol r' e _ _ hfinite' habove _ =>
      -- it would lie between zero and the finite norm that was above the target
      obtain ⟨hnumber, htarget⟩ := number_of_le hle
      have hzero := (MeshField.normAll_zeroOrAbove hnumber).zero_le
      have hbelow := le_of_not_le (number_of_isFinite hfinite') htarget habove
      rw [isFinite_of_between isFinite_zero hfinite' hzero (LawfulOrder.le_trans hle hbelow)]
        at hfinite
      cases hfinite

/-- A target is a number if the absolute tolerance is. -/
lemma isNaN_goal (hatol : isNaN atol = false) : isNaN (goal op sols rhss rtol atol) = false := by
  rw [goal]
  exact (number_of_le (le_maxNum_right hatol)).2

/-- **A residual that is not finite is a breakdown, except at the last check.** For a solve with at
least one cycle and an absolute tolerance that is a number:

* if a residual that is checked on a level before one of its cycles is not finite, the solve breaks
  down there, with the level and the number of the cycle;
* if the one that is checked after the last allowed cycle is not finite, the solve reports that it
  has not converged, with this residual;
* a solve reports that it has not converged only after all allowed cycles, with the target and a
  residual that it has met there, which lies above the target if it is finite;
* the first residual of a level is the one of the first guess. -/
theorem run_notFinite (hcycles : 1 ≤ s.settings.maxCycles) (hatol : isNaN atol = false) :
    let result := (s.run op sols rhss rtol atol).value.result
    (∀ level cycle r, Meets s op sols rhss rtol atol level cycle r → isFinite r.normAll = false →
      cycle < s.settings.maxCycles →
        result = .error (.breakdown level (.residualNotFinite cycle))) ∧
    (∀ level r, Meets s op sols rhss rtol atol level s.settings.maxCycles r →
      isFinite r.normAll = false →
        result = .error (.notConverged s.settings.maxCycles r.normAll
          (goal op sols rhss rtol atol))) ∧
    (∀ cycles residual target, result = .error (.notConverged cycles residual target) →
      cycles = s.settings.maxCycles ∧ target = goal op sols rhss rtol atol ∧
      (isFinite residual = true → target < residual) ∧
      ∃ level r, Meets s op sols rhss rtol atol level s.settings.maxCycles r ∧
        r.normAll = residual) ∧
    ∀ level r, Meets s op sols rhss rtol atol level 0 r →
      r = (residual op level (residual op level (sols.get level) (rhss.get level)).1
        (rhss.get level)).2 := by
  intro result
  refine ⟨fun level cycle r h hfinite hcycle => ?_, fun level r h hfinite => ?_,
    fun cycles residual target hresult => ?_, fun level r h => h.first_eq⟩
  · obtain ⟨before, hfinds, sol, hchecks⟩ := h.checked
    exact (run_error_iff h.enough).2 ⟨level, before, hfinds, .notFinite hchecks hcycle hfinite⟩
  · obtain ⟨before, hfinds, sol, hchecks⟩ := h.checked
    have habove := hchecks.above hcycles hfinite
    exact (run_error_iff h.enough).2 ⟨level, before, hfinds, .capped hchecks habove⟩
  · by_cases henough : DiffusionOperator.levelCount op ≤ sols.count ∧
        DiffusionOperator.levelCount op ≤ rhss.count
    · obtain ⟨level, before, hfinds, hfails⟩ := (run_error_iff henough).1 hresult
      cases hfails with
      | @capped sol r hchecks habove =>
          refine ⟨rfl, rfl, fun hfinite => ?_, level, r, ⟨henough, before, hfinds, sol, hchecks⟩,
            rfl⟩
          exact lt_iff.2 ⟨isNaN_goal hatol, number_of_isFinite hfinite, habove⟩
    · cases hresult.symm.trans (run_few henough)

end Ordered

/-! ### One cell -/

/-- One cell of width one. -/
private def speck : Box := ⟨⟨0, 0, 0⟩, ⟨0, 0, 0⟩, .cell⟩

/-- The operator `a phi` on one cell in doubles, with a tiny coefficient. -/
private def speckOperator : FiniteVolume Float :=
  { FiniteVolume.unbound with
    levels := .ofFn 1 fun _ =>
      { geometry := ⟨speck, .const 0.0, .const 1.0, .const false⟩
        mass := .const ⟨#[speck]⟩ (.single 1) 1 0 1e-300
        viscosity := .ofFn fun a => .const ⟨#[speck.faces a]⟩ (.single 1) 1 0 1.0
        obstacleViscosity := .const ⟨#[speck]⟩ (.single 1) 1 0 1.0
        boundary? := none
        covered? := none }
    boundary := .const .neumann
    alpha := 1.0 }

/-- One sweep in each of some cycles. -/
private def oneSweep (cycles : ℕ) : ResidualCorrection :=
  ⟨{ maxCycles := cycles, maxInner := 1, innerMethod := .smoother }⟩

/-- A field on the cell, on one level. -/
private def speckField (ghosts : ℕ) (v : Float) : Levels (MeshField Float) :=
  .ofFn 1 fun _ => .const ⟨#[speck]⟩ (.single 1) 1 ghosts v

/-- With two cycles allowed, the sweep of the first one overflows and the second one finds it. -/
theorem run_notFinite_speck :
    let s := oneSweep 2
    let result := (s.run speckOperator (speckField 1 0.0) (speckField 0 1e10) 0.0 1.0).value.result
    1 ≤ s.settings.maxCycles ∧ isNaN (1.0 : Float) = false ∧
    ∃ r, Meets s speckOperator (speckField 1 0.0) (speckField 0 1e10) 0.0 1.0 0 1 r ∧
      isFinite r.normAll = false ∧ result = .error (.breakdown 0 (.residualNotFinite 1)) := by
  intro s result
  have hcycles : 1 ≤ s.settings.maxCycles := by decide
  have hatol : isNaN (1.0 : Float) = false := by decide
  let levels := List.range (DiffusionOperator.levelCount speckOperator)
  let first := (startResidual speckOperator levels (speckField 1 0.0) (speckField 0 1e10)).1.get 0
  let source := (speckField 0 1e10).get 0
  let target := goal speckOperator (speckField 1 0.0) (speckField 0 1e10) 0.0 1.0
  have hfinite : isFinite (residual speckOperator 0 first source).2.normAll = true := by
    decide +kernel
  have habove : ¬(residual speckOperator 0 first source).2.normAll ≤ target := by decide +kernel
  have hchecks : Checks s speckOperator 0 first source target 1 _ _ :=
    Checks.start.next (by decide) hfinite habove rfl
  have hlevel : 0 < DiffusionOperator.levelCount speckOperator := by decide +kernel
  have hmeets : Meets s speckOperator (speckField 1 0.0) (speckField 0 1e10) 0.0 1.0 0 1 _ :=
    ⟨by decide +kernel, _, ⟨hlevel, .first⟩, _, hchecks⟩
  refine ⟨hcycles, hatol, _, hmeets, ?_,
    (run_notFinite hcycles hatol).1 0 1 _ hmeets ?_ (by decide)⟩ <;> decide +kernel

/-- Whether a solve reports that it has not converged after some cycles, with a residual that is not
finite. -/
private def reportsOverflow (cycles : ℕ) : Except (SolveFailure Float) (SolveSummary Float) → Bool
  | .error (.notConverged n residual _) => n = cycles && !isFinite residual
  | _ => false

/-- With one cycle allowed nothing finds it, and the solve reports an infinite residual after its
only cycle. -/
theorem run_notFinite_capped :
    let result :=
      ((oneSweep 1).run speckOperator (speckField 1 0.0) (speckField 0 1e10) 0.0 1.0).value.result
    1 ≤ (oneSweep 1).settings.maxCycles ∧
    isFinite (0.0 : Float) = true ∧ isFinite (1.0 : Float) = true ∧
    ∃ residual target, result = .error (.notConverged 1 residual target) ∧
      isFinite residual = false := by
  intro result
  have hreports : reportsOverflow 1 result = true := by decide +kernel
  refine ⟨by decide, by decide, by decide, ?_⟩
  generalize result = result at hreports
  match result, hreports with
  | .error (.notConverged n residual target), hreports =>
      rw [reportsOverflow, Bool.and_eq_true, decide_eq_true_iff] at hreports
      obtain ⟨rfl, hfinite⟩ := hreports
      exact ⟨residual, target, rfl, by simpa using hfinite⟩

end ResidualCorrection

end MeshDiffusion
