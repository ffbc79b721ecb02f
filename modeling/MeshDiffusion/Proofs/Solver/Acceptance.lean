import Mathlib.Tactic
import MeshDiffusion.Proofs.Solver.ResidualCorrection

/-!
Solutions that are accepted as they are.

A solve compares the residual with the target before each cycle, so a first guess whose residual is
small enough on every level goes through without any cycle: its ghosts are filled, its cells stay.

* `ResidualCorrection.Acceptable`: the residual of a level is finite and at most the target;
* `ResidualCorrection.runLevels_accept`: levels whose residuals are acceptable are only filled;
* `ResidualCorrection.run_accept`: a solve of such levels succeeds after no cycle, and reports the
  largest residual of the first guess at its start and at its end.
-/

namespace MeshDiffusion

namespace ResidualCorrection

open Scalar

variable {K : Type} [Scalar K] {s : ResidualCorrection} {op : FiniteVolume K} {level : ℕ}
  {sol rhs inverse : MeshField K} {sols rhss : Levels (MeshField K)} {target : K}

/-- The residual of a level is finite and at most the target. -/
structure Acceptable (op : FiniteVolume K) (level : ℕ) (sol rhs : MeshField K) (target : K) :
    Prop where
  norm_finite : isFinite (residualNorm op level sol rhs) = true
  norm_le : residualNorm op level sol rhs ≤ target

/-- Solutions that agree are acceptable together. -/
lemma Acceptable.congr {sol' : MeshField K} (h : Acceptable op level sol rhs target)
    (hagrees : sol'.Agrees sol) : Acceptable op level sol' rhs target := by
  constructor
  · rw [residualNorm_congr hagrees]
    exact h.norm_finite
  · rw [residualNorm_congr hagrees]
    exact h.norm_le

/-- The cycles of a level stop at once at an acceptable residual, whether any are allowed or not. -/
lemma cycles_accept {fuel cycle : ℕ} {r : MeshField K} (hfinite : isFinite r.normAll = true)
    (hle : r.normAll ≤ target) :
    (s.cycles op level rhs inverse target fuel cycle sol r).value
      = ⟨sol, .ok (cycle, r.normAll)⟩ := by
  cases fuel with
  | zero => simp only [cycles, Noted.quiet, if_pos hle]
  | succ fuel =>
      rw [cycles]
      simp only [hfinite, Bool.not_true, Bool.false_eq_true, if_false, if_pos hle]

/-- A level that is acceptable is filled and left. -/
lemma runLevel_accept (h : Acceptable op level sol rhs target) :
    (s.runLevel op level sol rhs target).value
      = ⟨FiniteVolume.filled (op.levels.get level) sol false,
          .ok (0, residualNorm op level sol rhs)⟩ :=
  cycles_accept h.norm_finite h.norm_le

/-- The last filling keeps the number of levels. -/
lemma count_finalFill {levels : List ℕ} : (finalFill op levels sols).count = sols.count := by
  rw [finalFill]
  exact List.foldlRecOn (motive := fun fields : Levels (MeshField K) => fields.count = sols.count)
    levels _ rfl fun _ hfields _ _ => (Levels.count_set ..).trans hfields

/-- **Levels that are acceptable are filled one after another and left.** -/
theorem runLevels_accept {levels : List ℕ} (hnodup : levels.Nodup) {count : ℕ} {start : K}
    (h : ∀ l ∈ levels, Acceptable op l (sols.get l) (rhss.get l) target) :
    (s.runLevels op rhss target levels sols count start).value
      = (finalFill op levels sols, .ok (count,
          (levels.map fun l => residualNorm op l (sols.get l) (rhss.get l)).foldl
            maxNum start)) := by
  induction levels generalizing sols start with
  | nil => rfl
  | cons l levels ih =>
      obtain ⟨hl, hnodup⟩ := List.nodup_cons.1 hnodup
      obtain ⟨hfirst, hothers⟩ := List.forall_mem_cons.1 h
      let next := sols.set l (FiniteVolume.filled (op.levels.get l) (sols.get l) false)
      -- filling the first level is not seen by the others
      have hkept : ∀ k ∈ levels, next.get k = sols.get k := by
        intro k hk
        have hne : k ≠ l := by
          rintro rfl
          exact hl hk
        exact Levels.get_set_of_ne hne _
      have hnorms : levels.map (fun k => residualNorm op k (next.get k) (rhss.get k))
          = levels.map fun k => residualNorm op k (sols.get k) (rhss.get k) :=
        List.map_congr_left fun k hk => by rw [hkept k hk]
      rw [runLevels]
      simp only [runLevel_accept hfirst, Noted.after, Nat.add_zero]
      rw [ih hnodup fun k hk => hkept k hk ▸ hothers k hk, hnorms]
      rfl

/-- **A solve that has nothing to do.** If the residual of the first guess is acceptable on every
level, the solve succeeds after no cycle with this residual, and returns the first guess with its
ghosts filled. -/
theorem run_accept {rtol atol r0 : K} (hsols : op.levels.count ≤ sols.count)
    (hrhss : op.levels.count ≤ rhss.count)
    (hr0 : r0 = ((List.range op.levels.count).map fun l =>
      residualNorm op l (sols.get l) (rhss.get l)).foldl maxNum 0.0)
    (h : ∀ l < op.levels.count,
      Acceptable op l (sols.get l) (rhss.get l) (maxNum (rtol * r0) atol)) :
    (s.run op sols rhss rtol atol).value.result = .ok ⟨0, r0, r0, op.levels.count⟩ ∧
    ∀ l < op.levels.count, (s.run op sols rhss rtol atol).value.solution.get l
      = FiniteVolume.filled (op.levels.get l) (sols.get l) false := by
  have hnodup : (List.range op.levels.count).Nodup := List.nodup_range
  have hlt : ∀ l ∈ List.range op.levels.count, l < sols.count :=
    fun l hl => (List.mem_range.1 hl).trans_le hsols
  obtain ⟨hcount, -, hagrees, hstart⟩ := startResidual_agrees op rhss hnodup hlt
  rw [← hr0] at hstart
  -- the first guess is filled at the start, which keeps its cells
  generalize hfirst : startResidual op (List.range op.levels.count) sols rhss = first
    at hcount hagrees hstart
  obtain ⟨first, start⟩ := first
  obtain rfl : r0 = start := hstart.symm
  replace hcount : first.count = sols.count := hcount
  have hnorms : (List.range op.levels.count).map
        (fun l => residualNorm op l (first.get l) (rhss.get l))
      = (List.range op.levels.count).map fun l => residualNorm op l (sols.get l) (rhss.get l) :=
    List.map_congr_left fun l hl => residualNorm_congr (hagrees l hl)
  have hbody : (s.runLevels op rhss (maxNum (rtol * r0) atol) (List.range op.levels.count) first 0
      0.0).value = (finalFill op (List.range op.levels.count) first, .ok (0, r0)) := by
    rw [runLevels_accept hnodup
      fun l hl => (h l (List.mem_range.1 hl)).congr (hagrees l hl), hnorms, ← hr0]
  -- however often a level is filled, it is the filling of the first guess
  have hfilled : ∀ fields : Levels (MeshField K), fields.count = sols.count →
      (∀ l ∈ List.range op.levels.count, (fields.get l).Agrees (sols.get l)) →
      ∀ l ∈ List.range op.levels.count, (finalFill op (List.range op.levels.count) fields).get l
        = FiniteVolume.filled (op.levels.get l) (sols.get l) false := by
    intro fields hfields hsame l hl
    rw [(get_finalFill op hnodup fun k hk => hfields ▸ hlt k hk).1 l hl]
    exact FiniteVolume.filled_congr (hsame l hl)
  have hafter := hfilled first hcount hagrees
  have hagain := hfilled _ (count_finalFill.trans hcount) fun l hl => by
    rw [hafter l hl]
    exact FiniteVolume.filled_agrees _
  have hfew : ¬(sols.count < op.levels.count ∨ rhss.count < op.levels.count) := by omega
  have hlevels : DiffusionOperator.levelCount op = op.levels.count := rfl
  rw [run, hlevels]
  simp only [if_neg hfew, hfirst, hbody, true_and]
  intro l hl
  split_ifs
  · exact hagain l (List.mem_range.2 hl)
  · exact hafter l (List.mem_range.2 hl)

end ResidualCorrection

end MeshDiffusion
