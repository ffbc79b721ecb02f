import Mathlib.Tactic
import MeshDiffusion.Proofs.Arith.DoubleOrder
import MeshDiffusion.Proofs.Operator.Filling
import MeshDiffusion.Solver.ResidualCorrection

/-!
What a solve that converged leaves behind.

The residual that ends the cycles of a level is computed inside a cycle, before the solution is
handed back. It is still the residual of what is handed back: it depends on valid points of the
level only (`residual_congr`), and neither the other levels nor the last filling change those.

* `ResidualCorrection.residualNorm` is the norm of a residual, computed anew;
* `ResidualCorrection.Settled` is what the cycles of one level establish
  (`ResidualCorrection.cycles_settled`);
* `ResidualCorrection.Passed` is what the levels of a list have established after each other
  (`ResidualCorrection.runLevels_passed`);
* `ResidualCorrection.Converged` is what the whole solve establishes
  (`ResidualCorrection.run_converged`).
-/

namespace MeshDiffusion

namespace ResidualCorrection

open Scalar

variable {K : Type} [Scalar K] {s : ResidualCorrection} {op : FiniteVolume K} {level : ℕ}
  {f g sol rhs inverse : MeshField K} {target : K}

/-! ### The residual of a level -/

/-- The residual of a level is one of the valid points of the solution. -/
theorem residual_congr (h : f.Agrees g) : residual op level f rhs = residual op level g rhs := by
  have hz : f.zeros f.ncomp 0 = g.zeros g.ncomp 0 := by
    have hl : f.layout = g.layout := h.layout
    have ho : f.owners = g.owners := congrArg MeshField.Shape.owners h.shape
    have hn : f.ncomp = g.ncomp := congrArg MeshField.Shape.ncomp h.shape
    rw [MeshField.zeros, MeshField.zeros, hl, ho, hn]
  have happly : DiffusionOperator.apply op level f (f.zeros f.ncomp 0) false
      = DiffusionOperator.apply op level g (g.zeros g.ncomp 0) false := by
    simp only [DiffusionOperator.apply, hz, FiniteVolume.filled_congr h]
  rw [residual, residual, happly]

/-- A residual fills the ghosts of the solution and keeps its valid points. -/
lemma residual_fst_agrees (op : FiniteVolume K) (level : ℕ) (f rhs : MeshField K) :
    (residual op level f rhs).1.Agrees f :=
  FiniteVolume.filled_agrees f

lemma residual_fst (op : FiniteVolume K) (level : ℕ) (f rhs : MeshField K) :
    (residual op level f rhs).1 = FiniteVolume.filled (op.levels.get level) f false := rfl

lemma shape_residual :
    (residual op level sol rhs).2.shape = ⟨sol.layout, sol.owners, sol.ncomp, 0⟩ := rfl

/-- The norm of the residual of a level for a solution. -/
def residualNorm (op : FiniteVolume K) (level : ℕ) (sol rhs : MeshField K) : K :=
  (residual op level sol rhs).2.normAll

lemma residualNorm_congr (h : f.Agrees g) :
    residualNorm op level f rhs = residualNorm op level g rhs := by
  rw [residualNorm, residualNorm, residual_congr h]

/-- A right-hand side less an image, at a valid point. -/
private lemma get_innerResidual {b ax : MeshField K} {i : ℕ} {p : Point} {n : ℕ}
    (hi : i < ax.layout.count) (hp : p ∈ ax.layout.box i) (hn : n < ax.ncomp) :
    (Inner.residual b ax).get i p n = b.get i p n + -(1.0) * ax.get i p n := by
  have hzero : (ax.zeros ax.ncomp 0).Stores i p n := MeshField.stores_of_mem hi hp hn
  have hcopied : ((ax.zeros ax.ncomp 0).copy b 0 0 ax.ncomp 0).get i p n = b.get i p n :=
    MeshField.get_copy_of_mem ⟨hzero, hp⟩ hn
  rw [← hcopied]
  exact MeshField.get_axpy_of_mem hi hp hn hn

/-- The residual at a valid point is the right-hand side less the image. -/
theorem get_residual {i : ℕ} {p : Point} {n : ℕ} (hi : i < sol.layout.count)
    (hp : p ∈ sol.layout.box i) (hn : n < sol.ncomp) :
    (residual op level sol rhs).2.get i p n
      = rhs.get i p n + -(1.0) * op.image (op.levels.get level) i
          (fun q => (residual op level sol rhs).1.get i q n) p := by
  have himage : (op.applyFilled (op.levels.get level) (residual op level sol rhs).1
        (sol.zeros sol.ncomp 0)).get i p n
      = op.image (op.levels.get level) i (fun q => (residual op level sol rhs).1.get i q n) p :=
    FiniteVolume.get_applyFilled hi hp (lt_min hn hn)
  rw [← himage]
  exact get_innerResidual hi hp hn

/-! ### Shapes -/

section Shapes

variable {sols rhss : Levels (MeshField K)}

omit [Scalar K] in
/-- Replacing the field of a level by one of its shape keeps the shapes of all levels. -/
private lemma shape_get_set (h : f.shape = (sols.get level).shape) (j : ℕ) :
    ((sols.set level f).get j).shape = (sols.get j).shape := by
  rw [Levels.get_set]
  split_ifs with hj
  · rw [h, hj.1]
  · rfl

/-- However the cycles of a level end, the solution keeps its shape. -/
lemma shape_cycles {fuel cycle : ℕ} {r : MeshField K} :
    (s.cycles op level rhs inverse target fuel cycle sol r).value.solution.shape = sol.shape := by
  induction fuel generalizing cycle sol r with
  | zero => rfl
  | succ fuel ih =>
      rw [cycles]
      by_cases hfin : isFinite r.normAll = true
      · simp only [hfin, Bool.not_true, Bool.false_eq_true, if_false]
        by_cases hle : r.normAll ≤ target
        · rw [if_pos hle]
        · rw [if_neg hle]
          cases hinner : (s.correction op level sol inverse r target).value with
          | error e => rfl
          | ok e => exact ih.trans (residual_fst_agrees ..).shape
      · simp [hfin, Noted.quiet]

lemma shape_runLevels {levels : List ℕ} {count : ℕ} {start : K} (j : ℕ) :
    ((s.runLevels op rhss target levels sols count start).value.1.get j).shape
      = (sols.get j).shape := by
  induction levels generalizing sols count start with
  | nil => rfl
  | cons l levels ih =>
      have hstep : (s.runLevel op l (sols.get l) (rhss.get l) target).value.solution.shape
          = (sols.get l).shape :=
        shape_cycles.trans (residual_fst_agrees op l (sols.get l) (rhss.get l)).shape
      rw [runLevels]
      cases hrun : (s.runLevel op l (sols.get l) (rhss.get l) target).value.result with
      | error e => simpa only [hrun] using shape_get_set hstep j
      | ok nr => simpa only [hrun, Noted.after] using ih.trans (shape_get_set hstep j)

lemma count_runLevels {levels : List ℕ} {count : ℕ} {start : K} :
    (s.runLevels op rhss target levels sols count start).value.1.count = sols.count := by
  induction levels generalizing sols count start with
  | nil => rfl
  | cons l levels ih =>
      rw [runLevels]
      cases hrun : (s.runLevel op l (sols.get l) (rhss.get l) target).value.result with
      | error e => simpa only [hrun] using Levels.count_set ..
      | ok nr => simpa only [hrun, Noted.after] using ih.trans (Levels.count_set ..)

lemma shape_startResidual {levels : List ℕ} (j : ℕ) :
    ((startResidual op levels sols rhss).1.get j).shape = (sols.get j).shape := by
  rw [startResidual]
  generalize (0.0 : K) = start
  induction levels generalizing sols start with
  | nil => rfl
  | cons l levels ih =>
      rw [List.foldl_cons]
      exact (ih _).trans
        (shape_get_set (residual_fst_agrees op l (sols.get l) (rhss.get l)).shape j)

lemma shape_finalFill {levels : List ℕ} (j : ℕ) :
    ((finalFill op levels sols).get j).shape = (sols.get j).shape := by
  rw [finalFill]
  induction levels generalizing sols with
  | nil => rfl
  | cons l levels ih =>
      rw [List.foldl_cons]
      exact ih.trans (shape_get_set (FiniteVolume.filled_agrees _).shape j)

/-- However a solve ends, every level of the solution keeps its shape. -/
theorem shape_run {rtol atol : K} (j : ℕ) :
    ((s.run op sols rhss rtol atol).value.solution.get j).shape = (sols.get j).shape := by
  have hcount : DiffusionOperator.levelCount op = op.levels.count := rfl
  rw [run, hcount]
  by_cases hfew : sols.count < op.levels.count ∨ rhss.count < op.levels.count
  · rw [if_pos hfew]
    rfl
  · simp only [if_neg hfew]
    have hlevels : ∀ target, ((s.runLevels op rhss target (List.range op.levels.count)
        (startResidual op (List.range op.levels.count) sols rhss).1 0 0.0).value.1.get j).shape
          = (sols.get j).shape :=
      fun target => (shape_runLevels j).trans (shape_startResidual j)
    cases hbody : (s.runLevels op rhss
        (maxNum (rtol * (startResidual op (List.range op.levels.count) sols rhss).2) atol)
        (List.range op.levels.count) (startResidual op (List.range op.levels.count) sols rhss).1 0
        0.0).value with
    | mk after result =>
        have hafter : (after.get j).shape = (sols.get j).shape := by
          rw [← hlevels, hbody]
        cases result with
        | error e => simpa only [hbody] using hafter
        | ok kx =>
            simp only
            split_ifs
            · exact (shape_finalFill j).trans hafter
            · exact hafter

end Shapes

/-! ### The cycles of one level -/

section Ordered

variable [LawfulOrder K]

/-- What the cycles of a level establish when they start from `sol` and end well with `after`, the
residual norm `x` and `m` cycles. -/
structure Settled (op : FiniteVolume K) (level : ℕ) (target : K) (fuel : ℕ)
    (sol after rhs : MeshField K) (m : ℕ) (x : K) : Prop where
  norm_eq : residualNorm op level after rhs = x
  norm_le : x ≤ target
  norm_finite : 1 ≤ fuel → isFinite x = true
  start_number : isNaN (residualNorm op level sol rhs) = false
  cycles_le : m ≤ fuel

/-- A bound on the norm of a residual bounds every entry. -/
lemma abs_le_of_residualNorm_le {t : K} (h : residualNorm op level sol rhs ≤ t) {i n : ℕ}
    {p : Point} (hi : i < sol.layout.count) (hp : p ∈ sol.layout.box i) (hn : n < sol.ncomp) :
    Scalar.abs ((residual op level sol rhs).2.get i p n) ≤ t := by
  have hshape : (residual op level sol rhs).2.shape = _ := shape_residual
  have hlayout : (residual op level sol rhs).2.layout = sol.layout :=
    congrArg MeshField.Shape.layout hshape
  have hncomp : (residual op level sol rhs).2.ncomp = sol.ncomp :=
    congrArg MeshField.Shape.ncomp hshape
  obtain ⟨-, hall⟩ := MeshField.normAll_le_iff.1 h
  rw [hlayout, hncomp] at hall
  exact hall n hn i hi p hp

/-- The norm of a residual is zero or above it, or not a number. -/
lemma residualNorm_zeroOrAbove (h : isNaN (residualNorm op level sol rhs) = false) :
    ZeroOrAbove (residualNorm op level sol rhs) :=
  MeshField.normAll_zeroOrAbove h

/-- The cycles of a level that end well stop at a residual of the solution that they return. -/
theorem cycles_settled {fuel cycle : ℕ} {k : ℕ} {x : K} {r : MeshField K}
    (hr : r.normAll = residualNorm op level sol rhs)
    (h : (s.cycles op level rhs inverse target fuel cycle sol r).value.result = .ok (k, x)) :
    ∃ m, k = cycle + m ∧ Settled op level target fuel sol
      (s.cycles op level rhs inverse target fuel cycle sol r).value.solution rhs m x := by
  induction fuel generalizing cycle sol r with
  | zero =>
      simp only [cycles, Noted.quiet] at h ⊢
      by_cases hle : r.normAll ≤ target
      · rw [if_pos hle] at h
        obtain ⟨rfl, rfl⟩ : cycle = k ∧ r.normAll = x := by simpa using h
        exact ⟨0, rfl, hr.symm, hle, by omega, hr ▸ (number_of_le hle).1, le_rfl⟩
      · rw [if_neg hle] at h
        cases h
  | succ fuel ih =>
      rw [cycles] at h ⊢
      by_cases hfin : isFinite r.normAll = true
      · have hnum : isNaN (residualNorm op level sol rhs) = false := hr ▸ number_of_isFinite hfin
        simp only [hfin, Bool.not_true, Bool.false_eq_true, if_false] at h ⊢
        by_cases hle : r.normAll ≤ target
        · rw [if_pos hle] at h ⊢
          obtain ⟨rfl, rfl⟩ : cycle = k ∧ r.normAll = x := by simpa using h
          exact ⟨0, rfl, hr.symm, hle, fun _ => hfin, hnum, Nat.zero_le _⟩
        · rw [if_neg hle] at h ⊢
          cases hinner : (s.correction op level sol inverse r target).value with
          | error e => simp [hinner] at h
          | ok e =>
              simp only [hinner, Noted.after] at h ⊢
              have hnext : (residual op level (sol.axpy 1.0 e 0) rhs).2.normAll
                  = residualNorm op level (residual op level (sol.axpy 1.0 e 0) rhs).1 rhs :=
                (residualNorm_congr (residual_fst_agrees ..)).symm
              obtain ⟨m, hm, hs⟩ := ih hnext h
              refine ⟨m + 1, by omega, hs.norm_eq, hs.norm_le, fun _ => ?_, hnum,
                Nat.succ_le_succ hs.cycles_le⟩
              -- the last norm lies between zero and the finite norm that was above the target
              have habove : target ≤ r.normAll :=
                le_of_not_le (number_of_isFinite hfin) (number_of_le hs.norm_le).2 hle
              have hzero : (0.0 : K) ≤ x := by
                have hx := (number_of_le hs.norm_le).1
                rw [← hs.norm_eq] at hx ⊢
                exact (residualNorm_zeroOrAbove hx).zero_le
              exact isFinite_of_between isFinite_zero hfin hzero
                (LawfulOrder.le_trans hs.norm_le habove)
      · simp [hfin, Noted.quiet] at h

/-! ### The levels -/

variable {sols rhss : Levels (MeshField K)}

/-- A level that is solved first fills its ghosts, which settles nothing and changes nothing. -/
lemma runLevel_settled {k : ℕ} {x : K}
    (h : (s.runLevel op level sol rhs target).value.result = .ok (k, x)) :
    Settled op level target s.settings.maxCycles sol
      (s.runLevel op level sol rhs target).value.solution rhs k x := by
  have hfill : residualNorm op level (residual op level sol rhs).1 rhs
      = residualNorm op level sol rhs := residualNorm_congr (residual_fst_agrees ..)
  obtain ⟨m, hm, hs⟩ := cycles_settled hfill.symm h
  obtain rfl : k = m := by omega
  exact ⟨hs.norm_eq, hs.norm_le, hs.norm_finite, hfill ▸ hs.start_number, hs.cycles_le⟩

/-- What the levels of a list establish when they are solved one after another, from `before` to
`after`: each is settled, and the others are as they were. -/
structure Passed (op : FiniteVolume K) (target : K) (maxCycles : ℕ) (levels : List ℕ)
    (before after rhs : Levels (MeshField K)) (start : K) (m : ℕ) (x : K) : Prop where
  count : after.count = before.count
  outside : ∀ l ∉ levels, after.get? l = before.get? l
  settled : ∀ l ∈ levels, ∃ m x,
    Settled op l target maxCycles (before.get l) (after.get l) (rhs.get l) m x
  cycles_le : m ≤ levels.length * maxCycles
  norm_eq : x = (levels.map fun l => residualNorm op l (after.get l) (rhs.get l)).foldl maxNum start

theorem runLevels_passed {levels : List ℕ} (hnodup : levels.Nodup)
    (hlt : ∀ l ∈ levels, l < sols.count) {after : Levels (MeshField K)} {count k : ℕ} {start x : K}
    (h : (s.runLevels op rhss target levels sols count start).value = (after, .ok (k, x))) :
    ∃ m, k = count + m ∧
      Passed op target s.settings.maxCycles levels sols after rhss start m x := by
  induction levels generalizing sols count start with
  | nil =>
      simp only [runLevels, Noted.quiet, Prod.mk.injEq, Except.ok.injEq] at h
      obtain ⟨rfl, rfl, rfl⟩ := h
      exact ⟨0, rfl, rfl, fun _ _ => rfl, by simp, by simp, rfl⟩
  | cons l levels ih =>
      obtain ⟨hl, hnodup⟩ := List.nodup_cons.1 hnodup
      have hlt' := List.forall_mem_cons.1 hlt
      rw [runLevels] at h
      cases hrun : (s.runLevel op l (sols.get l) (rhss.get l) target).value.result with
      | error e => simp [hrun] at h
      | ok nr =>
          obtain ⟨n, r⟩ := nr
          have hsettled := runLevel_settled hrun
          simp only [hrun, Noted.after] at h
          obtain ⟨m, hm, hp⟩ := ih hnodup (fun j hj => by simpa using hlt'.2 j hj) h
          -- what the first level reached is not touched by the others, and the other way round
          have hget : after.get l
              = (s.runLevel op l (sols.get l) (rhss.get l) target).value.solution := by
            rw [Levels.get_eq_getD, hp.outside l hl, ← Levels.get_eq_getD,
              Levels.get_set_self hlt'.1]
          have hbefore : ∀ j ∈ levels, (sols.set l (s.runLevel op l (sols.get l) (rhss.get l)
              target).value.solution).get j = sols.get j := by
            intro j hj
            have hne : j ≠ l := by
              rintro rfl
              exact hl hj
            exact Levels.get_set_of_ne hne _
          refine ⟨n + m, by omega, ?_, fun j hj => ?_, fun j hj => ?_, ?_, ?_⟩
          · exact hp.count.trans (Levels.count_set ..)
          · obtain ⟨hne, hj⟩ := List.ne_and_not_mem_of_not_mem_cons hj
            exact (hp.outside j hj).trans (Levels.get?_set_of_ne hne _)
          · rcases List.mem_cons.1 hj with rfl | hj
            · exact ⟨n, r, hget ▸ hsettled⟩
            · exact hbefore j hj ▸ hp.settled j hj
          · have h₁ := hsettled.cycles_le
            have h₂ := hp.cycles_le
            rw [List.length_cons, Nat.succ_mul]
            omega
          · rw [hp.norm_eq, List.map_cons, List.foldl_cons, hget, hsettled.norm_eq]

/-! ### The whole solve -/

omit [LawfulOrder K] in
/-- The start of a solve fills the levels one after another and finds the largest of the norms that
they come with. -/
private lemma startResidual_eq {levels : List ℕ} (hnodup : levels.Nodup) (start : K) :
    levels.foldl
        (fun (sol, r0) level =>
          let (filled, r) := residual op level (sol.get level) (rhss.get level)
          (sol.set level filled, maxNum r0 r.normAll))
        (sols, start)
      = (levels.foldl (fun sol l => sol.set l (residual op l (sol.get l) (rhss.get l)).1) sols,
        (levels.map fun l => residualNorm op l (sols.get l) (rhss.get l)).foldl maxNum start) := by
  induction levels generalizing sols start with
  | nil => rfl
  | cons l levels ih =>
      obtain ⟨hl, hnodup⟩ := List.nodup_cons.1 hnodup
      simp only [List.foldl_cons, List.map_cons]
      rw [ih hnodup]
      refine Prod.ext rfl ?_
      have hmap : (levels.map fun j => residualNorm op j
            ((sols.set l (residual op l (sols.get l) (rhss.get l)).1).get j) (rhss.get j))
          = levels.map fun j => residualNorm op j (sols.get j) (rhss.get j) := by
        refine List.map_congr_left fun j hj => ?_
        have hne : j ≠ l := by
          rintro rfl
          exact hl hj
        rw [Levels.get_set_of_ne hne]
      simp only [hmap]
      rfl

omit [LawfulOrder K] in
/-- The start of a solve keeps valid points and finds the largest of the norms of the solution that
it is given. -/
lemma startResidual_agrees (op : FiniteVolume K) (rhss : Levels (MeshField K)) {levels : List ℕ}
    (hnodup : levels.Nodup) (hlt : ∀ l ∈ levels, l < sols.count) :
    (startResidual op levels sols rhss).1.count = sols.count ∧
    (∀ l, l ∉ levels → (startResidual op levels sols rhss).1.get? l = sols.get? l) ∧
    (∀ l ∈ levels, ((startResidual op levels sols rhss).1.get l).Agrees (sols.get l)) ∧
    (startResidual op levels sols rhss).2
      = (levels.map fun l => residualNorm op l (sols.get l) (rhss.get l)).foldl maxNum 0.0 := by
  obtain ⟨hcount, hout, hin⟩ := Levels.foldl_set
    (fun l phi => (residual op l phi (rhss.get l)).1) hnodup sols
  have hstart : startResidual op levels sols rhss = _ := startResidual_eq hnodup 0.0
  rw [hstart]
  refine ⟨hcount, hout, fun l hl => ?_, rfl⟩
  simp only [hin l hl (hlt l hl)]
  exact residual_fst_agrees ..

omit [LawfulOrder K] in
/-- The last filling fills the levels of a list and keeps all others. -/
lemma get_finalFill (op : FiniteVolume K) {levels : List ℕ} (hnodup : levels.Nodup)
    (hlt : ∀ l ∈ levels, l < sols.count) :
    (∀ l ∈ levels, (finalFill op levels sols).get l
      = FiniteVolume.filled (op.levels.get l) (sols.get l) false) ∧
    ∀ l, l ∉ levels → (finalFill op levels sols).get? l = sols.get? l := by
  obtain ⟨-, hout, hin⟩ := Levels.foldl_set
    (fun l phi => FiniteVolume.filled (op.levels.get l) phi false) hnodup sols
  exact ⟨fun l hl => hin l hl (hlt l hl), hout⟩

omit [LawfulOrder K] in
/-- A solve that converged has run all levels well. -/
lemma run_ok {rtol atol : K} {report : SolveSummary K}
    (h : (s.run op sols rhss rtol atol).value.result = .ok report) :
    op.levels.count ≤ sols.count ∧
    ∃ after k x,
      (s.runLevels op rhss (maxNum (rtol * report.startResidual) atol)
        (List.range op.levels.count) (startResidual op (List.range op.levels.count) sols rhss).1 0
        0.0).value = (after, .ok (k, x)) ∧
      report = ⟨k, (startResidual op (List.range op.levels.count) sols rhss).2, x,
        op.levels.count⟩ ∧
      (s.run op sols rhss rtol atol).value.solution =
        if s.settings.finalFill then finalFill op (List.range op.levels.count) after
        else after := by
  have hcount : DiffusionOperator.levelCount op = op.levels.count := rfl
  rw [run, hcount] at h ⊢
  by_cases hfew : sols.count < op.levels.count ∨ rhss.count < op.levels.count
  · simp [hfew, Noted.quiet] at h
  · simp only [if_neg hfew] at h ⊢
    refine ⟨by omega, ?_⟩
    cases hbody : (s.runLevels op rhss
        (maxNum (rtol * (startResidual op (List.range op.levels.count) sols rhss).2) atol)
        (List.range op.levels.count) (startResidual op (List.range op.levels.count) sols rhss).1 0
        0.0).value with
    | mk after result =>
        cases result with
        | error e => simp [hbody] at h
        | ok kx =>
            obtain ⟨k, x⟩ := kx
            simp only [hbody, Except.ok.injEq] at h ⊢
            subst h
            exact ⟨after, k, x, hbody, rfl, rfl⟩

omit [LawfulOrder K] in
/-- Where the settings ask for it, a solve that converged hands back a filled solution. -/
lemma filled_of_run_ok {rtol atol : K} {report : SolveSummary K}
    (hfill : s.settings.finalFill = true)
    (h : (s.run op sols rhss rtol atol).value.result = .ok report) {l : ℕ}
    (hl : l < op.levels.count) :
    ∃ x : MeshField K, x.shape = (sols.get l).shape ∧
      (s.run op sols rhss rtol atol).value.solution.get l
        = FiniteVolume.filled (op.levels.get l) x false := by
  have hshape : ((s.run op sols rhss rtol atol).value.solution.get l).shape
      = (sols.get l).shape := shape_run l
  obtain ⟨hle, after, k, x, hbody, -, hsolution⟩ := run_ok h
  have hcount : after.count = sols.count := by
    have hafter := congrArg (·.1.count) hbody
    obtain ⟨hstart, -⟩ := startResidual_agrees op rhss List.nodup_range
      fun l hl => (List.mem_range.1 hl).trans_le hle
    exact hafter.symm.trans (count_runLevels.trans hstart)
  have hlt : ∀ l ∈ List.range op.levels.count, l < after.count :=
    fun l hl => (List.mem_range.1 hl).trans_le (hle.trans_eq hcount.symm)
  obtain ⟨hin, -⟩ := get_finalFill op List.nodup_range hlt
  have hget := hin l (List.mem_range.2 hl)
  rw [hsolution, if_pos hfill, hget] at hshape ⊢
  exact ⟨after.get l, hshape, rfl⟩

/-- What a solve that converged establishes: the report is about the residuals of the solution
before and after it, every residual is at most the target, and levels beyond those of the operator
are as they were. -/
structure Converged (op : FiniteVolume K) (maxCycles : ℕ) (before after rhs : Levels (MeshField K))
    (rtol atol : K) (report : SolveSummary K) : Prop where
  outside : ∀ l, op.levels.count ≤ l → after.get? l = before.get? l
  levels : report.levels = op.levels.count
  cycles_le : report.cycles ≤ op.levels.count * maxCycles
  isLargest_start : IsLargest (fun l => residualNorm op l (before.get l) (rhs.get l))
    op.levels.count report.startResidual
  isLargest_end : IsLargest (fun l => residualNorm op l (after.get l) (rhs.get l))
    op.levels.count report.endResidual
  norm_le : ∀ l < op.levels.count, residualNorm op l (after.get l) (rhs.get l)
    ≤ maxNum (rtol * report.startResidual) atol
  norm_finite : 1 ≤ maxCycles → ∀ l < op.levels.count,
    isFinite (residualNorm op l (after.get l) (rhs.get l)) = true

theorem run_converged {rtol atol : K} {report : SolveSummary K}
    (h : (s.run op sols rhss rtol atol).value.result = .ok report) :
    Converged op s.settings.maxCycles sols (s.run op sols rhss rtol atol).value.solution rhss rtol
      atol report := by
  obtain ⟨hle, after, k, x, hbody, hreport, hsolution⟩ := run_ok h
  have hnodup : (List.range op.levels.count).Nodup := List.nodup_range
  have hmem : ∀ {l}, l ∈ List.range op.levels.count ↔ l < op.levels.count := List.mem_range
  have hlt : ∀ l ∈ List.range op.levels.count, l < sols.count :=
    fun l hl => (hmem.1 hl).trans_le hle
  obtain ⟨hcount, hout, hin, hstart⟩ := startResidual_agrees op rhss hnodup hlt
  obtain ⟨m, hm, hp⟩ := runLevels_passed hnodup (fun l hl => hcount.symm ▸ hlt l hl) hbody
  -- the last filling keeps the valid points that the levels have settled on
  obtain ⟨hfinal, hfinalout⟩ : (∀ l < op.levels.count,
      ((s.run op sols rhss rtol atol).value.solution.get l).Agrees (after.get l)) ∧
      ∀ l, op.levels.count ≤ l →
        (s.run op sols rhss rtol atol).value.solution.get? l = after.get? l := by
    rw [hsolution]
    split_ifs
    · obtain ⟨hin, hout⟩ := get_finalFill op hnodup
        (fun l hl => (hp.count.trans hcount).symm ▸ hlt l hl)
      refine ⟨fun l hl => ?_, fun l hl => hout l (mt hmem.1 (not_lt.2 hl))⟩
      rw [hin l (hmem.2 hl)]
      exact FiniteVolume.filled_agrees _
    · exact ⟨fun l _ => .refl _, fun _ _ => rfl⟩
  -- so do the first filling and the levels among each other
  have hnorm : ∀ l < op.levels.count,
      residualNorm op l ((s.run op sols rhss rtol atol).value.solution.get l) (rhss.get l)
        = residualNorm op l (after.get l) (rhss.get l) :=
    fun l hl => residualNorm_congr (hfinal l hl)
  have hstartnorm : ∀ l < op.levels.count,
      ZeroOrAbove (residualNorm op l (sols.get l) (rhss.get l)) := by
    intro l hl
    obtain ⟨m, x, hs⟩ := hp.settled l (hmem.2 hl)
    have hfill : residualNorm op l
        ((startResidual op (List.range op.levels.count) sols rhss).1.get l) (rhss.get l)
          = residualNorm op l (sols.get l) (rhss.get l) :=
      residualNorm_congr (hin l (hmem.2 hl))
    exact residualNorm_zeroOrAbove (hfill ▸ hs.start_number)
  have hendnorm : ∀ l < op.levels.count,
      ZeroOrAbove (residualNorm op l (after.get l) (rhss.get l)) := by
    intro l hl
    obtain ⟨m, x, hs⟩ := hp.settled l (hmem.2 hl)
    exact residualNorm_zeroOrAbove (hs.norm_eq ▸ (number_of_le hs.norm_le).1)
  have hrange : (List.range op.levels.count).length = op.levels.count := List.length_range
  refine ⟨fun l hl => ?_, by rw [hreport], ?_, ?_, ?_, fun l hl => ?_, fun hc l hl => ?_⟩
  · have hl' : l ∉ List.range op.levels.count := mt hmem.1 (not_lt.2 hl)
    rw [hfinalout l hl, hp.outside l hl', hout l hl']
  · rw [hreport]
    have := hp.cycles_le
    rw [hrange] at this
    simpa [hm] using this
  · rw [hreport]
    simp only [hstart]
    exact isLargest_foldl hstartnorm
  · have hmap : (List.range op.levels.count).map
          (fun l => residualNorm op l (after.get l) (rhss.get l))
        = (List.range op.levels.count).map fun l => residualNorm op l
          ((s.run op sols rhss rtol atol).value.solution.get l) (rhss.get l) :=
      List.map_congr_left fun l hl => (hnorm l (hmem.1 hl)).symm
    rw [hreport, hp.norm_eq, hmap]
    exact isLargest_foldl fun l hl => (hnorm l hl).symm ▸ hendnorm l hl
  · obtain ⟨m, x, hs⟩ := hp.settled l (hmem.2 hl)
    rw [hnorm l hl, hs.norm_eq]
    exact hs.norm_le
  · obtain ⟨m, x, hs⟩ := hp.settled l (hmem.2 hl)
    rw [hnorm l hl, hs.norm_eq]
    exact hs.norm_finite hc

/-- **A solve that converged has solved.** On every level of the operator, the residual of the
solution that is handed back, computed anew with the boundary values, has only entries that are
numbers and at most the target in absolute value, and finite ones if a cycle was allowed. The
target comes from the largest residual norm of the solution that was handed in; the report holds it,
the largest one at the end, the number of levels, and no more cycles than the levels may use. Levels
beyond those of the operator are left alone. -/
theorem run_ok_residual_le {rtol atol : K} {report : SolveSummary K}
    (h : (s.run op sols rhss rtol atol).value.result = .ok report) :
    let after := (s.run op sols rhss rtol atol).value.solution
    (∀ l, (after.get l).shape = (sols.get l).shape) ∧
    (∀ l < op.levels.count, ∀ n < (after.get l).ncomp, ∀ i < (after.get l).layout.count,
      ∀ p ∈ (after.get l).layout.box i,
        let r := (residual op l (after.get l) (rhss.get l)).2.get i p n
        r = (rhss.get l).get i p n + -(1.0) * op.image (op.levels.get l) i
          (fun q => (FiniteVolume.filled (op.levels.get l) (after.get l) false).get i q n) p ∧
        Scalar.abs r ≤ maxNum (rtol * report.startResidual) atol ∧
        isNaN r = false ∧
        (1 ≤ s.settings.maxCycles → isFinite r = true)) ∧
    IsLargest (fun l => (residual op l (sols.get l) (rhss.get l)).2.normAll) op.levels.count
      report.startResidual ∧
    IsLargest (fun l => (residual op l (after.get l) (rhss.get l)).2.normAll) op.levels.count
      report.endResidual ∧
    report.levels = op.levels.count ∧
    report.cycles ≤ op.levels.count * s.settings.maxCycles ∧
    ∀ l, op.levels.count ≤ l → after.get? l = sols.get? l := by
  intro after
  have hc : Converged op s.settings.maxCycles sols after rhss rtol atol report := run_converged h
  have hshape : ∀ l, (after.get l).shape = (sols.get l).shape := shape_run
  clear_value after
  refine ⟨hshape, fun l hl n hn i hi p hp => ?_, hc.isLargest_start, hc.isLargest_end,
    hc.levels, hc.cycles_le, hc.outside⟩
  have hle := abs_le_of_residualNorm_le (hc.norm_le l hl) hi hp hn
  have hnum : isNaN ((residual op l (after.get l) (rhss.get l)).2.get i p n) = false := by
    rw [← isNaN_abs]
    exact (number_of_le hle).1
  refine ⟨get_residual hi hp hn, hle, hnum, fun hcycles => ?_⟩
  -- an entry lies between zero and the finite norm
  have hfinite := hc.norm_finite hcycles l hl
  have hself := le_self (number_of_isFinite hfinite)
  rw [← isFinite_abs]
  exact isFinite_of_between isFinite_zero hfinite (zero_le_abs hnum)
    (abs_le_of_residualNorm_le hself hi hp hn)

end Ordered

/-- A result that is no failure. -/
lemma exists_of_isOk {ε α : Type} {x : Except ε α} (h : x.isOk = true) : ∃ a, x = .ok a := by
  cases x with
  | error e => simp [Except.isOk, Except.toBool] at h
  | ok a => exact ⟨a, rfl⟩

/-- Two cells of width one. -/
def pair : Box := ⟨⟨0, 0, 0⟩, ⟨1, 0, 0⟩, .cell⟩

/-- The operator `phi - div (grad phi)` on two cells, in doubles, without flux through the
boundary. -/
def pairOperator : FiniteVolume Float :=
  { FiniteVolume.unbound with
    levels := .ofFn 1 fun _ =>
      { geometry := ⟨pair, .const 0.0, ⟨2.0, 1.0, 1.0⟩, .const false⟩
        mass := .const ⟨#[pair]⟩ (.single 1) 1 0 1.0
        viscosity := .ofFn fun a => .const ⟨#[pair.faces a]⟩ (.single 1) 1 0 1.0
        obstacleViscosity := .const ⟨#[pair]⟩ (.single 1) 1 0 1.0
        boundary? := none
        covered? := none }
    boundary := .const .neumann
    alpha := 1.0 }

/-- One on the first of two cells. -/
def pairSource : MeshField Float :=
  .ofFn ⟨#[pair]⟩ (.single 1) 1 0 fun _ p _ => if p.x = 0 then 1.0 else 0.0

/-- On two cells with a source on the first one the solve converges from zero, so the residual of
what it returns is at most a quarter of the first one. -/
theorem run_ok_residual_le_pair :
    let run := ({} : ResidualCorrection).run pairOperator
      (.ofFn 1 fun _ => .const ⟨#[pair]⟩ (.single 1) 1 1 0.0) (.ofFn 1 fun _ => pairSource) 0.25 0.0
    ∃ report, run.value.result = .ok report ∧ report.levels = 1 ∧
      ∀ p ∈ pair, Scalar.abs
        ((residual pairOperator 0 (run.value.solution.get 0) pairSource).2.get 0 p 0)
          ≤ maxNum (0.25 * report.startResidual) 0.0 := by
  intro run
  have hok : run.value.result.isOk = true := by decide +kernel
  obtain ⟨report, h⟩ := exists_of_isOk hok
  obtain ⟨hshape, hres, -, -, hlevels, -⟩ := run_ok_residual_le h
  have hcount : pairOperator.levels.count = 1 := Levels.count_ofFn ..
  have hlevel : 0 < pairOperator.levels.count := by omega
  have hshape₀ : (run.value.solution.get 0).shape = ⟨⟨#[pair]⟩, .single 1, 1, 1⟩ := by
    refine (hshape 0).trans ?_
    rw [Levels.get_ofFn Nat.one_pos]
    rfl
  have hlayout : (run.value.solution.get 0).layout = ⟨#[pair]⟩ :=
    congrArg MeshField.Shape.layout hshape₀
  have hncomp : (run.value.solution.get 0).ncomp = 1 :=
    congrArg MeshField.Shape.ncomp hshape₀
  refine ⟨report, h, hlevels.trans hcount, fun p hp => ?_⟩
  have hn : 0 < (run.value.solution.get 0).ncomp := by rw [hncomp]; exact Nat.one_pos
  have hi : 0 < (run.value.solution.get 0).layout.count := by rw [hlayout]; exact Nat.one_pos
  have hmem : p ∈ (run.value.solution.get 0).layout.box 0 := by rw [hlayout]; exact hp
  obtain ⟨-, hle, -⟩ := hres 0 hlevel 0 hn 0 hi p hmem
  rwa [Levels.get_ofFn Nat.one_pos] at hle

end ResidualCorrection

end MeshDiffusion
