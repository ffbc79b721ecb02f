import Mathlib.Tactic
import MeshDiffusion.Proofs.Equation.Extrema
import MeshDiffusion.Proofs.Equation.History
import MeshDiffusion.Proofs.Operator.Partition

/-!
Steps do not depend on the options, up to the tolerance.

Two equations on the same surroundings assemble the same system for a step, whatever their options
and whatever they were asked for before. Both start from the same residual, and if both solve the
system, then the difference of the two velocities solves it for a velocity of zero, up to both
targets. By the maximum principle it is then small.

* `FiniteVolume.Alike.inflow`: two operators that agree around a cell have the same flux into it;
* `ImplicitDiffusion.LevelSolved.alike`: the operators of two steps agree around all cells of a
  level, and `ImplicitDiffusion.LevelSolved.sub_le` bounds the difference of the velocities;
* `ImplicitDiffusion.Reached.sameExposed`: what a step reads of an equation before it has written it
  is as it was allocated, so that the assembled levels are the same
  (`ImplicitDiffusion.Succeeds.levelState_eq`) and have the same residuals
  (`ImplicitDiffusion.Succeeds.startResidual_eq`);
* `ImplicitDiffusion.solve_agree`: so the two velocities differ by no more than both targets over
  the least density.
-/

namespace MeshDiffusion

/-! ### Operators that agree around a cell -/

namespace FiniteVolume

namespace Alike

variable {o o' : FiniteVolume ℚ} {l l' : LevelOperator ℚ} {i j : ℕ} {p : Point}

/-- The flux into a cell is a function of what is around it. -/
theorem inflow (h : Alike o o' l l' i j p) (phi : Point → ℚ) :
    o.inflow l i phi p = o'.inflow l' j phi p := by
  refine Finset.sum_congr rfl fun f _ => ?_
  rw [flux, flux, h.body, h.viscosity, h.rule, h.widthSquared]

end Alike

end FiniteVolume

namespace ResidualCorrection

variable {K : Type} [Scalar K] {s : ResidualCorrection} {op op' : FiniteVolume K} {level : ℕ}
  {sol rhs : MeshField K} {sols rhss : Levels (MeshField K)} {rtol atol : K}
  {report : SolveSummary K}

/-- The residual of a level depends on the operator of the level, the scalars and the boundary
only. -/
lemma residualNorm_congr_operator (halpha : op.alpha = op'.alpha) (hbeta : op.beta = op'.beta)
    (hboundary : op.boundary = op'.boundary) (horder : op.wallOrder = op'.wallOrder)
    (hlevel : op.levels.get level = op'.levels.get level) :
    residualNorm op level sol rhs = residualNorm op' level sol rhs := by
  have himage : ∀ i phi p, op.image (op'.levels.get level) i phi p
      = op'.image (op'.levels.get level) i phi p := fun i phi p =>
    FiniteVolume.Alike.image
      ⟨halpha, hbeta, hboundary, horder, rfl, rfl, fun _ => rfl, rfl, fun _ => rfl⟩ rfl
      fun _ _ _ => rfl
  have happly : DiffusionOperator.apply op level sol (sol.zeros sol.ncomp 0) false
      = DiffusionOperator.apply op' level sol (sol.zeros sol.ncomp 0) false := by
    simp only [DiffusionOperator.apply, FiniteVolume.applyFilled, hlevel, himage]
  rw [residualNorm, residualNorm, residual, residual, happly]

/-- A solve that converged reports the largest of the residuals that it was given. -/
lemma startResidual_of_run_ok (h : (s.run op sols rhss rtol atol).value.result = .ok report) :
    report.startResidual = ((List.range op.levels.count).map fun l =>
      residualNorm op l (sols.get l) (rhss.get l)).foldl Scalar.maxNum 0.0 := by
  obtain ⟨hle, _, _, _, -, hreport, -⟩ := run_ok h
  obtain ⟨-, -, -, hstart⟩ := startResidual_agrees op rhss List.nodup_range
    fun l hl => (List.mem_range.1 hl).trans_le hle
  rw [hreport, hstart]

end ResidualCorrection

namespace ImplicitDiffusion

/-! ### Two solutions of a level -/

namespace LevelSolved

variable {setup : Setup ℚ} {boundary : DomainBoundary} {level n : ℕ} {c : ℕ × Point}
  {dt target₁ target₂ least : ℚ} {vel ro eta after₁ after₂ u₁ u₂ : MeshField ℚ}
  {o₁ o₂ : FiniteVolume ℚ} {l₁ l₂ : LevelOperator ℚ}

/-- The operators of two steps from the same fields agree around every cell. -/
lemma alike (h₁ : LevelSolved setup boundary level dt target₁ vel ro eta after₁ o₁ l₁ u₁)
    (h₂ : LevelSolved setup boundary level dt target₂ vel ro eta after₂ o₂ l₂ u₂)
    (hc : c ∈ (setup.hierarchy.layout level).cells) :
    FiniteVolume.Alike o₁ o₂ l₁ l₂ c.1 c.1 c.2 := by
  obtain ⟨hi, hp⟩ := Layout.mem_cells.1 hc
  have hbody : ∀ q, l₁.inBody c.1 q = l₂.inBody c.1 q := fun q => by
    rw [LevelOperator.inBody, LevelOperator.inBody, h₁.covered, h₂.covered]
  exact
    { alpha := h₁.alpha.trans h₂.alpha.symm
      beta := h₁.beta.trans h₂.beta.symm
      boundary := h₁.boundary.trans h₂.boundary.symm
      wallOrder := h₁.order.trans h₂.order.symm
      geometry := h₁.geometry.trans h₂.geometry.symm
      mass := (h₁.mass c.1 hi c.2 hp).trans (h₂.mass c.1 hi c.2 hp).symm
      viscosity := fun f =>
        (h₁.viscosity c.1 hi c.2 hp f).trans (h₂.viscosity c.1 hi c.2 hp f).symm
      body := hbody c.2
      bodyNext := fun f => hbody _ }

/-- The difference of two new velocities next to a cell is the difference at a cell, or zero where
both were given. -/
lemma sub_near (h₁ : LevelSolved setup boundary level dt target₁ vel ro eta after₁ o₁ l₁ u₁)
    (h₂ : LevelSolved setup boundary level dt target₂ vel ro eta after₂ o₂ l₂ u₂)
    (hc : c ∈ (setup.hierarchy.layout level).cells) (hn : n < velocityComponents) (a : Axis)
    {z : ℤ} (hz : z = 1 ∨ z = -1) :
    (∃ d ∈ (setup.hierarchy.layout level).cells,
      u₁.get c.1 (c.2.move a z) n - u₂.get c.1 (c.2.move a z) n
        = u₁.get d.1 d.2 n - u₂.get d.1 d.2 n) ∨
    u₁.get c.1 (c.2.move a z) n - u₂.get c.1 (c.2.move a z) n ≤ 0 := by
  rcases source_cases hc a hz with ⟨d, hd, hvalue⟩ | ⟨-, hvalue⟩
  · obtain ⟨hj, hq⟩ := Layout.mem_cells.1 hd
    refine .inl ⟨d, hd, ?_⟩
    rw [hvalue h₁ n hn, hvalue h₂ n hn, h₁.valid d.1 hj d.2 hq n hn, h₂.valid d.1 hj d.2 hq n hn]
  · right
    rw [hvalue h₁ n hn, hvalue h₂ n hn, sub_self]

/-- The difference of two new velocities balances a velocity of zero, up to both targets. -/
lemma sub_balance (h₁ : LevelSolved setup boundary level dt target₁ vel ro eta after₁ o₁ l₁ u₁)
    (h₂ : LevelSolved setup boundary level dt target₂ vel ro eta after₂ o₂ l₂ u₂)
    (hc : c ∈ (setup.hierarchy.layout level).cells) (hn : n < velocityComponents) :
    |ro.get c.1 c.2 0 * (0 - (u₁.get c.1 c.2 n - u₂.get c.1 c.2 n))
      + dt * o₁.inflow l₁ c.1 (fun q => u₁.get c.1 q n - u₂.get c.1 q n) c.2|
        ≤ target₁ + target₂ := by
  obtain ⟨hi, hp⟩ := Layout.mem_cells.1 hc
  let flux₁ := o₁.inflow l₁ c.1 (fun q => u₁.get c.1 q n) c.2
  let flux₂ := o₂.inflow l₂ c.1 (fun q => u₂.get c.1 q n) c.2
  have hinflow : o₁.inflow l₁ c.1 (fun q => u₁.get c.1 q n - u₂.get c.1 q n) c.2
      = flux₁ - flux₂ := by
    rw [FiniteVolume.inflow_sub, (h₁.alike h₂ hc).inflow fun q => u₂.get c.1 q n]
  have hvalid₁ := h₁.valid c.1 hi c.2 hp n hn
  have hvalid₂ := h₂.valid c.1 hi c.2 hp n hn
  calc |ro.get c.1 c.2 0 * (0 - (u₁.get c.1 c.2 n - u₂.get c.1 c.2 n))
        + dt * o₁.inflow l₁ c.1 (fun q => u₁.get c.1 q n - u₂.get c.1 q n) c.2|
      = |(ro.get c.1 c.2 0 * (vel.get c.1 c.2 n - after₁.get c.1 c.2 n) + dt * flux₁)
          - (ro.get c.1 c.2 0 * (vel.get c.1 c.2 n - after₂.get c.1 c.2 n) + dt * flux₂)| := by
        rw [hinflow, hvalid₁, hvalid₂]
        ring_nf
    _ ≤ |ro.get c.1 c.2 0 * (vel.get c.1 c.2 n - after₁.get c.1 c.2 n) + dt * flux₁|
          + |ro.get c.1 c.2 0 * (vel.get c.1 c.2 n - after₂.get c.1 c.2 n) + dt * flux₂| :=
        abs_sub _ _
    _ ≤ target₁ + target₂ := add_le_add (h₁.balance hc hn) (h₂.balance hc hn)

/-- One new velocity exceeds another one by no more than both targets over the least density. -/
lemma sub_le (h₁ : LevelSolved setup boundary level dt target₁ vel ro eta after₁ o₁ l₁ u₁)
    (h₂ : LevelSolved setup boundary level dt target₂ vel ro eta after₂ o₂ l₂ u₂)
    (hdt : 0 ≤ dt) (hn : n < velocityComponents) (hleast : 0 < least)
    (hro : ∀ c ∈ (setup.hierarchy.layout level).cells, least ≤ ro.get c.1 c.2 0)
    (hvisc : ∀ c ∈ (setup.hierarchy.layout level).cells, ∀ f, 0 ≤ l₁.faceViscosity c.1 c.2 f)
    (hc : c ∈ (setup.hierarchy.layout level).cells) :
    after₁.get c.1 c.2 n - after₂.get c.1 c.2 n ≤ (target₁ + target₂) / least := by
  obtain ⟨hi, hp⟩ := Layout.mem_cells.1 hc
  have hdifference : u₁.get c.1 c.2 n - u₂.get c.1 c.2 n ≤ 0 + (target₁ + target₂) / least :=
    FiniteVolume.le_add_div (o := o₁) (fun i p => ro.get i p 0) (fun _ _ => 0)
      (fun i p => u₁.get i p n - u₂.get i p n) 0 hdt hleast hro hvisc (fun _ _ => le_rfl)
      (fun d hd a z hz => h₁.sub_near h₂ hd hn a hz) (fun d hd => h₁.sub_balance h₂ hd hn) c hc
  rwa [zero_add, h₁.valid c.1 hi c.2 hp n hn, h₂.valid c.1 hi c.2 hp n hn] at hdifference

end LevelSolved

/-! ### The same system -/

section Start

variable {K : Type} [Scalar K] {setup : Setup K} {config config₁ config₂ : DiffusionOptions K}
  {boundary boundary₁ boundary₂ : DomainBoundary} {eq eq₁ eq₂ a₁ a₂ : Standard K}
  {vel ro eta : Levels (MeshField K)} {dt : K} {report₁ report₂ : SolveSummary K} {level : ℕ}

/-- The check of the surroundings finds the same boundary, whatever the options. -/
lemma check_unique (h₁ : check setup config₁ = .ok boundary₁)
    (h₂ : check setup config₂ = .ok boundary₂) : boundary₁ = boundary₂ :=
  Except.ok.inj ((resolve_of_check h₁).symm.trans (resolve_of_check h₂))

/-- In every equation that can be reached, what no step writes is as it was allocated. -/
theorem Reached.sameExposed [Trig K] (h : Reached setup config eq)
    (hmesh : setup.hierarchy.finest ≤ setup.hierarchy.topLevel)
    (hlevel : level < setup.hierarchy.active) :
    SameExposed setup level (eq.levelState level) (initialState setup level) := by
  induction h with
  | made hmade =>
      obtain ⟨boundary, -, rfl⟩ := eq_allocate_of_make hmade
      rw [levelState_allocate config boundary hlevel (hlevel.trans_le (Nat.succ_le_succ hmesh))]
      exact fun _ _ _ _ _ => rfl
  | stepped vel ro eta dt hreached ih =>
      obtain ⟨boundary, -, hformed⟩ := hreached.formed
      exact ((carried_solve hformed hmesh).exposed level hlevel).trans ih

/-- A mesh on which a step has succeeded has the levels that it has boxes for. -/
lemma Succeeds.finest_le {a : Standard K}
    (h : Succeeds setup config boundary eq a vel ro eta dt report₁) :
    setup.hierarchy.finest ≤ setup.hierarchy.topLevel :=
  Nat.lt_succ_iff.1 (h.lt_levels setup.hierarchy.finest (Nat.lt_succ_self _))

/-- What is assembled has the scalars of the step. -/
lemma Succeeds.scalars (h : Succeeds setup config boundary eq a₁ vel ro eta dt report₁) :
    a₁.operator.alpha = 1.0 ∧ a₁.operator.beta = dt := by
  rw [h.assembled]
  exact assemble_scalars

/-- What a step reports for its start is the largest residual of the first guesses. -/
lemma Succeeds.startResidual (h : Succeeds setup config boundary eq a₁ vel ro eta dt report₁) :
    report₁.startResidual = ((List.range setup.hierarchy.active).map fun l =>
      ResidualCorrection.residualNorm a₁.operator l (a₁.solution.get l) (a₁.rhs.get l)).foldl
        Scalar.maxNum 0.0 := by
  have hstart := ResidualCorrection.startResidual_of_run_ok h.solved
  rw [h.formed.count_operator] at hstart
  rw [hstart]
  refine congrArg (List.foldl Scalar.maxNum 0.0) (List.map_congr_left fun l hl => ?_)
  rw [Levels.get_take (List.mem_range.1 hl), Levels.get_take (List.mem_range.1 hl)]

variable [Trig K]

/-- Two equations on the same surroundings assemble the same levels. -/
lemma Succeeds.levelState_eq (hreached₁ : Reached setup config₁ eq₁)
    (hreached₂ : Reached setup config₂ eq₂)
    (h₁ : Succeeds setup config₁ boundary eq₁ a₁ vel ro eta dt report₁)
    (h₂ : Succeeds setup config₂ boundary eq₂ a₂ vel ro eta dt report₂)
    (hlevel : level < setup.hierarchy.active) : a₁.levelState level = a₂.levelState level := by
  have hs := h₁.lt_levels level hlevel
  have hmesh := h₁.finest_le
  obtain ⟨_, -, hformed₁⟩ := hreached₁.formed
  obtain ⟨_, -, hformed₂⟩ := hreached₂.formed
  have hexposed : SameExposed setup level (eq₁.levelState level) (eq₂.levelState level) :=
    (hreached₁.sameExposed hmesh hlevel).trans (hreached₂.sameExposed hmesh hlevel).symm
  rw [h₁.levelState level hlevel, h₂.levelState level hlevel]
  exact (hformed₁.level level hlevel hs).load_eq (hformed₂.level level hlevel hs) hexposed ..

/-- The first guesses of two equations on the same surroundings have the same residuals. -/
lemma Succeeds.residualNorm_eq (hreached₁ : Reached setup config₁ eq₁)
    (hreached₂ : Reached setup config₂ eq₂)
    (h₁ : Succeeds setup config₁ boundary eq₁ a₁ vel ro eta dt report₁)
    (h₂ : Succeeds setup config₂ boundary eq₂ a₂ vel ro eta dt report₂)
    (hlevel : level < setup.hierarchy.active) :
    ResidualCorrection.residualNorm a₁.operator level (a₁.solution.get level) (a₁.rhs.get level)
      = ResidualCorrection.residualNorm a₂.operator level (a₂.solution.get level)
        (a₂.rhs.get level) := by
  have hst := Succeeds.levelState_eq hreached₁ hreached₂ h₁ h₂ hlevel
  have hsolution : a₁.solution.get level = a₂.solution.get level := congrArg LevelState.solution hst
  have hrhs : a₁.rhs.get level = a₂.rhs.get level := congrArg LevelState.rhs hst
  rw [hsolution, hrhs]
  exact ResidualCorrection.residualNorm_congr_operator (h₁.scalars.1.trans h₂.scalars.1.symm)
    (h₁.scalars.2.trans h₂.scalars.2.symm) (h₁.formed.boundary.trans h₂.formed.boundary.symm)
    (h₁.formed.order.trans h₂.formed.order.symm) (congrArg LevelState.operator hst)

/-- **Two equations on the same surroundings start from the same residual.** -/
theorem Succeeds.startResidual_eq (hreached₁ : Reached setup config₁ eq₁)
    (hreached₂ : Reached setup config₂ eq₂)
    (h₁ : Succeeds setup config₁ boundary eq₁ a₁ vel ro eta dt report₁)
    (h₂ : Succeeds setup config₂ boundary eq₂ a₂ vel ro eta dt report₂) :
    report₁.startResidual = report₂.startResidual := by
  rw [h₁.startResidual, h₂.startResidual]
  refine congrArg (List.foldl Scalar.maxNum 0.0) (List.map_congr_left fun l hl => ?_)
  exact Succeeds.residualNorm_eq hreached₁ hreached₂ h₁ h₂ (List.mem_range.1 hl)

end Start

/-! ### The step -/

variable {setup : Setup ℚ} {config₁ config₂ : DiffusionOptions ℚ} {eq₁ eq₂ : Standard ℚ}
  {level : ℕ} {dt : ℚ}

/-- **The options do not matter beyond the tolerance.** Two equations on the same surroundings, with
any options and any histories, start a step from the same residual. If both succeed, their new
velocities differ on every level by no more than both targets over the least density. -/
theorem solve_agree [Trig ℚ] {vel ro eta : Levels (MeshField ℚ)} {report₁ report₂ : SolveSummary ℚ}
    {least : ℚ} (hreached₁ : Reached setup config₁ eq₁) (hreached₂ : Reached setup config₂ eq₂)
    (hok₁ : (eq₁.solve vel ro eta dt).value.result = .ok report₁)
    (hok₂ : (eq₂.solve vel ro eta dt).value.result = .ok report₂) (hdt : 0 ≤ dt)
    (hlevel : level < setup.hierarchy.active)
    (hlayout : (vel.get level).layout = setup.hierarchy.layout level)
    (hncomp : velocityComponents ≤ (vel.get level).ncomp) (hleast : 0 < least)
    (hro : ∀ i < (setup.hierarchy.layout level).count,
      ∀ p ∈ (setup.hierarchy.layout level).box i, least ≤ (ro.get level).get i p 0)
    (heta : ∀ i < (setup.hierarchy.layout level).count,
      ∀ p ∈ ((setup.hierarchy.layout level).box i).grow 1, 0 ≤ (eta.get level).get i p 0) :
    report₁.startResidual = report₂.startResidual ∧
    ∀ i < (setup.hierarchy.layout level).count, ∀ p ∈ (setup.hierarchy.layout level).box i,
      ∀ n < velocityComponents,
        let target₁ := max (config₁.rtol * report₁.startResidual) config₁.atol
        let target₂ := max (config₂.rtol * report₁.startResidual) config₂.atol
        |((eq₁.solve vel ro eta dt).value.velocity.get level).get i p n
            - ((eq₂.solve vel ro eta dt).value.velocity.get level).get i p n|
          ≤ (target₁ + target₂) / least := by
  obtain ⟨boundary, hcheck₁, hformed₁⟩ := hreached₁.formed
  obtain ⟨boundary', hcheck₂, hformed₂⟩ := hreached₂.formed
  obtain rfl : boundary = boundary' := check_unique hcheck₁ hcheck₂
  obtain ⟨a₁, hstep₁⟩ := succeeds_of_ok hformed₁ hok₁
  obtain ⟨a₂, hstep₂⟩ := succeeds_of_ok hformed₂ hok₂
  have hstart : report₁.startResidual = report₂.startResidual :=
    Succeeds.startResidual_eq hreached₁ hreached₂ hstep₁ hstep₂
  obtain ⟨o₁, l₁, u₁, h₁⟩ := solve_levelSolved hformed₁ hok₁ hlevel hlayout hncomp
  obtain ⟨o₂, l₂, u₂, h₂⟩ := solve_levelSolved hformed₂ hok₂ hlevel hlayout hncomp
  rw [Exact.maxNum_eq] at h₁ h₂
  rw [← hstart] at h₂
  generalize (eq₁.solve vel ro eta dt).value.velocity.get level = after₁ at h₁ ⊢
  generalize (eq₂.solve vel ro eta dt).value.velocity.get level = after₂ at h₂ ⊢
  have hmass : ∀ c ∈ (setup.hierarchy.layout level).cells,
      least ≤ (ro.get level).get c.1 c.2 0 := by
    intro c hc
    obtain ⟨hi, hp⟩ := Layout.mem_cells.1 hc
    exact hro c.1 hi c.2 hp
  refine ⟨hstart, fun i hi p hp n hn => ?_⟩
  have hc : (i, p) ∈ (setup.hierarchy.layout level).cells := Layout.mem_cells.2 ⟨hi, hp⟩
  have hover := h₁.sub_le h₂ hdt hn hleast hmass (fun _ hd => h₁.viscosity_nonneg hd heta) hc
  have hunder := h₂.sub_le h₁ hdt hn hleast hmass (fun _ hd => h₂.viscosity_nonneg hd heta) hc
  rw [abs_le]
  constructor
  · rw [add_comm] at hunder
    linarith
  · exact hover

/-- Options with another inner solver and a tolerance of a tenth. -/
private def loose : DiffusionOptions ℚ :=
  { DiffusionOptions.defaults with innerMethod := .smoother, rtol := 0.1 }

/-- The equation on a duct between walls at rest, with loose options. -/
private def looseEquation : Standard ℚ :=
  letI := trigAtZero
  allocate (duct .noSlipWall) loose (ductBoundary .dirichlet) FiniteVolume.unbound {}

private lemma reached_looseEquation :
    letI := trigAtZero
    Reached (duct .noSlipWall) loose looseEquation := by
  let := trigAtZero
  have hvalid : loose.validate = .ok () :=
    validate_of_nonneg (by decide +kernel) (by decide +kernel) (by decide) (by decide)
  exact .made (make_duct_of_valid hvalid rfl)

private lemma isOk_solve_loose :
    letI := trigAtZero
    (looseEquation.solve ductVelocity ductOnes ductOnes 1).value.result.isOk = true := by
  decide +kernel

/-- In a duct between walls at rest, a step with loose options ends near the step with the options
that are not given. -/
theorem solve_agree_duct :
    ∃ report₁ report₂,
      ((ductEquation .noSlipWall .dirichlet).solve ductVelocity ductOnes ductOnes 1).value.result
        = .ok report₁ ∧
      (looseEquation.solve ductVelocity ductOnes ductOnes 1).value.result = .ok report₂ ∧
      report₁.startResidual = report₂.startResidual ∧
      ∀ i < 2, ∀ p ∈ ductLevel.layout.box i, ∀ n < velocityComponents,
        let target₁ := max (1e-11 * report₁.startResidual) 1e-14
        let target₂ := max (0.1 * report₁.startResidual) 1e-14
        |(((ductEquation .noSlipWall .dirichlet).solve ductVelocity ductOnes ductOnes
            1).value.velocity.get 0).get i p n
          - ((looseEquation.solve ductVelocity ductOnes ductOnes 1).value.velocity.get 0).get i p n|
            ≤ (target₁ + target₂) / 1 := by
  let := trigAtZero
  obtain ⟨report₁, hresult₁⟩ := ResidualCorrection.exists_of_isOk isOk_solve_duct
  obtain ⟨report₂, hresult₂⟩ := ResidualCorrection.exists_of_isOk isOk_solve_loose
  have hshape := shape_ductLevels velocityComponents fun p => if p.x = 0 then 1 else 0
  refine ⟨report₁, report₂, hresult₁, hresult₂, ?_⟩
  refine solve_agree (reached_ductEquation rfl) reached_looseEquation hresult₁ hresult₂ zero_le_one
    Nat.one_pos (congrArg MeshField.Shape.layout hshape) (congrArg MeshField.Shape.ncomp hshape).ge
    one_pos (fun i hi p hp => ?_) (fun i hi p hp => ?_)
  · rw [ductOnes, get_ductLevels hi (Box.mem_grow_of_mem 1 hp) Nat.one_pos]
  · rw [ductOnes, get_ductLevels hi hp Nat.one_pos]
    exact zero_le_one

end ImplicitDiffusion

end MeshDiffusion
