import Mathlib.Tactic
import MeshDiffusion.Proofs.Equation.Balance
import MeshDiffusion.Proofs.Equation.Writing
import MeshDiffusion.Proofs.Solver.Acceptance

/-!
Velocities that already solve the system of a step.

A step loads the old velocity as its first guess. If the guess solves the system exactly, there is
nothing to correct and the velocity comes back as it was. This is so in exact arithmetic for a
uniform velocity, since every kind of face takes a difference of equal values, and for a step of no
length, which leaves the mass term on both sides.

* `MeshField.UniformAround`: each component of a velocity has one value on the cells of a level and
  on the ghosts next to them;
* `ImplicitDiffusion.LevelFormed.filled_uniform`: the first guess of a uniform velocity is uniform,
  with the ghosts that are exchanged and the ones that are prescribed;
* `ImplicitDiffusion.LevelFormed.residual_eq_zero`: the residual of the first guess vanishes;
* `ImplicitDiffusion.solve_steady`: so a step succeeds after no cycle and keeps the velocity.
-/

namespace MeshDiffusion

/-! ### Uniform fields -/

namespace MeshField

variable {K : Type} [Inhabited K] {f : MeshField K} {layout : Layout} {periods : Periods}
  {i n : ℕ} {p : Point} {v : K}

/-- Each component of a velocity has one value on the cells of a layout and on the ghosts next to
them. -/
def UniformAround (f : MeshField K) (layout : Layout) : Prop :=
  ∀ n < velocityComponents, ∃ v, ∀ i < layout.count, ∀ p ∈ (layout.box i).grow 1, f.get i p n = v

/-- The exchange keeps a component that has one value next to the boxes. -/
lemma get_exchange_of_uniform (hst : f.Stores i p n) (hp : p ∈ (f.layout.box i).grow 1)
    (h : ∀ i < f.layout.count, ∀ p ∈ (f.layout.box i).grow 1, f.get i p n = v) :
    (f.exchange periods).get i p n = v := by
  rw [exchange_eq_gather, get_gather hst]
  by_cases hcell : p ∈ f.layout.box i
  · rw [if_pos hcell, h i hst.1 p hp]
  · rw [if_neg hcell, provided]
    cases hlast : Halo.lastProvider f.layout (Halo.pairs f.layout periods) i p with
    | none => exact h i hst.1 p hp
    | some sj =>
        obtain ⟨hpair, -, hmem⟩ := Halo.lastProvider_mem hlast
        exact h _ (Halo.mem_pairs.1 hpair).2 _ (Box.mem_grow_of_mem 1 hmem)

/-- Copying what a field has at its valid points keeps them. -/
lemma copy_agrees {g : MeshField K} {count layers : ℕ}
    (h : ∀ i p n, f.Stores i p n → p ∈ f.layout.box i → n < count → g.get i p n = f.get i p n) :
    (f.copy g 0 0 count layers).Agrees f := by
  refine ⟨rfl, fun i p n hp => ?_⟩
  by_cases hst : f.Stores i p n
  · rw [get_copy hst]
    split_ifs with hw
    · rw [Nat.zero_add, Nat.sub_zero]
      exact h i p n hst hp (hw.2.2.trans_eq (Nat.zero_add count))
    · rfl
  · rw [get_of_not_stores hst]
    exact get_of_not_stores (f := f.copy g 0 0 count layers) hst

/-- Copying what a field has changes nothing. -/
lemma copy_eq_self {g : MeshField K} {count layers : ℕ}
    (h : ∀ i p n, f.Stores i p n → p ∈ (f.layout.box i).grow layers → n < count →
      g.get i p n = f.get i p n) :
    f.copy g 0 0 count layers = f := by
  refine ext_get rfl fun i p n hst => ?_
  have hst' : f.Stores i p n := hst
  rw [get_copy hst']
  split_ifs with hw
  · rw [Nat.zero_add, Nat.sub_zero]
    exact h i p n hst' hw.1 (hw.2.2.trans_eq (Nat.zero_add count))
  · rfl

end MeshField

namespace ImplicitDiffusion

/-! ### The first guess -/

section Guess

variable {K : Type} [Scalar K] {setup : Setup K} {level i n : ℕ} {st : LevelState K}
  {geometry : Geometry K} {vel ro eta : MeshField K} {p : Point} {v : K}

/-- The first guess has the cells of the velocity. -/
lemma LevelFormed.get_guess (h : LevelFormed setup level st)
    (hi : i < (setup.hierarchy.layout level).count) (hp : p ∈ (setup.hierarchy.layout level).box i)
    (hn : n < velocityComponents) :
    ((st.loadCoefficients geometry ro eta).loadSystem geometry vel ro).solution.get i p n
      = vel.get i p n := by
  have hlayout : st.solution.layout = setup.hierarchy.layout level :=
    congrArg MeshField.Shape.layout h.solution
  have hst : st.solution.Stores i p n :=
    (MeshField.stores_of_shape h.solution hi hp hn).1
  have hw : st.solution.Window 1 0 velocityComponents i p n := by
    rw [MeshField.Window, hlayout]
    exact ⟨Box.mem_grow_of_mem 1 hp, Nat.zero_le n, by omega⟩
  calc ((st.loadCoefficients geometry ro eta).loadSystem geometry vel ro).solution.get i p n
      = (st.solution.copy vel 0 0 velocityComponents 1).get i p n :=
        (MeshField.exchange_agrees _ _).valid i p n (by rw [← hlayout] at hp; exact hp)
    _ = vel.get i p n := by rw [MeshField.get_copy hst, if_pos hw, Nat.zero_add, Nat.sub_zero]

/-- The ghosts of the first guess have the one value of a uniform velocity, whether they repeat
cells or are prescribed. -/
lemma LevelFormed.filled_uniform (h : LevelFormed setup level st)
    (hi : i < (setup.hierarchy.layout level).count)
    (hp : p ∈ ((setup.hierarchy.layout level).box i).grow 1) (hn : n < velocityComponents)
    (hvel : ∀ i < (setup.hierarchy.layout level).count,
      ∀ p ∈ ((setup.hierarchy.layout level).box i).grow 1, vel.get i p n = v) :
    let st' := (st.loadCoefficients (setup.hierarchy.geometry level) ro eta).loadSystem
      (setup.hierarchy.geometry level) vel ro
    (FiniteVolume.filled st'.operator st'.solution false).get i p n = v := by
  intro st'
  have hformed : LevelFormed setup level st' := (h.loadCoefficients ..).loadSystem ..
  have hlayout : st'.solution.layout = setup.hierarchy.layout level :=
    congrArg MeshField.Shape.layout hformed.solution
  have hst : st'.solution.Stores i p n :=
    (MeshField.stores_iff_shape hformed.solution).2 ⟨hi, hp, hn⟩
  rw [FiniteVolume.get_filled hst, hlayout, hformed.geometry]
  by_cases hcell : p ∈ (setup.hierarchy.layout level).box i
  · rw [if_pos hcell, h.get_guess hi hcell hn, hvel i hi p hp]
  · rw [if_neg hcell]
    cases hlast : Halo.lastProvider (setup.hierarchy.layout level)
        (Halo.pairs (setup.hierarchy.layout level) (setup.hierarchy.geometry level).periods)
        i p with
    | none => exact ((h.assembled hi).2.2.2 p hp hcell n hn hlast).trans (hvel i hi p hp)
    | some sj =>
        obtain ⟨hpair, -, hmem⟩ := Halo.lastProvider_mem hlast
        have hj := (Halo.mem_pairs.1 hpair).2
        exact (h.get_guess hj hmem hn).trans (hvel _ hj _ (Box.mem_grow_of_mem 1 hmem))

/-- What a step that returns its first guess stores for a level: the guess, with its ghosts filled
and exchanged. -/
def storedGuess (geometry : Geometry K) (vel ro eta : MeshField K) (st : LevelState K) :
    MeshField K :=
  let st' := (st.loadCoefficients geometry ro eta).loadSystem geometry vel ro
  (FiniteVolume.filled st'.operator st'.solution false).exchange geometry.periods

/-- A stored guess has the cells of the velocity, and all of a uniform velocity. -/
lemma LevelFormed.get_storedGuess (h : LevelFormed setup level st)
    (hi : i < (setup.hierarchy.layout level).count) (hn : n < velocityComponents) :
    let stored := storedGuess (setup.hierarchy.geometry level) vel ro eta st
    (∀ p ∈ (setup.hierarchy.layout level).box i, stored.get i p n = vel.get i p n) ∧
    (vel.UniformAround (setup.hierarchy.layout level) →
      ∀ p ∈ ((setup.hierarchy.layout level).box i).grow 1, stored.get i p n = vel.get i p n) := by
  intro stored
  let st' := (st.loadCoefficients (setup.hierarchy.geometry level) ro eta).loadSystem
    (setup.hierarchy.geometry level) vel ro
  have hguess : LevelFormed setup level st' := (h.loadCoefficients ..).loadSystem ..
  obtain ⟨filled, hfilled⟩ : ∃ g, g = FiniteVolume.filled st'.operator st'.solution false :=
    ⟨_, rfl⟩
  have hagrees : filled.Agrees st'.solution := hfilled ▸ FiniteVolume.filled_agrees _
  have hlayout : filled.layout = setup.hierarchy.layout level :=
    congrArg MeshField.Shape.layout (hagrees.shape.trans hguess.solution)
  have hstored : stored = filled.exchange (setup.hierarchy.geometry level).periods :=
    hfilled ▸ rfl
  refine ⟨fun p hp => ?_, fun huniform p hp => ?_⟩
  · have hcell : p ∈ filled.layout.box i := by rwa [hlayout]
    rw [hstored, (MeshField.exchange_agrees filled _).valid i p n hcell,
      hagrees.valid i p n hcell, h.get_guess hi hp hn]
  · obtain ⟨v, hvel⟩ := huniform n hn
    have huniform : ∀ j < filled.layout.count, ∀ q ∈ (filled.layout.box j).grow 1,
        filled.get j q n = v := by
      rw [hlayout, hfilled]
      exact fun j hj q hq => h.filled_uniform hj hq hn hvel
    have hst : filled.Stores i p n :=
      (MeshField.stores_iff_shape (hagrees.shape.trans hguess.solution)).2 ⟨hi, hp, hn⟩
    rw [hvel i hi p hp, hstored]
    exact MeshField.get_exchange_of_uniform hst (by rwa [hlayout]) huniform

end Guess

/-! ### The residual of the first guess -/

section Exact

variable {setup : Setup ℚ} {config : DiffusionOptions ℚ} {boundary : DomainBoundary}
  {eq : Standard ℚ} {level i n : ℕ} {p : Point} {dt : ℚ}

/-- **The first guess solves the system** of a level when the step has no length or the velocity is
uniform. -/
theorem LevelFormed.residual_eq_zero {st : LevelState ℚ} {vel ro eta : MeshField ℚ}
    {op : FiniteVolume ℚ} (h : LevelFormed setup level st) (halpha : op.alpha = 1)
    (hbeta : op.beta = dt)
    (hsteady : dt = 0 ∨ vel.UniformAround (setup.hierarchy.layout level))
    (hi : i < (setup.hierarchy.layout level).count) (hp : p ∈ (setup.hierarchy.layout level).box i)
    (hn : n < velocityComponents) :
    let st' := (st.loadCoefficients (setup.hierarchy.geometry level) ro eta).loadSystem
      (setup.hierarchy.geometry level) vel ro
    op.levels.get level = st'.operator →
      (ResidualCorrection.residual op level st'.solution st'.rhs).2.get i p n = 0 := by
  intro st' hop
  have hformed : LevelFormed setup level st' := (h.loadCoefficients ..).loadSystem ..
  have hlayout : st'.solution.layout = setup.hierarchy.layout level :=
    congrArg MeshField.Shape.layout hformed.solution
  have hncomp : st'.solution.ncomp = velocityComponents :=
    congrArg MeshField.Shape.ncomp hformed.solution
  let u := FiniteVolume.filled st'.operator st'.solution false
  have hu : (ResidualCorrection.residual op level st'.solution st'.rhs).1 = u := by
    rw [ResidualCorrection.residual_fst, hop]
  have hcell : u.get i p n = vel.get i p n :=
    ((FiniteVolume.filled_agrees _).valid i p n (by rw [← hlayout] at hp; exact hp)).trans
      (h.get_guess hi hp hn)
  obtain ⟨hmass, -, hrhs, -⟩ := h.assembled hi
  have hflux : dt * op.inflow st'.operator i (fun q => u.get i q n) p = 0 := by
    rcases hsteady with hdt | huniform
    · rw [hdt, zero_mul]
    · obtain ⟨v, hvel⟩ := huniform n hn
      have hnear : ∀ q ∈ ((setup.hierarchy.layout level).box i).grow 1, u.get i q n = v :=
        fun q hq => h.filled_uniform hi hq hn hvel
      rw [FiniteVolume.inflow_of_flat fun a z hz => ?_, mul_zero]
      rw [hnear _ (Box.move_mem_grow hp hz), hnear p (Box.mem_grow_of_mem 1 hp)]
  have hneg : (-(1.0) : ℚ) = -1 := by rw [Exact.one]
  rw [ResidualCorrection.get_residual (hlayout ▸ hi) (hlayout ▸ hp) (hncomp ▸ hn), hu, hop,
    FiniteVolume.image_eq, halpha, hbeta, hmass p hp, hrhs p hp n hn, hcell, hflux, hneg]
  ring

/-- The norm of a residual without entries is zero. -/
lemma residualNorm_eq_zero {op : FiniteVolume ℚ} {sol rhs : MeshField ℚ}
    (h : ∀ n < sol.ncomp, ∀ i < sol.layout.count, ∀ p ∈ sol.layout.box i,
      (ResidualCorrection.residual op level sol rhs).2.get i p n = 0) :
    ResidualCorrection.residualNorm op level sol rhs = 0 := by
  have hle : ResidualCorrection.residualNorm op level sol rhs ≤ 0 := by
    refine MeshField.normAll_le_iff.2 ⟨Exact.zero.le, fun n hn i hi p hp => ?_⟩
    rw [h n hn i hi p hp]
    exact abs_zero.le
  have hzero : (0.0 : ℚ) ≤ ResidualCorrection.residualNorm op level sol rhs :=
    (ResidualCorrection.residualNorm_zeroOrAbove (Exact.isNaN_eq _)).zero_le
  exact le_antisymm hle (Exact.zero ▸ hzero)

/-! ### The step -/

variable {vel ro eta : Levels (MeshField ℚ)} {report : SolveSummary ℚ}

/-- A step without length or with a uniform velocity assembles a system without residual. -/
lemma residualNorm_assemble (h : Formed setup config boundary eq)
    (hlevel : level < setup.hierarchy.active) (hs : level < setup.hierarchy.topLevel + 1)
    (hsteady : dt = 0 ∨ (vel.get level).UniformAround (setup.hierarchy.layout level)) :
    let a := eq.assemble setup.hierarchy.active vel ro eta dt
    ResidualCorrection.residualNorm a.operator level (a.solution.get level) (a.rhs.get level)
      = 0 := by
  intro a
  obtain ⟨hformed, hstate⟩ := assemble_levelState h setup.hierarchy.active vel ro eta dt
  have hst := hstate level hlevel hlevel hs
  have hsolution : a.solution.get level = _ := congrArg LevelState.solution hst
  have hrhs : a.rhs.get level = _ := congrArg LevelState.rhs hst
  have hshape := (hformed.level level hlevel hs).solution
  have hlayout : (a.solution.get level).layout = setup.hierarchy.layout level :=
    congrArg MeshField.Shape.layout hshape
  have hncomp : (a.solution.get level).ncomp = velocityComponents :=
    congrArg MeshField.Shape.ncomp hshape
  obtain ⟨halpha, hbeta⟩ : a.operator.alpha = 1.0 ∧ a.operator.beta = dt := assemble_scalars
  refine residualNorm_eq_zero fun n hn i hi p hp => ?_
  rw [hlayout] at hi hp
  rw [hncomp] at hn
  rw [hsolution, hrhs]
  exact (h.level level hlevel hs).residual_eq_zero (halpha.trans Exact.one) hbeta hsteady hi hp hn
    (congrArg LevelState.operator hst)

/-- The solver accepts the first guess of such a step on all levels. -/
lemma solveAssembled_steady (h : Formed setup config boundary eq)
    (hmesh : setup.hierarchy.finest ≤ setup.hierarchy.topLevel)
    (hsteady : dt = 0 ∨ ∀ level < setup.hierarchy.active,
      (vel.get level).UniformAround (setup.hierarchy.layout level)) :
    let a := eq.assemble setup.hierarchy.active vel ro eta dt
    let solved := (solveAssembled a setup.hierarchy.active).value
    solved.result = .ok ⟨0, 0, 0, setup.hierarchy.active⟩ ∧
      ∀ level < setup.hierarchy.active, solved.solution.get level
        = FiniteVolume.filled (a.operator.levels.get level) (a.solution.get level) false := by
  intro a solved
  obtain ⟨hformed, -⟩ := assemble_levelState h setup.hierarchy.active vel ro eta dt
  have hactive : setup.hierarchy.active ≤ setup.hierarchy.topLevel + 1 := Nat.succ_le_succ hmesh
  have hcount : a.operator.levels.count = setup.hierarchy.active := hformed.count_operator
  let sols := a.solution.take setup.hierarchy.active
  let rhss := a.rhs.take setup.hierarchy.active
  have hsols : a.operator.levels.count ≤ sols.count := by
    rw [Levels.count_take, hcount, hformed.count_solution]
    exact le_min le_rfl hactive
  have hrhss : a.operator.levels.count ≤ rhss.count := by
    rw [Levels.count_take, hcount, hformed.count_rhs]
    exact le_min le_rfl hactive
  have hnorm : ∀ l < a.operator.levels.count,
      ResidualCorrection.residualNorm a.operator l (sols.get l) (rhss.get l) = 0 := by
    intro l hl
    rw [hcount] at hl
    rw [Levels.get_take hl, Levels.get_take hl]
    exact residualNorm_assemble h hl (hl.trans_le hactive)
      (hsteady.imp_right fun huniform => huniform l hl)
  have hlargest : (0 : ℚ) = ((List.range a.operator.levels.count).map fun l =>
      ResidualCorrection.residualNorm a.operator l (sols.get l) (rhss.get l)).foldl
        Scalar.maxNum 0.0 := by
    obtain ⟨-, hattained⟩ :=
      Scalar.isLargest_foldl fun l hl => .inl ((hnorm l hl).trans Exact.zero.symm)
    rcases hattained with ⟨-, hnone⟩ | ⟨l, hl, heq⟩
    · exact (hnone.trans Exact.zero).symm
    · exact (heq.symm.trans (hnorm l hl)).symm
  have hacceptable : ∀ l < a.operator.levels.count, ResidualCorrection.Acceptable a.operator l
      (sols.get l) (rhss.get l) (Scalar.maxNum (a.config.rtol * 0) a.config.atol) := by
    refine fun l hl => ⟨rfl, ?_⟩
    rw [hnorm l hl, Exact.maxNum_eq, mul_zero]
    exact le_max_left 0 a.config.atol
  obtain ⟨hresult, hsolution⟩ := ResidualCorrection.run_accept (s := ⟨a.config.solveOptions⟩)
    hsols hrhss hlargest hacceptable
  refine ⟨hcount ▸ hresult, fun l hl => ?_⟩
  have hfilled := hsolution l (hcount ▸ hl)
  rwa [Levels.get_take hl] at hfilled

/-- A step whose solve of the assembled system succeeds succeeds with the same report. -/
lemma solve_of_solveAssembled (henough : eq.hierarchy.active ≤ min (min vel.count ro.count) eta.count)
    (hsolved : (solveAssembled (eq.assemble eq.hierarchy.active vel ro eta dt)
      eq.hierarchy.active).value.result = .ok report) :
    (eq.solve vel ro eta dt).value.result = .ok report := by
  rw [solve_value (not_lt.2 henough), finish, hsolved]

/-- The velocity of a level after a step that succeeds: the exchanged solution is copied into it. -/
lemma Succeeds.get_velocity {a : Standard ℚ}
    (hstep : Succeeds setup config boundary eq a vel ro eta dt report)
    (hlevel : level < setup.hierarchy.active) :
    (eq.solve vel ro eta dt).value.velocity.get level
      = (vel.get level).copy
        (((solveAssembled a setup.hierarchy.active).value.solution.get level).exchange
          (setup.hierarchy.geometry level).periods) 0 0 velocityComponents 1 := by
  have hsolution : level < a.solution.count :=
    hstep.formed.count_solution ▸ hstep.lt_levels level hlevel
  obtain ⟨-, -, hin⟩ := foldl_storeLevel setup.hierarchy setup.hierarchy.active
    (overwrite a.solution (solveAssembled a setup.hierarchy.active).value.solution
      setup.hierarchy.active) vel
  obtain ⟨-, hstored⟩ := hin level hlevel (by rwa [count_overwrite])
    (hlevel.trans_le hstep.count_vel)
  rw [hstep.velocity, hstored, get_overwrite hsolution, if_pos hlevel]

/-- **Velocities that solve the system are returned as they are.** In exact arithmetic, a step of no
length, or one from a velocity that is uniform on every level with boxes, whatever the density, the
viscosity, the obstacles and the walls, succeeds after no cycle with residuals of zero, and keeps
every cell. A uniform velocity is kept as a whole, with its ghosts. -/
theorem solve_steady [Trig ℚ] (hreached : Reached setup config eq)
    (hmesh : setup.hierarchy.finest ≤ setup.hierarchy.topLevel)
    (henough : setup.hierarchy.active ≤ min (min vel.count ro.count) eta.count)
    (hlayout : ∀ level < setup.hierarchy.active,
      (vel.get level).layout = setup.hierarchy.layout level)
    (hsteady : dt = 0 ∨ ∀ level < setup.hierarchy.active,
      (vel.get level).UniformAround (setup.hierarchy.layout level)) :
    ∃ report, (eq.solve vel ro eta dt).value.result = .ok report ∧
      report.cycles = 0 ∧ report.startResidual = 0 ∧ report.endResidual = 0 ∧
      (∀ level < setup.hierarchy.active,
        ((eq.solve vel ro eta dt).value.velocity.get level).Agrees (vel.get level)) ∧
      ((∀ level < setup.hierarchy.active,
          (vel.get level).UniformAround (setup.hierarchy.layout level)) →
        (eq.solve vel ro eta dt).value.velocity = vel) := by
  obtain ⟨boundary, -, hformed⟩ := hreached.formed
  obtain ⟨hresult, hsolution⟩ := solveAssembled_steady hformed hmesh hsteady
  have hok := solve_of_solveAssembled (hformed.hierarchy ▸ henough) (hformed.hierarchy ▸ hresult)
  obtain ⟨a, hstep⟩ := succeeds_of_ok hformed hok
  obtain rfl := hstep.assembled
  -- what is copied into the velocity of a level, in terms of what was stored for the level
  have hvelocity : ∀ level < setup.hierarchy.active,
      (eq.solve vel ro eta dt).value.velocity.get level = (vel.get level).copy
        (storedGuess (setup.hierarchy.geometry level) (vel.get level) (ro.get level)
          (eta.get level) (eq.levelState level)) 0 0 velocityComponents 1 := by
    intro level hlevel
    have hst := hstep.levelState level hlevel
    have hoperator : (eq.assemble setup.hierarchy.active vel ro eta dt).operator.levels.get level
        = _ := congrArg LevelState.operator hst
    have hguess : (eq.assemble setup.hierarchy.active vel ro eta dt).solution.get level = _ :=
      congrArg LevelState.solution hst
    rw [hstep.get_velocity hlevel, hsolution level hlevel, hoperator, hguess, storedGuess]
  have hold : ∀ level < setup.hierarchy.active, LevelFormed setup level (eq.levelState level) :=
    fun level hlevel => hformed.level level hlevel (hstep.lt_levels level hlevel)
  refine ⟨_, hok, rfl, rfl, rfl, fun level hlevel => ?_, fun huniform => ?_⟩
  · rw [hvelocity level hlevel]
    refine MeshField.copy_agrees fun i p n hst hp hn => ?_
    have hi : i < (setup.hierarchy.layout level).count := hlayout level hlevel ▸ hst.1
    exact ((hold level hlevel).get_storedGuess hi hn).1 p (hlayout level hlevel ▸ hp)
  · obtain ⟨hcount, hout⟩ := foldl_storeLevel_outside setup.hierarchy setup.hierarchy.active
      (overwrite _ _ setup.hierarchy.active) vel
    rw [← hstep.velocity] at hcount hout
    refine Levels.ext_get hcount fun level _ => ?_
    by_cases hlevel : level < setup.hierarchy.active
    · rw [hvelocity level hlevel]
      refine MeshField.copy_eq_self fun i p n hst hp hn => ?_
      have hi : i < (setup.hierarchy.layout level).count := hlayout level hlevel ▸ hst.1
      exact ((hold level hlevel).get_storedGuess hi hn).2 (huniform level hlevel) p
        (hlayout level hlevel ▸ hp)
    · rw [Levels.get_eq_getD, hout level (not_lt.1 hlevel), ← Levels.get_eq_getD]

end Exact

/-- A duct whose walls move along with the fluid: a velocity of one everywhere. -/
private def ductRigid : Levels (MeshField ℚ) := ductLevels velocityComponents fun _ => 1

private lemma ductRigid_uniform : (ductRigid.get 0).UniformAround ductLevel.layout := by
  refine fun n hn => ⟨1, fun i hi p hp => ?_⟩
  rw [ductRigid, get_ductLevels hi hp hn]

/-- In a duct whose walls move along with the fluid, a step keeps the velocity. Between walls at rest
a velocity that is not uniform stays only in a step of no length. -/
theorem solve_steady_duct :
    letI := trigAtZero
    let eq := ductEquation .noSlipWall .dirichlet
    (∃ report, (eq.solve ductRigid ductOnes ductOnes 1).value.result = .ok report ∧
      report.cycles = 0 ∧ report.endResidual = 0 ∧
      (eq.solve ductRigid ductOnes ductOnes 1).value.velocity = ductRigid) ∧
    ∃ report, (eq.solve ductVelocity ductOnes ductOnes 0).value.result = .ok report ∧
      report.cycles = 0 ∧ report.endResidual = 0 ∧
      ((eq.solve ductVelocity ductOnes ductOnes 0).value.velocity.get 0).Agrees
        (ductVelocity.get 0) := by
  let := trigAtZero
  intro eq
  have hreached : Reached (duct .noSlipWall) .defaults eq := reached_ductEquation rfl
  have hmesh : (duct .noSlipWall).hierarchy.finest ≤ (duct .noSlipWall).hierarchy.topLevel :=
    le_rfl
  have honly : ∀ level < (duct .noSlipWall).hierarchy.active, level = 0 := fun level hlevel =>
    Nat.lt_one_iff.1 hlevel
  have hlayout : ∀ v : Point → ℚ, ∀ level < (duct .noSlipWall).hierarchy.active,
      ((ductLevels velocityComponents v).get level).layout
        = (duct .noSlipWall).hierarchy.layout level := by
    intro v level hlevel
    rw [honly level hlevel]
    exact congrArg MeshField.Shape.layout (shape_ductLevels velocityComponents v)
  have huniform : ∀ level < (duct .noSlipWall).hierarchy.active,
      (ductRigid.get level).UniformAround ((duct .noSlipWall).hierarchy.layout level) := by
    intro level hlevel
    rw [honly level hlevel]
    exact ductRigid_uniform
  have hmoving : (1 : ℚ) = 0 ∨ ∀ level < (duct .noSlipWall).hierarchy.active,
      (ductRigid.get level).UniformAround ((duct .noSlipWall).hierarchy.layout level) :=
    .inr huniform
  have hinstant : (0 : ℚ) = 0 ∨ ∀ level < (duct .noSlipWall).hierarchy.active,
      (ductVelocity.get level).UniformAround ((duct .noSlipWall).hierarchy.layout level) :=
    .inl rfl
  have hrigid : (duct .noSlipWall).hierarchy.active
      ≤ min (min ductRigid.count ductOnes.count) ductOnes.count := by decide +kernel
  have hstill : (duct .noSlipWall).hierarchy.active
      ≤ min (min ductVelocity.count ductOnes.count) ductOnes.count := by decide +kernel
  constructor
  · obtain ⟨report, hok, hcycles, -, hend, -, hkept⟩ :=
      solve_steady hreached hmesh hrigid (hlayout _) hmoving
    exact ⟨report, hok, hcycles, hend, hkept huniform⟩
  · obtain ⟨report, hok, hcycles, -, hend, hcells, -⟩ :=
      solve_steady hreached hmesh hstill (hlayout _) hinstant
    exact ⟨report, hok, hcycles, hend, hcells 0 Nat.one_pos⟩

end ImplicitDiffusion

end MeshDiffusion
