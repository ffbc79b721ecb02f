import Mathlib.Tactic
import MeshDiffusion.Proofs.Equation.Balance
import MeshDiffusion.Proofs.Mesh.Hierarchy

/-!
What a step writes into the velocity.

A step loads the velocity into the solution and into the boundary values, solves, fills the ghosts of
the solution from these boundary values, exchanges them, and copies the solution back with one layer
of ghosts. The ghosts that no image of a box holds go all the way round and come back as they were.

* `ImplicitDiffusion.LevelWritten`: cell by cell and ghost by ghost, what a step that succeeds leaves
  in the velocity of a level;
* `ImplicitDiffusion.store_written`: so much does storing a filled solution write;
* `ImplicitDiffusion.solve_writes`: a step that fails writes nothing, and one that succeeds writes
  exactly this on every level with boxes and nothing on the others.
-/

namespace MeshDiffusion

namespace ImplicitDiffusion

variable {K : Type} [Scalar K]

/-- What a step leaves in the velocity of a level. The cells have the solution, the ghosts next to
the boxes repeat the cells that lie on them, and everything else is as it was. -/
structure LevelWritten (layout : Layout) (periods : Periods) (solution before after : MeshField K) :
    Prop where
  shape : after.shape = before.shape
  cells : ∀ i < layout.count, ∀ p ∈ layout.box i, ∀ n < velocityComponents,
    after.get i p n = solution.get i p n
  repeats : ∀ i < layout.count, ∀ p ∈ (layout.box i).grow 1, p ∉ layout.box i →
    ∀ s ∈ periods.shifts, ∀ j < layout.count, p - s ∈ layout.box j → ∀ n < velocityComponents,
      after.get i p n = after.get j (p - s) n
  exposed : ∀ i < layout.count, ∀ p ∈ (layout.box i).grow 1, layout.Exposed periods p →
    ∀ n < velocityComponents, after.get i p n = before.get i p n
  beyond : ∀ i p n, p ∉ (layout.box i).grow 1 ∨ velocityComponents ≤ n →
    after.get i p n = before.get i p n

/-- Storing a solution whose exposed ghosts have the values of the velocity writes its cells and the
ghosts that repeat them. -/
theorem store_written {domain : Box} {periodic : Triple Bool} {solution before : MeshField K}
    {layout : Layout} (hin : layout.Within domain) (hdisj : layout.Disjoint)
    (hbefore : before.layout = layout) (hncomp : velocityComponents ≤ before.ncomp)
    (hghosts : 1 ≤ before.ghosts) (hsolution : solution.layout = layout)
    (hcomponents : velocityComponents ≤ solution.ncomp) (hlayer : 1 ≤ solution.ghosts)
    (hexposed : ∀ i < layout.count, ∀ p ∈ (layout.box i).grow 1,
      layout.Exposed (.ofDomain domain periodic) p → ∀ n < velocityComponents,
        solution.get i p n = before.get i p n) :
    LevelWritten layout (.ofDomain domain periodic) solution before
      (before.copy (solution.exchange (.ofDomain domain periodic)) 0 0 velocityComponents 1) := by
  subst hsolution
  let periods : Periods := .ofDomain domain periodic
  let after := before.copy (solution.exchange periods) 0 0 velocityComponents 1
  -- next to the boxes, the velocity is the exchanged solution
  have hcopied : ∀ i < solution.layout.count, ∀ p ∈ (solution.layout.box i).grow 1,
      ∀ n < velocityComponents, after.get i p n = (solution.exchange periods).get i p n := by
    intro i hi p hp n hn
    have hst := MeshField.stores_of_next hbefore hghosts hi hp (hn.trans_le hncomp)
    have hw : before.Window 1 0 velocityComponents i p n := by
      rw [MeshField.Window, hbefore]
      exact ⟨hp, Nat.zero_le n, by omega⟩
    rw [MeshField.get_copy hst, if_pos hw, Nat.zero_add, Nat.sub_zero]
  have hstores : ∀ i < solution.layout.count, ∀ p ∈ (solution.layout.box i).grow 1,
      ∀ n < velocityComponents, solution.Stores i p n := fun i hi p hp n hn =>
    MeshField.stores_of_next rfl hlayer hi hp (hn.trans_le hcomponents)
  have hcells : ∀ i < solution.layout.count, ∀ p ∈ solution.layout.box i,
      ∀ n < velocityComponents, after.get i p n = solution.get i p n := by
    intro i hi p hp n hn
    rw [hcopied i hi p (Box.mem_grow_of_mem 1 hp) n hn]
    exact (MeshField.exchange_agrees solution periods).valid i p n hp
  refine ⟨rfl, hcells, fun i hi p hp hghost s hs j hj hmem n hn => ?_,
    fun i hi p hp hfree n hn => ?_, fun i p n hout => ?_⟩
  · have hst := hstores i hi p hp n hn
    exact (hcopied i hi p hp n hn).trans
      ((MeshField.get_exchange_of_image hin hdisj hst hghost hs hj hmem).trans
        (hcells j hj _ hmem n hn).symm)
  · exact (hcopied i hi p hp n hn).trans
      ((MeshField.get_exchange_of_exposed hfree).trans (hexposed i hi p hp hfree n hn))
  · have hw : ¬before.Window 1 0 velocityComponents i p n := by
      rw [MeshField.Window, hbefore]
      rintro ⟨hp, -, hn⟩
      rcases hout with hfar | hhigh
      · exact hfar hp
      · omega
    by_cases hst : before.Stores i p n
    · rw [MeshField.get_copy hst, if_neg hw]
    · rw [MeshField.get_of_not_stores hst]
      exact MeshField.get_of_not_stores (f := after) hst

/-! ### A step -/

variable {setup : Setup K} {config : DiffusionOptions K} {boundary : DomainBoundary}
  {eq : Standard K} {vel ro eta : Levels (MeshField K)} {dt : K} {report : SolveSummary K}
  {level : ℕ}

/-- What the solver hands back for the system of a step. -/
def solverSolution (eq : Standard K) (vel ro eta : Levels (MeshField K)) (dt : K) :
    Levels (MeshField K) :=
  (solveAssembled (eq.assemble eq.hierarchy.active vel ro eta dt)
    eq.hierarchy.active).value.solution

lemma Succeeds.solverSolution_eq {a : Standard K}
    (hstep : Succeeds setup config boundary eq a vel ro eta dt report)
    (h : Formed setup config boundary eq) :
    solverSolution eq vel ro eta dt
      = (solveAssembled a setup.hierarchy.active).value.solution := by
  rw [solverSolution, h.hierarchy, hstep.assembled]

/-- A step that fails leaves the velocity alone. -/
lemma velocity_of_error {e : DiffusionFailure K}
    (h : (eq.solve vel ro eta dt).value.result = .error e) :
    (eq.solve vel ro eta dt).value.velocity = vel := by
  by_cases hfew : min (min vel.count ro.count) eta.count < eq.hierarchy.active
  · rw [solve_few hfew]
    rfl
  · rw [solve_value hfew] at h ⊢
    rw [finish] at h ⊢
    cases hresult : (solveAssembled (eq.assemble eq.hierarchy.active vel ro eta dt)
        eq.hierarchy.active).value.result with
    | error e => rfl
    | ok r =>
        rw [hresult] at h
        cases h

/-- Storing the first levels of a solution keeps the velocity of the others. -/
lemma foldl_storeLevel_outside (hierarchy : Hierarchy K) (n : ℕ)
    (solution vel : Levels (MeshField K)) :
    let stored := ((List.range n).foldl (storeLevel hierarchy) (solution, vel)).2
    stored.count = vel.count ∧ ∀ l, n ≤ l → stored.get? l = vel.get? l := by
  let Kept (s : Levels (MeshField K) × Levels (MeshField K)) : Prop :=
    s.2.count = vel.count ∧ ∀ l, n ≤ l → s.2.get? l = vel.get? l
  have hstart : Kept (solution, vel) := ⟨rfl, fun _ _ => rfl⟩
  refine List.foldlRecOn (motive := Kept) (List.range n) (storeLevel hierarchy) hstart
    fun s hs k hk => ⟨(Levels.count_set ..).trans hs.1, fun l hl => ?_⟩
  have hne : l ≠ k := by
    have := List.mem_range.1 hk
    omega
  exact (Levels.get?_set_of_ne hne _).trans (hs.2 l hl)

/-- The solution of a step that succeeds has the shape of its level, and at the ghosts next to the
boxes that no image of a box holds it has the values of the velocity that the step was given. -/
lemma solverSolution_exposed (h : Formed setup config boundary eq)
    (hok : (eq.solve vel ro eta dt).value.result = .ok report)
    (hlevel : level < setup.hierarchy.active) :
    ((solverSolution eq vel ro eta dt).get level).shape
      = ⟨setup.hierarchy.layout level, setup.hierarchy.owners level, velocityComponents, 1⟩ ∧
    ∀ i < (setup.hierarchy.layout level).count,
      ∀ p ∈ ((setup.hierarchy.layout level).box i).grow 1,
        (setup.hierarchy.layout level).Exposed (setup.hierarchy.geometry level).periods p →
        ∀ n < velocityComponents,
          ((solverSolution eq vel ro eta dt).get level).get i p n = (vel.get level).get i p n := by
  obtain ⟨a, hstep⟩ := succeeds_of_ok h hok
  have hs := hstep.lt_levels level hlevel
  have hold := h.level level hlevel hs
  have hnew := hstep.formed.level level hlevel hs
  have hop : (a.operator.levels.get level) = _ :=
    congrArg LevelState.operator (hstep.levelState level hlevel)
  -- the last thing that the solver does is to fill the ghosts
  obtain ⟨x, hxshape, hfilled⟩ := ResidualCorrection.filled_of_run_ok rfl hstep.solved
    (hstep.formed.count_operator ▸ hlevel)
  rw [Levels.get_take hlevel] at hxshape
  have hshape : x.shape = _ := hxshape.trans hnew.solution
  have hlayout : x.layout = setup.hierarchy.layout level := congrArg MeshField.Shape.layout hshape
  have hget : (solverSolution eq vel ro eta dt).get level
      = FiniteVolume.filled (a.operator.levels.get level) x false := by
    rw [hstep.solverSolution_eq h]
    exact hfilled
  rw [hget]
  refine ⟨hshape, fun i hi p hp hexposed n hn => ?_⟩
  have hghost : p ∉ (setup.hierarchy.layout level).box i := hexposed.not_mem hi
  have hst : x.Stores i p n := (MeshField.stores_iff_shape hshape).2 ⟨hi, hp, hn⟩
  have hgeometry : (a.operator.levels.get level).geometry = setup.hierarchy.geometry level :=
    hnew.geometry
  rw [FiniteVolume.get_filled_of_exposed hst (by rw [hlayout, hgeometry]; exact hexposed)]
  rw [hop]
  exact (hold.assembled hi).2.2.2 p hp hghost n hn ((Halo.lastProvider_eq_none_iff hghost).2 hexposed)

/-- **A step writes exactly what it promises.** One that fails leaves the velocity alone. One that
succeeds writes the cells of every level with boxes and the ghosts next to the boxes that repeat
them, and leaves alone all other ghosts, all further components and all other levels. -/
theorem solve_writes [Trig K] {plan : Hierarchy.Plan K}
    (hbuild : Hierarchy.build plan = .ok setup.hierarchy) (hreached : Reached setup config eq)
    (vel ro eta : Levels (MeshField K)) (dt : K) :
    let step := (eq.solve vel ro eta dt).value
    (∀ e, step.result = .error e → step.velocity = vel) ∧
    ∀ report, step.result = .ok report →
      step.velocity.count = vel.count ∧
      (∀ level, setup.hierarchy.active ≤ level → step.velocity.get? level = vel.get? level) ∧
      ∀ level < setup.hierarchy.active,
        (vel.get level).layout = setup.hierarchy.layout level →
        velocityComponents ≤ (vel.get level).ncomp → 1 ≤ (vel.get level).ghosts →
        LevelWritten (setup.hierarchy.layout level) (setup.hierarchy.geometry level).periods
          ((solverSolution eq vel ro eta dt).get level) (vel.get level)
          (step.velocity.get level) := by
  intro step
  obtain ⟨boundary, -, hformed⟩ := hreached.formed
  refine ⟨fun e he => velocity_of_error he, fun report hok => ?_⟩
  obtain ⟨a, hsucceeds⟩ := succeeds_of_ok hformed hok
  have hstored : step.velocity = _ := hsucceeds.velocity
  rw [← hsucceeds.solverSolution_eq hformed] at hstored
  obtain ⟨hcount, hout⟩ := foldl_storeLevel_outside setup.hierarchy setup.hierarchy.active
    (overwrite a.solution (solverSolution eq vel ro eta dt) setup.hierarchy.active) vel
  rw [hstored]
  refine ⟨hcount, hout, fun level hlevel hlayout hncomp hghosts => ?_⟩
  have hlt : level < a.solution.count :=
    hsucceeds.formed.count_solution ▸ hsucceeds.lt_levels level hlevel
  obtain ⟨-, -, hin⟩ := foldl_storeLevel setup.hierarchy setup.hierarchy.active
    (overwrite a.solution (solverSolution eq vel ro eta dt) setup.hierarchy.active) vel
  obtain ⟨-, hwritten⟩ := hin level hlevel (by rwa [count_overwrite])
    (hlevel.trans_le hsucceeds.count_vel)
  rw [hwritten, get_overwrite hlt, if_pos hlevel]
  -- the boxes of a level are disjoint pieces of its domain, since the mesh was built from a plan
  have hsound := Hierarchy.build_sound hbuild
  have hfinest : level ≤ setup.hierarchy.finest := Nat.le_of_lt_succ hlevel
  obtain ⟨hshape, hexposed⟩ := solverSolution_exposed hformed hok hlevel
  exact store_written (hsound.within level hfinest) (hsound.tiles level hfinest).disjoint hlayout
    hncomp hghosts (congrArg MeshField.Shape.layout hshape)
    (congrArg MeshField.Shape.ncomp hshape).ge (congrArg MeshField.Shape.ghosts hshape).ge hexposed

/-- In a duct between walls at rest, the ghost behind the wall keeps the value that it was given, the
ghost before the second cell repeats the first one, and the ghost above the first cell repeats it
round the period. A step without a density fails and writes nothing. -/
theorem solve_writes_duct :
    letI := trigAtZero
    let eq := ductEquation .noSlipWall .dirichlet
    let after := (eq.solve ductVelocity ductOnes ductOnes 1).value.velocity
    let missing : Levels (MeshField ℚ) := .ofList []
    (eq.solve ductVelocity ductOnes ductOnes 1).value.result.isOk = true ∧
    (after.get 0).get 0 ⟨-1, 0, 0⟩ 0 = (ductVelocity.get 0).get 0 ⟨-1, 0, 0⟩ 0 ∧
    (after.get 0).get 1 ⟨0, 0, 0⟩ 0 = (after.get 0).get 0 ⟨0, 0, 0⟩ 0 ∧
    (after.get 0).get 0 ⟨0, 1, 0⟩ 0 = (after.get 0).get 0 ⟨0, 0, 0⟩ 0 ∧
    (eq.solve ductVelocity missing ductOnes 1).value.result.isOk = false ∧
    (eq.solve ductVelocity missing ductOnes 1).value.velocity = ductVelocity := by
  let := trigAtZero
  intro eq after missing
  obtain ⟨report, hresult⟩ := ResidualCorrection.exists_of_isOk isOk_solve_duct
  have hshape := shape_ductLevels velocityComponents fun p => if p.x = 0 then 1 else 0
  have hbuild : Hierarchy.build ductPlan = .ok (duct .noSlipWall).hierarchy := rfl
  have hreached : Reached (duct .noSlipWall) .defaults eq := reached_ductEquation rfl
  obtain ⟨-, hsuccess⟩ := solve_writes hbuild hreached ductVelocity ductOnes ductOnes 1
  obtain ⟨-, -, hlevels⟩ := hsuccess report hresult
  have hwritten : LevelWritten ductLevel.layout ductLevel.geometry.periods _ _ (after.get 0) :=
    hlevels 0 Nat.one_pos (congrArg MeshField.Shape.layout hshape)
      (congrArg MeshField.Shape.ncomp hshape).ge (congrArg MeshField.Shape.ghosts hshape).ge
  obtain ⟨hfailure, -⟩ := solve_writes hbuild hreached ductVelocity missing ductOnes 1
  have hfew : min (min ductVelocity.count missing.count) ductOnes.count < eq.hierarchy.active := by
    decide +kernel
  have hfailed : (eq.solve ductVelocity missing ductOnes 1).value.result
      = .error (.solve (.fewerLevels eq.hierarchy.active
        (min (min ductVelocity.count missing.count) ductOnes.count))) := by
    rw [solve_few hfew]
    rfl
  refine ⟨isOk_solve_duct, ?_, ?_, ?_, ?_, hfailure _ hfailed⟩
  · exact hwritten.exposed 0 (by decide) _ (by decide) (by decide) 0 (by decide)
  · exact hwritten.repeats 1 (by decide) _ (by decide) (by decide) ⟨0, 0, 0⟩ (by decide) 0
      (by decide) (by decide) 0 (by decide)
  · exact hwritten.repeats 0 (by decide) _ (by decide) (by decide) ⟨0, 1, 0⟩ (by decide) 0
      (by decide) (by decide) 0 (by decide)
  · rw [solve_few hfew]
    rfl

end ImplicitDiffusion

end MeshDiffusion
