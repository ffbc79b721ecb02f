import Mathlib.Tactic
import MeshDiffusion.Proofs.Equation.Balance
import MeshDiffusion.Proofs.Mesh.Hierarchy
import MeshDiffusion.Proofs.Operator.Body
import MeshDiffusion.Proofs.Setup.Tags

/-!
Diffusion conserves momentum.

* `ImplicitDiffusion.Closed`: nothing can leave a level. Its boxes tile the domain, every axis wraps
  around or is closed at both ends, and the obstacle and the viscosity repeat where cells do;
* `ImplicitDiffusion.LevelSolved.flux_across`: on such a level a flux leaves one cell as it enters
  another one, although the two cells may be stored in different boxes, or at opposite ends of the
  domain, each with its own copy of the viscosity, of the neighbour and of what is covered;
* `ImplicitDiffusion.solve_momentum`: so the momentum of the level changes by no more than the
  target of the solve for each cell.
-/

namespace MeshDiffusion

namespace ImplicitDiffusion

/-- Nothing can leave a level. -/
structure Closed (setup : Setup ℚ) (boundary : DomainBoundary) (level : ℕ) (eta : MeshField ℚ) :
    Prop where
  tiles : (setup.hierarchy.layout level).Tiles (setup.hierarchy.geometry level).domain
  neumann : ∀ f, (setup.hierarchy.geometry level).periodic.get f.axis = false →
    boundary.get f = .neumann
  classifies : ∀ o ∈ setup.obstacles.get? level, o.Classifies
  repeats : ∀ o ∈ setup.obstacles.get? level,
    ∀ s ∈ (setup.hierarchy.geometry level).periods.shifts, ∀ p, o.kind (p + s) = o.kind p
  viscosity : (setup.hierarchy.layout level).Duplicates (setup.hierarchy.geometry level).periods
    fun i q => eta.get i q 0

/-- The momentum of a level in one component. -/
def totalMomentum (layout : Layout) (ro vel : MeshField ℚ) (n : ℕ) : ℚ :=
  ∑ c ∈ layout.cells.toFinset, ro.get c.1 c.2 0 * vel.get c.1 c.2 n

variable {setup : Setup ℚ} {config : DiffusionOptions ℚ} {boundary : DomainBoundary}
  {eq : Standard ℚ} {level n : ℕ} {dt target : ℚ}

namespace LevelSolved

variable {vel ro eta after u : MeshField ℚ} {o : FiniteVolume ℚ} {l : LevelOperator ℚ}
  {c d : ℕ × Point} {f : Face}

/-- The ghosts that the solution is judged with repeat its cells. -/
lemma duplicates (h : LevelSolved setup boundary level dt target vel ro eta after o l u)
    (htiles : (setup.hierarchy.layout level).Tiles (setup.hierarchy.geometry level).domain)
    (hn : n < velocityComponents) :
    (setup.hierarchy.layout level).Duplicates (setup.hierarchy.geometry level).periods
      fun i q => u.get i q n := by
  intro i hi q hgrow hghost s hs j hj hmem
  have hvalue := h.ghost i hi q hgrow hghost n hn
  have hlast : Halo.lastProvider (setup.hierarchy.layout level)
      (Halo.pairs (setup.hierarchy.layout level) (setup.hierarchy.geometry level).periods) i q
        = some (s, j) :=
    Halo.lastProvider_eq_some htiles.within htiles.disjoint hghost hs hj hmem
  rw [hlast] at hvalue
  exact hvalue.trans (h.valid j hj _ hmem n hn).symm

/-- A cell is covered for its neighbour exactly when it is covered. -/
lemma inBody_adjacent (h : LevelSolved setup boundary level dt target vel ro eta after o l u)
    (hclosed : Closed setup boundary level eta)
    (hc : c ∈ (setup.hierarchy.layout level).cells)
    (hd : d ∈ (setup.hierarchy.layout level).cells)
    (hadjacent : Point.Adjacent (setup.hierarchy.geometry level).periods c.2 d.2 f) :
    l.inBody c.1 (c.2.move f.axis f.side.step) = l.inBody d.1 d.2 := by
  obtain ⟨hi, hp⟩ := Layout.mem_cells.1 hc
  obtain ⟨hj, hq⟩ := Layout.mem_cells.1 hd
  have hnext := Box.move_mem_grow (a := f.axis) hp f.side.step_eq
  obtain ⟨s, hs, hmove⟩ := hadjacent
  have hback : c.2.move f.axis f.side.step = d.2 + s := by
    rw [← hmove]
    exact Triple.ext_get fun a => by simp
  rw [Bool.eq_iff_iff, LevelOperator.inBody_iff h.covered hclosed.classifies hi hnext,
    LevelOperator.inBody_iff h.covered hclosed.classifies hj (Box.mem_grow_of_mem 1 hq)]
  refine exists_congr fun o => and_congr_right fun ho => ?_
  rw [hback, hclosed.repeats o ho s hs]

/-- **A flux leaves one cell as it enters another one.** -/
theorem flux_across (h : LevelSolved setup boundary level dt target vel ro eta after o l u)
    (hclosed : Closed setup boundary level eta)
    (hc : c ∈ (setup.hierarchy.layout level).cells) (hn : n < velocityComponents)
    (hd : d = (setup.hierarchy.layout level).across (setup.hierarchy.geometry level).domain c f) :
    o.flux l c.1 (fun q => u.get c.1 q n) c.2 f
      + o.flux l d.1 (fun q => u.get d.1 q n) d.2 f.opposite = 0 := by
  have hcell : d ∈ (setup.hierarchy.layout level).cells := hd ▸ hclosed.tiles.across_mem hc
  have hin := hclosed.tiles.within _ (Layout.mem_cells.1 hc).1 _ (Layout.mem_cells.1 hc).2
  have hpoint : d.2 = (setup.hierarchy.geometry level).domain.across c.2 f := by rw [hd]; rfl
  have hedge : d.2.get f.opposite.axis = l.geometry.domain.edge f.opposite ↔
      c.2.get f.axis = l.geometry.domain.edge f := by
    rw [hpoint, h.geometry, Face.axis_opposite]
    exact Box.across_edge hin
  by_cases hinner : c.2.get f.axis ≠ l.geometry.domain.edge f ∨
      l.geometry.periodic.get f.axis = true
  · have hinner' : d.2.get f.opposite.axis ≠ l.geometry.domain.edge f.opposite ∨
        l.geometry.periodic.get f.opposite.axis = true := by
      rw [ne_eq, hedge, Face.axis_opposite]
      exact hinner
    have hadjacent : Point.Adjacent (setup.hierarchy.geometry level).periods c.2 d.2 f := by
      rw [hpoint]
      rw [h.geometry] at hinner
      exact Box.adjacent_across hin hinner
    -- Both cells see the same two values, viscosities and flags.
    have hvalue := (h.duplicates hclosed.tiles hn).adjacent hclosed.tiles hc hcell hadjacent
    have hvalue' := (h.duplicates hclosed.tiles hn).adjacent hclosed.tiles hcell hc hadjacent.symm
    have hvisc := hclosed.viscosity.adjacent hclosed.tiles hc hcell hadjacent
    have hvisc' := hclosed.viscosity.adjacent hclosed.tiles hcell hc hadjacent.symm
    have hbody := h.inBody_adjacent hclosed hc hcell hadjacent
    have hbody' := h.inBody_adjacent hclosed hcell hc hadjacent.symm
    rw [FiniteVolume.flux_inner hinner, FiniteVolume.flux_inner hinner', hbody, hbody',
      h.viscosity_eq hc, h.viscosity_eq hcell, hvalue, hvalue', hvisc, hvisc', Face.axis_opposite]
    by_cases hcovered : l.inBody c.1 c.2 = true ∨ l.inBody d.1 d.2 = true
    · rw [if_pos hcovered, if_pos hcovered.symm, add_zero]
    · rw [if_neg hcovered, if_neg (mt Or.symm hcovered)]
      ring
  · -- Here the domain ends on both sides, and both faces are closed.
    obtain ⟨hend, hwraps⟩ := not_or.1 hinner
    rw [not_not] at hend
    rw [Bool.not_eq_true] at hwraps
    have hkind : ∀ g : Face, g.axis = f.axis → o.boundary.get g = .neumann := by
      intro g hg
      rw [h.boundary]
      exact hclosed.neumann g (by rw [hg, ← h.geometry]; exact hwraps)
    rw [FiniteVolume.flux_closed (FiniteVolume.rule_end hend hwraps (hkind f rfl)),
      FiniteVolume.flux_closed (FiniteVolume.rule_end (hedge.2 hend)
        (by rw [Face.axis_opposite]; exact hwraps) (hkind _ Face.axis_opposite)), add_zero]

/-- **The momentum of a closed level changes by no more than the target for each cell.** -/
theorem momentum_le (h : LevelSolved setup boundary level dt target vel ro eta after o l u)
    (hclosed : Closed setup boundary level eta) (hn : n < velocityComponents) :
    |totalMomentum (setup.hierarchy.layout level) ro after n
        - totalMomentum (setup.hierarchy.layout level) ro vel n|
      ≤ (setup.hierarchy.layout level).size * target := by
  let cells := (setup.hierarchy.layout level).cells.toFinset
  let inflow (c : ℕ × Point) : ℚ := o.inflow l c.1 (fun q => u.get c.1 q n) c.2
  have hinflow : ∑ c ∈ cells, inflow c = 0 :=
    hclosed.tiles.sum_faces (fun c f => o.flux l c.1 (fun q => u.get c.1 q n) c.2 f)
      fun c hc f => h.flux_across hclosed hc hn rfl
  have hcard : cells.card = (setup.hierarchy.layout level).size := by
    rw [List.toFinset_card_of_nodup (Layout.nodup_cells _), Layout.length_cells]
  calc |totalMomentum (setup.hierarchy.layout level) ro after n
        - totalMomentum (setup.hierarchy.layout level) ro vel n|
      = |∑ c ∈ cells, (ro.get c.1 c.2 0 * (vel.get c.1 c.2 n - after.get c.1 c.2 n)
          + dt * inflow c)| := by
        rw [Finset.sum_add_distrib, ← Finset.mul_sum, hinflow, mul_zero, add_zero, abs_sub_comm,
          totalMomentum, totalMomentum, ← Finset.sum_sub_distrib]
        exact congrArg abs (Finset.sum_congr rfl fun c _ => (mul_sub ..).symm)
    _ ≤ ∑ c ∈ cells, |ro.get c.1 c.2 0 * (vel.get c.1 c.2 n - after.get c.1 c.2 n)
          + dt * inflow c| := Finset.abs_sum_le_sum_abs _ _
    _ ≤ ∑ c ∈ cells, target :=
        Finset.sum_le_sum fun c hc => h.balance (List.mem_toFinset.1 hc) hn
    _ = (setup.hierarchy.layout level).size * target := by
        rw [Finset.sum_const, hcard, nsmul_eq_mul]

end LevelSolved

/-- **Diffusion conserves momentum.** On a level whose boxes tile its domain, between periodic and
closed faces, the momentum changes by no more than the target of the solve for each cell. -/
theorem solve_momentum [Trig ℚ] {plan : Hierarchy.Plan ℚ} {vel ro eta : Levels (MeshField ℚ)}
    {report : SolveSummary ℚ} (hbuild : Hierarchy.build plan = .ok setup.hierarchy)
    (hreached : Reached setup config eq) (hcheck : check setup config = .ok boundary)
    (hkinds : ∀ f, boundary.get f = .periodic ∨ boundary.get f = .neumann)
    (hok : (eq.solve vel ro eta dt).value.result = .ok report)
    (hlevel : level < setup.hierarchy.active)
    (htiles : (setup.hierarchy.layout level).Tiles (setup.hierarchy.geometry level).domain)
    (hobstacle : ∀ o ∈ setup.obstacles.get? level, o.Classifies ∧
      ∀ s ∈ (setup.hierarchy.geometry level).periods.shifts, ∀ p, o.kind (p + s) = o.kind p)
    (hlayout : (vel.get level).layout = setup.hierarchy.layout level)
    (hncomp : velocityComponents ≤ (vel.get level).ncomp) (hn : n < velocityComponents)
    (heta : (setup.hierarchy.layout level).Duplicates (setup.hierarchy.geometry level).periods
      fun i q => (eta.get level).get i q 0) :
    |totalMomentum (setup.hierarchy.layout level) (ro.get level)
          ((eq.solve vel ro eta dt).value.velocity.get level) n
        - totalMomentum (setup.hierarchy.layout level) (ro.get level) (vel.get level) n|
      ≤ (setup.hierarchy.layout level).size
        * max (config.rtol * report.startResidual) config.atol := by
  obtain ⟨resolved, hresolved, hformed⟩ := hreached.formed
  obtain rfl : boundary = resolved := Except.ok.inj (hcheck.symm.trans hresolved)
  obtain ⟨o, l, u, h⟩ := solve_levelSolved hformed hok hlevel hlayout hncomp
  rw [Exact.maxNum_eq] at h
  have hneumann : ∀ f, (setup.hierarchy.geometry level).periodic.get f.axis = false →
      boundary.get f = .neumann := by
    intro f hwraps
    -- All levels wrap around along the same axes, those of the periodic faces.
    have hbase : (setup.hierarchy.geometry 0).periodic.get f.axis = false := by
      rw [Hierarchy.build_periodic hbuild (Nat.succ_pos _),
        ← Hierarchy.build_periodic hbuild hlevel, hwraps]
    refine (hkinds f).resolve_left ?_
    intro hperiodic
    rw [DomainTags.resolve_periodic (resolve_of_check hcheck) f, hbase] at hperiodic
    exact Bool.false_ne_true hperiodic
  have hclosed : Closed setup boundary level (eta.get level) :=
    { tiles := htiles
      neumann := hneumann
      classifies := fun o ho => (hobstacle o ho).1
      repeats := fun o ho => (hobstacle o ho).2
      viscosity := heta }
  exact h.momentum_le hclosed hn

/-- In a duct with open ends, where the normal derivative vanishes, the momentum of two cells
changes by no more than twice the target. -/
theorem solve_momentum_duct :
    ∃ report,
      ((ductEquation .pressureOutflow .neumann).solve ductVelocity ductOnes ductOnes 1).value.result
        = .ok report ∧
      |totalMomentum ductLevel.layout (ductOnes.get 0) (((ductEquation .pressureOutflow
            .neumann).solve ductVelocity ductOnes ductOnes 1).value.velocity.get 0) 0
          - totalMomentum ductLevel.layout (ductOnes.get 0) (ductVelocity.get 0) 0|
        ≤ (2 : ℕ) * max (1e-11 * report.startResidual) 1e-14 := by
  let := trigAtZero
  have hok : ((ductEquation .pressureOutflow .neumann).solve ductVelocity ductOnes ductOnes
      1).value.result.isOk = true := by decide +kernel
  obtain ⟨report, hresult⟩ := ResidualCorrection.exists_of_isOk hok
  have hshape := shape_ductLevels velocityComponents fun p => if p.x = 0 then 1 else 0
  have hobstacle : (duct .pressureOutflow).obstacles.get? 0 = some .absent := by
    have hlevel : 0 < ductMesh.topLevel + 1 := Nat.succ_pos _
    exact (Levels.get?_ofFn ..).trans (if_pos hlevel)
  have hbuild : Hierarchy.build ductPlan = .ok (duct .pressureOutflow).hierarchy := rfl
  have hreached : Reached (duct .pressureOutflow) .defaults
      (ductEquation .pressureOutflow .neumann) := reached_ductEquation rfl
  have hcheck : check (duct .pressureOutflow) .defaults = .ok (ductBoundary .neumann) :=
    check_duct rfl
  have hkinds : ∀ f, (ductBoundary .neumann).get f = .periodic ∨
      (ductBoundary .neumann).get f = .neumann := by
    rintro ⟨a, side⟩
    cases a <;> cases side <;> decide
  have hlevel : 0 < (duct .pressureOutflow).hierarchy.active := Nat.one_pos
  have habsent : ∀ o ∈ (duct .pressureOutflow).obstacles.get? 0, o.Classifies ∧
      ∀ s ∈ ((duct .pressureOutflow).hierarchy.geometry 0).periods.shifts, ∀ p,
        o.kind (p + s) = o.kind p := by
    intro o ho
    rw [hobstacle, Option.mem_some_iff] at ho
    rw [← ho]
    exact ⟨Obstacle.absent_classifies, fun s _ p => rfl⟩
  have heta : ductLevel.layout.Duplicates ductLevel.geometry.periods
      fun i q => (ductOnes.get 0).get i q 0 := by
    intro i hi q hq _ s _ j hj hmem
    simp only [ductOnes]
    rw [get_ductLevels hi hq Nat.one_pos,
      get_ductLevels hj (Box.mem_grow_of_mem 1 hmem) Nat.one_pos]
  have hmomentum := solve_momentum hbuild hreached hcheck hkinds hresult hlevel ductLevel_tiles
    habsent (congrArg MeshField.Shape.layout hshape) (congrArg MeshField.Shape.ncomp hshape).ge
    three_pos heta
  have hsize : ((duct .pressureOutflow).hierarchy.layout 0).size = 2 := by decide
  rw [hsize] at hmomentum
  exact ⟨report, hresult, hmomentum⟩

end ImplicitDiffusion

end MeshDiffusion
