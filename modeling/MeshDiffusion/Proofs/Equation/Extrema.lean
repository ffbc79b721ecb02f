import Mathlib.Tactic
import MeshDiffusion.Proofs.Equation.Balance

/-!
Diffusion creates no new extrema.

* `Layout.Given` are the points whose values a step takes as they are: the cells of a level, and the
  ghosts next to them that no box and no periodic image covers;
* `ImplicitDiffusion.LevelSolved.source_cases`: next to a cell, a step takes the new value of some
  cell or a given one;
* `FiniteVolume.le_add_div`: cells that balance up to a target exceed what was given by no more than
  the target over the least mass, because nothing flows into the largest of them;
* `ImplicitDiffusion.solve_between`: so does the velocity after a step, and it falls short by no
  more than that.
-/

namespace MeshDiffusion

/-- A cell of box `i`, or a point next to the box that no box and no periodic image covers. -/
def Layout.Given (l : Layout) (periods : Periods) (i : ℕ) (p : Point) : Prop :=
  p ∈ l.box i ∨
    p ∈ (l.box i).grow 1 ∧ ∀ s ∈ periods.shifts, ∀ j < l.count, p - s ∉ l.box j

instance (l : Layout) (periods : Periods) (i : ℕ) (p : Point) :
    Decidable (l.Given periods i p) :=
  inferInstanceAs (Decidable (_ ∨ _))

/-! ### The largest cell -/

namespace FiniteVolume

variable {o : FiniteVolume ℚ} {l : LevelOperator ℚ} {layout : Layout}
  {dt least target : ℚ}

/-- **The maximum principle.** Let every value next to a cell be the value of a cell or at most a
bound, let the old values be at most the bound, and let all cells balance up to a target. Then no
cell exceeds the bound by more than the target over the least mass. -/
theorem le_add_div (mass old u : ℕ → Point → ℚ) (bound : ℚ) (hdt : 0 ≤ dt) (hleast : 0 < least)
    (hmass : ∀ c ∈ layout.cells, least ≤ mass c.1 c.2)
    (hvisc : ∀ c ∈ layout.cells, ∀ f, 0 ≤ l.faceViscosity c.1 c.2 f)
    (hold : ∀ c ∈ layout.cells, old c.1 c.2 ≤ bound)
    (hnear : ∀ c ∈ layout.cells, ∀ (a : Axis) (z : ℤ), z = 1 ∨ z = -1 →
      (∃ d ∈ layout.cells, u c.1 (c.2.move a z) = u d.1 d.2) ∨ u c.1 (c.2.move a z) ≤ bound)
    (hbalance : ∀ c ∈ layout.cells,
      |mass c.1 c.2 * (old c.1 c.2 - u c.1 c.2) + dt * o.inflow l c.1 (u c.1) c.2| ≤ target) :
    ∀ c ∈ layout.cells, u c.1 c.2 ≤ bound + target / least := by
  intro c hc
  obtain ⟨m, hm, hlargest⟩ := layout.cells.toFinset.exists_max_image (fun d => u d.1 d.2)
    ⟨c, List.mem_toFinset.2 hc⟩
  rw [List.mem_toFinset] at hm
  have hle : ∀ d ∈ layout.cells, u d.1 d.2 ≤ u m.1 m.2 := fun d hd =>
    hlargest d (List.mem_toFinset.2 hd)
  refine (hle c hc).trans ?_
  have htarget : 0 ≤ target := (abs_nonneg _).trans (hbalance m hm)
  -- Where the largest cell is above the bound, it is above all values next to it.
  by_contra hexceeds
  have habove : bound + target / least < u m.1 m.2 := not_le.1 hexceeds
  have hbound : bound ≤ u m.1 m.2 := by
    have hquotient : 0 ≤ target / least := div_nonneg htarget hleast.le
    linarith
  have hpeak : ∀ (a : Axis) (z : ℤ), z = 1 ∨ z = -1 → u m.1 (m.2.move a z) ≤ u m.1 m.2 := by
    intro a z hz
    rcases hnear m hm a z hz with ⟨d, hd, heq⟩ | hsmall
    · rw [heq]
      exact hle d hd
    · exact hsmall.trans hbound
  have hinflow : dt * o.inflow l m.1 (u m.1) m.2 ≤ 0 :=
    mul_nonpos_of_nonneg_of_nonpos hdt (inflow_nonpos (hvisc m hm) hpeak)
  -- It has then lost more momentum than the balance allows.
  have hloss : target < mass m.1 m.2 * (u m.1 m.2 - old m.1 m.2) := by
    have hrise : target / least < u m.1 m.2 - old m.1 m.2 := by
      have := hold m hm
      linarith
    calc target = least * (target / least) := by field_simp
      _ < least * (u m.1 m.2 - old m.1 m.2) := by gcongr
      _ ≤ mass m.1 m.2 * (u m.1 m.2 - old m.1 m.2) := by
          refine mul_le_mul_of_nonneg_right (hmass m hm) ?_
          exact ((div_nonneg htarget hleast.le).trans_lt hrise).le
  have hlow := (abs_le.1 (hbalance m hm)).1
  linarith

end FiniteVolume

/-! ### Steps -/

namespace ImplicitDiffusion

variable {setup : Setup ℚ} {config : DiffusionOptions ℚ} {boundary : DomainBoundary}
  {eq : Standard ℚ} {level n : ℕ} {dt : ℚ}

namespace LevelSolved

variable {vel ro eta after u : MeshField ℚ} {o : FiniteVolume ℚ} {l : LevelOperator ℚ}
  {c : ℕ × Point} {a : Axis} {z : ℤ} {target least lower upper : ℚ}

/-- Where a value next to a cell comes from: it is the new value of a cell, or it was given. Every
step of a level takes it from there, whatever its operator and its target. -/
lemma source_cases (hc : c ∈ (setup.hierarchy.layout level).cells) (a : Axis) (hz : z = 1 ∨ z = -1) :
    (∃ d ∈ (setup.hierarchy.layout level).cells, ∀ {boundary dt target vel ro eta after o l u},
      LevelSolved setup boundary level dt target vel ro eta after o l u →
        ∀ n < velocityComponents, u.get c.1 (c.2.move a z) n = after.get d.1 d.2 n) ∨
    (setup.hierarchy.layout level).Given (setup.hierarchy.geometry level).periods c.1
        (c.2.move a z) ∧
      ∀ {boundary dt target vel ro eta after o l u},
        LevelSolved setup boundary level dt target vel ro eta after o l u →
          ∀ n < velocityComponents,
            u.get c.1 (c.2.move a z) n = vel.get c.1 (c.2.move a z) n := by
  obtain ⟨hi, hp⟩ := Layout.mem_cells.1 hc
  by_cases hq : c.2.move a z ∈ (setup.hierarchy.layout level).box c.1
  · exact .inl ⟨(c.1, c.2.move a z), Layout.mem_cells.2 ⟨hi, hq⟩, fun h => h.valid c.1 hi _ hq⟩
  · have hnext := Box.move_mem_grow (a := a) hp hz
    cases hlast : Halo.lastProvider (setup.hierarchy.layout level)
        (Halo.pairs (setup.hierarchy.layout level) (setup.hierarchy.geometry level).periods)
        c.1 (c.2.move a z) with
    | some sj =>
        obtain ⟨s, j⟩ := sj
        obtain ⟨hpair, hprovides⟩ := Halo.lastProvider_mem hlast
        have hj := (Halo.mem_pairs.1 hpair).2
        refine .inl ⟨(j, c.2.move a z - s), Layout.mem_cells.2 ⟨hj, hprovides.2⟩,
          fun h n hn => ?_⟩
        have hghost := h.ghost c.1 hi _ hnext hq n hn
        rwa [hlast] at hghost
    | none =>
        refine .inr ⟨.inr ⟨hnext, (Halo.lastProvider_eq_none_iff hq).1 hlast⟩, fun h n hn => ?_⟩
        have hghost := h.ghost c.1 hi _ hnext hq n hn
        rwa [hlast] at hghost

/-- A value next to a cell is the new value of a cell, or it was given. -/
lemma near (h : LevelSolved setup boundary level dt target vel ro eta after o l u)
    (hc : c ∈ (setup.hierarchy.layout level).cells) (hn : n < velocityComponents)
    (hz : z = 1 ∨ z = -1) :
    (∃ d ∈ (setup.hierarchy.layout level).cells,
      u.get c.1 (c.2.move a z) n = after.get d.1 d.2 n) ∨
    (setup.hierarchy.layout level).Given (setup.hierarchy.geometry level).periods c.1
        (c.2.move a z) ∧
      u.get c.1 (c.2.move a z) n = vel.get c.1 (c.2.move a z) n := by
  rcases source_cases hc a hz with ⟨d, hd, hvalue⟩ | ⟨hgiven, hvalue⟩
  · exact .inl ⟨d, hd, hvalue h n hn⟩
  · exact .inr ⟨hgiven, hvalue h n hn⟩

/-- The new values of a level lie between the bounds of what was given, up to the target over the
least density. -/
lemma between (h : LevelSolved setup boundary level dt target vel ro eta after o l u)
    (hdt : 0 ≤ dt) (hn : n < velocityComponents) (hleast : 0 < least)
    (hro : ∀ c ∈ (setup.hierarchy.layout level).cells, least ≤ ro.get c.1 c.2 0)
    (hvisc : ∀ c ∈ (setup.hierarchy.layout level).cells, ∀ f, 0 ≤ l.faceViscosity c.1 c.2 f)
    (hvel : ∀ i < (setup.hierarchy.layout level).count, ∀ p,
      (setup.hierarchy.layout level).Given (setup.hierarchy.geometry level).periods i p →
        lower ≤ vel.get i p n ∧ vel.get i p n ≤ upper)
    (hc : c ∈ (setup.hierarchy.layout level).cells) :
    lower - target / least ≤ after.get c.1 c.2 n ∧
      after.get c.1 c.2 n ≤ upper + target / least := by
  have hold : ∀ c ∈ (setup.hierarchy.layout level).cells,
      lower ≤ vel.get c.1 c.2 n ∧ vel.get c.1 c.2 n ≤ upper := fun c hc =>
    hvel c.1 (Layout.mem_cells.1 hc).1 c.2 (.inl (Layout.mem_cells.1 hc).2)
  have hvalid : ∀ c ∈ (setup.hierarchy.layout level).cells,
      u.get c.1 c.2 n = after.get c.1 c.2 n := fun c hc =>
    h.valid c.1 (Layout.mem_cells.1 hc).1 c.2 (Layout.mem_cells.1 hc).2 n hn
  have hbalance : ∀ c ∈ (setup.hierarchy.layout level).cells,
      |ro.get c.1 c.2 0 * (vel.get c.1 c.2 n - u.get c.1 c.2 n)
        + dt * o.inflow l c.1 (fun q => u.get c.1 q n) c.2| ≤ target := by
    intro c hc
    rw [hvalid c hc]
    exact h.balance hc hn
  rw [← hvalid c hc]
  constructor
  · -- The lower side is the upper side for the velocity with the other sign.
    have hupper : -u.get c.1 c.2 n ≤ -lower + target / least := by
      refine FiniteVolume.le_add_div (o := o) (fun i p => ro.get i p 0) (fun i p => -vel.get i p n)
        (fun i p => -u.get i p n) (-lower) hdt hleast hro hvisc
        (fun d hd => neg_le_neg (hold d hd).1) (fun d hd a z hz => ?_) (fun d hd => ?_) c hc
      · rcases h.near hd hn hz with ⟨e, he, heq⟩ | ⟨hgiven, heq⟩
        · refine .inl ⟨e, he, ?_⟩
          rw [heq, hvalid e he]
        · rw [heq]
          exact .inr (neg_le_neg (hvel d.1 (Layout.mem_cells.1 hd).1 _ hgiven).1)
      · rw [FiniteVolume.inflow_neg, ← abs_neg]
        convert hbalance d hd using 2
        ring
    linarith
  · refine FiniteVolume.le_add_div (o := o) (fun i p => ro.get i p 0) (fun i p => vel.get i p n)
      (fun i p => u.get i p n) upper hdt hleast hro hvisc (fun d hd => (hold d hd).2)
      (fun d hd a z hz => ?_) hbalance c hc
    rcases h.near hd hn hz with ⟨e, he, heq⟩ | ⟨hgiven, heq⟩
    · refine .inl ⟨e, he, ?_⟩
      rw [heq, hvalid e he]
    · rw [heq]
      exact .inr (hvel d.1 (Layout.mem_cells.1 hd).1 _ hgiven).2

end LevelSolved

/-- **Diffusion creates no new extrema.** On every level, the new velocity lies between the bounds
of the values that were given, up to the target of the solve over the least density. -/
theorem solve_between [Trig ℚ] {vel ro eta : Levels (MeshField ℚ)} {report : SolveSummary ℚ}
    {least lower upper : ℚ} (hreached : Reached setup config eq)
    (hok : (eq.solve vel ro eta dt).value.result = .ok report) (hdt : 0 ≤ dt)
    (hlevel : level < setup.hierarchy.active)
    (hlayout : (vel.get level).layout = setup.hierarchy.layout level)
    (hncomp : velocityComponents ≤ (vel.get level).ncomp) (hn : n < velocityComponents)
    (hleast : 0 < least)
    (hro : ∀ i < (setup.hierarchy.layout level).count,
      ∀ p ∈ (setup.hierarchy.layout level).box i, least ≤ (ro.get level).get i p 0)
    (heta : ∀ i < (setup.hierarchy.layout level).count,
      ∀ p ∈ ((setup.hierarchy.layout level).box i).grow 1, 0 ≤ (eta.get level).get i p 0)
    (hvel : ∀ i < (setup.hierarchy.layout level).count, ∀ p,
      (setup.hierarchy.layout level).Given (setup.hierarchy.geometry level).periods i p →
        lower ≤ (vel.get level).get i p n ∧ (vel.get level).get i p n ≤ upper) :
    ∀ i < (setup.hierarchy.layout level).count, ∀ p ∈ (setup.hierarchy.layout level).box i,
      let target := max (config.rtol * report.startResidual) config.atol
      let new := ((eq.solve vel ro eta dt).value.velocity.get level).get i p n
      lower - target / least ≤ new ∧ new ≤ upper + target / least := by
  obtain ⟨boundary, -, hformed⟩ := hreached.formed
  obtain ⟨o, l, u, h⟩ := solve_levelSolved hformed hok hlevel hlayout hncomp
  rw [Exact.maxNum_eq] at h
  generalize (eq.solve vel ro eta dt).value.velocity.get level = after at h ⊢
  have hmass : ∀ c ∈ (setup.hierarchy.layout level).cells,
      least ≤ (ro.get level).get c.1 c.2 0 := by
    intro c hc
    obtain ⟨hi, hp⟩ := Layout.mem_cells.1 hc
    exact hro c.1 hi c.2 hp
  intro i hi p hp
  exact h.between (c := (i, p)) hdt hn hleast hmass (fun _ hd => h.viscosity_nonneg hd heta) hvel
    (Layout.mem_cells.2 ⟨hi, hp⟩)

/-- In a duct between walls at rest, a velocity between zero and one stays there, up to the target
of the solve. -/
theorem solve_between_duct :
    ∃ report,
      ((ductEquation .noSlipWall .dirichlet).solve ductVelocity ductOnes ductOnes 1).value.result
        = .ok report ∧
      ∀ i < 2, ∀ p ∈ ductLevel.layout.box i,
        let target := max (1e-11 * report.startResidual) 1e-14
        let new := (((ductEquation .noSlipWall .dirichlet).solve ductVelocity ductOnes ductOnes
          1).value.velocity.get 0).get i p 0
        0 - target / 1 ≤ new ∧ new ≤ 1 + target / 1 := by
  let := trigAtZero
  obtain ⟨report, hresult⟩ := ResidualCorrection.exists_of_isOk isOk_solve_duct
  have hshape := shape_ductLevels velocityComponents fun p => if p.x = 0 then 1 else 0
  refine ⟨report, hresult, ?_⟩
  refine solve_between (reached_ductEquation rfl) hresult zero_le_one Nat.one_pos
    (congrArg MeshField.Shape.layout hshape) (congrArg MeshField.Shape.ncomp hshape).ge
    (by decide) one_pos (fun i hi p hp => ?_) (fun i hi p hp => ?_) (fun i hi p hp => ?_)
  · rw [ductOnes, get_ductLevels hi (Box.mem_grow_of_mem 1 hp) Nat.one_pos]
  · rw [ductOnes, get_ductLevels hi hp Nat.one_pos]
    exact zero_le_one
  · have hgrow : p ∈ (ductLevel.layout.box i).grow 1 := hp.elim (Box.mem_grow_of_mem 1) And.left
    rw [ductVelocity, get_ductLevels hi hgrow (by decide)]
    split_ifs <;> norm_num

end ImplicitDiffusion

end MeshDiffusion
