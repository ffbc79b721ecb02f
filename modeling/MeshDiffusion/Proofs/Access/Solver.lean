import Mathlib.Tactic
import MeshDiffusion.Proofs.Access.Operator
import MeshDiffusion.Proofs.Solver.Krylov

/-!
Access of the solver.

The inner solvers and the cycles around them work on fields of different halos: the solution, the
correction and the preconditioned directions have a layer of ghosts, since the operator is applied
to them, and the residuals, the images and the search directions have none. No step of a solve
changes the boxes, the components or the halo of a field, so what fits before a loop fits in every
round of it, whichever branch a round takes.

* `Checked.Acts` says that a checked action is an action whenever its argument has a layer of
  ghosts;
* `Checked.KrylovFits` is the invariant of the biconjugate gradients
  (`Checked.halfStep_eq`, `Checked.fullStep_eq`, `Checked.iterate_eq`), `Checked.sweeps_eq` the
  Jacobi sweeps;
* `Checked.SystemFits` is the invariant of the levels of a solve (`Checked.cycles_eq`,
  `Checked.runLevels_eq`), and `Checked.run_eq` the whole solve.
-/

open MeshDiffusion.Inner

namespace MeshDiffusion

namespace Checked

variable {K : Type} [Scalar K]

/-! ### Inner solvers -/

/-- An action with its accesses checked. -/
abbrev CheckedAction (K : Type) := MeshField K → MeshField K → Option (MeshField K × MeshField K)

/-- A right-hand side less an image. -/
def innerResidual (b ax : MeshField K) : Option (MeshField K) := do
  let r ← copy (ax.zeros ax.ncomp 0) b 0 0 ax.ncomp 0
  axpy r (-(1.0)) ax 0

/-- Multiplies every component by the inverse of the diagonal. -/
def byDiagonal (f diagonalInverse : MeshField K) : Option (MeshField K) :=
  (List.range f.ncomp).foldlM (fun f n => mulFrom f diagonalInverse 0 n 1 0) f

/-- Jacobi sweeps from iteration `it` on, at most `fuel` of them. -/
def sweeps (pb : Problem K) (act : CheckedAction K) :
    (fuel it : ℕ) → (x ax : MeshField K) → Option (Noted K (MeshField K))
  | 0, _, x, _ => some (.quiet x)
  | fuel + 1, it, x, ax => do
    let (x, ax) ← act x ax
    let r ← innerResidual pb.rhs ax
    let norm ← normAll r
    let heard := pb.tell (.sweep pb.level it norm)
    if norm ≤ pb.target then return ⟨heard, x⟩
    else
      let d ← byDiagonal r pb.diagonalInverse
      let x ← axpy x sweepWeight d 0
      let rest ← sweeps pb act fuel (it + 1) x ax
      return rest.after heard

/-- The first half of iteration `it`. -/
def halfStep (pb : Problem K) (act : CheckedAction K) (it : ℕ) (s : Krylov K) :
    Option (Except Breakdown (Krylov K)) := do
  let rho ← dot pb.rhs s.r
  if !Scalar.isFinite rho then return .error (.notFinite .rho it)
  else if rho == 0.0 then return .error (.vanished .rho it)
  else
    let beta := rho / s.rho * (s.alpha / s.omega)
    let p ← axpy s.p (-s.omega) s.v 0
    let p ← scale p beta 0
    let p ← axpy p 1.0 s.r 0
    let y ← copy s.y p 0 0 s.x.ncomp 0
    let y ← byDiagonal y pb.diagonalInverse
    let (y, v) ← act y s.v
    let rv ← dot pb.rhs v
    if !Scalar.isFinite rv then return .error (.notFinite .shadowV it)
    else if rv == 0.0 then return .error (.vanished .shadowV it)
    else
      let alpha := rho / rv
      let x ← axpy s.x alpha y 0
      let r ← axpy s.r (-alpha) v 0
      return .ok { s with x := x, r := r, p := p, v := v, y := y, rho := rho, alpha := alpha }

/-- The second half of iteration `it`. -/
def fullStep (pb : Problem K) (act : CheckedAction K) (it : ℕ) (s : Krylov K) :
    Option (Except Breakdown (Krylov K)) := do
  let z ← copy s.z s.r 0 0 s.x.ncomp 0
  let z ← byDiagonal z pb.diagonalInverse
  let (z, t) ← act z s.t
  let ts ← dot t s.r
  let tt ← dot t t
  if !Scalar.isFinite ts || !Scalar.isFinite tt then return .error (.notFinite .tS it)
  else if tt == 0.0 then return .error (.vanished .tT it)
  else
    let omega := ts / tt
    let x ← axpy s.x omega z 0
    let r ← axpy s.r (-omega) t 0
    return .ok { s with x := x, r := r, z := z, t := t, omega := omega }

/-- Iterations from number `it` on, at most `fuel` of them. -/
def iterate (pb : Problem K) (act : CheckedAction K) :
    (fuel it : ℕ) → Krylov K → Option (Noted K (Except Breakdown (MeshField K)))
  | 0, _, s => some (.quiet (.ok s.x))
  | fuel + 1, it, s => do
    match ← halfStep pb act it s with
    | .error e => return .quiet (.error e)
    | .ok h =>
      let norm ← normAll h.r
      let heard := pb.tell (.halfStep pb.level it norm)
      if norm ≤ pb.target then return ⟨heard, .ok h.x⟩
      else
        match ← fullStep pb act it h with
        | .error e => return ⟨heard, .error e⟩
        | .ok s =>
          let norm ← normAll s.r
          let heard := heard ++ pb.tell (.fullStep pb.level it norm)
          if norm ≤ pb.target ∨ (s.omega == 0.0) = true then return ⟨heard, .ok s.x⟩
          else
            let rest ← iterate pb act fuel (it + 1) s
            return rest.after heard

section Inner

variable {layout : Layout} {pb : Problem K} {act : CheckedAction K} {b ax f x inverse : MeshField K}
  {s s' : Krylov K} {it : ℕ}

/-- A checked action is the action on arguments with a layer of ghosts. No action changes shapes. -/
structure Acts (act : CheckedAction K) (action : Action K) (layout : Layout) : Prop where
  eq_some : ∀ x out, x.Fits layout 0 1 → out.layout = layout → act x out = some (action x out)
  shape_fst : ∀ x out, (action x out).1.shape = x.shape
  shape_snd : ∀ x out, (action x out).2.shape = out.shape

/-- The fields of an inner solve live on the boxes of the level. -/
structure ProblemFits (pb : Problem K) (act : CheckedAction K) (layout : Layout) : Prop where
  acts : Acts act pb.action layout
  diagonalInverse : pb.diagonalInverse.Fits layout 1 0
  rhs : pb.rhs.layout = layout

lemma innerResidual_eq (hb : b.Fits layout ax.ncomp 0) (hax : ax.layout = layout) :
    innerResidual b ax = some (Inner.residual b ax) := by
  have hzero : (ax.zeros ax.ncomp 0).Fits layout ax.ncomp 0 := ⟨hax, le_rfl, le_rfl⟩
  exact bind_eq (copy_eq hzero hb) (axpy_eq hax hax)

lemma byDiagonal_eq (hf : f.layout = layout) (hinverse : inverse.Fits layout 1 0) :
    byDiagonal f inverse = some (Inner.byDiagonal f inverse) := by
  refine (foldlM_eq_foldl (P := fun g : MeshField K => g.shape = f.shape)
    (G := fun g n => g.mulFrom inverse 0 n 1 0) (fun g hg n hn => ⟨?_, hg⟩) rfl).1
  have hfits : f.Fits layout (n + 1) 0 := ⟨hf, List.mem_range.1 hn, Nat.zero_le _⟩
  exact mulFrom_eq (hfits.congr hg) hinverse

/-- **The Jacobi sweeps stay inside.** -/
theorem sweeps_eq (hpb : ProblemFits pb act layout) {fuel : ℕ} (hx : x.Fits layout 0 1)
    (hax : ax.layout = layout) (hncomp : ax.ncomp ≤ pb.rhs.ncomp) :
    sweeps pb act fuel it x ax = some (Inner.sweeps pb fuel it x ax) := by
  induction fuel generalizing it x ax with
  | zero => rfl
  | succ fuel ih =>
      have hx' : (pb.action x ax).1.Fits layout 0 1 := hx.congr (hpb.acts.shape_fst x ax)
      have hshape := hpb.acts.shape_snd x ax
      have hax' : (pb.action x ax).2.layout = layout :=
        (congrArg MeshField.Shape.layout hshape).trans hax
      have hncomp' : (pb.action x ax).2.ncomp ≤ pb.rhs.ncomp :=
        (congrArg MeshField.Shape.ncomp hshape).trans_le hncomp
      have hcorrection : (Inner.byDiagonal (Inner.residual pb.rhs (pb.action x ax).2)
          pb.diagonalInverse).layout = layout :=
        (congrArg MeshField.Shape.layout (shape_byDiagonal ..)).trans hax'
      rw [sweeps, Inner.sweeps]
      refine bind_eq (hpb.acts.eq_some x ax hx hax) ?_
      refine bind_eq (innerResidual_eq ⟨hpb.rhs, hncomp', Nat.zero_le _⟩ hax') ?_
      refine bind_eq (normAll_eq _) ?_
      refine ite_eq (fun _ => rfl) fun _ => ?_
      refine bind_eq (byDiagonal_eq hax' hpb.diagonalInverse) ?_
      refine bind_eq (axpy_eq hx'.layout_eq hcorrection) ?_
      exact bind_eq (ih (hx'.congr rfl) hax' hncomp') rfl

/-- The fields of the biconjugate gradients live on the boxes of the level, with the components of
the solution; the preconditioned directions have a layer of ghosts. -/
structure KrylovFits (layout : Layout) (s : Krylov K) : Prop where
  x : s.x.layout = layout
  r : s.r.Fits layout s.x.ncomp 0
  p : s.p.Fits layout s.x.ncomp 0
  v : s.v.layout = layout
  t : s.t.layout = layout
  y : s.y.Fits layout s.x.ncomp 1
  z : s.z.Fits layout s.x.ncomp 1

variable {y v : MeshField K}

omit [Scalar K] in
lemma Acts.layout_fst {action : Action K} (h : Acts act action layout) (hy : y.layout = layout) :
    (action y v).1.layout = layout :=
  (congrArg MeshField.Shape.layout (h.shape_fst y v)).trans hy

omit [Scalar K] in
lemma Acts.layout_snd {action : Action K} (h : Acts act action layout) (hv : v.layout = layout) :
    (action y v).2.layout = layout :=
  (congrArg MeshField.Shape.layout (h.shape_snd y v)).trans hv

/-- **The first half of an iteration stays inside.** -/
theorem halfStep_eq (hpb : ProblemFits pb act layout) (hs : KrylovFits layout s) :
    halfStep pb act it s = some (Krylov.halfStep pb it s) := by
  -- the direction that the operator is applied to keeps its layer of ghosts
  have hdirection : ∀ p : MeshField K, (Inner.byDiagonal (s.y.copy p 0 0 s.x.ncomp 0)
      pb.diagonalInverse).Fits layout 0 1 := fun p =>
    (hs.y.mono (Nat.zero_le _) le_rfl).congr (shape_byDiagonal ..)
  rw [halfStep, Krylov.halfStep]
  refine bind_eq (dot_eq (hs.r.layout_eq.trans hpb.rhs.symm)) ?_
  refine ite_eq (fun _ => rfl) fun _ => ?_
  refine ite_eq (fun _ => rfl) fun _ => ?_
  refine bind_eq (axpy_eq hs.p.layout_eq hs.v) ?_
  refine bind_eq (scale_eq ..) ?_
  refine bind_eq (axpy_eq hs.p.layout_eq hs.r.layout_eq) ?_
  refine bind_eq (copy_eq (hs.y.mono le_rfl zero_le_one) (hs.p.congr rfl)) ?_
  refine bind_eq (byDiagonal_eq hs.y.layout_eq hpb.diagonalInverse) ?_
  refine bind_eq (hpb.acts.eq_some _ _ (hdirection _) hs.v) ?_
  refine bind_eq (dot_eq ((hpb.acts.layout_snd hs.v).trans hpb.rhs.symm)) ?_
  refine ite_eq (fun _ => rfl) fun _ => ?_
  refine ite_eq (fun _ => rfl) fun _ => ?_
  refine bind_eq (axpy_eq hs.x (hpb.acts.layout_fst (hdirection _).layout_eq)) ?_
  exact bind_eq (axpy_eq hs.r.layout_eq (hpb.acts.layout_snd hs.v)) rfl

/-- **The second half of an iteration stays inside.** -/
theorem fullStep_eq (hpb : ProblemFits pb act layout) (hs : KrylovFits layout s) :
    fullStep pb act it s = some (Krylov.fullStep pb it s) := by
  have hdirection : (Inner.byDiagonal (s.z.copy s.r 0 0 s.x.ncomp 0)
      pb.diagonalInverse).Fits layout 0 1 :=
    (hs.z.mono (Nat.zero_le _) le_rfl).congr (shape_byDiagonal ..)
  rw [fullStep, Krylov.fullStep]
  refine bind_eq (copy_eq (hs.z.mono le_rfl zero_le_one) hs.r) ?_
  refine bind_eq (byDiagonal_eq hs.z.layout_eq hpb.diagonalInverse) ?_
  refine bind_eq (hpb.acts.eq_some _ _ hdirection hs.t) ?_
  refine bind_eq (dot_eq (hs.r.layout_eq.trans (hpb.acts.layout_snd hs.t).symm)) ?_
  refine bind_eq (dot_eq rfl) ?_
  refine ite_eq (fun _ => rfl) fun _ => ?_
  refine ite_eq (fun _ => rfl) fun _ => ?_
  refine bind_eq (axpy_eq hs.x (hpb.acts.layout_fst hdirection.layout_eq)) ?_
  exact bind_eq (axpy_eq hs.r.layout_eq (hpb.acts.layout_snd hs.t)) rfl

/-- The first half of an iteration keeps what fits. -/
lemma KrylovFits.halfStep (hpb : ProblemFits pb act layout) (hs : KrylovFits layout s)
    (h : Krylov.halfStep pb it s = .ok s') : KrylovFits layout s' := by
  rw [Krylov.halfStep] at h
  simp only at h
  split_ifs at h
  cases h
  exact
    { x := hs.x
      r := hs.r.congr rfl
      p := hs.p.congr rfl
      v := hpb.acts.layout_snd hs.v
      t := hs.t
      y := hs.y.congr ((hpb.acts.shape_fst ..).trans (shape_byDiagonal ..))
      z := hs.z }

/-- So does the second half. -/
lemma KrylovFits.fullStep (hpb : ProblemFits pb act layout) (hs : KrylovFits layout s)
    (h : Krylov.fullStep pb it s = .ok s') : KrylovFits layout s' := by
  rw [Krylov.fullStep] at h
  simp only at h
  split_ifs at h
  cases h
  exact
    { x := hs.x
      r := hs.r.congr rfl
      p := hs.p
      v := hs.v
      t := hpb.acts.layout_snd hs.t
      y := hs.y
      z := hs.z.congr ((hpb.acts.shape_fst ..).trans (shape_byDiagonal ..)) }

/-- **The biconjugate gradients stay inside**, also when they break down. -/
theorem iterate_eq (hpb : ProblemFits pb act layout) {fuel : ℕ} (hs : KrylovFits layout s) :
    iterate pb act fuel it s = some (Krylov.iterate pb fuel it s) := by
  induction fuel generalizing it s with
  | zero => rfl
  | succ fuel ih =>
      rw [iterate, Krylov.iterate]
      refine bind_eq (halfStep_eq hpb hs) ?_
      cases hhalf : Krylov.halfStep pb it s with
      | error e => rfl
      | ok h =>
          have hh : KrylovFits layout h := hs.halfStep hpb hhalf
          refine bind_eq (normAll_eq _) ?_
          refine ite_eq (fun _ => rfl) fun _ => ?_
          refine bind_eq (fullStep_eq hpb hh) ?_
          cases hfull : Krylov.fullStep pb it h with
          | error e => rfl
          | ok s' =>
              refine bind_eq (normAll_eq _) ?_
              refine ite_eq (fun _ => rfl) fun _ => ?_
              exact bind_eq (ih (hh.fullStep hpb hfull)) rfl

/-- The sweeps keep the boxes of the correction. -/
lemma layout_sweeps (hact : Acts act pb.action layout) {fuel : ℕ} (hx : x.layout = layout) :
    (Inner.sweeps pb fuel it x ax).value.layout = layout := by
  induction fuel generalizing it x ax with
  | zero => exact hx
  | succ fuel ih =>
      rw [Inner.sweeps]
      have hx' := hact.layout_fst (v := ax) hx
      simp only
      split_ifs with hle
      · exact hx'
      · exact ih hx'

/-- The biconjugate gradients keep the boxes of the correction. -/
lemma layout_iterate (hpb : ProblemFits pb act layout) {fuel : ℕ} (hs : KrylovFits layout s)
    {e : MeshField K} (h : (Krylov.iterate pb fuel it s).value = .ok e) : e.layout = layout := by
  induction fuel generalizing it s with
  | zero => exact Except.ok.inj h ▸ hs.x
  | succ fuel ih =>
      rw [Krylov.iterate] at h
      cases hhalf : Krylov.halfStep pb it s with
      | error e' => simp [hhalf, Noted.quiet] at h
      | ok s₁ =>
          have hs₁ : KrylovFits layout s₁ := hs.halfStep hpb hhalf
          simp only [hhalf] at h
          split_ifs at h with hle
          · exact Except.ok.inj h ▸ hs₁.x
          · cases hfull : Krylov.fullStep pb it s₁ with
            | error e' => simp [hfull] at h
            | ok s₂ =>
                have hs₂ : KrylovFits layout s₂ := hs₁.fullStep hpb hfull
                simp only [hfull] at h
                split_ifs at h with hstop
                · exact Except.ok.inj h ▸ hs₂.x
                · exact ih hs₂ h

end Inner

/-! ### One level -/

/-- The solution with its ghosts filled, and the residual of a level. -/
def residual (op : FiniteVolume K) (level : ℕ) (sol rhs : MeshField K) :
    Option (MeshField K × MeshField K) := do
  let (sol, ax) ← apply op level sol (sol.zeros sol.ncomp 0) false
  let r ← innerResidual rhs ax
  return (sol, r)

/-- The inverse of the diagonal, one where it vanishes. -/
def diagonalInverse (op : FiniteVolume K) (level : ℕ) (like : MeshField K) :
    Option (MeshField K) := do
  let d ← diagonal op level (like.zeros 1 0)
  sweep d (window d.layout 0 0 1) fun _ _ _ v => some (if v == 0.0 then 1.0 else 1.0 / v)

/-- The correction of a level for a residual. -/
def correction (s : ResidualCorrection) (op : FiniteVolume K) (level : ℕ)
    (sol diagonalInverse r : MeshField K) (target : K) :
    Option (Noted K (Except Breakdown (MeshField K))) :=
  let pb : Problem K :=
    { level := level
      action := fun x out => DiffusionOperator.apply op level x out true
      diagonalInverse := diagonalInverse
      rhs := r
      target := target
      verbose := 0 < s.settings.innerVerbose
      maxIterations := s.settings.maxInner }
  let act : CheckedAction K := fun x out => apply op level x out true
  let e := sol.zeros sol.ncomp 1
  match s.settings.innerMethod with
  | .smoother => do
    let x ← sweeps pb act pb.maxIterations 0 e (pb.rhs.zeros pb.rhs.ncomp 0)
    return x.map .ok
  | .default | .hypre => iterate pb act pb.maxIterations 0 (.start pb e)

/-- The cycles of a level from number `cycle` on, at most `fuel` of them. -/
def cycles (s : ResidualCorrection) (op : FiniteVolume K) (level : ℕ)
    (rhs inverse : MeshField K) (target : K) :
    (fuel cycle : ℕ) → (sol r : MeshField K) → Option (Noted K (ResidualCorrection.LevelRun K))
  | 0, cycle, sol, r => do
    let norm ← normAll r
    return .quiet ⟨sol, if norm ≤ target then .ok (cycle, norm)
      else .error (.notConverged cycle norm target)⟩
  | fuel + 1, cycle, sol, r => do
    let norm ← normAll r
    if !Scalar.isFinite norm then
      return .quiet ⟨sol, .error (.breakdown level (.residualNotFinite cycle))⟩
    else
      let heard := if 0 < s.settings.verbose then [.cycle level cycle norm] else []
      if norm ≤ target then return ⟨heard, sol, .ok (cycle, norm)⟩
      else
        let inner ← correction s op level sol inverse r target
        let heard := heard ++ inner.notices
        match inner.value with
        | .error e => return ⟨heard, sol, .error (.breakdown level e)⟩
        | .ok e =>
          let sol ← axpy sol 1.0 e 0
          let (sol, r) ← residual op level sol rhs
          let rest ← cycles s op level rhs inverse target fuel (cycle + 1) sol r
          return rest.after heard

/-- Solves one level. -/
def runLevel (s : ResidualCorrection) (op : FiniteVolume K) (level : ℕ) (sol rhs : MeshField K)
    (target : K) : Option (Noted K (ResidualCorrection.LevelRun K)) := do
  let inverse ← diagonalInverse op level sol
  let (sol, r) ← residual op level sol rhs
  cycles s op level rhs inverse target s.settings.maxCycles 0 sol r

section Level

variable {s : ResidualCorrection} {op : FiniteVolume K} {level : ℕ} {layout : Layout}
  {sol rhs inverse r f : MeshField K} {target : K}

/-- The operator, the solution and the right-hand side of a level live on its boxes. -/
structure LevelFits (op : FiniteVolume K) (level : ℕ) (layout : Layout) (sol rhs : MeshField K) :
    Prop where
  operator : op.FitsAt level layout
  solution : sol.Fits layout 0 1
  rhs : rhs.Fits layout sol.ncomp 0

/-- What fits a level fits it with another solution of the same shape. -/
lemma LevelFits.congr (h : LevelFits op level layout sol rhs) (hs : f.shape = sol.shape) :
    LevelFits op level layout f rhs where
  operator := h.operator
  solution := h.solution.congr hs
  rhs := h.rhs.mono (congrArg MeshField.Shape.ncomp hs).le le_rfl

theorem residual_eq (h : LevelFits op level layout sol rhs) :
    residual op level sol rhs = some (ResidualCorrection.residual op level sol rhs) := by
  refine bind_eq (apply_eq h.operator h.solution h.solution.layout_eq) ?_
  exact bind_eq (innerResidual_eq h.rhs h.solution.layout_eq) rfl

theorem diagonalInverse_eq (h : LevelFits op level layout sol rhs) :
    diagonalInverse op level sol = some (ResidualCorrection.diagonalInverse op level sol) := by
  have hlike : (sol.zeros 1 0).Fits layout 1 0 := ⟨h.solution.layout_eq, le_rfl, le_rfl⟩
  refine bind_eq (diagonal_eq h.operator hlike) ?_
  rw [sweep_window (g := fun _ _ _ v => if v == 0.0 then 1.0 else 1.0 / v) (Nat.zero_le _) le_rfl
    fun _ _ _ _ _ => rfl]
  refine congrArg some (MeshField.ext_get rfl fun i p n hst => ?_)
  have hst' : (DiffusionOperator.diagonal op level (sol.zeros 1 0)).Stores i p n := hst
  have hw : (DiffusionOperator.diagonal op level (sol.zeros 1 0)).Window 0 0 1 i p n :=
    ⟨hst'.2.1, Nat.zero_le n, hst'.2.2⟩
  rw [ResidualCorrection.diagonalInverse, MeshField.get_update, MeshField.get_update, if_pos hst',
    if_pos hst', if_pos hw]

/-- **The correction stays inside**, by either inner solver. -/
theorem correction_eq (s : ResidualCorrection) (target : K) (h : LevelFits op level layout sol rhs)
    (hinverse : inverse.Fits layout 1 0) (hr : r.Fits layout sol.ncomp 0) :
    correction s op level sol inverse r target
        = some (s.correction op level sol inverse r target) ∧
      ∀ e, (s.correction op level sol inverse r target).value = .ok e → e.layout = layout := by
  have hacts : Acts (fun x out => apply op level x out true)
      (fun x out => DiffusionOperator.apply op level x out true) layout :=
    ⟨fun x out hx hout => apply_eq h.operator hx hout, fun _ _ => rfl, fun _ _ => rfl⟩
  have hzero : (sol.zeros sol.ncomp 1).Fits layout sol.ncomp 1 :=
    ⟨h.solution.layout_eq, le_rfl, le_rfl⟩
  rw [correction, ResidualCorrection.correction]
  cases s.settings.innerMethod with
  | smoother =>
      refine ⟨bind_eq (sweeps_eq ⟨hacts, hinverse, hr.layout_eq⟩ (hzero.mono (Nat.zero_le _) le_rfl)
        hr.layout_eq le_rfl) rfl, fun e he => ?_⟩
      have he' := Except.ok.inj he
      exact he' ▸ layout_sweeps hacts h.solution.layout_eq
  | default | hypre =>
      have hstart : KrylovFits layout (Krylov.start
          { level := level
            action := fun x out => DiffusionOperator.apply op level x out true
            diagonalInverse := inverse
            rhs := r
            target := target
            verbose := 0 < s.settings.innerVerbose
            maxIterations := s.settings.maxInner } (sol.zeros sol.ncomp 1)) :=
        { x := h.solution.layout_eq
          r := hr
          p := ⟨hr.layout_eq, hr.ncomp_le, le_rfl⟩
          v := hr.layout_eq
          t := hr.layout_eq
          y := hzero
          z := hzero }
      exact ⟨iterate_eq ⟨hacts, hinverse, hr.layout_eq⟩ hstart,
        fun e he => layout_iterate ⟨hacts, hinverse, hr.layout_eq⟩ hstart he⟩

/-- **The cycles of a level stay inside**, however they end. -/
theorem cycles_eq {fuel cycle : ℕ} (h : LevelFits op level layout sol rhs)
    (hinverse : inverse.Fits layout 1 0) (hr : r.Fits layout sol.ncomp 0) :
    cycles s op level rhs inverse target fuel cycle sol r
      = some (s.cycles op level rhs inverse target fuel cycle sol r) := by
  induction fuel generalizing cycle sol r with
  | zero => exact bind_eq (normAll_eq r) rfl
  | succ fuel ih =>
      obtain ⟨hcorrection, hlayout⟩ := correction_eq s target h hinverse hr
      rw [cycles, ResidualCorrection.cycles]
      refine bind_eq (normAll_eq r) ?_
      refine ite_eq (fun _ => rfl) fun _ => ?_
      refine ite_eq (fun _ => rfl) fun _ => ?_
      refine bind_eq hcorrection ?_
      generalize s.correction op level sol inverse r target = inner at hlayout ⊢
      obtain ⟨notices, ended⟩ := inner
      cases ended with
      | error e => rfl
      | ok e =>
          have hmoved : LevelFits op level layout (sol.axpy 1.0 e 0) rhs := h.congr rfl
          refine bind_eq (axpy_eq h.solution.layout_eq (hlayout e rfl)) ?_
          refine bind_eq (residual_eq hmoved) ?_
          exact bind_eq (ih (hmoved.congr rfl) ⟨h.solution.layout_eq, le_rfl, le_rfl⟩) rfl

/-- **A level is solved inside.** -/
theorem runLevel_eq (s : ResidualCorrection) (target : K) (h : LevelFits op level layout sol rhs) :
    runLevel s op level sol rhs target = some (s.runLevel op level sol rhs target) := by
  refine bind_eq (diagonalInverse_eq h) ?_
  refine bind_eq (residual_eq h) ?_
  exact cycles_eq (h.congr rfl) ⟨h.solution.layout_eq, le_rfl, le_rfl⟩
    ⟨h.solution.layout_eq, le_rfl, le_rfl⟩

end Level

/-! ### All levels -/

/-- Fills the ghosts of every level and finds the largest residual. -/
def startResidual (op : FiniteVolume K) (levels : List ℕ) (sol rhs : Levels (MeshField K)) :
    Option (Levels (MeshField K) × K) :=
  levels.foldlM
    (fun state level => do
      let x ← state.1.get? level
      let b ← rhs.get? level
      let (filled, r) ← residual op level x b
      let norm ← normAll r
      let sol ← state.1.set? level filled
      return (sol, Scalar.maxNum state.2 norm))
    (sol, 0.0)

/-- Solves levels one after another up to the first failure. -/
def runLevels (s : ResidualCorrection) (op : FiniteVolume K) (rhs : Levels (MeshField K))
    (target : K) :
    List ℕ → (sol : Levels (MeshField K)) → (count : ℕ) → (residual : K) →
      Option (Noted K (Levels (MeshField K) × Except (SolveFailure K) (ℕ × K)))
  | [], sol, count, residual => some (.quiet (sol, .ok (count, residual)))
  | level :: levels, sol, count, residual => do
    let x ← sol.get? level
    let b ← rhs.get? level
    let run ← runLevel s op level x b target
    let sol ← sol.set? level run.value.solution
    match run.value.result with
    | .error e => return ⟨run.notices, sol, .error e⟩
    | .ok (n, r) =>
      let rest ← runLevels s op rhs target levels sol (count + n) (Scalar.maxNum residual r)
      return rest.after run.notices

/-- Fills the ghosts of levels from the boundary values. -/
def finalFill (op : FiniteVolume K) (levels : List ℕ) (sol : Levels (MeshField K)) :
    Option (Levels (MeshField K)) :=
  levels.foldlM
    (fun sol level => do
      let x ← sol.get? level
      let filled ← fillHalo op level x false
      sol.set? level filled) sol

/-- Solves all levels of an operator. -/
def run (s : ResidualCorrection) (op : FiniteVolume K) (sol rhs : Levels (MeshField K))
    (rtol atol : K) : Option (Noted K (Solved ResidualCorrection K)) :=
  let n := DiffusionOperator.levelCount op
  if sol.count < n ∨ rhs.count < n then
    some (.quiet ⟨s, sol, .error (.fewerLevels n (min sol.count rhs.count))⟩)
  else do
    let levels := List.range n
    let (sol, r0) ← startResidual op levels sol rhs
    let target := Scalar.maxNum (rtol * r0) atol
    let told (x : Notice K) : List (Notice K) := if 0 < s.settings.verbose then [x] else []
    let body ← runLevels s op rhs target levels sol 0 0.0
    let heard := told (.solveStarts r0 target n) ++ body.notices
    match body.value with
    | (sol, .error e) => return ⟨heard, s, sol, .error e⟩
    | (sol, .ok (count, residual)) =>
      let filled := if s.settings.finalFill then finalFill op levels sol else some sol
      let sol ← filled
      return ⟨heard ++ told (.solveEnds count residual), s, sol, .ok ⟨count, r0, residual, n⟩⟩

section Levels

variable {s : ResidualCorrection} {op : FiniteVolume K} {layout : ℕ → Layout}
  {sol rhs : Levels (MeshField K)} {level : ℕ} {levels : List ℕ} {target : K} {f : MeshField K}

/-- The operator, the solution and the right-hand side live on the boxes of every level that the
operator is bound to. -/
structure SystemFits (op : FiniteVolume K) (layout : ℕ → Layout) (sol rhs : Levels (MeshField K)) :
    Prop where
  count_solution : op.levels.count ≤ sol.count
  count_rhs : op.levels.count ≤ rhs.count
  level : ∀ l < op.levels.count, LevelFits op l (layout l) (sol.get l) (rhs.get l)

/-- What fits still fits when the solution of a level is replaced by one of its shape. -/
lemma SystemFits.set (h : SystemFits op layout sol rhs) (hs : f.shape = (sol.get level).shape) :
    SystemFits op layout (sol.set level f) rhs where
  count_solution := h.count_solution.trans_eq (Levels.count_set ..).symm
  count_rhs := h.count_rhs
  level l hl := by
    rw [Levels.get_set]
    split_ifs with hsame
    · exact (h.level l hl).congr (hs.trans (by rw [hsame.1]))
    · exact h.level l hl

theorem startResidual_eq (h : SystemFits op layout sol rhs)
    (hlevels : ∀ l ∈ levels, l < op.levels.count) :
    startResidual op levels sol rhs
        = some (ResidualCorrection.startResidual op levels sol rhs) ∧
      SystemFits op layout (ResidualCorrection.startResidual op levels sol rhs).1 rhs := by
  refine foldlM_eq_foldl
    (P := fun state : Levels (MeshField K) × K => SystemFits op layout state.1 rhs)
    (fun state hstate l hl => ?_) h
  have hlt := hlevels l hl
  refine ⟨?_, hstate.set rfl⟩
  refine bind_eq (get?_of_lt (hlt.trans_le hstate.count_solution)) ?_
  refine bind_eq (get?_of_lt (hlt.trans_le hstate.count_rhs)) ?_
  refine bind_eq (residual_eq (hstate.level l hlt)) ?_
  refine bind_eq (normAll_eq _) ?_
  exact bind_eq (set?_of_lt (hlt.trans_le hstate.count_solution) _) rfl

/-- **The levels are solved inside**, up to the first failure. -/
theorem runLevels_eq (s : ResidualCorrection) (target : K) (count : ℕ) (start : K)
    (h : SystemFits op layout sol rhs) (hlevels : ∀ l ∈ levels, l < op.levels.count) :
    runLevels s op rhs target levels sol count start
        = some (s.runLevels op rhs target levels sol count start) ∧
      SystemFits op layout (s.runLevels op rhs target levels sol count start).value.1 rhs := by
  induction levels generalizing sol count start with
  | nil => exact ⟨rfl, h⟩
  | cons l levels ih =>
      have hlt := hlevels l List.mem_cons_self
      have hlevel := h.level l hlt
      have hshape : (s.runLevel op l (sol.get l) (rhs.get l) target).value.solution.shape
          = (sol.get l).shape :=
        ResidualCorrection.shape_cycles.trans
          (ResidualCorrection.residual_fst_agrees op l (sol.get l) (rhs.get l)).shape
      have hrun := runLevel_eq s target hlevel
      have hnext := h.set hshape
      rw [runLevels, ResidualCorrection.runLevels]
      generalize s.runLevel op l (sol.get l) (rhs.get l) target = done at hrun hnext ⊢
      obtain ⟨notices, after, result⟩ := done
      cases result with
      | error e =>
          refine ⟨?_, hnext⟩
          refine bind_eq (get?_of_lt (hlt.trans_le h.count_solution)) ?_
          refine bind_eq (get?_of_lt (hlt.trans_le h.count_rhs)) ?_
          refine bind_eq hrun ?_
          exact bind_eq (set?_of_lt (hlt.trans_le h.count_solution) _) rfl
      | ok nr =>
          obtain ⟨hrest, hfits⟩ := ih (count + nr.1) (Scalar.maxNum start nr.2) hnext fun k hk =>
            hlevels k (List.mem_cons_of_mem _ hk)
          refine ⟨?_, hfits⟩
          refine bind_eq (get?_of_lt (hlt.trans_le h.count_solution)) ?_
          refine bind_eq (get?_of_lt (hlt.trans_le h.count_rhs)) ?_
          refine bind_eq hrun ?_
          refine bind_eq (set?_of_lt (hlt.trans_le h.count_solution) _) ?_
          exact bind_eq hrest rfl

theorem finalFill_eq (h : SystemFits op layout sol rhs)
    (hlevels : ∀ l ∈ levels, l < op.levels.count) :
    finalFill op levels sol = some (ResidualCorrection.finalFill op levels sol) ∧
      SystemFits op layout (ResidualCorrection.finalFill op levels sol) rhs := by
  refine foldlM_eq_foldl (P := fun sol => SystemFits op layout sol rhs)
    (G := fun sol l => sol.set l (DiffusionOperator.fillHalo op l (sol.get l) false))
    (fun sol hsol l hl => ⟨?_, hsol.set rfl⟩) h
  have hlt := hlevels l hl
  refine bind_eq (get?_of_lt (hlt.trans_le hsol.count_solution)) ?_
  have hlevel := hsol.level l hlt
  refine bind_eq (fillHalo_eq (hlevel.solution.layout_eq ▸ hlevel.operator)) ?_
  exact set?_of_lt (hlt.trans_le hsol.count_solution) _

/-- **A solve stays inside**, whether it converges or not, and its solution still fits. -/
theorem run_eq (h : SystemFits op layout sol rhs) {rtol atol : K} :
    run s op sol rhs rtol atol = some (s.run op sol rhs rtol atol) ∧
      SystemFits op layout (s.run op sol rhs rtol atol).value.solution rhs := by
  have hrange : ∀ l ∈ List.range op.levels.count, l < op.levels.count := fun l hl =>
    List.mem_range.1 hl
  have hcount : DiffusionOperator.levelCount op = op.levels.count := rfl
  obtain ⟨hstart, hfits⟩ := startResidual_eq h hrange
  rw [run, ResidualCorrection.run, hcount]
  by_cases hfew : sol.count < op.levels.count ∨ rhs.count < op.levels.count
  · rw [if_pos hfew, if_pos hfew]
    exact ⟨rfl, h⟩
  · rw [if_neg hfew, if_neg hfew]
    dsimp only
    generalize ResidualCorrection.startResidual op (List.range op.levels.count) sol rhs = started
      at hstart hfits ⊢
    obtain ⟨hbody, hsolved⟩ := runLevels_eq s (Scalar.maxNum (rtol * started.2) atol) 0 0.0 hfits
      hrange
    generalize s.runLevels op rhs (Scalar.maxNum (rtol * started.2) atol)
      (List.range op.levels.count) started.1 0 0.0 = body at hbody hsolved ⊢
    obtain ⟨notices, after, result⟩ := body
    cases result with
    | error e => exact ⟨bind_eq hstart (bind_eq hbody rfl), hsolved⟩
    | ok report =>
        obtain ⟨hfill, hfilled⟩ := finalFill_eq hsolved hrange
        constructor
        · refine bind_eq hstart ?_
          refine bind_eq hbody ?_
          exact bind_eq (ite_eq (fun _ => hfill) fun _ => rfl) rfl
        · dsimp only
          split_ifs
          · exact hfilled
          · exact hsolved

end Levels

end Checked

end MeshDiffusion
