import Mathlib.Tactic
import MeshDiffusion.Proofs.Solver.Superposition

/-!
The residual of the stabilised biconjugate gradients, in exact arithmetic.

The iterations update the solution `x` and the residual `r` apart from each other, along
preconditioned directions that live in fields of their own. Both move by the same multiple of a
direction and of its image, so `r` stays what it was at the start: the right-hand side less the image
of `x`.

* `Inner.Krylov.Visits` are the states that the iterations of a problem start from, and
  `Inner.Krylov.Ends` are the ways in which they end without a breakdown
  (`Inner.bicgstab_ok_iff`);
* `Inner.Krylov.halfStep_ok` and `Inner.Krylov.fullStep_ok` say what a half of an iteration does
  that does not break down, and which divisors it has checked;
* `Inner.Krylov.Tracks`: the residual is the one of the solution. Both halves keep it;
* `ResidualCorrection.Cycled` are the solutions and residuals that the cycles of a level start from;
* `ResidualCorrection.bicgstab_residual` collects what follows for an inner solve and for the cycle
  that asked for it.
-/

namespace MeshDiffusion

namespace Inner

/-! ### Iterations and their ends -/

namespace Krylov

section Iterations

variable {K : Type} [Scalar K]

/-- Iteration `it` from `s` over the half step `h` to `s'`, with another iteration to follow. -/
structure Iterates (pb : Problem K) (it : ℕ) (s h s' : Krylov K) : Prop where
  within : it < pb.maxIterations
  half : halfStep pb it s = .ok h
  half_above : ¬h.r.normAll ≤ pb.target
  full : fullStep pb it h = .ok s'
  full_above : ¬s'.r.normAll ≤ pb.target
  weight : ¬(s'.omega == 0.0) = true

/-- The states that the iterations start from, with the number of the iteration. -/
inductive Visits (pb : Problem K) (x : MeshField K) : ℕ → Krylov K → Prop where
  | start : Visits pb x 0 (.start pb x)
  | next {it : ℕ} {s h s' : Krylov K} :
      Visits pb x it s → Iterates pb it s h s' → Visits pb x (it + 1) s'

/-- Why iterations end that do not break down. -/
inductive Exit where
  /-- The residual of a half step passes the test. -/
  | halfNorm
  /-- The residual of a full step passes the test. -/
  | fullNorm
  /-- The residual of a full step does not pass the test, and its weight is zero. -/
  | noWeight
  /-- The iterations are used up. -/
  | capped
deriving DecidableEq

/-- The ways in which iterations end that do not break down, and what they return. -/
inductive Ends (pb : Problem K) (x : MeshField K) : Exit → MeshField K → Prop where
  | halfNorm {it : ℕ} {s h : Krylov K} : Visits pb x it s → it < pb.maxIterations →
      halfStep pb it s = .ok h → h.r.normAll ≤ pb.target → Ends pb x .halfNorm h.x
  | fullNorm {it : ℕ} {s h s' : Krylov K} : Visits pb x it s → it < pb.maxIterations →
      halfStep pb it s = .ok h → ¬h.r.normAll ≤ pb.target →
      fullStep pb it h = .ok s' → s'.r.normAll ≤ pb.target → Ends pb x .fullNorm s'.x
  | noWeight {it : ℕ} {s h s' : Krylov K} : Visits pb x it s → it < pb.maxIterations →
      halfStep pb it s = .ok h → ¬h.r.normAll ≤ pb.target →
      fullStep pb it h = .ok s' → ¬s'.r.normAll ≤ pb.target → (s'.omega == 0.0) = true →
      Ends pb x .noWeight s'.x
  | capped {s : Krylov K} : Visits pb x pb.maxIterations s → Ends pb x .capped s.x

variable {pb : Problem K} {x e : MeshField K} {it fuel : ℕ} {s h s' : Krylov K}

/-- The iterations that are left from a visited state are those of the whole run. -/
lemma Visits.bicgstab_eq (hs : Visits pb x it s) :
    it ≤ pb.maxIterations ∧
      (bicgstab pb x).value = (iterate pb (pb.maxIterations - it) it s).value := by
  induction hs with
  | start => exact ⟨Nat.zero_le _, rfl⟩
  | @next it s h s' _ hstep ih =>
      have hfuel : pb.maxIterations - it = pb.maxIterations - (it + 1) + 1 := by
        have := hstep.within
        omega
      have hends : ¬(s'.r.normAll ≤ pb.target ∨ (s'.omega == 0.0) = true) :=
        not_or.2 ⟨hstep.full_above, hstep.weight⟩
      refine ⟨hstep.within, ih.2.trans ?_⟩
      rw [hfuel, iterate, hstep.half]
      simp only [if_neg hstep.half_above, hstep.full, if_neg hends, Noted.after]

/-- Iterations that return have ended in one of the four ways. -/
lemma Visits.ends (hs : Visits pb x it s) (hfuel : it + fuel = pb.maxIterations)
    (hok : (iterate pb fuel it s).value = .ok e) : ∃ exit, Ends pb x exit e := by
  induction fuel generalizing it s with
  | zero =>
      obtain rfl : it = pb.maxIterations := hfuel
      cases hok
      exact ⟨.capped, .capped hs⟩
  | succ fuel ih =>
      have hit : it < pb.maxIterations := by omega
      rw [iterate] at hok
      cases hhalf : halfStep pb it s with
      | error _ => simp [hhalf, Noted.quiet] at hok
      | ok h =>
          simp only [hhalf] at hok
          by_cases habove : h.r.normAll ≤ pb.target
          · simp only [if_pos habove, Except.ok.injEq] at hok
            exact ⟨.halfNorm, hok ▸ .halfNorm hs hit hhalf habove⟩
          · simp only [if_neg habove] at hok
            cases hfull : fullStep pb it h with
            | error _ => simp [hfull] at hok
            | ok s' =>
                simp only [hfull] at hok
                by_cases habove' : s'.r.normAll ≤ pb.target
                · simp only [if_pos (Or.inl habove'), Except.ok.injEq] at hok
                  exact ⟨.fullNorm, hok ▸ .fullNorm hs hit hhalf habove hfull habove'⟩
                · by_cases hweight : (s'.omega == 0.0) = true
                  · simp only [if_pos (Or.inr hweight), Except.ok.injEq] at hok
                    exact ⟨.noWeight, hok ▸ .noWeight hs hit hhalf habove hfull habove' hweight⟩
                  · simp only [if_neg (not_or.2 ⟨habove', hweight⟩), Noted.after] at hok
                    exact ih (hs.next ⟨hit, hhalf, habove, hfull, habove', hweight⟩) (by omega) hok

/-- What an end returns is the result of the run. -/
lemma Ends.bicgstab_eq {exit : Exit} (he : Ends pb x exit e) : (bicgstab pb x).value = .ok e := by
  have hleft : ∀ {it : ℕ}, it < pb.maxIterations →
      pb.maxIterations - it = pb.maxIterations - (it + 1) + 1 := fun hit => by omega
  cases he with
  | halfNorm hs hit hhalf hnorm =>
      rw [hs.bicgstab_eq.2, hleft hit, iterate, hhalf]
      simp only [if_pos hnorm]
  | fullNorm hs hit hhalf habove hfull hnorm =>
      rw [hs.bicgstab_eq.2, hleft hit, iterate, hhalf]
      simp only [if_neg habove, hfull, if_pos (Or.inl hnorm)]
  | noWeight hs hit hhalf habove hfull habove' hweight =>
      rw [hs.bicgstab_eq.2, hleft hit, iterate, hhalf]
      simp only [if_neg habove, hfull, if_pos (Or.inr hweight)]
  | capped hs =>
      rw [hs.bicgstab_eq.2, Nat.sub_self]
      rfl

end Iterations

end Krylov

/-- An inner solve returns exactly what its iterations end with. -/
theorem bicgstab_ok_iff {K : Type} [Scalar K] {pb : Problem K} {x e : MeshField K} :
    (bicgstab pb x).value = .ok e ↔ ∃ exit, Krylov.Ends pb x exit e :=
  ⟨fun hok => Krylov.Visits.start.ends (Nat.zero_add _) hok, fun ⟨_, he⟩ => he.bicgstab_eq⟩

/-! ### The halves of an iteration -/

lemma shape_byDiagonal {K : Type} [Scalar K] (f inverse : MeshField K) :
    (byDiagonal f inverse).shape = f.shape :=
  List.foldlRecOn (motive := fun g : MeshField K => g.shape = f.shape) _ _ rfl fun _ hg _ _ => hg

namespace Krylov

variable {pb : Problem ℚ} {it : ℕ} {s h s' : Krylov ℚ}

lemma beq_zero_iff {a : ℚ} : (a == (0.0 : ℚ)) = true ↔ a = 0 := by
  rw [Exact.zero, beq_iff_eq]

/-- What the first half of an iteration does that does not break down. -/
structure HalfStepped (pb : Problem ℚ) (s h : Krylov ℚ) : Prop where
  rho_ne : h.rho ≠ 0
  shadow_ne : pb.rhs.dot h.v ≠ 0
  omega : h.omega = s.omega
  applied : ∃ y, y.shape = s.y.shape ∧ (h.y, h.v) = pb.action y s.v
  z : h.z = s.z
  t : h.t = s.t
  x : h.x = s.x.axpy h.alpha h.y 0
  r : h.r = s.r.axpy (-h.alpha) h.v 0

/-- What the second half of an iteration does that does not break down. -/
structure FullStepped (pb : Problem ℚ) (h s' : Krylov ℚ) : Prop where
  norm_ne : s'.t.dot s'.t ≠ 0
  rho : s'.rho = h.rho
  applied : ∃ z, z.shape = h.z.shape ∧ (s'.z, s'.t) = pb.action z h.t
  y : s'.y = h.y
  v : s'.v = h.v
  x : s'.x = h.x.axpy s'.omega s'.z 0
  r : s'.r = h.r.axpy (-s'.omega) s'.t 0

lemma halfStep_ok (hok : halfStep pb it s = .ok h) : HalfStepped pb s h := by
  rw [halfStep] at hok
  simp only at hok
  split_ifs at hok with hfinite hrho hfinite' hshadow
  cases hok
  exact
    { rho_ne := mt beq_zero_iff.2 hrho
      shadow_ne := mt beq_zero_iff.2 hshadow
      omega := rfl
      applied := ⟨byDiagonal (s.y.copy _ 0 0 s.x.ncomp 0) _, shape_byDiagonal .., rfl⟩
      z := rfl
      t := rfl
      x := rfl
      r := rfl }

lemma fullStep_ok (hok : fullStep pb it h = .ok s') : FullStepped pb h s' := by
  rw [fullStep] at hok
  simp only at hok
  split_ifs at hok with hfinite hnorm
  cases hok
  exact
    { norm_ne := mt beq_zero_iff.2 hnorm
      rho := rfl
      applied := ⟨byDiagonal (h.z.copy _ 0 0 h.x.ncomp 0) _, shape_byDiagonal .., rfl⟩
      y := rfl
      v := rfl
      x := rfl
      r := rfl }

end Krylov

/-! ### The residual of the recurrence -/

section Residual

variable {o : FiniteVolume ℚ} {level : ℕ} {b x y r w : MeshField ℚ} {a : ℚ} {pb : Problem ℚ} {it : ℕ}
  {s h s' : Krylov ℚ}

/-- A field with the boxes, owners and components of another one, and a halo of its own. -/
abbrev Beside (b : MeshField ℚ) (ghosts : ℕ) (f : MeshField ℚ) : Prop :=
  f.shape = ⟨b.layout, b.owners, b.ncomp, ghosts⟩

lemma Beside.layout {ghosts : ℕ} (hx : Beside b ghosts x) : x.layout = b.layout :=
  congrArg MeshField.Shape.layout hx

lemma Beside.ncomp {ghosts : ℕ} (hx : Beside b ghosts x) : x.ncomp = b.ncomp :=
  congrArg MeshField.Shape.ncomp hx

lemma Beside.ghosts {ghosts : ℕ} (hx : Beside b ghosts x) : x.ghosts = ghosts :=
  congrArg MeshField.Shape.ghosts hx

/-- On all cells and components, `r` is the right-hand side `b` less the image of `x` with a
homogeneous boundary. -/
def IsResidual (o : FiniteVolume ℚ) (level : ℕ) (b x r : MeshField ℚ) : Prop :=
  ∀ i < b.layout.count, ∀ p ∈ b.layout.box i, ∀ n < b.ncomp,
    r.get i p n = b.get i p n - (o.homogeneousImage level x).get i p n

/-- The right-hand side is the residual of a field of zeros. -/
lemma isResidual_zero (o : FiniteVolume ℚ) (level : ℕ) (b : MeshField ℚ) :
    IsResidual o level b (b.zeros b.ncomp 1) b := by
  intro i hi p hp n hn
  have hzero : (b.zeros b.ncomp 1).IsCombination (b.zeros b.ncomp 1) (-1) (b.zeros b.ncomp 1) := by
    refine ⟨rfl, rfl, rfl, rfl, fun j hj q hq m hm => ?_⟩
    have hget : (b.zeros b.ncomp 1).get j q m = 0 :=
      (MeshField.get_const (MeshField.stores_of_mem hj hq hm)).trans Exact.zero
    rw [hget, mul_zero, add_zero]
  have himage : (o.homogeneousImage level (b.zeros b.ncomp 1)).get i p n = 0 := by
    have hself : (o.homogeneousImage level (b.zeros b.ncomp 1)).get i p n
        = (o.homogeneousImage level (b.zeros b.ncomp 1)).get i p n
          + -1 * (o.homogeneousImage level (b.zeros b.ncomp 1)).get i p n := by
      rw [FiniteVolume.get_homogeneousImage (f := b.zeros b.ncomp 1) hi hp hn]
      exact FiniteVolume.image_combination hzero le_rfl le_rfl le_rfl hi hp hn
    linarith
  rw [himage, sub_zero]

/-- **A residual stays one** when the solution moves along a direction and the residual against the
image of the direction, by the same multiple. -/
lemma IsResidual.move (hres : IsResidual o level b x r) (hx : Beside b 1 x)
    (hr : r.shape = b.shape) (hy : Beside b 1 y) (hw : Beside b 0 w) :
    IsResidual o level b (x.axpy a (DiffusionOperator.apply o level y w true).1 0)
      (r.axpy (-a) (DiffusionOperator.apply o level y w true).2 0) := by
  intro i hi p hp n hn
  have hd : Beside b 1 (FiniteVolume.filled (o.levels.get level) y true) := hy
  have hrlayout : r.layout = b.layout := congrArg MeshField.Shape.layout hr
  have hrncomp : r.ncomp = b.ncomp := congrArg MeshField.Shape.ncomp hr
  let image (f : MeshField ℚ) : ℚ := o.image (o.levels.get level) i
    (fun q => (FiniteVolume.filled (o.levels.get level) f true).get i q n) p
  have hw' : (DiffusionOperator.apply o level y w true).2.get i p n = image y :=
    FiniteVolume.get_apply (hw.layout ▸ hi) (hw.layout ▸ hp) (hw.ncomp ▸ hn) (hy.ncomp ▸ hn)
  have hx' : (o.homogeneousImage level x).get i p n = image x :=
    FiniteVolume.get_homogeneousImage (hx.layout ▸ hi) (hx.layout ▸ hp) (hx.ncomp ▸ hn)
  let moved := x.axpy a (DiffusionOperator.apply o level y w true).1 0
  have hmoved : Beside b 1 moved := hx
  have hmoved' : (o.homogeneousImage level moved).get i p n = image x + a * image y := by
    have hcomb : moved.IsCombination x a (FiniteVolume.filled (o.levels.get level) y true) :=
      MeshField.isCombination_axpy (hd.layout.trans hx.layout.symm) (hd.ncomp.trans hx.ncomp.symm)
    rw [FiniteVolume.get_homogeneousImage (hmoved.layout ▸ hi) (hmoved.layout ▸ hp)
      (hmoved.ncomp ▸ hn), FiniteVolume.image_combination hcomb hmoved.ghosts.ge hx.ghosts.ge
      hd.ghosts.ge (hmoved.layout ▸ hi) (hmoved.layout ▸ hp) (hmoved.ncomp ▸ hn),
      FiniteVolume.filled_filled]
  have himage : (DiffusionOperator.apply o level y w true).2.ncomp = b.ncomp := hw.ncomp
  rw [MeshField.get_axpy_of_mem (hrlayout ▸ hi) (hrlayout ▸ hp) (hrncomp ▸ hn) (himage ▸ hn), hw',
    hmoved', hres i hi p hp n hn, hx']
  ring

/-- The problem of an inner solve on a level, for a right-hand side and the inverse of the
diagonal. -/
def homogeneousProblem (settings : SolveOptions) (o : FiniteVolume ℚ) (level : ℕ)
    (b inverse : MeshField ℚ) (target : ℚ) : Problem ℚ where
  level := level
  action x out := DiffusionOperator.apply o level x out true
  diagonalInverse := inverse
  rhs := b
  target := target
  verbose := 0 < settings.innerVerbose
  maxIterations := settings.maxInner

namespace Krylov

/-- The residual of a state is the one of its solution, and the fields of the state live next to the
right-hand side. -/
structure Tracks (o : FiniteVolume ℚ) (level : ℕ) (b : MeshField ℚ) (s : Krylov ℚ) : Prop where
  residual : IsResidual o level b s.x s.r
  shape_r : s.r.shape = b.shape
  shape_x : Beside b 1 s.x
  shape_y : Beside b 1 s.y
  shape_z : Beside b 1 s.z
  shape_v : Beside b 0 s.v
  shape_t : Beside b 0 s.t

variable {settings : SolveOptions} {inverse : MeshField ℚ} {target : ℚ}

lemma tracks_start : Tracks o level b
    (.start (homogeneousProblem settings o level b inverse target) (b.zeros b.ncomp 1)) where
  residual := isResidual_zero o level b
  shape_r := rfl
  shape_x := rfl
  shape_y := rfl
  shape_z := rfl
  shape_v := rfl
  shape_t := rfl

lemma Tracks.halfStep (hs : Tracks o level b s)
    (hstep : HalfStepped (homogeneousProblem settings o level b inverse target) s h) :
    Tracks o level b h := by
  obtain ⟨y, hy, happlied⟩ := hstep.applied
  obtain ⟨hy', hv⟩ := Prod.mk.inj happlied
  have hdirection : Beside b 1 y := hy.trans hs.shape_y
  have himage : Beside b 0 h.v := by
    rw [hv]
    exact hs.shape_v
  refine ⟨?_, ?_, ?_, ?_, hstep.z ▸ hs.shape_z, himage, hstep.t ▸ hs.shape_t⟩
  · rw [hstep.x, hstep.r, hy', hv]
    exact hs.residual.move hs.shape_x hs.shape_r hdirection hs.shape_v
  · rw [hstep.r]
    exact hs.shape_r
  · rw [hstep.x]
    exact hs.shape_x
  · rw [hy']
    exact hdirection

lemma Tracks.fullStep (hh : Tracks o level b h)
    (hstep : FullStepped (homogeneousProblem settings o level b inverse target) h s') :
    Tracks o level b s' := by
  obtain ⟨z, hz, happlied⟩ := hstep.applied
  obtain ⟨hz', ht⟩ := Prod.mk.inj happlied
  have hdirection : Beside b 1 z := hz.trans hh.shape_z
  have himage : Beside b 0 s'.t := by
    rw [ht]
    exact hh.shape_t
  refine ⟨?_, ?_, ?_, hstep.y ▸ hh.shape_y, ?_, hstep.v ▸ hh.shape_v, himage⟩
  · rw [hstep.x, hstep.r, hz', ht]
    exact hh.residual.move hh.shape_x hh.shape_r hdirection hh.shape_t
  · rw [hstep.r]
    exact hh.shape_r
  · rw [hstep.x]
    exact hh.shape_x
  · rw [hz']
    exact hdirection

/-- **In every visited state** the residual is the one of the solution, and the scalars that the
next iteration divides by are not zero. -/
lemma Visits.tracks {x : MeshField ℚ} (hx : x = b.zeros b.ncomp 1)
    (hs : Visits (homogeneousProblem settings o level b inverse target) x it s) :
    Tracks o level b s ∧ s.rho ≠ 0 ∧ s.omega ≠ 0 := by
  induction hs with
  | start =>
      have hone : (1.0 : ℚ) ≠ 0 := by rw [Exact.one]; exact one_ne_zero
      exact ⟨hx ▸ tracks_start, hone, hone⟩
  | next _ hstep ih =>
      obtain ⟨htracks, -, -⟩ := ih
      have hhalf := halfStep_ok hstep.half
      have hfull := fullStep_ok hstep.full
      refine ⟨(htracks.halfStep hhalf).fullStep hfull, ?_, mt beq_zero_iff.2 hstep.weight⟩
      rw [hfull.rho]
      exact hhalf.rho_ne

/-- A solution that the iterations end with after passing a test has a residual that passes it. -/
lemma Ends.abs_le {exit : Exit} {e : MeshField ℚ}
    (he : Ends (homogeneousProblem settings o level b inverse target) (b.zeros b.ncomp 1) exit e)
    (hexit : exit = .halfNorm ∨ exit = .fullNorm) :
    Beside b 1 e ∧ 0 ≤ target ∧ ∀ i < b.layout.count, ∀ p ∈ b.layout.box i, ∀ n < b.ncomp,
      |b.get i p n - (o.homogeneousImage level e).get i p n| ≤ target := by
  have hpassed : ∀ {s : Krylov ℚ}, Tracks o level b s → s.r.normAll ≤ target →
      Beside b 1 s.x ∧ 0 ≤ target ∧ ∀ i < b.layout.count, ∀ p ∈ b.layout.box i, ∀ n < b.ncomp,
        |b.get i p n - (o.homogeneousImage level s.x).get i p n| ≤ target := by
    intro s hs hnorm
    obtain ⟨hzero, hall⟩ := MeshField.normAll_le_iff.1 hnorm
    refine ⟨hs.shape_x, Exact.zero ▸ hzero, fun i hi p hp n hn => ?_⟩
    have hlayout : s.r.layout = b.layout := congrArg MeshField.Shape.layout hs.shape_r
    have hncomp : s.r.ncomp = b.ncomp := congrArg MeshField.Shape.ncomp hs.shape_r
    rw [← hs.residual i hi p hp n hn]
    exact hall n (hncomp ▸ hn) i (hlayout ▸ hi) p (hlayout ▸ hp)
  cases he with
  | halfNorm hs _ hhalf hnorm =>
      exact hpassed ((hs.tracks rfl).1.halfStep (halfStep_ok hhalf)) hnorm
  | fullNorm hs _ hhalf _ hfull hnorm =>
      exact hpassed (((hs.tracks rfl).1.halfStep (halfStep_ok hhalf)).fullStep (fullStep_ok hfull))
        hnorm
  | noWeight => exact absurd hexit (by decide)
  | capped => exact absurd hexit (by decide)

end Krylov

end Residual

end Inner

/-! ### The cycles of a level -/

open MeshDiffusion.Inner MeshDiffusion.Inner.Krylov

namespace ResidualCorrection

variable {s : ResidualCorrection} {o : FiniteVolume ℚ} {level cycle : ℕ} {target : ℚ}
  {start sol rhs r e : MeshField ℚ}

/-- The solutions and residuals that the cycles of a level start from, with the number of the
cycle. -/
inductive Cycled (s : ResidualCorrection) (o : FiniteVolume ℚ) (level : ℕ)
    (start rhs : MeshField ℚ) (target : ℚ) : ℕ → MeshField ℚ → MeshField ℚ → Prop where
  | start : Cycled s o level start rhs target 0 (residual o level start rhs).1
      (residual o level start rhs).2
  | next {cycle : ℕ} {sol r e : MeshField ℚ} : Cycled s o level start rhs target cycle sol r →
      cycle < s.settings.maxCycles → ¬r.normAll ≤ target →
      (s.correction o level sol (diagonalInverse o level start) r target).value = .ok e →
      Cycled s o level start rhs target (cycle + 1) (residual o level (sol.axpy 1.0 e 0) rhs).1
        (residual o level (sol.axpy 1.0 e 0) rhs).2

/-- One cycle, with another check to follow. -/
lemma cycles_succ {inverse : MeshField ℚ} {fuel : ℕ} (habove : ¬r.normAll ≤ target)
    (hinner : (s.correction o level sol inverse r target).value = .ok e) :
    (s.cycles o level rhs inverse target (fuel + 1) cycle sol r).value
      = (s.cycles o level rhs inverse target fuel (cycle + 1)
          (residual o level (sol.axpy 1.0 e 0) rhs).1
          (residual o level (sol.axpy 1.0 e 0) rhs).2).value := by
  have hfinite : Scalar.isFinite r.normAll = true := rfl
  rw [cycles]
  simp only [hfinite, Bool.not_true, Bool.false_eq_true, if_false, if_neg habove, hinner, Noted.after]

/-- A level is done at the first check that it passes. -/
lemma cycles_of_le {inverse : MeshField ℚ} {fuel : ℕ} (hle : r.normAll ≤ target) :
    (s.cycles o level rhs inverse target fuel cycle sol r).value
      = ⟨sol, .ok (cycle, r.normAll)⟩ := by
  have hfinite : Scalar.isFinite r.normAll = true := rfl
  cases fuel with
  | zero => simp only [cycles, if_pos hle, Noted.quiet]
  | succ fuel => simp only [cycles, hfinite, Bool.not_true, Bool.false_eq_true, if_false, if_pos hle]

namespace Cycled

/-- The cycles that are left are those of the whole level. -/
lemma runLevel_eq (h : Cycled s o level start rhs target cycle sol r) :
    cycle ≤ s.settings.maxCycles ∧ (s.runLevel o level start rhs target).value
      = (s.cycles o level rhs (diagonalInverse o level start) target
          (s.settings.maxCycles - cycle) cycle sol r).value := by
  induction h with
  | start => exact ⟨Nat.zero_le _, rfl⟩
  | @next cycle sol r e _ hcycle habove hinner ih =>
      have hfuel : s.settings.maxCycles - cycle = s.settings.maxCycles - (cycle + 1) + 1 := by omega
      refine ⟨hcycle, ih.2.trans ?_⟩
      rw [hfuel, cycles_succ habove hinner]

/-- A cycle starts from a solution on the boxes of the level, and from its residual. -/
lemma residual_eq (h : Cycled s o level start rhs target cycle sol r) :
    sol.shape = start.shape ∧ r = (residual o level sol rhs).2 := by
  induction h with
  | start => exact ⟨rfl, congrArg Prod.snd (residual_congr (residual_fst_agrees ..)).symm⟩
  | next _ _ _ _ ih =>
      exact ⟨ih.1, congrArg Prod.snd (residual_congr (residual_fst_agrees ..)).symm⟩

end Cycled

/-- Where the inner solve ends by passing a test, the level is done at its next check. -/
lemma Cycled.runLevel_of_ends {exit : Exit} (h : Cycled s o level start rhs target cycle sol r)
    (hstart : 1 ≤ start.ghosts) (hcycle : cycle < s.settings.maxCycles)
    (habove : ¬r.normAll ≤ target) (hmethod : s.settings.innerMethod ≠ .smoother)
    (he : Ends (homogeneousProblem s.settings o level r (diagonalInverse o level start) target)
      (r.zeros r.ncomp 1) exit e) (hexit : exit = .halfNorm ∨ exit = .fullNorm) :
    (residual o level (sol.axpy 1.0 e 0) rhs).2.normAll ≤ target ∧
      (s.runLevel o level start rhs target).value = ⟨(residual o level (sol.axpy 1.0 e 0) rhs).1,
        .ok (cycle + 1, (residual o level (sol.axpy 1.0 e 0) rhs).2.normAll)⟩ := by
  obtain ⟨hshape, rfl⟩ := h.residual_eq
  have hsol : 1 ≤ sol.ghosts := by
    have hghosts : sol.ghosts = start.ghosts := congrArg MeshField.Shape.ghosts hshape
    omega
  obtain ⟨hbeside, htarget, hle⟩ := he.abs_le hexit
  have hlayout : e.layout = sol.layout := hbeside.layout
  have hncomp : e.ncomp = sol.ncomp := hbeside.ncomp
  have hnext : (residual o level (sol.axpy 1.0 e 0) rhs).2.normAll ≤ target := by
    refine MeshField.normAll_le_iff.2 ⟨Exact.zero.trans_le htarget, fun n hn i hi p hp => ?_⟩
    obtain ⟨hi, hp, hn⟩ : i < sol.layout.count ∧ p ∈ sol.layout.box i ∧ n < sol.ncomp :=
      ⟨hi, hp, hn⟩
    rw [get_residual_axpy hlayout hncomp hsol hbeside.ghosts.ge hi hp hn]
    exact hle i hi p hp n hn
  have hinner : (s.correction o level sol (diagonalInverse o level start)
      (residual o level sol rhs).2 target).value = .ok e := by
    have hok := he.bicgstab_eq
    rw [correction]
    cases hmethod' : s.settings.innerMethod with
    | smoother => exact absurd hmethod' hmethod
    | default => exact hok
    | hypre => exact hok
  have hfuel : s.settings.maxCycles - cycle = s.settings.maxCycles - (cycle + 1) + 1 := by omega
  refine ⟨hnext, h.runLevel_eq.2.trans ?_⟩
  rw [hfuel, cycles_succ habove hinner, cycles_of_le hnext]

/-- **The inner solve keeps a true residual.** In exact arithmetic, for every right-hand side `b`,
from zero:

* in every state that an iteration starts from, and after both of its halves, the residual of the
  recurrence is `b` less the image of the solution on all cells and components, and nothing that is
  divided by is zero: `rho` and `omega` of the state before, the product of `b` and the image of the
  first direction, and the norm of the image of the second one;
* the solve returns exactly what its iterations end with;
* if it ends by passing a test, then `b` less the image of what it returns is at most the target on
  all cells and components;
* and if `b` is the residual that a cycle of a level starts from, then the residual after the
  correction is at most the target as well, and the level is done at its next check. -/
theorem bicgstab_residual (settings : SolveOptions) (o : FiniteVolume ℚ) (level : ℕ)
    (b inverse : MeshField ℚ) (target : ℚ) :
    let pb := homogeneousProblem settings o level b inverse target
    let zero := b.zeros b.ncomp 1
    (∀ it s, Visits pb zero it s →
      IsResidual o level b s.x s.r ∧ s.rho ≠ 0 ∧ s.omega ≠ 0 ∧
      ∀ h, halfStep pb it s = .ok h →
        b.dot h.v ≠ 0 ∧ IsResidual o level b h.x h.r ∧
        ∀ s', fullStep pb it h = .ok s' →
          s'.t.dot s'.t ≠ 0 ∧ IsResidual o level b s'.x s'.r) ∧
    (∀ e, (bicgstab pb zero).value = .ok e ↔ ∃ exit, Ends pb zero exit e) ∧
    ∀ exit e, Ends pb zero exit e → exit = .halfNorm ∨ exit = .fullNorm →
      (∀ i < b.layout.count, ∀ p ∈ b.layout.box i, ∀ n < b.ncomp,
        |b.get i p n - (o.homogeneousImage level e).get i p n| ≤ target) ∧
      ∀ start rhs cycle sol, Cycled ⟨settings⟩ o level start rhs target cycle sol b →
        1 ≤ start.ghosts → cycle < settings.maxCycles → ¬b.normAll ≤ target →
        settings.innerMethod ≠ .smoother → inverse = diagonalInverse o level start →
        let next := residual o level (sol.axpy 1.0 e 0) rhs
        next.2.normAll ≤ target ∧
          ((⟨settings⟩ : ResidualCorrection).runLevel o level start rhs target).value
            = ⟨next.1, .ok (cycle + 1, next.2.normAll)⟩ := by
  intro pb zero
  refine ⟨fun it s hs => ?_, fun e => bicgstab_ok_iff, fun exit e he hexit => ⟨?_, ?_⟩⟩
  · obtain ⟨htracks, hrho, homega⟩ := hs.tracks rfl
    refine ⟨htracks.residual, hrho, homega, fun h hhalf => ?_⟩
    have hstep := halfStep_ok hhalf
    have hh := htracks.halfStep hstep
    refine ⟨hstep.shadow_ne, hh.residual, fun s' hfull => ?_⟩
    have hstep' := fullStep_ok hfull
    exact ⟨hstep'.norm_ne, (hh.fullStep hstep').residual⟩
  · exact (he.abs_le hexit).2.2
  · rintro start rhs cycle sol hcycled hstart hcycle habove hmethod rfl
    exact hcycled.runLevel_of_ends hstart hcycle habove hmethod he hexit

/-- The operator `phi - div (grad phi)` on two cells, without flux through the boundary. -/
def exactPair : FiniteVolume ℚ :=
  { FiniteVolume.unbound with
    levels := .ofFn 1 fun _ =>
      { geometry := ⟨pair, .const 0, ⟨2, 1, 1⟩, .const false⟩
        mass := .const ⟨#[pair]⟩ (.single 1) 1 0 1
        viscosity := .ofFn fun a => .const ⟨#[pair.faces a]⟩ (.single 1) 1 0 1
        obstacleViscosity := .const ⟨#[pair]⟩ (.single 1) 1 0 1
        boundary? := none
        covered? := none }
    boundary := .const .neumann
    alpha := 1 }

/-- One on the first of two cells. -/
def exactSource : MeshField ℚ :=
  .ofFn ⟨#[pair]⟩ (.single 1) 1 0 fun _ p _ => if p.x = 0 then 1 else 0

/-- On two cells with a source on the first one and a target of one half, the first half step passes
its test, and the level is done after one cycle. -/
theorem bicgstab_residual_pair :
    let start : MeshField ℚ := .const ⟨#[pair]⟩ (.single 1) 1 1 0
    let b := (residual exactPair 0 start exactSource).2
    let inverse := diagonalInverse exactPair 0 start
    ∃ e, (bicgstab (homogeneousProblem {} exactPair 0 b inverse (1 / 2)) (b.zeros b.ncomp 1)).value
        = .ok e ∧
      (∀ p ∈ pair, |b.get 0 p 0 - (exactPair.homogeneousImage 0 e).get 0 p 0| ≤ 1 / 2) ∧
      ∃ x, (({} : ResidualCorrection).runLevel exactPair 0 start exactSource (1 / 2)).value.result
        = .ok (1, x) := by
  intro start b inverse
  let pb := homogeneousProblem {} exactPair 0 b inverse (1 / 2)
  let first := Krylov.start pb (b.zeros b.ncomp 1)
  have hhalf : (halfStep pb 0 first).isOk = true := by decide +kernel
  obtain ⟨h, hok⟩ := exists_of_isOk hhalf
  have hpassed : ((halfStep pb 0 first).toOption.all fun h => decide (h.r.normAll ≤ 1 / 2))
      = true := by decide +kernel
  rw [hok] at hpassed
  have habove : ¬b.normAll ≤ 1 / 2 := by decide +kernel
  have hends : Ends pb (b.zeros b.ncomp 1) .halfNorm h.x :=
    .halfNorm .start (by decide) hok (of_decide_eq_true hpassed)
  obtain ⟨-, hreturns, hpasses⟩ := bicgstab_residual {} exactPair 0 b inverse (1 / 2)
  obtain ⟨hle, hlevel⟩ := hpasses _ _ hends (.inl rfl)
  obtain ⟨-, hrun⟩ := hlevel start exactSource 0 _ .start le_rfl (by decide) habove (by decide) rfl
  refine ⟨h.x, (hreturns _).2 ⟨_, hends⟩, fun p hp => ?_, _, congrArg LevelRun.result hrun⟩
  exact hle 0 Nat.one_pos p hp 0 Nat.one_pos

end ResidualCorrection

end MeshDiffusion
