import Mathlib.Algebra.MvPolynomial.PDeriv
import Mathlib.RingTheory.Polynomial.Basic
import Mathlib.Tactic
import MeshDiffusion.Index.Point

/-!
Polynomial profiles along lines.

A profile is a polynomial in the three coordinates. Along a line parallel to an axis it is a
polynomial in the distance alone (`Profile.line`), whose derivatives are those of the profile along
the axis (`Profile.derivative_line`) and whose degree is no larger (`Profile.natDegree_line_le`). So
up to degree two its values on the line are given by its value, slope and curvature at one point of
it (`Profile.value_set`), and up to degree one there is no curvature (`Profile.curvature_eq_zero`).
-/

namespace MeshDiffusion

instance : Fintype Axis := .ofList Axis.all Axis.mem_all

/-- A sum over the axes, axis by axis. -/
lemma Axis.sum_eq (g : Axis → ℚ) : ∑ a, g a = g .x + g .y + g .z := by
  have hlist : ∑ a, g a = (Axis.all.map g).sum := List.sum_toFinset g (by decide)
  rw [hlist, Axis.all, List.map_cons, List.map_cons, List.map_cons, List.map_nil, List.sum_cons,
    List.sum_cons, List.sum_cons, List.sum_nil, add_zero, add_assoc]

/-- A polynomial in the three coordinates. -/
abbrev Profile := MvPolynomial Axis ℚ

namespace Profile

variable {P : Profile} {x : Triple ℚ} {a : Axis} {t : ℚ}

/-- The value of a profile at a place. -/
noncomputable def value (P : Profile) (x : Triple ℚ) : ℚ := MvPolynomial.eval x.get P

/-- The first derivative along an axis at a place. -/
noncomputable def slope (P : Profile) (a : Axis) (x : Triple ℚ) : ℚ :=
  value (MvPolynomial.pderiv a P) x

/-- The second derivative along an axis at a place. -/
noncomputable def curvature (P : Profile) (a : Axis) (x : Triple ℚ) : ℚ :=
  value (MvPolynomial.pderiv a (MvPolynomial.pderiv a P)) x

/-- The sum of the second derivatives along all axes. -/
noncomputable def laplacian (P : Profile) : Profile :=
  ∑ a, MvPolynomial.pderiv a (MvPolynomial.pderiv a P)

lemma value_laplacian : P.laplacian.value x = ∑ a, P.curvature a x :=
  map_sum (MvPolynomial.eval x.get) _ _

/-! ### Lines parallel to an axis -/

/-- A profile along the line through a place and parallel to an axis, as a polynomial in the distance
from the place. -/
noncomputable def line (P : Profile) (x : Triple ℚ) (a : Axis) : Polynomial ℚ :=
  MvPolynomial.aeval
    (fun b => Polynomial.C (x.get b) + if b = a then Polynomial.X else 0) P

/-- On the line, the polynomial takes the values of the profile. -/
lemma eval_line : (P.line x a).eval t = P.value (x.set a (x.get a + t)) := by
  induction P using MvPolynomial.induction_on with
  | C c => simp [line, value]
  | add P Q hP hQ =>
      simp only [line, value, map_add, Polynomial.eval_add] at hP hQ ⊢
      rw [hP, hQ]
  | mul_X P b hP =>
      simp only [line, value, map_mul, MvPolynomial.aeval_X, MvPolynomial.eval_X,
        Polynomial.eval_mul] at hP ⊢
      rw [hP, Triple.get_set]
      by_cases hb : b = a
      · simp [hb]
      · simp [hb]

lemma eval_line_zero : (P.line x a).eval 0 = P.value x := by
  rw [eval_line, add_zero, Triple.set_get]

/-- The derivative along the line is that along the axis. -/
lemma derivative_line :
    (P.line x a).derivative = line (MvPolynomial.pderiv a P) x a := by
  induction P using MvPolynomial.induction_on with
  | C c => simp [line]
  | add P Q hP hQ =>
      simp only [line, map_add] at hP hQ ⊢
      rw [hP, hQ]
  | mul_X P b hP =>
      simp only [line, map_mul, MvPolynomial.aeval_X, Polynomial.derivative_mul] at hP ⊢
      rw [hP, Derivation.leibniz, MvPolynomial.pderiv_X]
      by_cases hb : b = a
      · simp [hb, mul_comm, add_comm]
      · simp [hb, mul_comm, add_comm]

/-- The degree on the line is no larger than that in space. -/
lemma natDegree_line_le : (P.line x a).natDegree ≤ P.totalDegree := by
  have hcoord : ∀ b, (Polynomial.C (x.get b)
      + if b = a then Polynomial.X else 0 : Polynomial ℚ).natDegree ≤ 1 := by
    intro b
    split_ifs
    · exact Polynomial.natDegree_C_add.trans_le Polynomial.natDegree_X_le
    · simp
  have hdegree := MvPolynomial.aeval_natDegree_le P le_rfl _ hcoord
  rwa [mul_one] at hdegree

/-! ### Low degrees -/

/-- A polynomial of degree at most two from its value and its derivatives at zero. -/
lemma eval_eq_of_natDegree_le_two {q : Polynomial ℚ} (hq : q.natDegree ≤ 2) :
    q.eval t = q.eval 0 + q.derivative.eval 0 * t + q.derivative.derivative.eval 0 / 2 * t ^ 2 := by
  have hvalue : q.eval 0 = q.coeff 0 := (Polynomial.coeff_zero_eq_eval_zero q).symm
  have hslope : q.derivative.eval 0 = q.coeff 1 := by
    rw [← Polynomial.coeff_zero_eq_eval_zero, Polynomial.coeff_derivative]
    norm_num
  have hcurvature : q.derivative.derivative.eval 0 = 2 * q.coeff 2 := by
    rw [← Polynomial.coeff_zero_eq_eval_zero, Polynomial.coeff_derivative,
      Polynomial.coeff_derivative]
    norm_num
    ring
  rw [Polynomial.eval_eq_sum_range' (Nat.lt_succ_of_le hq), hvalue, hslope, hcurvature]
  simp only [Finset.sum_range_succ, Finset.sum_range_zero]
  ring

/-- **Up to degree two, a profile on a line comes from its value, slope and curvature at one of its
points.** -/
theorem value_set (hP : P.totalDegree ≤ 2) :
    P.value (x.set a (x.get a + t))
      = P.value x + P.slope a x * t + P.curvature a x / 2 * t ^ 2 := by
  have hdegree : (P.line x a).natDegree ≤ 2 := natDegree_line_le.trans hP
  rw [← eval_line, eval_eq_of_natDegree_le_two hdegree, derivative_line, derivative_line,
    eval_line_zero, eval_line_zero, eval_line_zero, slope, curvature]

/-- Up to degree one, a profile has no curvature. -/
lemma curvature_eq_zero (hP : P.totalDegree ≤ 1) : P.curvature a x = 0 := by
  have hdegree : (P.line x a).natDegree < 2 := Nat.lt_succ_of_le (natDegree_line_le.trans hP)
  rw [curvature, ← eval_line_zero, ← derivative_line, ← derivative_line,
    ← Polynomial.coeff_zero_eq_eval_zero, Polynomial.coeff_derivative, Polynomial.coeff_derivative,
    Polynomial.coeff_eq_zero_of_natDegree_lt hdegree, zero_mul, zero_mul]

end Profile

end MeshDiffusion
