import Mathlib.Tactic
import MeshDiffusion.Proofs.Arith.Comparison

/-!
Exact arithmetic.

The rational numbers as numbers to compute with: no operation rounds and every number is finite.
Properties of an equation that hold up to rounding are stated in them.

* the instance of `Scalar` for `ℚ`, and of `Scalar.LawfulOrder`;
* `Exact.maxNum_eq` and the literals `Exact.zero`, `Exact.negOne`, … translate the operations of
  `Scalar` to those of a linearly ordered field.
-/

namespace MeshDiffusion

instance : Scalar ℚ where
  decLt := inferInstance
  decLe := inferInstance
  ofInt n := n
  abs a := |a|
  isFinite _ := true

namespace Exact

lemma isNaN_eq (a : ℚ) : Scalar.isNaN a = false := by simp [Scalar.isNaN]

lemma maxNum_eq (a b : ℚ) : Scalar.maxNum a b = max a b := by
  rw [Scalar.maxNum, isNaN_eq, if_neg (by simp)]
  split_ifs with h
  · exact (max_eq_right h.le).symm
  · exact (max_eq_left (not_lt.1 h)).symm

lemma ofInt_eq (n : ℤ) : (Scalar.ofInt n : ℚ) = n := rfl

lemma zero : (0.0 : ℚ) = 0 := by norm_num

lemma one : (1.0 : ℚ) = 1 := by norm_num

lemma two : (2.0 : ℚ) = 2 := by norm_num

lemma three : (3.0 : ℚ) = 3 := by norm_num

lemma eight : (8.0 : ℚ) = 8 := by norm_num

lemma nine : (9.0 : ℚ) = 9 := by norm_num

lemma half : (0.5 : ℚ) = 1 / 2 := by norm_num

end Exact

/-- Exact numbers are ordered as a stopping test needs it. -/
instance : Scalar.LawfulOrder ℚ where
  number_of_le _ := ⟨Exact.isNaN_eq _, Exact.isNaN_eq _⟩
  le_trans := le_trans
  le_total _ _ := le_total _ _
  lt_iff := by simp [Exact.isNaN_eq]
  number_zero := Exact.isNaN_eq _
  isNaN_abs _ := (Exact.isNaN_eq _).trans (Exact.isNaN_eq _).symm
  zero_le_abs _ := by
    rw [Exact.zero]
    exact abs_nonneg _
  isFinite_zero := rfl
  number_of_isFinite _ := Exact.isNaN_eq _
  isFinite_abs _ := rfl
  isFinite_of_between _ _ _ _ := rfl

end MeshDiffusion
