import Mathlib.Tactic
import MeshDiffusion.Field.Reduction

/-!
Comparison of numbers some of which are not numbers.

`Scalar.LawfulOrder K` states what a stopping test needs of `K`: the order is total and transitive
on what is a number and false on what is not, absolute values are numbers from zero on, and what
lies between two finite numbers is finite. Nothing is asked of the four operations.

* `Scalar.le_maxNum_left`, `Scalar.le_maxNum_right`: the larger of two numbers is above both;
* `MeshField.enlarge_le_iff`, `MeshField.foldl_enlarge_le_iff`: a bound enlarged along a list is at
  most `t` exactly when it was and every entry is, which excludes entries that are not numbers;
* `MeshField.normAll_le_iff`: a norm is at most `t` exactly when every absolute value is;
* `Scalar.IsLargest`, the largest of finitely many values, from the fold that finds it
  (`Scalar.isLargest_foldl`).
-/

namespace MeshDiffusion

namespace Scalar

/-- The laws of comparison, absolute value and finiteness that exact numbers and doubles share. -/
class LawfulOrder (K : Type) [Scalar K] : Prop where
  number_of_le : ∀ {a b : K}, a ≤ b → isNaN a = false ∧ isNaN b = false
  le_trans : ∀ {a b c : K}, a ≤ b → b ≤ c → a ≤ c
  le_total : ∀ {a b : K}, isNaN a = false → isNaN b = false → a ≤ b ∨ b ≤ a
  lt_iff : ∀ {a b : K}, a < b ↔ isNaN a = false ∧ isNaN b = false ∧ ¬b ≤ a
  number_zero : isNaN (0.0 : K) = false
  isNaN_abs : ∀ a : K, isNaN (abs a) = isNaN a
  zero_le_abs : ∀ {a : K}, isNaN a = false → (0.0 : K) ≤ abs a
  isFinite_zero : isFinite (0.0 : K) = true
  number_of_isFinite : ∀ {a : K}, isFinite a = true → isNaN a = false
  isFinite_abs : ∀ a : K, isFinite (abs a) = isFinite a
  isFinite_of_between : ∀ {a x b : K}, isFinite a = true → isFinite b = true → a ≤ x → x ≤ b →
    isFinite x = true

export LawfulOrder (number_of_le lt_iff number_zero isNaN_abs zero_le_abs isFinite_zero
  number_of_isFinite isFinite_abs isFinite_of_between)

variable {K : Type} [Scalar K] [LawfulOrder K] {a b t : K}

/-! ### The larger of two numbers -/

lemma le_self (h : isNaN a = false) : a ≤ a := (LawfulOrder.le_total h h).elim id id

lemma le_of_not_le (ha : isNaN a = false) (hb : isNaN b = false) (h : ¬a ≤ b) : b ≤ a :=
  (LawfulOrder.le_total ha hb).resolve_left h

lemma le_maxNum_left (ha : isNaN a = false) : a ≤ maxNum a b := by
  rw [maxNum, if_neg (by simp [ha])]
  split_ifs with h
  · obtain ⟨-, hb, hba⟩ := lt_iff.1 h
    exact le_of_not_le hb ha hba
  · exact le_self ha

lemma le_maxNum_right (hb : isNaN b = false) : b ≤ maxNum a b := by
  rw [maxNum]
  split_ifs with ha h
  · exact le_self hb
  · exact le_self hb
  · rw [Bool.not_eq_true] at ha
    exact not_not.1 fun hba => h (lt_iff.2 ⟨ha, hb, hba⟩)

omit [LawfulOrder K] in
lemma maxNum_eq (a b : K) : maxNum a b = a ∨ maxNum a b = b := by
  rw [maxNum]
  split_ifs <;> simp

/-- Zero, or above it. -/
def ZeroOrAbove (a : K) : Prop := a = 0.0 ∨ (0.0 : K) < a

lemma ZeroOrAbove.zero_le (h : ZeroOrAbove a) : (0.0 : K) ≤ a := by
  rcases h with rfl | h
  · exact le_self number_zero
  · obtain ⟨h0, ha, hle⟩ := lt_iff.1 h
    exact le_of_not_le ha h0 hle

/-- The larger of two numbers is the first one, or lies above it. -/
lemma maxNum_zeroOrAbove (ha : ZeroOrAbove a) : ZeroOrAbove (maxNum a b) := by
  rw [maxNum, if_neg (by simp [(number_of_le ha.zero_le).2])]
  split_ifs with h
  · obtain ⟨-, hb, hba⟩ := lt_iff.1 h
    refine .inr (lt_iff.2 ⟨number_zero, hb, fun hb0 => hba ?_⟩)
    exact LawfulOrder.le_trans hb0 ha.zero_le
  · exact ha

/-! ### The largest of finitely many values -/

/-- The largest of the first `n` values, zero if there are none. -/
def IsLargest (v : ℕ → K) (n : ℕ) (x : K) : Prop :=
  (∀ l < n, v l ≤ x) ∧ (n = 0 ∧ x = 0.0 ∨ ∃ l < n, v l = x)

/-- A fold of `maxNum` over numbers from zero on is above its start and its entries, and one of
them. -/
private lemma foldl_maxNum {vs : List K} (hvs : ∀ v ∈ vs, ZeroOrAbove v) :
    ∀ {b : K}, ZeroOrAbove b →
      b ≤ vs.foldl maxNum b ∧ (∀ v ∈ vs, v ≤ vs.foldl maxNum b) ∧
        (vs.foldl maxNum b = b ∨ vs.foldl maxNum b ∈ vs) := by
  induction vs with
  | nil => exact fun hb => ⟨le_self (number_of_le hb.zero_le).2, by simp, .inl rfl⟩
  | cons v vs ih =>
      intro b hb
      obtain ⟨hle, hall, hmem⟩ := ih (fun w hw => hvs w (by simp [hw])) (maxNum_zeroOrAbove hb)
      have hv := (number_of_le (hvs v (by simp)).zero_le).2
      have hbn := (number_of_le hb.zero_le).2
      refine ⟨LawfulOrder.le_trans (le_maxNum_left hbn) hle, ?_, ?_⟩
      · intro w hw
        rcases List.mem_cons.1 hw with rfl | hw
        · exact LawfulOrder.le_trans (le_maxNum_right hv) hle
        · exact hall w hw
      · rcases hmem with hmem | hmem
        · rcases maxNum_eq b v with h | h
          · exact .inl (hmem.trans h)
          · refine .inr (List.mem_cons.2 (.inl ?_))
            rw [List.foldl_cons, hmem, h]
        · exact .inr (List.mem_cons_of_mem _ hmem)

/-- The fold from zero over values from zero on finds the largest one. -/
theorem isLargest_foldl {v : ℕ → K} {n : ℕ} (hv : ∀ l < n, ZeroOrAbove (v l)) :
    IsLargest v n (((List.range n).map v).foldl maxNum 0.0) := by
  have hvs : ∀ w ∈ (List.range n).map v, ZeroOrAbove w := by
    intro w hw
    obtain ⟨l, hl, rfl⟩ := List.mem_map.1 hw
    exact hv l (List.mem_range.1 hl)
  obtain ⟨-, hall, hmem⟩ := foldl_maxNum hvs (.inl rfl)
  refine ⟨fun l hl => hall _ (List.mem_map_of_mem (List.mem_range.2 hl)), ?_⟩
  rcases Nat.eq_zero_or_pos n with rfl | hn
  · exact .inl ⟨rfl, rfl⟩
  refine .inr ?_
  rcases hmem with hmem | hmem
  · -- the fold stayed at zero, so the first value is no larger, and it is not below zero
    refine ⟨0, hn, ?_⟩
    rcases hv 0 hn with h0 | h0
    · rw [h0, hmem]
    · have hle := hall _ (List.mem_map_of_mem (List.mem_range.2 hn))
      rw [hmem] at hle
      exact absurd hle (lt_iff.1 h0).2.2
  · obtain ⟨l, hl, hle⟩ := List.mem_map.1 hmem
    exact ⟨l, List.mem_range.1 hl, hle⟩

end Scalar

/-! ### Norms -/

namespace MeshField

open Scalar

variable {K : Type} [Scalar K] [LawfulOrder K] {a b t : K} {f : MeshField K}

lemma enlarge_le_iff : enlarge a b ≤ t ↔ a ≤ t ∧ b ≤ t := by
  rw [enlarge]
  split_ifs with ha hb
  · have hat : ¬a ≤ t := fun h => by simp [(number_of_le h).1] at ha
    simp [hat]
  · have hbt : ¬b ≤ t := fun h => by simp [(number_of_le h).1] at hb
    simp [hbt]
  · rw [Bool.not_eq_true] at ha hb
    constructor
    · exact fun h => ⟨LawfulOrder.le_trans (le_maxNum_left ha) h,
        LawfulOrder.le_trans (le_maxNum_right hb) h⟩
    · rintro ⟨hat, hbt⟩
      rcases maxNum_eq a b with h | h <;> rw [h] <;> assumption

lemma foldl_enlarge_le_iff (vs : List K) :
    vs.foldl enlarge b ≤ t ↔ b ≤ t ∧ ∀ v ∈ vs, v ≤ t := by
  induction vs generalizing b with
  | nil => simp
  | cons v vs ih => rw [List.foldl_cons, ih, enlarge_le_iff, List.forall_mem_cons, and_assoc]

omit [LawfulOrder K] in
lemma mem_validAll {n : ℕ} {v : K} :
    v ∈ f.validAll n ↔ ∃ i < f.layout.count, ∃ p ∈ f.layout.box i, f.get i p n = v := by
  simp [validAll, valid]

/-- A norm is at most `t` exactly when every absolute value is. -/
theorem normAll_le_iff :
    f.normAll ≤ t ↔ (0.0 : K) ≤ t ∧ ∀ n < f.ncomp, ∀ i < f.layout.count, ∀ p ∈ f.layout.box i,
      Scalar.abs (f.get i p n) ≤ t := by
  have hnorm : ∀ n, f.norm n ≤ t ↔ (0.0 : K) ≤ t ∧ ∀ i < f.layout.count, ∀ p ∈ f.layout.box i,
      Scalar.abs (f.get i p n) ≤ t := by
    intro n
    rw [norm, foldl_enlarge_le_iff]
    simp only [List.forall_mem_map, mem_validAll]
    aesop
  rw [normAll, foldl_enlarge_le_iff]
  simp only [List.forall_mem_map, List.mem_range, hnorm]
  aesop

/-- Enlarging keeps a bound at zero or above, unless it loses the number. -/
private lemma enlarge_zeroOrAbove (ha : isNaN a = false → ZeroOrAbove a)
    (h : isNaN (enlarge a b) = false) : ZeroOrAbove (enlarge a b) := by
  rw [enlarge] at h ⊢
  split_ifs at h ⊢ with han hbn
  · exact ha h
  · rw [hbn] at h
    cases h
  · exact maxNum_zeroOrAbove (ha (Bool.not_eq_true _ ▸ han))

private lemma foldl_enlarge_zeroOrAbove (vs : List K) :
    ∀ {b : K}, (isNaN b = false → ZeroOrAbove b) → isNaN (vs.foldl enlarge b) = false →
      ZeroOrAbove (vs.foldl enlarge b) := by
  induction vs with
  | nil => exact fun hb h => hb h
  | cons v vs ih => exact fun hb h => ih (fun hv => enlarge_zeroOrAbove hb hv) h

/-- A norm is zero or above it, or not a number. -/
lemma normAll_zeroOrAbove (h : isNaN f.normAll = false) : ZeroOrAbove f.normAll :=
  foldl_enlarge_zeroOrAbove _ (fun _ => .inl rfl) h

end MeshField

end MeshDiffusion
