import Mathlib
import MeshDiffusion.Arith.Double
import MeshDiffusion.Proofs.Arith.Comparison

/-!
The order of doubles.

Doubles compare as the standard asks: a sign, an exponent and a mantissa, in this order, decide, and
what is not a number compares with nothing.

* `Double.rank` is the place of a double in a linear order; `Double.compare_eq` reads the comparison
  off it, and `Double.le_iff_rank`, `Double.lt_iff_rank` both order relations;
* `Double.unpack_pack_abs`: the absolute value survives being packed into 64 bits;
* the instance of `Scalar.LawfulOrder` for `Float`.
-/

namespace MeshDiffusion

namespace Double

open Float.Model

/-! ### The order of unpacked doubles -/

/-- The place of an unpacked double in the order of doubles: first its sign and whether it is
infinite, then its exponent, then its mantissa. -/
def rank : UnpackedFloat → ℤ ×ₗ ℤ ×ₗ ℤ
  | .infinity .positive => toLex (2, toLex (0, 0))
  | .infinity .negative => toLex (-2, toLex (0, 0))
  | .notANumber | .zero _ => toLex (0, toLex (0, 0))
  | .finite .positive m e _ => toLex (1, toLex (e, m))
  | .finite .negative m e _ => toLex (-1, toLex (-e, -m))

private lemma compare_toLex {a b : ℤ} {x y : ℤ × ℤ} :
    compare (toLex (a, toLex x)) (toLex (b, toLex y))
      = (compare a b).then ((compare x.1 y.1).then (compare x.2 y.2)) := rfl

private lemma compare_neg_neg (a b : ℤ) : compare (-a) (-b) = (compare a b).swap := by
  rcases lt_trichotomy a b with h | rfl | h
  · rw [compare_lt_iff_lt.2 h, compare_gt_iff_gt.2 (neg_lt_neg h)]
    rfl
  · rw [compare_eq_iff_eq.2 rfl, compare_eq_iff_eq.2 rfl]
    rfl
  · rw [compare_gt_iff_gt.2 h, compare_lt_iff_lt.2 (neg_lt_neg h)]
    rfl

private lemma compare_natCast (m k : ℕ) : compare (m : ℤ) (k : ℤ) = compare m k := by
  rcases lt_trichotomy m k with h | rfl | h
  · rw [compare_lt_iff_lt.2 h, compare_lt_iff_lt.2 (Int.ofNat_lt.2 h)]
  · rw [compare_eq_iff_eq.2 rfl, compare_eq_iff_eq.2 rfl]
  · rw [compare_gt_iff_gt.2 h, compare_gt_iff_gt.2 (Int.ofNat_lt.2 h)]

/-- Doubles that are numbers compare as their ranks. -/
lemma compare_eq {a b : UnpackedFloat} (ha : a.isNaN = false) (hb : b.isNaN = false) :
    a.compare b = some (compare (rank a) (rank b)) := by
  rcases a with ⟨_ | _⟩ | _ | _ | ⟨_ | _, m, e, -⟩ <;>
    rcases b with ⟨_ | _⟩ | _ | _ | ⟨_ | _, k, d, -⟩ <;>
    first
      | exact Bool.noConfusion ha
      | exact Bool.noConfusion hb
      | rfl
      | skip
  · -- both negative: the larger magnitude comes first
    rw [rank, rank, compare_toLex]
    simp only [compare_neg_neg, compare_natCast]
    rw [UnpackedFloat.compare, Ordering.swap_then]
    rfl
  · rw [rank, rank, compare_toLex]
    simp only [compare_natCast]
    rfl

lemma compare_eq_none {a b : UnpackedFloat} (h : a.isNaN = true ∨ b.isNaN = true) :
    a.compare b = none := by
  rcases a with _ | _ | _ | _ <;> rcases b with _ | _ | _ | _ <;>
    simp_all [UnpackedFloat.isNaN, UnpackedFloat.compare]

lemma le_iff {a b : UnpackedFloat} :
    a.le b = true ↔ a.isNaN = false ∧ b.isNaN = false ∧ rank a ≤ rank b := by
  rw [UnpackedFloat.le]
  by_cases h : a.isNaN = true ∨ b.isNaN = true
  · rw [compare_eq_none h]
    rcases h with h | h <;> simp [h]
  · obtain ⟨ha, hb⟩ := not_or.1 h
    rw [Bool.not_eq_true] at ha hb
    rw [compare_eq ha hb]
    simp [ha, hb, ← compare_le_iff_le, Ordering.isLE_iff_ne_gt]

lemma lt_iff {a b : UnpackedFloat} :
    a.lt b = true ↔ a.isNaN = false ∧ b.isNaN = false ∧ rank a < rank b := by
  rw [UnpackedFloat.lt]
  by_cases h : a.isNaN = true ∨ b.isNaN = true
  · rw [compare_eq_none h]
    rcases h with h | h <;> simp [h]
  · obtain ⟨ha, hb⟩ := not_or.1 h
    rw [Bool.not_eq_true] at ha hb
    rw [compare_eq ha hb]
    simp [ha, hb, compare_lt_iff_lt]

/-- A double equals itself exactly when it is a number. -/
lemma beq_self {a : UnpackedFloat} : a.beq a = !a.isNaN := by
  rw [UnpackedFloat.beq]
  cases h : a.isNaN with
  | true =>
      rw [compare_eq_none (.inl h)]
      rfl
  | false =>
      rw [compare_eq h h, compare_eq_iff_eq.2 rfl]
      rfl

/-! ### Packing -/

/-- The sign is read back from packed components. -/
private lemma unpackSign_packComponents {s : UnpackedFloat.Sign} {e : BitVec 11} {m : BitVec 52} :
    UnpackedFloat.unpackSign (UnpackedFloat.packComponents .binary64 s e m) = s.toBitVec := by
  have happend : UnpackedFloat.unpackSign (UnpackedFloat.packComponents .binary64 s e m)
      = ((s.toBitVec ++ e ++ m).extractLsb' 63 1).cast rfl := rfl
  ext i hi
  obtain rfl : i = 0 := by omega
  have hbit : (s.toBitVec ++ e ++ m).getLsbD 63 = s.toBitVec.getLsbD 0 := by
    rw [BitVec.getLsbD_append, BitVec.getLsbD_append]
    rfl
  rw [happend]
  simpa [BitVec.getLsbD_eq_getElem] using hbit

private lemma ofBitVec_toBitVec (s : UnpackedFloat.Sign) :
    UnpackedFloat.Sign.ofBitVec s.toBitVec = s := by cases s <;> rfl

/-- A subnormal double is read back from its packed form. -/
private lemma unpack_pack_subnormal (s : UnpackedFloat.Sign) {m : BitVec 52} (hm : m ≠ 0#52)
    (h : 0 < m.toNat) :
    UnpackedFloat.unpack .binary64 (UnpackedFloat.pack .binary64 (.finite s m.toNat (-1074) h))
      = .finite s m.toNat (-1074) h := by
  have hlog : ¬m.toNat.log2 + 1 = Format.binary64.mantissaBits := by
    have hlt : m.toNat.log2 < 52 := (Nat.log2_lt (by omega)).2 m.isLt
    simp only [Format.mantissaBits]
    omega
  have hpack : UnpackedFloat.pack .binary64 (.finite s m.toNat (-1074) h)
      = UnpackedFloat.packComponents .binary64 s 0#11 m := by
    rw [UnpackedFloat.pack]
    simp only []
    rw [if_neg (by decide), if_neg hlog, BitVec.ofNat_toNat, BitVec.setWidth_eq]
  rw [hpack, UnpackedFloat.unpack]
  simp only [UnpackedFloat.unpackMantissa_packComponents,
    UnpackedFloat.unpackExponent_packComponents, unpackSign_packComponents, ofBitVec_toBitVec]
  rw [if_neg (by decide), if_pos trivial, dif_neg hm]
  rfl

/-- A normal double is read back from its packed form. -/
private lemma unpack_pack_normal (s : UnpackedFloat.Sign) {e : BitVec 11} {m : BitVec 52}
    (h₁ : e ≠ -1#11) (h₀ : e ≠ 0#11) (h : 0 < (1#1 ++ m).toNat) :
    UnpackedFloat.unpack .binary64
        (UnpackedFloat.pack .binary64 (.finite s (1#1 ++ m).toNat (e.toNat - 1075) h))
      = .finite s (1#1 ++ m).toNat (e.toNat - 1075) h := by
  have hm : (1#1 ++ m).toNat = 2 ^ 52 + m.toNat := by
    rw [BitVec.toNat_append, ← Nat.shiftLeft_add_eq_or_of_lt m.isLt]
    rfl
  have hlog : (1#1 ++ m).toNat.log2 + 1 = Format.binary64.mantissaBits := by
    have h52 : (1#1 ++ m).toNat.log2 = 52 :=
      (Nat.log2_eq_iff h.ne').2 (by have := m.isLt; omega)
    rw [h52]
    rfl
  have he : e.toNat < 2047 := by
    have hne : e.toNat ≠ 2047 := fun hc => h₁ (BitVec.eq_of_toNat_eq hc)
    have := e.isLt
    omega
  have hpack : UnpackedFloat.pack .binary64 (.finite s (1#1 ++ m).toNat (e.toNat - 1075) h)
      = UnpackedFloat.packComponents .binary64 s e m := by
    have hbias : ((e.toNat : ℤ) - 1075 + 1023 + 52).toNat = e.toNat := by omega
    have hmant : BitVec.ofNat 52 (1#1 ++ m).toNat = m :=
      BitVec.eq_of_toNat_eq (by rw [BitVec.toNat_ofNat, hm]; have := m.isLt; omega)
    have hexp : BitVec.ofNat 11 e.toNat = e := by rw [BitVec.ofNat_toNat, BitVec.setWidth_eq]
    rw [UnpackedFloat.pack]
    change (if 2 ^ 11 ≤ ((e.toNat : ℤ) - 1075 + 1023 + 52).toNat + 1 then _ else _) = _
    rw [hbias, if_neg (by omega), if_pos hlog]
    refine congrArg₂ _ ?_ hmant
    exact (congrArg (BitVec.ofNat 11) hbias).trans hexp
  rw [hpack, UnpackedFloat.unpack]
  simp only [UnpackedFloat.unpackMantissa_packComponents,
    UnpackedFloat.unpackExponent_packComponents, unpackSign_packComponents, ofBitVec_toBitVec]
  rw [if_neg h₁, if_neg h₀]
  rfl

/-- The absolute value of a double is read back from its packed form. -/
lemma unpack_pack_abs (b : BitVec Format.binary64.numBits) :
    UnpackedFloat.unpack .binary64
        (UnpackedFloat.pack .binary64 (UnpackedFloat.unpack .binary64 b).abs)
      = (UnpackedFloat.unpack .binary64 b).abs := by
  fun_cases UnpackedFloat.unpack .binary64 b with
  | case1 =>
      change UnpackedFloat.unpack .binary64 (UnpackedFloat.pack .binary64 (.infinity .positive))
        = .infinity .positive
      rfl
  | case2 => rfl
  | case3 =>
      change UnpackedFloat.unpack .binary64 (UnpackedFloat.pack .binary64 (.zero .positive))
        = .zero .positive
      rfl
  | case4 m e k s t h₁ h₀ hm =>
      have hk : k + 1 = -1074 := by
        have : e.toNat = 0 := congrArg BitVec.toNat h₀
        simp only [k, this]
        rfl
      rw [UnpackedFloat.abs]
      simp only [hk]
      exact unpack_pack_subnormal _ hm _
  | case5 m e k s t h₁ h₀ => exact unpack_pack_normal _ h₁ h₀ _

/-! ### Doubles -/

/-- A double taken apart. -/
def unpacked (a : Float) : UnpackedFloat := a.toModel.unpack

lemma isNaN_eq (a : Float) : Scalar.isNaN a = (unpacked a).isNaN := by
  have hbeq : (a == a) = (unpacked a).beq (unpacked a) := rfl
  rw [Scalar.isNaN, hbeq, beq_self, Bool.not_not]

lemma isFinite_eq (a : Float) : Scalar.isFinite a = (unpacked a).isFinite := rfl

lemma unpacked_abs (a : Float) : unpacked (Scalar.abs a) = (unpacked a).abs :=
  unpack_pack_abs _

lemma unpacked_zero : unpacked 0.0 = .zero .positive := rfl

/-- Doubles are ordered by their ranks, as far as they are numbers. -/
lemma le_iff_rank {a b : Float} :
    a ≤ b ↔ Scalar.isNaN a = false ∧ Scalar.isNaN b = false ∧
      rank (unpacked a) ≤ rank (unpacked b) := by
  have hle : a ≤ b ↔ (unpacked a).le (unpacked b) = true := by
    change decide ((unpacked a).le (unpacked b) = true) = true ↔ _
    rw [decide_eq_true_iff]
  rw [hle, le_iff, isNaN_eq, isNaN_eq]

lemma lt_iff_rank {a b : Float} :
    a < b ↔ Scalar.isNaN a = false ∧ Scalar.isNaN b = false ∧
      rank (unpacked a) < rank (unpacked b) := by
  have hlt : a < b ↔ (unpacked a).lt (unpacked b) = true := by
    change decide ((unpacked a).lt (unpacked b) = true) = true ↔ _
    rw [decide_eq_true_iff]
  rw [hlt, lt_iff, isNaN_eq, isNaN_eq]

/-- Finite doubles are the numbers that are not ranked as infinite. -/
lemma isFinite_iff {u : UnpackedFloat} :
    u.isFinite = true ↔
      u.isNaN = false ∧ -1 ≤ (ofLex (rank u)).1 ∧ (ofLex (rank u)).1 ≤ 1 := by
  rcases u with ⟨_ | _⟩ | _ | _ | ⟨_ | _, m, e, -⟩ <;>
    simp [UnpackedFloat.isFinite, UnpackedFloat.isNaN, rank]

/-- An absolute value is not ranked below zero. -/
lemma rank_zero_le_rank_abs (u : UnpackedFloat) :
    rank (.zero .positive) ≤ rank u.abs := by
  rcases u with s | _ | s | ⟨s, m, e, h⟩ <;>
    simp [UnpackedFloat.abs, rank, Prod.Lex.le_iff]

end Double

open Double in
/-- Doubles are ordered as a stopping test needs it. -/
instance : Scalar.LawfulOrder Float where
  number_of_le h := ⟨(le_iff_rank.1 h).1, (le_iff_rank.1 h).2.1⟩
  le_trans h h' := by
    obtain ⟨ha, -, hab⟩ := le_iff_rank.1 h
    obtain ⟨-, hc, hbc⟩ := le_iff_rank.1 h'
    exact le_iff_rank.2 ⟨ha, hc, hab.trans hbc⟩
  le_total {a b} ha hb := by
    rcases le_total (rank (unpacked a)) (rank (unpacked b)) with h | h
    · exact .inl (le_iff_rank.2 ⟨ha, hb, h⟩)
    · exact .inr (le_iff_rank.2 ⟨hb, ha, h⟩)
  lt_iff {a b} := by
    rw [lt_iff_rank, le_iff_rank, ← not_le]
    tauto
  number_zero := by decide
  isNaN_abs a := by
    rw [isNaN_eq, isNaN_eq, unpacked_abs]
    cases unpacked a <;> rfl
  zero_le_abs {a} ha := by
    have hnum : Scalar.isNaN (Scalar.abs a) = false := by
      rw [isNaN_eq, unpacked_abs, ← ha, isNaN_eq]
      cases unpacked a <;> rfl
    refine le_iff_rank.2 ⟨by decide, hnum, ?_⟩
    rw [unpacked_zero, unpacked_abs]
    exact rank_zero_le_rank_abs _
  isFinite_zero := by decide
  number_of_isFinite {a} h := by
    rw [isNaN_eq]
    exact (isFinite_iff.1 h).1
  isFinite_abs a := by
    rw [isFinite_eq, isFinite_eq, unpacked_abs]
    cases unpacked a <;> rfl
  isFinite_of_between {a x b} ha hb hax hxb := by
    obtain ⟨-, hlo, -⟩ := isFinite_iff.1 ha
    obtain ⟨-, -, hhi⟩ := isFinite_iff.1 hb
    obtain ⟨-, hx, hax⟩ := le_iff_rank.1 hax
    obtain ⟨-, -, hxb⟩ := le_iff_rank.1 hxb
    have h₁ := Prod.Lex.monotone_fst _ _ hax
    have h₂ := Prod.Lex.monotone_fst _ _ hxb
    exact isFinite_iff.2 ⟨by rwa [isNaN_eq] at hx, hlo.trans h₁, h₂.trans hhi⟩

end MeshDiffusion
