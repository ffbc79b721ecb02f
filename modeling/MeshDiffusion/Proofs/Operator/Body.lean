import Mathlib.Tactic
import MeshDiffusion.Operator.FiniteVolume

/-!
Covered cells.

An obstacle is free in how it classifies a box of cells, within a contract (`Obstacle.Classifies`):
only a box of regular cells is regular, and only a box of covered cells is covered; in the whole
contract (`Obstacle.Decides`) such boxes are never cut. Under it the mask of a level, which looks at
the cells of a box only if the box is not regular, still marks the covered cells of every box and of
the layer around it (`LevelOperator.inBody_iff`).
-/

namespace MeshDiffusion

variable {K : Type} [Scalar K]

/-- The contract of an obstacle: a common kind is that of every cell. -/
structure Obstacle.Classifies (o : Obstacle K) : Prop where
  covered : ∀ b, o.boxKind b = .covered → ∀ p ∈ b, o.kind p = .covered
  regular : ∀ b, o.boxKind b = .regular → ∀ p ∈ b, o.kind p = .regular

/-- The whole contract of an obstacle: besides, only a box without a common kind is cut. -/
structure Obstacle.Decides (o : Obstacle K) : Prop extends o.Classifies where
  cut : ∀ b, o.boxKind b = .cut →
    ¬(∀ p ∈ b, o.kind p = .covered) ∧ ¬∀ p ∈ b, o.kind p = .regular

lemma Obstacle.absent_classifies : (Obstacle.absent : Obstacle K).Classifies where
  covered _ h := nomatch h
  regular _ _ _ _ := rfl

section Mask

variable {layout : Layout} {owners : Ownership} {o : Obstacle K} {i : ℕ} {p : Point}

omit [Scalar K] in
/-- Without a mask every box is regular. -/
lemma boxKind_of_bodyMask_eq_none (h : bodyMask layout owners o = none) (hi : i < layout.count) :
    o.boxKind ((layout.box i).grow 1) = .regular := by
  have hall : (layout.boxes.all fun b => o.boxKind (b.grow 1) == .regular) = true := by
    by_contra hsome
    simp [bodyMask, hsome] at h
  have hkind := Array.all_eq_true.1 hall i hi
  rwa [Layout.getElem_boxes hi, beq_iff_eq] at hkind

omit [Scalar K] in
/-- The mask of a box marks the covered cells, unless the box is regular as a whole. -/
lemma get_bodyMask {m : MeshField Bool} (h : bodyMask layout owners o = some m)
    (hi : i < layout.count) (hp : p ∈ (layout.box i).grow 1) :
    m.get i p 0 = (!(o.boxKind ((layout.box i).grow 1) == .regular) && o.kind p == .covered) := by
  rw [bodyMask] at h
  split_ifs at h with hall
  cases h
  have hi' : i < layout.boxes.size := hi
  have hst : (MeshField.ofFn layout owners 1 1 fun i p _ =>
      !(layout.boxes.map fun b => o.boxKind (b.grow 1) == .regular).getD i true
        && o.kind p == .covered).Stores i p 0 := ⟨hi, hp, Nat.one_pos⟩
  rw [MeshField.get_ofFn, if_pos hst]
  simp [Array.getD_eq_getD_getElem?, hi', Layout.getElem_boxes hi']

end Mask

namespace LevelOperator

variable {l : LevelOperator K} {layout : Layout} {owners : Ownership}
  {obstacle? : Option (Obstacle K)} {i : ℕ} {p : Point}

/-- **The mask marks the covered cells.** -/
theorem inBody_iff (h : l.covered? = obstacle?.bind (bodyMask layout owners))
    (hobstacle : ∀ o ∈ obstacle?, o.Classifies) (hi : i < layout.count)
    (hp : p ∈ (layout.box i).grow 1) :
    l.inBody i p = true ↔ ∃ o ∈ obstacle?, o.kind p = .covered := by
  cases obstacle? with
  | none =>
      have hnone : l.covered? = none := h
      simp [inBody, hnone]
  | some o =>
      have hmask : l.covered? = bodyMask layout owners o := h
      have hregular : o.boxKind ((layout.box i).grow 1) = .regular → o.kind p ≠ .covered := by
        intro hbox
        rw [(hobstacle o rfl).regular _ hbox p hp]
        decide
      have hkind : l.inBody i p = true ↔ o.kind p = .covered := by
        rw [inBody, hmask]
        cases hbody : bodyMask layout owners o with
        | none => simp [hregular (boxKind_of_bodyMask_eq_none hbody hi)]
        | some m =>
            simp only [get_bodyMask hbody hi hp, Bool.and_eq_true, Bool.not_eq_true',
              beq_eq_false_iff_ne, beq_iff_eq]
            exact ⟨And.right, fun hcovered => ⟨fun hbox => hregular hbox hcovered, hcovered⟩⟩
      simp [hkind]

end LevelOperator

end MeshDiffusion
