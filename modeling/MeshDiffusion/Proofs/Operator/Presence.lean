import Mathlib.Tactic
import MeshDiffusion.Proofs.Access.Places
import MeshDiffusion.Proofs.Operator.Coverage

/-!
The body of a level.

A level counts as one with a body when it has a mask, and it has one as soon as some box is not
regular with the layer around it. This is not the question whether a cell is covered: an obstacle
that only cuts cells, such as a body smaller than a cell, leaves a mask without a flag.

* `Layout.Sees`: a kind occurs in the boxes of a level or in the layers around them;
* `isSome_bodyMask_iff`: when there is a mask, and `Obstacle.Decides.boxKind_ne_regular_iff`: what
  this says of the cells of a box;
* `FiniteVolume.hasBody_exact`: which levels count as having a body, and when this is to have a
  covered cell.
-/

namespace MeshDiffusion

variable {K : Type}

/-- A cell of some kind lies in a box or in the layer around it. -/
def Layout.Sees (l : Layout) (obstacle? : Option (Obstacle K)) (k : CellKind) : Prop :=
  ∃ b ∈ obstacle?, ∃ i < l.count, ∃ p ∈ (l.box i).grow 1, b.kind p = k

/-! ### The mask of a level -/

/-- There is a mask when some box is not regular with the layer around it. -/
lemma isSome_bodyMask_iff {layout : Layout} {owners : Ownership} {b : Obstacle K} :
    (bodyMask layout owners b).isSome = true ↔
      ∃ i < layout.count, b.boxKind ((layout.box i).grow 1) ≠ .regular := by
  constructor
  · intro hmask
    by_contra hall
    push Not at hall
    have hregular : (layout.boxes.all fun c => b.boxKind (c.grow 1) == .regular) = true :=
      Array.all_eq_true.2 fun i hi => by rw [Layout.getElem_boxes hi, hall i hi]; rfl
    rw [bodyMask, if_pos hregular] at hmask
    cases hmask
  · rintro ⟨i, hi, hkind⟩
    by_contra hnone
    exact hkind (boxKind_of_bodyMask_eq_none (by simpa using hnone) hi)

/-- Under the whole contract a box with cells is regular only if none of them is covered or cut. -/
lemma Obstacle.Decides.boxKind_ne_regular_iff {b : Obstacle K} (hb : b.Decides) {region : Box}
    (hcells : ∃ p, p ∈ region) :
    b.boxKind region ≠ .regular ↔ ∃ p ∈ region, b.kind p ≠ .regular := by
  constructor
  · intro hkind
    cases hregion : b.boxKind region with
    | regular => exact absurd hregion hkind
    | covered =>
        obtain ⟨p, hp⟩ := hcells
        refine ⟨p, hp, ?_⟩
        rw [hb.covered region hregion p hp]
        decide
    | cut => simpa using (hb.cut region hregion).2
  · rintro ⟨p, hp, hkind⟩ hregion
    exact hkind (hb.regular region hregion p hp)

namespace FiniteVolume

variable [Scalar K] {o : FiniteVolume K} {h : Hierarchy K} {obstacles : Levels (Obstacle K)}
  {level : ℕ}

/-- A level has a body when the obstacle leaves a mask there. -/
lemma Loaded.hasBody_iff (ho : Loaded h obstacles o) (hlevel : level < h.active) :
    o.hasBody level = true ↔
      ∃ b ∈ obstacles.get? level, (bodyMask (h.layout level) (h.owners level) b).isSome = true := by
  have hlt : level < o.levels.count := hlevel.trans_eq ho.bound.count.symm
  rw [hasBody, Checked.get?_of_lt hlt, Option.bind_some, ho.bound.covered level hlevel]
  cases obstacles.get? level <;> simp

/-! ### A peg in a cell -/

/-- Sixteen cells of unit width in one box. -/
private def pegMesh : Hierarchy ℚ :=
  let geometry : Geometry ℚ :=
    ⟨⟨⟨0, 0, 0⟩, ⟨3, 3, 0⟩, .cell⟩, ⟨0, 0, 0⟩, ⟨4, 4, 1⟩, .const false⟩
  ⟨.ofList [⟨geometry, .cut geometry.domain 8, .single 0⟩], 0⟩

/-- A peg in the middle of a cell. -/
private def peg (radius : ℚ) : Obstacle ℚ :=
  let c : Cylinder ℚ := ⟨pegMesh.geometry 0, 3 / 2, 3 / 2, radius⟩
  ⟨c.kind, fun _ => .const 0, CellKind.ofBox c.kind⟩

/-- An operator around the peg. -/
private def pegOperator (radius : ℚ) : FiniteVolume ℚ :=
  DiffusionOperator.bind unbound pegMesh (.ofList [peg radius]) {}

/-! ### Levels with a body -/

/-- **A body is a covered or a cut cell.** Under an obstacle that keeps the whole contract, a level
whose boxes have cells counts as one with a body exactly when some cell, in a box or in the layer
around it, is covered or cut. This is to have a covered cell exactly if no cell is cut, or one is
covered as well. The flags of the mask know the difference: one of them is set exactly when a cell
is covered. -/
theorem hasBody_exact (ho : Loaded h obstacles o) (hlevel : level < h.active)
    (hobstacle : ∀ b ∈ obstacles.get? level, b.Decides)
    (hboxes : ∀ i < (h.layout level).count, ∃ p, p ∈ ((h.layout level).box i).grow 1) :
    let sees := (h.layout level).Sees (obstacles.get? level)
    (o.hasBody level = true ↔ sees .covered ∨ sees .cut) ∧
    ((o.hasBody level = true ↔ sees .covered) ↔ (sees .cut → sees .covered)) ∧
    (sees .covered ↔ ∃ i < (h.layout level).count, ∃ p ∈ ((h.layout level).box i).grow 1,
      (o.levels.get level).inBody i p = true) := by
  intro sees
  have hbody : o.hasBody level = true ↔ sees .covered ∨ sees .cut := by
    rw [ho.hasBody_iff hlevel]
    constructor
    · rintro ⟨b, hb, hmask⟩
      obtain ⟨i, hi, hkind⟩ := isSome_bodyMask_iff.1 hmask
      obtain ⟨p, hp, hcell⟩ := ((hobstacle b hb).boxKind_ne_regular_iff (hboxes i hi)).1 hkind
      cases hk : b.kind p with
      | covered => exact .inl ⟨b, hb, i, hi, p, hp, hk⟩
      | regular => exact absurd hk hcell
      | cut => exact .inr ⟨b, hb, i, hi, p, hp, hk⟩
    · rintro (⟨b, hb, i, hi, p, hp, hk⟩ | ⟨b, hb, i, hi, p, hp, hk⟩)
      all_goals
        have hcell : ∃ q ∈ ((h.layout level).box i).grow 1, b.kind q ≠ .regular :=
          ⟨p, hp, by rw [hk]; decide⟩
        exact ⟨b, hb, isSome_bodyMask_iff.2
          ⟨i, hi, ((hobstacle b hb).boxKind_ne_regular_iff (hboxes i hi)).2 hcell⟩⟩
  refine ⟨hbody, ?_, ?_⟩
  · rw [hbody]
    exact ⟨fun hsame hcut => hsame.1 (.inr hcut),
      fun hcut => ⟨fun hsees => hsees.elim id hcut, .inl⟩⟩
  · have hflag : ∀ i < (h.layout level).count, ∀ p ∈ ((h.layout level).box i).grow 1,
        ((o.levels.get level).inBody i p = true ↔
          ∃ b ∈ obstacles.get? level, b.kind p = .covered) := fun i hi p hp =>
      LevelOperator.inBody_iff (ho.bound.covered level hlevel)
        (fun b hb => (hobstacle b hb).toClassifies) hi hp
    constructor
    · rintro ⟨b, hb, i, hi, p, hp, hk⟩
      exact ⟨i, hi, p, hp, (hflag i hi p hp).2 ⟨b, hb, hk⟩⟩
    · rintro ⟨i, hi, p, hp, hset⟩
      obtain ⟨b, hb, hk⟩ := (hflag i hi p hp).1 hset
      exact ⟨b, hb, i, hi, p, hp, hk⟩

/-- A peg of radius one covers the cell that it stands in, so that the level has a body and a flag
is set. -/
theorem hasBody_exact_peg :
    Loaded pegMesh (.ofList [peg 1]) (pegOperator 1) ∧ 0 < pegMesh.active ∧ (peg 1).Decides ∧
    (pegMesh.layout 0).Sees (some (peg 1)) .covered ∧ (pegOperator 1).hasBody 0 = true ∧
    ∃ i < (pegMesh.layout 0).count, ∃ p ∈ ((pegMesh.layout 0).box i).grow 1,
      ((pegOperator 1).levels.get 0).inBody i p = true := by
  have hloaded : Loaded pegMesh (.ofList [peg 1]) (pegOperator 1) := .bind _ _
  have hactive : 0 < pegMesh.active := Nat.one_pos
  have hdecides : (peg 1).Decides := Obstacle.decides_ofBox rfl
  have hobstacle : ∀ b ∈ (Levels.ofList [peg 1]).get? 0, b.Decides := by
    rintro b ⟨⟩
    exact hdecides
  have hboxes : ∀ i < (pegMesh.layout 0).count,
      ∃ p, p ∈ ((pegMesh.layout 0).box i).grow 1 := by
    have hcount : (pegMesh.layout 0).count = 1 := by decide +kernel
    intro i hi
    obtain rfl : i = 0 := by omega
    exact ⟨⟨0, 0, 0⟩, by decide +kernel⟩
  have hsees : (pegMesh.layout 0).Sees (some (peg 1)) .covered :=
    ⟨_, rfl, 0, by decide +kernel, ⟨1, 1, 0⟩, by decide +kernel, by decide +kernel⟩
  obtain ⟨hbody, -, hflags⟩ := hasBody_exact hloaded hactive hobstacle hboxes
  exact ⟨hloaded, hactive, hdecides, hsees, hbody.2 (.inl hsees), hflags.1 hsees⟩

/-- A peg smaller than a cell covers none and only cuts the one that it stands in, and yet the
level counts as one with a body. -/
theorem hasBody_exact_thin :
    Loaded pegMesh (.ofList [peg (1 / 4)]) (pegOperator (1 / 4)) ∧ 0 < pegMesh.active ∧
    (peg (1 / 4)).Decides ∧ (pegOperator (1 / 4)).hasBody 0 = true ∧
    ¬(pegMesh.layout 0).Sees (some (peg (1 / 4))) .covered := by
  refine ⟨.bind _ _, Nat.one_pos, Obstacle.decides_ofBox rfl, by decide +kernel, ?_⟩
  rintro ⟨b, ⟨⟩, i, hi, p, hp, hk⟩
  have hnone : ∀ i < (pegMesh.layout 0).count,
      ∀ q ∈ (((pegMesh.layout 0).box i).grow 1).points, (peg (1 / 4)).kind q ≠ .covered := by
    decide +kernel
  exact hnone i hi p (Box.mem_points.2 hp) hk

end FiniteVolume

end MeshDiffusion
