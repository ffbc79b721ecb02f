import Mathlib.Tactic
import MeshDiffusion.Arith.Double
import MeshDiffusion.Equation.WallVelocity
import MeshDiffusion.Proofs.Operator.Coverage

/-!
The velocity on the surface, box by box.

A box is classified by its valid cells, and then either written everywhere or written in these cells
only. The written places, the values there and the places that stay depend on the box alone.

* `Obstacle.Uniform`: the cells of a box are all regular or all covered, and
  `Obstacle.Decides.boxKind_eq_cut_iff`: all other boxes are cut;
* `get_fillWallVelocity_clear`, `get_fillWallVelocity_cell`, `get_fillWallVelocity_ghost`: the
  velocity in a box without surface, in a cell of a cut box and next to a cut box;
  `get_fillWallVelocity_other`: the components that are not a velocity;
* `fillWallVelocity_exact`: the four together, and that other boxes do not matter.
-/

namespace MeshDiffusion

/-! ### Boxes without a surface -/

namespace Obstacle

variable {K : Type} {o o' : Obstacle K} {b : Box}

/-- The cells of a box are all regular or all covered. -/
def Uniform (o : Obstacle K) (b : Box) : Prop :=
  (∀ p ∈ b, o.kind p = .regular) ∨ ∀ p ∈ b, o.kind p = .covered

/-- Under the whole contract exactly the boxes of several kinds, or with a cut cell, are cut. -/
lemma Decides.boxKind_eq_cut_iff (ho : o.Decides) : o.boxKind b = .cut ↔ ¬o.Uniform b := by
  constructor
  · rintro hcut (hregular | hcovered)
    · exact (ho.cut b hcut).2 hregular
    · exact (ho.cut b hcut).1 hcovered
  · intro hmixed
    cases hkind : o.boxKind b with
    | covered => exact absurd (.inr (ho.covered b hkind)) hmixed
    | regular => exact absurd (.inl (ho.regular b hkind)) hmixed
    | cut => rfl

/-- Only the cells of a box matter. -/
lemma uniform_congr (h : ∀ p ∈ b, o'.kind p = o.kind p) : o'.Uniform b ↔ o.Uniform b := by
  refine or_congr (forall₂_congr fun p hp => ?_) (forall₂_congr fun p hp => ?_) <;> rw [h p hp]

end Obstacle

/-! ### The places of a box -/

variable {K : Type} [Scalar K] [Trig K] {vel : MeshField K} {obstacle : Obstacle K} {speed : K}
  {i n : ℕ} {p : Point}

omit [Scalar K] [Trig K] in
/-- The kinds of the boxes are found by their numbers. -/
private lemma getD_boxKinds (hi : i < vel.layout.count) :
    (vel.layout.boxes.map obstacle.boxKind).getD i .regular
      = obstacle.boxKind (vel.layout.box i) := by
  have hi : i < vel.layout.boxes.size := hi
  simp [Array.getD_eq_getD_getElem?, hi, Layout.getElem_boxes hi]

/-- The components that are not a velocity stay. -/
lemma get_fillWallVelocity_other (hst : vel.Stores i p n) (hn : velocityComponents ≤ n) :
    (fillWallVelocity vel obstacle speed).get i p n = vel.get i p n := by
  rw [fillWallVelocity, MeshField.get_update, if_pos hst, if_pos hn]

/-- In a box without surface the velocity is zero, also in the ghosts. -/
lemma get_fillWallVelocity_clear (hst : vel.Stores i p n) (hn : n < velocityComponents)
    (hkind : obstacle.boxKind (vel.layout.box i) ≠ .cut) :
    (fillWallVelocity vel obstacle speed).get i p n = 0.0 := by
  rw [fillWallVelocity, MeshField.get_update, if_pos hst, if_neg (Nat.not_le.2 hn),
    getD_boxKinds hst.1]
  split
  · rfl
  · rfl
  · next hcut => exact absurd hcut hkind

/-- A valid cell of a cut box has the velocity of the surface. -/
lemma get_fillWallVelocity_cell {a : Axis} (hst : vel.Stores i p a.index)
    (hkind : obstacle.boxKind (vel.layout.box i) = .cut) (hp : p ∈ vel.layout.box i) :
    (fillWallVelocity vel obstacle speed).get i p a.index
      = (rotatingVelocity (obstacle.normal p) speed).get a := by
  have hn : ¬velocityComponents ≤ a.index := by cases a <;> decide
  rw [fillWallVelocity, MeshField.get_update, if_pos hst, if_neg hn, getD_boxKinds hst.1, hkind]
  simp only [if_pos hp]
  cases a <;> rfl

/-- A ghost of a cut box stays. -/
lemma get_fillWallVelocity_ghost (hst : vel.Stores i p n)
    (hkind : obstacle.boxKind (vel.layout.box i) = .cut) (hp : p ∉ vel.layout.box i) :
    (fillWallVelocity vel obstacle speed).get i p n = vel.get i p n := by
  rw [fillWallVelocity, MeshField.get_update, if_pos hst, getD_boxKinds hst.1, hkind]
  simp only [if_neg hp, ite_self]

/-- Every component of a velocity belongs to an axis. -/
private lemma exists_axis (hn : n < velocityComponents) : ∃ a : Axis, a.index = n := by
  have hn : n < 3 := hn
  interval_cases n
  exacts [⟨.x, rfl⟩, ⟨.y, rfl⟩, ⟨.z, rfl⟩]

/-! ### A spindle through the first of two boxes -/

/-- The first of four cells in a row is cut, with a surface that faces the others. -/
private def spindle : Obstacle Float :=
  let kind (p : Point) : CellKind := if p.x = 0 then .cut else .regular
  ⟨kind, fun p => if p.x = 0 then ⟨1.0, 0.0, 0.0⟩ else .const 0.0, CellKind.ofBox kind⟩

/-- Two cells in a row. -/
private def halfRow (x : ℤ) : Box := ⟨⟨x, 0, 0⟩, ⟨x + 1, 0, 0⟩, .cell⟩

/-- Four components of seven everywhere, with a layer of ghosts. -/
private def sevens (boxes : Array Box) : MeshField Float :=
  .const ⟨boxes⟩ (.single boxes.size) 4 1 7.0

/-! ### Written and unwritten places -/

/-- **What is written, and what stays.** Under an obstacle that keeps the whole contract, in a field
with the components of a velocity:

* the field keeps its boxes, ghosts and components;
* a box whose cells are all regular or all covered has velocity zero, in valid cells and in ghosts;
* in any other box every valid cell has the velocity of the surface there, and every ghost the value
  that it had;
* all other components stay, in all boxes;
* two fields agree in two boxes on the same cells, with the same ghosts and components, as soon as
  the obstacles agree on these cells and the fields did outside the velocities of these cells,
  whatever their other boxes are. -/
theorem fillWallVelocity_exact (hncomp : velocityComponents ≤ vel.ncomp) (ho : obstacle.Decides)
    (speed : K) :
    let after := fillWallVelocity vel obstacle speed
    (after.layout = vel.layout ∧ after.owners = vel.owners ∧ after.ghosts = vel.ghosts ∧
      after.ncomp = vel.ncomp) ∧
    (∀ i < vel.layout.count, obstacle.Uniform (vel.layout.box i) →
      ∀ p ∈ vel.region i, ∀ n < velocityComponents, after.get i p n = 0.0) ∧
    (∀ i < vel.layout.count, ¬obstacle.Uniform (vel.layout.box i) →
      (∀ p ∈ vel.layout.box i, ∀ a : Axis,
        after.get i p a.index = (rotatingVelocity (obstacle.normal p) speed).get a) ∧
      ∀ p ∈ vel.region i, p ∉ vel.layout.box i → ∀ n < vel.ncomp,
        after.get i p n = vel.get i p n) ∧
    (∀ i < vel.layout.count, ∀ p ∈ vel.region i, ∀ n < vel.ncomp, velocityComponents ≤ n →
      after.get i p n = vel.get i p n) ∧
    ∀ (vel' : MeshField K) (obstacle' : Obstacle K), obstacle'.Decides →
      vel'.ghosts = vel.ghosts → vel'.ncomp = vel.ncomp →
      ∀ i < vel.layout.count, ∀ j < vel'.layout.count, vel'.layout.box j = vel.layout.box i →
      (∀ p ∈ vel.layout.box i,
        obstacle'.kind p = obstacle.kind p ∧ obstacle'.normal p = obstacle.normal p) →
      (∀ p n, ¬(p ∈ vel.layout.box i ∧ n < velocityComponents) →
        vel'.get j p n = vel.get i p n) →
      ∀ p n, (fillWallVelocity vel' obstacle' speed).get j p n = after.get i p n := by
  intro after
  have hcell : ∀ i < vel.layout.count, ∀ p ∈ vel.layout.box i, ∀ a : Axis,
      vel.Stores i p a.index := by
    intro i hi p hp a
    have ha : a.index < velocityComponents := by cases a <;> decide
    exact ⟨hi, Box.mem_grow_of_mem _ hp, ha.trans_le hncomp⟩
  refine ⟨⟨rfl, rfl, rfl, rfl⟩, ?_, ?_, ?_, ?_⟩
  · intro i hi huniform p hp n hn
    exact get_fillWallVelocity_clear ⟨hi, hp, hn.trans_le hncomp⟩ hn
      fun hcut => ho.boxKind_eq_cut_iff.1 hcut huniform
  · intro i hi hmixed
    have hcut := ho.boxKind_eq_cut_iff.2 hmixed
    exact ⟨fun p hp a => get_fillWallVelocity_cell (hcell i hi p hp a) hcut hp,
      fun p hp hghost n hn => get_fillWallVelocity_ghost ⟨hi, hp, hn⟩ hcut hghost⟩
  · intro i hi p hp n hn hother
    exact get_fillWallVelocity_other ⟨hi, hp, hn⟩ hother
  · intro vel' obstacle' ho' hghosts hcomps i hi j hj hbox hsame hold p n
    have hregion : vel'.region j = vel.region i := by
      rw [MeshField.region, MeshField.region, hbox, hghosts]
    by_cases hst : vel.Stores i p n
    · have hst' : vel'.Stores j p n := ⟨hj, hregion ▸ hst.2.1, hcomps ▸ hst.2.2⟩
      have huniform : obstacle'.Uniform (vel'.layout.box j) ↔ obstacle.Uniform (vel.layout.box i) :=
        by
        rw [hbox]
        exact Obstacle.uniform_congr fun q hq => (hsame q hq).1
      rcases Nat.lt_or_ge n velocityComponents with hn | hn
      · by_cases hclear : obstacle.Uniform (vel.layout.box i)
        · rw [get_fillWallVelocity_clear hst' hn
              fun hcut => ho'.boxKind_eq_cut_iff.1 hcut (huniform.2 hclear)]
          exact (get_fillWallVelocity_clear hst hn
            fun hcut => ho.boxKind_eq_cut_iff.1 hcut hclear).symm
        · have hcut := ho.boxKind_eq_cut_iff.2 hclear
          have hcut' := ho'.boxKind_eq_cut_iff.2 (mt huniform.1 hclear)
          by_cases hp : p ∈ vel.layout.box i
          · obtain ⟨a, rfl⟩ := exists_axis hn
            rw [get_fillWallVelocity_cell hst' hcut' (hbox ▸ hp), (hsame p hp).2]
            exact (get_fillWallVelocity_cell hst hcut hp).symm
          · rw [get_fillWallVelocity_ghost hst' hcut' (hbox ▸ hp), hold p n fun h => hp h.1]
            exact (get_fillWallVelocity_ghost hst hcut hp).symm
      · rw [get_fillWallVelocity_other hst' hn, hold p n fun h => absurd h.2 (Nat.not_lt.2 hn)]
        exact (get_fillWallVelocity_other hst hn).symm
    · have hst' : ¬vel'.Stores j p n := fun h => hst ⟨hi, hregion ▸ h.2.1, hcomps ▸ h.2.2⟩
      have hout : after.get i p n = default := (MeshField.get_update ..).trans (if_neg hst)
      have hout' : (fillWallVelocity vel' obstacle' speed).get j p n = default :=
        (MeshField.get_update ..).trans (if_neg hst')
      rw [hout, hout']

/-- A spindle cuts the first of two boxes. Its cells turn with the spindle and its ghosts stay, the
second box is cleared with its ghosts, the fourth component stays, and the first box alone would get
the same values. -/
theorem fillWallVelocity_exact_spindle :
    let vel := sevens #[halfRow 0, halfRow 2]
    let after := fillWallVelocity vel spindle 2.0
    velocityComponents ≤ vel.ncomp ∧ spindle.Decides ∧
    after.get 1 ⟨4, 0, 0⟩ 0 = 0.0 ∧
    (∀ a : Axis, after.get 0 ⟨0, 0, 0⟩ a.index = (rotatingVelocity ⟨1.0, 0.0, 0.0⟩ 2.0).get a) ∧
    after.get 0 ⟨2, 0, 0⟩ 0 = vel.get 0 ⟨2, 0, 0⟩ 0 ∧
    after.get 0 ⟨0, 0, 0⟩ 3 = vel.get 0 ⟨0, 0, 0⟩ 3 ∧
    ∀ p n, (fillWallVelocity (sevens #[halfRow 0]) spindle 2.0).get 0 p n = after.get 0 p n := by
  intro vel after
  have hncomp : velocityComponents ≤ vel.ncomp := by decide
  have ho : spindle.Decides := Obstacle.decides_ofBox rfl
  obtain ⟨-, hclear, hcut, hother, hlocal⟩ := fillWallVelocity_exact (K := Float) hncomp ho 2.0
  have hfirst : ¬spindle.Uniform (vel.layout.box 0) := by
    rintro (hregular | hcovered)
    · exact absurd (hregular ⟨0, 0, 0⟩ (by decide)) (by decide)
    · exact absurd (hcovered ⟨0, 0, 0⟩ (by decide)) (by decide)
  have hsecond : spindle.Uniform (vel.layout.box 1) := by
    refine .inl fun p hp => if_neg fun hx => ?_
    have hlow : (2 : ℤ) ≤ p.x := hp.1.1
    omega
  refine ⟨hncomp, ho, hclear 1 (by decide) hsecond _ (by decide) _ (by decide), ?_, ?_, ?_, ?_⟩
  · exact (hcut 0 (by decide) hfirst).1 ⟨0, 0, 0⟩ (by decide)
  · exact (hcut 0 (by decide) hfirst).2 _ (by decide) (by decide) _ (by decide)
  · exact hother 0 (by decide) _ (by decide) _ (by decide) (by decide)
  · exact hlocal (sevens #[halfRow 0]) spindle ho rfl rfl 0 (by decide) 0 (by decide) rfl
      (fun _ _ => ⟨rfl, rfl⟩) fun p n _ => by
        simp [vel, sevens, MeshField.get, MeshField.const]

end MeshDiffusion
