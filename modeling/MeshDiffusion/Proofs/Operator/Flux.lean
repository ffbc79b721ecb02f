import Mathlib.Tactic
import MeshDiffusion.Operator.FiniteVolume
import MeshDiffusion.Proofs.Arith.Exact
import MeshDiffusion.Proofs.Index.Adjacency

/-!
Fluxes in exact arithmetic.

Without rounding, the image of a cell is its mass term less the sum of the fluxes through its six
faces, in any order (`FiniteVolume.image_eq`). A flux is the viscosity of the face times the outward
derivative that its rule takes, which is linear in the function of cells
(`FaceRule.derivative_add_mul`), zero where all values near a cell are equal to it
(`FaceRule.derivative_of_flat`), and not positive at a cell that no value near it exceeds
(`FaceRule.derivative_nonpos`).
-/

namespace MeshDiffusion

lemma Face.all_eq :
    Face.all = [⟨.x, .lo⟩, ⟨.x, .hi⟩, ⟨.y, .lo⟩, ⟨.y, .hi⟩, ⟨.z, .lo⟩, ⟨.z, .hi⟩] := rfl

/-- A sum over the faces, as the fold that computes it. -/
lemma Face.foldl_add (g : Face → ℚ) : Face.all.foldl (fun s f => s + g f) 0 = ∑ f, g f := by
  have hnodup : Face.all.Nodup := by decide
  have hsum : ∑ f, g f = (Face.all.map g).sum := List.sum_toFinset g hnodup
  rw [hsum, List.sum_eq_foldl, List.foldl_map]

/-! ### Derivatives -/

namespace FaceRule

variable {r : FaceRule} {phi psi : Point → ℚ} {p : Point} {f : Face} {a : ℚ}

/-- The rules of a face, exactly. -/
lemma derivative_eq :
    r.derivative phi p f =
      match r with
      | interior => phi (p.move f.axis f.side.step) - phi p
      | closed => 0
      | linearWall => 2 * (phi (p.move f.axis f.side.step) - phi p)
      | quadraticWall =>
        (8 * phi (p.move f.axis f.side.step) - 9 * phi p
          + phi (p.move f.axis (-f.side.step))) / 3 := by
  cases r with
  | interior => rfl
  | closed => exact Exact.zero
  | linearWall =>
      calc derivative linearWall phi p f
          = (2.0 : ℚ) * (phi (p.move f.axis f.side.step) - phi p) := rfl
        _ = 2 * (phi (p.move f.axis f.side.step) - phi p) := by rw [Exact.two]
  | quadraticWall =>
      calc derivative quadraticWall phi p f
          = ((8.0 : ℚ) * phi (p.move f.axis f.side.step) - (9.0 : ℚ) * phi p
              + phi (p.move f.axis (-f.side.step))) / (3.0 : ℚ) := rfl
        _ = _ := by rw [Exact.eight, Exact.nine, Exact.three]

/-- The derivative is linear in the function of cells. -/
lemma derivative_add_mul :
    r.derivative (fun q => phi q + a * psi q) p f
      = r.derivative phi p f + a * r.derivative psi p f := by
  rw [derivative_eq, derivative_eq, derivative_eq]
  cases r <;> ring

/-- All values next to the cell are that of the cell, so there is no derivative. -/
lemma derivative_of_flat (h : ∀ z : ℤ, z = 1 ∨ z = -1 → phi (p.move f.axis z) = phi p) :
    r.derivative phi p f = 0 := by
  have hstep := f.side.step_eq
  have hout : phi (p.move f.axis f.side.step) = phi p := h _ hstep
  have hin : phi (p.move f.axis (-f.side.step)) = phi p := h _ (by omega)
  rw [derivative_eq, hout, hin]
  cases r <;> ring

/-- No value next to the cell exceeds the cell, so nothing flows in. -/
lemma derivative_nonpos (h : ∀ z : ℤ, z = 1 ∨ z = -1 → phi (p.move f.axis z) ≤ phi p) :
    r.derivative phi p f ≤ 0 := by
  have hstep := f.side.step_eq
  have hout : phi (p.move f.axis f.side.step) ≤ phi p := h _ hstep
  have hin : phi (p.move f.axis (-f.side.step)) ≤ phi p := h _ (by omega)
  rw [derivative_eq]
  cases r with
  | interior => linarith
  | closed => exact le_rfl
  | linearWall => linarith
  | quadraticWall => linarith

end FaceRule

/-! ### Fluxes -/

namespace FiniteVolume

variable {o : FiniteVolume ℚ} {l : LevelOperator ℚ} {i : ℕ} {phi psi : Point → ℚ} {p : Point}
  {f : Face} {a : ℚ}

/-- The flux into a cell through a face; none passes into a covered cell. -/
def flux (o : FiniteVolume ℚ) (l : LevelOperator ℚ) (i : ℕ) (phi : Point → ℚ) (p : Point)
    (f : Face) : ℚ :=
  if l.inBody i p then 0
  else l.faceViscosity i p f * (o.rule l i p f).derivative phi p f / l.widthSquared f.axis

/-- No flux passes through a closed face. -/
lemma flux_closed (h : o.rule l i p f = .closed) : o.flux l i phi p f = 0 := by
  have hzero : FaceRule.closed.derivative phi p f = 0 := FaceRule.derivative_eq
  rw [flux, h, hzero]
  simp

/-- The flux is linear in the function of cells. -/
lemma flux_add_mul :
    o.flux l i (fun q => phi q + a * psi q) p f = o.flux l i phi p f + a * o.flux l i psi p f := by
  rw [flux, flux, flux]
  split_ifs
  · ring
  · rw [FaceRule.derivative_add_mul]
    ring

/-- With a viscosity from zero on, nothing flows into a cell that no value next to it exceeds. -/
lemma flux_nonpos (hvisc : 0 ≤ l.faceViscosity i p f)
    (h : ∀ z : ℤ, z = 1 ∨ z = -1 → phi (p.move f.axis z) ≤ phi p) :
    o.flux l i phi p f ≤ 0 := by
  have hwidth : 0 ≤ l.widthSquared f.axis := mul_self_nonneg (l.geometry.width f.axis)
  have hderivative := FaceRule.derivative_nonpos (r := o.rule l i p f) h
  rw [flux]
  split_ifs
  · exact le_rfl
  · exact div_nonpos_of_nonpos_of_nonneg
      (mul_nonpos_of_nonneg_of_nonpos hvisc hderivative) hwidth

/-- The rule of a face, by the edge of the domain. -/
private lemma rule_eq :
    o.rule l i p f =
      if l.inBody i (p.move f.axis f.side.step) then .closed
      else if l.geometry.periodic.get f.axis || p.get f.axis != l.geometry.domain.edge f then
        .interior
      else match o.boundary.get f with
        | .periodic => .interior
        | .neumann => .closed
        | .dirichlet =>
          if 3 ≤ o.wallOrder ∧ 2 ≤ l.geometry.domain.length f.axis then .quadraticWall
          else .linearWall := rfl

/-- A face where the domain does not end is a difference with the neighbour, closed towards a
covered one. -/
lemma rule_inner
    (h : p.get f.axis ≠ l.geometry.domain.edge f ∨ l.geometry.periodic.get f.axis = true) :
    o.rule l i p f
      = if l.inBody i (p.move f.axis f.side.step) then .closed else .interior := by
  have hinner : (l.geometry.periodic.get f.axis || p.get f.axis != l.geometry.domain.edge f)
      = true := by
    rcases h with hne | hwraps
    · simp [hne]
    · simp [hwraps]
  rw [rule_eq, if_pos hinner]

/-- Nothing flows through the last face of an axis that does not wrap around, where the normal
derivative vanishes. -/
lemma rule_end (hend : p.get f.axis = l.geometry.domain.edge f)
    (hwraps : l.geometry.periodic.get f.axis = false) (hkind : o.boundary.get f = .neumann) :
    o.rule l i p f = .closed := by
  have hinner : (l.geometry.periodic.get f.axis || p.get f.axis != l.geometry.domain.edge f)
      = false := by
    simp [hend, hwraps]
  rw [rule_eq, hinner, hkind]
  exact ite_self _

/-- The last face of an axis that does not wrap around is a wall where the value is prescribed,
unless what lies behind it is covered. -/
lemma rule_wall (hend : p.get f.axis = l.geometry.domain.edge f)
    (hwraps : l.geometry.periodic.get f.axis = false) (hkind : o.boundary.get f = .dirichlet)
    (hopen : l.inBody i (p.move f.axis f.side.step) = false) :
    o.rule l i p f =
      if 3 ≤ o.wallOrder ∧ 2 ≤ l.geometry.domain.length f.axis then .quadraticWall
      else .linearWall := by
  have hinner : (l.geometry.periodic.get f.axis || p.get f.axis != l.geometry.domain.edge f)
      = false := by
    simp [hend, hwraps]
  rw [rule_eq, hinner, hkind, hopen]
  rfl

/-- The flux through a face where the domain does not end: a difference with the neighbour, unless
one of the two cells is covered. -/
lemma flux_inner
    (h : p.get f.axis ≠ l.geometry.domain.edge f ∨ l.geometry.periodic.get f.axis = true) :
    o.flux l i phi p f =
      if l.inBody i p = true ∨ l.inBody i (p.move f.axis f.side.step) = true then 0
      else l.faceViscosity i p f * (phi (p.move f.axis f.side.step) - phi p)
        / l.widthSquared f.axis := by
  by_cases hnext : l.inBody i (p.move f.axis f.side.step) = true
  · rw [if_pos (.inr hnext)]
    exact flux_closed (by rw [rule_inner h, if_pos hnext])
  · rw [flux, rule_inner h, if_neg hnext, FaceRule.derivative_eq]
    simp only [hnext, or_false, Bool.false_eq_true]

/-! ### Images -/

/-- The flux into a cell through all of its faces. -/
def inflow (o : FiniteVolume ℚ) (l : LevelOperator ℚ) (i : ℕ) (phi : Point → ℚ) (p : Point) : ℚ :=
  ∑ f, o.flux l i phi p f

private lemma addFlux_eq (hbody : ¬l.inBody i p = true) (sum : ℚ) :
    o.addFlux l i phi p sum f = sum + o.flux l i phi p f := by
  rw [addFlux]
  cases hrule : o.rule l i p f with
  | closed => rw [flux_closed hrule, add_zero]
  | interior => rw [flux, if_neg hbody, hrule]
  | linearWall => rw [flux, if_neg hbody, hrule]
  | quadraticWall => rw [flux, if_neg hbody, hrule]

/-- **The image of a cell is its mass term less the flux into it.** -/
theorem image_eq :
    o.image l i phi p = o.alpha * l.mass.get i p 0 * phi p - o.beta * o.inflow l i phi p := by
  have hflux : (if l.inBody i p then 0 else Face.all.foldl (o.addFlux l i phi p) 0)
      = o.inflow l i phi p := by
    split_ifs with hbody
    · refine (Finset.sum_eq_zero fun f _ => ?_).symm
      rw [flux, if_pos hbody]
    · rw [inflow, ← Face.foldl_add]
      congr 1
      funext s f
      exact addFlux_eq hbody s
  calc o.image l i phi p
      = o.alpha * l.mass.get i p 0 * phi p
          - o.beta * (if l.inBody i p then (0.0 : ℚ)
            else Face.all.foldl (o.addFlux l i phi p) (0.0 : ℚ)) := rfl
    _ = o.alpha * l.mass.get i p 0 * phi p - o.beta * o.inflow l i phi p := by
        rw [Exact.zero, hflux]

/-- The flux into a cell is linear in the function of cells. -/
lemma inflow_add_mul :
    o.inflow l i (fun q => phi q + a * psi q) p = o.inflow l i phi p + a * o.inflow l i psi p := by
  rw [inflow, inflow, inflow, Finset.mul_sum, ← Finset.sum_add_distrib]
  exact Finset.sum_congr rfl fun f _ => flux_add_mul

/-- The flux of a difference into a cell. -/
lemma inflow_sub :
    o.inflow l i (fun q => phi q - psi q) p = o.inflow l i phi p - o.inflow l i psi p := by
  have hsum : (fun q => phi q - psi q) = fun q => phi q + -1 * psi q := by
    funext q
    ring
  rw [hsum, inflow_add_mul]
  ring

/-- Nothing flows into a cell that all values next to it are equal to, whatever the viscosity. -/
lemma inflow_of_flat
    (h : ∀ (a : Axis) (z : ℤ), z = 1 ∨ z = -1 → phi (p.move a z) = phi p) :
    o.inflow l i phi p = 0 := by
  refine Finset.sum_eq_zero fun f _ => ?_
  rw [flux, FaceRule.derivative_of_flat (h f.axis), mul_zero, zero_div, ite_self]

/-- The flux into a cell is odd in the function of cells. -/
lemma inflow_neg : o.inflow l i (fun q => -phi q) p = -o.inflow l i phi p := by
  have hzero : o.inflow l i (fun _ => 0) p = 0 := inflow_of_flat fun _ _ _ => rfl
  have hdiff : o.inflow l i (fun q => 0 - phi q) p
      = o.inflow l i (fun _ => 0) p - o.inflow l i phi p := inflow_sub
  simpa only [zero_sub, hzero] using hdiff

/-- With viscosities from zero on, nothing flows into a cell that no value next to it exceeds. -/
lemma inflow_nonpos (hvisc : ∀ f, 0 ≤ l.faceViscosity i p f)
    (h : ∀ (a : Axis) (z : ℤ), z = 1 ∨ z = -1 → phi (p.move a z) ≤ phi p) :
    o.inflow l i phi p ≤ 0 :=
  Finset.sum_nonpos fun f _ => flux_nonpos (hvisc f) (h f.axis)

end FiniteVolume

end MeshDiffusion
