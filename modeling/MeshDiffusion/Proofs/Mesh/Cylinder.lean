import Mathlib.Tactic
import MeshDiffusion.Mesh.Obstacle
import MeshDiffusion.Proofs.Mesh.Footprint

/-!
Cells around a cylinder, in exact arithmetic.

A cylinder looks at the four corners of a cell and at the point of the cell nearest to its axis, and
says how all points of the cell lie to the circle. That is enough. Along an axis no place of an
interval is further away than one of its ends, so the cell lies inside the circle when its corners
do; and no place is nearer than the one that the clamp finds, so the cell stays outside when that
one does.

* `Geometry.rectangle`: what a cell takes up of the plane; `Cylinder.disc`: the points inside the
  circle;
* `Cylinder.kind_eq_covered_iff`, `Cylinder.kind_eq_regular_iff`: what the kind of a cell is read
  off, in any arithmetic;
* `Cylinder.rectangle_subset_disc_iff`, `Cylinder.disjoint_rectangle_disc_iff`: the corners and the
  nearest point decide for the whole cell;
* `Cylinder.kind_exact`: so the kind of a cell is exact;
* `Cylinder.refine_in_place`: and a refined mesh has its cells, and the cylinder in them, where the
  coarse one has.
-/

namespace MeshDiffusion

/-! ### Distances along an axis -/

namespace Geometry

variable {g : Geometry ℚ} {p : Point} {a : Axis} {m u : ℚ} {x : ℝ}

lemma Proper.startAt_le (h : g.Proper) (k : ℤ) : g.startAt a k ≤ g.startAt a (k + 1) :=
  h.startAt_mono a (by omega)

/-- Where a cell begins and where it ends belongs to it. -/
lemma Proper.mem_span_of_end (h : g.Proper)
    (hu : u = g.startAt a (p.get a) ∨ u = g.startAt a (p.get a + 1)) : (u : ℝ) ∈ g.span p a := by
  have hle := h.startAt_le (a := a) (p.get a)
  rw [mem_span, Rat.cast_le, Rat.cast_le]
  rcases hu with rfl | rfl
  · exact ⟨le_rfl, hle⟩
  · exact ⟨hle, le_rfl⟩

/-- No place of a cell is further from a given place than one of the ends of the cell. -/
lemma exists_end_further (hx : x ∈ g.span p a) (m : ℚ) :
    ∃ u, (u = g.startAt a (p.get a) ∨ u = g.startAt a (p.get a + 1)) ∧
      (x - m) ^ 2 ≤ ((u : ℝ) - m) ^ 2 := by
  obtain ⟨hlow, hhigh⟩ := mem_span.1 hx
  rcases le_total x m with hle | hge
  · refine ⟨_, .inl rfl, ?_⟩
    rw [sub_sq_comm x, sub_sq_comm _ (m : ℝ)]
    exact pow_le_pow_left₀ (by linarith) (by linarith) 2
  · exact ⟨_, .inr rfl, pow_le_pow_left₀ (by linarith) (by linarith) 2⟩

/-- The place of a cell nearest to a given place. -/
def clampTo (g : Geometry ℚ) (p : Point) (a : Axis) (m : ℚ) : ℚ :=
  Scalar.clamp m (g.startAt a (p.get a)) (g.startAt a (p.get a + 1))

lemma Proper.clampTo_mem_span (h : g.Proper) : (g.clampTo p a m : ℝ) ∈ g.span p a := by
  have hle := h.startAt_le (a := a) (p.get a)
  rw [mem_span, Rat.cast_le, Rat.cast_le, clampTo, Scalar.clamp]
  split_ifs with hlow hhigh
  · exact ⟨le_rfl, hle⟩
  · exact ⟨hle, le_rfl⟩
  · exact ⟨not_lt.1 hlow, not_lt.1 hhigh⟩

lemma sq_clampTo_sub_le (hx : x ∈ g.span p a) :
    ((g.clampTo p a m : ℝ) - m) ^ 2 ≤ (x - m) ^ 2 := by
  obtain ⟨hlow, hhigh⟩ := mem_span.1 hx
  rw [clampTo, Scalar.clamp]
  split_ifs with hbefore hafter
  · have hbefore' : (m : ℝ) < g.startAt a (p.get a) := Rat.cast_lt.2 hbefore
    exact pow_le_pow_left₀ (by linarith) (by linarith) 2
  · have hafter' : (g.startAt a (p.get a + 1) : ℝ) < m := Rat.cast_lt.2 hafter
    rw [sub_sq_comm _ (m : ℝ), sub_sq_comm x]
    exact pow_le_pow_left₀ (by linarith) (by linarith) 2
  · rw [sub_self, zero_pow two_ne_zero]
    exact sq_nonneg _

end Geometry

/-! ### What the kind of a cell is read off -/

namespace Cylinder

section Kinds

variable {K : Type} [Scalar K] {c : Cylinder K} {p : Point}

/-- A cell is covered when its corners are inside. -/
lemma kind_eq_covered_iff :
    c.kind p = .covered ↔ ∀ q ∈ c.corners p, c.inside q.1 q.2 = true := by
  have hall : (c.corners p).countP (fun q => c.inside q.1 q.2) = 4 ↔
      ∀ q ∈ c.corners p, c.inside q.1 q.2 = true := List.countP_eq_length
  rw [← hall, kind]
  split
  · next hnone =>
      rw [hnone]
      split_ifs <;> simp
  · next hfour => simp [hfour]
  · next hfour => simpa using hfour

/-- A cell is regular when neither a corner nor the point nearest to the axis is inside. -/
lemma kind_eq_regular_iff :
    c.kind p = .regular ↔ (∀ q ∈ c.corners p, c.inside q.1 q.2 = false) ∧
      c.inside (c.nearest p).1 (c.nearest p).2 = false := by
  have hnone : (c.corners p).countP (fun q => c.inside q.1 q.2) = 0 ↔
      ∀ q ∈ c.corners p, c.inside q.1 q.2 = false := by
    simp [List.countP_eq_zero]
  rw [← hnone, kind]
  split
  · next hcount => simp [hcount]
  · next hcount => simp [hcount]
  · next hcount _ =>
      refine iff_of_false nofun ?_
      exact fun h => hcount h.1

end Kinds

end Cylinder

/-! ### The plane across the axis -/

/-- The rectangle that a cell takes up of the plane across the third axis. -/
def Geometry.rectangle (g : Geometry ℚ) (p : Point) : Set (ℝ × ℝ) := g.span p .x ×ˢ g.span p .y

/-- A cell takes up of the plane what its children take up of it. -/
lemma Geometry.Proper.rectangle_refine {g : Geometry ℚ} {p : Point} {r : ℤ} (h : g.Proper)
    (hr : 1 ≤ r) : g.rectangle p = ⋃ f ∈ Point.children r p, (g.refine r).rectangle f := by
  ext ⟨x, y⟩
  rw [Set.mem_iUnion₂]
  constructor
  · rintro ⟨hx, hy⟩
    -- the rectangle says nothing of the third axis, along which some place of the cell is added
    have hplace (a : Axis) : (⟨x, y, g.startAt .z p.z⟩ : Triple ℝ).get a ∈ g.span p a := by
      cases a with
      | x => exact hx
      | y => exact hy
      | z => exact h.mem_span_of_end (.inl rfl)
    obtain ⟨f, hf, hxf⟩ := h.exists_child hr hplace
    exact ⟨f, hf, hxf .x, hxf .y⟩
  · rintro ⟨f, hf, hx, hy⟩
    exact ⟨h.span_child_subset hr hf hx, h.span_child_subset hr hf hy⟩

namespace Cylinder

variable {c : Cylinder ℚ} {p : Point} {x y : ℚ}

/-- The points of the plane strictly inside the circle. -/
def disc (c : Cylinder ℚ) : Set (ℝ × ℝ) :=
  {q | (q.1 - c.centerX) ^ 2 + (q.2 - c.centerY) ^ 2 < (c.radius : ℝ) ^ 2}

lemma inside_iff : c.inside x y = true ↔ ((x : ℝ), (y : ℝ)) ∈ c.disc := by
  have hinside : c.inside x y = true ↔
      (x - c.centerX) * (x - c.centerX) + (y - c.centerY) * (y - c.centerY)
        < c.radius * c.radius := decide_eq_true_iff
  have hdisc : ((x : ℝ), (y : ℝ)) ∈ c.disc ↔
      ((x : ℝ) - c.centerX) ^ 2 + ((y : ℝ) - c.centerY) ^ 2 < (c.radius : ℝ) ^ 2 := Iff.rfl
  rw [hinside, hdisc]
  simp only [← pow_two]
  norm_cast

lemma low_eq : (c.geometry.lowOf p).x = c.geometry.startAt .x p.x ∧
    (c.geometry.lowOf p).y = c.geometry.startAt .y p.y :=
  ⟨Geometry.get_lowOf (a := .x), Geometry.get_lowOf (a := .y)⟩

lemma high_eq {k : ℤ} :
    c.geometry.startAt .x k + c.geometry.widths.x = c.geometry.startAt .x (k + 1) ∧
      c.geometry.startAt .y k + c.geometry.widths.y = c.geometry.startAt .y (k + 1) :=
  ⟨Geometry.startAt_succ.symm, Geometry.startAt_succ.symm⟩

/-- A corner is an end of the cell along both axes. -/
lemma mem_corners {q : ℚ × ℚ} :
    q ∈ c.corners p ↔
      (q.1 = c.geometry.startAt .x p.x ∨ q.1 = c.geometry.startAt .x (p.x + 1)) ∧
      (q.2 = c.geometry.startAt .y p.y ∨ q.2 = c.geometry.startAt .y (p.y + 1)) := by
  obtain ⟨u, v⟩ := q
  simp only [corners, Exact.zero, List.flatMap_cons, List.flatMap_nil, List.map_cons, List.map_nil,
    add_zero, low_eq, high_eq, List.cons_append, List.nil_append, List.mem_cons, Prod.mk.injEq,
    List.not_mem_nil, or_false]
  tauto

lemma nearest_eq :
    c.nearest p = (c.geometry.clampTo p .x c.centerX, c.geometry.clampTo p .y c.centerY) := by
  simp only [nearest, low_eq, high_eq]
  rfl

/-- **The corners decide whether a cell lies inside the circle.** -/
lemma rectangle_subset_disc_iff (h : c.geometry.Proper) :
    c.geometry.rectangle p ⊆ c.disc ↔ ∀ q ∈ c.corners p, c.inside q.1 q.2 = true := by
  constructor
  · intro hsubset q hq
    obtain ⟨hx, hy⟩ := mem_corners.1 hq
    exact inside_iff.2 (hsubset ⟨h.mem_span_of_end hx, h.mem_span_of_end hy⟩)
  · rintro hcorners ⟨x, y⟩ ⟨hx, hy⟩
    -- the corner that is further away along both axes is inside
    obtain ⟨u, hu, hfarx⟩ := Geometry.exists_end_further hx c.centerX
    obtain ⟨v, hv, hfary⟩ := Geometry.exists_end_further hy c.centerY
    have hcorner : ((u : ℝ) - c.centerX) ^ 2 + ((v : ℝ) - c.centerY) ^ 2 < (c.radius : ℝ) ^ 2 :=
      inside_iff.1 (hcorners (u, v) (mem_corners.2 ⟨hu, hv⟩))
    exact (add_le_add hfarx hfary).trans_lt hcorner

/-- **The nearest point decides whether a cell lies outside the circle.** -/
lemma disjoint_rectangle_disc_iff (h : c.geometry.Proper) :
    Disjoint (c.geometry.rectangle p) c.disc ↔
      c.inside (c.nearest p).1 (c.nearest p).2 = false := by
  rw [Set.disjoint_left, ← Bool.not_eq_true, inside_iff, nearest_eq]
  constructor
  · intro hapart
    exact hapart ⟨h.clampTo_mem_span, h.clampTo_mem_span⟩
  · rintro hnearest ⟨x, y⟩ ⟨hx, hy⟩ hinside
    exact hnearest ((add_le_add (Geometry.sq_clampTo_sub_le hx)
      (Geometry.sq_clampTo_sub_le hy)).trans_lt hinside)

lemma kind_covered_iff (h : c.geometry.Proper) :
    c.kind p = .covered ↔ c.geometry.rectangle p ⊆ c.disc :=
  kind_eq_covered_iff.trans (rectangle_subset_disc_iff h).symm

lemma kind_regular_iff (h : c.geometry.Proper) :
    c.kind p = .regular ↔ Disjoint (c.geometry.rectangle p) c.disc := by
  rw [kind_eq_regular_iff, disjoint_rectangle_disc_iff h]
  refine ⟨And.right, fun hnearest => ⟨fun q hq => ?_, hnearest⟩⟩
  -- a corner is a point of the cell, so none is inside
  have hapart := Set.disjoint_left.1 ((disjoint_rectangle_disc_iff h).2 hnearest)
  obtain ⟨hx, hy⟩ := mem_corners.1 hq
  rw [← Bool.not_eq_true, inside_iff]
  exact hapart ⟨h.mem_span_of_end hx, h.mem_span_of_end hy⟩

/-- **The kind of a cell is exact.** In exact arithmetic, whatever the axis and the radius of a
cylinder are: a cell is covered exactly when all points of its rectangle are strictly inside the
circle, regular exactly when none is, and cut otherwise. -/
theorem kind_exact (h : c.geometry.Proper) (p : Point) :
    (c.kind p = .covered ↔ c.geometry.rectangle p ⊆ c.disc) ∧
    (c.kind p = .regular ↔ Disjoint (c.geometry.rectangle p) c.disc) ∧
    (c.kind p = .cut ↔
      ¬c.geometry.rectangle p ⊆ c.disc ∧ ¬Disjoint (c.geometry.rectangle p) c.disc) := by
  have hcovered := kind_covered_iff h (p := p)
  have hregular := kind_regular_iff h (p := p)
  refine ⟨hcovered, hregular, ?_⟩
  rw [← hcovered, ← hregular]
  cases c.kind p <;> decide

/-! ### A lid on a plate -/

/-- Four cells of unit width along two axes, with the corner between the middle ones at the
origin. -/
private def plate : Geometry ℚ :=
  ⟨⟨⟨-2, -2, 0⟩, ⟨1, 1, 0⟩, .cell⟩, ⟨-2, -2, 0⟩, ⟨2, 2, 1⟩, .const false⟩

private lemma plate_proper : plate.Proper := by
  have hmake : Geometry.make plate.domain plate.low plate.high plate.periodic = .ok plate := rfl
  exact (Geometry.make_eq_ok_iff.1 hmake).2

/-- A lid of a given radius around a place on the face between two cells. -/
private def lid (radius : ℚ) : Cylinder ℚ := ⟨plate, 0, 1 / 2, radius⟩

/-- A lid of radius one touches a cell without reaching into it; a small lid lies across the face of
a cell without reaching a corner of it; a large one covers the cell, whose furthest corner is nearer
than its rim. -/
theorem kind_exact_lid :
    plate.Proper ∧ (lid 1).kind ⟨1, 0, 0⟩ = .regular ∧
    Disjoint (plate.rectangle ⟨1, 0, 0⟩) (lid 1).disc ∧
    (lid (1 / 4)).kind ⟨0, 0, 0⟩ = .cut ∧ ¬plate.rectangle ⟨0, 0, 0⟩ ⊆ (lid (1 / 4)).disc ∧
    ¬Disjoint (plate.rectangle ⟨0, 0, 0⟩) (lid (1 / 4)).disc ∧
    (lid 2).kind ⟨0, 0, 0⟩ = .covered ∧ plate.rectangle ⟨0, 0, 0⟩ ⊆ (lid 2).disc := by
  have hregular : (lid 1).kind ⟨1, 0, 0⟩ = .regular := by decide +kernel
  have hcut : (lid (1 / 4)).kind ⟨0, 0, 0⟩ = .cut := by decide +kernel
  have hcovered : (lid 2).kind ⟨0, 0, 0⟩ = .covered := by decide +kernel
  obtain ⟨hreach, htouch⟩ := (kind_exact (c := lid (1 / 4)) plate_proper _).2.2.1 hcut
  exact ⟨plate_proper, hregular, (kind_exact (c := lid 1) plate_proper _).2.1.1 hregular, hcut,
    hreach, htouch, hcovered, (kind_exact (c := lid 2) plate_proper _).1.1 hcovered⟩

/-! ### Refinement -/

/-- The same cylinder in a refined mesh. -/
def refine (c : Cylinder ℚ) (r : ℤ) : Cylinder ℚ := { c with geometry := c.geometry.refine r }

variable {r : ℤ}

/-- A cell is covered exactly when its children are. -/
lemma kind_covered_refine_iff (h : c.geometry.Proper) (hr : 1 ≤ r) :
    c.kind p = .covered ↔ ∀ f ∈ Point.children r p, (c.refine r).kind f = .covered := by
  have hfine : (c.refine r).geometry.Proper := h.refine hr
  rw [kind_covered_iff h, h.rectangle_refine hr, Set.iUnion₂_subset_iff]
  exact forall₂_congr fun f _ => (kind_covered_iff hfine).symm

/-- A cell is regular exactly when its children are. -/
lemma kind_regular_refine_iff (h : c.geometry.Proper) (hr : 1 ≤ r) :
    c.kind p = .regular ↔ ∀ f ∈ Point.children r p, (c.refine r).kind f = .regular := by
  have hfine : (c.refine r).geometry.Proper := h.refine hr
  rw [kind_regular_iff h, h.rectangle_refine hr, Set.disjoint_iUnion₂_left]
  exact forall₂_congr fun f _ => (kind_regular_iff hfine).symm

/-- **Refinement keeps the mesh and the obstacle in place.** For every ratio from one on and every
cell, below zero as well: the cells whose numbers give those of the cell by floor division are as
many as the third power of the ratio; their footprints fill the footprint of the cell, and no point
inside one of them lies in another; the mean of their centres is the centre of the cell. And for
every cylinder, the cell is covered exactly when all of them are, and regular exactly when all of
them are. -/
theorem refine_in_place (h : c.geometry.Proper) (hr : 1 ≤ r) (p : Point) :
    let g := c.geometry
    let fine := g.refine r
    let cells := Point.children r p
    (∀ f, f ∈ cells ↔ ∀ a, f.get a / r = p.get a) ∧ (cells.card : ℤ) = r ^ 3 ∧
    g.footprint p = ⋃ f ∈ cells, fine.footprint f ∧
    (∀ f ∈ cells, ∀ f' ∈ cells, f ≠ f' → Disjoint (fine.openFootprint f) (fine.footprint f')) ∧
    (∀ a, (∑ f ∈ cells, (fine.centerOf f).get a) / cells.card = (g.centerOf p).get a) ∧
    (c.kind p = .covered ↔ ∀ f ∈ cells, (c.refine r).kind f = .covered) ∧
    (c.kind p = .regular ↔ ∀ f ∈ cells, (c.refine r).kind f = .regular) := by
  intro g fine cells
  have hcard : (cells.card : ℤ) = r ^ 3 := Point.card_children hr
  refine ⟨fun f => Point.mem_children hr, hcard, h.footprint_refine hr, fun f _ f' _ hne => ?_,
    fun a => ?_, kind_covered_refine_iff h hr, kind_regular_refine_iff h hr⟩
  · exact Set.disjoint_left.2 fun x hx hx' => hne ((h.refine hr).eq_of_mem_footprint hx hx')
  · have hsome : (cells.card : ℚ) ≠ 0 := by
      have hpos : 0 < r ^ 3 := pow_pos (by omega) 3
      have hne : cells.card ≠ 0 := by omega
      exact Nat.cast_ne_zero.2 hne
    rw [Geometry.sum_centerOf_children hr, mul_div_cancel_left₀ _ hsome]

/-- Every cell of the plate split into three along every axis: the cell below the origin lies under
a lid of radius two, and so do its 27 children, the first of which has the number `-3` along both
axes. -/
theorem refine_in_place_lid :
    plate.Proper ∧ (1 : ℤ) ≤ 3 ∧ (⟨-3, -3, 0⟩ : Point) ∈ Point.children 3 ⟨-1, -1, 0⟩ ∧
    (Point.children 3 ⟨-1, -1, 0⟩).card = 27 ∧
    plate.footprint ⟨-1, -1, 0⟩
      = ⋃ f ∈ Point.children 3 ⟨-1, -1, 0⟩, (plate.refine 3).footprint f ∧
    (lid 2).kind ⟨-1, -1, 0⟩ = .covered ∧
    (∀ f ∈ Point.children 3 ⟨-1, -1, 0⟩, ((lid 2).refine 3).kind f = .covered) ∧
    (lid 1).kind ⟨-1, -1, 0⟩ ≠ .regular ∧
    ∃ f ∈ Point.children 3 ⟨-1, -1, 0⟩, ((lid 1).refine 3).kind f ≠ .regular := by
  obtain ⟨hmem, -, hfills, -, -, hcovered, -⟩ :=
    refine_in_place (c := lid 2) (r := 3) plate_proper (by decide) ⟨-1, -1, 0⟩
  have hlarge : (lid 2).kind ⟨-1, -1, 0⟩ = .covered := by decide +kernel
  have hsmall : (lid 1).kind ⟨-1, -1, 0⟩ ≠ .regular := by decide +kernel
  have hregular := (refine_in_place (c := lid 1) (r := 3) plate_proper (by decide)
    ⟨-1, -1, 0⟩).2.2.2.2.2.2
  refine ⟨plate_proper, by decide, (hmem _).2 fun a => by cases a <;> decide, by decide +kernel,
    hfills, hlarge, hcovered.1 hlarge, hsmall, ?_⟩
  by_contra hnone
  push Not at hnone
  exact hsmall (hregular.2 hnone)

end Cylinder

end MeshDiffusion
