import Mathlib.Data.Real.Basic
import Mathlib.Order.CompletePartialOrder
import Mathlib.Tactic
import MeshDiffusion.Mesh.Geometry
import MeshDiffusion.Proofs.Arith.Exact
import MeshDiffusion.Proofs.Index.PointSets
import MeshDiffusion.Proofs.Mesh.Nesting

/-!
The places of cells, in exact arithmetic.

Along every axis the cells of a geometry begin at equal distances (`Geometry.startAt`), and each of
them ends where the next one begins. A cell of a refined geometry begins where the cells of the
coarse one begin whenever its number is a multiple of the ratio, below zero as well as above, so
nothing moves when a mesh is refined.

* `Geometry.Proper`: what a geometry is checked for when it is made (`Geometry.make_eq_ok_iff`), and
  keeps when it is refined;
* `Geometry.footprint` and `Geometry.openFootprint`: the points of space that a cell takes up, with
  and without its faces;
* `Geometry.Proper.eq_of_mem_footprint`: no point inside a cell lies in another one;
* `Point.children`: the fine cells of a coarse cell;
* `Geometry.startAt_refine`: refinement moves nothing, hence a coarse cell takes up what its fine
  cells take up, of every axis (`Geometry.Proper.mem_span_refine`) and of space
  (`Geometry.Proper.footprint_refine`);
* `Geometry.sum_centerOf_children`: and the centres of the fine cells balance around its own.
-/

namespace MeshDiffusion

/-! ### Geometries that are accepted -/

namespace Geometry

variable {g : Geometry ℚ} {p : Point} {a : Axis} {k : ℤ}

/-- A geometry has cells, and an extent of positive length along every axis. -/
structure Proper (g : Geometry ℚ) : Prop where
  cells : g.domain.isEmpty = false
  extent : ∀ a, g.low.get a < g.high.get a

/-- Exactly the proper geometries are made. -/
lemma make_eq_ok_iff {domain : Box} {low high : Triple ℚ} {periodic : Triple Bool} :
    make domain low high periodic = .ok g ↔ g = ⟨domain, low, high, periodic⟩ ∧ g.Proper := by
  rw [make]
  constructor
  · intro hmake
    split_ifs at hmake with hempty
    cases hfind : Axis.all.find? fun a => !decide (low.get a < high.get a) with
    | some a => simp [hfind] at hmake
    | none =>
        simp only [hfind, Except.ok.injEq] at hmake
        subst hmake
        refine ⟨rfl, by simpa using hempty, fun a => ?_⟩
        simpa using List.find?_eq_none.1 hfind a (Axis.mem_all a)
  · rintro ⟨rfl, hcells, hextent⟩
    have hfind : Axis.all.find? (fun a => !decide (low.get a < high.get a)) = none :=
      List.find?_eq_none.2 fun a _ => by simpa using hextent a
    rw [if_neg (by simpa using hcells), hfind]

lemma width_eq : g.width a = (g.high.get a - g.low.get a) / g.domain.length a := by
  rw [width, Exact.ofInt_eq, Int.cast_natCast]

/-- The cells of an axis fill the extent. -/
lemma length_mul_width (hcells : g.domain.length a ≠ 0) :
    g.domain.length a * g.width a = g.high.get a - g.low.get a := by
  rw [width_eq, mul_div_cancel₀ _ (Nat.cast_ne_zero.2 hcells)]

lemma width_pos (hextent : g.low.get a < g.high.get a) (hcells : g.domain.length a ≠ 0) :
    0 < g.width a := by
  rw [width_eq]
  exact div_pos (sub_pos.2 hextent) (Nat.cast_pos.2 (Nat.pos_of_ne_zero hcells))

lemma Proper.width_pos (h : g.Proper) (a : Axis) : 0 < g.width a :=
  Geometry.width_pos (h.extent a) (Box.length_pos h.cells a).ne'

/-! ### Where cells begin -/

/-- The place along an axis where the cells of a number begin. -/
def startAt (g : Geometry ℚ) (a : Axis) (k : ℤ) : ℚ :=
  g.low.get a + (k - g.domain.lo.get a) * g.width a

lemma get_lowOf : (g.lowOf p).get a = g.startAt a (p.get a) := by
  rw [lowOf, Triple.get_ofFn, Exact.ofInt_eq, startAt]
  push_cast
  ring

lemma get_centerOf : (g.centerOf p).get a = g.startAt a (p.get a) + g.width a / 2 := by
  rw [centerOf, Triple.get_ofFn, get_lowOf, Exact.half]
  ring

/-- A cell ends where the next one begins. -/
lemma startAt_succ : g.startAt a (k + 1) = g.startAt a k + g.width a := by
  rw [startAt, startAt]
  push_cast
  ring

lemma Proper.startAt_mono (h : g.Proper) (a : Axis) : Monotone (g.startAt a) := by
  refine monotone_int_of_le_succ fun k => ?_
  rw [startAt_succ]
  exact le_add_of_nonneg_right (h.width_pos a).le

/-! ### Footprints -/

/-- What a cell takes up of an axis: one width from its low corner on, the ends included. -/
def span (g : Geometry ℚ) (p : Point) (a : Axis) : Set ℝ :=
  Set.Icc ((g.lowOf p).get a : ℝ) ((g.lowOf p).get a + g.widths.get a)

/-- The box of points that a cell takes up, with its faces. -/
def footprint (g : Geometry ℚ) (p : Point) : Set (Triple ℝ) := {x | ∀ a, x.get a ∈ g.span p a}

/-- The points that lie inside a cell. -/
def openFootprint (g : Geometry ℚ) (p : Point) : Set (Triple ℝ) :=
  {x | ∀ a, x.get a ∈ Set.Ioo ((g.lowOf p).get a : ℝ) ((g.lowOf p).get a + g.widths.get a)}

lemma end_eq : ((g.lowOf p).get a : ℝ) + g.widths.get a = g.startAt a (p.get a + 1) := by
  rw [widths, Triple.get_ofFn, get_lowOf, startAt_succ]
  push_cast
  rfl

lemma mem_span {x : ℝ} :
    x ∈ g.span p a ↔ (g.startAt a (p.get a) : ℝ) ≤ x ∧ x ≤ g.startAt a (p.get a + 1) := by
  rw [span, end_eq, get_lowOf, Set.mem_Icc]

lemma mem_openFootprint {x : Triple ℝ} :
    x ∈ g.openFootprint p ↔
      ∀ a, (g.startAt a (p.get a) : ℝ) < x.get a ∧ x.get a < g.startAt a (p.get a + 1) :=
  forall_congr' fun a => by rw [end_eq, get_lowOf, Set.mem_Ioo]

/-- **A point inside a cell lies in no other cell.** -/
lemma Proper.eq_of_mem_footprint (h : g.Proper) {q : Point} {x : Triple ℝ}
    (hx : x ∈ g.openFootprint p) (hx' : x ∈ g.footprint q) : p = q := by
  refine Triple.ext_get fun a => ?_
  obtain ⟨hlow, hhigh⟩ := mem_openFootprint.1 hx a
  obtain ⟨hlow', hhigh'⟩ := mem_span.1 (hx' a)
  rcases lt_trichotomy (p.get a) (q.get a) with hlt | heq | hgt
  · have hle : (g.startAt a (p.get a + 1) : ℝ) ≤ g.startAt a (q.get a) :=
      Rat.cast_le.2 (h.startAt_mono a hlt)
    linarith
  · exact heq
  · have hle : (g.startAt a (q.get a + 1) : ℝ) ≤ g.startAt a (p.get a) :=
      Rat.cast_le.2 (h.startAt_mono a hgt)
    linarith

end Geometry

/-! ### Children -/

namespace Point

variable {r : ℤ} {p f : Point}

/-- The cells that a cell is split into. -/
def children (r : ℤ) (p : Point) : Finset Point :=
  ((⟨p, p, .cell⟩ : Box).refine r).points.toFinset

/-- The children of a cell are the cells whose numbers give its own by floor division. -/
lemma mem_children (hr : 1 ≤ r) : f ∈ children r p ↔ ∀ a, f.get a / r = p.get a := by
  rw [children, List.mem_toFinset, Box.mem_points, Box.mem_refine (by omega), Box.mem_iff]
  refine forall_congr' fun a => ?_
  rw [Triple.get_map]
  exact ⟨fun h => le_antisymm h.2 h.1, fun h => ⟨h.ge, h.le⟩⟩

/-- A cell has as many children as the ratio says, along every axis. -/
lemma card_children (hr : 1 ≤ r) : ((children r p).card : ℤ) = r ^ 3 := by
  have hone : (⟨p, p, .cell⟩ : Box).size = 1 := by simp [Box.size, Box.length]
  rw [children, List.toFinset_card_of_nodup (Box.nodup_points _), Box.length_points,
    Box.size_refine hr, hone, Nat.cast_one, one_mul]

/-- The child on the other side of the centre. -/
def mirror (r : ℤ) (p f : Point) : Point :=
  .ofFn fun a => p.get a * r + (p.get a + 1) * r - 1 - f.get a

lemma mirror_mem (hr : 1 ≤ r) (hf : f ∈ children r p) : mirror r p f ∈ children r p := by
  refine (mem_children hr).2 fun a => ?_
  have hf := (ediv_eq_iff hr).1 ((mem_children hr).1 hf a)
  rw [ediv_eq_iff hr, mirror, Triple.get_ofFn]
  omega

lemma mirror_mirror : mirror r p (mirror r p f) = f := by
  refine Triple.ext_get fun a => ?_
  rw [mirror, Triple.get_ofFn, mirror, Triple.get_ofFn]
  omega

end Point

/-! ### Refinement -/

namespace Geometry

variable {g : Geometry ℚ} {p f : Point} {a : Axis} {k r : ℤ}

lemma Proper.refine (h : g.Proper) (hr : 1 ≤ r) : (g.refine r).Proper := by
  refine ⟨?_, h.extent⟩
  obtain ⟨p, hp⟩ := Box.isEmpty_eq_false_iff.1 h.cells
  refine Box.isEmpty_eq_false_iff.2 ⟨p.map (· * r), (Box.mem_refine (by omega)).2 ?_⟩
  have hback : (p.map (· * r)).map (· / r) = p := by
    refine Triple.ext_get fun a => ?_
    rw [Triple.get_map, Triple.get_map, Int.mul_ediv_cancel _ (by omega)]
  rwa [hback]

lemma width_refine (hr : 1 ≤ r) : (g.refine r).width a = g.width a / r := by
  have hlength : ((g.refine r).domain.length a : ℚ) = g.domain.length a * r :=
    mod_cast Box.length_refine hr
  rw [width_eq, width_eq, hlength, div_div]
  rfl

/-- **Refinement moves nothing**: where the cells of a number begin, the fine cells of that number
times the ratio begin. -/
lemma startAt_refine (hr : 1 ≤ r) : (g.refine r).startAt a (k * r) = g.startAt a k := by
  have hlow : (g.refine r).domain.lo.get a = g.domain.lo.get a * r := Triple.get_map ..
  have hratio : (r : ℚ) ≠ 0 := by
    have : r ≠ 0 := by omega
    exact_mod_cast this
  rw [startAt, startAt, hlow, width_refine hr]
  have hscale : ((k * r : ℤ) - (g.domain.lo.get a * r : ℤ) : ℚ) * (g.width a / r)
      = (k - g.domain.lo.get a) * g.width a := by
    push_cast
    field_simp
  rw [hscale]
  rfl

/-- A walk of steps from below a place to above it has a step over the place. -/
private lemma exists_step {s : ℤ → ℝ} {x : ℝ} {m : ℤ} {n : ℕ} (hn : 1 ≤ n) (hlow : s m ≤ x)
    (hhigh : x ≤ s (m + n)) : ∃ j, m ≤ j ∧ j < m + n ∧ s j ≤ x ∧ x ≤ s (j + 1) := by
  induction n, hn using Nat.le_induction with
  | base => exact ⟨m, le_rfl, by omega, hlow, hhigh⟩
  | succ n hn ih =>
      rcases le_total x (s (m + n)) with hle | hge
      · obtain ⟨j, hmj, hjn, hj⟩ := ih hle
        exact ⟨j, hmj, by omega, hj⟩
      · refine ⟨m + n, by omega, by omega, hge, ?_⟩
        rwa [add_assoc]

/-- **A cell takes up of an axis what its children take up of it.** -/
lemma Proper.mem_span_refine (h : g.Proper) (hr : 1 ≤ r) {x : ℝ} :
    x ∈ g.span p a ↔ ∃ j, j / r = p.get a ∧
      ((g.refine r).startAt a j : ℝ) ≤ x ∧ x ≤ (g.refine r).startAt a (j + 1) := by
  have hfirst : (g.refine r).startAt a (p.get a * r) = g.startAt a (p.get a) := startAt_refine hr
  have hnext : (g.refine r).startAt a ((p.get a + 1) * r) = g.startAt a (p.get a + 1) :=
    startAt_refine hr
  rw [mem_span, ← hfirst, ← hnext]
  constructor
  · rintro ⟨hlow, hhigh⟩
    have hlast : (p.get a + 1) * r = p.get a * r + r.toNat := by
      rw [Int.toNat_of_nonneg (by omega)]
      ring
    rw [hlast] at hhigh
    obtain ⟨j, hge, hlt, hj⟩ := exists_step (s := fun j => ((g.refine r).startAt a j : ℝ))
      (by omega) hlow hhigh
    exact ⟨j, (Point.ediv_eq_iff hr).2 ⟨hge, hlast ▸ hlt⟩, hj⟩
  · rintro ⟨j, hj, hlow, hhigh⟩
    obtain ⟨hge, hlt⟩ := (Point.ediv_eq_iff hr).1 hj
    have hmono := (h.refine hr).startAt_mono a
    exact ⟨(Rat.cast_le.2 (hmono hge)).trans hlow, hhigh.trans (Rat.cast_le.2 (hmono hlt))⟩

/-- A child takes up of an axis some of what the cell takes up of it. -/
lemma Proper.span_child_subset (h : g.Proper) (hr : 1 ≤ r) (hf : f ∈ Point.children r p) :
    (g.refine r).span f a ⊆ g.span p a := fun _ hx =>
  (h.mem_span_refine hr).2 ⟨f.get a, (Point.mem_children hr).1 hf a, mem_span.1 hx⟩

/-- Places that a cell takes up of the axes are all taken up by one child. -/
lemma Proper.exists_child (h : g.Proper) (hr : 1 ≤ r) {x : Axis → ℝ}
    (hx : ∀ a, x a ∈ g.span p a) : ∃ f ∈ Point.children r p, ∀ a, x a ∈ (g.refine r).span f a := by
  choose j hj hbetween using fun a => (h.mem_span_refine hr).1 (hx a)
  refine ⟨.ofFn j, (Point.mem_children hr).2 fun a => ?_, fun a => mem_span.2 ?_⟩
  · rw [Triple.get_ofFn, hj]
  · rw [Triple.get_ofFn]
    exact hbetween a

/-- **A cell takes up the space that its children take up.** -/
lemma Proper.footprint_refine (h : g.Proper) (hr : 1 ≤ r) :
    g.footprint p = ⋃ f ∈ Point.children r p, (g.refine r).footprint f := by
  ext x
  rw [Set.mem_iUnion₂]
  constructor
  · intro hx
    obtain ⟨f, hf, hxf⟩ := h.exists_child hr hx
    exact ⟨f, hf, hxf⟩
  · rintro ⟨f, hf, hxf⟩
    exact fun a => h.span_child_subset hr hf (hxf a)

/-- The centres of a child and of the one on the other side lie opposite each other. -/
lemma centerOf_mirror (hr : 1 ≤ r) :
    ((g.refine r).centerOf f).get a + ((g.refine r).centerOf (Point.mirror r p f)).get a
      = 2 * (g.centerOf p).get a := by
  have hfirst : (g.refine r).startAt a (p.get a * r) = g.startAt a (p.get a) := startAt_refine hr
  have hnext : (g.refine r).startAt a ((p.get a + 1) * r) = g.startAt a (p.get a + 1) :=
    startAt_refine hr
  have hends : g.startAt a (p.get a) + g.startAt a (p.get a + 1) = 2 * (g.centerOf p).get a := by
    rw [get_centerOf, startAt_succ]
    ring
  rw [← hends, ← hfirst, ← hnext, get_centerOf, get_centerOf, Point.mirror, Triple.get_ofFn]
  simp only [startAt]
  push_cast
  ring

/-- **The centres of the children balance around the centre of the cell.** -/
lemma sum_centerOf_children (hr : 1 ≤ r) :
    ∑ f ∈ Point.children r p, ((g.refine r).centerOf f).get a
      = (Point.children r p).card * (g.centerOf p).get a := by
  have hmirror : ∑ f ∈ Point.children r p, ((g.refine r).centerOf f).get a
      = ∑ f ∈ Point.children r p, ((g.refine r).centerOf (Point.mirror r p f)).get a :=
    Finset.sum_nbij' (Point.mirror r p) (Point.mirror r p) (fun f hf => Point.mirror_mem hr hf)
      (fun f hf => Point.mirror_mem hr hf) (fun f _ => Point.mirror_mirror)
      (fun f _ => Point.mirror_mirror) fun f _ => by rw [Point.mirror_mirror]
  have hpairs : ∑ f ∈ Point.children r p, (((g.refine r).centerOf f).get a
        + ((g.refine r).centerOf (Point.mirror r p f)).get a)
      = (Point.children r p).card * (2 * (g.centerOf p).get a) := by
    rw [Finset.sum_congr rfl fun f _ => centerOf_mirror hr, Finset.sum_const, nsmul_eq_mul]
  rw [Finset.sum_add_distrib, ← hmirror] at hpairs
  linarith

end Geometry

end MeshDiffusion
