import Mathlib.Tactic
import MeshDiffusion.Index.Box

/-!
Boxes as sets of points.

Every operation on boxes moves corners, and both corners belong to the box. What it does to the
points is stated here, for corners on both sides of the origin and for boxes without points.

* `Box.inter?_eq_none_iff` and `Box.mem_inter?`: the common points of two boxes; `Box.covers_iff`:
  the points of one among those of another;
* `Box.mem_faces_iff` and `Box.cells_faces`: the faces around the cells of a box, and back;
* `Box.mem_refine` and `Box.mem_coarsen`: refining takes the cells that floor division sends into
  the box, coarsening the cells that floor division sends the box to;
* `Box.covers_refine_iff`: a refined box covers another one exactly when the box covers the other
  one coarsened, so of the boxes whose refinement covers it the coarsened one is the smallest;
* `Box.mem_grow_iff` and `Box.mem_shrink_iff`: growing takes the points near the box, shrinking
  leaves those with all of their neighbours in the box;
* `Box.pointSets_exact`: all of these together.
-/

namespace MeshDiffusion

/-- The numbers with one quotient form an interval. -/
lemma Point.ediv_eq_iff {r j k : ℤ} (hr : 1 ≤ r) : j / r = k ↔ k * r ≤ j ∧ j < (k + 1) * r := by
  rw [← Int.le_ediv_iff_mul_le (by omega), ← Int.ediv_lt_iff_lt_mul (by omega)]
  omega

namespace Box

variable {b c d : Box} {a : Axis} {p : Point} {r : ℤ}

/-! ### Common points -/

/-- Two boxes that share a point have a common part, and it holds what both of them hold. -/
lemma exists_mem_inter? : (∃ d, b.inter? c = some d ∧ p ∈ d) ↔ p ∈ b ∧ p ∈ c := by
  rw [← mem_meet, inter?]
  by_cases hempty : (b.meet c).isEmpty = true
  · simp [if_pos hempty, isEmpty_iff.1 hempty p]
  · simp [if_neg hempty]

/-- Two boxes have no common part when they share no point. -/
lemma inter?_eq_none_iff : b.inter? c = none ↔ ∀ p, ¬(p ∈ b ∧ p ∈ c) := by
  simp only [← mem_meet, ← isEmpty_iff, inter?]
  split_ifs with hempty <;> simp [hempty]

/-- The common part of two boxes holds what both of them hold, as points of the first one's kind. -/
lemma mem_inter? (h : b.inter? c = some d) :
    d.centering = b.centering ∧ ∀ p, p ∈ d ↔ p ∈ b ∧ p ∈ c := by
  rw [inter?] at h
  split_ifs at h
  cases h
  exact ⟨rfl, fun p => mem_meet⟩

/-- Of boxes of one kind, either may be cut by the other. -/
lemma inter?_comm (h : b.centering = c.centering) : b.inter? c = c.inter? b := by
  have hmeet : b.meet c = c.meet b := by
    simp only [meet, h, max_comm (b.lo.get _), min_comm (b.hi.get _)]
  rw [inter?, inter?, hmeet]

/-- The corners decide whether a box holds all points of another one. -/
lemma covers_iff : b.covers c = true ↔ ∀ p ∈ c, p ∈ b := by
  rw [covers, Bool.or_eq_true, Bool.and_eq_true, decide_eq_true_eq, decide_eq_true_eq]
  constructor
  · rintro (hempty | ⟨hlo, hhi⟩) p hp
    · exact absurd hp (isEmpty_iff.1 hempty p)
    · refine mem_iff.2 fun a => ?_
      have hlow := mem_iff.1 hlo a
      have hhigh := mem_iff.1 hhi a
      have hbetween := mem_iff.1 hp a
      omega
  · intro hall
    cases hempty : c.isEmpty with
    | true => exact .inl rfl
    | false =>
        obtain ⟨p, hp⟩ := isEmpty_eq_false_iff.1 hempty
        exact .inr ⟨hall _ (lo_mem hp), hall _ (hi_mem hp)⟩

/-! ### Faces -/

/-- A face of a box of cells has a cell of the box on one of its two sides. -/
lemma mem_faces_iff (h : b.isEmpty = false) : p ∈ b.faces a ↔ p ∈ b ∨ p - a.unit ∈ b := by
  obtain ⟨q, hq⟩ := isEmpty_eq_false_iff.1 h
  have hends := mem_iff.1 hq a
  have hunit (e : Axis) : a.unit.get e = if e = a then 1 else 0 := by
    rw [Axis.unit, Triple.get_set, Point.get_zero]
  rw [mem_faces, mem_iff, mem_iff]
  simp only [Triple.get_sub, hunit]
  constructor
  · intro hface
    have halong := hface a
    rw [if_pos rfl] at halong
    -- only the last layer of faces has no cell of the box above it
    by_cases hlast : p.get a ≤ b.hi.get a
    · refine .inl fun e => ?_
      have hacross := hface e
      split_ifs at hacross with he
      · subst he
        exact ⟨halong.1, hlast⟩
      · exact hacross
    · refine .inr fun e => ?_
      have hacross := hface e
      split_ifs at hacross ⊢ with he
      · subst he
        omega
      · omega
  · rintro (hcell | hcell) e
    · have hside := hcell e
      split_ifs <;> omega
    · have hside := hcell e
      split_ifs at hside ⊢ <;> omega

/-- The cells between the faces of a box of cells are its own. -/
lemma cells_faces (h : b.centering = .cell) : (b.faces a).cells = b := by
  obtain ⟨lo, hi, _⟩ := b
  subst h
  simp [faces, cells]

/-! ### Refining and coarsening -/

/-- A cell lies in a refined box when the coarse cell around it lies in the box. -/
lemma mem_refine (hr : 0 < r) : p ∈ b.refine r ↔ p.map (· / r) ∈ b := by
  simp only [mem_iff, refine, Triple.get_map]
  refine forall_congr' fun a => and_congr (Int.le_ediv_iff_mul_le hr).symm ?_
  rw [Int.le_sub_one_iff, ← Int.ediv_lt_iff_lt_mul hr, Int.lt_add_one_iff]

/-- A refined box is longer by the ratio. -/
lemma length_refine (hr : 1 ≤ r) : ((b.refine r).length a : ℤ) = b.length a * r := by
  have hspan : (b.refine r).hi.get a - (b.refine r).lo.get a + 1
      = (b.hi.get a - b.lo.get a + 1) * r := by
    simp only [refine, Triple.get_map]
    ring
  rw [length, length, hspan]
  rcases le_total 0 (b.hi.get a - b.lo.get a + 1) with hcells | hnone
  · rw [Int.toNat_of_nonneg hcells, Int.toNat_of_nonneg (mul_nonneg hcells (by omega))]
  · rw [Int.toNat_of_nonpos hnone, Int.toNat_of_nonpos (mul_nonpos_of_nonpos_of_nonneg hnone
      (by omega))]
    simp

/-- Every cell is split into as many as the third power of the ratio. -/
lemma size_refine (hr : 1 ≤ r) : ((b.refine r).size : ℤ) = b.size * r ^ 3 := by
  rw [size, size]
  push_cast
  rw [length_refine hr, length_refine hr, length_refine hr]
  ring

/-- Coarsening undoes refinement. -/
lemma coarsen_refine (hr : 1 ≤ r) : (b.refine r).coarsen r = b := by
  have hlo : (b.lo.map (· * r)).map (· / r) = b.lo := by
    refine Triple.ext_get fun a => ?_
    rw [Triple.get_map, Triple.get_map, Int.mul_ediv_cancel _ (by omega)]
  have hhi : (b.hi.map fun h => (h + 1) * r - 1).map (· / r) = b.hi := by
    refine Triple.ext_get fun a => ?_
    rw [Triple.get_map, Triple.get_map, Point.ediv_eq_iff hr]
    constructor <;> linarith
  simp only [refine, coarsen, hlo, hhi]

lemma coarsen?_eq (hr : 1 ≤ r) : b.coarsen? r = some (b.coarsen r) := if_neg (by omega)

/-- A coarsened box consists of the coarse cells around the cells of the box. -/
lemma mem_coarsen (hr : 1 ≤ r) (h : b.isEmpty = false) :
    p ∈ b.coarsen r ↔ ∃ q ∈ b, q.map (· / r) = p := by
  obtain ⟨s, hs⟩ := isEmpty_eq_false_iff.1 h
  constructor
  · intro hp
    have hbounds (a : Axis) : p.get a * r ≤ b.hi.get a ∧ b.lo.get a < (p.get a + 1) * r := by
      have hbetween := mem_iff.1 hp a
      simp only [coarsen, Triple.get_map] at hbetween
      rw [← Int.le_ediv_iff_mul_le (by omega), ← Int.ediv_lt_iff_lt_mul (by omega)]
      omega
    -- the lowest cell of the box inside the coarse cell
    refine ⟨.ofFn fun a => max (b.lo.get a) (p.get a * r), mem_iff.2 fun a => ?_,
      Triple.ext_get fun a => ?_⟩
    · have hends := mem_iff.1 hs a
      have hcoarse := hbounds a
      rw [Triple.get_ofFn]
      omega
    · rw [Triple.get_map, Triple.get_ofFn, Point.ediv_eq_iff hr]
      refine ⟨le_max_right .., max_lt (hbounds a).2 ?_⟩
      linarith
  · rintro ⟨q, hq, rfl⟩
    refine mem_iff.2 fun a => ?_
    have hbetween := mem_iff.1 hq a
    simp only [coarsen, Triple.get_map]
    exact ⟨Int.ediv_le_ediv (by omega) hbetween.1, Int.ediv_le_ediv (by omega) hbetween.2⟩

/-- **Refining and coarsening belong together**: a refined box covers another one exactly when the
box itself covers the other one coarsened. -/
lemma covers_refine_iff (hr : 1 ≤ r) (h : c.isEmpty = false) :
    (b.refine r).covers c = true ↔ b.covers (c.coarsen r) = true := by
  rw [covers_iff, covers_iff]
  constructor
  · intro hall p hp
    obtain ⟨q, hq, rfl⟩ := (mem_coarsen hr h).1 hp
    exact (mem_refine (by omega)).1 (hall q hq)
  · intro hall q hq
    exact (mem_refine (by omega)).2 (hall _ ((mem_coarsen hr h).2 ⟨q, hq, rfl⟩))

/-! ### Shifting and growing -/

/-- A shift back undoes a shift. -/
lemma shift_shift_neg (b : Box) (s : Point) : (b.shift s).shift (Point.zero - s) = b := by
  have hback (q : Point) : q + s + (Point.zero - s) = q := by
    refine Triple.ext_get fun a => ?_
    simp only [Triple.get_add, Triple.get_sub, Point.get_zero]
    omega
  simp only [shift, hback]

/-- Moving the sides back undoes a growth, also when points had been lost by it. -/
lemma grow_grow_neg (b : Box) (n : ℤ) : (b.grow n).grow (-n) = b := by
  have hlo : (b.lo.map (· - n)).map (· - -n) = b.lo := Triple.ext_get fun a => by simp
  have hhi : (b.hi.map (· + n)).map (· + -n) = b.hi := Triple.ext_get fun a => by simp
  simp only [grow, hlo, hhi]

/-- A grown box consists of the points that are near a point of the box along every axis. -/
lemma mem_grow_iff (h : b.isEmpty = false) (n : ℕ) :
    p ∈ b.grow n ↔ ∃ q ∈ b, ∀ a, |p.get a - q.get a| ≤ n := by
  obtain ⟨s, hs⟩ := isEmpty_eq_false_iff.1 h
  rw [mem_grow]
  constructor
  · intro hp
    -- the point of the box that is nearest
    refine ⟨.ofFn fun a => max (b.lo.get a) (min (b.hi.get a) (p.get a)),
      mem_iff.2 fun a => ?_, fun a => ?_⟩
    · have hends := mem_iff.1 hs a
      rw [Triple.get_ofFn]
      omega
    · have hgrown := hp a
      rw [Triple.get_ofFn, abs_le]
      omega
  · rintro ⟨q, hq, hnear⟩ a
    have hbetween := mem_iff.1 hq a
    have hdistance := abs_le.1 (hnear a)
    omega

/-- A box that is shrunk keeps the points whose neighbourhood lies in the box. -/
lemma mem_shrink_iff (n : ℕ) :
    p ∈ b.grow (-n) ↔ ∀ q : Point, (∀ a, |p.get a - q.get a| ≤ n) → q ∈ b := by
  rw [mem_grow]
  constructor
  · intro hp q hnear
    refine mem_iff.2 fun a => ?_
    have hshrunk := hp a
    have hdistance := abs_le.1 (hnear a)
    omega
  · intro hall a
    have hlow := mem_iff.1 (hall (.ofFn fun e => p.get e - n) fun e => by simp) a
    have hhigh := mem_iff.1 (hall (.ofFn fun e => p.get e + n) fun e => by simp) a
    rw [Triple.get_ofFn] at hlow hhigh
    omega

/-! ### All operations -/

/-- **The operations on boxes do to the points what their names say**, wherever the corners lie.

* Two boxes have no common part exactly when no point lies in both; else the common part has exactly
  the points that do, and for boxes of one kind the order does not matter. A box covers another one
  exactly when it has all points of the other.
* The faces of a box of cells with points are those with a cell of the box on one of their sides,
  and the cells between them are the box.
* A cell lies in a refined box exactly when floor division by the ratio leads into the box;
  refinement multiplies the number of points by the third power of the ratio, and coarsening undoes
  it.
* A box with points is coarsened to the cells that floor division leads to. The refinement of these
  covers it, and the refinement of any box covers it exactly when that box covers these.
* A shift moves the points; growing takes the points near the box, and shrinking leaves those with
  only points of the box near them; the opposite shift and the opposite growth undo both. -/
theorem pointSets_exact (hr : 1 ≤ r) :
    (∀ b c : Box,
      (b.inter? c = none ↔ ∀ p, ¬(p ∈ b ∧ p ∈ c)) ∧
      (∀ d, b.inter? c = some d → d.centering = b.centering ∧ ∀ p, p ∈ d ↔ p ∈ b ∧ p ∈ c) ∧
      (b.centering = c.centering → b.inter? c = c.inter? b) ∧
      (b.covers c = true ↔ ∀ p ∈ c, p ∈ b)) ∧
    (∀ (b : Box) (a : Axis), b.centering = .cell →
      (b.isEmpty = false → ∀ p, p ∈ b.faces a ↔ p ∈ b ∨ p - a.unit ∈ b) ∧
      (b.faces a).centering = .face a ∧ (b.faces a).cells = b) ∧
    (∀ b : Box,
      (∀ p, p ∈ b.refine r ↔ p.map (· / r) ∈ b) ∧
      ((b.refine r).size : ℤ) = b.size * r ^ 3 ∧
      (b.refine r).coarsen? r = some b) ∧
    (∀ c : Box, c.isEmpty = false →
      c.coarsen? r = some (c.coarsen r) ∧
      (∀ p, p ∈ c.coarsen r ↔ ∃ q ∈ c, q.map (· / r) = p) ∧
      ((c.coarsen r).refine r).covers c = true ∧
      ∀ b : Box, (b.refine r).covers c = true ↔ b.covers (c.coarsen r) = true) ∧
    ∀ b : Box,
      (∀ s p, p ∈ b.shift s ↔ p - s ∈ b) ∧
      (b.isEmpty = false → ∀ (n : ℕ) (p : Point),
        p ∈ b.grow n ↔ ∃ q ∈ b, ∀ a, |p.get a - q.get a| ≤ n) ∧
      (∀ (n : ℕ) (p : Point),
        p ∈ b.grow (-n) ↔ ∀ q : Point, (∀ a, |p.get a - q.get a| ≤ n) → q ∈ b) ∧
      (∀ s, (b.shift s).shift (Point.zero - s) = b) ∧
      ∀ n, (b.grow n).grow (-n) = b := by
  refine ⟨fun b c => ⟨inter?_eq_none_iff, fun d => mem_inter?, inter?_comm, covers_iff⟩,
    fun b a hcells => ⟨fun hpoints p => mem_faces_iff hpoints, rfl, cells_faces hcells⟩,
    fun b => ⟨fun p => mem_refine (by omega), size_refine hr, ?_⟩,
    fun c hpoints => ⟨coarsen?_eq hr, fun p => mem_coarsen hr hpoints, ?_,
      fun b => covers_refine_iff hr hpoints⟩,
    fun b => ⟨fun s p => mem_shift, fun hpoints n p => mem_grow_iff hpoints n,
      fun n p => mem_shrink_iff n, shift_shift_neg b, grow_grow_neg b⟩⟩
  · rw [coarsen?_eq hr, coarsen_refine hr]
  · exact (covers_refine_iff hr hpoints).2 (covers_iff.2 fun p hp => hp)

/-- Five by two cells in one layer, on both sides of the origin. -/
private def slab : Box := ⟨⟨-3, -1, -1⟩, ⟨1, 0, -1⟩, .cell⟩

/-- Five cells in a row through the slab. -/
private def rod : Box := ⟨⟨-1, 0, -3⟩, ⟨-1, 0, 1⟩, .cell⟩

/-- The slab and the rod share one cell, and none when the rod is moved by one row. The last faces of
the slab have no cell above them; each cell split by two, it has eighty. The rod, from `-3` to `1`
along the third axis, is coarsened to the cells from `-2` to `0`. The slab, one layer thick, does
not cover these, so its refinement does not cover the rod. Nothing is left of the slab when it is
shrunk, and growing brings it back. -/
theorem pointSets_exact_slab :
    (1 : ℤ) ≤ 2 ∧ slab.centering = .cell ∧ slab.isEmpty = false ∧ rod.isEmpty = false ∧
    (∀ p, p ∈ (⟨⟨-1, 0, -1⟩, ⟨-1, 0, -1⟩, .cell⟩ : Box) ↔ p ∈ slab ∧ p ∈ rod) ∧
    (∀ p, ¬(p ∈ slab ∧ p ∈ rod.shift Axis.y.unit)) ∧
    (⟨2, 0, -1⟩ : Point) ∈ slab.faces .x ∧ (slab.faces .x).cells = slab ∧
    (slab.refine 2).size = 80 ∧ (slab.refine 2).coarsen? 2 = some slab ∧
    rod.coarsen? 2 = some ⟨⟨-1, 0, -2⟩, ⟨-1, 0, 0⟩, .cell⟩ ∧
    ((rod.coarsen 2).refine 2).covers rod = true ∧
    (slab.refine 2).covers rod = false ∧ (slab.grow (-1)).isEmpty = true ∧
    (slab.grow (-1)).grow 1 = slab := by
  have hpoints : slab.isEmpty = false := by decide
  have hrod : rod.isEmpty = false := by decide
  obtain ⟨hcommon, hfaces, hrefine, hcoarsen, hmoved⟩ := pointSets_exact (r := 2) (by decide)
  obtain ⟨hsides, -, hcells⟩ := hfaces slab .x rfl
  obtain ⟨-, hsize, hback⟩ := hrefine slab
  obtain ⟨hcoarse, -, hcovers, hleast⟩ := hcoarsen rod hrod
  refine ⟨by decide, rfl, hpoints, hrod, ((hcommon slab rod).2.1 _ (by decide)).2,
    (hcommon slab _).1.1 (by decide), (hsides hpoints _).2 (.inr (by decide)), hcells, ?_, hback,
    hcoarse.trans (by decide), hcovers, ?_, by decide, ?_⟩
  · have hten : slab.size = 10 := by decide
    rw [hten] at hsize
    omega
  · rw [← Bool.not_eq_true, hleast]
    decide
  · simpa using (hmoved slab).2.2.2.2 (-1)

end Box

end MeshDiffusion
