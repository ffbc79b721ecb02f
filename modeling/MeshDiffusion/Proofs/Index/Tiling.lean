import Mathlib.Tactic
import MeshDiffusion.Index.Layout

/-!
Layouts as sets of points.

* `Layout.Within`: every point of every box lies in the domain, and so do the corners of every box
  that has points (`Layout.Within.corners`);
* `Layout.Disjoint`: no point lies in two boxes;
* `Layout.Covers`: every point of the domain lies in a box;
* `Layout.Tiles`: all three, so that every point of the domain lies in exactly one box
  (`Layout.Tiles.existsUnique`);
* `Layout.Inside`: the corners of every box lie in the domain, also those of a box without points;
* `Layout.disjoint_of_pairwise`: it is enough that no box of the list shares a point with a later
  one;
* `Layout.cells` lists the points of all boxes, each with the place of its box, without repetition
  (`Layout.nodup_cells`) and as many as the layout counts (`Layout.length_cells`).
-/

namespace MeshDiffusion

/-! ### Faces of a box -/

namespace Box

variable {b : Box} {a : Axis} {p : Point}

/-- The cells on both sides of a face of a box lie in the layer around the box. -/
lemma mem_grow_of_mem_faces (h : p ∈ b.faces a) : p.move a (-1) ∈ b.grow 1 ∧ p ∈ b.grow 1 := by
  have hface := mem_faces.1 h
  constructor
  · refine mem_grow.2 fun c => ?_
    have := hface c
    rw [Point.get_move]
    split_ifs at this ⊢ <;> omega
  · refine mem_grow.2 fun c => ?_
    have := hface c
    split_ifs at this <;> omega

/-- A face of a box with points bounds one of them. -/
lemma mem_or_mem_of_mem_faces (h : p ∈ b.faces a) (hpoints : ∃ q, q ∈ b) :
    p.move a (-1) ∈ b ∨ p ∈ b := by
  have hface := mem_faces.1 h
  obtain ⟨q, hq⟩ := hpoints
  have hcorners := mem_iff.1 hq
  by_cases hend : p.get a = b.hi.get a + 1
  · refine .inl (mem_iff.2 fun c => ?_)
    have h₁ := hface c
    have h₂ := hcorners c
    rw [Point.get_move]
    split_ifs at h₁ ⊢ with hc
    · subst hc
      omega
    · exact h₁
  · refine .inr (mem_iff.2 fun c => ?_)
    have h₁ := hface c
    split_ifs at h₁ with hc
    · subst hc
      omega
    · exact h₁

end Box

/-! ### Layouts in a domain -/

namespace Layout

/-- The boxes lie inside a domain. -/
def Within (l : Layout) (domain : Box) : Prop := ∀ j < l.count, ∀ q ∈ l.box j, q ∈ domain

/-- No two boxes share a point. -/
def Disjoint (l : Layout) : Prop :=
  ∀ j < l.count, ∀ k < l.count, ∀ q ∈ l.box j, q ∈ l.box k → j = k

/-- The boxes reach every point of a domain. -/
def Covers (l : Layout) (domain : Box) : Prop := ∀ q ∈ domain, ∃ j < l.count, q ∈ l.box j

/-- The boxes cut a domain into pieces. -/
structure Tiles (l : Layout) (domain : Box) : Prop where
  within : l.Within domain
  disjoint : l.Disjoint
  covers : l.Covers domain

/-- The corners of a box with points lie in the domain that its points lie in. -/
lemma Within.corners {l : Layout} {domain : Box} (h : l.Within domain) {i : ℕ} (hi : i < l.count)
    {q : Point} (hq : q ∈ l.box i) (a : Axis) :
    domain.lo.get a ≤ (l.box i).lo.get a ∧ (l.box i).hi.get a ≤ domain.hi.get a :=
  ⟨(Box.mem_iff.1 (h i hi _ (Box.lo_mem hq)) a).1, (Box.mem_iff.1 (h i hi _ (Box.hi_mem hq)) a).2⟩

/-- The corners of the boxes lie inside a domain. -/
def Inside (l : Layout) (domain : Box) : Prop :=
  ∀ i < l.count, ∀ a, domain.lo.get a ≤ (l.box i).lo.get a ∧ (l.box i).hi.get a ≤ domain.hi.get a

lemma Inside.within {l : Layout} {domain : Box} (h : l.Inside domain) : l.Within domain := by
  refine fun j hj q hq => Box.mem_iff.2 fun a => ?_
  have h₁ := h j hj a
  have h₂ := Box.mem_iff.1 hq a
  omega

/-- The layers around the boxes lie in the layers around the domain. -/
lemma Inside.mem_grow {l : Layout} {domain : Box} (h : l.Inside domain) {i : ℕ} (hi : i < l.count)
    {n : ℤ} {q : Point} (hq : q ∈ (l.box i).grow n) : q ∈ domain.grow n := by
  refine Box.mem_grow.2 fun a => ?_
  have h₁ := h i hi a
  have h₂ := Box.mem_grow.1 hq a
  omega

/-- The faces of the boxes are faces of the domain. -/
lemma Inside.mem_faces {l : Layout} {domain : Box} (h : l.Inside domain) {i : ℕ} (hi : i < l.count)
    {a : Axis} {q : Point} (hq : q ∈ (l.faces a).box i) : q ∈ domain.faces a := by
  rw [box_faces hi] at hq
  refine Box.mem_faces.2 fun c => ?_
  have h₁ := h i hi c
  have h₂ := Box.mem_faces.1 hq c
  split_ifs at h₂ ⊢ <;> omega

/-- The boxes of a layout, by their places. -/
lemma toList_eq_map (l : Layout) : l.toList = (List.range l.count).map l.box := by
  refine List.ext_getElem (by simp [toList, count]) fun i h₁ h₂ => ?_
  simp [toList, getElem_boxes]

lemma mem_toList {l : Layout} {b : Box} : b ∈ l.toList ↔ ∃ i < l.count, l.box i = b := by
  simp [toList_eq_map]

/-- No two boxes share a point when no box shares one with a later box. -/
lemma disjoint_of_pairwise {l : Layout} (h : l.toList.Pairwise fun b c => ∀ q ∈ b, q ∉ c) :
    l.Disjoint := by
  rw [toList_eq_map, List.pairwise_map] at h
  intro j hj k hk q hqj hqk
  have hrange := List.pairwise_iff_getElem.1 h
  simp only [List.length_range, List.getElem_range] at hrange
  rcases lt_trichotomy j k with hlt | heq | hgt
  · exact absurd hqk (hrange j k hj hk hlt q hqj)
  · exact heq
  · exact absurd hqj (hrange k j hk hj hgt q hqk)

/-- Two boxes cut a domain into pieces when every point of it lies in one of them. -/
lemma tiles_pair {domain b c : Box} (hcovers : ∀ q, q ∈ domain ↔ q ∈ b ∨ q ∈ c)
    (hdisjoint : ∀ q ∈ b, q ∉ c) : Tiles ⟨#[b, c]⟩ domain where
  within j hj q hq := by
    have hj : j < 2 := hj
    interval_cases j
    · exact (hcovers q).2 (.inl hq)
    · exact (hcovers q).2 (.inr hq)
  disjoint j hj k hk q hqj hqk := by
    have hj : j < 2 := hj
    have hk : k < 2 := hk
    interval_cases j <;> interval_cases k
    · rfl
    · exact absurd hqk (hdisjoint q hqj)
    · exact absurd hqj (hdisjoint q hqk)
    · rfl
  covers q hq := by
    rcases (hcovers q).1 hq with hb | hc
    · exact ⟨0, Nat.zero_lt_two, hb⟩
    · exact ⟨1, Nat.one_lt_two, hc⟩

lemma contains_iff {l : Layout} {p : Point} :
    l.contains p = true ↔ ∃ i < l.count, p ∈ l.box i := by
  have hany : l.contains p = l.toList.any fun b => decide (p ∈ b) := Array.any_toList.symm
  simp [hany, toList_eq_map]

/-- The two faces of a cell along an axis are faces of its box. -/
lemma mem_faces_of_mem {l : Layout} {i : ℕ} {p : Point} {a : Axis} (hi : i < l.count)
    (hp : p ∈ l.box i) : p ∈ (l.faces a).box i ∧ p.move a 1 ∈ (l.faces a).box i := by
  rw [box_faces hi]
  have hcell := Box.mem_iff.1 hp
  constructor
  · refine Box.mem_faces.2 fun c => ?_
    have := hcell c
    split_ifs <;> omega
  · refine Box.mem_faces.2 fun c => ?_
    have := hcell c
    rw [Point.get_move]
    split_ifs <;> omega

/-- A point of a tiled domain lies in exactly one box. -/
lemma Tiles.existsUnique {l : Layout} {domain : Box} (h : l.Tiles domain) {q : Point}
    (hq : q ∈ domain) : ∃! j, j < l.count ∧ q ∈ l.box j := by
  obtain ⟨j, hj, hqj⟩ := h.covers q hq
  exact ⟨j, ⟨hj, hqj⟩, fun k hk => h.disjoint k hk.1 j hj q hk.2 hqj⟩

end Layout

/-! ### Cells -/

namespace Box

/-- The points of a box, by their places. -/
lemma points_eq_map (b : Box) : b.points = (List.range b.size).map b.pointAt := by
  refine List.ext_getElem (by simp) fun i h₁ h₂ => ?_
  have hi : i < b.size := by simpa using h₁
  simpa [hi] using points_getElem? hi

lemma nodup_points (b : Box) : b.points.Nodup := by
  have hinj : Function.LeftInverse b.offset b.pointAt := offset_pointAt b
  rw [points_eq_map]
  exact List.nodup_range.map hinj.injective

lemma total_eq_sum (bs : List Box) : total bs = (bs.map size).sum := by
  induction bs with
  | nil => rfl
  | cons b bs ih => rw [total, ih, List.map_cons, List.sum_cons]

end Box

namespace Layout

/-- The points of all boxes, box by box, each with the place of its box. -/
def cells (l : Layout) : List (ℕ × Point) :=
  (List.range l.count).flatMap fun i => (l.box i).points.map fun p => (i, p)

lemma mem_cells {l : Layout} {c : ℕ × Point} : c ∈ l.cells ↔ c.1 < l.count ∧ c.2 ∈ l.box c.1 := by
  obtain ⟨i, p⟩ := c
  simp [cells]

lemma nodup_cells (l : Layout) : l.cells.Nodup := by
  refine List.nodup_flatMap.2 ⟨fun i _ => ?_, ?_⟩
  · exact (Box.nodup_points _).map (Prod.mk_right_injective i)
  · refine List.nodup_range.imp fun {i j} hij => ?_
    rw [Function.onFun, List.disjoint_left]
    intro c hi hj
    obtain ⟨p, -, hp⟩ := List.mem_map.1 hi
    obtain ⟨q, -, hq⟩ := List.mem_map.1 hj
    exact hij (congrArg Prod.fst (hp.trans hq.symm))

lemma length_cells (l : Layout) : l.cells.length = l.size := by
  rw [size, Box.total_eq_sum, toList_eq_map, List.map_map, cells, List.length_flatMap]
  simp [Function.comp_def]

end Layout

end MeshDiffusion
