import Mathlib.Tactic
import MeshDiffusion.Proofs.Index.Images
import MeshDiffusion.Proofs.Index.Tiling

/-!
Cells on the two sides of a face.

* `Box.across` is the cell on the other side of a face, where a domain is closed to a ring along
  every axis: beyond the last cell comes the first one. Seen from there through the opposite face
  it is the first cell again (`Box.across_across`);
* `Layout.sum_faces`: summed over all cells of a layout and all their faces, what cancels between
  the two sides of each face cancels as a whole; on a tiled domain every face has two sides
  (`Layout.Tiles.sum_faces`);
* `Point.Adjacent`: a cell or one of its periodic images lies next to another cell, as the cell
  across a face does unless the domain ends there (`Box.adjacent_across`);
* `Layout.Duplicates`: the ghosts of a level repeat the cells that lie on them, so that a cell and
  its neighbour see each other whichever box they are stored for (`Layout.Duplicates.adjacent`).
-/

namespace MeshDiffusion

/-! ### Opposite faces -/

namespace Face

instance : Fintype Face := .ofList Face.all Face.mem_all

/-- The face at the other end of the axis. -/
def opposite (f : Face) : Face :=
  match f.side with
  | .lo => ⟨f.axis, .hi⟩
  | .hi => ⟨f.axis, .lo⟩

variable {f : Face}

@[simp] lemma axis_opposite : f.opposite.axis = f.axis := by
  obtain ⟨a, s⟩ := f
  cases s <;> rfl

@[simp] lemma step_opposite : f.opposite.side.step = -f.side.step := by
  obtain ⟨a, s⟩ := f
  cases s <;> rfl

@[simp] lemma opposite_opposite : f.opposite.opposite = f := by
  obtain ⟨a, s⟩ := f
  cases s <;> rfl

lemma opposite_ne : f.opposite ≠ f := by
  obtain ⟨a, s⟩ := f
  cases s <;> simp [opposite]

end Face

/-! ### The cell across a face -/

namespace Box

variable {b : Box} {p : Point} {f : Face}

/-- The coordinate of the last cells before a face. -/
def edge (b : Box) (f : Face) : ℤ :=
  match f.side with
  | .lo => b.lo.get f.axis
  | .hi => b.hi.get f.axis

/-- The cell across a face, at the other end of the box from its last cells. -/
def across (b : Box) (p : Point) (f : Face) : Point :=
  if p.get f.axis = b.edge f then p.set f.axis (b.edge f.opposite)
  else p.move f.axis f.side.step

lemma get_across (a : Axis) :
    (b.across p f).get a =
      if a = f.axis then
        if p.get f.axis = b.edge f then b.edge f.opposite else p.get f.axis + f.side.step
      else p.get a := by
  rw [across]
  split_ifs with hedge ha ha
  · rw [ha, Triple.get_set_self]
  · rw [Triple.get_set, if_neg ha]
  · rw [ha, Point.get_move, if_pos rfl]
  · rw [Point.get_move, if_neg ha]

/-- Where a coordinate along the axis of a face can lie in a box. -/
private lemma edge_cases (b : Box) (f : Face) :
    f.side.step = -1 ∧ b.edge f = b.lo.get f.axis ∧ b.edge f.opposite = b.hi.get f.axis ∨
    f.side.step = 1 ∧ b.edge f = b.hi.get f.axis ∧ b.edge f.opposite = b.lo.get f.axis := by
  obtain ⟨a, s⟩ := f
  cases s with
  | lo => exact .inl ⟨rfl, rfl, rfl⟩
  | hi => exact .inr ⟨rfl, rfl, rfl⟩

lemma across_mem (h : p ∈ b) : b.across p f ∈ b := by
  refine mem_iff.2 fun a => ?_
  have hp := mem_iff.1 h a
  have hedge := edge_cases b f
  rw [get_across]
  split_ifs with ha hend
  · subst ha
    omega
  · subst ha
    omega
  · exact hp

/-- The cell across a face is the last one on its side exactly when the cell itself is. -/
lemma across_edge (h : p ∈ b) :
    (b.across p f).get f.axis = b.edge f.opposite ↔ p.get f.axis = b.edge f := by
  have hp := mem_iff.1 h f.axis
  have hedge := edge_cases b f
  rw [get_across, if_pos rfl]
  split_ifs with hend <;> omega

/-- Across a face and back. -/
lemma across_across (h : p ∈ b) : b.across (b.across p f) f.opposite = p := by
  refine Triple.ext_get fun a => ?_
  rw [get_across, Face.axis_opposite, Face.opposite_opposite, Face.step_opposite]
  split_ifs with ha hend
  · rw [ha, (across_edge h).1 hend]
  · have hinner : p.get f.axis ≠ b.edge f := mt (across_edge h).2 hend
    rw [ha, get_across, if_pos rfl, if_neg hinner]
    omega
  · rw [get_across, if_neg ha]

end Box

/-! ### Adjacent cells -/

/-- An image of the cell `q` lies across a face of the cell `p`. -/
def Point.Adjacent (periods : Periods) (p q : Point) (f : Face) : Prop :=
  ∃ s ∈ periods.shifts, p.move f.axis f.side.step - s = q

/-- Adjacent cells see each other through opposite faces. -/
lemma Point.Adjacent.symm {periods : Periods} {p q : Point} {f : Face}
    (h : Point.Adjacent periods p q f) : Point.Adjacent periods q p f.opposite := by
  obtain ⟨s, hs, rfl⟩ := h
  refine ⟨Point.zero - s, Periods.neg_mem_shifts hs, Triple.ext_get fun a => ?_⟩
  rw [Triple.get_sub, Triple.get_sub, Point.get_move, Triple.get_sub, Point.get_move,
    Point.get_zero, Face.axis_opposite, Face.step_opposite]
  split_ifs <;> omega

/-- The cell across a face is adjacent, unless the domain ends there. -/
lemma Box.adjacent_across {domain : Box} {periodic : Triple Bool} {p : Point} {f : Face}
    (h : p ∈ domain) (hinner : p.get f.axis ≠ domain.edge f ∨ periodic.get f.axis = true) :
    Point.Adjacent (.ofDomain domain periodic) p (domain.across p f) f := by
  by_cases hend : p.get f.axis = domain.edge f
  · -- The image of the domain that follows on this side holds the cell.
    refine ⟨Point.zero.set f.axis (f.side.step * domain.length f.axis), ?_, ?_⟩
    · refine Periods.mem_shifts_ofDomain.2 fun a => ?_
      rw [Triple.get_set]
      split_ifs with ha
      · subst ha
        have hwraps := hinner.resolve_left (absurd hend)
        refine .inr ⟨hwraps, ?_⟩
        rcases f.side.step_eq with hstep | hstep <;> rw [hstep] <;> omega
      · exact .inl (Point.get_zero a)
    · refine Triple.ext_get fun a => ?_
      rw [Triple.get_sub, Point.get_move, Triple.get_set, get_across]
      split_ifs with ha
      · have hp := mem_iff.1 h f.axis
        have hedge := edge_cases domain f
        subst ha
        rw [length]
        rcases hedge with ⟨hstep, hlo, hhi⟩ | ⟨hstep, hlo, hhi⟩ <;> rw [hstep] <;> omega
      · rw [Point.get_zero, Int.sub_zero]
  · refine ⟨Point.zero, Periods.zero_mem_shifts, ?_⟩
    rw [across, if_neg hend, Point.sub_zero]

namespace Layout

variable {l : Layout} {domain : Box} {periodic : Triple Bool} {c d : ℕ × Point} {f : Face}

/-! ### Ghosts that repeat cells -/

/-- Every ghost next to a box has the value of each cell that lies on it, itself or by an image. -/
def Duplicates {α : Type} (l : Layout) (periods : Periods) (v : ℕ → Point → α) : Prop :=
  ∀ i < l.count, ∀ q ∈ (l.box i).grow 1, q ∉ l.box i →
    ∀ s ∈ periods.shifts, ∀ j < l.count, q - s ∈ l.box j → v i q = v j (q - s)

/-- Every place next to a box, whether a ghost or a cell, has the value of the cell that lies on
it. -/
lemma Duplicates.eq_of_image {α : Type} {v : ℕ → Point → α} (hin : l.Within domain)
    (hdisj : l.Disjoint) (h : l.Duplicates (.ofDomain domain periodic) v) {i j : ℕ}
    (hi : i < l.count) (hj : j < l.count) {q s : Point} (hq : q ∈ (l.box i).grow 1)
    (hs : s ∈ (Periods.ofDomain domain periodic).shifts) (hqs : q - s ∈ l.box j) :
    v i q = v j (q - s) := by
  by_cases hmem : q ∈ l.box i
  · -- A cell lies on itself only unmoved, since images do not overlap.
    obtain ⟨hzero, hbox⟩ := image_of_mem hin hdisj hs hi hj hmem hqs
    rw [hzero, hbox, Point.sub_zero]
  · exact h i hi q hq hmem s hs j hj hqs

/-- What is stored next to a cell is what is stored for the adjacent cell. -/
lemma Duplicates.adjacent {α : Type} {v : ℕ → Point → α} (htiles : l.Tiles domain)
    (h : l.Duplicates (.ofDomain domain periodic) v) (hc : c ∈ l.cells) (hd : d ∈ l.cells)
    (hadjacent : Point.Adjacent (.ofDomain domain periodic) c.2 d.2 f) :
    v c.1 (c.2.move f.axis f.side.step) = v d.1 d.2 := by
  obtain ⟨hi, hp⟩ := mem_cells.1 hc
  obtain ⟨hj, hq⟩ := mem_cells.1 hd
  obtain ⟨s, hs, hmove⟩ := hadjacent
  rw [← hmove] at hq ⊢
  exact h.eq_of_image htiles.within htiles.disjoint hi hj (Box.move_mem_grow hp f.side.step_eq) hs
    hq

/-! ### Sums over faces -/

/-- The box that holds a point of a layout. -/
def owner (l : Layout) (p : Point) : ℕ := (l.find? p).getD 0

lemma owner_mem {p : Point} (hp : ∃ j < l.count, p ∈ l.box j) : (l.owner p, p) ∈ l.cells := by
  obtain ⟨j, hj, hmem⟩ := hp
  have hj' : j < l.boxes.size := hj
  have hsome : (l.find? p).isSome = true := by
    rw [find?, Array.findIdx?_isSome, Array.any_eq_true]
    refine ⟨j, hj', ?_⟩
    simpa [getElem_boxes] using hmem
  obtain ⟨i, hi⟩ := Option.isSome_iff_exists.1 hsome
  obtain ⟨hlt, hpi, -⟩ := Array.findIdx?_eq_some_iff_getElem.1 hi
  rw [owner, hi, Option.getD_some]
  refine mem_cells.2 ⟨hlt, ?_⟩
  simpa [getElem_boxes] using hpi

lemma owner_eq (hdisj : l.Disjoint) (hc : c ∈ l.cells) : l.owner c.2 = c.1 := by
  obtain ⟨hi, hp⟩ := mem_cells.1 hc
  obtain ⟨hj, hq⟩ := mem_cells.1 (owner_mem ⟨c.1, hi, hp⟩)
  exact hdisj _ hj _ hi _ hq hp

/-- The cell across a face, with its box. -/
def across (l : Layout) (domain : Box) (c : ℕ × Point) (f : Face) : ℕ × Point :=
  (l.owner (domain.across c.2 f), domain.across c.2 f)

/-- Across a face and back. -/
lemma across_across (hin : l.Within domain) (hdisj : l.Disjoint) (hc : c ∈ l.cells) :
    l.across domain (l.across domain c f) f.opposite = c := by
  have hp := hin _ (mem_cells.1 hc).1 _ (mem_cells.1 hc).2
  have hback : domain.across (domain.across c.2 f) f.opposite = c.2 := Box.across_across hp
  refine Prod.ext ?_ hback
  change l.owner (domain.across (domain.across c.2 f) f.opposite) = c.1
  rw [hback, owner_eq hdisj hc]

lemma Tiles.across_mem (h : l.Tiles domain) (hc : c ∈ l.cells) : l.across domain c f ∈ l.cells :=
  owner_mem (h.covers _ (Box.across_mem (h.within _ (mem_cells.1 hc).1 _ (mem_cells.1 hc).2)))

/-- **What cancels between the two sides of every face cancels over all cells**, if it vanishes on
the faces that have a cell on one side only. -/
theorem sum_faces (hin : l.Within domain) (hdisj : l.Disjoint) (g : ℕ × Point → Face → ℚ)
    (hcancel : ∀ c ∈ l.cells, ∀ f, l.across domain c f ∈ l.cells →
      g c f + g (l.across domain c f) f.opposite = 0)
    (hopen : ∀ c ∈ l.cells, ∀ f, l.across domain c f ∉ l.cells → g c f = 0) :
    ∑ c ∈ l.cells.toFinset, ∑ f, g c f = 0 := by
  let sides := l.cells.toFinset ×ˢ (Finset.univ : Finset Face)
  let shared := sides.filter fun x => l.across domain x.1 x.2 ∈ l.cells
  have hmem : ∀ {x}, x ∈ shared ↔ x.1 ∈ l.cells ∧ l.across domain x.1 x.2 ∈ l.cells := by
    intro x
    simp [shared, sides]
  have hshared : ∑ x ∈ shared, g x.1 x.2 = ∑ x ∈ sides, g x.1 x.2 := by
    refine Finset.sum_filter_of_ne fun x hx hne => ?_
    by_contra hout
    exact hne (hopen x.1 (List.mem_toFinset.1 (Finset.mem_product.1 hx).1) x.2 hout)
  rw [← Finset.sum_product', ← hshared]
  refine Finset.sum_involution (fun x _ => (l.across domain x.1 x.2, x.2.opposite)) ?_ ?_ ?_ ?_
  · intro x hx
    exact hcancel x.1 (hmem.1 hx).1 x.2 (hmem.1 hx).2
  · intro x hx hne heq
    exact Face.opposite_ne (congrArg Prod.snd heq)
  · intro x hx
    refine hmem.2 ⟨(hmem.1 hx).2, ?_⟩
    rw [across_across hin hdisj (hmem.1 hx).1]
    exact (hmem.1 hx).1
  · intro x hx
    exact Prod.ext (across_across hin hdisj (hmem.1 hx).1) Face.opposite_opposite

/-- On a tiled domain every face has a cell on both sides. -/
theorem Tiles.sum_faces (h : l.Tiles domain) (g : ℕ × Point → Face → ℚ)
    (hcancel : ∀ c ∈ l.cells, ∀ f, g c f + g (l.across domain c f) f.opposite = 0) :
    ∑ c ∈ l.cells.toFinset, ∑ f, g c f = 0 :=
  Layout.sum_faces h.within h.disjoint g (fun c hc f _ => hcancel c hc f)
    fun _ hc _ hout => absurd (h.across_mem hc) hout

end Layout

end MeshDiffusion
