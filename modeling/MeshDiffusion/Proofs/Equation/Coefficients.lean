import Mathlib.Tactic
import MeshDiffusion.Proofs.Equation.Assembly
import MeshDiffusion.Proofs.Operator.Coverage

/-!
Viscosities on faces are single-valued.

A face between two boxes is stored by both of them, and a face at the end of a periodic axis also at
the other end. Each box averages it from its own cell and a ghost. The copies agree because the ghost
repeats the cell that the other box has there, and the exchange may then copy a ghost face from
whichever box comes last. A face with a cell on one side only has no second copy, so its ghost is
asked once.

* `Layout.copies_of_face`: two copies of a face are the same one, or the level has the cells on both
  sides;
* `Layout.Duplicates.eq_of_images`: ghosts that repeat cells agree wherever a cell is repeated;
* `CellValue`: the value of the cell that lies at a place, or of a ghost if there is none;
* `get_exchange_averageToFaces`: whatever copy the exchange gives a ghost, it is the average;
* `FiniteVolume.Loaded.onFaces`: an operator keeps the viscosity on the faces of its levels;
* `FiniteVolume.levelCoefficients_singleValued`: all that is stored for a face is half the sum of the
  values below and above it.
-/

namespace MeshDiffusion

/-! ### Copies of a face -/

namespace Layout

variable {l : Layout} {domain : Box} {periodic : Triple Bool} {i j : ℕ} {a : Axis} {q s : Point}

/-- The level has the cells on both sides of a face, themselves or by an image. -/
def TwoSided (l : Layout) (periods : Periods) (a : Axis) (q : Point) : Prop :=
  ¬l.Exposed periods (q.move a (-1)) ∧ ¬l.Exposed periods q

/-- Between two copies of a face, two moves are one move: both are faces of the domain, so they are at
most one period apart. -/
lemma Inside.add_mem_shifts {t : Point} (hinside : l.Inside domain) (hi : i < l.count)
    (hj : j < l.count) (hs : s ∈ (Periods.ofDomain domain periodic).shifts)
    (ht : t ∈ (Periods.ofDomain domain periodic).shifts) (hq : q ∈ (l.faces a).box i)
    (hqs : q - (s + t) ∈ (l.faces a).box j) :
    s + t ∈ (Periods.ofDomain domain periodic).shifts := by
  have hface := Box.mem_faces.1 (hinside.mem_faces hi hq)
  have hface' := Box.mem_faces.1 (hinside.mem_faces hj hqs)
  refine Periods.add_mem_shifts hs ht fun c => ?_
  have h₁ := hface c
  have h₂ := hface' c
  simp only [Triple.get_sub, Triple.get_add] at h₂
  rw [Box.length]
  split_ifs at h₁ h₂ <;> omega

/-- Two copies of a face, in boxes with points, are the same one or lie between two cells of the
level. -/
lemma copies_of_face (hin : l.Within domain) (hdisj : l.Disjoint)
    (hpoints : ∀ k < l.count, ∃ p, p ∈ l.box k) (hi : i < l.count) (hj : j < l.count)
    (hs : s ∈ (Periods.ofDomain domain periodic).shifts) (hq : q ∈ (l.faces a).box i)
    (hqs : q - s ∈ (l.faces a).box j) :
    (s = Point.zero ∧ j = i) ∨ l.TwoSided (.ofDomain domain periodic) a q := by
  have hheld : ∀ {p t : Point} {k : ℕ}, t ∈ (Periods.ofDomain domain periodic).shifts →
      k < l.count → p - t ∈ l.box k → ¬l.Exposed (.ofDomain domain periodic) p :=
    fun ht hk hmem => not_exposed_iff.2 ⟨_, ht, _, hk, hmem⟩
  have hself : ∀ {p : Point}, p ∈ l.box i → ¬l.Exposed (.ofDomain domain periodic) p :=
    fun hmem => hheld Periods.zero_mem_shifts hi (by rwa [Point.sub_zero])
  rw [box_faces hi] at hq
  rw [box_faces hj] at hqs
  have hfirst := Box.mem_or_mem_of_mem_faces hq (hpoints i hi)
  have hsecond := Box.mem_or_mem_of_mem_faces hqs (hpoints j hj)
  rw [Point.move_sub] at hsecond
  -- copies with their cell on one side are one copy, since images of cells do not overlap
  rcases hfirst with hbelow | habove
  · rcases hsecond with hbelow' | habove'
    · exact .inl (image_of_mem hin hdisj hs hi hj hbelow hbelow')
    · exact .inr ⟨hself hbelow, hheld hs hj habove'⟩
  · rcases hsecond with hbelow' | habove'
    · exact .inr ⟨hheld hs hj hbelow', hself habove⟩
    · exact .inl (image_of_mem hin hdisj hs hi hj habove habove')

/-- Two places next to boxes that stand for one cell of the level have one value. -/
lemma Duplicates.eq_of_images {α : Type} {v : ℕ → Point → α} (hinside : l.Inside domain)
    (hdisj : l.Disjoint) (h : l.Duplicates (.ofDomain domain periodic) v) (hi : i < l.count)
    (hj : j < l.count) (hs : s ∈ (Periods.ofDomain domain periodic).shifts)
    (hq : q ∈ (l.box i).grow 1) (hqs : q - s ∈ (l.box j).grow 1)
    (hcell : ¬l.Exposed (.ofDomain domain periodic) q) : v j (q - s) = v i q := by
  obtain ⟨t, ht, k, hk, hmem⟩ := not_exposed_iff.1 hcell
  have hnear := Box.mem_grow.1 (hinside.mem_grow hj hqs)
  have hdomain := Box.mem_iff.1 (hinside.within k hk _ hmem)
  -- the move from the second place to the cell goes back by `s` and on by `t`
  let u : Point := (Point.zero - s) + t
  have hu : u ∈ (Periods.ofDomain domain periodic).shifts := by
    refine Periods.add_mem_shifts (Periods.neg_mem_shifts hs) ht fun c => ?_
    have h₁ := hnear c
    have h₂ := hdomain c
    simp only [Triple.get_sub, Point.get_zero] at h₁ h₂ ⊢
    rw [Box.length]
    omega
  have hback : q - s - u = q - t := by
    refine Triple.ext_get fun c => ?_
    simp only [u, Triple.get_sub, Triple.get_add, Point.get_zero]
    omega
  rw [h.eq_of_image hinside.within hdisj hi hk hq ht hmem,
    h.eq_of_image hinside.within hdisj hj hk hqs hu (hback ▸ hmem), hback]

end Layout

/-! ### Averages -/

/-- The value at a place next to a box: that of every cell of the level that lies there, itself or
by an image, and if there is none that of the ghost of the box. -/
structure CellValue {K : Type} [Scalar K] (cells : MeshField K) (layout : Layout)
    (periods : Periods) (i : ℕ) (q : Point) (v : K) : Prop where
  cell : ∀ s ∈ periods.shifts, ∀ j < layout.count, q - s ∈ layout.box j → v = cells.get j (q - s) 0
  ghost : layout.Exposed periods q → v = cells.get i q 0

section Average

variable {K : Type} [Scalar K] {layout : Layout} {domain : Box} {periodic : Triple Bool}
  {faces : Triple (MeshField K)} {eta : MeshField K} {i j : ℕ} {a : Axis} {q s : Point}

/-- What is stored next to a box is the value of the cell there, if ghosts repeat cells. -/
lemma cellValue_of_duplicates (hin : layout.Within domain) (hdisj : layout.Disjoint)
    (hrepeats : layout.Duplicates (.ofDomain domain periodic) fun i p => eta.get i p 0)
    (hi : i < layout.count) (hq : q ∈ (layout.box i).grow 1) :
    CellValue eta layout (.ofDomain domain periodic) i q (eta.get i q 0) where
  cell _ hs _ hj hqs := hrepeats.eq_of_image hin hdisj hi hj hq hs hqs
  ghost _ := rfl

variable (hinside : layout.Inside domain) (hdisj : layout.Disjoint)
  (hrepeats : layout.Duplicates (.ofDomain domain periodic) fun i p => eta.get i p 0)
  (hfaces : (faces.get a).layout = layout.faces a ∧ 0 < (faces.get a).ncomp)
  (hi : i < layout.count) (hq : q ∈ (layout.faces a).box i)
  (hsides : (∀ k < layout.count, ∃ p, p ∈ layout.box k) ∨
    layout.TwoSided (.ofDomain domain periodic) a q)

include hinside hdisj hrepeats hfaces hi hq hsides

/-- A copy of a face holds the average that the other copies hold. -/
lemma get_averageToFaces_copy (hj : j < layout.count)
    (hs : s ∈ (Periods.ofDomain domain periodic).shifts) (hqs : q - s ∈ (layout.faces a).box j) :
    ((averageToFaces faces eta).get a).get j (q - s) 0
      = 0.5 * (eta.get i (q.move a (-1)) 0 + eta.get i q 0) := by
  obtain ⟨hlayout, hcomp⟩ := hfaces
  have hmem : q - s ∈ (faces.get a).layout.box j := hlayout ▸ hqs
  have hcount : j < (faces.get a).layout.count := by rwa [hlayout, Layout.count_faces]
  rw [get_averageToFaces ⟨MeshField.stores_of_mem hcount hmem hcomp, hmem⟩]
  have hsame : (s = Point.zero ∧ j = i) ∨ layout.TwoSided (.ofDomain domain periodic) a q :=
    hsides.elim (fun hpoints => Layout.copies_of_face hinside.within hdisj hpoints hi hj hs hq hqs)
      .inr
  rcases hsame with ⟨rfl, rfl⟩ | ⟨hbelow, habove⟩
  · rw [Point.sub_zero]
  · rw [Layout.box_faces hi] at hq
    rw [Layout.box_faces hj] at hqs
    obtain ⟨hlow, hhigh⟩ := Box.mem_grow_of_mem_faces hq
    obtain ⟨hlow', hhigh'⟩ := Box.mem_grow_of_mem_faces hqs
    rw [Point.move_sub] at hlow' ⊢
    have heqLow := hrepeats.eq_of_images hinside hdisj hi hj hs hlow hlow' hbelow
    have heqHigh := hrepeats.eq_of_images hinside hdisj hi hj hs hhigh hhigh' habove
    rw [heqLow, heqHigh]

/-- After the exchange, everything stored for a face holds the average, whichever copy a ghost is
given. -/
theorem get_exchange_averageToFaces (hst : (faces.get a).Stores j (q - s) 0)
    (hs : s ∈ (Periods.ofDomain domain periodic).shifts) :
    (((averageToFaces faces eta).get a).exchange (.ofDomain domain periodic)).get j (q - s) 0
      = 0.5 * (eta.get i (q.move a (-1)) 0 + eta.get i q 0) := by
  have hlayout : ((averageToFaces faces eta).get a).layout = layout.faces a :=
    (congrArg MeshField.Shape.layout shape_averageToFaces).trans hfaces.1
  have hst' : ((averageToFaces faces eta).get a).Stores j (q - s) 0 :=
    (MeshField.stores_iff_of_shape shape_averageToFaces).2 hst
  have hreached : ¬((averageToFaces faces eta).get a).layout.Exposed
      (.ofDomain domain periodic) (q - s) := by
    -- the face itself lies there, moved back
    have hback : q - s - (Point.zero - s) = q :=
      Triple.ext_get fun c => by simp only [Triple.get_sub, Point.get_zero]; omega
    rw [hlayout]
    exact Layout.not_exposed_iff.2 ⟨Point.zero - s, Periods.neg_mem_shifts hs, i,
      by rwa [Layout.count_faces], hback.symm ▸ hq⟩
  obtain ⟨t, ht, k, hk, hcopy, hget⟩ := MeshField.exists_get_exchange_eq hst' hreached
  rw [hlayout, Layout.count_faces] at hk
  rw [hlayout, Point.sub_sub] at hcopy
  have hmove := hinside.add_mem_shifts hi hk hs ht hq hcopy
  rw [hget, Point.sub_sub]
  exact get_averageToFaces_copy hinside hdisj hrepeats hfaces hi hq hsides hk hmove hcopy

end Average

/-! ### The coefficients of an operator -/

namespace FiniteVolume

variable {K : Type} [Scalar K] {o : FiniteVolume K} {h : Hierarchy K}
  {obstacles : Levels (Obstacle K)} {level : ℕ} {a : Axis}

/-- An operator stores one viscosity for each valid face of the levels of a hierarchy. -/
structure OnFaces (h : Hierarchy K) (o : FiniteVolume K) : Prop where
  count : o.levels.count = h.active
  viscosity : ∀ level < h.active, ∀ a, ((o.levels.get level).viscosity.get a).shape
    = ⟨(h.layout level).faces a, h.owners level, 1, 0⟩

/-- A change of coefficients that keeps the shape of the viscosities. -/
lemma OnFaces.onLevel (ho : OnFaces h o) {f : LevelOperator K → LevelOperator K}
    (hf : ∀ l a, ((f l).viscosity.get a).shape = (l.viscosity.get a).shape) :
    OnFaces h (o.onLevel level f) := by
  refine ⟨(Levels.count_modify ..).trans ho.count, fun k hk a => ?_⟩
  have hkept : (((o.onLevel level f).levels.get k).viscosity.get a).shape
      = ((o.levels.get k).viscosity.get a).shape :=
    get_onLevel_of_keeps (v := fun l => (l.viscosity.get a).shape) (fun l => hf l a) (ho.count ▸ hk)
  exact hkept.trans (ho.viscosity k hk a)

/-- Coefficients come and go, the places of the viscosity stay. -/
theorem Loaded.onFaces (ho : Loaded h obstacles o) : OnFaces h o := by
  induction ho with
  | bind o options =>
      refine ⟨Levels.count_ofFn .., fun level hlevel a => ?_⟩
      have hget : (DiffusionOperator.bind o h obstacles options).levels.get level
          = LevelOperator.ofLevel (h.level level) (obstacles.get? level) := Levels.get_ofFn hlevel
      rw [hget, LevelOperator.ofLevel, Triple.get_ofFn]
      rfl
  | wallOrder n _ ih => exact ⟨ih.count, ih.viscosity⟩
  | boundary b _ ih => exact ⟨ih.count, ih.viscosity⟩
  | scalars alpha beta _ ih => exact ⟨ih.count, ih.viscosity⟩
  | mass level a _ ih => exact ih.onLevel fun _ _ => rfl
  | faceViscosity level b _ ih =>
      refine ih.onLevel fun l a => ?_
      rw [Triple.get_ofFn]
      rfl
  | obstacleViscosity level eta _ ih => exact ih.onLevel fun _ _ => rfl
  | boundaryValues level bc _ ih => exact ih.onLevel fun _ _ => rfl

/-- The operator is handed the faces that the coefficients are computed in. -/
lemma viscosity_levelCoefficients {g : Geometry K} {faces : Triple (MeshField K)}
    {ro eta : MeshField K} (hlevel : level < o.levels.count) :
    ((levelCoefficients o level g faces ro eta).1.levels.get level).viscosity.get a
      = ((o.levels.get level).viscosity.get a).copy
          ((levelCoefficients o level g faces ro eta).2.get a) 0 0 1 0 := by
  simp only [levelCoefficients, DiffusionOperator.setMass, DiffusionOperator.setFaceViscosity,
    DiffusionOperator.setObstacleViscosity, onLevel]
  rw [Levels.get_modify_self (by simpa using hlevel), Levels.get_modify_self (by simpa using hlevel),
    Levels.get_modify_self hlevel, Triple.get_ofFn]

/-! ### Single-valued viscosities -/

/-- **The viscosity of a face is single-valued.** Take any level of a loaded operator with disjoint
boxes inside the domain, and a viscosity on cells whose ghosts repeat the cells of the level. For
every valid face of every box, all that the face fields store for it after the exchange, in
whichever box and at whichever end of a periodic axis, as a valid face or as a ghost, is half the
sum of one value below and one above, and so is what the operator has at every valid copy. The two
values are those of the cells there, and those of the box's own ghosts where the level has no such
cell. Nothing is asked of the arithmetic. A box without points stores faces that bound none of its
cells: where a level has one, the face is to lie between two cells. -/
theorem levelCoefficients_singleValued {faces : Triple (MeshField K)} {ro eta : MeshField K}
    (ho : Loaded h obstacles o) (hlevel : level < h.active)
    (hinside : (h.layout level).Inside (h.geometry level).domain)
    (hdisj : (h.layout level).Disjoint)
    (hrepeats : (h.layout level).Duplicates (h.geometry level).periods fun i p => eta.get i p 0)
    (hfaces : ∀ a, (faces.get a).layout = (h.layout level).faces a ∧ 0 < (faces.get a).ncomp) :
    let layout := h.layout level
    let periods := (h.geometry level).periods
    let loaded := levelCoefficients o level (h.geometry level) faces ro eta
    ∀ a, ∀ i < layout.count, ∀ q ∈ (layout.faces a).box i,
      (∀ k < layout.count, ∃ p, p ∈ layout.box k) ∨ layout.TwoSided periods a q →
      ∃ below above,
        CellValue eta layout periods i (q.move a (-1)) below ∧
        CellValue eta layout periods i q above ∧
        (∀ s ∈ periods.shifts, ∀ j, (faces.get a).Stores j (q - s) 0 →
          (loaded.2.get a).get j (q - s) 0 = 0.5 * (below + above)) ∧
        ∀ s ∈ periods.shifts, ∀ j < layout.count, q - s ∈ (layout.faces a).box j →
          ((loaded.1.levels.get level).viscosity.get a).get j (q - s) 0
            = 0.5 * (below + above) := by
  intro layout periods loaded a i hi q hq hsides
  have hbox : q ∈ (layout.box i).faces a := Layout.box_faces hi a ▸ hq
  obtain ⟨hlow, hhigh⟩ := Box.mem_grow_of_mem_faces hbox
  have hloaded : loaded.2.get a = ((averageToFaces faces eta).get a).exchange periods :=
    Triple.get_map ..
  have hstored : ∀ s ∈ periods.shifts, ∀ j, (faces.get a).Stores j (q - s) 0 →
      (loaded.2.get a).get j (q - s) 0
        = 0.5 * (eta.get i (q.move a (-1)) 0 + eta.get i q 0) := by
    intro s hs j hst
    rw [hloaded]
    exact get_exchange_averageToFaces hinside hdisj hrepeats (hfaces a) hi hq hsides hst hs
  refine ⟨_, _, cellValue_of_duplicates hinside.within hdisj hrepeats hi hlow,
    cellValue_of_duplicates hinside.within hdisj hrepeats hi hhigh, hstored, fun s hs j hj hqs => ?_⟩
  have hcount : j < (layout.faces a).count := by rwa [Layout.count_faces]
  have hvalid := MeshField.stores_of_shape (ho.onFaces.viscosity level hlevel a) hcount hqs
    Nat.one_pos
  have hst : (faces.get a).Stores j (q - s) 0 := by
    obtain ⟨hlayout, hcomp⟩ := hfaces a
    exact MeshField.stores_of_mem (hlayout ▸ hcount) (hlayout ▸ hqs) hcomp
  rw [viscosity_levelCoefficients (ho.onFaces.count ▸ hlevel),
    MeshField.get_copy_of_mem hvalid Nat.one_pos]
  exact hstored s hs j hst

/-! ### A ring with a gap -/

/-- Six cells in a row, closed to a ring. -/
private def gapGeometry : Geometry ℚ :=
  ⟨⟨⟨0, 0, 0⟩, ⟨5, 0, 0⟩, .cell⟩, ⟨0, 0, 0⟩, ⟨6, 1, 1⟩, ⟨true, false, false⟩⟩

/-- The two cells at either end, each pair in a box. -/
private def gapLayout : Layout :=
  .ofList [⟨⟨0, 0, 0⟩, ⟨1, 0, 0⟩, .cell⟩, ⟨⟨4, 0, 0⟩, ⟨5, 0, 0⟩, .cell⟩]

private def gapMesh : Hierarchy ℚ := ⟨.ofList [⟨gapGeometry, gapLayout, .single 2⟩], 0⟩

/-- Every cell holds one more than its place. The ghosts at the ends of the row repeat the cells
there, all others hold nines. -/
private def gapViscosity : MeshField ℚ :=
  let cells : MeshField ℚ :=
    .ofFn gapLayout (.single 2) 1 1 fun i p _ => if p ∈ gapLayout.box i then p.x + 1 else 9
  cells.exchange gapGeometry.periods

/-- Face fields with one layer of ghosts that hold eights. -/
private def gapFaces : Triple (MeshField ℚ) :=
  .ofFn fun a => .const (gapLayout.faces a) (.single 2) 1 1 8

private def gapOperator : FiniteVolume ℚ :=
  DiffusionOperator.bind unbound gapMesh (.ofList [.absent]) {}

private lemma gapLayout_inside : gapLayout.Inside gapGeometry.domain := by
  intro i hi a
  have hi : i < 2 := hi
  interval_cases i <;> cases a <;> decide

private lemma gapLayout_disjoint : gapLayout.Disjoint := by
  refine Layout.disjoint_of_pairwise (List.pairwise_pair.2 fun q hq hq' => ?_)
  have h₁ := (Box.mem_iff.1 hq .x).2
  have h₂ := (Box.mem_iff.1 hq' .x).1
  simp only [Triple.get] at h₁ h₂
  omega

private lemma gapViscosity_repeats :
    gapLayout.Duplicates gapGeometry.periods fun i p => gapViscosity.get i p 0 := by
  have hpoints : ∀ i < gapLayout.count, ∀ q ∈ ((gapLayout.box i).grow 1).points,
      q ∉ gapLayout.box i → ∀ s ∈ gapGeometry.periods.shifts, ∀ j < gapLayout.count,
        q - s ∈ gapLayout.box j → gapViscosity.get i q 0 = gapViscosity.get j (q - s) 0 := by
    decide +kernel
  exact fun i hi q hq => hpoints i hi q (Box.mem_points.2 hq)

/-- On the ring with a gap, the face between its ends has one viscosity at both ends, in the fields
and in the operator. The ghost face before the first one has that of the last face inside, and the
face at the gap takes the nine of the ghost behind it. -/
theorem levelCoefficients_singleValued_gap :
    let loaded := levelCoefficients gapOperator 0 gapGeometry gapFaces gapViscosity gapViscosity
    gapLayout.Inside gapGeometry.domain ∧ gapLayout.Disjoint ∧
    gapLayout.Duplicates gapGeometry.periods (fun i p => gapViscosity.get i p 0) ∧
    (loaded.2.get .x).get 0 ⟨0, 0, 0⟩ 0 = (6 + 1) / 2 ∧
    (loaded.2.get .x).get 1 ⟨6, 0, 0⟩ 0 = (6 + 1) / 2 ∧
    ((loaded.1.levels.get 0).viscosity.get .x).get 1 ⟨6, 0, 0⟩ 0 = (6 + 1) / 2 ∧
    (loaded.2.get .x).get 0 ⟨-1, 0, 0⟩ 0 = (5 + 6) / 2 ∧
    (loaded.2.get .x).get 0 ⟨2, 0, 0⟩ 0 = (2 + 9) / 2 := by
  intro loaded
  have hfaces : ∀ a, (gapFaces.get a).layout = gapLayout.faces a ∧ 0 < (gapFaces.get a).ncomp :=
    fun a => by cases a <;> exact ⟨rfl, Nat.one_pos⟩
  have hpoints : ∀ k < gapLayout.count, ∃ p, p ∈ gapLayout.box k := by
    intro k hk
    have hk : k < 2 := hk
    interval_cases k
    · exact ⟨⟨0, 0, 0⟩, by decide⟩
    · exact ⟨⟨4, 0, 0⟩, by decide⟩
  have hloaded : Loaded gapMesh (.ofList [.absent]) gapOperator := .bind _ _
  have hsingle (i : ℕ) (hi : i < gapLayout.count) (q : Point)
      (hq : q ∈ (gapLayout.faces .x).box i) :=
    @levelCoefficients_singleValued ℚ _ gapOperator gapMesh (.ofList [.absent]) 0 gapFaces
      gapViscosity gapViscosity hloaded Nat.one_pos gapLayout_inside gapLayout_disjoint
      gapViscosity_repeats hfaces .x i hi q hq (.inl hpoints)
  obtain ⟨below, above, hbelow, habove, hfields, hoperator⟩ :=
    hsingle 0 (by decide) ⟨0, 0, 0⟩ (by decide +kernel)
  obtain rfl : below = 6 :=
    (hbelow.cell ⟨-6, 0, 0⟩ (by decide +kernel) 1 (by decide) (by decide +kernel)).trans
      (by decide +kernel)
  obtain rfl : above = 1 :=
    (habove.cell ⟨0, 0, 0⟩ (by decide +kernel) 0 (by decide) (by decide +kernel)).trans
      (by decide +kernel)
  obtain ⟨last, first, hlast, hfirst, hinner, -⟩ :=
    hsingle 1 (by decide) ⟨5, 0, 0⟩ (by decide +kernel)
  obtain rfl : last = 5 :=
    (hlast.cell ⟨0, 0, 0⟩ (by decide +kernel) 1 (by decide) (by decide +kernel)).trans
      (by decide +kernel)
  obtain rfl : first = 6 :=
    (hfirst.cell ⟨0, 0, 0⟩ (by decide +kernel) 1 (by decide) (by decide +kernel)).trans
      (by decide +kernel)
  obtain ⟨cell, ghost, hcell, hghost, hopen, -⟩ :=
    hsingle 0 (by decide) ⟨2, 0, 0⟩ (by decide +kernel)
  obtain rfl : cell = 2 :=
    (hcell.cell ⟨0, 0, 0⟩ (by decide +kernel) 0 (by decide) (by decide +kernel)).trans
      (by decide +kernel)
  obtain rfl : ghost = 9 := (hghost.ghost (by decide +kernel)).trans (by decide +kernel)
  have hhalf : ∀ v : ℚ, 0.5 * v = v / 2 := fun v => by
    rw [Exact.half]
    ring
  have hzero : Point.zero ∈ gapGeometry.periods.shifts := Periods.zero_mem_shifts
  refine ⟨gapLayout_inside, gapLayout_disjoint, gapViscosity_repeats, ?_, ?_, ?_, ?_, ?_⟩
  · exact (hfields Point.zero hzero 0 (by decide +kernel)).trans (hhalf _)
  · exact (hfields ⟨-6, 0, 0⟩ (by decide +kernel) 1 (by decide +kernel)).trans (hhalf _)
  · exact (hoperator ⟨-6, 0, 0⟩ (by decide +kernel) 1 (by decide) (by decide +kernel)).trans
      (hhalf _)
  · exact (hinner ⟨6, 0, 0⟩ (by decide +kernel) 0 (by decide +kernel)).trans (hhalf _)
  · exact (hopen Point.zero hzero 0 (by decide +kernel)).trans (hhalf _)

end FiniteVolume

end MeshDiffusion
