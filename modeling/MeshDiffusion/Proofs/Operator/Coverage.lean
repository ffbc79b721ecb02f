import Mathlib.Tactic
import MeshDiffusion.Proofs.Arith.Exact
import MeshDiffusion.Proofs.Field.Exchange
import MeshDiffusion.Proofs.Index.Adjacency
import MeshDiffusion.Proofs.Index.Cutting
import MeshDiffusion.Proofs.Operator.Body

/-!
Coverage next to the boxes.

A field gets the values next to its boxes from the cells that lie there, itself or by a periodic
image. Which of these places are covered is not copied but asked of the obstacle, at the place of
the ghost. The two ways agree between the boxes of a level. Through the ends of a periodic domain
they agree as far as the obstacle repeats there.

* `CellKind.ofBox_eq_covered_iff`, `CellKind.ofBox_eq_regular_iff`: what the kind of a box says of
  its cells;
* `FiniteVolume.get_onLevel_of_keeps`: what a change of one level keeps stays on all levels;
* `FiniteVolume.Loaded` are the operators that come from binding one to a hierarchy and setting its
  coefficients; `Loaded.inBody_eq`: their masks are the coverage of the obstacle;
* `FiniteVolume.coverage_exact`: neither the early end of a classification nor the masks and boxes
  left out lose anything;
* `LevelOperator.blocked`: no flux passes a face because one of its two cells is covered;
* `FiniteVolume.inBody_source`: the flag of a ghost and that of the cell it is copied from agree
  exactly when the obstacle covers both places or none of them, and then both cells of a face agree
  whether it is blocked;
* `FiniteVolume.inBody_source_wrapped`: beyond the end of a ring they differ.
-/

namespace MeshDiffusion

/-! ### Obstacles that classify a box cell by cell -/

namespace CellKind

variable {kind : Point → CellKind} {cells : List Point} {region : Box}
  {seenCovered seenRegular : Bool}

/-- A list is covered when all its cells are and no regular cell came before, provided that some
cell was seen. A covered and a regular cell are never seen both. -/
lemma ofCells_eq_covered_iff (hseen : seenCovered = false ∨ seenRegular = false) :
    ofCells kind seenCovered seenRegular cells = covered ↔
      (∀ p ∈ cells, kind p = covered) ∧ seenRegular = false ∧
        (seenCovered = true ∨ cells ≠ []) := by
  induction cells generalizing seenCovered seenRegular with
  | nil =>
      cases seenCovered with
      | true => simpa [ofCells] using hseen
      | false => simp [ofCells]
  | cons p cells ih =>
      rw [ofCells, List.forall_mem_cons]
      cases hkind : kind p with
      | covered =>
          cases seenRegular with
          | true => simp
          | false => simp [ih (.inr rfl)]
      | regular =>
          cases seenCovered with
          | true => simp
          | false => simp [ih (.inl rfl)]
      | cut => simp

/-- A list is regular when all its cells are and no covered cell came before. -/
lemma ofCells_eq_regular_iff :
    ofCells kind seenCovered seenRegular cells = regular ↔
      (∀ p ∈ cells, kind p = regular) ∧ seenCovered = false := by
  induction cells generalizing seenCovered seenRegular with
  | nil => simp [ofCells]
  | cons p cells ih =>
      rw [ofCells, List.forall_mem_cons]
      cases hkind : kind p with
      | covered =>
          cases seenRegular with
          | true => simp
          | false => simp [ih]
      | regular =>
          cases seenCovered with
          | true => simp
          | false => simp [ih]
      | cut => simp

/-- A box is covered when it has cells and all of them are. -/
lemma ofBox_eq_covered_iff :
    ofBox kind region = covered ↔ region.isEmpty = false ∧ ∀ p ∈ region, kind p = covered := by
  have hsome : region.points ≠ [] ↔ region.isEmpty = false := by
    rw [Ne, List.eq_nil_iff_forall_not_mem, Classical.not_forall_not, Box.isEmpty_eq_false_iff]
    exact exists_congr fun _ => Box.mem_points
  rw [ofBox, ofCells_eq_covered_iff (.inl rfl), and_comm]
  simp [hsome, Box.mem_points]

/-- A box is regular when all its cells are, hence also without cells. -/
lemma ofBox_eq_regular_iff : ofBox kind region = regular ↔ ∀ p ∈ region, kind p = regular := by
  simp [ofBox, ofCells_eq_regular_iff, Box.mem_points]

end CellKind

variable {K : Type} [Scalar K]

omit [Scalar K] in
/-- An obstacle that classifies a box cell by cell keeps the contract. -/
lemma Obstacle.classifies_ofBox {o : Obstacle K} (h : o.boxKind = CellKind.ofBox o.kind) :
    o.Classifies where
  covered _ hb := (CellKind.ofBox_eq_covered_iff.1 (h ▸ hb)).2
  regular _ hb := CellKind.ofBox_eq_regular_iff.1 (h ▸ hb)

omit [Scalar K] in
/-- It keeps the whole contract. -/
lemma Obstacle.decides_ofBox {o : Obstacle K} (h : o.boxKind = CellKind.ofBox o.kind) :
    o.Decides where
  toClassifies := classifies_ofBox h
  cut b hb := by
    have hkind : CellKind.ofBox o.kind b = .cut := h ▸ hb
    refine ⟨fun hall => ?_, fun hall => ?_⟩
    · have hempty : b.isEmpty = true := by
        by_contra hpoints
        rw [CellKind.ofBox_eq_covered_iff.2 ⟨Bool.eq_false_iff.2 hpoints, hall⟩] at hkind
        cases hkind
      have hregular : CellKind.ofBox o.kind b = .regular :=
        CellKind.ofBox_eq_regular_iff.2 fun p hp => absurd hp (Box.isEmpty_iff.1 hempty p)
      rw [hregular] at hkind
      cases hkind
    · rw [CellKind.ofBox_eq_regular_iff.2 hall] at hkind
      cases hkind

/-- A cylinder keeps the contract. -/
lemma Cylinder.classifies [Trig K] (c : Cylinder K) : c.obstacle.Classifies :=
  Obstacle.classifies_ofBox rfl

/-- The obstacle, if there is one, covers the cell. -/
def coveredAt (obstacle? : Option (Obstacle K)) (p : Point) : Bool :=
  obstacle?.any fun o => o.kind p == .covered

/-! ### Operators on a hierarchy -/

/-- No flux passes through a face of a cell because the cell or its neighbour there is covered. -/
def LevelOperator.blocked (l : LevelOperator K) (i : ℕ) (p : Point) (f : Face) : Bool :=
  l.inBody i p || l.inBody i (p.move f.axis f.side.step)

namespace FiniteVolume

variable {o : FiniteVolume K} {h : Hierarchy K} {obstacles : Levels (Obstacle K)} {level i : ℕ}
  {p : Point}

/-- The operators that come from binding one to a hierarchy and setting its coefficients. -/
inductive Loaded (h : Hierarchy K) (obstacles : Levels (Obstacle K)) : FiniteVolume K → Prop
  | bind (o : FiniteVolume K) (options : OperatorOptions) :
      Loaded h obstacles (DiffusionOperator.bind o h obstacles options)
  | wallOrder {o : FiniteVolume K} (n : ℕ) (ho : Loaded h obstacles o) :
      Loaded h obstacles (DiffusionOperator.setWallOrder o n)
  | boundary {o : FiniteVolume K} (b : DomainBoundary) (ho : Loaded h obstacles o) :
      Loaded h obstacles (DiffusionOperator.setBoundary o b)
  | scalars {o : FiniteVolume K} (alpha beta : K) (ho : Loaded h obstacles o) :
      Loaded h obstacles (DiffusionOperator.setAlphaBeta o alpha beta)
  | mass {o : FiniteVolume K} (level : ℕ) (a : MeshField K) (ho : Loaded h obstacles o) :
      Loaded h obstacles (DiffusionOperator.setMass o level a)
  | faceViscosity {o : FiniteVolume K} (level : ℕ) (b : Triple (MeshField K))
      (ho : Loaded h obstacles o) :
      Loaded h obstacles (DiffusionOperator.setFaceViscosity o level b)
  | obstacleViscosity {o : FiniteVolume K} (level : ℕ) (eta : MeshField K)
      (ho : Loaded h obstacles o) :
      Loaded h obstacles (DiffusionOperator.setObstacleViscosity o level eta)
  | boundaryValues {o : FiniteVolume K} (level : ℕ) (bc : MeshField K)
      (ho : Loaded h obstacles o) :
      Loaded h obstacles (DiffusionOperator.setBoundaryValues o level bc)

/-- An operator has the levels of a hierarchy, each with its geometry and its mask. -/
structure Bound (h : Hierarchy K) (obstacles : Levels (Obstacle K)) (o : FiniteVolume K) :
    Prop where
  count : o.levels.count = h.active
  geometry : ∀ level < h.active, (o.levels.get level).geometry = h.geometry level
  covered : ∀ level < h.active, (o.levels.get level).covered?
    = (obstacles.get? level).bind (bodyMask (h.layout level) (h.owners level))

/-- What a change of coefficients keeps, it keeps on every level. -/
lemma get_onLevel_of_keeps {β : Type} {f : LevelOperator K → LevelOperator K}
    {v : LevelOperator K → β} (hkeeps : ∀ l, v (f l) = v l) {k : ℕ} (hk : k < o.levels.count) :
    v ((o.onLevel level f).levels.get k) = v (o.levels.get k) := by
  by_cases hkl : k = level
  · subst hkl
    have hget : (o.onLevel k f).levels.get k = f (o.levels.get k) := Levels.get_modify_self hk f
    rw [hget, hkeeps]
  · have hget : (o.onLevel level f).levels.get k = o.levels.get k := Levels.get_modify_of_ne hkl f
    rw [hget]

/-- A change of coefficients keeps the geometry and the mask of every level. -/
lemma Bound.onLevel (ho : Bound h obstacles o) {f : LevelOperator K → LevelOperator K}
    (hgeometry : ∀ l, (f l).geometry = l.geometry) (hcovered : ∀ l, (f l).covered? = l.covered?) :
    Bound h obstacles (o.onLevel level f) := by
  refine ⟨(Levels.count_modify ..).trans ho.count, fun k hk => ?_, fun k hk => ?_⟩
  · exact (get_onLevel_of_keeps hgeometry (ho.count ▸ hk)).trans (ho.geometry k hk)
  · exact (get_onLevel_of_keeps hcovered (ho.count ▸ hk)).trans (ho.covered k hk)

namespace Loaded

/-- Coefficients come and go, the geometry and the mask of a level stay. -/
theorem bound (ho : Loaded h obstacles o) : Bound h obstacles o := by
  induction ho with
  | bind o options =>
      refine ⟨Levels.count_ofFn .., fun level hlevel => ?_, fun level hlevel => ?_⟩
      · exact congrArg LevelOperator.geometry (Levels.get_ofFn hlevel)
      · exact congrArg LevelOperator.covered? (Levels.get_ofFn hlevel)
  | wallOrder n _ ih => exact ⟨ih.count, ih.geometry, ih.covered⟩
  | boundary b _ ih => exact ⟨ih.count, ih.geometry, ih.covered⟩
  | scalars alpha beta _ ih => exact ⟨ih.count, ih.geometry, ih.covered⟩
  | mass level a _ ih => exact ih.onLevel (fun _ => rfl) fun _ => rfl
  | faceViscosity level b _ ih => exact ih.onLevel (fun _ => rfl) fun _ => rfl
  | obstacleViscosity level eta _ ih => exact ih.onLevel (fun _ => rfl) fun _ => rfl
  | boundaryValues level bc _ ih => exact ih.onLevel (fun _ => rfl) fun _ => rfl

/-- Around the boxes the mask is the coverage of the obstacle, whatever box asks. -/
theorem inBody_eq (ho : Loaded h obstacles o) (hlevel : level < h.active)
    (hobstacle : ∀ b ∈ obstacles.get? level, b.Classifies) (hi : i < (h.layout level).count)
    (hp : p ∈ ((h.layout level).box i).grow 1) :
    (o.levels.get level).inBody i p = coveredAt (obstacles.get? level) p := by
  rw [Bool.eq_iff_iff, LevelOperator.inBody_iff (ho.bound.covered level hlevel) hobstacle hi hp]
  simp [coveredAt, Option.any_eq_true]

end Loaded

/-! ### A pillar in a ring -/

/-- Sixteen cells in a square. -/
private def square : Box := ⟨⟨0, 0, 0⟩, ⟨3, 3, 0⟩, .cell⟩

/-- The square in cells of unit width, closed to a ring along the first axis. -/
private def squareGeometry : Geometry ℚ :=
  ⟨square, ⟨0, 0, 0⟩, ⟨4, 4, 1⟩, ⟨true, false, false⟩⟩

/-- The ring in boxes no longer than a given length. -/
private def squareMesh (m : ℕ) : Hierarchy ℚ :=
  ⟨.ofList [⟨squareGeometry, .cut square m, .single 0⟩], 0⟩

/-- A pillar that stands in the ring at a place of the first axis, and covers the cells around the
place in the two middle rows. -/
private def pillar (x : ℚ) : Obstacle ℚ :=
  let c : Cylinder ℚ := ⟨squareGeometry, x, 2, 3 / 2⟩
  ⟨c.kind, fun _ => .const 0, CellKind.ofBox c.kind⟩

/-- An operator on the ring with a pillar. -/
private def squareOperator (m : ℕ) (x : ℚ) : FiniteVolume ℚ :=
  DiffusionOperator.bind unbound (squareMesh m) (.ofList [pillar x]) {}

/-! ### Masks and cells -/

/-- **The shortcuts lose nothing.** Cell by cell with an early end, a box is covered exactly when it
has cells and all of them are covered, regular exactly when all of its cells are regular, and cut
otherwise. And under any obstacle that keeps the contract, the mask of a level flags exactly the
covered cells, in every box and in the layer around it, though it looks at no cell of a regular box
and is left out when all boxes are regular. -/
theorem coverage_exact :
    (∀ (kind : Point → CellKind) (region : Box),
      (CellKind.ofBox kind region = .covered ↔
        region.isEmpty = false ∧ ∀ p ∈ region, kind p = .covered) ∧
      (CellKind.ofBox kind region = .regular ↔ ∀ p ∈ region, kind p = .regular) ∧
      (CellKind.ofBox kind region = .cut ↔
        ¬(region.isEmpty = false ∧ ∀ p ∈ region, kind p = .covered) ∧
          ¬∀ p ∈ region, kind p = .regular)) ∧
    ∀ (h : Hierarchy K) (obstacles : Levels (Obstacle K)) (o : FiniteVolume K),
      Loaded h obstacles o → ∀ level < h.active, (∀ b ∈ obstacles.get? level, b.Classifies) →
      ∀ i < (h.layout level).count, ∀ p ∈ ((h.layout level).box i).grow 1,
        ((o.levels.get level).inBody i p = true ↔
          ∃ b ∈ obstacles.get? level, b.kind p = .covered) := by
  constructor
  · intro kind region
    have hcovered : CellKind.ofBox kind region = .covered ↔ _ := CellKind.ofBox_eq_covered_iff
    have hregular : CellKind.ofBox kind region = .regular ↔ _ := CellKind.ofBox_eq_regular_iff
    refine ⟨hcovered, hregular, ?_⟩
    rw [← hcovered, ← hregular]
    cases CellKind.ofBox kind region <;> decide
  · intro h obstacles o ho level hlevel hobstacle i hi p hp
    exact LevelOperator.inBody_iff (ho.bound.covered level hlevel) hobstacle hi hp

/-- A box with a covered and a regular cell is cut, though no cell of it is. In single cells, the
last box of the first row is regular with the layer around it and has no flag, and the first box has
the flag of the covered cell beyond its face; far from the pillar there is no mask. -/
theorem coverage_exact_pillar :
    CellKind.ofBox (fun p => if p.x < 0 then .covered else .regular) ⟨⟨-1, 0, 0⟩, ⟨0, 0, 0⟩, .cell⟩
      = .cut ∧
    Loaded (squareMesh 1) (.ofList [pillar 0]) (squareOperator 1 0) ∧ (pillar 0).Classifies ∧
    (pillar 0).boxKind (((Layout.cut square 1).box 3).grow 1) = .regular ∧
    ((squareOperator 1 0).levels.get 0).inBody 3 ⟨3, 0, 0⟩ = false ∧
    (pillar 0).kind ⟨0, 1, 0⟩ = .covered ∧
    ((squareOperator 1 0).levels.get 0).inBody 0 ⟨0, 1, 0⟩ = true ∧
    ((squareOperator 4 9).levels.get 0).covered?.isNone = true ∧
    ((squareOperator 4 9).levels.get 0).inBody 0 ⟨0, 1, 0⟩ = false := by
  have hloaded (m : ℕ) (x : ℚ) :
      Loaded (squareMesh m) (.ofList [pillar x]) (squareOperator m x) := .bind _ _
  have hobstacle (x : ℚ) : ∀ b ∈ (Levels.ofList [pillar x]).get? 0, b.Classifies := by
    rintro b ⟨⟩
    exact Obstacle.classifies_ofBox rfl
  have hmask (m : ℕ) (x : ℚ) :=
    (coverage_exact (K := ℚ)).2 _ _ _ (hloaded m x) 0 Nat.one_pos (hobstacle x)
  have hcovered : (pillar 0).kind ⟨0, 1, 0⟩ = .covered := by decide +kernel
  have hopen : (pillar 0).kind ⟨3, 0, 0⟩ ≠ .covered := by decide +kernel
  have hfar : (pillar 9).kind ⟨0, 1, 0⟩ ≠ .covered := by decide +kernel
  refine ⟨?_, hloaded 1 0, hobstacle 0 _ rfl, by decide +kernel, ?_, hcovered, ?_, by decide +kernel,
    ?_⟩
  · refine ((coverage_exact (K := ℚ)).1 _ _).2.2.2 ⟨fun hall => ?_, fun hall => ?_⟩
    · exact absurd (hall.2 ⟨0, 0, 0⟩ (by decide)) (by decide)
    · exact absurd (hall ⟨-1, 0, 0⟩ (by decide)) (by decide)
  · rw [← Bool.not_eq_true, hmask 1 0 3 (by decide +kernel) _ (by decide +kernel)]
    rintro ⟨b, ⟨⟩, hb⟩
    exact hopen hb
  · exact (hmask 1 0 0 (by decide +kernel) _ (by decide +kernel)).2 ⟨_, rfl, hcovered⟩
  · rw [← Bool.not_eq_true, hmask 4 9 0 (by decide +kernel) _ (by decide +kernel)]
    rintro ⟨b, ⟨⟩, hb⟩
    exact hfar hb

/-! ### Flags and values -/

/-- **A flag is not copied.** The flag of a ghost agrees with that of the cell that its value is
copied from exactly when the obstacle covers both places or none of them. Between the boxes of a
level it always does. If the obstacle repeats where cells do, it does at every ghost, and on a
tiling the two cells at a face agree whether the face is blocked, also through the ends of a
periodic domain. -/
theorem inBody_source (ho : Loaded h obstacles o) (hlevel : level < h.active)
    (hobstacle : ∀ b ∈ obstacles.get? level, b.Classifies) :
    (∀ ghosts, 1 ≤ ghosts → ∀ i < (h.layout level).count,
      ∀ p ∈ ((h.layout level).box i).grow 1, p ∉ (h.layout level).box i → ∀ j q,
      (Halo.ofLayout (h.layout level) (h.geometry level).periods ghosts).source? i p
          = some (j, q) →
        ((o.levels.get level).inBody i p = (o.levels.get level).inBody j q ↔
          coveredAt (obstacles.get? level) p = coveredAt (obstacles.get? level) q) ∧
        (p = q → (o.levels.get level).inBody i p = (o.levels.get level).inBody j q) ∧
        ((h.layout level).Duplicates (h.geometry level).periods
            (fun _ => coveredAt (obstacles.get? level)) →
          (o.levels.get level).inBody i p = (o.levels.get level).inBody j q)) ∧
    ((h.layout level).Tiles (h.geometry level).domain →
      (h.layout level).Duplicates (h.geometry level).periods
        (fun _ => coveredAt (obstacles.get? level)) →
      ∀ c ∈ (h.layout level).cells, ∀ d ∈ (h.layout level).cells, ∀ f : Face,
        Point.Adjacent (h.geometry level).periods c.2 d.2 f →
          (o.levels.get level).blocked c.1 c.2 f
            = (o.levels.get level).blocked d.1 d.2 f.opposite) := by
  constructor
  · rintro ghosts hghosts i hi p hp hghost j q hsource
    have hregion : p ∈ ((h.layout level).box i).grow ghosts :=
      Box.mem_grow.2 fun a => by have := Box.mem_grow.1 hp a; omega
    rw [Halo.source?_eq hi hregion] at hsource
    obtain ⟨⟨s, j⟩, hlast, hpair⟩ := Option.map_eq_some_iff.1 hsource
    cases hpair
    obtain ⟨hmem, -, hcell⟩ := Halo.lastProvider_mem hlast
    obtain ⟨hs, hj⟩ := Halo.mem_pairs.1 hmem
    rw [ho.inBody_eq hlevel hobstacle hi hp,
      ho.inBody_eq hlevel hobstacle hj (Box.mem_grow_of_mem 1 hcell)]
    refine ⟨Iff.rfl, congrArg _, fun hrepeats => ?_⟩
    exact hrepeats i hi p hp hghost s hs j hj hcell
  · intro htiles hrepeats c hc d hd f hadjacent
    obtain ⟨hi, hp⟩ := Layout.mem_cells.1 hc
    obtain ⟨hj, hq⟩ := Layout.mem_cells.1 hd
    have hnext := hrepeats.adjacent htiles hc hd hadjacent
    have hback := hrepeats.adjacent htiles hd hc hadjacent.symm
    rw [LevelOperator.blocked, LevelOperator.blocked,
      ho.inBody_eq hlevel hobstacle hi (Box.mem_grow_of_mem 1 hp),
      ho.inBody_eq hlevel hobstacle hi (Box.move_mem_grow hp f.side.step_eq),
      ho.inBody_eq hlevel hobstacle hj (Box.mem_grow_of_mem 1 hq),
      ho.inBody_eq hlevel hobstacle hj (Box.move_mem_grow hq f.opposite.side.step_eq), hnext, hback,
      Bool.or_comm]

/-- With a pillar in the middle of the ring, in four boxes, the ghost of one box that lies in the
pillar is flagged as the cell of the next box is, and the first and the last cell of a row agree
that their common face is open. -/
theorem inBody_source_pillar :
    let l := (squareOperator 2 2).levels.get 0
    let halo := Halo.ofLayout (.cut square 2) squareGeometry.periods 1
    halo.source? 0 ⟨2, 1, 0⟩ = some (1, ⟨2, 1, 0⟩) ∧ l.inBody 0 ⟨2, 1, 0⟩ = true ∧
    l.inBody 0 ⟨2, 1, 0⟩ = l.inBody 1 ⟨2, 1, 0⟩ ∧
    halo.source? 0 ⟨-1, 1, 0⟩ = some (1, ⟨3, 1, 0⟩) ∧
    l.inBody 0 ⟨-1, 1, 0⟩ = l.inBody 1 ⟨3, 1, 0⟩ ∧
    l.blocked 1 ⟨3, 1, 0⟩ ⟨.x, .hi⟩ = l.blocked 0 ⟨0, 1, 0⟩ ⟨.x, .lo⟩ := by
  intro l halo
  have hloaded : Loaded (squareMesh 2) (.ofList [pillar 2]) (squareOperator 2 2) := .bind _ _
  have hobstacle : ∀ b ∈ (Levels.ofList [pillar 2]).get? 0, b.Classifies := by
    rintro b ⟨⟩
    exact Obstacle.classifies_ofBox rfl
  have hrepeats : (Layout.cut square 2).Duplicates squareGeometry.periods
      (fun _ => coveredAt (some (pillar 2))) := by
    have hpoints : ∀ i < (Layout.cut square 2).count,
        ∀ q ∈ (((Layout.cut square 2).box i).grow 1).points, q ∉ (Layout.cut square 2).box i →
        ∀ s ∈ squareGeometry.periods.shifts, ∀ j < (Layout.cut square 2).count,
          q - s ∈ (Layout.cut square 2).box j →
            coveredAt (some (pillar 2)) q = coveredAt (some (pillar 2)) (q - s) := by
      decide +kernel
    exact fun i hi q hq => hpoints i hi q (Box.mem_points.2 hq)
  obtain ⟨hsource, hface⟩ := inBody_source hloaded Nat.one_pos hobstacle
  have hnext : halo.source? 0 ⟨2, 1, 0⟩ = some (1, ⟨2, 1, 0⟩) := by decide +kernel
  have hwrapped : halo.source? 0 ⟨-1, 1, 0⟩ = some (1, ⟨3, 1, 0⟩) := by decide +kernel
  refine ⟨hnext, by decide +kernel, ?_, hwrapped, ?_, ?_⟩
  · exact (hsource 1 le_rfl 0 (by decide +kernel) _ (by decide +kernel) (by decide +kernel) _ _
      hnext).2.1 rfl
  · exact (hsource 1 le_rfl 0 (by decide +kernel) _ (by decide +kernel) (by decide +kernel) _ _
      hwrapped).2.2 hrepeats
  · exact hface (Layout.cut_tiles square 2) hrepeats (1, ⟨3, 1, 0⟩)
      (Layout.mem_cells.2 ⟨by decide +kernel, by decide +kernel⟩) (0, ⟨0, 1, 0⟩)
      (Layout.mem_cells.2 ⟨by decide +kernel, by decide +kernel⟩) ⟨.x, .hi⟩
      ⟨⟨4, 0, 0⟩, by decide +kernel, by decide +kernel⟩

/-- With a pillar at the end of the ring the flags differ: the ghost before the first cell is
covered, and the last cell, whose value it has, is not. The two cells at the face between the ends
disagree whether it is blocked. -/
theorem inBody_source_wrapped :
    let l := (squareOperator 4 0).levels.get 0
    let halo := Halo.ofLayout (.cut square 4) squareGeometry.periods 1
    Loaded (squareMesh 4) (.ofList [pillar 0]) (squareOperator 4 0) ∧ (pillar 0).Classifies ∧
    halo.source? 0 ⟨-1, 1, 0⟩ = some (0, ⟨3, 1, 0⟩) ∧
    l.inBody 0 ⟨-1, 1, 0⟩ = true ∧ l.inBody 0 ⟨3, 1, 0⟩ = false ∧
    Point.Adjacent squareGeometry.periods ⟨3, 1, 0⟩ ⟨0, 1, 0⟩ ⟨.x, .hi⟩ ∧
    l.blocked 0 ⟨3, 1, 0⟩ ⟨.x, .hi⟩ = false ∧ l.blocked 0 ⟨0, 1, 0⟩ ⟨.x, .lo⟩ = true := by
  refine ⟨.bind _ _, Obstacle.classifies_ofBox rfl, by decide +kernel, by decide +kernel,
    by decide +kernel, ⟨⟨4, 0, 0⟩, by decide +kernel, by decide +kernel⟩, by decide +kernel,
    by decide +kernel⟩

end FiniteVolume

end MeshDiffusion
