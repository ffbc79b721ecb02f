import Mathlib.Tactic
import MeshDiffusion.Proofs.Arith.Exact
import MeshDiffusion.Proofs.Index.Cutting
import MeshDiffusion.Proofs.Index.PointSets
import MeshDiffusion.Proofs.Operator.Filling

/-!
Ghosts after filling: none keeps what it held before.

Two questions decide the value of a ghost, and each is answered on its own: which box or periodic
image it is copied from, where the box itself, unmoved, is left out, and whether it has no such
image and takes a boundary value, where the box itself counts. Between them no ghost may be
forgotten, and none may be written by both.

* `Layout.reached` lists the parts of all images that reach into the region of a box;
  `Layout.exists_mem_reached`: together they hold the points that are not exposed;
* `MeshField.fillExposed` writes the boundary values into all other points;
* `FiniteVolume.filled_eq_fillExposed`: the filled field is an exchange and then this pass;
* `FiniteVolume.fillHalo_exact`: what every stored point holds after filling.
-/

namespace MeshDiffusion

/-! ### The points that images reach -/

namespace Layout

variable {l : Layout} {periods : Periods} {ghosts i : ℕ} {p : Point}

/-- The parts of the images of all boxes, the box itself included, that lie in the region of a
box. -/
def reached (l : Layout) (periods : Periods) (ghosts i : ℕ) : List Box :=
  periods.shifts.flatMap fun s =>
    l.toList.filterMap fun b => ((l.box i).grow ghosts).inter? (b.shift s)

/-- Every point of a region is either reached by an image or exposed. -/
theorem exists_mem_reached (hp : p ∈ (l.box i).grow ghosts) :
    (∃ b ∈ l.reached periods ghosts i, p ∈ b) ↔ ¬l.Exposed periods p := by
  rw [not_exposed_iff]
  simp only [reached, List.mem_flatMap, List.mem_filterMap, mem_toList]
  constructor
  · rintro ⟨d, ⟨s, hs, b, ⟨j, hj, rfl⟩, hinter⟩, hd⟩
    obtain ⟨-, himage⟩ := Box.exists_mem_inter?.1 ⟨d, hinter, hd⟩
    exact ⟨s, hs, j, hj, Box.mem_shift.1 himage⟩
  · rintro ⟨s, hs, j, hj, hmem⟩
    obtain ⟨d, hinter, hd⟩ := Box.exists_mem_inter?.2 ⟨hp, Box.mem_shift.2 hmem⟩
    exact ⟨d, ⟨s, hs, l.box j, ⟨j, hj, rfl⟩, hinter⟩, hd⟩

end Layout

/-! ### Filling in two passes -/

namespace MeshField

variable {K : Type} [Scalar K]

/-- Writes the boundary values into all points that no image reaches. -/
def fillExposed (f : MeshField K) (periods : Periods) (bc? : Option (MeshField K)) : MeshField K :=
  f.update fun i p n old =>
    if ∃ b ∈ f.layout.reached periods f.ghosts i, p ∈ b then old
    else FiniteVolume.boundaryValue bc? i p n

/-- The exposed points hold the boundary values, all others what they held. -/
lemma get_fillExposed {f : MeshField K} {periods : Periods} {bc? : Option (MeshField K)} {i n : ℕ}
    {p : Point} (h : f.Stores i p n) :
    (f.fillExposed periods bc?).get i p n =
      if f.layout.Exposed periods p then FiniteVolume.boundaryValue bc? i p n
      else f.get i p n := by
  have hreached : (∃ b ∈ f.layout.reached periods f.ghosts i, p ∈ b)
      ↔ ¬f.layout.Exposed periods p := Layout.exists_mem_reached h.2.1
  rw [fillExposed, get_update, if_pos h, ite_cond_congr (propext hreached), ite_not]

end MeshField

namespace FiniteVolume

variable {K : Type} [Scalar K] {l : LevelOperator K} {f : MeshField K} {homogeneous : Bool}
  {i n : ℕ} {p : Point}

/-- At a point that is not exposed, a filled field holds what the exchange gives. -/
lemma get_filled_of_not_exposed (h : f.Stores i p n)
    (hreached : ¬f.layout.Exposed l.geometry.periods p) :
    (filled l f homogeneous).get i p n = (f.exchange l.geometry.periods).get i p n := by
  rw [get_filled h, MeshField.exchange_eq_gather, MeshField.get_gather h, MeshField.provided]
  by_cases hp : p ∈ f.layout.box i
  · rw [if_pos hp, if_pos hp]
  · rw [if_neg hp, if_neg hp]
    cases hlast : Halo.lastProvider f.layout (Halo.pairs f.layout l.geometry.periods) i p with
    | none => exact absurd ((Halo.lastProvider_eq_none_iff hp).1 hlast) hreached
    | some sj => rfl

/-- At a point that is not exposed, a filled field holds a valid value of an image that covers the
point. -/
lemma exists_get_filled_eq (h : f.Stores i p n)
    (hreached : ¬f.layout.Exposed l.geometry.periods p) :
    ∃ s ∈ l.geometry.periods.shifts, ∃ j < f.layout.count, p - s ∈ f.layout.box j ∧
      (filled l f homogeneous).get i p n = f.get j (p - s) n := by
  rw [get_filled_of_not_exposed h hreached]
  exact MeshField.exists_get_exchange_eq h hreached

/-- **The filled field is an exchange, then the boundary values at all points that no image
reaches.** The sources of the exchange and the list of reached parts leave no ghost to neither and
none to both. -/
theorem filled_eq_fillExposed :
    filled l f homogeneous
      = (f.exchange l.geometry.periods).fillExposed l.geometry.periods
          (if homogeneous then none else l.boundary?) := by
  refine MeshField.ext_get rfl fun i p n hst => ?_
  have h : f.Stores i p n := hst
  have hexchange : (f.exchange l.geometry.periods).Stores i p n := h
  have hlayout : (f.exchange l.geometry.periods).layout = f.layout := rfl
  rw [MeshField.get_fillExposed hexchange, hlayout]
  by_cases hexposed : f.layout.Exposed l.geometry.periods p
  · rw [if_pos hexposed, get_filled_of_exposed h hexposed]
  · rw [if_neg hexposed, get_filled_of_not_exposed h hexposed]

/-! ### No stale ghost -/

/-- **Filling leaves no stale ghost.** For every level of an operator, every field and both kinds of
boundary: the filled field has the shape of the field and comes from two passes, an exchange and
one over the points that no image reaches. Valid points keep their values. A ghost that an image of
a box covers holds the value that the exchange gives it, a valid value of such an image, and on
disjoint boxes inside the domain that of the only one. A ghost that none covers holds the boundary
value stored for its box and component, or zero if the boundary is homogeneous or stores none. So
fields that agree on valid points have one filling, filling twice is filling once, and the image of
a field depends on its valid points only. -/
theorem fillHalo_exact (o : FiniteVolume K) (level : ℕ) (phi : MeshField K) (homogeneous : Bool) :
    let l := o.levels.get level
    let periods := l.geometry.periods
    let full := DiffusionOperator.fillHalo o level phi homogeneous
    full.shape = phi.shape ∧
    full = (phi.exchange periods).fillExposed periods
      (if homogeneous then none else l.boundary?) ∧
    (∀ i p n, p ∈ phi.layout.box i → full.get i p n = phi.get i p n) ∧
    (∀ i p n, phi.Stores i p n → p ∉ phi.layout.box i → ¬phi.layout.Exposed periods p →
      full.get i p n = (phi.exchange periods).get i p n ∧
      (∃ s ∈ periods.shifts, ∃ j < phi.layout.count, p - s ∈ phi.layout.box j ∧
        full.get i p n = phi.get j (p - s) n) ∧
      (phi.layout.Within l.geometry.domain → phi.layout.Disjoint →
        ∀ s ∈ periods.shifts, ∀ j < phi.layout.count, p - s ∈ phi.layout.box j →
          full.get i p n = phi.get j (p - s) n)) ∧
    (∀ i p n, phi.Stores i p n → phi.layout.Exposed periods p →
      full.get i p n =
        if homogeneous then 0.0
        else match l.boundary? with
          | some bc => if bc.Stores i p n then bc.get i p n else 0.0
          | none => 0.0) ∧
    (∀ psi : MeshField K, psi.Agrees phi →
      DiffusionOperator.fillHalo o level psi homogeneous = full) ∧
    DiffusionOperator.fillHalo o level full homogeneous = full ∧
    ∀ psi out : MeshField K, psi.Agrees phi →
      DiffusionOperator.apply o level psi out homogeneous
        = DiffusionOperator.apply o level phi out homogeneous := by
  intro l periods full
  refine ⟨rfl, filled_eq_fillExposed, (filled_agrees phi).valid, fun i p n h hghost hreached => ?_,
    fun i p n h hexposed => ?_, fun psi hagrees => filled_congr hagrees, filled_filled phi,
    fun psi out hagrees => ?_⟩
  · exact ⟨get_filled_of_not_exposed h hreached, exists_get_filled_eq h hreached,
      fun hin hdisj s hs j hj hmem => get_filled_of_image hin hdisj h hs hj hmem⟩
  · refine (get_filled_of_exposed h hexposed).trans ?_
    cases homogeneous <;> rfl
  · have hfilled : filled l psi homogeneous = filled l phi homogeneous := filled_congr hagrees
    exact congrArg (fun full => (full, o.applyFilled l full out)) hfilled

/-! ### A channel -/

/-- Four cells in a row between walls, in a domain that wraps around along the second axis. -/
private def channel : Geometry ℚ :=
  ⟨⟨⟨0, 0, 0⟩, ⟨3, 0, 0⟩, .cell⟩, ⟨0, 0, 0⟩, ⟨4, 1, 1⟩, ⟨false, true, false⟩⟩

/-- Two cells in each box. -/
private def channelLayout : Layout := .cut channel.domain 2

/-- The operator on the channel, with sevens as boundary values: one component in one layer. -/
private def channelOperator : FiniteVolume ℚ :=
  let o : FiniteVolume ℚ :=
    DiffusionOperator.bind unbound ⟨.ofList [⟨channel, channelLayout, .single 2⟩], 0⟩
      (.ofList [.absent]) {}
  DiffusionOperator.setBoundaryValues o 0 (.const channelLayout (.single 2) 1 1 7)

/-- Two components in two layers: every cell holds its place, and ten more in the second component;
every ghost holds a given value. -/
private def channelField (stale : ℚ) : MeshField ℚ :=
  .ofFn channelLayout (.single 2) 2 2 fun i p n =>
    if p ∈ channelLayout.box i then p.x + 10 * n else stale

private lemma channelField_agrees (stale stale' : ℚ) :
    (channelField stale).Agrees (channelField stale') := by
  refine ⟨rfl, fun i p n hp => ?_⟩
  have hbox : p ∈ channelLayout.box i := hp
  rw [channelField, channelField, MeshField.get_ofFn, MeshField.get_ofFn, if_pos hbox, if_pos hbox]
  rfl

/-- On the channel, the image of a cell of the other box holds its value, the ghost at the wall
holds the boundary value, and zero where no boundary value is stored; what the ghosts held before
is of no effect. -/
theorem fillHalo_exact_channel :
    let full (stale : ℚ) :=
      DiffusionOperator.fillHalo channelOperator 0 (channelField stale) false
    channelLayout.Tiles channel.domain ∧ (channelField 9).Agrees (channelField 5) ∧
    (full 5).get 0 ⟨2, 1, 0⟩ 1 = 12 ∧ (full 5).get 0 ⟨-1, 0, 0⟩ 0 = 7 ∧
    (full 5).get 0 ⟨-1, 0, 0⟩ 1 = 0 ∧ (full 5).get 0 ⟨-2, 0, 0⟩ 0 = 0 ∧
    full 9 = full 5 ∧
    DiffusionOperator.apply channelOperator 0 (channelField 9) (channelField 0) false
      = DiffusionOperator.apply channelOperator 0 (channelField 5) (channelField 0) false := by
  intro full
  obtain ⟨-, -, -, hcovered, hexposed, hfull, -, happly⟩ :=
    fillHalo_exact channelOperator 0 (channelField 5) false
  have htiles : channelLayout.Tiles channel.domain := Layout.cut_tiles _ 2
  have hdomain : (channelOperator.levels.get 0).geometry.domain = channel.domain := by
    decide +kernel
  have hstores : ∀ p ∈ (channelLayout.box 0).grow 2, ∀ n < 2, (channelField 5).Stores 0 p n :=
    fun p hp n hn => ⟨by decide +kernel, hp, hn⟩
  refine ⟨htiles, channelField_agrees 9 5, ?_, ?_, ?_, ?_, hfull _ (channelField_agrees 9 5),
    happly _ _ (channelField_agrees 9 5)⟩
  · obtain ⟨-, -, hunique⟩ := hcovered 0 ⟨2, 1, 0⟩ 1 (hstores _ (by decide +kernel) 1 (by decide))
      (by decide +kernel) (by decide +kernel)
    have hin : channelLayout.Within (channelOperator.levels.get 0).geometry.domain :=
      hdomain ▸ htiles.within
    exact (hunique hin htiles.disjoint ⟨0, 1, 0⟩ (by decide +kernel) 1 (by decide +kernel)
      (by decide +kernel)).trans (by decide +kernel)
  · exact (hexposed 0 ⟨-1, 0, 0⟩ 0 (hstores _ (by decide +kernel) 0 (by decide))
      (by decide +kernel)).trans (by decide +kernel)
  · exact (hexposed 0 ⟨-1, 0, 0⟩ 1 (hstores _ (by decide +kernel) 1 (by decide))
      (by decide +kernel)).trans (by decide +kernel)
  · exact (hexposed 0 ⟨-2, 0, 0⟩ 0 (hstores _ (by decide +kernel) 0 (by decide))
      (by decide +kernel)).trans (by decide +kernel)

end FiniteVolume

end MeshDiffusion
