import Mathlib.Tactic
import MeshDiffusion.Operator.FiniteVolume
import MeshDiffusion.Proofs.Field.Exchange

/-!
Filling of ghosts.

Before an operator reads a field it fills the ghosts: from a valid point where some box or periodic
image provides one, and from the boundary values elsewhere (`FiniteVolume.get_filled`). Nothing else
of the field is read, so the filled field depends on valid points only.

* `FiniteVolume.get_filled_of_image`, `FiniteVolume.get_filled_of_exposed`: on disjoint boxes a
  point has the value of the cell that covers it, wherever it is stored;
* `MeshField.Agrees`: two fields of one shape hold the same values at all valid points;
* `FiniteVolume.filled_agrees`: filling keeps valid points;
* `FiniteVolume.get_filled_congr`: what decides the value of a filled field at a place, hence
  `FiniteVolume.filled_congr`, `FiniteVolume.filled_filled`: fields that agree have the same
  filling, so a filled field is its own filling.
-/

namespace MeshDiffusion

/-! ### Fields that agree -/

namespace MeshField

variable {K : Type} [Inhabited K] {f g h : MeshField K}

/-- Two fields of one shape with the same values at valid points. -/
structure Agrees (f g : MeshField K) : Prop where
  shape : f.shape = g.shape
  valid : ∀ i p n, p ∈ f.layout.box i → f.get i p n = g.get i p n

lemma Agrees.layout (hfg : f.Agrees g) : f.layout = g.layout := congrArg Shape.layout hfg.shape

lemma Agrees.refl (f : MeshField K) : f.Agrees f := ⟨rfl, fun _ _ _ _ => rfl⟩

lemma Agrees.symm (hfg : f.Agrees g) : g.Agrees f :=
  ⟨hfg.shape.symm, fun i p n hp => (hfg.valid i p n (hfg.layout ▸ hp)).symm⟩

lemma Agrees.trans (hfg : f.Agrees g) (hgh : g.Agrees h) : f.Agrees h :=
  ⟨hfg.shape.trans hgh.shape,
    fun i p n hp => (hfg.valid i p n hp).trans (hgh.valid i p n (hfg.layout ▸ hp))⟩

/-- The exchange keeps valid points. -/
lemma exchange_agrees (f : MeshField K) (periods : Periods) : (f.exchange periods).Agrees f := by
  refine ⟨rfl, fun i p n hp => ?_⟩
  rw [exchange_eq_gather]
  exact get_gather_of_mem hp

/-- The exchange depends on valid points, and on the ghosts that no image of a box holds. -/
theorem exchange_congr {periods : Periods} (h : f.Agrees g)
    (hexposed : ∀ i p n, f.Stores i p n → f.layout.Exposed periods p →
      f.get i p n = g.get i p n) : f.exchange periods = g.exchange periods := by
  refine ext_get h.shape fun i p n hst => ?_
  have hf : f.Stores i p n := hst
  have hg : g.Stores i p n := (stores_iff_of_shape h.shape).1 hf
  rw [exchange_eq_gather, exchange_eq_gather, get_gather hf, get_gather hg, ← h.layout]
  by_cases hp : p ∈ f.layout.box i
  · rw [if_pos hp, if_pos hp, h.valid i p n hp]
  · rw [if_neg hp, if_neg hp]
    refine provided_congr h.shape (fun j q hq => h.valid j q n hq) fun hnone => ?_
    exact hexposed i p n hf ((Halo.lastProvider_eq_none_iff hp).1 hnone)

/-- A copy into all that a field stores depends on the shape of the field only. -/
lemma copy_congr {srcComp dstComp count layers : ℕ} (hshape : f.shape = g.shape)
    (hwhole : ∀ i p n, f.Stores i p n → f.Window layers dstComp count i p n) :
    f.copy h srcComp dstComp count layers = g.copy h srcComp dstComp count layers := by
  refine ext_get hshape fun i p n hst => ?_
  have hf : f.Stores i p n := hst
  have hlayout : f.layout = g.layout := congrArg Shape.layout hshape
  have hw : f.Window layers dstComp count i p n := hwhole i p n hf
  have hw' : g.Window layers dstComp count i p n := by
    rw [Window, ← hlayout]
    exact hw
  rw [get_copy hf, if_pos hw, get_copy ((stores_iff_of_shape hshape).1 hf), if_pos hw']

omit [Inhabited K] in
/-- A field with a layer of ghosts stores the points next to its boxes. -/
lemma stores_of_next {layout : Layout} {i n : ℕ} {p : Point} (hlayout : f.layout = layout)
    (hghosts : 1 ≤ f.ghosts) (hi : i < layout.count) (hp : p ∈ (layout.box i).grow 1)
    (hn : n < f.ncomp) : f.Stores i p n := by
  subst hlayout
  refine ⟨hi, Box.mem_grow.2 fun a => ?_, hn⟩
  have := Box.mem_grow.1 hp a
  omega

/-- A constant field holds its constant at every place that it stores. -/
lemma get_const {layout : Layout} {owners : Ownership} {ncomp ghosts i n : ℕ} {p : Point} {v : K}
    (h : (const layout owners ncomp ghosts v).Stores i p n) :
    (const layout owners ncomp ghosts v).get i p n = v := by
  obtain ⟨hi, hp, hn⟩ := h
  have hb : (const layout owners ncomp ghosts v).blocks[i]?
      = some (Block.const ((layout.box i).grow ghosts) ncomp v) := by
    have : i < layout.boxes.size := hi
    simp [const, this, Layout.getElem_boxes]
  have hindex := Block.getElem?_index (b := Block.const ((layout.box i).grow ghosts) ncomp v) hp hn
  have hvalue : (Block.const ((layout.box i).grow ghosts) ncomp v).get p n = v :=
    Array.eq_of_mem_replicate (Array.mem_of_getElem? hindex)
  rw [get, hb]
  exact hvalue

/-- What is copied to a valid place is read from there. -/
lemma get_copy_of_mem {i n count : ℕ} {p : Point} (h : f.Stores i p n ∧ p ∈ f.layout.box i)
    (hn : n < count) : (f.copy g 0 0 count 0).get i p n = g.get i p n := by
  obtain ⟨hst, hp⟩ := h
  have hw : f.Window 0 0 count i p n := window_zero_iff.2 ⟨hp, Nat.zero_le n, by omega⟩
  rw [get_copy hst, if_pos hw, Nat.zero_add, Nat.sub_zero]

/-- An update adds the multiple at valid points. -/
lemma get_axpy_of_mem {K : Type} [Scalar K] {f g : MeshField K} {a : K} {i n : ℕ} {p : Point}
    (hi : i < f.layout.count) (hp : p ∈ f.layout.box i) (hn : n < f.ncomp) (hn' : n < g.ncomp) :
    (f.axpy a g 0).get i p n = f.get i p n + a * g.get i p n := by
  have hst : f.Stores i p n := stores_of_mem hi hp hn
  have hw : f.Window 0 0 (min f.ncomp g.ncomp) i p n :=
    window_zero_iff.2 ⟨hp, by omega, by omega⟩
  rw [axpy, get_combine _ hst, if_pos hw, Nat.zero_add, Nat.sub_zero]

end MeshField

/-! ### The filled field -/

namespace FiniteVolume

variable {K : Type} [Scalar K] {l : LevelOperator K} {f g : MeshField K} {homogeneous : Bool}
  {i : ℕ} {p : Point} {n : ℕ}

@[simp] lemma shape_filled : (filled l f homogeneous).shape = f.shape := rfl

@[simp] lemma shape_applyFilled {o : FiniteVolume K} {out : MeshField K} :
    (o.applyFilled l f out).shape = out.shape := rfl

/-- A filled field holds its valid values, then those of the last provider, then the boundary
values. -/
theorem get_filled (h : f.Stores i p n) :
    (filled l f homogeneous).get i p n =
      if p ∈ f.layout.box i then f.get i p n
      else match Halo.lastProvider f.layout (Halo.pairs f.layout l.geometry.periods) i p with
        | some (s, j) => f.get j (p - s) n
        | none => boundaryValue (if homogeneous then none else l.boundary?) i p n := by
  have hget : (f.exchangeBy (f.halo l.geometry.periods)).get i p n
      = if p ∈ f.layout.box i then f.get i p n
        else f.provided (Halo.pairs f.layout l.geometry.periods) i p n := by
    have hexchange := MeshField.exchange_eq_gather f l.geometry.periods
    rw [MeshField.exchange] at hexchange
    rw [hexchange, MeshField.get_gather h]
  have hst : (f.exchangeBy (f.halo l.geometry.periods)).Stores i p n := h
  rw [filled, MeshField.get_update, if_pos hst, hget, MeshField.halo, Halo.source?_eq h.1 h.2.1,
    MeshField.provided]
  by_cases hp : p ∈ f.layout.box i
  · simp [hp]
  · cases Halo.lastProvider f.layout (Halo.pairs f.layout l.geometry.periods) i p <;> simp [hp]

/-- What a place of a filled field holds is decided by the cells with an image there and by the
value that is prescribed there. -/
lemma get_filled_congr {l' : LevelOperator K} (hgeometry : l'.geometry = l.geometry)
    (hlayout : g.layout = f.layout) (hf : f.Stores i p n) (hg : g.Stores i p n)
    (hcells : ∀ s ∈ l.geometry.periods.shifts, ∀ j < f.layout.count, p - s ∈ f.layout.box j →
      f.get j (p - s) n = g.get j (p - s) n)
    (hboundary : p ∉ f.layout.box i →
      boundaryValue (if homogeneous then none else l.boundary?) i p n
        = boundaryValue (if homogeneous then none else l'.boundary?) i p n) :
    (filled l f homogeneous).get i p n = (filled l' g homogeneous).get i p n := by
  rw [get_filled hf, get_filled hg, hlayout, hgeometry]
  by_cases hp : p ∈ f.layout.box i
  · have hself := hcells Point.zero Periods.zero_mem_shifts i hf.1
    rw [Point.sub_zero] at hself
    rw [if_pos hp, if_pos hp, hself hp]
  · rw [if_neg hp, if_neg hp]
    cases hlast : Halo.lastProvider f.layout (Halo.pairs f.layout l.geometry.periods) i p with
    | none => exact hboundary hp
    | some sj =>
        obtain ⟨hpair, -, hcell⟩ := Halo.lastProvider_mem hlast
        obtain ⟨hs, hj⟩ := Halo.mem_pairs.1 hpair
        exact hcells _ hs _ hj hcell

/-- On disjoint boxes inside the domain, a filled field holds at every point that some image of a
box covers the value of the cell that covers it, whether the point is a cell or a ghost. -/
theorem get_filled_of_image {s : Point} {j : ℕ} (hin : f.layout.Within l.geometry.domain)
    (hdisj : f.layout.Disjoint) (h : f.Stores i p n) (hs : s ∈ l.geometry.periods.shifts)
    (hj : j < f.layout.count) (hmem : p - s ∈ f.layout.box j) :
    (filled l f homogeneous).get i p n = f.get j (p - s) n := by
  rw [get_filled h]
  by_cases hp : p ∈ f.layout.box i
  · obtain ⟨hzero, hbox⟩ := Layout.image_of_mem hin hdisj hs h.1 hj hp hmem
    rw [if_pos hp, hzero, hbox, Point.sub_zero]
  · have hlast : Halo.lastProvider f.layout (Halo.pairs f.layout l.geometry.periods) i p
        = some (s, j) := Halo.lastProvider_eq_some hin hdisj hp hs hj hmem
    rw [if_neg hp, hlast]

/-- A filled field holds the boundary values at every point that no image of a box covers. -/
theorem get_filled_of_exposed (h : f.Stores i p n)
    (hexposed : f.layout.Exposed l.geometry.periods p) :
    (filled l f homogeneous).get i p n
      = boundaryValue (if homogeneous then none else l.boundary?) i p n := by
  have hghost : p ∉ f.layout.box i := hexposed.not_mem h.1
  rw [get_filled h, if_neg hghost, (Halo.lastProvider_eq_none_iff hghost).2 hexposed]

/-- Filling keeps valid points. -/
lemma filled_agrees (f : MeshField K) : (filled l f homogeneous).Agrees f := by
  refine ⟨rfl, fun i p n hp => ?_⟩
  by_cases h : f.Stores i p n
  · rw [get_filled h]
    exact if_pos hp
  · rw [MeshField.get_of_not_stores h]
    exact MeshField.get_of_not_stores (f := filled l f homogeneous) h

/-- **The filled field depends on valid points only.** -/
theorem filled_congr (h : f.Agrees g) : filled l f homogeneous = filled l g homogeneous := by
  refine MeshField.ext_get h.shape fun i p n hst => ?_
  have hf : f.Stores i p n := hst
  have hg : g.Stores i p n := (MeshField.stores_iff_of_shape h.shape).1 hf
  exact get_filled_congr rfl h.layout.symm hf hg (fun _ _ j _ hcell => h.valid j _ n hcell)
    fun _ => rfl

/-- The image of a field is written at the valid points of the components that both fields have. -/
lemma get_applyFilled {o : FiniteVolume K} {out : MeshField K} (hi : i < out.layout.count)
    (hp : p ∈ out.layout.box i) (hn : n < min out.ncomp f.ncomp) :
    (o.applyFilled l f out).get i p n = o.image l i (fun q => f.get i q n) p := by
  have hst : out.Stores i p n := MeshField.stores_of_mem hi hp (by omega)
  have hw : out.Window 0 0 (min out.ncomp f.ncomp) i p n :=
    MeshField.window_zero_iff.2 ⟨hp, by omega, by omega⟩
  rw [applyFilled, MeshField.get_update, if_pos hst, if_pos hw]

/-- The diagonal is written at the valid points of component zero. -/
lemma get_writeDiagonal {o : FiniteVolume K} {out : MeshField K} (hi : i < out.layout.count)
    (hp : p ∈ out.layout.box i) (hn : 0 < out.ncomp) :
    (o.writeDiagonal l out).get i p 0 = o.diagonalAt l i p := by
  have hst : out.Stores i p 0 := MeshField.stores_of_mem hi hp hn
  have hw : out.Window 0 0 1 i p 0 := MeshField.window_zero_iff.2 ⟨hp, le_rfl, Nat.one_pos⟩
  rw [writeDiagonal, MeshField.get_update, if_pos hst, if_pos hw]

/-- A filled field is its own filling. -/
lemma filled_filled (f : MeshField K) :
    filled l (filled l f homogeneous) homogeneous = filled l f homogeneous :=
  filled_congr (filled_agrees f)

end FiniteVolume

end MeshDiffusion
