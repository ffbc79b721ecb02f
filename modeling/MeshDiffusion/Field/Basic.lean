import MeshDiffusion.Field.Block
import MeshDiffusion.Index.Layout

/-!
Fields on a layout.

A `MeshField` holds one block for each box of its layout. The block covers the box and a halo of
`ghosts` points around it: the points of the box are valid, the others are ghosts.
`MeshField.get f i p n` reads component `n` at point `p` as stored for box `i`; the same point
may be stored for several boxes.

* `MeshField.ofFn` and `MeshField.update` build a field and recompute one, value by value;
  `MeshField.get_ofFn` and `MeshField.get_update` read the results;
* `MeshField.Stores` says that a value is stored at a place;
* `MeshField.const`, `MeshField.set`, `MeshField.sample?`: constant fields, a single write, and
  the value at a point of the level;
* `MeshField.shape` is what a field has besides its values; two fields of one shape with the same
  stored values are equal (`MeshField.ext_get`).
-/

namespace MeshDiffusion

/-- Values with `ncomp` components on the boxes of a layout, each with a halo. -/
structure MeshField (K : Type) where
  layout : Layout
  owners : Ownership
  ncomp : Nat
  ghosts : Nat
  blocks : Array (Block K)
  size_blocks : blocks.size = layout.count
  region_blocks : ∀ i (h : i < blocks.size), blocks[i].region = (layout.box i).grow ghosts
  ncomp_blocks : ∀ i (h : i < blocks.size), blocks[i].ncomp = ncomp

namespace MeshField

variable {K : Type}

/-- The valid box at a place and its halo. -/
def region (f : MeshField K) (i : Nat) : Box := (f.layout.box i).grow f.ghosts

/-- The value of a component at a point, as stored for a box. -/
@[inline] def get [Inhabited K] (f : MeshField K) (i : Nat) (p : Point) (n : Nat) : K :=
  match f.blocks[i]? with
  | some b => b.get p n
  | none => default

/-- The field stores a value for the component of the point in the box. -/
def Stores (f : MeshField K) (i : Nat) (p : Point) (n : Nat) : Prop :=
  i < f.layout.count ∧ p ∈ f.region i ∧ n < f.ncomp

instance (f : MeshField K) (i : Nat) (p : Point) (n : Nat) : Decidable (f.Stores i p n) :=
  inferInstanceAs (Decidable (_ ∧ _ ∧ _))

/-- The field with a given value for each component of each point of each box. -/
@[specialize] def ofFn (layout : Layout) (owners : Ownership) (ncomp ghosts : Nat)
    (v : Nat → Point → Nat → K) : MeshField K where
  layout := layout
  owners := owners
  ncomp := ncomp
  ghosts := ghosts
  blocks := layout.boxes.mapIdx fun i b => Block.ofFn (b.grow ghosts) ncomp (v i)
  size_blocks := by simp [Layout.count]
  region_blocks := fun i h => by
    rw [Array.size_mapIdx] at h
    simp [Layout.getElem_boxes]
  ncomp_blocks := fun i h => by simp

/-- Recomputes every value from its place and its old value. -/
@[specialize] def update [Inhabited K] (f : MeshField K) (g : Nat → Point → Nat → K → K) :
    MeshField K :=
  { f with
    blocks := f.blocks.mapIdx fun i b => b.update (g i)
    size_blocks := by simp [f.size_blocks]
    region_blocks := fun i h => by
      rw [Array.size_mapIdx] at h
      simp [f.region_blocks i h]
    ncomp_blocks := fun i h => by
      rw [Array.size_mapIdx] at h
      simp [f.ncomp_blocks i h] }

/-- The field with one value everywhere. -/
def const (layout : Layout) (owners : Ownership) (ncomp ghosts : Nat) (v : K) : MeshField K where
  layout := layout
  owners := owners
  ncomp := ncomp
  ghosts := ghosts
  blocks := layout.boxes.map fun b => Block.const (b.grow ghosts) ncomp v
  size_blocks := by simp [Layout.count]
  region_blocks := fun i h => by
    rw [Array.size_map] at h
    simp [Layout.getElem_boxes]
  ncomp_blocks := fun i h => by simp

instance : Inhabited (MeshField K) := ⟨⟨default, default, 0, 0, #[], rfl, by simp, by simp⟩⟩

/-- Replaces every value, ghosts included. -/
def fill (f : MeshField K) (v : K) : MeshField K := const f.layout f.owners f.ncomp f.ghosts v

/-- Replaces one stored value. -/
def set (f : MeshField K) (i : Nat) (p : Point) (n : Nat) (v : K) : MeshField K :=
  { f with
    blocks := f.blocks.modify i fun b => b.set p n v
    size_blocks := by simp [f.size_blocks]
    region_blocks := fun j h => by
      rw [Array.size_modify] at h
      rw [Array.getElem_modify]
      split <;> simp [f.region_blocks j h]
    ncomp_blocks := fun j h => by
      rw [Array.size_modify] at h
      rw [Array.getElem_modify]
      split <;> simp [f.ncomp_blocks j h] }

/-- The value at a point of the level, read where the first box holds it. -/
def sample? [Inhabited K] (f : MeshField K) (p : Point) (n : Nat) : Option K :=
  (f.layout.find? p).map fun i => f.get i p n

/-- Two fields with the same boxes, owners, number of components and halo, and equal values. -/
def beq [BEq K] (f g : MeshField K) : Bool :=
  f.layout == g.layout && f.owners == g.owners && f.ncomp == g.ncomp && f.ghosts == g.ghosts &&
    f.blocks.size == g.blocks.size && (f.blocks.zip g.blocks).all fun (b, c) => b.beq c

/-! ### Reading -/

theorem get_of_not_stores [Inhabited K] {f : MeshField K} {i : Nat} {p : Point} {n : Nat}
    (h : ¬f.Stores i p n) : f.get i p n = default := by
  rw [get]
  split
  · next b hb =>
    obtain ⟨hi, rfl⟩ := Array.getElem?_eq_some_iff.1 hb
    refine Block.get_outside fun ⟨hp, hn⟩ => h ⟨f.size_blocks ▸ hi, ?_, ?_⟩
    · rwa [f.region_blocks i hi] at hp
    · rwa [f.ncomp_blocks i hi] at hn
  · rfl

/-- A field built from a function reads as that function. -/
theorem get_ofFn [Inhabited K] (l : Layout) (o : Ownership) (m g : Nat)
    (v : Nat → Point → Nat → K) (i : Nat) (p : Point) (n : Nat) :
    (ofFn l o m g v).get i p n = if (ofFn l o m g v).Stores i p n then v i p n else default := by
  split
  · next h =>
    obtain ⟨hi, hp, hn⟩ := h
    have hb : (ofFn l o m g v).blocks[i]? = some (Block.ofFn ((l.box i).grow g) m (v i)) := by
      have : i < l.boxes.size := hi
      simp [ofFn, this, Layout.getElem_boxes]
    rw [get, hb]
    exact (Block.get_ofFn ..).trans (if_pos ⟨hp, hn⟩)
  · next h => exact get_of_not_stores h

/-- Each value of an updated field is computed from its own old value. -/
theorem get_update [Inhabited K] (f : MeshField K) (g : Nat → Point → Nat → K → K) (i : Nat)
    (p : Point) (n : Nat) :
    (f.update g).get i p n = if f.Stores i p n then g i p n (f.get i p n) else default := by
  split
  · next h =>
    obtain ⟨hi, hp, hn⟩ := h
    have hi' : i < f.blocks.size := f.size_blocks ▸ hi
    have hb : (f.update g).blocks[i]? = some (f.blocks[i].update (g i)) := by simp [update, hi']
    have hb' : f.blocks[i]? = some f.blocks[i] := by simp
    rw [get, hb, get, hb']
    refine (Block.get_update ..).trans (if_pos ⟨?_, ?_⟩)
    · rw [f.region_blocks i hi']
      exact hp
    · rw [f.ncomp_blocks i hi']
      exact hn
  · next h => exact get_of_not_stores h

/-- A valid point is stored. -/
theorem stores_of_mem {f : MeshField K} {i : Nat} {p : Point} {n : Nat} (hi : i < f.layout.count)
    (hp : p ∈ f.layout.box i) (hn : n < f.ncomp) : f.Stores i p n := by
  exact ⟨hi, Box.mem_grow_of_mem _ hp, hn⟩

/-! ### Shapes -/

/-- What a field has besides its values. -/
structure Shape where
  layout : Layout
  owners : Ownership
  ncomp : Nat
  ghosts : Nat
deriving DecidableEq

/-- The boxes, owners, number of components and halo of a field. -/
def shape (f : MeshField K) : Shape := ⟨f.layout, f.owners, f.ncomp, f.ghosts⟩

@[simp] theorem shape_ofFn (l : Layout) (o : Ownership) (m g : Nat) (v : Nat → Point → Nat → K) :
    (ofFn l o m g v).shape = ⟨l, o, m, g⟩ := rfl

@[simp] theorem shape_update [Inhabited K] (f : MeshField K) (g : Nat → Point → Nat → K → K) :
    (f.update g).shape = f.shape := rfl

@[simp] theorem shape_const (l : Layout) (o : Ownership) (m g : Nat) (v : K) :
    (const l o m g v).shape = ⟨l, o, m, g⟩ := rfl

theorem stores_iff_of_shape {f g : MeshField K} (h : f.shape = g.shape) {i : Nat} {p : Point}
    {n : Nat} : f.Stores i p n ↔ g.Stores i p n := by
  have hl : f.layout = g.layout := congrArg Shape.layout h
  have hn : f.ncomp = g.ncomp := congrArg Shape.ncomp h
  have hg : f.ghosts = g.ghosts := congrArg Shape.ghosts h
  rw [Stores, Stores, region, region, hl, hn, hg]

theorem stores_iff_shape {f : MeshField K} {s : Shape} (h : f.shape = s) {i : Nat} {p : Point}
    {n : Nat} :
    f.Stores i p n ↔ i < s.layout.count ∧ p ∈ (s.layout.box i).grow s.ghosts ∧ n < s.ncomp := by
  subst h
  rfl

/-- A valid point of a shape is a valid point of every field of the shape, and stored. -/
theorem stores_of_shape {f : MeshField K} {s : Shape} (h : f.shape = s) {i : Nat} {p : Point}
    {n : Nat} (hi : i < s.layout.count) (hp : p ∈ s.layout.box i) (hn : n < s.ncomp) :
    f.Stores i p n ∧ p ∈ f.layout.box i := by
  subst h
  exact ⟨stores_of_mem hi hp hn, hp⟩

/-- A field is what its shape and its stored values make it. -/
theorem ext_get [Inhabited K] {f g : MeshField K} (hs : f.shape = g.shape)
    (h : ∀ i p n, f.Stores i p n → f.get i p n = g.get i p n) : f = g := by
  have hsize : f.blocks.size = g.blocks.size := by
    rw [f.size_blocks, g.size_blocks]
    exact congrArg (·.layout.count) hs
  have hblocks : f.blocks = g.blocks := by
    refine Array.ext hsize fun i hi hi' => ?_
    have hr : f.blocks[i].region = g.blocks[i].region := by
      rw [f.region_blocks i hi, g.region_blocks i hi']
      exact congrArg (fun s => (s.layout.box i).grow s.ghosts) hs
    have hn : f.blocks[i].ncomp = g.blocks[i].ncomp := by
      rw [f.ncomp_blocks i hi, g.ncomp_blocks i hi']
      exact congrArg Shape.ncomp hs
    refine Block.ext_get hr hn fun p hp n hlt => ?_
    have hstores : f.Stores i p n := by
      rw [f.region_blocks i hi] at hp
      exact ⟨f.size_blocks ▸ hi, hp, f.ncomp_blocks i hi ▸ hlt⟩
    simpa [get, hi, hi'] using h i p n hstores
  obtain ⟨l, o, m, k, b, h₁, h₂, h₃⟩ := f
  obtain ⟨l', o', m', k', b', h₁', h₂', h₃'⟩ := g
  simp only [shape, Shape.mk.injEq] at hs hblocks
  obtain ⟨rfl, rfl, rfl, rfl⟩ := hs
  subst hblocks
  rfl

end MeshField

end MeshDiffusion
