import MeshDiffusion.Arith.Scalar
import MeshDiffusion.Index.Box

/-!
Values on one box.

A `Block` stores `ncomp` values for every point of its region: component after component, and the
points of a component in the order of `Box.points`. `Block.get` reads a value and gives the default
element for a point outside the region or a component that does not exist.

* `Block.ofFn` builds a block from its values; `Block.get_ofFn` reads them back, and a block is
  what its readings make it (`Block.ext_get`);
* `Block.update` recomputes every value from its place and its old value;
* `Block.set`, `Block.fill` and `Block.fillOn` change one value, all values, and the values of a
  window of components on a box;
* `Block.component?` is the list of the values of one component.
-/

namespace MeshDiffusion

/-- Values with `ncomp` components on the points of a box. -/
structure Block (K : Type) where
  region : Box
  ncomp : Nat
  values : Array K
  size_values : values.size = ncomp * region.size

namespace Block

variable {K : Type}

/-- The place of a component of a point in the stored values. -/
@[inline] def index (b : Block K) (p : Point) (n : Nat) : Nat :=
  n * b.region.size + b.region.offset p

/-- The value of a component at a point. -/
@[inline] def get [Inhabited K] (b : Block K) (p : Point) (n : Nat) : K :=
  if p ∈ b.region ∧ n < b.ncomp then b.values.getD (b.index p n) default else default

/-- The block with a given value for each component of each point. -/
@[specialize] def ofFn (region : Box) (ncomp : Nat) (f : Point → Nat → K) : Block K where
  region := region
  ncomp := ncomp
  values :=
    let ps := region.points
    ((List.range ncomp).flatMap fun n => ps.map fun p => f p n).toArray
  size_values := by
    simp [Box.length_flatMap_block (m := region.size)]

/-- The block with one value everywhere. -/
def const (region : Box) (ncomp : Nat) (v : K) : Block K where
  region := region
  ncomp := ncomp
  values := Array.replicate (ncomp * region.size) v
  size_values := by simp

/-- Recomputes every value from its point, its component and its old value. -/
@[specialize] def update [Inhabited K] (b : Block K) (g : Point → Nat → K → K) : Block K :=
  ofFn b.region b.ncomp fun p n => g p n (b.get p n)

/-- Replaces one value. -/
def set (b : Block K) (p : Point) (n : Nat) (v : K) : Block K :=
  if p ∈ b.region ∧ n < b.ncomp then
    { b with
      values := b.values.setIfInBounds (b.index p n) v
      size_values := by simp [b.size_values] }
  else b

/-- Replaces every value. -/
def fill (b : Block K) (v : K) : Block K := const b.region b.ncomp v

/-- Replaces the components from `comp` on, `count` of them, at the points of a box. -/
@[specialize] def fillOn [Inhabited K] (b : Block K) (v : K) (on : Box) (comp count : Nat) :
    Block K :=
  b.update fun p n old => if p ∈ on ∧ comp ≤ n ∧ n < comp + count then v else old

/-- The values of one component in storage order, if the values reach so far. -/
def component? (b : Block K) (n : Nat) : Option (Array K) :=
  if (n + 1) * b.region.size ≤ b.values.size then
    some (b.values.extract (n * b.region.size) ((n + 1) * b.region.size))
  else none

/-- Two blocks with the same region, the same number of components and equal values. -/
def beq [BEq K] (b c : Block K) : Bool :=
  b.region == c.region && b.ncomp == c.ncomp && b.values == c.values

/-! ### Reading -/

theorem index_lt {b : Block K} {p : Point} {n : Nat} (hp : p ∈ b.region) (hn : n < b.ncomp) :
    b.index p n < b.values.size := by
  have h₁ := Box.offset_lt_size hp
  have h₂ := Nat.mul_le_mul_right b.region.size (show n + 1 ≤ b.ncomp from hn)
  rw [b.size_values, index]
  rw [Nat.succ_mul] at h₂
  omega

/-- A reading inside the block is a stored value. -/
theorem getElem?_index [Inhabited K] {b : Block K} {p : Point} {n : Nat} (hp : p ∈ b.region)
    (hn : n < b.ncomp) : b.values[b.index p n]? = some (b.get p n) := by
  rw [get, if_pos ⟨hp, hn⟩, Array.getD_eq_getD_getElem?, Array.getElem?_eq_getElem (index_lt hp hn)]
  rfl

/-- Every place in the stored values belongs to a component of a point. -/
theorem getElem?_eq_get [Inhabited K] {b : Block K} {k : Nat} (hk : k < b.values.size) :
    k / b.region.size < b.ncomp ∧ b.region.pointAt (k % b.region.size) ∈ b.region ∧
      b.values[k]? = some (b.get (b.region.pointAt (k % b.region.size)) (k / b.region.size)) := by
  have hlt : k < b.ncomp * b.region.size := b.size_values ▸ hk
  have hpos : 0 < b.region.size := by
    rcases Nat.eq_zero_or_pos b.region.size with h0 | h0
    · rw [h0, Nat.mul_zero] at hlt
      omega
    · exact h0
  have hn : k / b.region.size < b.ncomp := by rwa [Nat.div_lt_iff_lt_mul hpos]
  have hp := Box.pointAt_mem (Nat.mod_lt k hpos)
  have hindex : b.index (b.region.pointAt (k % b.region.size)) (k / b.region.size) = k := by
    rw [index, Box.offset_pointAt, Nat.div_add_mod']
  have key := getElem?_index hp hn
  rw [hindex] at key
  exact ⟨hn, hp, key⟩

/-- A block is what its readings make it. -/
theorem ext_get [Inhabited K] {b c : Block K} (hr : b.region = c.region) (hn : b.ncomp = c.ncomp)
    (h : ∀ p ∈ b.region, ∀ n < b.ncomp, b.get p n = c.get p n) : b = c := by
  have hsize : b.values.size = c.values.size := by rw [b.size_values, c.size_values, hr, hn]
  have hvalues : b.values = c.values := by
    refine Array.ext hsize fun k hk hk' => ?_
    obtain ⟨hlt, hp, hb⟩ := getElem?_eq_get hk
    obtain ⟨-, -, hc⟩ := getElem?_eq_get hk'
    rw [← hr, ← h _ hp _ hlt, ← hb, Array.getElem?_eq_getElem hk,
      Array.getElem?_eq_getElem hk', Option.some.injEq] at hc
    exact hc.symm
  obtain ⟨r, m, v, hv⟩ := b
  obtain ⟨r', m', v', hv'⟩ := c
  simp only at hr hn hvalues
  subst hr hn hvalues
  rfl

theorem get_outside [Inhabited K] {b : Block K} {p : Point} {n : Nat}
    (h : ¬(p ∈ b.region ∧ n < b.ncomp)) : b.get p n = default := if_neg h

@[simp] theorem region_ofFn (r : Box) (m : Nat) (f : Point → Nat → K) :
    (ofFn r m f).region = r := rfl

@[simp] theorem ncomp_ofFn (r : Box) (m : Nat) (f : Point → Nat → K) :
    (ofFn r m f).ncomp = m := rfl

/-- A block built from a function reads as that function. -/
theorem get_ofFn [Inhabited K] (r : Box) (m : Nat) (f : Point → Nat → K) (p : Point) (n : Nat) :
    (ofFn r m f).get p n = if p ∈ r ∧ n < m then f p n else default := by
  split
  · next h =>
    have hlen : ∀ c ∈ List.range m, ((r.points).map fun q => f q c).length = r.size := by simp
    have key : (ofFn r m f).values[n * r.size + r.offset p]? = some (f p n) := by
      simp only [ofFn, List.getElem?_toArray]
      rw [Box.getElem?_flatMap_block hlen (List.getElem?_range h.2) (Box.offset_lt_size h.1),
        List.getElem?_map, Box.points_getElem?_offset h.1]
      rfl
    have hr : p ∈ (ofFn r m f).region ∧ n < (ofFn r m f).ncomp := h
    have hi : (ofFn r m f).index p n = n * r.size + r.offset p := rfl
    rw [get, if_pos hr, hi, Array.getD_eq_getD_getElem?, key]
    rfl
  · next h => exact get_outside h

@[simp] theorem region_update [Inhabited K] (b : Block K) (g : Point → Nat → K → K) :
    (b.update g).region = b.region := rfl

@[simp] theorem ncomp_update [Inhabited K] (b : Block K) (g : Point → Nat → K → K) :
    (b.update g).ncomp = b.ncomp := rfl

/-- Each value of an updated block is computed from its own old value. -/
theorem get_update [Inhabited K] (b : Block K) (g : Point → Nat → K → K) (p : Point) (n : Nat) :
    (b.update g).get p n = if p ∈ b.region ∧ n < b.ncomp then g p n (b.get p n) else default :=
  get_ofFn ..

@[simp] theorem region_set (b : Block K) (p : Point) (n : Nat) (v : K) :
    (b.set p n v).region = b.region := by
  rw [set]
  split <;> rfl

@[simp] theorem ncomp_set (b : Block K) (p : Point) (n : Nat) (v : K) :
    (b.set p n v).ncomp = b.ncomp := by
  rw [set]
  split <;> rfl

@[simp] theorem region_const (r : Box) (m : Nat) (v : K) : (const r m v).region = r := rfl

@[simp] theorem ncomp_const (r : Box) (m : Nat) (v : K) : (const r m v).ncomp = m := rfl

end Block

end MeshDiffusion
