import Mathlib.Tactic
import MeshDiffusion.Proofs.Access.Field
import MeshDiffusion.Proofs.Arith.Exact

/-!
Pointwise arithmetic writes its window and nothing else.

The operations of a field on a window differ in the rule for one value only. What they have in
common is stated once (`MeshField.Rewritten`): the rule makes every value of the window from the
value that was stored there, every other place keeps its value, ghosts beyond the window included,
and the field keeps its shape. The places of the window may be rewritten in any order, one at a
time, since no rule looks at another place of the field.

* `MeshField.rewritten_update`: an update inside a window that the field stores rewrites it;
* `MeshField.rewritten_combine`: so does a combination with another field on the same boxes;
* `MeshField.pointwise_exact`: the rules of the five operations.
-/

namespace MeshDiffusion

namespace MeshField

variable {K : Type} {f g dst src : MeshField K} {layout : Layout}
  {layers comp count srcComp dstComp : ℕ} {rule : ℕ → Point → ℕ → K → Option K}

/-- The field `g` is the field `f` with a window rewritten: `count` components from `comp` on, at
the valid points and `layers` layers around them. The rule gives the new value of a component of the
window, counted from its first one, from the old value; it has no result where it would read a place
that does not exist. Going through the places of the window in any order, one value at a time, leads
from `f` to `g`. -/
structure Rewritten (f g : MeshField K) (layers comp count : ℕ)
    (rule : ℕ → Point → ℕ → K → Option K) : Prop where
  shape : g.shape = f.shape
  regions : g.blocks.map (·.region) = f.blocks.map (·.region)
  inside : ∀ i < f.layout.count, ∀ p ∈ (f.layout.box i).grow layers, ∀ m < count,
    ∃ old new, Checked.read f i p (comp + m) = some old ∧ rule i p m old = some new ∧
      Checked.read g i p (comp + m) = some new
  outside : ∀ i p n, ¬f.Window layers comp count i p n →
    Checked.read g i p n = Checked.read f i p n
  anyOrder : ∀ places, places.Perm (Checked.window f.layout layers comp count) →
    Checked.sweep f places (fun i p n => rule i p (n - comp)) = some g

/-- What the rule makes of an old value is read in the window afterwards. -/
lemma Rewritten.read_eq (h : f.Rewritten g layers comp count rule) (i : ℕ) (p : Point) (m : ℕ)
    {old new : K} (hi : i < f.layout.count) (hp : p ∈ (f.layout.box i).grow layers)
    (hm : m < count) (hold : Checked.read f i p (comp + m) = some old)
    (hnew : rule i p m old = some new) :
    Checked.read g i p (comp + m) = some new := by
  obtain ⟨old', new', hold', hnew', hread⟩ := h.inside i hi p hp m hm
  obtain rfl : old' = old := Option.some.inj (hold'.symm.trans hold)
  obtain rfl : new' = new := Option.some.inj (hnew'.symm.trans hnew)
  exact hread

/-- The shape of a field decides the regions of its blocks. -/
lemma regions_of_shape (h : g.shape = f.shape) :
    g.blocks.map (·.region) = f.blocks.map (·.region) := by
  have hsize : g.blocks.size = f.blocks.size := by
    rw [g.size_blocks, f.size_blocks]
    exact congrArg (·.layout.count) h
  refine Array.ext (by simpa using hsize) fun i hi hi' => ?_
  rw [Array.size_map] at hi hi'
  rw [Array.getElem_map, Array.getElem_map, g.region_blocks i hi, f.region_blocks i hi']
  exact congrArg (fun s => (s.layout.box i).grow s.ghosts) h

/-- A reading of an updated field is computed from the old reading, if there is one. -/
lemma read_update [Inhabited K] (f : MeshField K) (value : ℕ → Point → ℕ → K → K) (i : ℕ)
    (p : Point) (n : ℕ) :
    Checked.read (f.update value) i p n = (Checked.read f i p n).map (value i p n) := by
  have hiff : (f.update value).Stores i p n ↔ f.Stores i p n := stores_iff_of_shape rfl
  by_cases hst : f.Stores i p n
  · rw [Checked.read_of_stores (hiff.2 hst), Checked.read_of_stores hst, get_update, if_pos hst,
      Option.map_some]
  · have hnone {g : MeshField K} (hg : ¬g.Stores i p n) : Checked.read g i p n = none := by
      rwa [← Checked.isSome_read_iff, Option.not_isSome_iff_eq_none] at hg
    rw [hnone hst, hnone (mt hiff.1 hst), Option.map_none]

/-- An update inside a window that the field stores rewrites the window. -/
lemma rewritten_update [Inhabited K] {value : ℕ → Point → ℕ → K → K}
    (hlayers : layers ≤ f.ghosts) (hcount : comp + count ≤ f.ncomp)
    (hrule : ∀ i < f.layout.count, ∀ p ∈ (f.layout.box i).grow layers, ∀ m < count, ∀ old,
      rule i p m old = some (value i p (comp + m) old)) :
    f.Rewritten (f.update fun i p n old =>
      if f.Window layers comp count i p n then value i p n old else old) layers comp count rule where
  shape := rfl
  regions := regions_of_shape rfl
  inside i hi p hp m hm := by
    have hfits : f.Fits f.layout (comp + count) layers := ⟨rfl, hcount, hlayers⟩
    have hst : f.Stores i p (comp + m) := hfits.stores hi hp (by omega)
    have hw : f.Window layers comp count i p (comp + m) := ⟨hp, by omega, by omega⟩
    refine ⟨_, _, Checked.read_of_stores hst, hrule i hi p hp m hm _, ?_⟩
    rw [read_update, Checked.read_of_stores hst, Option.map_some, if_pos hw]
  outside i p n hw := by
    simp only [read_update, if_neg hw, Option.map_id']
  anyOrder places hperm := by
    refine Checked.sweep_perm hperm hlayers hcount fun i p n hst hw => ?_
    obtain ⟨hp, hlow, hhigh⟩ := hw
    rw [hrule i hst.1 p hp (n - comp) (by omega), Nat.add_sub_of_le hlow]

/-- A combination with another field on the same boxes rewrites its window. -/
lemma rewritten_combine [Inhabited K] (op : K → K → K)
    (hdst : dst.Fits layout (dstComp + count) layers)
    (hsrc : src.Fits layout (srcComp + count) layers) :
    dst.Rewritten (dst.combine op src srcComp dstComp count layers) layers dstComp count
      fun i p m old => (Checked.read src i p (srcComp + m)).map (op old) := by
  obtain rfl := hdst.layout_eq
  refine rewritten_update hdst.ghosts_le hdst.ncomp_le fun i hi p hp m hm old => ?_
  rw [Checked.read_of_stores (hsrc.stores hi hp (by omega)), Nat.add_sub_cancel_left,
    Option.map_some]

/-- **Arithmetic of fields is pointwise and leaves all else as it was.** With another field on the
same boxes, windows of components inside both fields and layers inside both halos, a copy takes the
value of the other field, a multiplication the product of the old value and the other one, and an
addition, over the components that both have, the sum of the old value and a multiple of the other
one. Scaling takes the product of a number and the old value of every component and an assignment a
constant, both in no more layers than the halo has; the assignment does in each block what filling
does there. Every other value stays, boxes, owners, regions, components and halo stay, no access
leaves the arrays, and the places can be taken in any order. -/
theorem pointwise_exact [Scalar K] (f : MeshField K) :
    (∀ (src : MeshField K) (layers : ℕ), src.layout = f.layout → layers ≤ f.ghosts →
      layers ≤ src.ghosts →
      (∀ srcComp dstComp count, srcComp + count ≤ src.ncomp → dstComp + count ≤ f.ncomp →
        f.Rewritten (f.copy src srcComp dstComp count layers) layers dstComp count
          (fun i p m _ => Checked.read src i p (srcComp + m)) ∧
        f.Rewritten (f.mulFrom src srcComp dstComp count layers) layers dstComp count
          fun i p m d => (Checked.read src i p (srcComp + m)).map fun s => d * s) ∧
      ∀ a, f.Rewritten (f.axpy a src layers) layers 0 (min f.ncomp src.ncomp)
        fun i p m d => (Checked.read src i p m).map fun s => d + a * s) ∧
    (∀ s layers, f.Rewritten (f.scale s layers) (min layers f.ghosts) 0 f.ncomp
      fun _ _ _ d => some (s * d)) ∧
    ∀ v comp count layers, comp + count ≤ f.ncomp →
      f.Rewritten (f.assign v comp count layers) (min layers f.ghosts) comp count
        (fun _ _ _ _ => some v) ∧
      (f.assign v comp count layers).blocks = f.blocks.mapIdx fun i b =>
        b.fillOn v ((f.layout.box i).grow (min layers f.ghosts : ℕ)) comp count := by
  refine ⟨fun src layers hlayout hghosts hghosts' => ⟨fun srcComp dstComp count hsrc hdst => ?_,
    fun a => ?_⟩, fun s layers => ?_, fun v comp count layers hcount => ⟨?_, rfl⟩⟩
  · have hfits : f.Fits f.layout (dstComp + count) layers := ⟨rfl, hdst, hghosts⟩
    have hfits' : src.Fits f.layout (srcComp + count) layers := ⟨hlayout, hsrc, hghosts'⟩
    refine ⟨?_, rewritten_combine _ hfits hfits'⟩
    simpa [copy] using rewritten_combine (fun _ s => s) hfits hfits'
  · have hfits : f.Fits f.layout (0 + min f.ncomp src.ncomp) layers := ⟨rfl, by omega, hghosts⟩
    have hfits' : src.Fits f.layout (0 + min f.ncomp src.ncomp) layers :=
      ⟨hlayout, by omega, hghosts'⟩
    simpa [axpy] using rewritten_combine (fun d s => d + a * s) hfits hfits'
  · exact rewritten_update (min_le_right ..) (by omega) fun _ _ _ _ _ _ _ => rfl
  · exact rewritten_update (min_le_right ..) hcount fun _ _ _ _ _ _ _ => rfl

/-- Two cells in a row, a box each. -/
private def pair : Layout :=
  .ofList [⟨⟨-1, 0, 0⟩, ⟨-1, 0, 0⟩, .cell⟩, ⟨⟨0, 0, 0⟩, ⟨0, 0, 0⟩, .cell⟩]

/-- Two components with two layers of ghosts; hundreds tell the box, tens the component and the rest
the place along the row. -/
private def numbers : MeshField ℚ :=
  .ofFn pair (.single 2) 2 2 fun i p n => 100 * i + 10 * n + p.x

/-- Three constant components, two, three and four, with one layer of ghosts. -/
private def factors : MeshField ℚ := .ofFn pair (.single 2) 3 1 fun _ _ n => n + 2

/-- The second component is multiplied by four in the first layer of ghosts; in the second layer it
stays, and so does the first component. One half of the first components is added on the other box.
Seven layers are cut to the two of the halo, and in no layer a constant goes to the cells only. -/
theorem pointwise_exact_pair :
    factors.layout = numbers.layout ∧ 1 ≤ numbers.ghosts ∧ 1 ≤ factors.ghosts ∧
    2 + 1 ≤ factors.ncomp ∧ 1 + 1 ≤ numbers.ncomp ∧
    Checked.read (numbers.mulFrom factors 2 1 1 1) 0 ⟨-2, 0, 0⟩ 1 = some 32 ∧
    Checked.read (numbers.mulFrom factors 2 1 1 1) 0 ⟨-3, 0, 0⟩ 1 = some 7 ∧
    Checked.read (numbers.mulFrom factors 2 1 1 1) 0 ⟨-2, 0, 0⟩ 0 = some (-2) ∧
    Checked.sweep numbers (Checked.window pair 1 1 1).reverse
      (fun i p n d => (Checked.read factors i p (2 + (n - 1))).map fun s => d * s)
        = some (numbers.mulFrom factors 2 1 1 1) ∧
    Checked.read (numbers.axpy (1 / 2) factors 1) 1 ⟨1, 0, 0⟩ 0 = some 102 ∧
    Checked.read (numbers.scale 3 7) 0 ⟨-3, 0, 0⟩ 1 = some 21 ∧
    Checked.read (numbers.assign 5 0 1 0) 0 ⟨-1, 0, 0⟩ 0 = some 5 ∧
    Checked.read (numbers.assign 5 0 1 0) 0 ⟨-2, 0, 0⟩ 0 = some (-2) := by
  obtain ⟨hother, hscale, hassign⟩ := pointwise_exact numbers
  obtain ⟨hwindow, hadd⟩ := hother factors 1 rfl (by decide) (by decide)
  have hmul := (hwindow 2 1 1 (by decide) (by decide)).2
  have hconst := (hassign 5 0 1 0 (by decide)).1
  have hghost : Checked.read numbers 0 ⟨-2, 0, 0⟩ (1 + 0) = some 8 := by decide +kernel
  have hnext : Checked.read numbers 1 ⟨1, 0, 0⟩ (0 + 0) = some 101 := by decide +kernel
  have hfar : Checked.read numbers 0 ⟨-3, 0, 0⟩ (0 + 1) = some 7 := by decide +kernel
  have hcell : Checked.read numbers 0 ⟨-1, 0, 0⟩ (0 + 0) = some (-1) := by decide +kernel
  have hkept : Checked.read numbers 0 ⟨-2, 0, 0⟩ 0 = some (-2) := by decide +kernel
  refine ⟨rfl, by decide, by decide, by decide, by decide, ?_, ?_, ?_, ?_, ?_, ?_, ?_, ?_⟩
  · exact hmul.read_eq 0 ⟨-2, 0, 0⟩ 0 (by decide) (by decide) (by decide) hghost (by decide +kernel)
  · exact (hmul.outside 0 ⟨-3, 0, 0⟩ 1 (by decide)).trans hfar
  · exact (hmul.outside 0 ⟨-2, 0, 0⟩ 0 (by decide)).trans hkept
  · exact hmul.anyOrder _ (List.reverse_perm _)
  · exact (hadd (1 / 2)).read_eq 1 ⟨1, 0, 0⟩ 0 (by decide) (by decide) (by decide) hnext
      (by decide +kernel)
  · exact (hscale 3 7).read_eq 0 ⟨-3, 0, 0⟩ 1 (by decide) (by decide) (by decide) hfar
      (by decide +kernel)
  · exact hconst.read_eq 0 ⟨-1, 0, 0⟩ 0 (by decide) (by decide) (by decide) hcell rfl
  · exact (hconst.outside 0 ⟨-2, 0, 0⟩ 0 (by decide)).trans hkept

end MeshField

end MeshDiffusion
