import Mathlib.Tactic
import MeshDiffusion.Field.Reduction
import MeshDiffusion.Proofs.Access.Places
import MeshDiffusion.Proofs.Field.Exchange

/-!
Access of the operations on whole fields.

Each operation on fields is repeated here with every access checked. It has a result, and the result
of the operation, whenever its fields fit (`MeshField.Fits`): they live on one layout, with the
components and the layers of ghosts that the operation goes over.

* `Checked.combine_eq`, `Checked.copy_eq`, `Checked.mulFrom_eq`, `Checked.axpy_eq`,
  `Checked.scale_eq`: pointwise arithmetic;
* `Checked.dot_eq` and `Checked.normAll_eq`: reductions over the valid points;
* `Checked.exchange_eq`: the exchange of halos reads valid points and writes ghosts, so it stays
  inside for every field.
-/

namespace MeshDiffusion

namespace MeshField

variable {K : Type} {f g : MeshField K} {layout : Layout} {m k : ℕ}

/-- The field lives on the boxes of a layout, with at least `m` components and `k` layers of
ghosts. -/
structure Fits (f : MeshField K) (layout : Layout) (m k : ℕ) : Prop where
  layout_eq : f.layout = layout
  ncomp_le : m ≤ f.ncomp
  ghosts_le : k ≤ f.ghosts

lemma fits_of_shape {owners : Ownership} {m' k' : ℕ} (h : f.shape = ⟨layout, owners, m', k'⟩)
    (hm : m ≤ m') (hk : k ≤ k') : f.Fits layout m k where
  layout_eq := congrArg Shape.layout h
  ncomp_le := hm.trans_eq (congrArg Shape.ncomp h).symm
  ghosts_le := hk.trans_eq (congrArg Shape.ghosts h).symm

/-- A field fits by its shape. -/
lemma Fits.congr (h : f.Fits layout m k) (hs : g.shape = f.shape) : g.Fits layout m k :=
  fits_of_shape (hs.trans (by rw [shape, h.layout_eq])) h.ncomp_le h.ghosts_le

lemma Fits.mono (h : f.Fits layout m k) {m' k' : ℕ} (hm : m' ≤ m) (hk : k' ≤ k) :
    f.Fits layout m' k' :=
  ⟨h.layout_eq, hm.trans h.ncomp_le, hk.trans h.ghosts_le⟩

/-- A field fits with all its components. -/
lemma Fits.all (h : f.Fits layout m k) : f.Fits layout f.ncomp k :=
  ⟨h.layout_eq, le_rfl, h.ghosts_le⟩

/-- A field that fits stores its components at all points of its layers. -/
lemma Fits.stores (h : f.Fits layout m k) {i n : ℕ} {p : Point} (hi : i < layout.count)
    (hp : p ∈ (layout.box i).grow k) (hn : n < m) : f.Stores i p n := by
  obtain ⟨rfl, hm, hk⟩ := h
  refine ⟨hi, Box.mem_grow.2 fun a => ?_, hn.trans_le hm⟩
  have := Box.mem_grow.1 hp a
  omega

end MeshField

namespace Checked

/-! ### Arithmetic -/

section Arithmetic

/-- Combines a window of one field with the values of another one. -/
def combine {K : Type} (op : K → K → K) (dst src : MeshField K)
    (srcComp dstComp count layers : ℕ) : Option (MeshField K) :=
  sweep dst (window dst.layout layers dstComp count) fun i p n old => do
    let s ← read src i p (srcComp + (n - dstComp))
    return op old s

/-- Copies components of another field. -/
def copy {K : Type} (dst src : MeshField K) (srcComp dstComp count layers : ℕ) :
    Option (MeshField K) :=
  combine (fun _ s => s) dst src srcComp dstComp count layers

variable {K : Type} [Scalar K]

/-- Multiplies components by those of another field. -/
def mulFrom (dst src : MeshField K) (srcComp dstComp count layers : ℕ) : Option (MeshField K) :=
  combine (fun d s => d * s) dst src srcComp dstComp count layers

/-- Adds `a` times the common components of another field. -/
def axpy (y : MeshField K) (a : K) (x : MeshField K) (layers : ℕ) : Option (MeshField K) :=
  combine (fun d s => d + a * s) y x 0 0 (min y.ncomp x.ncomp) layers

/-- Multiplies every component by a number. -/
def scale (f : MeshField K) (s : K) (layers : ℕ) : Option (MeshField K) :=
  sweep f (window f.layout (min layers f.ghosts) 0 f.ncomp) fun _ _ _ old => some (s * old)

variable {dst src x y f : MeshField K} {layout : Layout} {srcComp dstComp count layers : ℕ}

omit [Scalar K] in
/-- A sweep over a window that the field stores, in whatever order, is an update there. -/
lemma sweep_perm [Inhabited K] {places : List Place} {comp : ℕ}
    {rule : ℕ → Point → ℕ → K → Option K} {g : ℕ → Point → ℕ → K → K}
    (hperm : places.Perm (window f.layout layers comp count)) (hlayers : layers ≤ f.ghosts)
    (hcount : comp + count ≤ f.ncomp)
    (hrule : ∀ i p n, f.Stores i p n → f.Window layers comp count i p n →
      rule i p n (f.get i p n) = some (g i p n (f.get i p n))) :
    sweep f places rule
      = some (f.update fun i p n old =>
          if f.Window layers comp count i p n then g i p n old else old) := by
  have hfits : f.Fits f.layout (comp + count) layers := ⟨rfl, hcount, hlayers⟩
  refine sweep_eq (hperm.nodup_iff.2 (nodup_window ..)) (fun i p n => ?_) hrule
  rw [hperm.mem_iff, mem_window]
  constructor
  · rintro ⟨hi, hp, hn⟩
    exact ⟨hfits.stores hi hp hn.2, hp, hn⟩
  · rintro ⟨hst, hp, hn⟩
    exact ⟨hst.1, hp, hn⟩

omit [Scalar K] in
/-- A sweep over a window that the field stores is an update there. -/
lemma sweep_window [Inhabited K] {comp : ℕ} {rule : ℕ → Point → ℕ → K → Option K}
    {g : ℕ → Point → ℕ → K → K} (hlayers : layers ≤ f.ghosts) (hcount : comp + count ≤ f.ncomp)
    (hrule : ∀ i p n, f.Stores i p n → f.Window layers comp count i p n →
      rule i p n (f.get i p n) = some (g i p n (f.get i p n))) :
    sweep f (window f.layout layers comp count) rule
      = some (f.update fun i p n old =>
          if f.Window layers comp count i p n then g i p n old else old) :=
  sweep_perm (.refl _) hlayers hcount hrule

omit [Scalar K] in
/-- A combination stays inside two fields on one layout that have its components and its layers. -/
theorem combine_eq [Inhabited K] (op : K → K → K) (hdst : dst.Fits layout (dstComp + count) layers)
    (hsrc : src.Fits layout (srcComp + count) layers) :
    combine op dst src srcComp dstComp count layers
      = some (dst.combine op src srcComp dstComp count layers) := by
  refine sweep_window hdst.ghosts_le hdst.ncomp_le fun i p n hst hw => ?_
  obtain ⟨hp, hn, hn'⟩ := hw
  rw [hdst.layout_eq] at hp
  have hi : i < layout.count := hdst.layout_eq ▸ hst.1
  rw [read_of_stores (hsrc.stores hi hp (by omega))]
  rfl

omit [Scalar K] in
/-- The first components are copied between fields that have them. -/
lemma copy_eq [Inhabited K] (hdst : dst.Fits layout count layers)
    (hsrc : src.Fits layout count layers) :
    copy dst src 0 0 count layers = some (dst.copy src 0 0 count layers) :=
  combine_eq _ (by rwa [Nat.zero_add]) (by rwa [Nat.zero_add])

/-- One component is multiplied by the first component of another field. -/
lemma mulFrom_eq {n : ℕ} (hdst : dst.Fits layout (n + 1) layers) (hsrc : src.Fits layout 1 layers) :
    mulFrom dst src 0 n 1 layers = some (dst.mulFrom src 0 n 1 layers) :=
  combine_eq _ hdst hsrc

/-- An addition at valid points goes over the common components, so only the boxes have to match. -/
lemma axpy_eq {a : K} (hy : y.layout = layout) (hx : x.layout = layout) :
    axpy y a x 0 = some (y.axpy a x 0) :=
  combine_eq _ ⟨hy, by omega, Nat.zero_le _⟩ ⟨hx, by omega, Nat.zero_le _⟩

lemma scale_eq (f : MeshField K) (s : K) (layers : ℕ) :
    scale f s layers = some (f.scale s layers) :=
  sweep_window (by omega) (by omega) fun _ _ _ _ _ => rfl

end Arithmetic

/-! ### Reductions -/

section Reductions

variable {K : Type} [Scalar K] {f g : MeshField K}

/-- The sum of products of two fields on the same boxes, over their common components. -/
def dot (f g : MeshField K) : Option K := do
  let boxes ← (List.range f.layout.count).mapM fun i => do
    let components ← (List.range (min f.ncomp g.ncomp)).mapM fun n => do
      let terms ← (f.layout.box i).points.mapM fun p => do
        let a ← read f i p n
        let b ← read g i p n
        return a * b
      return Scalar.sum terms
    return Scalar.sum components
  return Scalar.sum boxes

/-- The values of one component at the valid points of all boxes, box by box. -/
def validAll (f : MeshField K) (n : ℕ) : Option (List K) := do
  let boxes ← (List.range f.layout.count).mapM fun i =>
    (f.layout.box i).points.mapM fun p => read f i p n
  return boxes.flatten

/-- The largest absolute value of all components. -/
def normAll (f : MeshField K) : Option K := do
  let norms ← (List.range f.ncomp).mapM fun n => do
    let values ← validAll f n
    return (values.map Scalar.abs).foldl MeshField.enlarge 0.0
  return norms.foldl MeshField.enlarge 0.0

theorem dot_eq (h : g.layout = f.layout) : dot f g = some (f.dot g) := by
  have hterms : ∀ i ∈ List.range f.layout.count, ∀ n ∈ List.range (min f.ncomp g.ncomp),
      ((f.layout.box i).points.mapM fun p => do
        let a ← read f i p n
        let b ← read g i p n
        return a * b)
      = some ((f.layout.box i).points.map fun p => f.get i p n * g.get i p n) := by
    intro i hi n hn
    rw [List.mem_range] at hi hn
    refine mapM_eq_map fun p hp => ?_
    have hf : f.Stores i p n := MeshField.stores_of_mem hi (Box.mem_points.1 hp) (by omega)
    have hg : g.Stores i p n :=
      MeshField.stores_of_mem (h ▸ hi) (h ▸ Box.mem_points.1 hp) (by omega)
    rw [read_of_stores hf, read_of_stores hg]
    rfl
  rw [dot, mapM_eq_map fun i hi => by
    rw [mapM_eq_map fun n hn => by
      rw [hterms i hi n hn]
      rfl]
    rfl]
  rfl

lemma validAll_eq {n : ℕ} (hn : n < f.ncomp) : validAll f n = some (f.validAll n) := by
  have hbox : ∀ i ∈ List.range f.layout.count,
      ((f.layout.box i).points.mapM fun p => read f i p n) = some (f.valid i n) := by
    intro i hi
    refine mapM_eq_map fun p hp => read_of_stores ?_
    exact MeshField.stores_of_mem (List.mem_range.1 hi) (Box.mem_points.1 hp) hn
  rw [validAll, mapM_eq_map hbox]
  rfl

theorem normAll_eq (f : MeshField K) : normAll f = some f.normAll := by
  rw [normAll, mapM_eq_map fun n hn => by
    rw [validAll_eq (List.mem_range.1 hn)]
    rfl]
  rfl

end Reductions

/-! ### Exchange -/

section Exchange

variable {K : Type} {f : MeshField K} {periods : Periods} {i n : ℕ} {p : Point}

/-- The ghosts of a box that a pair of a move and a box provides, each with the place that it is
copied from. -/
def copies (f : MeshField K) (i : ℕ) (sj : Point × ℕ) : List (Place × Place) :=
  if sj.2 = i ∧ sj.1 = Point.zero then []
  else
    let common := ((f.region i).meet ((f.layout.box sj.2).shift sj.1)).points
    (common.filter (· ∉ f.layout.box i) ×ˢ List.range f.ncomp).map fun pn =>
      (((i, pn.1), pn.2), (sj.2, pn.1 - sj.1), pn.2)

/-- What an exchange copies: box by box, then by the pairs of a move and a box. -/
def incoming (f : MeshField K) (periods : Periods) : List (Place × Place) :=
  (List.range f.layout.count).flatMap fun i => (Halo.pairs f.layout periods).flatMap (copies f i)

/-- Writes every ghost point that another box or a periodic image holds as a valid point. All values
are read before the first one is written. -/
def exchange (f : MeshField K) (periods : Periods) : Option (MeshField K) := do
  let values ← (incoming f periods).mapM fun c => do
    let v ← read f c.2.1.1 c.2.1.2 c.2.2
    return (c.1, v)
  scatter f values

lemma mem_copies {sj : Point × ℕ} {c : Place × Place} :
    c ∈ copies f i sj ↔ ∃ p n, c = (((i, p), n), (sj.2, p - sj.1), n) ∧ p ∈ f.region i ∧
      p ∉ f.layout.box i ∧ n < f.ncomp ∧ Halo.Provides f.layout i p sj := by
  rw [copies]
  split_ifs with hself
  · simp [Halo.Provides, hself]
  · simp only [List.mem_map, Prod.exists, List.mem_product, List.mem_filter, Box.mem_points,
      Box.mem_meet, Box.mem_shift, List.mem_range, decide_eq_true_eq, Halo.Provides, hself,
      not_false_eq_true, true_and]
    constructor
    · rintro ⟨p, n, ⟨⟨⟨hp, hmem⟩, hghost⟩, hn⟩, rfl⟩
      exact ⟨p, n, rfl, hp, hghost, hn, hmem⟩
    · rintro ⟨p, n, rfl, hp, hghost, hn, hmem⟩
      exact ⟨p, n, ⟨⟨⟨hp, hmem⟩, hghost⟩, hn⟩, rfl⟩

/-- What is copied is stored, and so is what it is copied to. -/
lemma stores_of_mem_incoming {c : Place × Place} (h : c ∈ incoming f periods) :
    f.Stores c.1.1.1 c.1.1.2 c.1.2 ∧ f.Stores c.2.1.1 c.2.1.2 c.2.2 := by
  obtain ⟨i, hi, hc⟩ := List.mem_flatMap.1 h
  obtain ⟨sj, hsj, hc⟩ := List.mem_flatMap.1 hc
  obtain ⟨p, n, rfl, hp, -, hn, hprovides⟩ := mem_copies.1 hc
  exact ⟨⟨List.mem_range.1 hi, hp, hn⟩,
    MeshField.stores_of_mem (Halo.mem_pairs.1 hsj).2 hprovides.2 hn⟩

lemma overwritten_flatMap {α : Type} (l : List α) (F : α → List (Place × K)) (a : Place) (old : K) :
    overwritten (l.flatMap F) a old = l.foldl (fun old x => overwritten (F x) a old) old :=
  List.foldl_flatMap

/-- Values that are the same wherever they go to a place are written there if there is one. -/
lemma overwritten_of_eq {values : List (Place × K)} {a : Place} {v : K}
    (h : ∀ w ∈ values, w.1 = a → w.2 = v) (old : K) :
    overwritten values a old = if ∃ w ∈ values, w.1 = a then v else old := by
  induction values generalizing old with
  | nil => simp [overwritten]
  | cons w values ih =>
      have hrest := ih (fun w hw => h w (List.mem_cons_of_mem _ hw))
      rw [overwritten, List.foldl_cons, ← overwritten, hrest]
      by_cases hw : w.1 = a
      · simp [hw, h w List.mem_cons_self hw]
      · simp only [List.mem_cons, exists_eq_or_imp, hw, if_false, false_or]

/-- Values from a list that some of its members give: the last one of them stays. -/
lemma foldl_ite_eq {α β : Type} (C : α → Prop) [DecidablePred C] (V : α → β) (l : List α)
    (old : β) :
    l.foldl (fun old x => if C x then V x else old) old
      = ((l.filter fun x => C x).getLast?.map V).getD old := by
  induction l using List.reverseRecOn with
  | nil => rfl
  | append_singleton l x ih =>
      rw [List.foldl_append, List.foldl_cons, List.foldl_nil, ih]
      by_cases hx : C x <;> simp [hx]

/-- A change that takes no second time is made once if it is due at all. -/
lemma foldl_ite_idem {β : Type} {G : β → β} (hG : ∀ x, G (G x) = G x) (i : ℕ) (l : List ℕ)
    (old : β) :
    l.foldl (fun old k => if k = i then G old else old) old = if i ∈ l then G old else old := by
  induction l generalizing old with
  | nil => rfl
  | cons k l ih =>
      rw [List.foldl_cons, ih]
      by_cases hk : k = i
      · simp [hk, hG]
      · simp [hk, Ne.symm hk]

variable [Inhabited K]

/-- What a pair writes to a place. -/
private lemma overwritten_copies (h : f.Stores i p n) (k : ℕ) (sj : Point × ℕ) (old : K) :
    overwritten ((copies f k sj).map fun c => (c.1, f.get c.2.1.1 c.2.1.2 c.2.2)) ((i, p), n) old
      = if k = i ∧ p ∉ f.layout.box i ∧ Halo.Provides f.layout i p sj then
          f.get sj.2 (p - sj.1) n else old := by
  rw [overwritten_of_eq (v := f.get sj.2 (p - sj.1) n)]
  · refine if_congr ⟨?_, ?_⟩ rfl rfl
    · rintro ⟨w, hw, hplace⟩
      obtain ⟨c, hc, rfl⟩ := List.mem_map.1 hw
      obtain ⟨q, m, rfl, hq, hghost, hm, hprovides⟩ := mem_copies.1 hc
      cases hplace
      exact ⟨rfl, hghost, hprovides⟩
    · rintro ⟨rfl, hghost, hprovides⟩
      have hc := mem_copies.2 ⟨p, n, rfl, h.2.1, hghost, h.2.2, hprovides⟩
      exact ⟨_, List.mem_map_of_mem hc, rfl⟩
  · intro w hw hplace
    obtain ⟨c, hc, rfl⟩ := List.mem_map.1 hw
    obtain ⟨q, m, rfl, -⟩ := mem_copies.1 hc
    cases hplace
    rfl

/-- **The exchange stays inside every field.** -/
theorem exchange_eq (f : MeshField K) (periods : Periods) :
    exchange f periods = some (f.exchange periods) := by
  have hvalues : ((incoming f periods).mapM fun c => do
      let v ← read f c.2.1.1 c.2.1.2 c.2.2
      return (c.1, v))
      = some ((incoming f periods).map fun c => (c.1, f.get c.2.1.1 c.2.1.2 c.2.2)) := by
    refine mapM_eq_map fun c hc => ?_
    rw [read_of_stores (stores_of_mem_incoming hc).2]
    rfl
  rw [exchange, hvalues, Option.bind_eq_bind, Option.bind_some, scatter_eq]
  · refine congrArg some (MeshField.ext_get rfl fun i p n h => ?_)
    have h' : f.Stores i p n := h
    rw [MeshField.get_update, if_pos h', MeshField.exchange_eq_gather, MeshField.get_gather h']
    simp only [incoming, List.map_flatMap, overwritten_flatMap, overwritten_copies h']
    by_cases hp : p ∈ f.layout.box i
    · simp [hp]
    · -- only the pairs of box `i` matter, and of these the last one that provides the point
      let last (old : K) : K :=
        ((Halo.lastProvider f.layout (Halo.pairs f.layout periods) i p).map fun sj =>
          f.get sj.2 (p - sj.1) n).getD old
      have hlast : ∀ old, last (last old) = last old := fun old => by
        simp only [last]
        cases Halo.lastProvider f.layout (Halo.pairs f.layout periods) i p <;> rfl
      have hbox : ∀ k old, (Halo.pairs f.layout periods).foldl (fun old sj =>
          if k = i ∧ p ∉ f.layout.box i ∧ Halo.Provides f.layout i p sj then f.get sj.2 (p - sj.1) n
          else old) old = if k = i then last old else old := by
        intro k old
        by_cases hk : k = i
        · simp only [hk, hp, not_false_eq_true, true_and, if_true]
          exact foldl_ite_eq (Halo.Provides f.layout i p) (fun sj => f.get sj.2 (p - sj.1) n) _ old
        · simp [hk]
      simp only [hbox]
      rw [foldl_ite_idem hlast, if_pos (List.mem_range.2 h'.1), if_neg hp, MeshField.provided]
      simp only [last]
      cases Halo.lastProvider f.layout (Halo.pairs f.layout periods) i p <;> rfl
  · intro w hw
    obtain ⟨c, hc, rfl⟩ := List.mem_map.1 hw
    exact (stores_of_mem_incoming hc).1

end Exchange

end Checked

end MeshDiffusion
