import Mathlib.Tactic
import MeshDiffusion.Field.Exchange
import MeshDiffusion.Proofs.Index.Images
import MeshDiffusion.Proofs.Index.Tiling

/-!
Exchange of halos, value by value.

A ghost point may be held by several boxes and periodic images. `Halo.pairs` lists all pairs of a
move and a box, moves first, and `Halo.Provides` says that a pair holds a point for a box; the box
itself, unmoved, never counts.

* `Halo.source?_eq`: the source of a ghost point is the last pair that provides it;
* `MeshField.gather` copies every ghost from its last provider in a given order of the pairs, and
  `MeshField.refresh` does so for the ghosts of one box only, in place;
* `MeshField.foldl_refresh`: boxes refreshed one after another, in any order, give what the
  exchange gives at once, because providers are valid points and only ghosts are written;
* `Halo.provides_unique` and `Halo.exists_provides`: for disjoint boxes inside the domain of the
  periods there is at most one provider, and for a tiling with a halo no wider than any period
  there is one; a ghost without a provider is exposed (`Halo.lastProvider_eq_none_iff`);
* `MeshField.exchange_exact` collects these facts.
-/

namespace MeshDiffusion

/-! ### Providers of ghost points -/

namespace Halo

variable {layout : Layout} {periods : Periods} {i : ℕ} {p : Point}

/-- All pairs of a move and a box, moves first and boxes second. -/
def pairs (layout : Layout) (periods : Periods) : List (Point × ℕ) :=
  periods.shifts.flatMap fun s => (List.range layout.count).map fun j => (s, j)

/-- The box of the pair, moved, holds a point for box `i`; the box itself, unmoved, does not. -/
def Provides (layout : Layout) (i : ℕ) (p : Point) (sj : Point × ℕ) : Prop :=
  ¬(sj.2 = i ∧ sj.1 = Point.zero) ∧ p - sj.1 ∈ layout.box sj.2

instance (layout : Layout) (i : ℕ) (p : Point) : DecidablePred (Provides layout i p) :=
  fun _ => inferInstanceAs (Decidable (_ ∧ _))

/-- The last pair of a list that provides a point. -/
def lastProvider (layout : Layout) (order : List (Point × ℕ)) (i : ℕ) (p : Point) :
    Option (Point × ℕ) :=
  (order.filter fun sj => Provides layout i p sj).getLast?

lemma mem_pairs {sj : Point × ℕ} :
    sj ∈ pairs layout periods ↔ sj.1 ∈ periods.shifts ∧ sj.2 < layout.count := by
  obtain ⟨s, j⟩ := sj
  simp [pairs]

lemma lastProvider_mem {order : List (Point × ℕ)} {sj : Point × ℕ}
    (h : lastProvider layout order i p = some sj) : sj ∈ order ∧ Provides layout i p sj := by
  have hmem := List.mem_of_getLast? h
  simpa using List.mem_filter.1 hmem

lemma lastProvider_eq_none {order : List (Point × ℕ)} :
    lastProvider layout order i p = none ↔ ∀ sj ∈ order, ¬Provides layout i p sj := by
  simp [lastProvider]

/-- The image of a box provides every ghost that it holds. -/
lemma provides_of_mem {s : Point} {j : ℕ} (hghost : p ∉ layout.box i)
    (hmem : p - s ∈ layout.box j) : Provides layout i p (s, j) := by
  refine ⟨?_, hmem⟩
  rintro ⟨rfl, rfl⟩
  exact hghost (by simpa using hmem)

/-- A ghost without a provider is one that no image of a box holds. -/
lemma lastProvider_eq_none_iff (hghost : p ∉ layout.box i) :
    lastProvider layout (pairs layout periods) i p = none ↔ layout.Exposed periods p := by
  rw [lastProvider_eq_none]
  constructor
  · intro h s hs j hj hmem
    exact h (s, j) (mem_pairs.2 ⟨hs, hj⟩) (provides_of_mem hghost hmem)
  · rintro h ⟨s, j⟩ hpair ⟨-, hmem⟩
    obtain ⟨hs, hj⟩ := mem_pairs.1 hpair
    exact h s hs j hj hmem

/-- The images of a layout are its pairs. -/
private lemma images_eq_map :
    images layout periods
      = (pairs layout periods).map fun sj => ⟨sj.1, sj.2, (layout.box sj.2).shift sj.1⟩ := by
  rw [images, pairs, List.map_flatMap]
  refine congrArg (periods.shifts.flatMap ·) (funext fun s => ?_)
  refine List.ext_getElem (by simp [Layout.toList, Layout.count]) fun j h₁ h₂ => ?_
  simp [Layout.toList_eq_map]

/-- An image that holds a point of the region of a box reaches into that region. -/
private lemma reaching_iff_provides {ghosts : ℕ} (hp : p ∈ (layout.box i).grow ghosts)
    (sj : Point × ℕ) :
    (!(sj.2 == i && sj.1 == Point.zero) &&
        !(((layout.box i).grow ghosts).meet ((layout.box sj.2).shift sj.1)).isEmpty) = true ∧
      decide (p ∈ (layout.box sj.2).shift sj.1) = true ↔ Provides layout i p sj := by
  simp only [Bool.and_eq_true, decide_eq_true_eq, Box.mem_shift, Bool.not_eq_true',
    Bool.and_eq_false_iff, beq_eq_false_iff_ne, ne_eq, Provides, not_and_or]
  constructor
  · rintro ⟨⟨hne, -⟩, hmem⟩
    exact ⟨hne, hmem⟩
  · rintro ⟨hne, hmem⟩
    refine ⟨⟨hne, ?_⟩, hmem⟩
    rw [Bool.eq_false_iff]
    intro hempty
    exact Box.isEmpty_iff.1 hempty p (Box.mem_meet.2 ⟨hp, Box.mem_shift.2 hmem⟩)

/-- The halo finds the last pair that provides a point of a box's region. -/
theorem source?_eq {ghosts : ℕ} (hi : i < layout.count) (hp : p ∈ (layout.box i).grow ghosts) :
    (ofLayout layout periods ghosts).source? i p
      = (lastProvider layout (pairs layout periods) i p).map fun sj => (sj.2, p - sj.1) := by
  have hi' : i < layout.boxes.size := hi
  have hreach : (ofLayout layout periods ghosts).getD i []
      = reaching (images layout periods) ((layout.box i).grow ghosts) i := by
    simp [ofLayout, hi', Layout.getElem_boxes]
  rw [source?, hreach, reaching, images_eq_map, List.findRev?_eq_find?_reverse, lastProvider,
    List.filter_map, ← List.map_reverse, List.find?_map, ← List.filter_reverse,
    List.find?_filter, List.getLast?_eq_head?_reverse, ← List.filter_reverse, List.head?_filter,
    Option.map_map]
  congr 1
  refine congrArg (List.find? · _) (funext fun sj => ?_)
  exact decide_eq_decide.2 (reaching_iff_provides hp sj)

/-! ### Layouts in the domain of the periods -/

section Domain

variable {domain : Box} {periodic : Triple Bool}

/-- Disjoint boxes inside the domain of the periods provide a point at most once. -/
theorem provides_unique (hin : layout.Within domain) (hdisj : layout.Disjoint)
    {sj tk : Point × ℕ} (hs : sj ∈ pairs layout (.ofDomain domain periodic))
    (ht : tk ∈ pairs layout (.ofDomain domain periodic)) (hps : Provides layout i p sj)
    (hpt : Provides layout i p tk) : sj = tk := by
  obtain ⟨s, j⟩ := sj
  obtain ⟨t, k⟩ := tk
  obtain ⟨hs, hj⟩ := mem_pairs.1 hs
  obtain ⟨ht, hk⟩ := mem_pairs.1 ht
  obtain ⟨rfl, rfl⟩ := Layout.image_unique hin hdisj hs ht hj hk hps.2 hpt.2
  rfl

/-- The last provider of a ghost is the one image that holds it. -/
lemma lastProvider_eq_some {s : Point} {j : ℕ} (hin : layout.Within domain)
    (hdisj : layout.Disjoint) (hghost : p ∉ layout.box i)
    (hs : s ∈ (Periods.ofDomain domain periodic).shifts) (hj : j < layout.count)
    (hmem : p - s ∈ layout.box j) :
    lastProvider layout (pairs layout (.ofDomain domain periodic)) i p = some (s, j) := by
  have hpair : (s, j) ∈ pairs layout (.ofDomain domain periodic) := mem_pairs.2 ⟨hs, hj⟩
  have hprovides : Provides layout i p (s, j) := provides_of_mem hghost hmem
  cases hlast : lastProvider layout (pairs layout (.ofDomain domain periodic)) i p with
  | none => exact absurd hprovides (lastProvider_eq_none.1 hlast _ hpair)
  | some tk =>
      obtain ⟨hlastPair, hlastProvides⟩ := lastProvider_mem hlast
      rw [provides_unique hin hdisj hlastPair hpair hlastProvides hprovides]

/-- Boxes that tile a domain with all axes wrapping around provide every ghost point of a halo that
is no wider than any period. -/
theorem exists_provides {width : ℕ} (hi : i < layout.count)
    (hcovers : layout.Covers domain) (hall : ∀ a, periodic.get a = true)
    (hwidth : ∀ a, width ≤ domain.length a)
    (hcorners : ∀ a, domain.lo.get a ≤ (layout.box i).lo.get a ∧
      (layout.box i).hi.get a ≤ domain.hi.get a)
    (hp : p ∈ (layout.box i).grow width) (hghost : p ∉ layout.box i) :
    ∃ sj ∈ pairs layout (.ofDomain domain periodic), Provides layout i p sj := by
  have hgrow : p ∈ domain.grow width := by
    refine Box.mem_grow.2 fun a => ?_
    have h₁ := Box.mem_grow.1 hp a
    have h₂ := hcorners a
    omega
  obtain ⟨s, hs, hps⟩ := Periods.exists_shift hall hwidth hgrow
  obtain ⟨j, hj, hmem⟩ := hcovers _ hps
  refine ⟨(s, j), mem_pairs.2 ⟨hs, hj⟩, ?_, hmem⟩
  -- The box itself, unmoved, would hold the point as a valid one.
  rintro ⟨rfl, rfl⟩
  rw [Point.sub_zero] at hmem
  exact hghost hmem

end Domain

end Halo

/-! ### The exchange -/

namespace MeshField

variable {K : Type} [Inhabited K] {f : MeshField K} {periods : Periods}
  {order : List (Point × ℕ)} {i : ℕ} {p : Point} {n : ℕ}

/-- The value of the last provider of a ghost, or the old value of a ghost without one. -/
def provided (f : MeshField K) (order : List (Point × ℕ)) (i : ℕ) (p : Point) (n : ℕ) : K :=
  match Halo.lastProvider f.layout order i p with
  | some (s, j) => f.get j (p - s) n
  | none => f.get i p n

/-- Copies every ghost from its last provider in an order of the pairs: what goes in is read before
anything is written. -/
def gather (f : MeshField K) (order : List (Point × ℕ)) : MeshField K :=
  f.update fun i p n old => if p ∈ f.layout.box i then old else f.provided order i p n

/-- Copies the ghosts of one box from their last providers and leaves all other boxes alone. -/
def refresh (order : List (Point × ℕ)) (f : MeshField K) (i : ℕ) : MeshField K :=
  f.update fun k p n old =>
    if k = i ∧ p ∉ f.layout.box k then f.provided order k p n else old

/-- The exchange gathers along all pairs, moves first and boxes second. -/
theorem exchange_eq_gather (f : MeshField K) (periods : Periods) :
    f.exchange periods = f.gather (Halo.pairs f.layout periods) := by
  refine ext_get rfl fun i p n h => ?_
  have h' : f.Stores i p n := h
  rw [exchange, exchangeBy, gather, get_update, get_update, if_pos h', if_pos h', provided, halo,
    Halo.source?_eq h'.1 h'.2.1]
  cases Halo.lastProvider f.layout (Halo.pairs f.layout periods) i p <;> rfl

lemma get_gather (h : f.Stores i p n) :
    (f.gather order).get i p n
      = if p ∈ f.layout.box i then f.get i p n else f.provided order i p n := by
  rw [gather, get_update, if_pos h]

/-- Valid points keep their values. -/
lemma get_gather_of_mem (hp : p ∈ f.layout.box i) :
    (f.gather order).get i p n = f.get i p n := by
  by_cases h : f.Stores i p n
  · rw [get_gather h, if_pos hp]
  · rw [get_of_not_stores h]
    exact get_of_not_stores (f := f.gather order) h

/-- On disjoint boxes inside the domain, a ghost is given the value of the cell that lies on it. -/
lemma get_exchange_of_image {domain : Box} {periodic : Triple Bool} {s : Point} {j : ℕ}
    (hin : f.layout.Within domain) (hdisj : f.layout.Disjoint) (h : f.Stores i p n)
    (hghost : p ∉ f.layout.box i) (hs : s ∈ (Periods.ofDomain domain periodic).shifts)
    (hj : j < f.layout.count) (hmem : p - s ∈ f.layout.box j) :
    (f.exchange (.ofDomain domain periodic)).get i p n = f.get j (p - s) n := by
  rw [exchange_eq_gather, get_gather h, if_neg hghost, provided,
    Halo.lastProvider_eq_some hin hdisj hghost hs hj hmem]

/-- A ghost that no image of a box holds is left alone. -/
lemma get_exchange_of_exposed (hexposed : f.layout.Exposed periods p) :
    (f.exchange periods).get i p n = f.get i p n := by
  by_cases h : f.Stores i p n
  · have hghost : p ∉ f.layout.box i := hexposed.not_mem h.1
    rw [exchange_eq_gather, get_gather h, if_neg hghost, provided,
      (Halo.lastProvider_eq_none_iff hghost).2 hexposed]
  · rw [get_of_not_stores h]
    exact get_of_not_stores (f := f.exchange periods) h

/-- Where some image of a box lies, the exchange leaves a valid value of such an image. -/
lemma exists_get_exchange_eq (h : f.Stores i p n) (hreached : ¬f.layout.Exposed periods p) :
    ∃ s ∈ periods.shifts, ∃ j < f.layout.count, p - s ∈ f.layout.box j ∧
      (f.exchange periods).get i p n = f.get j (p - s) n := by
  rw [exchange_eq_gather, get_gather h]
  by_cases hp : p ∈ f.layout.box i
  · refine ⟨Point.zero, Periods.zero_mem_shifts, i, h.1, by rwa [Point.sub_zero], ?_⟩
    rw [if_pos hp, Point.sub_zero]
  · rw [if_neg hp, provided]
    cases hlast : Halo.lastProvider f.layout (Halo.pairs f.layout periods) i p with
    | none => exact absurd ((Halo.lastProvider_eq_none_iff hp).1 hlast) hreached
    | some sj =>
        obtain ⟨hpair, -, hmem⟩ := Halo.lastProvider_mem hlast
        obtain ⟨hs, hj⟩ := Halo.mem_pairs.1 hpair
        exact ⟨sj.1, hs, sj.2, hj, hmem, rfl⟩

/-- What a ghost is given depends on valid points and on its own old value only. -/
lemma provided_congr {g : MeshField K} (hs : f.shape = g.shape)
    (hvalid : ∀ j q, q ∈ f.layout.box j → f.get j q n = g.get j q n)
    (hold : Halo.lastProvider f.layout order i p = none → f.get i p n = g.get i p n) :
    f.provided order i p n = g.provided order i p n := by
  have hl : f.layout = g.layout := congrArg Shape.layout hs
  rw [provided, provided, ← hl]
  cases hlast : Halo.lastProvider f.layout order i p with
  | none => exact hold hlast
  | some sj => exact hvalid _ _ (Halo.lastProvider_mem hlast).2.2

/-- A gathered field gathers to itself. -/
lemma gather_gather (f : MeshField K) (order : List (Point × ℕ)) :
    (f.gather order).gather order = f.gather order := by
  refine ext_get rfl fun i p n h => ?_
  have h' : f.Stores i p n := h
  have hl : (f.gather order).layout = f.layout := rfl
  rw [get_gather (f := f.gather order) h, hl]
  by_cases hp : p ∈ f.layout.box i
  · rw [if_pos hp]
  · rw [if_neg hp, get_gather h', if_neg hp]
    refine provided_congr rfl (fun j q hq => get_gather_of_mem hq) fun hnone => ?_
    have hnone' : Halo.lastProvider f.layout order i p = none := hnone
    rw [get_gather h', if_neg hp, provided, hnone']

@[simp] lemma shape_foldl_refresh (boxes : List ℕ) :
    (boxes.foldl (refresh order) f).shape = f.shape := by
  induction boxes using List.reverseRecOn with
  | nil => rfl
  | append_singleton boxes k ih => rw [List.foldl_append]; exact ih

/-- Boxes refreshed one after another: those of the list have gathered their ghosts, the others are
as they were. -/
lemma get_foldl_refresh (boxes : List ℕ) (h : f.Stores i p n) :
    (boxes.foldl (refresh order) f).get i p n
      = if i ∈ boxes then (f.gather order).get i p n else f.get i p n := by
  induction boxes using List.reverseRecOn generalizing i p n with
  | nil => simp
  | append_singleton boxes k ih =>
      have hs : (boxes.foldl (refresh order) f).shape = f.shape := shape_foldl_refresh boxes
      have hl : (boxes.foldl (refresh order) f).layout = f.layout := congrArg Shape.layout hs
      -- whatever was refreshed before, valid points still hold what they held in `f`
      have hvalid : ∀ j q, q ∈ f.layout.box j →
          f.get j q n = (boxes.foldl (refresh order) f).get j q n := by
        intro j q hq
        by_cases hj : f.Stores j q n
        · rw [ih hj, get_gather_of_mem hq, ite_self]
        · rw [get_of_not_stores hj, get_of_not_stores (mt (stores_iff_of_shape hs).1 hj)]
      rw [List.foldl_append, List.foldl_cons, List.foldl_nil, refresh, get_update,
        if_pos ((stores_iff_of_shape hs).2 h), hl]
      by_cases hk : i = k ∧ p ∉ f.layout.box i
      · rw [if_pos hk, if_pos (by simp [hk.1]), get_gather h, if_neg hk.2]
        refine (provided_congr hs.symm hvalid fun hnone => ?_).symm
        rw [ih h, get_gather h, if_neg hk.2, provided, hnone, ite_self]
      · rw [if_neg hk, ih h]
        by_cases hik : i = k
        · have hp : p ∈ f.layout.box i := not_not.1 fun hp => hk ⟨hik, hp⟩
          rw [get_gather_of_mem hp, ite_self, ite_self]
        · simp [hik]

/-- Refreshing all boxes one after another, in any order, gathers the whole field. -/
theorem foldl_refresh (order : List (Point × ℕ)) {boxes : List ℕ}
    (h : boxes.Perm (List.range f.layout.count)) :
    boxes.foldl (refresh order) f = f.gather order := by
  refine ext_get (shape_foldl_refresh boxes) fun i p n hst => ?_
  have h' : f.Stores i p n := (stores_iff_of_shape (shape_foldl_refresh boxes)).1 hst
  rw [get_foldl_refresh boxes h', if_pos (h.mem_iff.2 (List.mem_range.2 h'.1))]

/-- With at most one provider for every ghost, the order of the pairs is of no effect. -/
lemma gather_perm {order' : List (Point × ℕ)} (hperm : order'.Perm order)
    (hunique : ∀ i p, ∀ sj ∈ order, ∀ tk ∈ order, Halo.Provides f.layout i p sj →
      Halo.Provides f.layout i p tk → sj = tk) :
    f.gather order' = f.gather order := by
  have hlast : ∀ i p, Halo.lastProvider f.layout order' i p
      = Halo.lastProvider f.layout order i p := by
    intro i p
    cases h : Halo.lastProvider f.layout order i p with
    | none =>
        rw [Halo.lastProvider_eq_none] at h ⊢
        exact fun sj hsj => h sj (hperm.mem_iff.1 hsj)
    | some sj =>
        obtain ⟨hmem, hprov⟩ := Halo.lastProvider_mem h
        cases h' : Halo.lastProvider f.layout order' i p with
        | none =>
            exact absurd hprov (Halo.lastProvider_eq_none.1 h' sj (hperm.mem_iff.2 hmem))
        | some tk =>
            obtain ⟨hmem', hprov'⟩ := Halo.lastProvider_mem h'
            rw [hunique i p tk (hperm.mem_iff.1 hmem') sj hmem hprov' hprov]
  have hprovided : f.provided order' = f.provided order := by
    funext i p n
    rw [provided, provided, hlast]
  rw [gather, gather, hprovided]

/-- **The exchange is exact.** It keeps all valid points and gives a ghost the old value of the last
pair of a move and a box that provides it, or leaves it alone; refreshing the boxes in place, in any
order, comes to the same, and a second exchange changes nothing. On disjoint boxes inside the domain
of the periods there is at most one such pair, so the order of moves and boxes is of no effect, and
on a tiling that wraps around along all axes no ghost is left over, as long as the halo is no wider
than any period. A box without points counts as inside when its corners do. -/
theorem exchange_exact (f : MeshField K) (periods : Periods) :
    (∀ i p n, p ∈ f.layout.box i → (f.exchange periods).get i p n = f.get i p n) ∧
    (∀ i p n, f.Stores i p n → p ∉ f.layout.box i →
      (f.exchange periods).get i p n =
        match ((Halo.pairs f.layout periods).filter
          fun sj => Halo.Provides f.layout i p sj).getLast? with
        | some (s, j) => f.get j (p - s) n
        | none => f.get i p n) ∧
    (∀ boxes : List ℕ, boxes.Perm (List.range f.layout.count) →
      boxes.foldl (refresh (Halo.pairs f.layout periods)) f = f.exchange periods) ∧
    (f.exchange periods).exchange periods = f.exchange periods ∧
    ∀ domain periodic, periods = .ofDomain domain periodic →
      f.layout.Within domain → f.layout.Disjoint →
      (∀ i p, ∀ sj ∈ Halo.pairs f.layout periods, ∀ tk ∈ Halo.pairs f.layout periods,
        Halo.Provides f.layout i p sj → Halo.Provides f.layout i p tk → sj = tk) ∧
      (∀ order : List (Point × ℕ), order.Perm (Halo.pairs f.layout periods) →
        f.gather order = f.exchange periods) ∧
      (f.layout.Covers domain → (∀ a, periodic.get a = true) →
        (∀ a, f.ghosts ≤ domain.length a) → ∀ i < f.layout.count,
        ((∃ q, q ∈ f.layout.box i) ∨ ∀ a, domain.lo.get a ≤ (f.layout.box i).lo.get a ∧
          (f.layout.box i).hi.get a ≤ domain.hi.get a) →
        ∀ p ∈ f.region i, p ∉ f.layout.box i →
          ∃ sj ∈ Halo.pairs f.layout periods, Halo.Provides f.layout i p sj) := by
  have hgather := exchange_eq_gather f periods
  refine ⟨fun i p n hp => ?_, fun i p n h hp => ?_, fun boxes hperm => ?_, ?_, ?_⟩
  · rw [hgather, get_gather_of_mem hp]
  · rw [hgather, get_gather h, if_neg hp]
    rfl
  · rw [hgather, foldl_refresh _ hperm]
  · rw [exchange_eq_gather (f.exchange periods), hgather]
    exact gather_gather f _
  · rintro domain periodic rfl hin hdisj
    have hunique : ∀ i p, ∀ sj ∈ Halo.pairs f.layout (.ofDomain domain periodic),
        ∀ tk ∈ Halo.pairs f.layout (.ofDomain domain periodic),
        Halo.Provides f.layout i p sj → Halo.Provides f.layout i p tk → sj = tk :=
      fun i p sj hs tk ht => Halo.provides_unique hin hdisj hs ht
    refine ⟨hunique, fun order hperm => ?_, fun hcovers hall hwidth i hi hinside p hp hghost => ?_⟩
    · rw [hgather, gather_perm hperm hunique]
    · refine Halo.exists_provides hi hcovers hall hwidth ?_ hp hghost
      rcases hinside with ⟨q, hq⟩ | hcorners
      · exact hin.corners hi hq
      · exact hcorners

/-- Four cells in a row. -/
private def row : Box := ⟨⟨0, 0, 0⟩, ⟨3, 0, 0⟩, .cell⟩

/-- The row in two boxes with one layer of ghosts; every cell holds its place, every ghost zero. -/
private def rowField : MeshField ℕ :=
  .ofFn (.cut row 2) (.single 2) 1 1 fun i p _ =>
    if p ∈ (Layout.cut row 2).box i then p.x.toNat + 1 else 0

private lemma rowField_tiles : rowField.layout.Tiles row := by
  have hlayout : rowField.layout
      = ⟨#[⟨⟨0, 0, 0⟩, ⟨1, 0, 0⟩, .cell⟩, ⟨⟨2, 0, 0⟩, ⟨3, 0, 0⟩, .cell⟩]⟩ := by decide
  rw [hlayout]
  refine Layout.tiles_pair (fun q => ?_) (fun q hq hq' => ?_)
  · simp only [row, Box.mem_iff, Axis.forall_axis, Triple.get]
    omega
  · simp only [Box.mem_iff, Axis.forall_axis, Triple.get] at hq hq'
    omega

/-- On the row, closed to a ring, the ghost before the first cell has the last cell as its one
provider, whatever the order of the pairs and of the boxes. -/
theorem exchange_exact_ring :
    let periods : Periods := .ofDomain row (.const true)
    rowField.layout.Tiles row ∧ rowField.Stores 0 ⟨-1, 0, 0⟩ 0 ∧
    [1, 0].Perm (List.range rowField.layout.count) ∧
    (rowField.exchange periods).get 0 ⟨-1, 0, 0⟩ 0 = 4 ∧
    [1, 0].foldl (refresh (Halo.pairs rowField.layout periods)) rowField
      = rowField.exchange periods ∧
    rowField.gather (Halo.pairs rowField.layout periods).reverse = rowField.exchange periods ∧
    ∃ sj ∈ Halo.pairs rowField.layout periods, Halo.Provides rowField.layout 0 ⟨-1, 0, 0⟩ sj := by
  intro periods
  obtain ⟨-, hghost, hboxes, -, hdomain⟩ := exchange_exact rowField periods
  have hstores : rowField.Stores 0 ⟨-1, 0, 0⟩ 0 := by decide
  have hout : (⟨-1, 0, 0⟩ : Point) ∉ rowField.layout.box 0 := by decide
  have hperm : [1, 0].Perm (List.range rowField.layout.count) := by decide
  obtain ⟨-, horder, hfilled⟩ := hdomain row (.const true) rfl rowField_tiles.within
    rowField_tiles.disjoint
  refine ⟨rowField_tiles, hstores, hperm, ?_, hboxes _ hperm, horder _ (List.reverse_perm _),
    hfilled rowField_tiles.covers (by simp) (fun a => by cases a <;> decide) 0 (by decide)
      (.inl ⟨⟨0, 0, 0⟩, by decide⟩) _ (by decide) hout⟩
  rw [hghost 0 ⟨-1, 0, 0⟩ 0 hstores hout]
  decide

end MeshField

end MeshDiffusion
