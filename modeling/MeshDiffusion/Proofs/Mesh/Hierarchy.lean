import Mathlib.Tactic
import MeshDiffusion.Proofs.Index.Cutting
import MeshDiffusion.Proofs.Mesh.Nesting

/-!
Levels of a hierarchy that was built.

`Hierarchy.Plan.levelOf` describes the levels of a plan one by one: what a level covers, the boxes
that this is cut into, and a domain twice as fine as the one below. A plan is built into exactly
these levels (`Hierarchy.build_eq`), unless its length limit is zero, its storage too small, or a
region is empty or has a cell outside the boxes below it (`Hierarchy.Plan.Nests`).

* `Hierarchy.Sound` is the contract of a mesh, which every mesh that was built keeps
  (`Hierarchy.build_sound`);
* `Hierarchy.build_exact` says which plans are built, into what, and why the others are refused;
* `Hierarchy.build_periodic`: all levels wrap around along the same axes.
-/

namespace MeshDiffusion

namespace Hierarchy

variable {K : Type} {plan : Plan K} {h : Hierarchy K} {l n : ℕ}

/-! ### The levels of a plan -/

namespace Plan

/-- What a level covers: the domain, and above it one region after another. -/
def extent (plan : Plan K) : ℕ → Box
  | 0 => plan.geometry.domain
  | l + 1 => plan.refined.getD l default

/-- The boxes of a level; there are none above the last region. -/
def layoutOf (plan : Plan K) (l : ℕ) : Layout :=
  if l ≤ plan.refined.length then .cut (plan.extent l) plan.maxBoxLength else ⟨#[]⟩

/-- A level of the plan. -/
def levelOf (plan : Plan K) : ℕ → MeshLevel K
  | 0 => ⟨plan.geometry, plan.layoutOf 0, .dealt (plan.layoutOf 0).count plan.ranks⟩
  | l + 1 => finer plan.ranks (plan.levelOf l) (plan.layoutOf (l + 1))

/-- The largest level, that of the last region unless the plan says otherwise. -/
def top (plan : Plan K) : ℕ := plan.topLevel?.getD plan.refined.length

/-- The region above a level has cells, and the coarse cell around each of them lies in a box of
the level. -/
def Nests (plan : Plan K) (l : ℕ) : Prop :=
  (∃ p, p ∈ plan.extent (l + 1)) ∧
    ∀ p ∈ plan.extent (l + 1), ∃ b ∈ (plan.layoutOf l).toList, Box.parent p ∈ b

lemma layoutOf_of_le (hl : l ≤ plan.refined.length) :
    plan.layoutOf l = .cut (plan.extent l) plan.maxBoxLength := if_pos hl

lemma layoutOf_of_lt (hl : plan.refined.length < l) : plan.layoutOf l = ⟨#[]⟩ :=
  if_neg (Nat.not_le.2 hl)

lemma extent_succ (hl : l < plan.refined.length) : plan.extent (l + 1) = plan.refined[l] := by
  simp [extent, hl]

@[simp] lemma layout_levelOf (plan : Plan K) (l : ℕ) :
    (plan.levelOf l).layout = plan.layoutOf l := by
  cases l <;> rfl

lemma count_owners_levelOf (plan : Plan K) (l : ℕ) :
    (plan.levelOf l).owners.count = (plan.layoutOf l).count := by
  cases l <;> simp [levelOf, finer, Ownership.dealt, Ownership.count]

lemma periodic_levelOf (plan : Plan K) (l : ℕ) :
    (plan.levelOf l).geometry.periodic = plan.geometry.periodic := by
  induction l with
  | zero => rfl
  | succ l ih => exact ih

/-- The region above a level is nested when the count of its cells says so. -/
lemma nested_iff_nests (hl : l < plan.refined.length) :
    nested (plan.layoutOf l) (plan.extent (l + 1)) = true ↔ plan.Nests l := by
  have hdisjoint : (plan.layoutOf l).Disjoint := by
    rw [layoutOf_of_le hl.le]
    exact (Layout.cut_tiles _ _).disjoint
  exact nested_iff hdisjoint

end Plan

/-! ### Building -/

/-- The regions from a level on: the first one is what the next level covers. -/
private lemma of_drop_eq_cons {region : Box} {regions : List Box}
    (hdrop : plan.refined.drop l = region :: regions) :
    l < plan.refined.length ∧ region = plan.extent (l + 1) ∧ plan.refined.drop (l + 1) = regions := by
  have hl : l < plan.refined.length := by
    by_contra hge
    rw [List.drop_eq_nil_of_le (not_lt.1 hge)] at hdrop
    cases hdrop
  rw [List.drop_eq_getElem_cons hl] at hdrop
  obtain ⟨hregion, hregions⟩ := List.cons.inj hdrop
  exact ⟨hl, by rw [Plan.extent_succ hl, hregion], hregions⟩

/-- The levels of nested regions are those of the plan. -/
lemma refinements_eq {regions : List Box} (hdrop : plan.refined.drop l = regions)
    (hnests : ∀ k, l ≤ k → k < plan.refined.length → plan.Nests k) :
    refinements plan (plan.levelOf l) l regions
      = .ok ((List.range' (l + 1) regions.length).map plan.levelOf) := by
  induction regions generalizing l with
  | nil => rfl
  | cons region regions ih =>
      obtain ⟨hl, rfl, hrest⟩ := of_drop_eq_cons hdrop
      have hnext : finer plan.ranks (plan.levelOf l)
          (.cut (plan.extent (l + 1)) plan.maxBoxLength) = plan.levelOf (l + 1) := by
        rw [Plan.levelOf, Plan.layoutOf_of_le (Nat.succ_le_of_lt hl)]
      have hbelow := (Plan.nested_iff_nests hl).2 (hnests l le_rfl hl)
      rw [refinements, Plan.layout_levelOf, if_pos hbelow]
      simp only
      rw [hnext, ih hrest fun k hk => hnests k (Nat.le_of_succ_le hk)]
      rfl

/-- The first region that is not nested is refused, with its level. -/
lemma refinements_error {regions : List Box} {k : ℕ} (hdrop : plan.refined.drop l = regions)
    (hlk : l ≤ k) (hk : k < plan.refined.length)
    (hnests : ∀ j, l ≤ j → j < k → plan.Nests j) (hbad : ¬plan.Nests k) :
    refinements plan (plan.levelOf l) l regions
      = .error (.regionNotNested (k + 1) (plan.extent (k + 1))) := by
  induction regions generalizing l with
  | nil =>
      have := List.drop_eq_nil_iff.1 hdrop
      omega
  | cons region regions ih =>
      obtain ⟨hl, rfl, hrest⟩ := of_drop_eq_cons hdrop
      have hnext : finer plan.ranks (plan.levelOf l)
          (.cut (plan.extent (l + 1)) plan.maxBoxLength) = plan.levelOf (l + 1) := by
        rw [Plan.levelOf, Plan.layoutOf_of_le (Nat.succ_le_of_lt hl)]
      rw [refinements, Plan.layout_levelOf]
      rcases hlk.eq_or_lt with rfl | hlt
      · rw [if_neg (mt (Plan.nested_iff_nests hl).1 hbad)]
      · rw [if_pos ((Plan.nested_iff_nests hl).2 (hnests l le_rfl hlt))]
        simp only
        rw [hnext, ih hrest hlt fun j hj => hnests j (Nat.le_of_succ_le hj)]

/-- The levels above the last region have no boxes. -/
lemma reserved_eq (hl : plan.refined.length ≤ l) :
    reserved plan.ranks (plan.levelOf l) n = (List.range' (l + 1) n).map plan.levelOf := by
  induction n generalizing l with
  | zero => rfl
  | succ n ih =>
      have hnext : finer plan.ranks (plan.levelOf l) ⟨#[]⟩ = plan.levelOf (l + 1) := by
        rw [Plan.levelOf, Plan.layoutOf_of_lt (Nat.lt_succ_of_le hl)]
      rw [reserved, hnext, ih (Nat.le_succ_of_le hl)]
      rfl

/-- The level of the last region. -/
private lemma getLastD_levels (plan : Plan K) (n : ℕ) :
    ((List.range' 1 n).map plan.levelOf).getLastD (plan.levelOf 0) = plan.levelOf n := by
  cases n with
  | zero => rfl
  | succ n => simp [List.range'_concat, List.getLastD_eq_getLast?, Nat.add_comm]

/-- The levels of a plan, one after another. -/
private lemma levels_append (plan : Plan K) {top : ℕ} (h : n ≤ top) :
    plan.levelOf 0 :: (List.range' 1 n).map plan.levelOf
        ++ (List.range' (n + 1) (top - n)).map plan.levelOf
      = (List.range (top + 1)).map plan.levelOf := by
  have hsplit : List.range' 1 n ++ List.range' (n + 1) (top - n) = List.range' 1 top := by
    have happend : List.range' 1 n ++ List.range' (1 + 1 * n) (top - n)
        = List.range' 1 (n + (top - n)) := List.range'_append
    rwa [Nat.one_mul, Nat.add_comm 1 n, Nat.add_sub_cancel' h] at happend
  rw [List.cons_append, ← List.map_append, hsplit, List.range_eq_range', List.range'_succ,
    List.map_cons]

private lemma base_eq (plan : Plan K) :
    (⟨plan.geometry, Layout.cut plan.geometry.domain plan.maxBoxLength,
      .dealt (Layout.cut plan.geometry.domain plan.maxBoxLength).count plan.ranks⟩ : MeshLevel K)
        = plan.levelOf 0 := by
  rw [Plan.levelOf, Plan.layoutOf_of_le (Nat.zero_le _)]
  rfl

/-- **A plan is built into its levels.** -/
theorem build_eq (hlength : 0 < plan.maxBoxLength) (htop : plan.refined.length ≤ plan.top)
    (hnests : ∀ l < plan.refined.length, plan.Nests l) :
    build plan = .ok ⟨.ofFn (plan.top + 1) plan.levelOf, plan.refined.length⟩ := by
  have hlevels : Levels.ofList ((List.range (plan.top + 1)).map plan.levelOf)
      = .ofFn (plan.top + 1) plan.levelOf := by
    simp [Levels.ofList, Levels.ofFn, ← List.toArray_range]
  have hnotless : ¬plan.topLevel?.getD plan.refined.length < plan.refined.length :=
    Nat.not_lt.2 htop
  rw [build, if_neg hlength.ne']
  simp only
  rw [if_neg hnotless, base_eq, refinements_eq (List.drop_zero ..) fun k _ => hnests k]
  simp only
  rw [getLastD_levels, reserved_eq le_rfl, ← Plan.top, levels_append plan htop, hlevels]

/-- A plan that cannot be built, and why. -/
private lemma build_zero (hlength : plan.maxBoxLength = 0) : build plan = .error .zeroBoxLength := by
  rw [build, if_pos hlength]

private lemma build_few (hlength : 0 < plan.maxBoxLength) (htop : plan.top < plan.refined.length) :
    build plan = .error (.tooFewLevels plan.top plan.refined.length) := by
  rw [build, if_neg hlength.ne']
  simp only
  rw [← Plan.top, if_pos htop]

private lemma build_notNested (hlength : 0 < plan.maxBoxLength)
    (htop : plan.refined.length ≤ plan.top) (hl : l < plan.refined.length)
    (hnests : ∀ k < l, plan.Nests k) (hbad : ¬plan.Nests l) :
    build plan = .error (.regionNotNested (l + 1) (plan.extent (l + 1))) := by
  have hregions := refinements_error (List.drop_zero ..) (Nat.zero_le l) hl (fun k _ => hnests k) hbad
  rw [build, if_neg hlength.ne']
  simp only
  rw [← Plan.top, if_neg (Nat.not_lt.2 htop), base_eq, hregions]

/-- Only plans whose regions are all nested are built. -/
lemma conditions_of_build (hbuild : build plan = .ok h) :
    0 < plan.maxBoxLength ∧ plan.refined.length ≤ plan.top ∧
      ∀ l < plan.refined.length, plan.Nests l := by
  have hlength : 0 < plan.maxBoxLength := by
    by_contra hzero
    rw [build_zero (Nat.eq_zero_of_not_pos hzero)] at hbuild
    cases hbuild
  have htop : plan.refined.length ≤ plan.top := by
    by_contra hfew
    rw [build_few hlength (Nat.not_le.1 hfew)] at hbuild
    cases hbuild
  refine ⟨hlength, htop, fun l => ?_⟩
  induction l using Nat.strong_induction_on with
  | _ l ih =>
      intro hl
      by_contra hbad
      rw [build_notNested hlength htop hl (fun k hk => ih k hk (hk.trans hl)) hbad] at hbuild
      cases hbuild

/-- A plan that is built has its own levels. -/
lemma eq_of_build (hbuild : build plan = .ok h) :
    h = ⟨.ofFn (plan.top + 1) plan.levelOf, plan.refined.length⟩ := by
  obtain ⟨hlength, htop, hnests⟩ := conditions_of_build hbuild
  rw [build_eq hlength htop hnests] at hbuild
  exact (Except.ok.inj hbuild).symm

/-- A mesh that was built has all levels with boxes. -/
lemma active_le_count (hbuild : build plan = .ok h) : h.active ≤ h.levels.count := by
  have htop := (conditions_of_build hbuild).2.1
  rw [eq_of_build hbuild, Levels.count_ofFn]
  exact Nat.succ_le_succ htop

/-! ### The contract of a mesh -/

section Contract

variable [Inhabited K]

/-- The contract of a mesh. Each level with boxes is what its plan says it covers, cut into boxes
that have cells, share none and keep to the length limit, inside a domain twice as fine as the one
below; the levels above have no boxes. -/
structure Sound (plan : Plan K) (h : Hierarchy K) : Prop where
  finest : h.finest = plan.refined.length
  topLevel : h.topLevel = plan.top
  finest_le : h.finest ≤ h.topLevel
  base : h.geometry 0 = plan.geometry
  refined : ∀ l < h.topLevel, (h.geometry (l + 1)).domain = (h.geometry l).domain.refine 2
  owners : ∀ l ≤ h.topLevel, (h.owners l).count = (h.layout l).count
  tiles : ∀ l ≤ h.finest, (h.layout l).Tiles (plan.extent l)
  within : ∀ l ≤ h.finest, (h.layout l).Within (h.geometry l).domain
  nonempty : ∀ l ≤ h.finest, (l = 0 → ∃ p, p ∈ plan.geometry.domain) →
    ∀ b ∈ (h.layout l).toList, ∃ p, p ∈ b
  length_le : ∀ l ≤ h.finest, ∀ b ∈ (h.layout l).toList, ∀ a, b.length a ≤ plan.maxBoxLength
  reserved : ∀ l, h.finest < l → l ≤ h.topLevel → (h.layout l).count = 0

omit [Inhabited K] in
/-- What a level covers lies in its domain, since the cells around a nested region do. -/
private lemma extent_within (hnests : ∀ l < plan.refined.length, plan.Nests l)
    (hl : l ≤ plan.refined.length) :
    ∀ p ∈ plan.extent l, p ∈ (plan.levelOf l).geometry.domain := by
  induction l with
  | zero => exact fun p hp => hp
  | succ l ih =>
      intro p hp
      obtain ⟨b, hb, hparent⟩ := (hnests l hl).2 p hp
      rw [Plan.layoutOf_of_le (Nat.le_of_succ_le hl)] at hb
      obtain ⟨i, hi, rfl⟩ := Layout.mem_toList.1 hb
      have hcoarse := ih (Nat.le_of_succ_le hl) _ ((Layout.cut_tiles _ _).within i hi _ hparent)
      exact (Box.mem_refine (by decide)).2 hcoarse

/-- **The levels of a plan keep the contract.** -/
theorem build_sound (hbuild : build plan = .ok h) : Sound plan h := by
  obtain ⟨hlength, htop, hnests⟩ := conditions_of_build hbuild
  have hlevels := eq_of_build hbuild
  have hfinest : h.finest = plan.refined.length := by rw [hlevels]
  have htoplevel : h.topLevel = plan.top := by
    rw [hlevels, topLevel, Levels.count_ofFn, Nat.add_sub_cancel]
  have hlevel : ∀ l ≤ h.topLevel, h.level l = plan.levelOf l := by
    intro l hl
    rw [htoplevel] at hl
    rw [hlevels, level, Levels.get_ofFn (Nat.lt_succ_of_le hl)]
  have hlayout : ∀ l ≤ h.topLevel, h.layout l = plan.layoutOf l := by
    intro l hl
    rw [layout, hlevel l hl, Plan.layout_levelOf]
  have hle : h.finest ≤ h.topLevel := by rw [hfinest, htoplevel]; exact htop
  have hcut : ∀ l ≤ h.finest, h.layout l = .cut (plan.extent l) plan.maxBoxLength := by
    intro l hl
    rw [hlayout l (hl.trans hle), Plan.layoutOf_of_le (hfinest ▸ hl)]
  have hmax : max 1 plan.maxBoxLength = plan.maxBoxLength := max_eq_right hlength
  refine ⟨hfinest, htoplevel, hle, ?_, fun l hl => ?_, fun l hl => ?_, fun l hl => ?_,
    fun l hl => ?_, fun l hl hbase b hb => ?_, fun l hl b hb a => ?_, fun l hlt hl => ?_⟩
  · rw [geometry, hlevel 0 (Nat.zero_le _)]
    rfl
  · rw [geometry, geometry, hlevel _ hl, hlevel l hl.le]
    rfl
  · rw [owners, hlevel l hl, hlayout l hl, Plan.count_owners_levelOf]
  · rw [hcut l hl]
    exact Layout.cut_tiles _ _
  · intro j hj q hq
    rw [geometry, hlevel l (hl.trans hle)]
    rw [hcut l hl] at hj hq
    exact extent_within hnests (hfinest ▸ hl) q ((Layout.cut_tiles _ _).within j hj q hq)
  · have hextent : ∃ p, p ∈ plan.extent l := by
      cases l with
      | zero => exact hbase rfl
      | succ l => exact (hnests l (hfinest ▸ hl)).1
    obtain ⟨p, hp⟩ := hextent
    rw [hcut l hl] at hb
    exact ⟨b.lo, Layout.nonempty_of_mem_cut hp hb⟩
  · rw [hcut l hl] at hb
    exact hmax ▸ Layout.length_le_of_mem_cut hb a
  · rw [hlayout l hl, Plan.layoutOf_of_lt (hfinest ▸ hlt)]
    rfl

/-- **All levels with boxes wrap around along the axes of the plan.** -/
theorem build_periodic (hbuild : build plan = .ok h) {l : ℕ} (hl : l < h.active) :
    (h.geometry l).periodic = plan.geometry.periodic := by
  have htop := (conditions_of_build hbuild).2.1
  have hlevels := eq_of_build hbuild
  have hlt : l < plan.top + 1 := by
    have hle : l ≤ plan.refined.length := by
      rw [hlevels] at hl
      exact Nat.le_of_lt_succ hl
    omega
  rw [geometry, level, hlevels, Levels.get_ofFn hlt, Plan.periodic_levelOf]

/-- **Which plans are built, into what, and why the others are refused.** A plan needs a length
limit that is not zero, storage for all of its regions, and regions that have cells, each of them
inside a box of the level below; of several faults the first one in this order is named, and of
several regions the first one. A mesh that was built keeps the contract of a mesh. -/
theorem build_exact (plan : Plan K) :
    ((∃ h, build plan = .ok h) ↔ 0 < plan.maxBoxLength ∧
      (∀ t ∈ plan.topLevel?, plan.refined.length ≤ t) ∧
      ∀ l < plan.refined.length, plan.Nests l) ∧
    (plan.maxBoxLength = 0 → build plan = .error .zeroBoxLength) ∧
    (0 < plan.maxBoxLength → ∀ t ∈ plan.topLevel?, t < plan.refined.length →
      build plan = .error (.tooFewLevels t plan.refined.length)) ∧
    (0 < plan.maxBoxLength → (∀ t ∈ plan.topLevel?, plan.refined.length ≤ t) →
      ∀ l (hl : l < plan.refined.length), (∀ k < l, plan.Nests k) → ¬plan.Nests l →
      build plan = .error (.regionNotNested (l + 1) plan.refined[l])) ∧
    ∀ h, build plan = .ok h → Sound plan h := by
  have htop : (∀ t ∈ plan.topLevel?, plan.refined.length ≤ t) ↔
      plan.refined.length ≤ plan.top := by
    rw [Plan.top]
    cases plan.topLevel? <;> simp
  rw [htop]
  refine ⟨⟨?_, ?_⟩, build_zero, fun hlength t ht hlt => ?_,
    fun hlength hle l hl hnests hbad => ?_, fun h => build_sound⟩
  · rintro ⟨h, hbuild⟩
    exact conditions_of_build hbuild
  · rintro ⟨hlength, hle, hnests⟩
    exact ⟨_, build_eq hlength hle hnests⟩
  · have hget : plan.top = t := by rw [Plan.top, ht, Option.getD_some]
    rw [build_few hlength (hget ▸ hlt), hget]
  · rw [build_notNested hlength hle hl hnests hbad, Plan.extent_succ hl]

end Contract

/-- A domain of four by four cells with one refined region, storage for one level more, and boxes
of at most two cells. -/
def patch (region : Box) : Plan ℕ where
  geometry := ⟨⟨⟨0, 0, 0⟩, ⟨3, 3, 0⟩, .cell⟩, ⟨0, 0, 0⟩, ⟨4, 4, 1⟩, .const false⟩
  maxBoxLength := 2
  refined := [region]
  topLevel? := some 2

/-- A region in the middle of the domain is built, and one that reaches over its end is refused. -/
theorem build_exact_patch :
    (∃ h, build (patch ⟨⟨2, 2, 0⟩, ⟨5, 5, 1⟩, .cell⟩) = .ok h ∧
      (h.layout 1).Tiles ⟨⟨2, 2, 0⟩, ⟨5, 5, 1⟩, .cell⟩ ∧ (h.layout 2).count = 0) ∧
    build (patch ⟨⟨2, 2, 0⟩, ⟨8, 5, 1⟩, .cell⟩)
      = .error (.regionNotNested 1 ⟨⟨2, 2, 0⟩, ⟨8, 5, 1⟩, .cell⟩) := by
  have hstorage : ∀ region, ∀ t ∈ (patch region).topLevel?, (patch region).refined.length ≤ t := by
    rintro region t ht
    obtain rfl : 2 = t := Option.some.inj ht
    exact one_le_two
  have hnests : ∀ region : Box, nested ((patch region).layoutOf 0) region = true ↔
      (patch region).Nests 0 := fun region => Plan.nested_iff_nests Nat.one_pos
  constructor
  · obtain ⟨hbuilt, -, -, -, hsound⟩ := build_exact (patch ⟨⟨2, 2, 0⟩, ⟨5, 5, 1⟩, .cell⟩)
    obtain ⟨h, hbuild⟩ := hbuilt.2 ⟨Nat.two_pos, hstorage _, fun l hl => by
      obtain rfl : l = 0 := Nat.lt_one_iff.1 hl
      exact (hnests _).1 (by decide +kernel)⟩
    have hs := hsound h hbuild
    have hfinest : h.finest = 1 := hs.finest
    have htop : h.topLevel = 2 := hs.topLevel
    exact ⟨h, hbuild, hs.tiles 1 hfinest.ge, hs.reserved 2 (by omega) (by omega)⟩
  · obtain ⟨-, -, -, hrefused, -⟩ := build_exact (patch ⟨⟨2, 2, 0⟩, ⟨8, 5, 1⟩, .cell⟩)
    exact hrefused Nat.two_pos (hstorage _) 0 Nat.one_pos (fun k hk => absurd hk k.not_lt_zero)
      (mt (hnests _).2 (by decide +kernel))

end Hierarchy

end MeshDiffusion
