import Mathlib.Tactic
import MeshDiffusion.Mesh.Hierarchy
import MeshDiffusion.Proofs.Index.PointSets
import MeshDiffusion.Proofs.Index.Tiling

/-!
Nested regions.

A region is compared with the boxes of a coarser level by counting: the cells that it shares with
each refined box, summed over the boxes, against its own cells. Boxes without a common cell have
refinements without a common cell, so no cell of the region counts twice, and the two numbers agree
exactly when every cell of the region lies in a refined box (`Hierarchy.nested_iff`).
-/

namespace MeshDiffusion

namespace Box

/-- The cell of a coarser level that a cell lies in. -/
def parent (p : Point) : Point := p.map (· / 2)

/-- The common cells of a region and each of several boxes, counted box by box. -/
lemma total_filterMap_inter? (bs : List Box) (region : Box) :
    total (bs.filterMap fun b => b.inter? region)
      = (bs.flatMap fun b => (b.meet region).points).length := by
  induction bs with
  | nil => rfl
  | cons b bs ih =>
      rw [List.flatMap_cons, List.length_append, length_points]
      by_cases hempty : (b.meet region).isEmpty = true
      · have hnone : b.inter? region = none := if_pos hempty
        rw [size_eq_zero_of_isEmpty hempty, Nat.zero_add, ← ih, List.filterMap_cons]
        simp only [hnone]
      · have hsome : b.inter? region = some (b.meet region) := if_neg hempty
        rw [← ih, List.filterMap_cons]
        simp only [hsome, total]

end Box

namespace Hierarchy

variable {below : Layout} {region : Box}

/-- The cells of a region that lie in the refined boxes of a coarser layout, box by box. -/
def shared (below : Layout) (region : Box) : List Point :=
  below.toList.flatMap fun b => ((b.refine 2).meet region).points

lemma coveredCells_eq (below : Layout) (region : Box) :
    coveredCells below region = (shared below region).length := by
  have hboxes : (below.refine 2).toList = below.toList.map (·.refine 2) := by
    simp [Layout.refine, Layout.toList]
  rw [coveredCells, hboxes, Box.total_filterMap_inter?, List.flatMap_map, shared]

lemma mem_shared {p : Point} :
    p ∈ shared below region ↔ p ∈ region ∧ ∃ b ∈ below.toList, Box.parent p ∈ b := by
  simp only [shared, List.mem_flatMap, Box.mem_points, Box.mem_meet,
    Box.mem_refine (show (0 : ℤ) < 2 by decide), Box.parent]
  constructor
  · rintro ⟨b, hb, hmem, hp⟩
    exact ⟨hp, b, hb, hmem⟩
  · rintro ⟨hp, b, hb, hmem⟩
    exact ⟨b, hb, hmem, hp⟩

/-- No cell is listed twice, since the coarse cell around it lies in one box only. -/
lemma nodup_shared (h : below.Disjoint) (region : Box) : (shared below region).Nodup := by
  rw [shared, Layout.toList_eq_map, List.flatMap_map]
  refine List.nodup_flatMap.2 ⟨fun i _ => Box.nodup_points _, ?_⟩
  refine List.nodup_range.imp_of_mem fun {i j} hi hj hne => ?_
  rw [Function.onFun, List.disjoint_left]
  intro p hpi hpj
  rw [Box.mem_points, Box.mem_meet, Box.mem_refine (by decide)] at hpi hpj
  exact hne (h i (List.mem_range.1 hi) j (List.mem_range.1 hj) _ hpi.1 hpj.1)

/-- **A region is nested when it has cells and all of them lie in refined boxes.** -/
theorem nested_iff (h : below.Disjoint) :
    nested below region = true ↔
      (∃ p, p ∈ region) ∧ ∀ p ∈ region, ∃ b ∈ below.toList, Box.parent p ∈ b := by
  have hsubset : shared below region ⊆ region.points := fun p hp =>
    Box.mem_points.2 (mem_shared.1 hp).1
  have hcount : coveredCells below region = region.size ↔
      ∀ p ∈ region, ∃ b ∈ below.toList, Box.parent p ∈ b := by
    rw [coveredCells_eq, ← Box.length_points]
    constructor
    · intro hlength p hp
      have hperm := ((nodup_shared h region).subperm hsubset).perm_of_length_le hlength.ge
      exact (mem_shared.1 (hperm.mem_iff.2 (Box.mem_points.2 hp))).2
    · intro hall
      refine ((List.perm_ext_iff_of_nodup (nodup_shared h region)
        (Box.nodup_points region)).2 fun p => ⟨fun hp => hsubset hp, fun hp => ?_⟩).length_eq
      have hmem := Box.mem_points.1 hp
      exact mem_shared.2 ⟨hmem, hall p hmem⟩
  rw [nested, Bool.and_eq_true, Bool.not_eq_true', Box.isEmpty_eq_false_iff, beq_iff_eq, hcount]

end Hierarchy

end MeshDiffusion
