import MeshDiffusion.Field.Levels
import MeshDiffusion.Index.Layout
import MeshDiffusion.Mesh.Geometry

/-!
Hierarchies of levels.

Each level is twice as fine as the one below it. Level 0 covers its domain, a finer level covers a
region inside the refined boxes of the level below, and levels above the finest one exist without
boxes, so that storage can be sized for them.

* `Hierarchy.Plan` says what to build: the geometry of level 0, the longest box, the number of
  ranks, the refined regions from coarse to fine, and the largest level;
* `Hierarchy.nested` compares a region with the boxes below it by counting cells;
* `Hierarchy.build` cuts every region into boxes, or names the first fault: a length limit of zero,
  then too few levels, then the first region that is empty or not nested.
-/

namespace MeshDiffusion

/-- One level: its geometry, its boxes and their owners. -/
structure MeshLevel (K : Type) where
  geometry : Geometry K
  layout : Layout
  owners : Ownership
deriving Inhabited

/-- Levels from the coarsest on, of which those up to the finest one have boxes. -/
structure Hierarchy (K : Type) where
  levels : Levels (MeshLevel K)
  finest : Nat
deriving Inhabited

namespace Hierarchy

variable {K : Type}

/-- What to build a hierarchy from. -/
structure Plan (K : Type) where
  geometry : Geometry K
  maxBoxLength : Nat := 32
  ranks : Nat := 1
  refined : List Box := []
  topLevel? : Option Nat := none

/-! ### Views -/

/-- The largest level. -/
def topLevel (h : Hierarchy K) : Nat := h.levels.count - 1

/-- The number of levels that have boxes. -/
def active (h : Hierarchy K) : Nat := h.finest + 1

/-- A level of the hierarchy. -/
def level [Inhabited K] (h : Hierarchy K) (l : Nat) : MeshLevel K := h.levels.get l

/-- The geometry of a level. -/
def geometry [Inhabited K] (h : Hierarchy K) (l : Nat) : Geometry K := (h.level l).geometry

/-- The boxes of a level. -/
def layout [Inhabited K] (h : Hierarchy K) (l : Nat) : Layout := (h.level l).layout

/-- The owners of the boxes of a level. -/
def owners [Inhabited K] (h : Hierarchy K) (l : Nat) : Ownership := (h.level l).owners

/-! ### Building -/

/-- The number of cells of a region in the refined boxes of a coarser layout, box by box. -/
def coveredCells (below : Layout) (region : Box) : Nat :=
  Box.total ((below.refine 2).toList.filterMap fun b => b.inter? region)

/-- A region with cells, all of them in the refined boxes of a coarser layout. -/
def nested (below : Layout) (region : Box) : Bool :=
  !region.isEmpty && coveredCells below region == region.size

/-- The level above another one, with the given boxes. -/
def finer (ranks : Nat) (below : MeshLevel K) (layout : Layout) : MeshLevel K :=
  ⟨{ below.geometry with domain := below.geometry.domain.refine 2 }, layout,
    .dealt layout.count ranks⟩

/-- The levels of the regions above level `l`, or the first region that is not nested. -/
def refinements (plan : Plan K) :
    MeshLevel K → (l : Nat) → List Box → Except MeshFault (List (MeshLevel K))
  | _, _, [] => .ok []
  | below, l, region :: regions =>
    if nested below.layout region then
      let next := finer plan.ranks below (.cut region plan.maxBoxLength)
      match refinements plan next (l + 1) regions with
      | .ok above => .ok (next :: above)
      | .error e => .error e
    else .error (.regionNotNested (l + 1) region)

/-- Levels without boxes above another one. -/
def reserved (ranks : Nat) : MeshLevel K → (count : Nat) → List (MeshLevel K)
  | _, 0 => []
  | below, count + 1 =>
    let next := finer ranks below ⟨#[]⟩
    next :: reserved ranks next count

/-- Builds the levels of a plan. -/
def build (plan : Plan K) : Except MeshFault (Hierarchy K) :=
  if plan.maxBoxLength = 0 then .error .zeroBoxLength
  else
    let finest := plan.refined.length
    let topLevel := plan.topLevel?.getD finest
    if topLevel < finest then .error (.tooFewLevels topLevel finest)
    else
      let layout := Layout.cut plan.geometry.domain plan.maxBoxLength
      let base : MeshLevel K := ⟨plan.geometry, layout, .dealt layout.count plan.ranks⟩
      match refinements plan base 0 plan.refined with
      | .ok above =>
        let built := base :: above
        .ok ⟨.ofList (built ++ reserved plan.ranks (above.getLastD base) (topLevel - finest)),
          finest⟩
      | .error e => .error e

/-- The hierarchy of a single level. -/
def uniform (geometry : Geometry K) (maxBoxLength : Nat) : Except MeshFault (Hierarchy K) :=
  build { geometry := geometry, maxBoxLength := maxBoxLength }

end Hierarchy

end MeshDiffusion
