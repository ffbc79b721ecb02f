import Mathlib.Tactic
import MeshDiffusion.Proofs.Access.Places

/-!
Walking through a box and addressing its values.

A walk through a box steps from point to point without counting, and a block stores its values at
computed places without walking. The two fit: the place of a value is the number of steps to its
point, component after component.

* `Box.reached` is the point that a walk reaches after some steps; it goes through the list of
  points (`Box.reached_eq_getElem?`) in one order (`Point.Before`, `Box.before_of_reached`);
* `Block.index_eq_strided` is the place of a value in terms of the lengths of the box, and
  `Block.component?_eq` the list of one component;
* `addressing_exact`: every point is reached once, and every place belongs to one value.
-/

namespace MeshDiffusion

/-! ### The order of the points -/

namespace Point

variable {p q r : Point}

/-- The order of a walk: the last axis decides, then the second, then the first. -/
def Before (p q : Point) : Prop :=
  p.z < q.z ∨ p.z = q.z ∧ (p.y < q.y ∨ p.y = q.y ∧ p.x < q.x)

lemma Before.trans (h : p.Before q) (h' : q.Before r) : p.Before r := by
  unfold Before at *
  omega

end Point

namespace Box

variable {b : Box} {p q : Point}

/-- A step leads to a later point. -/
lemma before_of_next? (h : b.next? p = some q) : p.Before q := by
  rw [next?_eq_ite] at h
  split_ifs at h <;> cases h
  · exact .inr ⟨rfl, .inr ⟨rfl, Int.lt_succ _⟩⟩
  · exact .inr ⟨rfl, .inl (Int.lt_succ _)⟩
  · exact .inl (Int.lt_succ _)

/-! ### Walking through a box -/

/-- The point that a walk through a box reaches after some steps, if it has not ended. -/
def reached (b : Box) (k : ℕ) : Option Point := (fun p? => p?.bind b.next?)^[k] b.first?

/-- A walk goes through the list of points. -/
lemma reached_eq_getElem? (b : Box) (k : ℕ) : b.reached k = b.points[k]? := by
  induction k with
  | zero => exact b.first?_eq_getElem?
  | succ k ih => rw [reached, Function.iterate_succ_apply', ← reached, ih, getElem?_bind_next?]

/-- A walk ends after as many steps as the box has points. -/
lemma isSome_reached_iff {k : ℕ} : (b.reached k).isSome = true ↔ k < b.size := by
  rw [reached_eq_getElem?, isSome_getElem?, length_points]

/-- A walk reaches a point after as many steps as its offset says, and not again. -/
lemma reached_eq_some_iff {k : ℕ} : b.reached k = some p ↔ p ∈ b ∧ b.offset p = k := by
  rw [reached_eq_getElem?]
  constructor
  · intro h
    have hk : k < b.size := b.length_points ▸ (List.getElem?_eq_some_iff.1 h).1
    obtain rfl : b.pointAt k = p := Option.some.inj ((points_getElem? hk).symm.trans h)
    exact ⟨pointAt_mem hk, offset_pointAt b k⟩
  · rintro ⟨hp, rfl⟩
    exact points_getElem?_offset hp

/-- A walk never turns back. -/
lemma before_of_reached {j k : ℕ} (hlt : j < k) (hp : b.reached j = some p)
    (hq : b.reached k = some q) : p.Before q := by
  induction k generalizing q with
  | zero => omega
  | succ k ih =>
      have hstep : (b.reached k).bind b.next? = some q := by
        rw [← hq, reached_eq_getElem?, reached_eq_getElem?, getElem?_bind_next?]
      obtain ⟨r, hr, hnext⟩ := Option.bind_eq_some_iff.1 hstep
      rcases Nat.lt_succ_iff_lt_or_eq.1 hlt with hjk | rfl
      · exact (ih hjk hr).trans (before_of_next? hnext)
      · obtain rfl : p = r := Option.some.inj (hp.symm.trans hr)
        exact before_of_next? hnext

/-- Only an empty box has no points. -/
lemma size_eq_zero_iff : b.size = 0 ↔ b.isEmpty = true := by
  refine ⟨fun hsize => isEmpty_iff.2 fun p hp => ?_, size_eq_zero_of_isEmpty⟩
  have := offset_lt_size hp
  omega

end Box

/-! ### Places of values -/

namespace Block

variable {K : Type} {c : Block K} {p : Point} {n : ℕ}

/-- The place of a value by the lengths of the box, one axis inside the other. -/
lemma index_eq_strided : c.index p n
    = ((n * c.region.length .z + (p.z - c.region.lo.z).toNat) * c.region.length .y
        + (p.y - c.region.lo.y).toNat) * c.region.length .x + (p.x - c.region.lo.x).toNat := by
  rw [index, Box.size, Box.offset]
  ring

/-- The values of a component stand in the order of the points. -/
lemma component?_eq [Inhabited K] (hn : n < c.ncomp) :
    c.component? n = some (c.region.points.map fun p => c.get p n).toArray := by
  have hroom : (n + 1) * c.region.size ≤ c.values.size := by
    rw [c.size_values]
    exact Nat.mul_le_mul_right _ hn
  have hlength : (n + 1) * c.region.size - n * c.region.size = c.region.size := by
    rw [Nat.succ_mul, Nat.add_sub_cancel_left]
  rw [component?, if_pos hroom]
  refine congrArg some (Array.ext_getElem? fun k => ?_)
  rw [Array.getElem?_extract, Nat.min_eq_left hroom, hlength]
  split_ifs with hk
  · have hread := getElem?_index (Box.pointAt_mem hk) hn
    rw [index, Box.offset_pointAt] at hread
    simp [hread, Box.points_getElem? hk]
  · simpa using Nat.not_lt.1 hk

/-- The places that are in use. -/
lemma lt_size_values_iff {k : ℕ} :
    k < c.values.size ↔ ∃ p ∈ c.region, ∃ n < c.ncomp, c.index p n = k := by
  constructor
  · intro hk
    rw [c.size_values] at hk
    have hpos : 0 < c.region.size := Nat.pos_of_ne_zero fun h0 => by simp [h0] at hk
    refine ⟨_, Box.pointAt_mem (Nat.mod_lt k hpos), _, (Nat.div_lt_iff_lt_mul hpos).2 hk, ?_⟩
    rw [index, Box.offset_pointAt, Nat.div_add_mod']
  · rintro ⟨p, hp, n, hn, rfl⟩
    exact index_lt hp hn

end Block

/-! ### Steps and places -/

/-- **Walking and addressing are one numbering.** A walk through any box

* reaches only points of the box, and each of them after exactly one number of steps;
* ends after as many steps as the box has points, at once in an empty box;
* goes up in the order of the axes, and is what the list of points and its beginnings hold.

In a block of any number of components

* the place of a value is the number of steps to its point, after those of all components before;
  it is what the lengths of the box give, axis by axis;
* different values have different places, and the places are those of the stored values;
* a component lists the readings in the order of the walk;
* a written value is read where it was written, and nowhere else. -/
theorem addressing_exact :
    (∀ b : Box,
      (∀ k p, b.reached k = some p → p ∈ b) ∧
      (∀ p ∈ b, ∃! k, b.reached k = some p) ∧
      (∀ k, (b.reached k).isSome = true ↔ k < b.size) ∧
      (b.size = 0 ↔ b.isEmpty = true) ∧
      (∀ j k p q, j < k → b.reached j = some p → b.reached k = some q → p.Before q) ∧
      (∀ k, b.points[k]? = b.reached k) ∧
      ∀ n, b.firstPoints n = b.points.take n) ∧
    ∀ (K : Type) [Inhabited K] (c : Block K),
      (∀ p n k, c.region.reached k = some p → c.index p n = n * c.region.size + k) ∧
      (∀ p n, c.index p n
        = ((n * c.region.length .z + (p.z - c.region.lo.z).toNat) * c.region.length .y
            + (p.y - c.region.lo.y).toNat) * c.region.length .x + (p.x - c.region.lo.x).toNat) ∧
      (∀ p ∈ c.region, ∀ q ∈ c.region, ∀ n m, c.index p n = c.index q m → p = q ∧ n = m) ∧
      (∀ k, k < c.values.size ↔ ∃ p ∈ c.region, ∃ n < c.ncomp, c.index p n = k) ∧
      (∀ p ∈ c.region, ∀ n < c.ncomp, c.values[c.index p n]? = some (c.get p n)) ∧
      (∀ n < c.ncomp,
        c.component? n = some (c.region.points.map fun p => c.get p n).toArray) ∧
      ∀ p ∈ c.region, ∀ n < c.ncomp, ∀ v q m,
        (c.set p n v).get q m = if q = p ∧ m = n then v else c.get q m := by
  constructor
  · intro b
    refine ⟨fun k p h => (Box.reached_eq_some_iff.1 h).1, fun p hp => ?_,
      fun k => Box.isSome_reached_iff, Box.size_eq_zero_iff,
      fun j k p q hlt hp hq => Box.before_of_reached hlt hp hq,
      fun k => (b.reached_eq_getElem? k).symm, b.firstPoints_eq_take⟩
    exact ⟨b.offset p, Box.reached_eq_some_iff.2 ⟨hp, rfl⟩,
      fun k hk => (Box.reached_eq_some_iff.1 hk).2.symm⟩
  · intro K _ c
    refine ⟨fun p n k h => ?_, fun p n => Block.index_eq_strided,
      fun p hp q hq n m h => Block.index_inj hp hq h, fun k => Block.lt_size_values_iff,
      fun p hp n hn => Block.getElem?_index hp hn, fun n hn => Block.component?_eq hn,
      fun p hp n hn v q m => Block.get_set hp hn v q m⟩
    rw [Block.index, (Box.reached_eq_some_iff.1 h).2]

/-- Four cells that meet at the origin. -/
private def fourCells : Box := ⟨⟨-1, -1, 0⟩, ⟨0, 0, 0⟩, .cell⟩

/-- Two components on them. -/
private def fourPairs : Block ℕ := .const fourCells 2 7

/-- In four cells that meet at the origin the walk turns into the second row after two steps and
ends after four, and the last cell of the second component is the last of eight values. -/
theorem addressing_exact_fourCells :
    fourCells.reached 2 = some ⟨-1, 0, 0⟩ ∧ fourCells.reached 3 = some ⟨0, 0, 0⟩ ∧
    Point.Before ⟨-1, 0, 0⟩ ⟨0, 0, 0⟩ ∧ (fourCells.reached 4).isSome = false ∧
    fourPairs.index ⟨0, 0, 0⟩ 1 = 7 ∧ fourPairs.values.size = 8 ∧
    (fourPairs.set ⟨0, 0, 0⟩ 1 3).get ⟨0, 0, 0⟩ 1 = 3 ∧
    (fourPairs.set ⟨0, 0, 0⟩ 1 3).get ⟨0, 0, 0⟩ 0 = fourPairs.get ⟨0, 0, 0⟩ 0 := by
  obtain ⟨-, -, hends, -, hordered, -⟩ := addressing_exact.1 fourCells
  obtain ⟨hplace, -, -, -, -, -, hset⟩ := addressing_exact.2 ℕ fourPairs
  have hturn : fourCells.reached 2 = some ⟨-1, 0, 0⟩ := by decide
  have hlast : fourCells.reached 3 = some ⟨0, 0, 0⟩ := by decide
  have hmem : (⟨0, 0, 0⟩ : Point) ∈ fourPairs.region := by decide
  have hsize : fourCells.size = 4 := by decide
  refine ⟨hturn, hlast, hordered 2 3 _ _ (by decide) hturn hlast, ?_, ?_, ?_, ?_, ?_⟩
  · rw [← Bool.not_eq_true, hends, hsize]
    decide
  · exact hplace _ 1 3 hlast
  · exact fourPairs.size_values
  · exact hset _ hmem 1 (by decide) 3 _ _
  · exact hset _ hmem 1 (by decide) 3 _ _

end MeshDiffusion
