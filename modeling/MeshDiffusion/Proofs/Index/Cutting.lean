import Mathlib.Algebra.Order.Floor.Div
import Mathlib.Tactic
import MeshDiffusion.Proofs.Index.Tiling

/-!
Boxes cut into pieces.

Along one axis the pieces follow each other without a gap and reach from one end of the box to the
other, so every coordinate lies in exactly one of them (`Box.exists_mem_cuts`,
`Box.pairwise_cuts`). No piece is longer than the limit (`Box.length_le_of_mem_cuts`), and none is
empty unless the box is (`Box.nonempty_of_mem_cuts`).

The three axes together:

* `Box.Precedes` is the order of the pieces, the first axis fastest
  (`Layout.pairwise_precedes_cut`);
* `Layout.cut_tiles`: the pieces of a box tile it;
* `Layout.Tiles.bounds?_eq`: the smallest box around a tiling is what it tiles;
* `Layout.cut_exact`: how many pieces there are, how long they are and in what order they come.
-/

namespace MeshDiffusion

namespace Box

variable {b : Box} {a : Axis} {m : ℕ} {c : ℤ × ℤ} {x : ℤ}

/-! ### The pieces of one axis -/

/-- The length of a piece: the first ones are one longer. -/
def cutLength (b : Box) (a : Axis) (m i : ℕ) : ℕ :=
  b.length a / b.pieces a m + if i < b.length a % b.pieces a m then 1 else 0

lemma pieces_pos (b : Box) (a : Axis) (m : ℕ) : 0 < b.pieces a m :=
  Nat.lt_of_lt_of_le Nat.one_pos (le_max_left ..)

lemma cutStart_zero (b : Box) (a : Axis) (m : ℕ) : b.cutStart a m 0 = b.lo.get a := by
  simp [cutStart]

lemma cutStart_succ (b : Box) (a : Axis) (m i : ℕ) :
    b.cutStart a m (i + 1) = b.cutStart a m i + b.cutLength a m i := by
  rw [cutStart, cutStart, cutLength]
  simp only [Nat.succ_mul]
  split_ifs <;> omega

/-- The last piece ends where the box ends. -/
lemma cutStart_pieces (b : Box) (a : Axis) (m : ℕ) :
    b.cutStart a m (b.pieces a m) = b.lo.get a + b.length a := by
  have hsplit := Nat.div_add_mod (b.length a) (b.pieces a m)
  have hextra := Nat.mod_lt (b.length a) (pieces_pos b a m)
  rw [cutStart]
  omega

lemma monotone_cutStart (b : Box) (a : Axis) (m : ℕ) : Monotone (b.cutStart a m) :=
  monotone_nat_of_le_succ fun i => by
    rw [cutStart_succ]
    omega

/-- There are enough pieces for the limit. -/
private lemma length_le_pieces_mul (b : Box) (a : Axis) (m : ℕ) :
    b.length a ≤ b.pieces a m * max 1 m := by
  have hlimit : 0 < max 1 m := Nat.lt_of_lt_of_le Nat.one_pos (le_max_left ..)
  calc b.length a ≤ (b.length a + max 1 m - 1) / max 1 m * max 1 m := by
        have hsplit := Nat.div_add_mod' (b.length a + max 1 m - 1) (max 1 m)
        have hrest := Nat.mod_lt (b.length a + max 1 m - 1) hlimit
        omega
    _ ≤ b.pieces a m * max 1 m := Nat.mul_le_mul_right _ (le_max_right ..)

lemma cutLength_le (b : Box) (a : Axis) (m i : ℕ) : b.cutLength a m i ≤ max 1 m := by
  have hsplit := Nat.div_add_mod (b.length a) (b.pieces a m)
  have htotal := length_le_pieces_mul b a m
  rw [cutLength]
  split_ifs with hi
  · -- A remainder is left, so the quotient stays below the limit.
    have hlt : b.pieces a m * (b.length a / b.pieces a m) < b.pieces a m * max 1 m := by omega
    exact Nat.lt_of_mul_lt_mul_left hlt
  · have hle : b.pieces a m * (b.length a / b.pieces a m) ≤ b.pieces a m * max 1 m := by omega
    exact Nat.le_of_mul_le_mul_left hle (pieces_pos b a m)

/-- There are no more pieces than points. -/
private lemma pieces_le_length (h : 0 < b.length a) : b.pieces a m ≤ b.length a := by
  refine max_le h ?_
  have hlimit : 1 ≤ max 1 m := le_max_left ..
  refine Nat.div_le_of_le_mul ?_
  have hmul : b.length a + max 1 m ≤ max 1 m * b.length a + 1 := by nlinarith
  omega

lemma cutLength_pos (h : 0 < b.length a) (i : ℕ) : 0 < b.cutLength a m i :=
  Nat.add_pos_left (Nat.div_pos (pieces_le_length h) (pieces_pos b a m)) _

/-! ### The list of pieces -/

lemma mem_cuts : c ∈ b.cuts a m ↔
    ∃ i < b.pieces a m, (b.cutStart a m i, b.cutStart a m (i + 1) - 1) = c := by
  simp [cuts]

/-- Every coordinate of a box lies in a piece. -/
theorem exists_mem_cuts (hlo : b.lo.get a ≤ x) (hhi : x ≤ b.hi.get a) (m : ℕ) :
    ∃ c ∈ b.cuts a m, c.1 ≤ x ∧ x ≤ c.2 := by
  -- A coordinate below the end of the first `n` pieces lies in one of them.
  have hfirst : ∀ n, x < b.cutStart a m n →
      ∃ i < n, b.cutStart a m i ≤ x ∧ x < b.cutStart a m (i + 1) := by
    intro n
    induction n with
    | zero =>
        intro hx
        rw [cutStart_zero] at hx
        omega
    | succ n ih =>
        intro hx
        by_cases hn : x < b.cutStart a m n
        · obtain ⟨i, hi, hpiece⟩ := ih hn
          exact ⟨i, by omega, hpiece⟩
        · exact ⟨n, by omega, not_lt.1 hn, hx⟩
  have hend : x < b.cutStart a m (b.pieces a m) := by
    rw [cutStart_pieces, length]
    omega
  obtain ⟨i, hi, hle, hlt⟩ := hfirst _ hend
  exact ⟨_, mem_cuts.2 ⟨i, hi, rfl⟩, hle, by omega⟩

/-- The coordinates of a piece are coordinates of the box. -/
lemma between_of_mem_cuts (hc : c ∈ b.cuts a m) (hlo : c.1 ≤ x) (hhi : x ≤ c.2) :
    b.lo.get a ≤ x ∧ x ≤ b.hi.get a := by
  obtain ⟨i, hi, rfl⟩ := mem_cuts.1 hc
  have hfirst := monotone_cutStart b a m (Nat.zero_le i)
  have hlast : b.cutStart a m (i + 1) ≤ b.cutStart a m (b.pieces a m) := monotone_cutStart b a m hi
  rw [cutStart_zero] at hfirst
  rw [cutStart_pieces, length] at hlast
  simp only at hlo hhi
  omega

/-- The pieces go from low to high and do not overlap. -/
theorem pairwise_cuts (b : Box) (a : Axis) (m : ℕ) :
    (b.cuts a m).Pairwise fun c d => c.2 < d.1 := by
  refine List.pairwise_map.2 (List.pairwise_lt_range.imp fun {i j} hij => ?_)
  have hle : b.cutStart a m (i + 1) ≤ b.cutStart a m j := monotone_cutStart b a m hij
  omega

/-- No piece is longer than the limit. -/
theorem length_le_of_mem_cuts (hc : c ∈ b.cuts a m) : (c.2 - c.1 + 1).toNat ≤ max 1 m := by
  obtain ⟨i, hi, rfl⟩ := mem_cuts.1 hc
  have hstep := cutStart_succ b a m i
  have hle := cutLength_le b a m i
  simp only
  omega

/-- The pieces of an axis with points have points. -/
theorem nonempty_of_mem_cuts (h : b.lo.get a ≤ b.hi.get a) (hc : c ∈ b.cuts a m) : c.1 ≤ c.2 := by
  obtain ⟨i, hi, rfl⟩ := mem_cuts.1 hc
  have hstep := cutStart_succ b a m i
  have hpos : 0 < b.cutLength a m i := cutLength_pos (by rw [length]; omega) i
  simp only
  omega

/-! ### The lengths of the pieces -/

@[simp] lemma length_cuts (b : Box) (a : Axis) (m : ℕ) : (b.cuts a m).length = b.pieces a m := by
  simp [cuts]

/-- There are as few pieces as the limit allows. -/
lemma pieces_eq_ceilDiv (h : 0 < b.length a) : b.pieces a m = b.length a ⌈/⌉ max 1 m := by
  have hlimit : 0 < max 1 m := Nat.lt_of_lt_of_le Nat.one_pos (le_max_left ..)
  rw [pieces, Nat.ceilDiv_eq_add_pred_div]
  exact max_eq_right (Nat.div_pos (by omega) hlimit)

/-- Longer pieces come first. -/
lemma antitone_cutLength (b : Box) (a : Axis) (m : ℕ) : Antitone (b.cutLength a m) := by
  intro i j hij
  rw [cutLength, cutLength]
  split_ifs <;> omega

/-- No piece is longer than another one by more than one. -/
lemma cutLength_le_add_one (b : Box) (a : Axis) (m i j : ℕ) :
    b.cutLength a m i ≤ b.cutLength a m j + 1 := by
  rw [cutLength, cutLength]
  split_ifs <;> omega

/-! ### The order of the pieces -/

/-- A box comes before another one, the first axis fastest: it lies in an earlier layer, or in an
earlier row of the same layer, or earlier in the same row. -/
def Precedes (b c : Box) : Prop :=
  b.hi.z < c.lo.z ∨ (b.lo.z = c.lo.z ∧ b.hi.z = c.hi.z) ∧
    (b.hi.y < c.lo.y ∨ (b.lo.y = c.lo.y ∧ b.hi.y = c.hi.y) ∧ b.hi.x < c.lo.x)

lemma Precedes.not_mem {c : Box} {q : Point} (h : b.Precedes c) (hq : q ∈ b) : q ∉ c := by
  obtain ⟨hx, hy, hz⟩ := hq
  rintro ⟨hx', hy', hz'⟩
  rcases h with hlayer | ⟨-, hrow | ⟨-, hplace⟩⟩ <;> omega

end Box

/-! ### The pieces of a box -/

namespace Layout

variable {domain b : Box} {m : ℕ}

/-- The piece of a box with a given piece of each axis. -/
def piece (domain : Box) (i j k : ℤ × ℤ) : Box :=
  ⟨⟨i.1, j.1, k.1⟩, ⟨i.2, j.2, k.2⟩, domain.centering⟩

lemma toList_cut (domain : Box) (m : ℕ) :
    (cut domain m).toList =
      (domain.cuts .z m).flatMap fun k => (domain.cuts .y m).flatMap fun j =>
        (domain.cuts .x m).map fun i => piece domain i j k := by
  simp [cut, ofList, toList, piece]

lemma mem_cut : b ∈ (cut domain m).toList ↔
    ∃ i ∈ domain.cuts .x m, ∃ j ∈ domain.cuts .y m, ∃ k ∈ domain.cuts .z m,
      piece domain i j k = b := by
  simp only [toList_cut, List.mem_flatMap, List.mem_map]
  constructor
  · rintro ⟨k, hk, j, hj, i, hi, h⟩
    exact ⟨i, hi, j, hj, k, hk, h⟩
  · rintro ⟨i, hi, j, hj, k, hk, h⟩
    exact ⟨k, hk, j, hj, i, hi, h⟩

lemma mem_piece {i j k : ℤ × ℤ} {q : Point} : q ∈ piece domain i j k ↔
    (i.1 ≤ q.x ∧ q.x ≤ i.2) ∧ (j.1 ≤ q.y ∧ q.y ≤ j.2) ∧ k.1 ≤ q.z ∧ q.z ≤ k.2 := Iff.rfl

/-- The pieces come layer by layer and row by row. -/
lemma pairwise_precedes_cut (domain : Box) (m : ℕ) :
    (cut domain m).toList.Pairwise Box.Precedes := by
  rw [toList_cut]
  refine List.pairwise_flatMap.2 ⟨fun k _ => List.pairwise_flatMap.2 ⟨fun j _ => ?_, ?_⟩, ?_⟩
  · exact List.pairwise_map.2 ((Box.pairwise_cuts domain .x m).imp fun hlt =>
      .inr ⟨⟨rfl, rfl⟩, .inr ⟨⟨rfl, rfl⟩, hlt⟩⟩)
  · refine (Box.pairwise_cuts domain .y m).imp fun {j j'} hlt b hb c hc => ?_
    obtain ⟨i, -, rfl⟩ := List.mem_map.1 hb
    obtain ⟨i', -, rfl⟩ := List.mem_map.1 hc
    exact .inr ⟨⟨rfl, rfl⟩, .inl hlt⟩
  · refine (Box.pairwise_cuts domain .z m).imp fun {k k'} hlt b hb c hc => ?_
    obtain ⟨j, -, hb⟩ := List.mem_flatMap.1 hb
    obtain ⟨i, -, rfl⟩ := List.mem_map.1 hb
    obtain ⟨j', -, hc⟩ := List.mem_flatMap.1 hc
    obtain ⟨i', -, rfl⟩ := List.mem_map.1 hc
    exact .inl hlt

/-- **The pieces of a box tile it.** -/
theorem cut_tiles (domain : Box) (m : ℕ) : (cut domain m).Tiles domain where
  within n hn q hq := by
    obtain ⟨i, hi, j, hj, k, hk, hpiece⟩ := mem_cut.1 (mem_toList.2 ⟨n, hn, rfl⟩)
    rw [← hpiece] at hq
    obtain ⟨hx, hy, hz⟩ := mem_piece.1 hq
    exact ⟨Box.between_of_mem_cuts hi hx.1 hx.2, Box.between_of_mem_cuts hj hy.1 hy.2,
      Box.between_of_mem_cuts hk hz.1 hz.2⟩
  disjoint := disjoint_of_pairwise ((pairwise_precedes_cut domain m).imp fun h _ => h.not_mem)
  covers q hq := by
    obtain ⟨hx, hy, hz⟩ := hq
    obtain ⟨i, hi, hxi⟩ := Box.exists_mem_cuts (a := .x) hx.1 hx.2 m
    obtain ⟨j, hj, hyj⟩ := Box.exists_mem_cuts (a := .y) hy.1 hy.2 m
    obtain ⟨k, hk, hzk⟩ := Box.exists_mem_cuts (a := .z) hz.1 hz.2 m
    obtain ⟨n, hn, hbox⟩ := mem_toList.1 (mem_cut.2 ⟨i, hi, j, hj, k, hk, rfl⟩)
    exact ⟨n, hn, hbox ▸ mem_piece.2 ⟨hxi, hyj, hzk⟩⟩

/-- No piece of a box is longer than the limit along any axis. -/
theorem length_le_of_mem_cut (hb : b ∈ (cut domain m).toList) (a : Axis) :
    b.length a ≤ max 1 m := by
  obtain ⟨i, hi, j, hj, k, hk, rfl⟩ := mem_cut.1 hb
  cases a with
  | x => exact Box.length_le_of_mem_cuts hi
  | y => exact Box.length_le_of_mem_cuts hj
  | z => exact Box.length_le_of_mem_cuts hk

/-- The pieces of a box with points have points. -/
theorem nonempty_of_mem_cut {q : Point} (hq : q ∈ domain) (hb : b ∈ (cut domain m).toList) :
    b.lo ∈ b := by
  have hdomain : ∀ a, domain.lo.get a ≤ domain.hi.get a := fun a => by
    have := Box.mem_iff.1 hq a
    omega
  obtain ⟨i, hi, j, hj, k, hk, rfl⟩ := mem_cut.1 hb
  exact mem_piece.2 ⟨⟨le_rfl, Box.nonempty_of_mem_cuts (hdomain .x) hi⟩,
    ⟨le_rfl, Box.nonempty_of_mem_cuts (hdomain .y) hj⟩,
    ⟨le_rfl, Box.nonempty_of_mem_cuts (hdomain .z) hk⟩⟩

/-- Along every axis a piece of a box is one of the pieces of that axis. -/
lemma exists_cut_of_mem_cut (hb : b ∈ (cut domain m).toList) (a : Axis) :
    ∃ n, b.lo.get a = domain.cutStart a m n ∧ b.length a = domain.cutLength a m n := by
  have hlength {c : ℤ × ℤ} (hc : c ∈ domain.cuts a m) :
      ∃ n, c.1 = domain.cutStart a m n ∧ (c.2 - c.1 + 1).toNat = domain.cutLength a m n := by
    obtain ⟨n, -, rfl⟩ := Box.mem_cuts.1 hc
    have hstep := Box.cutStart_succ domain a m n
    exact ⟨n, rfl, by simp only; omega⟩
  obtain ⟨i, hi, j, hj, k, hk, rfl⟩ := mem_cut.1 hb
  cases a with
  | x => exact hlength hi
  | y => exact hlength hj
  | z => exact hlength hk

/-- There is a piece of the box for every choice of a piece of each axis. -/
lemma count_cut (domain : Box) (m : ℕ) :
    (cut domain m).count = domain.pieces .x m * domain.pieces .y m * domain.pieces .z m := by
  have hrow (j k : ℤ × ℤ) :
      ((domain.cuts .x m).map fun i => piece domain i j k).length = domain.pieces .x m := by simp
  have hlayer (k : ℤ × ℤ) : ((domain.cuts .y m).flatMap fun j =>
      (domain.cuts .x m).map fun i => piece domain i j k).length
        = domain.pieces .y m * domain.pieces .x m := by
    rw [Box.length_flatMap_block fun j _ => hrow j k, Box.length_cuts]
  calc (cut domain m).count = (cut domain m).toList.length := by simp [count, toList]
    _ = domain.pieces .z m * (domain.pieces .y m * domain.pieces .x m) := by
        rw [toList_cut, Box.length_flatMap_block fun k _ => hlayer k, Box.length_cuts]
    _ = domain.pieces .x m * domain.pieces .y m * domain.pieces .z m := by ring

/-! ### The smallest box around a tiling -/

/-- The box around several boxes has the smallest of their low ends and the largest of their high
ends along every axis. -/
lemma get_foldl_hull (b : Box) (bs : List Box) (a : Axis) :
    (bs.foldl hull b).lo.get a = (bs.map fun c => c.lo.get a).foldl min (b.lo.get a) ∧
      (bs.foldl hull b).hi.get a = (bs.map fun c => c.hi.get a).foldl max (b.hi.get a) := by
  induction bs generalizing b with
  | nil => exact ⟨rfl, rfl⟩
  | cons c bs ih => simpa [hull] using ih (hull b c)

lemma centering_foldl_hull (b : Box) (bs : List Box) :
    (bs.foldl hull b).centering = b.centering := by
  induction bs generalizing b with
  | nil => rfl
  | cons c bs ih => exact ih (hull b c)

/-- A box with the smallest low ends and the largest high ends of several boxes is the smallest one
around them. -/
lemma bounds?_eq_some {l : Layout} {b : Box}
    (hcentering : ∀ c ∈ l.toList, c.centering = b.centering)
    (hlo : ∀ a, (l.toList.map fun c => c.lo.get a).min? = some (b.lo.get a))
    (hhi : ∀ a, (l.toList.map fun c => c.hi.get a).max? = some (b.hi.get a)) :
    l.bounds? = some b := by
  rw [bounds?]
  cases hboxes : l.toList with
  | nil => exact absurd (hlo .x) (by simp [hboxes])
  | cons c cs =>
      simp only [hboxes, List.map_cons, List.min?_cons', List.max?_cons', Option.some.injEq]
        at hlo hhi
      have hlow : (cs.foldl hull c).lo = b.lo :=
        Triple.ext_get fun a => (get_foldl_hull c cs a).1.trans (hlo a)
      have hhigh : (cs.foldl hull c).hi = b.hi :=
        Triple.ext_get fun a => (get_foldl_hull c cs a).2.trans (hhi a)
      have hkind : (cs.foldl hull c).centering = b.centering :=
        (centering_foldl_hull c cs).trans (hcentering c (hboxes ▸ List.mem_cons_self))
      exact congrArg some (Box.mk.injEq .. |>.mpr ⟨hlow, hhigh, hkind⟩)

/-- The smallest box around a tiling by boxes with points is what they tile. -/
theorem Tiles.bounds?_eq {l : Layout} (h : l.Tiles domain) (hcells : domain.isEmpty = false)
    (hpoints : ∀ c ∈ l.toList, c.isEmpty = false)
    (hcentering : ∀ c ∈ l.toList, c.centering = domain.centering) : l.bounds? = some domain := by
  obtain ⟨p, hp⟩ := Box.isEmpty_eq_false_iff.1 hcells
  have hinside : ∀ c ∈ l.toList, ∀ a,
      domain.lo.get a ≤ c.lo.get a ∧ c.hi.get a ≤ domain.hi.get a := by
    intro c hc a
    obtain ⟨q, hq⟩ := Box.isEmpty_eq_false_iff.1 (hpoints c hc)
    obtain ⟨j, hj, rfl⟩ := mem_toList.1 hc
    exact h.within.corners hj hq a
  -- The boxes that hold the corners of the domain have the least and the largest ends.
  have hreach : ∀ q ∈ domain, ∃ c ∈ l.toList, q ∈ c := by
    intro q hq
    obtain ⟨j, hj, hmem⟩ := h.covers q hq
    exact ⟨_, mem_toList.2 ⟨j, hj, rfl⟩, hmem⟩
  have hends (a : Axis) : domain.lo.get a ≤ domain.hi.get a :=
    (Box.mem_iff.1 hp a).1.trans (Box.mem_iff.1 hp a).2
  obtain ⟨c, hc, hlow⟩ := hreach domain.lo (Box.mem_iff.2 fun a => ⟨le_rfl, hends a⟩)
  obtain ⟨d, hd, hhigh⟩ := hreach domain.hi (Box.mem_iff.2 fun a => ⟨hends a, le_rfl⟩)
  refine bounds?_eq_some hcentering (fun a => List.min?_eq_some_iff.2 ⟨?_, ?_⟩)
    fun a => List.max?_eq_some_iff.2 ⟨?_, ?_⟩
  · exact List.mem_map.2 ⟨c, hc, le_antisymm (Box.mem_iff.1 hlow a).1 (hinside c hc a).1⟩
  · simpa using fun e he => (hinside e he a).1
  · exact List.mem_map.2 ⟨d, hd, le_antisymm (hinside d hd a).2 (Box.mem_iff.1 hhigh a).2⟩
  · simpa using fun e he => (hinside e he a).2

/-! ### What cutting a box gives -/

/-- **A box with points is cut exactly.** The pieces have points, stand for what the box stands for,
and are no longer than the limit along any axis. No two share a point, every point of the box lies
in exactly one of them and no other point in any. Along an axis their lengths differ by at most one,
longer ones first; there are as many as the limit needs on each axis; their smallest box is the box
itself; and they come with the first axis fastest, then the second, then the third. -/
theorem cut_exact (hcells : domain.isEmpty = false) (m : ℕ) :
    (∀ b ∈ (cut domain m).toList, b.isEmpty = false ∧ b.centering = domain.centering ∧
      ∀ a, b.length a ≤ max 1 m) ∧
    ((cut domain m).toList.Pairwise fun b c => ∀ q ∈ b, q ∉ c) ∧
    (∀ q ∈ domain, ∃! j, j < (cut domain m).count ∧ q ∈ (cut domain m).box j) ∧
    (∀ b ∈ (cut domain m).toList, ∀ q ∈ b, q ∈ domain) ∧
    (∀ b ∈ (cut domain m).toList, ∀ c ∈ (cut domain m).toList, ∀ a,
      b.length a ≤ c.length a + 1 ∧ (b.lo.get a < c.lo.get a → c.length a ≤ b.length a)) ∧
    (cut domain m).count = (domain.length .x ⌈/⌉ max 1 m) * (domain.length .y ⌈/⌉ max 1 m)
      * (domain.length .z ⌈/⌉ max 1 m) ∧
    (cut domain m).bounds? = some domain ∧
    (cut domain m).toList.Pairwise Box.Precedes := by
  obtain ⟨p, hp⟩ := Box.isEmpty_eq_false_iff.1 hcells
  have htiles := cut_tiles domain m
  have hpieces : ∀ b ∈ (cut domain m).toList,
      b.isEmpty = false ∧ b.centering = domain.centering := by
    intro b hb
    refine ⟨Box.isEmpty_eq_false_iff.2 ⟨_, nonempty_of_mem_cut hp hb⟩, ?_⟩
    obtain ⟨i, -, j, -, k, -, rfl⟩ := mem_cut.1 hb
    rfl
  refine ⟨fun b hb => ⟨(hpieces b hb).1, (hpieces b hb).2, length_le_of_mem_cut hb⟩, ?_,
    fun q hq => htiles.existsUnique hq, ?_, fun b hb c hc a => ?_, ?_, ?_, ?_⟩
  · exact (pairwise_precedes_cut domain m).imp fun h _ => h.not_mem
  · intro b hb q hq
    obtain ⟨j, hj, rfl⟩ := mem_toList.1 hb
    exact htiles.within j hj q hq
  · obtain ⟨i, hi, hbi⟩ := exists_cut_of_mem_cut hb a
    obtain ⟨j, hj, hcj⟩ := exists_cut_of_mem_cut hc a
    rw [hi, hj, hbi, hcj]
    refine ⟨Box.cutLength_le_add_one .., fun hlt => ?_⟩
    exact Box.antitone_cutLength domain a m ((Box.monotone_cutStart domain a m).reflect_lt hlt).le
  · have hpieces (a : Axis) : domain.pieces a m = domain.length a ⌈/⌉ max 1 m :=
      Box.pieces_eq_ceilDiv (Box.length_pos hcells a)
    rw [count_cut, hpieces, hpieces, hpieces]
  · exact htiles.bounds?_eq hcells (fun b hb => (hpieces b hb).1) fun b hb => (hpieces b hb).2
  · exact pairwise_precedes_cut domain m

/-- Five by three faces with corners on both sides of the origin, cut at two: pieces of two, two and
one along the first axis, of two and one along the second, the first axis fastest. -/
theorem cut_exact_slab :
    let slab : Box := ⟨⟨-3, 2, -1⟩, ⟨1, 4, -1⟩, .face .y⟩
    slab.isEmpty = false ∧ (cut slab 2).bounds? = some slab ∧ (cut slab 2).count = 6 ∧
    (cut slab 2).toList.map (fun b => (b.lo, b.hi)) =
      [(⟨-3, 2, -1⟩, ⟨-2, 3, -1⟩), (⟨-1, 2, -1⟩, ⟨0, 3, -1⟩), (⟨1, 2, -1⟩, ⟨1, 3, -1⟩),
        (⟨-3, 4, -1⟩, ⟨-2, 4, -1⟩), (⟨-1, 4, -1⟩, ⟨0, 4, -1⟩), (⟨1, 4, -1⟩, ⟨1, 4, -1⟩)] ∧
    ∃! j, j < (cut slab 2).count ∧ ⟨0, 4, -1⟩ ∈ (cut slab 2).box j := by
  intro slab
  have hslab : slab.isEmpty = false := by decide
  obtain ⟨-, -, hone, -, -, hcount, hbounds, -⟩ := cut_exact hslab 2
  exact ⟨hslab, hbounds, hcount.trans (by decide), by decide, hone _ (by decide)⟩

end Layout

end MeshDiffusion
