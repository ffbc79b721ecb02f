import MeshDiffusion.Index.Point

/-!
Boxes of points.

A box is given by its low and its high corner, both inside, and by what its points stand for: cells,
or the faces normal to an axis (`Centering`). Membership is decided axis by axis (`Box.mem_iff`).

* `Box.points` lists the points of a box, the first axis fastest (`Box.mem_points`,
  `Box.length_points`);
* `Box.offset` is the place of a point in that list (`Box.points_getElem?_offset`,
  `Box.offset_lt_size`), and `Box.pointAt` the point at a place (`Box.points_getElem?`,
  `Box.offset_pointAt`);
* `Box.next?` is the point after a point, found by one step along the first axis that has room, and
  `Box.walk` follows such steps; it goes through the list of points (`Box.getElem?_bind_next?`,
  `Box.walk_getElem?`, `Box.firstPoints_eq_take`);
* `Box.grow`, `Box.shift`, `Box.faces`, `Box.cells`, `Box.refine`, `Box.coarsen` and `Box.inter?`
  move, convert and cut boxes; each has a membership lemma or is a plain change of corners.
-/

namespace MeshDiffusion

/-! ### Boxes and their points -/

/-- What the points of a box stand for. Face `i` along its axis lies between the cells
`i - 1` and `i`. -/
inductive Centering where
  | cell
  | face (axis : Axis)
deriving DecidableEq, Inhabited

/-- The points between two corners, both included. A box is empty when its high corner lies below
its low corner along some axis. -/
structure Box where
  lo : Point
  hi : Point
  centering : Centering := .cell
deriving DecidableEq, Inhabited

namespace Box

/-- A point lies in a box when it lies between the corners along every axis. -/
def Holds (b : Box) (p : Point) : Prop :=
  (b.lo.x ≤ p.x ∧ p.x ≤ b.hi.x) ∧ (b.lo.y ≤ p.y ∧ p.y ≤ b.hi.y) ∧ b.lo.z ≤ p.z ∧ p.z ≤ b.hi.z

instance : Membership Point Box := ⟨Holds⟩

@[inline] instance decidableMem (b : Box) (p : Point) : Decidable (p ∈ b) :=
  inferInstanceAs (Decidable (_ ∧ _ ∧ _ ∧ _))

theorem mem_iff {b : Box} {p : Point} :
    p ∈ b ↔ ∀ a, b.lo.get a ≤ p.get a ∧ p.get a ≤ b.hi.get a := by
  rw [Axis.forall_axis]
  rfl

theorem mk_mem_iff {b : Box} {x y z : Int} :
    (⟨x, y, z⟩ : Point) ∈ b ↔
      (b.lo.x ≤ x ∧ x ≤ b.hi.x) ∧ (b.lo.y ≤ y ∧ y ≤ b.hi.y) ∧ b.lo.z ≤ z ∧ z ≤ b.hi.z :=
  Iff.rfl

/-- A box without points. -/
def isEmpty (b : Box) : Bool := Axis.all.any fun a => b.hi.get a < b.lo.get a

/-- The number of points along an axis. -/
def length (b : Box) (a : Axis) : Nat := (b.hi.get a - b.lo.get a + 1).toNat

/-- The number of points of a box. -/
def size (b : Box) : Nat := b.length .x * b.length .y * b.length .z

/-- The number of points of several boxes, box by box. -/
def total : List Box → Nat
  | [] => 0
  | b :: bs => b.size + total bs

/-- The integers from `lo` on, `n` of them. -/
def interval (lo : Int) (n : Nat) : List Int := (List.range n).map fun (i : Nat) => lo + i

/-- The points of a box, the first axis fastest. -/
def points (b : Box) : List Point :=
  (interval b.lo.z (b.length .z)).flatMap fun k =>
    (interval b.lo.y (b.length .y)).flatMap fun j =>
      (interval b.lo.x (b.length .x)).map fun i => ⟨i, j, k⟩

/-- The point at a place of `Box.points`. -/
def pointAt (b : Box) (i : Nat) : Point :=
  ⟨b.lo.x + (i % b.length .x : Nat), b.lo.y + (i / b.length .x % b.length .y : Nat),
    b.lo.z + (i / (b.length .y * b.length .x) : Nat)⟩

/-- The place of a point of the box in `Box.points`. -/
def offset (b : Box) (p : Point) : Nat :=
  ((p.z - b.lo.z).toNat * b.length .y + (p.y - b.lo.y).toNat) * b.length .x + (p.x - b.lo.x).toNat

/-! ### Walking through a box -/

/-- One step along the first of some axes that is not at its high corner, with the axes before it
back at their low corner; none when all of them are at their high corner. -/
def stepAlong (b : Box) : List Axis → Point → Option Point
  | [], _ => none
  | a :: axes, p =>
    if p.get a < b.hi.get a then some (p.move a 1) else b.stepAlong axes (p.set a (b.lo.get a))

/-- The point after a point of the box, the first axis fastest. -/
def next? (b : Box) (p : Point) : Option Point := b.stepAlong Axis.all p

/-- The point that a walk through the box starts from. -/
def first? (b : Box) : Option Point := if b.isEmpty then none else some b.lo

/-- The points of a walk from a point on, at most `n` of them. -/
def walk (b : Box) : (n : Nat) → Option Point → List Point
  | 0, _ => []
  | _ + 1, none => []
  | n + 1, some p => p :: b.walk n (b.next? p)

/-- The first points of a box, found without listing the others (`Box.firstPoints_eq_take`). -/
def firstPoints (b : Box) (n : Nat) : List Point := b.walk n b.first?

/-! ### Moving, converting and cutting boxes -/

/-- Moves every side outwards by `n`. -/
def grow (b : Box) (n : Int) : Box :=
  { b with lo := b.lo.map (· - n), hi := b.hi.map (· + n) }

/-- Moves the two sides of one axis outwards by `n`. -/
def growAlong (b : Box) (a : Axis) (n : Int) : Box :=
  { b with lo := b.lo.move a (-n), hi := b.hi.move a n }

/-- Moves a box as a whole. -/
def shift (b : Box) (s : Point) : Box := { b with lo := b.lo + s, hi := b.hi + s }

/-- The faces normal to an axis that bound the cells of a box. -/
def faces (b : Box) (a : Axis) : Box := ⟨b.lo, b.hi.move a 1, .face a⟩

/-- The cells between the faces of a box; a box of cells stays as it is. -/
def cells (b : Box) : Box :=
  match b.centering with
  | .cell => b
  | .face a => ⟨b.lo, b.hi.move a (-1), .cell⟩

/-- The box between the larger low corner and the smaller high corner. -/
def meet (b c : Box) : Box :=
  { b with
    lo := .ofFn fun a => max (b.lo.get a) (c.lo.get a)
    hi := .ofFn fun a => min (b.hi.get a) (c.hi.get a) }

/-- The common points of two boxes, if there are any. -/
def inter? (b c : Box) : Option Box :=
  if (b.meet c).isEmpty then none else some (b.meet c)

/-- Every point of `c` lies in `b`. -/
def covers (b c : Box) : Bool := c.isEmpty || decide (c.lo ∈ b) && decide (c.hi ∈ b)

/-- Every cell split into `r` cells along each axis. -/
def refine (b : Box) (r : Int) : Box :=
  { b with lo := b.lo.map (· * r), hi := b.hi.map fun h => (h + 1) * r - 1 }

/-- The cells whose refinement by `r` meets the corners of the box. -/
def coarsen (b : Box) (r : Int) : Box :=
  { b with lo := b.lo.map (· / r), hi := b.hi.map (· / r) }

/-- Coarsening by a ratio, which cannot be zero. -/
def coarsen? (b : Box) (r : Int) : Option Box := if r = 0 then none else some (b.coarsen r)

/-- The corners of a box, with the kind of its faces. -/
def label (b : Box) : String :=
  let corner (p : Point) := "(" ++ ",".intercalate (p.toList.map toString) ++ ")"
  "(" ++ corner b.lo ++ " " ++ corner b.hi ++ ")" ++ match b.centering with
    | .cell => ""
    | .face a => " " ++ a.label ++ "-faces"

/-! ### Membership -/

@[simp] theorem mem_grow {b : Box} {n : Int} {p : Point} :
    p ∈ b.grow n ↔ ∀ a, b.lo.get a - n ≤ p.get a ∧ p.get a ≤ b.hi.get a + n := by
  simp [mem_iff, grow]

theorem mem_grow_zero {b : Box} {p : Point} : p ∈ b.grow 0 ↔ p ∈ b := by
  simp [mem_iff, grow]

theorem mem_grow_of_mem {b : Box} {p : Point} (n : Nat) (h : p ∈ b) : p ∈ b.grow n := by
  refine mem_grow.2 fun a => ?_
  have := mem_iff.1 h a
  omega

theorem move_mem_grow {b : Box} {p : Point} {a : Axis} {z : Int} (h : p ∈ b)
    (hz : z = 1 ∨ z = -1) : p.move a z ∈ b.grow 1 := by
  refine mem_grow.2 fun c => ?_
  have := mem_iff.1 h c
  rw [Point.get_move]
  split <;> omega

theorem mem_faces {b : Box} {a : Axis} {p : Point} :
    p ∈ b.faces a ↔
      ∀ c, b.lo.get c ≤ p.get c ∧ p.get c ≤ if c = a then b.hi.get c + 1 else b.hi.get c := by
  simp [mem_iff, faces, Point.get_move]

@[simp] theorem mem_shift {b : Box} {s p : Point} : p ∈ b.shift s ↔ p - s ∈ b := by
  simp only [mem_iff, shift, Triple.get_add, Triple.get_sub]
  exact forall_congr' fun a => by omega

@[simp] theorem mem_meet {b c : Box} {p : Point} : p ∈ b.meet c ↔ p ∈ b ∧ p ∈ c := by
  simp only [mem_iff, meet, Triple.get_ofFn, ← forall_and]
  exact forall_congr' fun a => by omega

/-- An empty box has no points. -/
theorem isEmpty_iff {b : Box} : b.isEmpty = true ↔ ∀ p, p ∉ b := by
  simp only [isEmpty, List.any_eq_true, Axis.mem_all, true_and, decide_eq_true_eq]
  constructor
  · rintro ⟨a, ha⟩ p hp
    have := mem_iff.1 hp a
    omega
  · intro h
    refine Classical.byContradiction fun hne => h b.lo (mem_iff.2 fun a => ?_)
    have : ¬ b.hi.get a < b.lo.get a := fun hlt => hne ⟨a, hlt⟩
    omega

/-- A box that is not empty has a point. -/
theorem isEmpty_eq_false_iff {b : Box} : b.isEmpty = false ↔ ∃ p, p ∈ b := by
  rw [← Bool.not_eq_true, isEmpty_iff, Classical.not_forall]
  exact exists_congr fun p => Classical.not_not

theorem size_eq_zero_of_isEmpty {b : Box} (h : b.isEmpty = true) : b.size = 0 := by
  simp only [isEmpty, List.any_eq_true, Axis.mem_all, true_and, decide_eq_true_eq] at h
  obtain ⟨a, ha⟩ := h
  have : b.length a = 0 := by rw [length]; omega
  cases a <;> simp [size, this]

/-- The corners of a box with a point lie in it. -/
theorem lo_mem {b : Box} {p : Point} (h : p ∈ b) : b.lo ∈ b := by
  refine mem_iff.2 fun a => ?_
  have := mem_iff.1 h a
  omega

theorem hi_mem {b : Box} {p : Point} (h : p ∈ b) : b.hi ∈ b := by
  refine mem_iff.2 fun a => ?_
  have := mem_iff.1 h a
  omega

/-- A box that is not empty has points along every axis. -/
theorem length_pos {b : Box} (h : b.isEmpty = false) (a : Axis) : 0 < b.length a := by
  obtain ⟨p, hp⟩ := isEmpty_eq_false_iff.1 h
  have := mem_iff.1 hp a
  rw [length]
  omega

/-! ### The list of points -/

@[simp] theorem length_interval (lo : Int) (n : Nat) : (interval lo n).length = n := by
  simp [interval]

@[simp] theorem mem_interval {lo i : Int} {n : Nat} :
    i ∈ interval lo n ↔ lo ≤ i ∧ i < lo + n := by
  simp only [interval, List.mem_map, List.mem_range]
  constructor
  · rintro ⟨k, hk, rfl⟩
    omega
  · rintro ⟨h₁, h₂⟩
    exact ⟨(i - lo).toNat, by omega, by omega⟩

theorem interval_getElem? {lo i : Int} {n : Nat} (h₁ : lo ≤ i) (h₂ : i < lo + n) :
    (interval lo n)[(i - lo).toNat]? = some i := by
  have : (i - lo).toNat < n := by omega
  simp only [interval, List.getElem?_map, List.getElem?_range this, Option.map_some,
    Option.some.injEq]
  omega

/-- Blocks of one length fill that length each. -/
theorem length_flatMap_block {α β : Type} {f : α → List β} {m : Nat} :
    ∀ {l : List α}, (∀ a ∈ l, (f a).length = m) → (l.flatMap f).length = l.length * m
  | [], _ => by simp
  | a :: l, h => by
    have ih := length_flatMap_block (l := l) fun c hc => h c (by simp [hc])
    rw [List.flatMap_cons, List.length_append, h a (by simp), ih, List.length_cons, Nat.succ_mul,
      Nat.add_comm]

/-- Blocks of one length stand one after another. -/
theorem getElem?_flatMap_block {α β : Type} {f : α → List β} {m : Nat} :
    ∀ {l : List α}, (∀ a ∈ l, (f a).length = m) → ∀ {i r : Nat} {a : α},
      l[i]? = some a → r < m → (l.flatMap f)[i * m + r]? = (f a)[r]?
  | [], _, _, _, _, hi, _ => by simp at hi
  | b :: l, h, 0, r, a, hi, hr => by
    obtain rfl : b = a := by simpa using hi
    have hb := h b (by simp)
    simp [List.getElem?_append_left, hb, hr]
  | b :: l, h, i + 1, r, a, hi, hr => by
    have hb := h b (by simp)
    have ih := getElem?_flatMap_block (l := l) (fun c hc => h c (by simp [hc]))
      (i := i) (r := r) (a := a) (by simpa using hi) hr
    rw [List.flatMap_cons, List.getElem?_append_right (by rw [hb, Nat.succ_mul]; omega), hb, ← ih]
    congr 1
    rw [Nat.succ_mul]
    omega

@[simp] theorem mem_points {b : Box} {p : Point} : p ∈ b.points ↔ p ∈ b := by
  simp only [points, List.mem_flatMap, List.mem_map, mem_interval, mem_iff, Axis.forall_axis,
    length, Triple.get]
  constructor
  · rintro ⟨k, hk, j, hj, i, hi, rfl⟩
    dsimp only
    omega
  · intro h
    exact ⟨p.z, by omega, p.y, by omega, p.x, by omega, rfl⟩

private theorem length_row (b : Box) (j k : Int) :
    ((interval b.lo.x (b.length .x)).map fun i => (⟨i, j, k⟩ : Point)).length = b.length .x := by
  simp

private theorem length_plane (b : Box) (k : Int) :
    ((interval b.lo.y (b.length .y)).flatMap fun j =>
      (interval b.lo.x (b.length .x)).map fun i => (⟨i, j, k⟩ : Point)).length
      = b.length .y * b.length .x := by
  rw [length_flatMap_block fun j _ => length_row b j k, length_interval]

@[simp] theorem length_points (b : Box) : b.points.length = b.size := by
  rw [points, length_flatMap_block fun k _ => length_plane b k, length_interval, size]
  rw [Nat.mul_comm (b.length .y), Nat.mul_comm]

/-- A point of a box stands in its list of points at its offset. -/
theorem points_getElem?_offset {b : Box} {p : Point} (h : p ∈ b) :
    b.points[b.offset p]? = some p := by
  have hx : b.lo.x ≤ p.x ∧ p.x < b.lo.x + b.length .x := by
    have := mem_iff.1 h .x
    simp only [length, Triple.get] at this ⊢
    omega
  have hy : b.lo.y ≤ p.y ∧ p.y < b.lo.y + b.length .y := by
    have := mem_iff.1 h .y
    simp only [length, Triple.get] at this ⊢
    omega
  have hz : b.lo.z ≤ p.z ∧ p.z < b.lo.z + b.length .z := by
    have := mem_iff.1 h .z
    simp only [length, Triple.get] at this ⊢
    omega
  -- The offset splits into the plane, the row in the plane and the place in the row.
  have hrow : (p.x - b.lo.x).toNat < b.length .x := by omega
  have hplane : (p.y - b.lo.y).toNat * b.length .x + (p.x - b.lo.x).toNat
      < b.length .y * b.length .x := by
    have : (p.y - b.lo.y).toNat + 1 ≤ b.length .y := by omega
    have := Nat.mul_le_mul_right (b.length .x) this
    rw [Nat.succ_mul] at this
    omega
  have hsplit : b.offset p = (p.z - b.lo.z).toNat * (b.length .y * b.length .x)
      + ((p.y - b.lo.y).toNat * b.length .x + (p.x - b.lo.x).toNat) := by
    rw [offset, Nat.add_mul, Nat.mul_assoc, Nat.add_assoc]
  rw [hsplit, points, getElem?_flatMap_block (fun k _ => length_plane b k)
      (interval_getElem? hz.1 hz.2) hplane,
    getElem?_flatMap_block (fun j _ => length_row b j p.z) (interval_getElem? hy.1 hy.2) hrow,
    List.getElem?_map, interval_getElem? hx.1 hx.2]
  rfl

theorem interval_getElem?_of_lt (lo : Int) {i n : Nat} (h : i < n) :
    (interval lo n)[i]? = some (lo + i) := by
  simp [interval, h]

/-- The list of points goes by the place. -/
theorem points_getElem? {b : Box} {i : Nat} (h : i < b.size) :
    b.points[i]? = some (b.pointAt i) := by
  -- No length can be zero, so the place splits by division.
  have hpos : 0 < b.length .x ∧ 0 < b.length .y := by
    rcases Nat.eq_zero_or_pos (b.length .x) with hx | hx
    · simp [size, hx] at h
    · rcases Nat.eq_zero_or_pos (b.length .y) with hy | hy
      · simp [size, hy] at h
      · exact ⟨hx, hy⟩
  have hplanes : 0 < b.length .y * b.length .x := Nat.mul_pos hpos.2 hpos.1
  have hz : i / (b.length .y * b.length .x) < b.length .z := by
    rw [Nat.div_lt_iff_lt_mul hplanes]
    have : b.size = b.length .z * (b.length .y * b.length .x) := by
      rw [size, Nat.mul_comm (b.length .y), Nat.mul_comm]
    omega
  have hplane : i % (b.length .y * b.length .x) < b.length .y * b.length .x := Nat.mod_lt _ hplanes
  have hy : i % (b.length .y * b.length .x) / b.length .x < b.length .y := by
    rw [Nat.div_lt_iff_lt_mul hpos.1]
    exact hplane
  have hx : i % (b.length .y * b.length .x) % b.length .x < b.length .x := Nat.mod_lt _ hpos.1
  have hrow : i % (b.length .y * b.length .x) / b.length .x * b.length .x
      + i % (b.length .y * b.length .x) % b.length .x = i % (b.length .y * b.length .x) := by
    rw [Nat.mul_comm]
    exact Nat.div_add_mod ..
  have hsplit : i / (b.length .y * b.length .x) * (b.length .y * b.length .x)
      + i % (b.length .y * b.length .x) = i := by
    rw [Nat.mul_comm]
    exact Nat.div_add_mod ..
  rw [← hsplit, points, getElem?_flatMap_block (fun k _ => length_plane b k)
      (interval_getElem?_of_lt _ hz) hplane, ← hrow,
    getElem?_flatMap_block (fun j _ => length_row b j _) (interval_getElem?_of_lt _ hy) hx,
    List.getElem?_map, interval_getElem?_of_lt _ hx, hrow, hsplit, pointAt]
  simp [Nat.mod_mul_left_div_self]

/-- The point at a place has that place as its offset. -/
theorem offset_pointAt (b : Box) (i : Nat) : b.offset (b.pointAt i) = i := by
  have key : ∀ (lo : Int) (k : Nat), (lo + k - lo).toNat = k := fun lo k => by omega
  rw [offset, pointAt, key, key, key, Nat.mul_comm (b.length .y), ← Nat.div_div_eq_div_mul,
    Nat.div_add_mod', Nat.div_add_mod']

theorem pointAt_mem {b : Box} {i : Nat} (h : i < b.size) : b.pointAt i ∈ b :=
  mem_points.1 (List.mem_of_getElem? (points_getElem? h))

theorem offset_lt_size {b : Box} {p : Point} (h : p ∈ b) : b.offset p < b.size := by
  rw [← length_points]
  exact (List.getElem?_eq_some_iff.1 (points_getElem?_offset h)).1

/-! ### The walk follows the list -/

/-- The three ways to go on from a point, by the first axis that has room. -/
theorem next?_eq_ite (b : Box) (p : Point) :
    b.next? p =
      if p.x < b.hi.x then some ⟨p.x + 1, p.y, p.z⟩
      else if p.y < b.hi.y then some ⟨b.lo.x, p.y + 1, p.z⟩
      else if p.z < b.hi.z then some ⟨b.lo.x, b.lo.y, p.z + 1⟩
      else none := rfl

/-- Along each axis the places up to a point of a box and the places after it make up the length. -/
theorem steps_add_one {b : Box} {p : Point} (h : p ∈ b) (a : Axis) :
    (p.get a - b.lo.get a).toNat + 1 + (b.hi.get a - p.get a).toNat = b.length a := by
  have := mem_iff.1 h a
  rw [length]
  omega

/-- From a point of a box a walk goes on to the point at the next place of the list, and it ends at
the point at the last place. -/
theorem next?_cases {b : Box} {p : Point} (h : p ∈ b) :
    (∃ q, b.next? p = some q ∧ q ∈ b ∧ b.offset q = b.offset p + 1) ∨
      b.next? p = none ∧ b.offset p + 1 = b.size := by
  obtain ⟨hx, hy, hz⟩ := mk_mem_iff.1 h
  have hlx := steps_add_one h .x
  have hly := steps_add_one h .y
  have hlz := steps_add_one h .z
  simp only [Triple.get] at hlx hly hlz
  rw [next?_eq_ite]
  split
  · next hroom =>
    refine .inl ⟨_, rfl, mk_mem_iff.2 ⟨by omega, hy, hz⟩, ?_⟩
    have hnext : (p.x + 1 - b.lo.x).toNat = (p.x - b.lo.x).toNat + 1 := by omega
    rw [offset, hnext, ← Nat.add_assoc]
    rfl
  · next hendx =>
    -- The row is at its end.
    have hrow : (p.x - b.lo.x).toNat + 1 = b.length .x := by omega
    split
    · next hroom =>
      refine .inl ⟨_, rfl, mk_mem_iff.2 ⟨by omega, by omega, hz⟩, ?_⟩
      have hnext : (p.y + 1 - b.lo.y).toNat = (p.y - b.lo.y).toNat + 1 := by omega
      simp only [offset, hnext, ← Nat.add_assoc, Nat.succ_mul, Int.sub_self, Int.toNat_zero]
      omega
    · next hendy =>
      -- The plane is at its end as well.
      have hplane : (p.y - b.lo.y).toNat + 1 = b.length .y := by omega
      have hlast : b.offset p + 1
          = ((p.z - b.lo.z).toNat + 1) * b.length .y * b.length .x := by
        rw [offset, Nat.add_assoc, hrow, ← Nat.succ_mul, Nat.succ_mul (p.z - b.lo.z).toNat,
          ← hplane]
        rfl
      split
      · next hroom =>
        refine .inl ⟨_, rfl, mk_mem_iff.2 ⟨by omega, by omega, by omega⟩, ?_⟩
        have hnext : (p.z + 1 - b.lo.z).toNat = (p.z - b.lo.z).toNat + 1 := by omega
        rw [hlast]
        simp only [offset, hnext, Int.sub_self, Int.toNat_zero, Nat.add_zero]
      · next hendz =>
        have hlayer : (p.z - b.lo.z).toNat + 1 = b.length .z := by omega
        refine .inr ⟨rfl, ?_⟩
        rw [hlast, hlayer, size, Nat.mul_assoc, Nat.mul_comm, Nat.mul_comm (b.length .y)]

/-- A walk goes on from the point at a place to the point at the next place. -/
theorem next?_eq_getElem? {b : Box} {p : Point} (h : p ∈ b) :
    b.next? p = b.points[b.offset p + 1]? := by
  rcases next?_cases h with ⟨q, hq, hmem, hoff⟩ | ⟨hnone, hend⟩
  · rw [hq, ← hoff, points_getElem?_offset hmem]
  · rw [hnone, hend, List.getElem?_eq_none (Nat.le_of_eq (length_points b))]

/-- A walk starts from the point at the first place. -/
theorem first?_eq_getElem? (b : Box) : b.first? = b.points[0]? := by
  rw [first?]
  split
  · next hempty =>
    have hsize : b.points.length = 0 := by rw [length_points, size_eq_zero_of_isEmpty hempty]
    rw [List.getElem?_eq_none (Nat.le_of_eq hsize)]
  · next hpoints =>
    obtain ⟨p, hp⟩ := isEmpty_eq_false_iff.1 (Bool.eq_false_iff.2 hpoints)
    have hoff : b.offset b.lo = 0 := by simp [offset]
    rw [← points_getElem?_offset (lo_mem hp), hoff]

/-- One step of a walk from a place of the list leads to the next place, also past the end. -/
theorem getElem?_bind_next? (b : Box) (k : Nat) : b.points[k]?.bind b.next? = b.points[k + 1]? := by
  rcases Nat.lt_or_ge k b.size with hk | hk
  · rw [points_getElem? hk, Option.bind_some, next?_eq_getElem? (pointAt_mem hk), offset_pointAt]
  · have hend : ∀ i, k ≤ i → b.points[i]? = none := fun i hi =>
      List.getElem?_eq_none (by rw [length_points]; omega)
    rw [hend k (Nat.le_refl k), hend (k + 1) (Nat.le_succ k), Option.bind_none]

/-- A walk from a place of the list follows the list. -/
theorem walk_getElem? (b : Box) (n k : Nat) : b.walk n b.points[k]? = (b.points.drop k).take n := by
  induction n generalizing k with
  | zero => simp [walk]
  | succ n ih =>
    have hstep := getElem?_bind_next? b k
    cases hp : b.points[k]? with
    | none => rw [walk, List.drop_eq_nil_of_le (List.getElem?_eq_none_iff.1 hp), List.take_nil]
    | some p =>
      obtain ⟨hk, rfl⟩ := List.getElem?_eq_some_iff.1 hp
      rw [hp, Option.bind_some] at hstep
      rw [walk, hstep, ih, List.drop_eq_getElem_cons hk, List.take_succ_cons]

/-- The first points are the start of the list of points. -/
theorem firstPoints_eq_take (b : Box) (n : Nat) : b.firstPoints n = b.points.take n := by
  rw [firstPoints, first?_eq_getElem?, walk_getElem?, List.drop_zero]

end Box

end MeshDiffusion
