import MeshDiffusion.Index.Axis

/-!
Triples indexed by the axes, and the points of the index space.

* `Triple α` holds one value per axis; `Triple.get` and `Triple.ofFn` are inverse to each other
  (`Triple.get_ofFn`, `Triple.ofFn_get`), and two triples with the same entries are equal
  (`Triple.ext_get`);
* `Point` is a triple of integers, with addition and subtraction entry by entry.
-/

namespace MeshDiffusion

/-- One value for each axis. -/
@[ext] structure Triple (α : Type) where
  x : α
  y : α
  z : α
deriving DecidableEq, Inhabited

namespace Triple

variable {α β γ : Type}

/-- The entry of an axis. -/
@[inline] def get (t : Triple α) : Axis → α
  | .x => t.x
  | .y => t.y
  | .z => t.z

/-- The triple with a given entry for each axis. -/
@[inline] def ofFn (f : Axis → α) : Triple α := ⟨f .x, f .y, f .z⟩

/-- The triple with one value on every axis. -/
def const (a : α) : Triple α := ⟨a, a, a⟩

/-- Replaces the entry of one axis. -/
def set (t : Triple α) (a : Axis) (v : α) : Triple α :=
  match a with
  | .x => { t with x := v }
  | .y => { t with y := v }
  | .z => { t with z := v }

/-- Applies a function to every entry. -/
def map (f : α → β) (t : Triple α) : Triple β := ⟨f t.x, f t.y, f t.z⟩

/-- The entries in the order of the axes. -/
def toList (t : Triple α) : List α := [t.x, t.y, t.z]

@[simp] theorem get_ofFn (f : Axis → α) (a : Axis) : (ofFn f).get a = f a := by cases a <;> rfl

@[simp] theorem ofFn_get (t : Triple α) : ofFn t.get = t := rfl

@[simp] theorem get_const (v : α) (a : Axis) : (const v).get a = v := by cases a <;> rfl

@[simp] theorem get_map (f : α → β) (t : Triple α) (a : Axis) : (t.map f).get a = f (t.get a) := by
  cases a <;> rfl

theorem get_set (t : Triple α) (a b : Axis) (v : α) :
    (t.set a v).get b = if b = a then v else t.get b := by
  cases a <;> cases b <;> rfl

@[simp] theorem get_set_self (t : Triple α) (a : Axis) (v : α) : (t.set a v).get a = v := by
  simp [get_set]

@[simp] theorem set_set (t : Triple α) (a : Axis) (v w : α) : (t.set a v).set a w = t.set a w := by
  cases a <;> rfl

@[simp] theorem set_get (t : Triple α) (a : Axis) : t.set a (t.get a) = t := by cases a <;> rfl

/-- Two triples with the same entries are equal. -/
theorem ext_get {s t : Triple α} (h : ∀ a, s.get a = t.get a) : s = t :=
  Triple.ext (h .x) (h .y) (h .z)

instance [Add α] : Add (Triple α) := ⟨fun s t => ⟨s.x + t.x, s.y + t.y, s.z + t.z⟩⟩

instance [Sub α] : Sub (Triple α) := ⟨fun s t => ⟨s.x - t.x, s.y - t.y, s.z - t.z⟩⟩

@[simp] theorem get_add [Add α] (s t : Triple α) (a : Axis) :
    (s + t).get a = s.get a + t.get a := by
  cases a <;> rfl

@[simp] theorem get_sub [Sub α] (s t : Triple α) (a : Axis) :
    (s - t).get a = s.get a - t.get a := by
  cases a <;> rfl

end Triple

/-- A point of the index space of a level. -/
abbrev Point := Triple Int

namespace Point

/-- The origin of the index space. -/
def zero : Point := Triple.const 0

@[simp] theorem get_zero (a : Axis) : zero.get a = 0 := Triple.get_const ..

@[simp] theorem sub_zero (p : Point) : p - zero = p := Triple.ext_get fun a => by simp

/-- The point `n` steps along an axis. -/
def move (p : Point) (a : Axis) (n : Int) : Point := p.set a (p.get a + n)

theorem get_move (p : Point) (a b : Axis) (n : Int) :
    (p.move a n).get b = if b = a then p.get b + n else p.get b := by
  rw [move, Triple.get_set]
  split
  · next h => rw [h]
  · rfl

@[simp] theorem move_zero (p : Point) (a : Axis) : p.move a 0 = p := by simp [move]

@[simp] theorem move_move (p : Point) (a : Axis) (m n : Int) :
    (p.move a m).move a n = p.move a (m + n) := by
  simp [move, Int.add_assoc]

end Point

/-- The unit step along an axis. -/
def Axis.unit (a : Axis) : Point := Point.zero.set a 1

end MeshDiffusion
