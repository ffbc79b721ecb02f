import MeshDiffusion.Index.Point

/-!
Something for each of the six faces of a box.

`Faces α` keeps the entries of the low ends and those of the high ends apart. `Faces.get` and
`Faces.set` go by the face; a write changes the entry of its own face only (`Faces.get_set`), and
the entries are all there is (`Faces.ext_get`).
-/

namespace MeshDiffusion

/-- One entry for each face: those at the low ends of the axes and those at the high ends. -/
structure Faces (α : Type) where
  lo : Triple α
  hi : Triple α
deriving DecidableEq, Inhabited

namespace Faces

variable {α : Type}

/-- The entry of a face. -/
def get (t : Faces α) (f : Face) : α :=
  match f.side with
  | .lo => t.lo.get f.axis
  | .hi => t.hi.get f.axis

/-- The entries from a function of the face. -/
def ofFn (v : Face → α) : Faces α := ⟨.ofFn fun a => v ⟨a, .lo⟩, .ofFn fun a => v ⟨a, .hi⟩⟩

/-- One entry for all faces. -/
def const (v : α) : Faces α := ⟨.const v, .const v⟩

/-- Replaces the entry of a face. -/
def set (t : Faces α) (f : Face) (v : α) : Faces α :=
  match f.side with
  | .lo => { t with lo := t.lo.set f.axis v }
  | .hi => { t with hi := t.hi.set f.axis v }

/-- The entries in the order of `Face.all`. -/
def toList (t : Faces α) : List α := Face.all.map t.get

@[simp] theorem get_ofFn (v : Face → α) (f : Face) : (ofFn v).get f = v f := by
  obtain ⟨a, s⟩ := f
  cases s <;> simp [get, ofFn]

@[simp] theorem get_const (v : α) (f : Face) : (const v).get f = v := by
  obtain ⟨a, s⟩ := f
  cases s <;> simp [get, const]

/-- Two with the same entries are equal. -/
theorem ext_get {s t : Faces α} (h : ∀ f, s.get f = t.get f) : s = t := by
  have hlo : s.lo = t.lo := Triple.ext_get fun a => h ⟨a, .lo⟩
  have hhi : s.hi = t.hi := Triple.ext_get fun a => h ⟨a, .hi⟩
  cases s
  cases t
  simp_all

theorem get_set (t : Faces α) (f g : Face) (v : α) :
    (t.set f v).get g = if g = f then v else t.get g := by
  obtain ⟨a, s⟩ := f
  obtain ⟨c, u⟩ := g
  cases s <;> cases u <;> simp [set, get, Triple.get_set, Face.mk.injEq]

end Faces

end MeshDiffusion
