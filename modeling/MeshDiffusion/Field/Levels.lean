/-!
Collections with one entry per level.

Level 0 is the coarsest one. `Levels.get` gives the default element for a level that does not exist,
`Levels.get?` says so, and `Levels.set?` replaces the entry of an existing level. The lemmas at the
end read the entries of a collection that was built, replaced, changed or cut.
-/

namespace MeshDiffusion

/-- One entry for each level, the coarsest first. -/
structure Levels (α : Type) where
  entries : Array α
deriving Inhabited

namespace Levels

variable {α : Type}

/-- The entries of the first `n` levels from a function of the level. -/
def ofFn (n : Nat) (f : Nat → α) : Levels α := ⟨(Array.range n).map f⟩

/-- The collection of a list of entries. -/
def ofList (xs : List α) : Levels α := ⟨xs.toArray⟩

/-- The entries from the coarsest level on. -/
def toList (l : Levels α) : List α := l.entries.toList

/-- The number of levels. -/
def count (l : Levels α) : Nat := l.entries.size

/-- The finest level, if there is a level. -/
def finest? (l : Levels α) : Option Nat := if l.count = 0 then none else some (l.count - 1)

/-- The entry of a level, if the level exists. -/
def get? (l : Levels α) (level : Nat) : Option α := l.entries[level]?

/-- The entry of a level. -/
def get [Inhabited α] (l : Levels α) (level : Nat) : α := l.entries.getD level default

/-- Replaces the entry of a level and leaves a missing level out. -/
def set (l : Levels α) (level : Nat) (v : α) : Levels α := ⟨l.entries.setIfInBounds level v⟩

/-- Replaces the entry of a level, if the level exists. -/
def set? (l : Levels α) (level : Nat) (v : α) : Option (Levels α) :=
  if level < l.count then some (l.set level v) else none

/-- Changes the entry of a level. -/
def modify (l : Levels α) (level : Nat) (f : α → α) : Levels α := ⟨l.entries.modify level f⟩

/-- Applies a function to every entry. -/
def map {β : Type} (f : α → β) (l : Levels α) : Levels β := ⟨l.entries.map f⟩

/-- The first `n` levels. -/
def take (l : Levels α) (n : Nat) : Levels α := ⟨l.entries.extract 0 n⟩

/-! ### Reading -/

@[simp] theorem count_ofFn (n : Nat) (f : Nat → α) : (ofFn n f).count = n := by simp [ofFn, count]

@[simp] theorem count_set (l : Levels α) (k : Nat) (v : α) : (l.set k v).count = l.count := by
  simp [set, count]

@[simp] theorem count_modify (l : Levels α) (k : Nat) (f : α → α) :
    (l.modify k f).count = l.count := by
  simp [modify, count]

@[simp] theorem count_take (l : Levels α) (n : Nat) : (l.take n).count = min n l.count := by
  simp [take, count]

theorem get_eq_getD [Inhabited α] (l : Levels α) (k : Nat) : l.get k = (l.get? k).getD default := by
  rw [get, get?, Array.getD_eq_getD_getElem?]

theorem get?_ofFn (n : Nat) (f : Nat → α) (k : Nat) :
    (ofFn n f).get? k = if k < n then some (f k) else none := by
  by_cases h : k < n <;> simp [ofFn, get?, h]

theorem get_ofFn [Inhabited α] {n : Nat} {f : Nat → α} {k : Nat} (h : k < n) :
    (ofFn n f).get k = f k := by
  rw [get_eq_getD, get?_ofFn, if_pos h]
  rfl

theorem get?_set_of_ne {l : Levels α} {k j : Nat} (h : j ≠ k) (v : α) :
    (l.set k v).get? j = l.get? j := by
  simp [set, get?, Array.getElem?_setIfInBounds_ne h.symm]

theorem get_set_of_ne [Inhabited α] {l : Levels α} {k j : Nat} (h : j ≠ k) (v : α) :
    (l.set k v).get j = l.get j := by
  rw [get_eq_getD, get?_set_of_ne h, ← get_eq_getD]

theorem get_set_self [Inhabited α] {l : Levels α} {k : Nat} (h : k < l.count) (v : α) :
    (l.set k v).get k = v := by
  have h' : k < l.entries.size := h
  simp [set, get, Array.getD_eq_getD_getElem?, h']

theorem get_set [Inhabited α] (l : Levels α) (k j : Nat) (v : α) :
    (l.set k v).get j = if j = k ∧ k < l.count then v else l.get j := by
  split
  · next h => rw [h.1, get_set_self h.2]
  · next h =>
    by_cases hj : j = k
    · have hk : ¬k < l.entries.size := fun hk => h ⟨hj, hk⟩
      simp [set, Array.setIfInBounds, hk]
    · exact get_set_of_ne hj v

theorem get_modify_of_ne [Inhabited α] {l : Levels α} {k j : Nat} (h : j ≠ k) (f : α → α) :
    (l.modify k f).get j = l.get j := by
  simp [modify, get, Array.getD_eq_getD_getElem?, Array.getElem?_modify, h.symm]

theorem get_modify_self [Inhabited α] {l : Levels α} {k : Nat} (h : k < l.count) (f : α → α) :
    (l.modify k f).get k = f (l.get k) := by
  have h' : k < l.entries.size := h
  simp [modify, get, Array.getD_eq_getD_getElem?, Array.getElem_modify, h']

theorem get_take [Inhabited α] {l : Levels α} {n k : Nat} (h : k < n) :
    (l.take n).get k = l.get k := by
  simp only [take, get, Array.getD_eq_getD_getElem?]
  by_cases hk : k < l.entries.size
  · have : k < min n l.entries.size := by omega
    simp [hk, this]
  · have : ¬k < min n l.entries.size := by omega
    simp [hk, this]

/-- Two collections of one size with the same entries are equal. -/
theorem ext_get [Inhabited α] {l m : Levels α} (hcount : l.count = m.count)
    (h : ∀ k < l.count, l.get k = m.get k) : l = m := by
  obtain ⟨xs⟩ := l
  obtain ⟨ys⟩ := m
  refine congrArg Levels.mk (Array.ext hcount fun k hk hk' => ?_)
  have hget := h k hk
  simpa [get, Array.getD_eq_getD_getElem?, hk, hk'] using hget

/-- Replacing the entries of different levels one after another replaces each from its own old
entry. -/
theorem foldl_set [Inhabited α] (g : Nat → α → α) {ls : List Nat} (hnodup : ls.Nodup)
    (l : Levels α) :
    (ls.foldl (fun l k => l.set k (g k (l.get k))) l).count = l.count ∧
    (∀ j, j ∉ ls → (ls.foldl (fun l k => l.set k (g k (l.get k))) l).get? j = l.get? j) ∧
    ∀ j ∈ ls, j < l.count →
      (ls.foldl (fun l k => l.set k (g k (l.get k))) l).get j = g j (l.get j) := by
  induction ls generalizing l with
  | nil => exact ⟨rfl, fun _ _ => rfl, fun _ h => nomatch h⟩
  | cons k ls ih =>
    obtain ⟨hk, hnodup⟩ := List.nodup_cons.1 hnodup
    obtain ⟨hcount, hout, hin⟩ := ih hnodup (l.set k (g k (l.get k)))
    rw [count_set] at hcount
    refine ⟨hcount, fun j hj => ?_, fun j hj hlt => ?_⟩
    · obtain ⟨hne, hj⟩ := List.ne_and_not_mem_of_not_mem_cons hj
      exact (hout j hj).trans (get?_set_of_ne hne _)
    · rcases List.mem_cons.1 hj with rfl | hj
      · rw [List.foldl_cons, get_eq_getD, hout j hk, ← get_eq_getD, get_set_self hlt]
      · have hne : j ≠ k := fun h => hk (h ▸ hj)
        rw [List.foldl_cons, hin j hj (by rwa [count_set]), get_set_of_ne hne]

end Levels

end MeshDiffusion
