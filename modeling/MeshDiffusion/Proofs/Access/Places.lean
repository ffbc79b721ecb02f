import Mathlib.Tactic
import MeshDiffusion.Field.Arithmetic
import MeshDiffusion.Field.Levels
import MeshDiffusion.Proofs.Index.Tiling

/-!
Access to the places of a field.

`MeshField.get` gives a default outside a field. The functions in the namespace `Checked` are
stricter: they ask for every place that a loop reads or writes, and there is no result as soon as
one of them lies outside its array. A place lies inside when the box exists, the point is in the
region of its block, the component exists, and the values reach to the place where it is stored.

* `Checked.read` and `Checked.write` go to one place; a place can be read if and only if the field
  stores it (`Checked.isSome_read_iff`), and then reading and writing are those of the field
  (`Checked.read_of_stores`, `Checked.write_of_stores`);
* `Checked.sweep` goes through a list of places and rewrites each from its old value; on places that
  the field stores it is an update of the field (`Checked.sweep_eq`);
* `Checked.scatter` writes a list of values; it leaves at every place the last one written there
  (`Checked.scatter_eq`);
* `Checked.window` lists the places of some layers and some components, and `Checked.levelsOf` makes
  an entry for each of some levels.
-/

namespace MeshDiffusion

/-! ### Writing one value -/

namespace Box

/-- Different points of a box have different offsets. -/
lemma offset_inj {b : Box} {p q : Point} (hp : p ∈ b) (hq : q ∈ b) (h : b.offset p = b.offset q) :
    p = q := by
  have hget := points_getElem?_offset hp
  rw [h, points_getElem?_offset hq] at hget
  exact (Option.some.inj hget).symm

end Box

namespace Block

variable {K : Type} {b : Block K} {p q : Point} {m n : ℕ}

/-- Different places of a block are stored apart. -/
lemma index_inj (hp : p ∈ b.region) (hq : q ∈ b.region) (h : b.index p n = b.index q m) :
    p = q ∧ n = m := by
  have hlt := Box.offset_lt_size hp
  have hlt' := Box.offset_lt_size hq
  have hpos : 0 < b.region.size := Nat.zero_lt_of_lt hlt
  have hcomp : ∀ k o, o < b.region.size → (k * b.region.size + o) / b.region.size = k := by
    intro k o ho
    rw [Nat.mul_comm, Nat.mul_add_div hpos, Nat.div_eq_of_lt ho, Nat.add_zero]
  obtain rfl : n = m := by
    rw [← hcomp n _ hlt, ← hcomp m _ hlt']
    exact congrArg (· / b.region.size) h
  exact ⟨Box.offset_inj hp hq (Nat.add_left_cancel h), rfl⟩

/-- A written value is read where it was written, and only there. -/
lemma get_set [Inhabited K] (hp : p ∈ b.region) (hn : n < b.ncomp) (v : K) (q : Point) (m : ℕ) :
    (b.set p n v).get q m = if q = p ∧ m = n then v else b.get q m := by
  have hin : p ∈ b.region ∧ n < b.ncomp := ⟨hp, hn⟩
  by_cases hq : q ∈ b.region ∧ m < b.ncomp
  · have hstored : (b.set p n v).values[(b.set p n v).index q m]?
        = some (if q = p ∧ m = n then v else b.get q m) := by
      simp only [set, if_pos hin, index]
      by_cases hsame : q = p ∧ m = n
      · obtain ⟨rfl, rfl⟩ := hsame
        rw [if_pos ⟨rfl, rfl⟩]
        exact Array.getElem?_setIfInBounds_self_of_lt (index_lt hp hn)
      · have hne : b.index p n ≠ b.index q m := fun h => by
          obtain ⟨rfl, rfl⟩ := index_inj hp hq.1 h
          exact hsame ⟨rfl, rfl⟩
        rw [if_neg hsame, ← getElem?_index hq.1 hq.2]
        exact Array.getElem?_setIfInBounds_ne hne
    have hq' : q ∈ (b.set p n v).region ∧ m < (b.set p n v).ncomp := by simpa using hq
    exact Option.some.inj ((getElem?_index hq'.1 hq'.2).symm.trans hstored)
  · have hq' : ¬(q ∈ (b.set p n v).region ∧ m < (b.set p n v).ncomp) := by simpa using hq
    have hne : ¬(q = p ∧ m = n) := by
      rintro ⟨rfl, rfl⟩
      exact hq hin
    rw [get_outside hq', get_outside hq, if_neg hne]

end Block

namespace MeshField

variable {K : Type} {f : MeshField K} {i j : ℕ} {p q : Point} {m n : ℕ}

/-- A written value is read where it was written, and only there. -/
lemma get_set [Inhabited K] (h : f.Stores i p n) (v : K) (j : ℕ) (q : Point) (m : ℕ) :
    (f.set i p n v).get j q m = if j = i ∧ q = p ∧ m = n then v else f.get j q m := by
  by_cases hij : i = j
  · subst hij
    have hi : i < f.blocks.size := f.size_blocks ▸ h.1
    have hp : p ∈ f.blocks[i].region := by
      rw [f.region_blocks i hi]
      exact h.2.1
    have hn : n < f.blocks[i].ncomp := by
      rw [f.ncomp_blocks i hi]
      exact h.2.2
    have hold : f.blocks[i]? = some f.blocks[i] := Array.getElem?_eq_getElem hi
    have hnew : (f.set i p n v).blocks[i]? = some (f.blocks[i].set p n v) := by
      simp [set, hi, Array.getElem_modify]
    rw [get, hnew, get, hold]
    exact (Block.get_set hp hn v q m).trans (if_congr (by simp) rfl rfl)
  · have hsame : (f.set i p n v).blocks[j]? = f.blocks[j]? := by
      simp [set, Array.getElem?_modify, hij]
    rw [if_neg fun hplace => hij hplace.1.symm, get, get, hsame]

end MeshField

namespace Layout

/-- Every box grown by some layers. -/
def grow (l : Layout) (layers : ℕ) : Layout := ⟨l.boxes.map (·.grow layers)⟩

@[simp] lemma count_grow (l : Layout) (layers : ℕ) : (l.grow layers).count = l.count := by
  simp [grow, count]

lemma box_grow {l : Layout} {i : ℕ} (h : i < l.count) (layers : ℕ) :
    (l.grow layers).box i = (l.box i).grow layers := by
  have h' : i < l.boxes.size := h
  simp [grow, box, Array.getD_eq_getD_getElem?, h']

end Layout

namespace Checked

/-! ### One place -/

variable {K : Type} {f : MeshField K} {i n : ℕ} {p : Point}

/-- A value of a block, if the point and the component exist and the values reach so far. -/
def readBlock (b : Block K) (p : Point) (n : ℕ) : Option K :=
  if p ∈ b.region ∧ n < b.ncomp then b.values[b.index p n]? else none

/-- A value of a field, if there is such a box and its block has the value. -/
def read (f : MeshField K) (i : ℕ) (p : Point) (n : ℕ) : Option K := do
  let b ← f.blocks[i]?
  readBlock b p n

/-- Replaces a value of a field at a place that it has. -/
def write (f : MeshField K) (i : ℕ) (p : Point) (n : ℕ) (v : K) : Option (MeshField K) := do
  let _ ← read f i p n
  return f.set i p n v

/-- A place that a field stores lies inside its arrays. -/
theorem read_of_stores [Inhabited K] (h : f.Stores i p n) : read f i p n = some (f.get i p n) := by
  obtain ⟨hi, hp, hn⟩ := h
  have hi' : i < f.blocks.size := f.size_blocks ▸ hi
  have hb : f.blocks[i]? = some f.blocks[i] := Array.getElem?_eq_getElem hi'
  have hp' : p ∈ f.blocks[i].region := by
    rw [f.region_blocks i hi']
    exact hp
  have hn' : n < f.blocks[i].ncomp := by
    rw [f.ncomp_blocks i hi']
    exact hn
  rw [read, MeshField.get, hb, Option.bind_eq_bind, Option.bind_some, readBlock, if_pos ⟨hp', hn'⟩,
    Block.getElem?_index hp' hn']

/-- No other place can be read. -/
theorem isSome_read_iff [Inhabited K] : (read f i p n).isSome = true ↔ f.Stores i p n := by
  constructor
  · intro h
    obtain ⟨v, hv⟩ := Option.isSome_iff_exists.1 h
    obtain ⟨b, hb, hread⟩ := Option.bind_eq_some_iff.1 hv
    obtain ⟨hi, rfl⟩ := Array.getElem?_eq_some_iff.1 hb
    rw [readBlock] at hread
    split_ifs at hread with hin
    rw [f.region_blocks i hi, f.ncomp_blocks i hi] at hin
    exact ⟨f.size_blocks ▸ hi, hin.1, hin.2⟩
  · intro h
    rw [read_of_stores h]
    rfl

theorem write_of_stores [Inhabited K] (h : f.Stores i p n) (v : K) :
    write f i p n v = some (f.set i p n v) := by
  rw [write, read_of_stores h]
  rfl

/-! ### One place after another -/

/-- A box, a point and a component. -/
abbrev Place := (ℕ × Point) × ℕ

/-- The places of some components in some layers around the boxes, box by box. -/
def window (layout : Layout) (layers comp count : ℕ) : List Place :=
  (layout.grow layers).cells ×ˢ List.range' comp count

lemma mem_window {layout : Layout} {layers comp count : ℕ} {a : Place} :
    a ∈ window layout layers comp count ↔ a.1.1 < layout.count ∧
      a.1.2 ∈ (layout.box a.1.1).grow layers ∧ comp ≤ a.2 ∧ a.2 < comp + count := by
  obtain ⟨⟨i, p⟩, n⟩ := a
  simp only [window, List.mem_product, Layout.mem_cells, Layout.count_grow,
    List.mem_range'_1, and_assoc]
  refine and_congr_right fun hi => ?_
  rw [Layout.box_grow hi]

/-- The places of all components in all layers of a field are those that it stores. -/
lemma mem_window_stored {f : MeshField K} {i n : ℕ} {p : Point} :
    ((i, p), n) ∈ window f.layout f.ghosts 0 f.ncomp ↔ f.Stores i p n := by
  rw [mem_window, Nat.zero_add]
  exact and_congr_right fun _ => and_congr_right fun _ => and_iff_right (Nat.zero_le n)

lemma nodup_window (layout : Layout) (layers comp count : ℕ) :
    (window layout layers comp count).Nodup :=
  (Layout.nodup_cells _).product (List.nodup_range' ..)

/-- Rewrites the places of a list one after another, each from its old value. -/
def sweep (f : MeshField K) (places : List Place) (rule : ℕ → Point → ℕ → K → Option K) :
    Option (MeshField K) :=
  places.foldlM (fun f a => do
    let old ← read f a.1.1 a.1.2 a.2
    let v ← rule a.1.1 a.1.2 a.2 old
    write f a.1.1 a.1.2 a.2 v) f

/-- A sweep over different places that the field stores recomputes these and keeps all others. -/
private lemma sweep_eq_update [Inhabited K] {places : List Place}
    {rule : ℕ → Point → ℕ → K → Option K} {g : ℕ → Point → ℕ → K → K} (hnodup : places.Nodup)
    (hstores : ∀ a ∈ places, f.Stores a.1.1 a.1.2 a.2)
    (hrule : ∀ a ∈ places, rule a.1.1 a.1.2 a.2 (f.get a.1.1 a.1.2 a.2)
      = some (g a.1.1 a.1.2 a.2 (f.get a.1.1 a.1.2 a.2))) :
    sweep f places rule
      = some (f.update fun i p n old => if ((i, p), n) ∈ places then g i p n old else old) := by
  induction places generalizing f with
  | nil =>
      refine congrArg some (MeshField.ext_get rfl fun i p n h => ?_)
      rw [MeshField.get_update, if_pos h, if_neg List.not_mem_nil]
  | cons a places ih =>
      obtain ⟨⟨i, p⟩, n⟩ := a
      obtain ⟨hnotmem, hnodup⟩ := List.nodup_cons.1 hnodup
      have hst : f.Stores i p n := hstores ((i, p), n) List.mem_cons_self
      -- the places that are left still hold what they held in `f`
      have hget : ∀ a ∈ places, (f.set i p n (g i p n (f.get i p n))).get a.1.1 a.1.2 a.2
          = f.get a.1.1 a.1.2 a.2 := by
        rintro ⟨⟨j, q⟩, m⟩ ha
        rw [MeshField.get_set hst, if_neg]
        rintro ⟨rfl, rfl, rfl⟩
        exact hnotmem ha
      have hfirst : (do
          let old ← read f i p n
          let v ← rule i p n old
          write f i p n v) = some (f.set i p n (g i p n (f.get i p n))) := by
        have hv := hrule ((i, p), n) List.mem_cons_self
        simp only at hv
        simp only [read_of_stores hst, Option.bind_eq_bind, Option.bind_some, hv,
          write_of_stores hst]
      have hrest := ih (f := f.set i p n (g i p n (f.get i p n))) hnodup
        (fun a ha => hstores a (List.mem_cons_of_mem _ ha))
        (fun a ha => by
          rw [hget a ha]
          exact hrule a (List.mem_cons_of_mem _ ha))
      rw [sweep, List.foldlM_cons, hfirst, Option.bind_eq_bind, Option.bind_some, ← sweep, hrest]
      refine congrArg some (MeshField.ext_get rfl fun j q m h => ?_)
      have h' : f.Stores j q m := h
      have hset : (f.set i p n (g i p n (f.get i p n))).Stores j q m := h
      rw [MeshField.get_update, MeshField.get_update, if_pos hset, if_pos h',
        MeshField.get_set hst]
      by_cases hsame : j = i ∧ q = p ∧ m = n
      · obtain ⟨rfl, rfl, rfl⟩ := hsame
        simp [hnotmem]
      · have hne : ((j, q), m) ≠ ((i, p), n) := by
          rintro ⟨⟩
          exact hsame ⟨rfl, rfl, rfl⟩
        simp [hsame, hne]

/-- A sweep over the places of a field that a condition picks is an update there. -/
theorem sweep_eq [Inhabited K] {places : List Place} {rule : ℕ → Point → ℕ → K → Option K}
    {g : ℕ → Point → ℕ → K → K} {C : ℕ → Point → ℕ → Prop} [∀ i p n, Decidable (C i p n)]
    (hnodup : places.Nodup)
    (hplaces : ∀ i p n, ((i, p), n) ∈ places ↔ f.Stores i p n ∧ C i p n)
    (hrule : ∀ i p n, f.Stores i p n → C i p n →
      rule i p n (f.get i p n) = some (g i p n (f.get i p n))) :
    sweep f places rule
      = some (f.update fun i p n old => if C i p n then g i p n old else old) := by
  rw [sweep_eq_update (g := g) hnodup (fun a ha => ((hplaces _ _ _).1 ha).1)
    (fun a ha => hrule _ _ _ ((hplaces _ _ _).1 ha).1 ((hplaces _ _ _).1 ha).2)]
  refine congrArg some (MeshField.ext_get rfl fun i p n h => ?_)
  have h' : f.Stores i p n := h
  rw [MeshField.get_update, MeshField.get_update, if_pos h', if_pos h']
  refine if_congr ?_ rfl rfl
  rw [hplaces, and_iff_right h']

/-! ### A list of values -/

/-- Writes values to their places one after another. -/
def scatter (f : MeshField K) (values : List (Place × K)) : Option (MeshField K) :=
  values.foldlM (fun f w => write f w.1.1.1 w.1.1.2 w.1.2 w.2) f

/-- The last value that a list writes to a place, or the old one. -/
def overwritten (values : List (Place × K)) (a : Place) (old : K) : K :=
  values.foldl (fun old w => if w.1 = a then w.2 else old) old

/-- Values for places that a field stores are written, and the last one at a place stays. -/
theorem scatter_eq [Inhabited K] {values : List (Place × K)}
    (hstores : ∀ w ∈ values, f.Stores w.1.1.1 w.1.1.2 w.1.2) :
    scatter f values = some (f.update fun i p n old => overwritten values ((i, p), n) old) := by
  induction values generalizing f with
  | nil =>
      refine congrArg some (MeshField.ext_get rfl fun i p n h => ?_)
      rw [MeshField.get_update, if_pos h]
      rfl
  | cons w values ih =>
      obtain ⟨⟨⟨i, p⟩, n⟩, v⟩ := w
      have hst : f.Stores i p n := hstores _ List.mem_cons_self
      have hrest := ih (f := f.set i p n v) fun w hw => hstores w (List.mem_cons_of_mem _ hw)
      rw [scatter, List.foldlM_cons, write_of_stores hst, Option.bind_eq_bind, Option.bind_some,
        ← scatter, hrest]
      refine congrArg some (MeshField.ext_get rfl fun j q m h => ?_)
      have h' : f.Stores j q m := h
      have hset : (f.set i p n v).Stores j q m := h
      rw [MeshField.get_update, MeshField.get_update, if_pos hset, if_pos h',
        MeshField.get_set hst]
      simp only [overwritten, List.foldl_cons, Prod.mk.injEq]
      congr 1
      refine if_congr ⟨?_, ?_⟩ rfl rfl
      · rintro ⟨rfl, rfl, rfl⟩
        exact ⟨⟨rfl, rfl⟩, rfl⟩
      · rintro ⟨⟨rfl, rfl⟩, rfl⟩
        exact ⟨rfl, rfl, rfl⟩

/-! ### Steps and loops -/

/-- A step that has a result is followed by the rest. -/
lemma bind_eq {α β : Type} {x : Option α} {F : α → Option β} {a : α} {b : β} (hx : x = some a)
    (hF : F a = some b) : (do let a ← x; F a) = some b := by
  rw [hx]
  exact hF

/-- A choice has a result when the branch that is taken has one. -/
lemma ite_eq {α : Type} {c : Prop} [Decidable c] {x y : Option α} {a b : α} (hx : c → x = some a)
    (hy : ¬c → y = some b) : (if c then x else y) = some (if c then a else b) := by
  split_ifs with hc
  · exact hx hc
  · exact hy hc

/-- A loop that always gets a result collects the results. -/
lemma mapM_eq_map {α β : Type} {l : List α} {F : α → Option β} {G : α → β}
    (h : ∀ a ∈ l, F a = some (G a)) : l.mapM F = some (l.map G) := by
  induction l with
  | nil => rfl
  | cons a l ih =>
      rw [List.mapM_cons, h a List.mem_cons_self, ih fun b hb => h b (List.mem_cons_of_mem _ hb)]
      rfl

/-- A loop whose steps have a result while an invariant holds, and keep the invariant, has the
result of the loop without checks. -/
lemma foldlM_eq_foldl {σ α : Type} {P : σ → Prop} {l : List α} {F : σ → α → Option σ}
    {G : σ → α → σ} (h : ∀ s, P s → ∀ a ∈ l, F s a = some (G s a) ∧ P (G s a)) {s : σ} (hs : P s) :
    l.foldlM F s = some (l.foldl G s) ∧ P (l.foldl G s) := by
  induction l generalizing s with
  | nil => exact ⟨rfl, hs⟩
  | cons a l ih =>
      obtain ⟨hstep, hkept⟩ := h s hs a List.mem_cons_self
      rw [List.foldlM_cons, hstep]
      exact ih (fun s hs b hb => h s hs b (List.mem_cons_of_mem _ hb)) hkept

/-! ### Levels -/

section Levels

variable {α : Type} {l : Levels α} {k : ℕ}

/-- The entries of the first `n` levels, one after another. -/
def levelsOf (n : ℕ) (F : ℕ → Option α) : Option (Levels α) := do
  let entries ← (List.range n).mapM F
  return .ofList entries

lemma levelsOf_eq {n : ℕ} {F : ℕ → Option α} {G : ℕ → α} (h : ∀ l < n, F l = some (G l)) :
    levelsOf n F = some (.ofFn n G) := by
  rw [levelsOf, mapM_eq_map fun l hl => h l (List.mem_range.1 hl), Levels.ofFn,
    ← List.toArray_range, List.map_toArray]
  rfl

lemma get?_of_lt [Inhabited α] (h : k < l.count) : l.get? k = some (l.get k) := by
  have h' : k < l.entries.size := h
  simp [Levels.get?, Levels.get, Array.getD_eq_getD_getElem?, h']

lemma set?_of_lt (h : k < l.count) (v : α) : l.set? k v = some (l.set k v) := if_pos h

end Levels

end Checked

end MeshDiffusion
