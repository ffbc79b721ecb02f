import Mathlib.Tactic
import MeshDiffusion.Index.Periods
import MeshDiffusion.Proofs.Index.Tiling

/-!
Periodic images of one domain.

The moves of a domain go by zero or one period along every axis that wraps around (`mem_shifts`), so
they are closed under sign change (`neg_mem_shifts`). Two facts about the images of the domain carry
every statement about exchange:

* `shift_unique`: the images do not overlap, so a point lies in at most one of them;
* `exists_shift`: when all axes wrap around, the images cover the domain and a halo that is no wider
  than any period.

For disjoint boxes inside the domain, a point lies in at most one image of one box
(`Layout.image_unique`), and `Layout.Exposed` are the points that lie in none.
-/

namespace MeshDiffusion

namespace Point

lemma sub_sub (p s t : Point) : p - s - t = p - (s + t) :=
  Triple.ext_get fun a => by simp only [Triple.get_sub, Triple.get_add]; omega

lemma move_sub (p s : Point) (a : Axis) (z : ℤ) : (p - s).move a z = p.move a z - s := by
  refine Triple.ext_get fun b => ?_
  simp only [Triple.get_sub, get_move]
  split_ifs <;> omega

end Point

namespace Periods

variable {p : Periods} {domain : Box} {periodic : Triple Bool}

/-! ### The moves -/

/-- What a move may be along an axis once the axes in `done` have been wrapped. -/
private def Entry (p : Periods) (done : List Axis) (a : Axis) (z : ℤ) : Prop :=
  z = 0 ∨ a ∈ done ∧ ∃ n, p.period?.get a = some n ∧ (z = -n ∨ z = n)

/-- A move without its entry along a new axis is one of the moves from before. -/
private lemma forall_entry_cons {done : List Axis} {c : Axis} {s : Point} (hc : c ∉ done) :
    (∀ a, Entry p (c :: done) a (s.get a)) ↔
      (s.get c = 0 ∨ ∃ n, p.period?.get c = some n ∧ (s.get c = -n ∨ s.get c = n)) ∧
        ∀ a, Entry p done a ((s.set c 0).get a) := by
  constructor
  · intro h
    refine ⟨by simpa [Entry] using h c, fun a => ?_⟩
    by_cases hac : a = c
    · subst hac
      exact .inl (by simp)
    · simpa [Entry, Triple.get_set, hac] using h a
  · rintro ⟨hsc, h⟩ a
    by_cases hac : a = c
    · subst hac
      simpa [Entry] using hsc
    · simpa [Entry, Triple.get_set, hac] using h a

private lemma mem_wrap {moves : List Point} {done : List Axis} {c : Axis} (hc : c ∉ done)
    (h : ∀ s : Point, s ∈ moves ↔ ∀ a, Entry p done a (s.get a)) (s : Point) :
    s ∈ p.wrap moves c ↔ ∀ a, Entry p (c :: done) a (s.get a) := by
  have hzero : ∀ t ∈ moves, t.set c 0 = t := by
    intro t ht
    rcases (h t).1 ht c with h0 | ⟨hmem, -⟩
    · rw [← h0, Triple.set_get]
    · exact absurd hmem hc
  have hset : ∀ v : ℤ, s.get c = v → (s.set c 0).set c v = s := by
    rintro v rfl
    rw [Triple.set_set, Triple.set_get]
  rw [forall_entry_cons hc, ← h, wrap]
  cases hp : p.period?.get c with
  | none =>
      constructor
      · intro hs
        refine ⟨.inl ?_, by rwa [hzero s hs]⟩
        rw [← hzero s hs, Triple.get_set_self]
      · rintro ⟨h0 | ⟨n, hn, -⟩, hs⟩
        · rwa [← h0, Triple.set_get] at hs
        · cases hn
  | some n =>
      simp only [List.mem_append, List.mem_flatMap, List.mem_cons, List.not_mem_nil, or_false]
      constructor
      · rintro (hs | ⟨t, ht, rfl | rfl⟩)
        · refine ⟨.inl ?_, by rwa [hzero s hs]⟩
          rw [← hzero s hs, Triple.get_set_self]
        · exact ⟨.inr ⟨n, rfl, .inl (by simp)⟩, by rwa [Triple.set_set, hzero t ht]⟩
        · exact ⟨.inr ⟨n, rfl, .inr (by simp)⟩, by rwa [Triple.set_set, hzero t ht]⟩
      · rintro ⟨h0 | ⟨k, hk, hv⟩, hs⟩
        · rw [← h0, Triple.set_get] at hs
          exact .inl hs
        · cases hk
          refine .inr ⟨s.set c 0, hs, ?_⟩
          rcases hv with hv | hv
          · exact .inl (hset _ hv).symm
          · exact .inr (hset _ hv).symm

/-- The moves go by zero or one period along each axis. -/
theorem mem_shifts {s : Point} :
    s ∈ p.shifts ↔
      ∀ a, s.get a = 0 ∨ ∃ n, p.period?.get a = some n ∧ (s.get a = -n ∨ s.get a = n) := by
  have h₀ : ∀ t : Point, t ∈ [Point.zero] ↔ ∀ a, Entry p [] a (t.get a) := by
    intro t
    rw [List.mem_singleton]
    constructor
    · rintro rfl a
      exact .inl (by simp)
    · intro ht
      refine Triple.ext_get fun a => ?_
      rcases ht a with h0 | ⟨hmem, -⟩
      · rw [h0, Point.get_zero]
      · cases hmem
  have h₁ := mem_wrap (c := .x) (by decide) h₀
  have h₂ := mem_wrap (c := .y) (by decide) h₁
  have h₃ := mem_wrap (c := .z) (by decide) h₂
  refine (h₃ s).trans (forall_congr' fun a => or_congr_right ?_)
  have hmem : a ∈ [Axis.z, .y, .x] := by cases a <;> decide
  simp [hmem]

lemma zero_mem_shifts : Point.zero ∈ p.shifts :=
  mem_shifts.2 fun a => .inl (by simp)

/-- The moves are closed under sign change. -/
lemma neg_mem_shifts {s : Point} (h : s ∈ p.shifts) : Point.zero - s ∈ p.shifts := by
  refine mem_shifts.2 fun a => ?_
  simp only [Triple.get_sub, Point.get_zero]
  rcases mem_shifts.1 h a with h0 | ⟨n, hn, hv⟩
  · exact .inl (by omega)
  · exact .inr ⟨n, hn, by omega⟩

/-- The moves of a domain, axis by axis. -/
lemma mem_shifts_ofDomain {s : Point} :
    s ∈ (ofDomain domain periodic).shifts ↔
      ∀ a, s.get a = 0 ∨ periodic.get a = true ∧
        (s.get a = -(domain.length a : ℤ) ∨ s.get a = domain.length a) := by
  rw [mem_shifts]
  refine forall_congr' fun a => or_congr_right ?_
  simp only [ofDomain, Triple.get_ofFn]
  by_cases ha : periodic.get a = true <;> simp [ha]

/-- Two moves one after another are one move, unless they go two periods along some axis. -/
lemma add_mem_shifts {s t : Point} (hs : s ∈ (ofDomain domain periodic).shifts)
    (ht : t ∈ (ofDomain domain periodic).shifts)
    (hnear : ∀ a, -(domain.length a : ℤ) ≤ s.get a + t.get a ∧
      s.get a + t.get a ≤ domain.length a) :
    s + t ∈ (ofDomain domain periodic).shifts := by
  refine mem_shifts_ofDomain.2 fun a => ?_
  have h₁ := mem_shifts_ofDomain.1 hs a
  have h₂ := mem_shifts_ofDomain.1 ht a
  have h₃ := hnear a
  rw [Triple.get_add]
  by_cases hwraps : periodic.get a = true
  · simp only [hwraps, true_and] at h₁ h₂ ⊢
    omega
  · simp only [hwraps, Bool.false_eq_true, false_and, or_false] at h₁ h₂ ⊢
    omega

/-! ### Images of the domain -/

/-- The images of a domain do not overlap. -/
theorem shift_unique {s t q : Point} (hs : s ∈ (ofDomain domain periodic).shifts)
    (ht : t ∈ (ofDomain domain periodic).shifts) (hqs : q - s ∈ domain) (hqt : q - t ∈ domain) :
    s = t := by
  refine Triple.ext_get fun a => ?_
  have hsa := Box.mem_iff.1 hqs a
  have hta := Box.mem_iff.1 hqt a
  have h₁ := mem_shifts_ofDomain.1 hs a
  have h₂ := mem_shifts_ofDomain.1 ht a
  simp only [Triple.get_sub] at hsa hta
  simp only [Box.length] at h₁ h₂
  omega

/-- When all axes wrap around, the images of a domain cover a halo that is no wider than any
period. -/
theorem exists_shift {q : Point} {width : ℕ} (hall : ∀ a, periodic.get a = true)
    (hwidth : ∀ a, width ≤ domain.length a) (hq : q ∈ domain.grow width) :
    ∃ s ∈ (ofDomain domain periodic).shifts, q - s ∈ domain := by
  -- Along each axis the move brings back what lies beyond one of the two ends.
  let s : Point := .ofFn fun a =>
    if q.get a < domain.lo.get a then -(domain.length a : ℤ)
    else if domain.hi.get a < q.get a then domain.length a
    else 0
  refine ⟨s, mem_shifts_ofDomain.2 fun a => ?_, Box.mem_iff.2 fun a => ?_⟩
  · simp only [s, Triple.get_ofFn, hall a, true_and]
    split_ifs
    · exact .inr (.inl rfl)
    · exact .inr (.inr rfl)
    · exact .inl rfl
  · have h₁ := Box.mem_grow.1 hq a
    have h₂ := hwidth a
    simp only [Box.length] at h₂
    simp only [s, Triple.get_sub, Triple.get_ofFn, Box.length]
    split_ifs <;> omega

end Periods

/-! ### Images of the boxes of a layout -/

namespace Layout

variable {l : Layout} {domain : Box} {periodic : Triple Bool} {periods : Periods} {s t p : Point}
  {i j k : ℕ}

/-- No box and no periodic image of a box holds the point. -/
def Exposed (l : Layout) (periods : Periods) (p : Point) : Prop :=
  ∀ s ∈ periods.shifts, ∀ j < l.count, p - s ∉ l.box j

instance (l : Layout) (periods : Periods) (p : Point) : Decidable (l.Exposed periods p) :=
  inferInstanceAs (Decidable (∀ _ ∈ _, _))

lemma Exposed.not_mem (h : l.Exposed periods p) (hi : i < l.count) : p ∉ l.box i := by
  simpa using h Point.zero Periods.zero_mem_shifts i hi

lemma not_exposed_iff :
    ¬l.Exposed periods p ↔ ∃ s ∈ periods.shifts, ∃ j < l.count, p - s ∈ l.box j := by
  simp [Exposed]

/-- The images of disjoint boxes inside the domain of the periods do not overlap. -/
theorem image_unique (hin : l.Within domain) (hdisj : l.Disjoint)
    (hs : s ∈ (Periods.ofDomain domain periodic).shifts)
    (ht : t ∈ (Periods.ofDomain domain periodic).shifts) (hj : j < l.count) (hk : k < l.count)
    (hps : p - s ∈ l.box j) (hpt : p - t ∈ l.box k) : s = t ∧ j = k := by
  obtain rfl : s = t := Periods.shift_unique hs ht (hin j hj _ hps) (hin k hk _ hpt)
  exact ⟨rfl, hdisj j hj k hk _ hps hpt⟩

/-- What a box holds itself, only the box itself holds. -/
lemma image_of_mem (hin : l.Within domain) (hdisj : l.Disjoint)
    (hs : s ∈ (Periods.ofDomain domain periodic).shifts) (hi : i < l.count) (hj : j < l.count)
    (hp : p ∈ l.box i) (hps : p - s ∈ l.box j) : s = Point.zero ∧ j = i :=
  image_unique hin hdisj hs Periods.zero_mem_shifts hj hi hps (by rwa [Point.sub_zero])

end Layout

end MeshDiffusion
