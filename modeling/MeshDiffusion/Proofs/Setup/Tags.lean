import Mathlib.Tactic
import MeshDiffusion.Proofs.Setup.Outcome
import MeshDiffusion.Setup.Tags

/-!
Resolved tags.

What a face becomes is said by two relations: `DomainTags.Bounds` for the kind of boundary that its
axis or its sampled tag gives it, and `DomainTags.Refuses` for the fault that it has otherwise.

* `DomainTags.kind_eq_ok_iff`, `DomainTags.kind_eq_error_iff`: one face is resolved by them;
* `DomainTags.resolve_ok`, `DomainTags.resolve_periodic`: a resolution that succeeds gives every
  face the kind of its own tag, and exactly the faces of the axes that wrap around become periodic;
* `DomainTags.resolveFrom_eq_error_iff`: one that fails names the first face that has a fault;
* `DomainTags.get_foldl_edit`, `TagGrid.get?_uniform`: the sampled tag of a face with one tag on it
  is that tag, whatever is written elsewhere;
* `DomainTags.resolve_exact`: when a resolution succeeds, what it gives, what it depends on, and
  what it makes of one condition for each face.
-/

namespace MeshDiffusion

/-! ### Conditions and arrays of tags -/

/-- Different conditions have different tags. -/
lemma WallCondition.ofTag?_eq_some_iff {tag : ℤ} {c : WallCondition} :
    ofTag? tag = some c ↔ c.tag = tag := by
  constructor
  · intro h
    simpa using List.find?_some h
  · rintro rfl
    cases c <;> rfl

lemma WallCondition.tag_injective : Function.Injective tag := fun c d h => by
  have hc : ofTag? d.tag = some c := ofTag?_eq_some_iff.2 h
  exact (Option.some.inj (hc.symm.trans (ofTag?_eq_some_iff.2 rfl)))

namespace TagGrid

variable {t : TagGrid} {a b c d : ℕ}

/-- A write changes no other place. -/
lemma get?_set_of_ne (tag : ℤ) (h : (a, b) ≠ (c, d)) : (t.set a b tag).get? c d = t.get? c d := by
  by_cases hwrite : a < t.first ∧ b < t.second
  · rw [set, if_pos hwrite, get?, get?]
    refine if_ctx_congr Iff.rfl (fun hread => ?_) fun _ => rfl
    refine Array.getElem?_setIfInBounds_ne fun hplace => h ?_
    -- The place splits into the row and the position in it.
    have hfirst := congrArg (· % t.first) hplace
    have hsecond := congrArg (· / t.first) hplace
    have hpos : 0 < t.first := Nat.zero_lt_of_lt hwrite.1
    simp only [Nat.mul_add_mod_self_right, Nat.mod_eq_of_lt hwrite.1,
      Nat.mod_eq_of_lt hread.1] at hfirst
    simp only [Nat.mul_comm _ t.first, Nat.mul_add_div hpos, Nat.div_eq_of_lt hwrite.1,
      Nat.div_eq_of_lt hread.1, Nat.add_zero] at hsecond
    rw [hfirst, hsecond]
  · rw [set, if_neg hwrite]

/-- A face of a domain with cells has its tag at the first of them. -/
lemma get?_uniform {domain : Box} (hcells : domain.isEmpty = false) (axis : Axis) (ghosts : ℕ)
    (tag : ℤ) : (uniform domain axis ghosts tag).get? ghosts ghosts = some tag := by
  have hfirst := Box.length_pos hcells axis.tangents.1
  have hsecond := Box.length_pos hcells axis.tangents.2
  have hinside : ghosts < (uniform domain axis ghosts tag).first ∧
      ghosts < (uniform domain axis ghosts tag).second := by
    simp only [uniform]
    omega
  rw [get?, if_pos hinside]
  refine Array.getElem?_eq_some_iff.2 ⟨?_, by simp [uniform]⟩
  rw [size_tags]
  calc ghosts * (uniform domain axis ghosts tag).first + ghosts
      < (ghosts + 1) * (uniform domain axis ghosts tag).first := by
        rw [Nat.succ_mul]
        omega
    _ ≤ (uniform domain axis ghosts tag).second * (uniform domain axis ghosts tag).first :=
        Nat.mul_le_mul_right _ hinside.2
    _ = _ := Nat.mul_comm ..

end TagGrid

/-- The write of one tag, at a place of a face. -/
structure TagEdit where
  face : Face
  first : ℕ
  second : ℕ
  tag : ℤ

namespace DomainTags

variable {periodic : Triple Bool} {tags : DomainTags} {ghosts : ℕ} {b b' : DomainBoundary}
  {f : Face} {k : BoundaryKind} {e : TagFault}

/-- Writes one tag into the tags of its face. -/
def edit (tags : DomainTags) (e : TagEdit) : DomainTags :=
  tags.set e.face ((tags.get e.face).set e.first e.second e.tag)

/-- Writes elsewhere leave the sampled tag of every face. -/
lemma get_foldl_edit {edits : List TagEdit}
    (h : ∀ e ∈ edits, (e.first, e.second) ≠ (ghosts, ghosts)) (f : Face) :
    ((edits.foldl edit tags).get f).get? ghosts ghosts = (tags.get f).get? ghosts ghosts := by
  induction edits generalizing tags with
  | nil => rfl
  | cons e edits ih =>
      obtain ⟨helsewhere, hrest⟩ := List.forall_mem_cons.1 h
      rw [List.foldl_cons, ih hrest, edit, Faces.get_set]
      split_ifs with hface
      · rw [hface, TagGrid.get?_set_of_ne _ helsewhere]
      · rfl

/-! ### One face -/

/-- The kind of boundary of a face: it wraps around with its axis, or its sampled tag is that of a
condition that bounds a solve. -/
inductive Bounds (periodic : Triple Bool) (tags : DomainTags) (ghosts : ℕ) (f : Face) :
    BoundaryKind → Prop
  | wraps (hwraps : periodic.get f.axis = true) : Bounds periodic tags ghosts f .periodic
  | tagged {c : WallCondition} {k : BoundaryKind} (hopen : periodic.get f.axis = false)
      (htag : (tags.get f).get? ghosts ghosts = some c.tag) (hkind : c.kind? = some k) :
      Bounds periodic tags ghosts f k

/-- The fault of a face whose axis does not wrap around: its array does not reach the sampled place,
or no condition with the tag there bounds a solve. -/
inductive Refuses (periodic : Triple Bool) (tags : DomainTags) (ghosts : ℕ) (f : Face) :
    TagFault → Prop
  | missing (hopen : periodic.get f.axis = false)
      (htag : (tags.get f).get? ghosts ghosts = none) : Refuses periodic tags ghosts f (.noTag f)
  | invalid {tag : ℤ} (hopen : periodic.get f.axis = false)
      (htag : (tags.get f).get? ghosts ghosts = some tag)
      (hkind : ∀ c : WallCondition, c.tag = tag → c.kind? = none) :
      Refuses periodic tags ghosts f (.invalidTag f tag)

lemma kind_of_bounds (h : Bounds periodic tags ghosts f k) :
    kind periodic tags ghosts f = .ok k := by
  cases h with
  | wraps hwraps => simp [kind, hwraps]
  | @tagged c k hopen htag hkind =>
      have hcondition : WallCondition.ofTag? c.tag = some c :=
        WallCondition.ofTag?_eq_some_iff.2 rfl
      simp [kind, hopen, htag, hcondition, hkind]

lemma kind_of_refuses (h : Refuses periodic tags ghosts f e) :
    kind periodic tags ghosts f = .error e := by
  cases h with
  | missing hopen htag => simp [kind, hopen, htag]
  | @invalid tag hopen htag hkind =>
      have hnone : (WallCondition.ofTag? tag).bind WallCondition.kind? = none :=
        Option.bind_eq_none_iff.2 fun c hc => hkind c (WallCondition.ofTag?_eq_some_iff.1 hc)
      simp [kind, hopen, htag, hnone]

/-- Every face is bounded or refused. -/
lemma bounds_or_refuses (periodic : Triple Bool) (tags : DomainTags) (ghosts : ℕ) (f : Face) :
    (∃ k, Bounds periodic tags ghosts f k) ∨ ∃ e, Refuses periodic tags ghosts f e := by
  cases hopen : periodic.get f.axis with
  | true => exact .inl ⟨_, .wraps hopen⟩
  | false =>
      cases htag : (tags.get f).get? ghosts ghosts with
      | none => exact .inr ⟨_, .missing hopen htag⟩
      | some tag =>
          by_cases hkind : ∀ c : WallCondition, c.tag = tag → c.kind? = none
          · exact .inr ⟨_, .invalid hopen htag hkind⟩
          · push Not at hkind
            obtain ⟨c, rfl, hc⟩ := hkind
            obtain ⟨k, hk⟩ := Option.ne_none_iff_exists'.1 hc
            exact .inl ⟨k, .tagged hopen htag hk⟩

lemma outcome_kind (periodic : Triple Bool) (tags : DomainTags) (ghosts : ℕ) (f : Face) :
    Outcome (kind periodic tags ghosts f) (Bounds periodic tags ghosts f)
      (Refuses periodic tags ghosts f) :=
  .of_cases (fun _ => kind_of_bounds) (fun _ => kind_of_refuses) (bounds_or_refuses _ _ _ _)

lemma kind_eq_ok_iff :
    kind periodic tags ghosts f = .ok k ↔ Bounds periodic tags ghosts f k :=
  (outcome_kind periodic tags ghosts f).ok_iff k

lemma kind_eq_error_iff :
    kind periodic tags ghosts f = .error e ↔ Refuses periodic tags ghosts f e :=
  (outcome_kind periodic tags ghosts f).error_iff e

/-- A face is periodic exactly when its axis wraps around, since no condition of a tag is. -/
lemma Bounds.periodic_iff (h : Bounds periodic tags ghosts f k) :
    k = .periodic ↔ periodic.get f.axis = true := by
  cases h with
  | wraps hwraps => simp [hwraps]
  | @tagged c k hopen htag hkind =>
      have hne : c.kind? ≠ some .periodic := by cases c <;> decide
      simp only [hopen, Bool.false_eq_true, iff_false]
      rintro rfl
      exact hne hkind

/-! ### All faces -/

/-- The faces of the list are resolved, the others are left. -/
lemma resolveFrom_ok {fs : List Face} (h : resolveFrom periodic tags ghosts fs b = .ok b') :
    (∀ f ∈ fs, kind periodic tags ghosts f = .ok (b'.get f)) ∧
      ∀ f ∉ fs, b'.get f = b.get f := by
  induction fs generalizing b with
  | nil =>
      cases h
      exact ⟨fun f hf => absurd hf List.not_mem_nil, fun f _ => rfl⟩
  | cons g fs ih =>
      rw [resolveFrom] at h
      cases hkind : kind periodic tags ghosts g with
      | error e => simp [hkind] at h
      | ok k =>
          rw [hkind] at h
          obtain ⟨hin, hout⟩ := ih h
          refine ⟨fun f hf => ?_, fun f hf => ?_⟩
          · by_cases hmem : f ∈ fs
            · exact hin f hmem
            · obtain rfl := (List.mem_cons.1 hf).resolve_right hmem
              rw [hout f hmem, Faces.get_set, if_pos rfl, hkind]
          · obtain ⟨hne, hmem⟩ := List.ne_and_not_mem_of_not_mem_cons hf
            rw [hout f hmem, Faces.get_set, if_neg hne]

/-- The first face of the list that has a fault ends the resolution with it. -/
lemma resolveFrom_eq_error_iff {fs : List Face} (hslots : fs.Pairwise fun f g => f.slot < g.slot) :
    resolveFrom periodic tags ghosts fs b = .error e ↔
      ∃ f ∈ fs, kind periodic tags ghosts f = .error e ∧
        ∀ g ∈ fs, g.slot < f.slot → ∃ k, kind periodic tags ghosts g = .ok k := by
  induction fs generalizing b with
  | nil => simp [resolveFrom]
  | cons g fs ih =>
      obtain ⟨hfirst, hrest⟩ := List.pairwise_cons.1 hslots
      rw [resolveFrom]
      cases hkind : kind periodic tags ghosts g with
      | error e' =>
          constructor
          · rintro ⟨⟩
            refine ⟨g, List.mem_cons_self, hkind, fun h hh hlt => ?_⟩
            rcases List.mem_cons.1 hh with rfl | hh
            · exact absurd hlt (lt_irrefl _)
            · exact absurd hlt (hfirst h hh).le.not_gt
          · rintro ⟨f, hf, hfault, hbefore⟩
            rcases List.mem_cons.1 hf with rfl | hf
            · simpa using hkind.symm.trans hfault
            · obtain ⟨k, hk⟩ := hbefore g List.mem_cons_self (hfirst f hf)
              simp [hk] at hkind
      | ok k =>
          refine (ih hrest).trans ?_
          constructor
          · rintro ⟨f, hf, hfault, hbefore⟩
            exact ⟨f, List.mem_cons_of_mem g hf, hfault,
              List.forall_mem_cons.2 ⟨fun _ => ⟨k, hkind⟩, hbefore⟩⟩
          · rintro ⟨f, hf, hfault, hbefore⟩
            rcases List.mem_cons.1 hf with rfl | hf
            · simp [hkind] at hfault
            · exact ⟨f, hf, hfault, fun h hh => hbefore h (List.mem_cons_of_mem g hh)⟩

/-- Nothing of the tags counts but what single faces are made of. -/
lemma resolveFrom_congr {periodic' : Triple Bool} {tags' : DomainTags} {ghosts' : ℕ}
    {fs : List Face}
    (h : ∀ f ∈ fs, kind periodic' tags' ghosts' f = kind periodic tags ghosts f) :
    resolveFrom periodic' tags' ghosts' fs b = resolveFrom periodic tags ghosts fs b := by
  induction fs generalizing b with
  | nil => rfl
  | cons f fs ih =>
      obtain ⟨hfirst, hrest⟩ := List.forall_mem_cons.1 h
      rw [resolveFrom, resolveFrom, hfirst]
      cases kind periodic tags ghosts f with
      | ok k => exact ih hrest
      | error e => rfl

/-- **Every face has the kind of its own tag.** -/
theorem resolve_ok (h : resolve periodic tags ghosts = .ok b) (f : Face) :
    kind periodic tags ghosts f = .ok (b.get f) :=
  (resolveFrom_ok h).1 f (Face.mem_all f)

/-- Exactly the faces of the axes that wrap around are periodic. -/
theorem resolve_periodic (h : resolve periodic tags ghosts = .ok b) (f : Face) :
    b.get f = .periodic ↔ periodic.get f.axis = true :=
  (kind_eq_ok_iff.1 (resolve_ok h f)).periodic_iff

/-- A resolution that succeeds is what bounds the faces. -/
lemma resolve_eq_ok_iff : resolve periodic tags ghosts = .ok b ↔
    ∀ f, Bounds periodic tags ghosts f (b.get f) := by
  constructor
  · exact fun h f => kind_eq_ok_iff.1 (resolve_ok h f)
  · intro h
    have hslots : Face.all.Pairwise fun f g => f.slot < g.slot := by decide
    cases hresolve : resolve periodic tags ghosts with
    | error e =>
        obtain ⟨f, -, hfault, -⟩ := (resolveFrom_eq_error_iff hslots).1 hresolve
        simp [kind_of_bounds (h f)] at hfault
    | ok b' =>
        refine congrArg _ (Faces.ext_get fun f => ?_)
        have hkind := (resolve_ok hresolve f).symm.trans (kind_of_bounds (h f))
        simpa using hkind

/-- A resolution that fails has the fault of the first face that is refused. -/
lemma resolve_eq_error_iff : resolve periodic tags ghosts = .error e ↔
    ∃ f, Refuses periodic tags ghosts f e ∧
      ∀ g : Face, g.slot < f.slot → ∃ k, Bounds periodic tags ghosts g k := by
  have hslots : Face.all.Pairwise fun f g => f.slot < g.slot := by decide
  rw [resolve, resolveFrom_eq_error_iff hslots]
  simp [kind_eq_error_iff, kind_eq_ok_iff]

lemma exists_resolve_iff : (∃ b, resolve periodic tags ghosts = .ok b) ↔
    ∀ f, ∃ k, Bounds periodic tags ghosts f k := by
  constructor
  · rintro ⟨b, hb⟩ f
    exact ⟨_, resolve_eq_ok_iff.1 hb f⟩
  · intro h
    choose k hk using h
    exact ⟨.ofFn k, resolve_eq_ok_iff.2 fun f => by simpa using hk f⟩

/-- A face of an axis that does not wrap around is bounded by the condition of its sampled tag. -/
lemma bounds_iff_of_open (hopen : periodic.get f.axis = false) :
    Bounds periodic tags ghosts f k ↔ ∃ c : WallCondition,
      (tags.get f).get? ghosts ghosts = some c.tag ∧ c.kind? = some k := by
  constructor
  · intro h
    cases h with
    | wraps hwraps => simp [hopen] at hwraps
    | tagged _ htag hkind => exact ⟨_, htag, hkind⟩
  · rintro ⟨c, htag, hkind⟩
    exact .tagged hopen htag hkind

/-! ### One condition for each face -/

/-- The kind of boundary of a face with one condition on it, if there is one. -/
def stated (periodic : Triple Bool) (c : Faces WallCondition) (f : Face) : Option BoundaryKind :=
  if periodic.get f.axis then some .periodic else (c.get f).kind?

variable {c : Faces WallCondition}

lemma bounds_iff_stated (htag : (tags.get f).get? ghosts ghosts = some (c.get f).tag) :
    Bounds periodic tags ghosts f k ↔ stated periodic c f = some k := by
  constructor
  · intro h
    cases h with
    | wraps hwraps => simp [stated, hwraps]
    | @tagged d k hopen htag' hkind =>
        obtain rfl : c.get f = d :=
          WallCondition.tag_injective (Option.some.inj (htag.symm.trans htag'))
        simp [stated, hopen, hkind]
  · intro h
    rw [stated] at h
    split_ifs at h with hwraps
    · cases h
      exact .wraps hwraps
    · exact .tagged (by simpa using hwraps) htag h

lemma refuses_iff_stated (htag : (tags.get f).get? ghosts ghosts = some (c.get f).tag) :
    Refuses periodic tags ghosts f e ↔
      stated periodic c f = none ∧ e = .invalidTag f (c.get f).tag := by
  constructor
  · intro h
    cases h with
    | missing hopen htag' => simp [htag'] at htag
    | @invalid tag hopen htag' hkind =>
        obtain rfl : tag = (c.get f).tag := Option.some.inj (htag'.symm.trans htag)
        exact ⟨by simp [stated, hopen, hkind (c.get f) rfl], rfl⟩
  · rintro ⟨h, rfl⟩
    rw [stated] at h
    split_ifs at h with hwraps
    refine .invalid (by simpa using hwraps) htag fun d hd => ?_
    rw [WallCondition.tag_injective hd, h]

/-! ### What a resolution gives -/

/-- **Tags are resolved face by face.** A resolution succeeds exactly when every face of an axis
that does not wrap around has an entry at the sampled place, with the tag of a condition that bounds
a solve. Each of these faces then has the kind of its own tag, the others are periodic, and so the
boundary matches the periods. Otherwise the resolution gives the fault of the first face that has
one, in the order of `Face.slot`: `x-lo`, `x-hi`, `y-lo`, `y-hi`, `z-lo`, `z-hi`. It depends on
nothing but which axes wrap around and the sampled entries of the other faces. From one condition
for each face of a domain with cells, as `Geometry.make` asks for them, with writes anywhere but at
the sampled places, it gives what the conditions state, and no entry is missing. -/
theorem resolve_exact {K : Type} (g : Geometry K) (tags : DomainTags) (ghosts : ℕ) :
    ((∃ b, tags.resolve g.periodic ghosts = .ok b) ↔ ∀ f, g.periodic.get f.axis = false →
      ∃ c : WallCondition, (tags.get f).get? ghosts ghosts = some c.tag ∧ c.kind?.isSome = true) ∧
    (∀ b, tags.resolve g.periodic ghosts = .ok b →
      b.matchesPeriods g.periodic = true ∧ ∀ f,
        (g.periodic.get f.axis = true → b.get f = .periodic) ∧
        (g.periodic.get f.axis = false → ∃ c : WallCondition,
          (tags.get f).get? ghosts ghosts = some c.tag ∧ c.kind? = some (b.get f))) ∧
    (∀ e, tags.resolve g.periodic ghosts = .error e ↔ ∃ f, Refuses g.periodic tags ghosts f e ∧
      ∀ h : Face, h.slot < f.slot → ∃ k, Bounds g.periodic tags ghosts h k) ∧
    (∀ (g' : Geometry K) (tags' : DomainTags) (ghosts' : ℕ), g'.periodic = g.periodic →
      (∀ f, g.periodic.get f.axis = false →
        (tags'.get f).get? ghosts' ghosts' = (tags.get f).get? ghosts ghosts) →
      tags'.resolve g'.periodic ghosts' = tags.resolve g.periodic ghosts) ∧
    (g.domain.isEmpty = false → ∀ (c : Faces WallCondition) (edits : List TagEdit),
      (∀ e ∈ edits, (e.first, e.second) ≠ (ghosts, ghosts)) →
      let built := edits.foldl edit (.ofConditions g.domain ghosts c)
      (∀ b, built.resolve g.periodic ghosts = .ok b ↔
        ∀ f, stated g.periodic c f = some (b.get f)) ∧
      ∀ e, built.resolve g.periodic ghosts = .error e ↔
        ∃ f, stated g.periodic c f = none ∧ e = .invalidTag f (c.get f).tag ∧
          ∀ h : Face, h.slot < f.slot → stated g.periodic c h ≠ none) := by
  refine ⟨exists_resolve_iff.trans (forall_congr' fun f => ?_), fun b hb => ⟨?_, fun f => ⟨?_, ?_⟩⟩,
    fun e => resolve_eq_error_iff, fun g' tags' ghosts' hperiodic hsampled => ?_,
    fun hcells c edits hedits => ?_⟩
  · cases hopen : g.periodic.get f.axis with
    | true => simpa using ⟨_, Bounds.wraps hopen⟩
    | false =>
        simp only [bounds_iff_of_open hopen, true_implies, Option.isSome_iff_exists]
        exact ⟨fun ⟨k, c, htag, hk⟩ => ⟨c, htag, k, hk⟩, fun ⟨c, htag, k, hk⟩ => ⟨k, c, htag, hk⟩⟩
  · refine List.all_eq_true.2 fun f _ => ?_
    rw [beq_iff_eq, Bool.eq_iff_iff, beq_iff_eq]
    exact resolve_periodic hb f
  · exact (resolve_periodic hb f).2
  · exact fun hopen => (bounds_iff_of_open hopen).1 (resolve_eq_ok_iff.1 hb f)
  · refine resolveFrom_congr fun f _ => ?_
    rw [hperiodic, kind, kind]
    split_ifs with hwraps
    · rfl
    · rw [hsampled f (by simpa using hwraps)]
  · have htag (f : Face) : ((edits.foldl edit (.ofConditions g.domain ghosts c)).get f).get?
        ghosts ghosts = some (c.get f).tag := by
      rw [get_foldl_edit hedits, ofConditions, uniform, Faces.get_ofFn, Faces.get_ofFn]
      exact TagGrid.get?_uniform hcells ..
    refine ⟨fun b => ?_, fun e => ?_⟩
    · exact resolve_eq_ok_iff.trans (forall_congr' fun f => bounds_iff_stated (htag f))
    · simp only [resolve_eq_error_iff, refuses_iff_stated (htag _), bounds_iff_stated (htag _),
        Option.ne_none_iff_exists', and_assoc]

/-- An inlet, an outlet, a wall and something else above it, and no condition on the last axis. -/
private def inlet (top : WallCondition) : Faces WallCondition :=
  ⟨⟨.massInflow, .noSlipWall, .unassigned⟩, ⟨.pressureOutflow, top, .unassigned⟩⟩

/-- A channel that wraps around along its last axis, with two ghost cells and two tags written
beside the sampled places. The faces of the last axis need no condition. Without one on the upper
wall that face is the first to be refused, also if each array has the sampled entry only. -/
theorem resolve_exact_inlet :
    let g : Geometry ℚ :=
      ⟨⟨⟨0, 0, 0⟩, ⟨7, 3, 3⟩, .cell⟩, ⟨0, 0, 0⟩, ⟨2, 1, 1⟩, ⟨false, false, true⟩⟩
    let edits : List TagEdit := [⟨⟨.x, .lo⟩, 0, 0, 999⟩, ⟨⟨.y, .hi⟩, 2, 1, 100⟩]
    let built (top : WallCondition) : DomainTags :=
      edits.foldl edit (.ofConditions g.domain 2 (inlet top))
    let single : DomainTags := .ofFn fun f => ⟨1, 1, #[((inlet .unassigned).get f).tag], rfl⟩
    g.domain.isEmpty = false ∧ (∀ e ∈ edits, (e.first, e.second) ≠ (2, 2)) ∧
    (built .pressureInflow).resolve g.periodic 2
      = .ok ⟨⟨.dirichlet, .dirichlet, .periodic⟩, ⟨.neumann, .neumann, .periodic⟩⟩ ∧
    (built .unassigned).resolve g.periodic 2 = .error (.invalidTag ⟨.y, .hi⟩ 1) ∧
    single.resolve g.periodic 0 = .error (.invalidTag ⟨.y, .hi⟩ 1) := by
  intro g edits built single
  have hcells : g.domain.isEmpty = false := by decide
  have hedits : ∀ e ∈ edits, (e.first, e.second) ≠ (2, 2) := by decide
  have hbuilt (c : Faces WallCondition) :=
    (resolve_exact g single 2).2.2.2.2 hcells c edits hedits
  have hrefused : (built .unassigned).resolve g.periodic 2 = .error (.invalidTag ⟨.y, .hi⟩ 1) := by
    refine ((hbuilt (inlet .unassigned)).2 _).2 ⟨⟨.y, .hi⟩, rfl, rfl, ?_⟩
    rintro ⟨a, s⟩
    cases a <;> cases s <;> decide
  refine ⟨hcells, hedits, ?_, hrefused, ?_⟩
  · refine ((hbuilt (inlet .pressureInflow)).1 _).2 ?_
    rintro ⟨a, s⟩
    cases a <;> cases s <;> rfl
  · rw [← hrefused]
    refine (resolve_exact g (built .unassigned) 2).2.2.2.1 g single 0 rfl ?_
    rintro ⟨a, s⟩
    cases a <;> cases s <;> decide +kernel

end DomainTags

end MeshDiffusion
