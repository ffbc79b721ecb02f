import Mathlib.Tactic
import MeshDiffusion.Arith.Double
import MeshDiffusion.Proofs.Arith.DoubleOrder
import MeshDiffusion.Proofs.Setup.Outcome
import MeshDiffusion.Proofs.Setup.Params
import MeshDiffusion.Setup.Options

/-!
Options from parameters.

An option has the value that its text is read as, or its default when its key is not there
(`DiffusionOptions.Takes`, and `DiffusionOptions.Given` for all of them). What can go wrong comes in
two stages: a text that cannot be read, then a value outside its range.

* `DiffusionOptions.typed` lists the options whose texts may not be read, in the order in which they
  are; `DiffusionOptions.outcome_read`: reading gives all options, or the first fault in that order;
* `DiffusionOptions.InRange`, `DiffusionOptions.OutOfRange`: the ranges, and the fault of the first
  value outside of one; `DiffusionOptions.outcome_validate`: the check decides between them;
* `DiffusionOptions.get?_eq_of_perm`: in a table without repeated keys, neither the order of entries
  nor the entries of other keys count;
* `DiffusionOptions.ofParams_exact`: when a table gives options, which ones, what the fault is
  otherwise, and that nothing but the entries of the ten keys counts.
-/

namespace MeshDiffusion

namespace DiffusionOptions

variable {K : Type}

/-! ### One option -/

section One

variable {α β : Type} {t t' : Params} {kind : ValueKind α} {key : String} {d v w : α}

/-- An option takes the value that its text is read as, or its default when its key is not there. -/
def Takes (t : Params) (kind : ValueKind α) (key : String) (d v : α) : Prop :=
  match t.get? scope key with
  | none => v = d
  | some raw => kind.read? raw = some v

/-- An option whose key is not there takes its default. -/
lemma Takes.of_absent (h : t.get? scope key = none) : Takes t kind key d d := by
  rw [Takes, h]

/-- An option takes the value that its text is read as. -/
lemma Takes.of_read (raw : String) (h : t.get? scope key = some raw)
    (hread : kind.read? raw = some v) : Takes t kind key d v := by
  rw [Takes, h]
  exact hread

lemma Takes.unique (h : Takes t kind key d v) (h' : Takes t kind key d w) : v = w := by
  rw [Takes] at h h'
  cases hraw : t.get? scope key with
  | none =>
      rw [hraw] at h h'
      exact h.trans h'.symm
  | some raw =>
      rw [hraw] at h h'
      exact Option.some.inj (h.symm.trans h')

/-- An option whose text may not be read: its key, what is expected, and which texts it reads. -/
structure Typed where
  key : String
  expected : String
  reads : String → Bool

/-- The option of a key with a kind of values. -/
def Typed.of (key : String) (kind : ValueKind α) : Typed :=
  ⟨key, kind.expected, fun raw => (kind.read? raw).isSome⟩

/-- The fault of an option that is there and cannot be read. -/
def Typed.fault? (t : Params) (o : Typed) : Option (ParamFault K) :=
  (t.get? scope o.key).bind fun raw =>
    if o.reads raw then none else some (.unreadable (scope ++ "." ++ o.key) raw o.expected)

lemma Typed.fault?_eq_none_iff {o : Typed} :
    o.fault? t = (none : Option (ParamFault K)) ↔
      ∀ raw, t.get? scope o.key = some raw → o.reads raw = true := by
  simp only [Typed.fault?, Option.bind_eq_none_iff]
  refine forall₂_congr fun raw _ => ?_
  split_ifs with hreads <;> simp [hreads]

lemma Typed.fault?_eq_some_iff {o : Typed} {e : ParamFault K} :
    o.fault? t = some e ↔ ∃ raw, t.get? scope o.key = some raw ∧ o.reads raw = false ∧
      e = .unreadable (scope ++ "." ++ o.key) raw o.expected := by
  simp only [Typed.fault?, Option.bind_eq_some_iff]
  refine exists_congr fun raw => and_congr_right fun _ => ?_
  split_ifs with hreads <;> simp [hreads, eq_comm]

/-- An option is read as the value that it takes, or has a fault. -/
lemma outcome_option (t : Params) (kind : ValueKind α) (key : String) (d : α) :
    Outcome (option t kind key d : Except (ParamFault K) α) (Takes t kind key d)
      fun e => (Typed.of key kind).fault? t = some e := by
  rw [option, Params.query]
  simp only [Typed.fault?, Typed.of]
  cases hraw : t.get? scope key with
  | none => exact ⟨by simp [Except.map, Takes, hraw, eq_comm], by simp [Except.map]⟩
  | some raw =>
      cases hread : kind.read? raw with
      | some v => exact ⟨by simp [Except.map, Takes, hraw, hread], by simp [Except.map, hread]⟩
      | none => exact ⟨by simp [Except.map, Takes, hraw, hread], by simp [Except.map, hread]⟩

/-- Only the entry of its key counts for an option. -/
lemma option_congr (h : t'.get? scope key = t.get? scope key) (kind : ValueKind α) (d : α) :
    (option t' kind key d : Except (ParamFault K) α) = option t kind key d := by
  rw [option, option, Params.query, Params.query, h]

/-- The first option is read before the others. -/
lemma outcome_option_bind {os : List Typed} {P : β → Prop} {f : α → Except (ParamFault K) β}
    (hP : ∀ b, P b → ∃ v, Takes t kind key d v)
    (hf : ∀ v, Takes t kind key d v →
      Outcome (f v) P fun e => os.findSome? (Typed.fault? t) = some e) :
    Outcome (option t kind key d >>= f) P
      fun e => (Typed.of key kind :: os).findSome? (Typed.fault? t) = some e := by
  have hoption := outcome_option (K := K) t kind key d
  rw [List.findSome?_cons]
  cases hfirst : (option t kind key d : Except (ParamFault K) α) with
  | ok v =>
      have hnone : (Typed.of key kind).fault? t = (none : Option (ParamFault K)) := by
        refine Option.eq_none_iff_forall_ne_some.2 fun e he => ?_
        simp [(hoption.error_iff e).2 he] at hfirst
      rw [hnone]
      exact hf v ((hoption.ok_iff v).1 hfirst)
  | error e =>
      rw [(hoption.error_iff e).1 hfirst]
      refine .of_cases (fun b hb => ?_) (fun e' he' => congrArg _ (Option.some.inj he'))
        (.inr ⟨e, rfl⟩)
      obtain ⟨v, hv⟩ := hP b hb
      simp [(hoption.ok_iff v).2 hv] at hfirst

end One

/-! ### All options -/

variable [Scalar K] [Text.DecimalText K] {t t' : Params} {c c' : DiffusionOptions K}
  {e : ParamFault K}

/-- The options whose texts may not be read, in the order of reading. -/
def typed (K : Type) [Text.DecimalText K] : List Typed :=
  [.of "verbose" .int32, .of "mg_verbose" .int32, .of "mg_cg_verbose" .int32,
    .of "mg_max_iter" .nat64, .of "mg_cg_maxiter" .nat64, .of "mg_max_fmg_iter" .nat64,
    .of "mg_max_coarsening_level" .nat64, .of "mg_rtol" (.number : ValueKind K),
    .of "mg_atol" (.number : ValueKind K)]

/-- The keys of all options. -/
def keys : List String :=
  ["verbose", "mg_verbose", "mg_cg_verbose", "mg_max_iter", "mg_cg_maxiter", "mg_max_fmg_iter",
    "mg_max_coarsening_level", "mg_rtol", "mg_atol", "bottom_solver_type"]

/-- Every option has the value that a table gives for it, or its default. -/
structure Given (t : Params) (c : DiffusionOptions K) : Prop where
  verbose : Takes t .int32 "verbose" (defaults : DiffusionOptions K).verbose c.verbose
  solverVerbose :
    Takes t .int32 "mg_verbose" (defaults : DiffusionOptions K).solverVerbose c.solverVerbose
  innerVerbose :
    Takes t .int32 "mg_cg_verbose" (defaults : DiffusionOptions K).innerVerbose c.innerVerbose
  maxCycles : Takes t .nat64 "mg_max_iter" (defaults : DiffusionOptions K).maxCycles c.maxCycles
  maxInner : Takes t .nat64 "mg_cg_maxiter" (defaults : DiffusionOptions K).maxInner c.maxInner
  maxFullCycles :
    Takes t .nat64 "mg_max_fmg_iter" (defaults : DiffusionOptions K).maxFullCycles c.maxFullCycles
  maxCoarsening : Takes t .nat64 "mg_max_coarsening_level"
    (defaults : DiffusionOptions K).maxCoarsening c.maxCoarsening
  rtol : Takes t .number "mg_rtol" (defaults : DiffusionOptions K).rtol c.rtol
  atol : Takes t .number "mg_atol" (defaults : DiffusionOptions K).atol c.atol
  innerMethod : c.innerMethod = match t.get? scope "bottom_solver_type" with
    | none => (defaults : DiffusionOptions K).innerMethod
    | some raw => InnerMethod.ofName raw

lemma Given.unique (h : Given t c) (h' : Given t c') : c = c' := by
  cases c
  cases c'
  rw [mk.injEq]
  exact ⟨h.verbose.unique h'.verbose, h.solverVerbose.unique h'.solverVerbose,
    h.innerVerbose.unique h'.innerVerbose, h.maxCycles.unique h'.maxCycles,
    h.maxInner.unique h'.maxInner, h.maxFullCycles.unique h'.maxFullCycles,
    h.maxCoarsening.unique h'.maxCoarsening, h.rtol.unique h'.rtol, h.atol.unique h'.atol,
    h.innerMethod.trans h'.innerMethod.symm⟩

/-- Reading gives every option, or the first fault. -/
lemma outcome_read (t : Params) :
    Outcome (read t : Except (ParamFault K) (DiffusionOptions K)) (Given t)
      fun e => (typed K).findSome? (Typed.fault? t) = some e := by
  refine outcome_option_bind (fun c h => ⟨_, h.verbose⟩) fun verbose hverbose =>
    outcome_option_bind (fun c h => ⟨_, h.solverVerbose⟩) fun solverVerbose hsolverVerbose =>
    outcome_option_bind (fun c h => ⟨_, h.innerVerbose⟩) fun innerVerbose hinnerVerbose =>
    outcome_option_bind (fun c h => ⟨_, h.maxCycles⟩) fun maxCycles hmaxCycles =>
    outcome_option_bind (fun c h => ⟨_, h.maxInner⟩) fun maxInner hmaxInner =>
    outcome_option_bind (fun c h => ⟨_, h.maxFullCycles⟩) fun maxFullCycles hmaxFullCycles =>
    outcome_option_bind (fun c h => ⟨_, h.maxCoarsening⟩) fun maxCoarsening hmaxCoarsening =>
    outcome_option_bind (fun c h => ⟨_, h.rtol⟩) fun rtol hrtol =>
    outcome_option_bind (fun c h => ⟨_, h.atol⟩) fun atol hatol => ?_
  refine (Outcome.pure _).congr (fun c => ⟨?_, fun h => ?_⟩) (by simp)
  · rintro rfl
    refine ⟨hverbose, hsolverVerbose, hinnerVerbose, hmaxCycles, hmaxInner, hmaxFullCycles,
      hmaxCoarsening, hrtol, hatol, ?_⟩
    cases t.get? scope "bottom_solver_type" <;> rfl
  · refine Given.unique ⟨hverbose, hsolverVerbose, hinnerVerbose, hmaxCycles, hmaxInner,
      hmaxFullCycles, hmaxCoarsening, hrtol, hatol, ?_⟩ h
    cases t.get? scope "bottom_solver_type" <;> rfl

/-- Only the entries of the ten keys count. -/
lemma read_congr (h : ∀ key ∈ keys, t'.get? scope key = t.get? scope key) :
    (read t' : Except (ParamFault K) (DiffusionOptions K)) = read t := by
  simp only [keys, List.forall_mem_cons] at h
  obtain ⟨hverbose, hsolverVerbose, hinnerVerbose, hmaxCycles, hmaxInner, hmaxFullCycles,
    hmaxCoarsening, hrtol, hatol, hinnerMethod, -⟩ := h
  simp only [read, option_congr hverbose, option_congr hsolverVerbose, option_congr hinnerVerbose,
    option_congr hmaxCycles, option_congr hmaxInner, option_congr hmaxFullCycles,
    option_congr hmaxCoarsening, option_congr hrtol, option_congr hatol, hinnerMethod]

/-! ### Ranges -/

section Ranges

omit [Text.DecimalText K]

/-- A tolerance may be any finite number from zero on. -/
def Tolerable (tol : K) : Prop := Scalar.isFinite tol = true ∧ (0.0 : K) ≤ tol

/-- The options whose values are inside their ranges. -/
structure InRange (c : DiffusionOptions K) : Prop where
  rtol : Tolerable c.rtol
  atol : Tolerable c.atol
  maxCycles : 1 ≤ c.maxCycles
  maxInner : 1 ≤ c.maxInner

/-- The fault of the first value outside its range. -/
inductive OutOfRange (c : DiffusionOptions K) : ParamFault K → Prop
  | rtol (h : ¬Tolerable c.rtol) :
      OutOfRange c (.outOfRange (scope ++ "." ++ "mg_rtol") (.badTolerance c.rtol))
  | atol (hrtol : Tolerable c.rtol) (h : ¬Tolerable c.atol) :
      OutOfRange c (.outOfRange (scope ++ "." ++ "mg_atol") (.badTolerance c.atol))
  | maxCycles (hrtol : Tolerable c.rtol) (hatol : Tolerable c.atol) (h : c.maxCycles = 0) :
      OutOfRange c (.outOfRange (scope ++ "." ++ "mg_max_iter") .zeroCap)
  | maxInner (hrtol : Tolerable c.rtol) (hatol : Tolerable c.atol) (hcycles : 1 ≤ c.maxCycles)
      (h : c.maxInner = 0) :
      OutOfRange c (.outOfRange (scope ++ "." ++ "mg_cg_maxiter") .zeroCap)

omit [Scalar K] in
lemma outcome_checkCap (key : String) (cap : ℕ) :
    Outcome (checkCap key cap : Except (ParamFault K) Unit) (fun _ => 1 ≤ cap)
      fun e => cap = 0 ∧ .outOfRange (scope ++ "." ++ key) .zeroCap = e := by
  rw [checkCap]
  split_ifs with hcap
  · exact ⟨by simp [hcap], by simp [hcap]⟩
  · exact ⟨by simp [Nat.one_le_iff_ne_zero, hcap], by simp [hcap]⟩

variable [Scalar.LawfulOrder K]

lemma tolerable_iff {tol : K} :
    Tolerable tol ↔ ¬(!Scalar.isFinite tol || decide (tol < 0.0)) = true := by
  simp only [Tolerable, Bool.or_eq_true, not_or, Bool.not_eq_true', Bool.not_eq_false,
    decide_eq_true_eq]
  refine and_congr_right fun hfin => ⟨fun hle hlt => (Scalar.lt_iff.1 hlt).2.2 hle, fun h => ?_⟩
  by_contra hle
  exact h (Scalar.lt_iff.2 ⟨Scalar.number_of_isFinite hfin, Scalar.number_zero, hle⟩)

lemma outcome_checkTolerance (key : String) (tol : K) :
    Outcome (checkTolerance key tol) (fun _ => Tolerable tol)
      fun e => ¬Tolerable tol ∧ .outOfRange (scope ++ "." ++ key) (.badTolerance tol) = e := by
  rw [checkTolerance]
  split_ifs with htol
  · have hbad : ¬Tolerable tol := fun h => tolerable_iff.1 h htol
    exact ⟨by simp [hbad], by simp [hbad]⟩
  · have hgood : Tolerable tol := tolerable_iff.2 htol
    exact ⟨by simp [hgood], by simp [hgood]⟩

/-- The check gives the first fault. -/
lemma outcome_validate (c : DiffusionOptions K) :
    Outcome c.validate (fun _ => InRange c) (OutOfRange c) := by
  refine ((outcome_checkTolerance _ _).bind fun _ _ => (outcome_checkTolerance _ _).bind fun _ _ =>
    (outcome_checkCap _ _).bind fun _ _ => outcome_checkCap _ _).congr (fun _ => ?_) fun e => ?_
  · constructor
    · rintro ⟨_, hrtol, _, hatol, _, hcycles, hinner⟩
      exact ⟨hrtol, hatol, hcycles, hinner⟩
    · exact fun h => ⟨(), h.rtol, (), h.atol, (), h.maxCycles, h.maxInner⟩
  · constructor
    · rintro (⟨h, rfl⟩ | ⟨_, hrtol, ⟨h, rfl⟩ | ⟨_, hatol, ⟨h, rfl⟩ | ⟨_, hcycles, h, rfl⟩⟩⟩)
      · exact .rtol h
      · exact .atol hrtol h
      · exact .maxCycles hrtol hatol h
      · exact .maxInner hrtol hatol hcycles h
    · rintro (h | ⟨hrtol, h⟩ | ⟨hrtol, hatol, h⟩ | ⟨hrtol, hatol, hcycles, h⟩)
      · exact .inl ⟨h, rfl⟩
      · exact .inr ⟨(), hrtol, .inl ⟨h, rfl⟩⟩
      · exact .inr ⟨(), hrtol, .inr ⟨(), hatol, .inl ⟨h, rfl⟩⟩⟩
      · exact .inr ⟨(), hrtol, .inr ⟨(), hatol, .inr ⟨(), hcycles, h, rfl⟩⟩⟩

end Ranges

/-! ### Options from tables -/

/-- Options are read, then their ranges are checked. -/
lemma outcome_ofParams [Scalar.LawfulOrder K] (t : Params) :
    Outcome (ofParams t) (fun c : DiffusionOptions K => Given t c ∧ InRange c)
      fun e => (typed K).findSome? (Typed.fault? t) = some e ∨
        ∃ c : DiffusionOptions K, Given t c ∧ OutOfRange c e := by
  refine ((outcome_read t).bind fun c _ => (outcome_validate c).bind fun _ _ =>
    Outcome.pure c).congr (fun c => ?_) fun e => ?_
  · simp
  · simp

/-- The full keys of all options. -/
def fullKeys : List String := keys.map (scope ++ "." ++ ·)

/-- In tables without repeated keys, neither the order of entries nor other keys count. -/
lemma get?_eq_of_perm (hkeys : (t.entries.map Prod.fst).Nodup)
    (h : (t'.entries.filter (·.1 ∈ fullKeys)).Perm (t.entries.filter (·.1 ∈ fullKeys))) :
    ∀ key ∈ keys, t'.get? scope key = t.get? scope key := by
  intro key hkey
  have hfilter (u : Params) : (u.entries.filter (·.1 ∈ fullKeys)).lookup (scope ++ "." ++ key)
      = u.get? scope key :=
    Params.lookup_filter (p := (· ∈ fullKeys)) (decide_eq_true (List.mem_map_of_mem hkey)) _
  have hnodup : ((t.entries.filter (·.1 ∈ fullKeys)).map Prod.fst).Nodup :=
    hkeys.sublist (List.filter_sublist.map _)
  rw [← hfilter t', ← hfilter t]
  exact (Params.lookup_perm h.symm hnodup _).symm

/-- **Options are read one by one, then checked.** A table gives options exactly when each of them
is read from the text of its key, or is the default where its key is not there, and all ranges hold;
the options then pass their check. Otherwise the fault is that of the first text that cannot be
read, in the order of reading and whatever the ranges are, or that of the first range that does not
hold. In a table without repeated keys, and setting a value repeats none
(`Params.nodup_keys_insert`), nothing else counts: neither the order of the entries nor any entry of
another key. -/
theorem ofParams_exact [Scalar.LawfulOrder K] (t : Params) :
    (∀ c : DiffusionOptions K, ofParams t = .ok c ↔ Given t c ∧ InRange c) ∧
    (∀ c : DiffusionOptions K, ofParams t = .ok c → c.validate = .ok ()) ∧
    (∀ e : ParamFault K, (ofParams t : Except _ (DiffusionOptions K)) = .error e ↔
      (∃ before o after raw, typed K = before ++ o :: after ∧
        (∀ p ∈ before, ∀ text, t.get? scope p.key = some text → p.reads text = true) ∧
        t.get? scope o.key = some raw ∧ o.reads raw = false ∧
        e = .unreadable (scope ++ "." ++ o.key) raw o.expected) ∨
      ∃ c : DiffusionOptions K, Given t c ∧ OutOfRange c e) ∧
    ((t.entries.map Prod.fst).Nodup → ∀ t' : Params,
      (t'.entries.filter (·.1 ∈ fullKeys)).Perm (t.entries.filter (·.1 ∈ fullKeys)) →
        (ofParams t' : Except (ParamFault K) (DiffusionOptions K)) = ofParams t) := by
  have hresult := outcome_ofParams (K := K) t
  refine ⟨hresult.ok_iff, fun c h => ?_, fun e => ?_, fun hkeys t' h => ?_⟩
  · exact ((outcome_validate c).ok_iff ()).2 ((hresult.ok_iff c).1 h).2
  · simp only [hresult.error_iff, List.findSome?_eq_some_iff, Typed.fault?_eq_some_iff,
      Typed.fault?_eq_none_iff]
    refine or_congr_left ⟨?_, ?_⟩
    · rintro ⟨before, o, after, heq, ⟨raw, hraw, hreads, he⟩, hbefore⟩
      exact ⟨before, o, after, raw, heq, hbefore, hraw, hreads, he⟩
    · rintro ⟨before, o, after, raw, heq, hbefore, hraw, hreads, he⟩
      exact ⟨before, o, after, heq, ⟨raw, hraw, hreads, he⟩, hbefore⟩
  · rw [ofParams, ofParams, read_congr (get?_eq_of_perm hkeys h)]

/-- Two caps that cannot be read and a tolerance below zero: the cap that is read first is named,
also without the cap of another scope and in another order. A table with a cap, a tolerance and the
name of an inner solver gives these three, whatever the tolerance of another scope is. -/
theorem ofParams_exact_mixed :
    let t : Params := ⟨[("diffusion.mg_atol", "-1"), ("amr.mg_max_iter", "50"),
      ("diffusion.mg_cg_maxiter", "many"), ("diffusion.mg_max_iter", "1e3")]⟩
    let t' : Params := ⟨[("diffusion.mg_max_iter", "1e3"), ("diffusion.mg_atol", "-1"),
      ("diffusion.mg_cg_maxiter", "many")]⟩
    let fault : ParamFault Float := .unreadable "diffusion.mg_max_iter" "1e3" "usize"
    let u : Params := ⟨[("diffusion.bottom_solver_type", " hypre "), ("amr.mg_rtol", "-1"),
      ("diffusion.mg_max_iter", "200"), ("diffusion.mg_rtol", "1e-6")]⟩
    let c : DiffusionOptions Float :=
      { defaults with maxCycles := 200, rtol := 1e-6, innerMethod := .hypre }
    (t.entries.map Prod.fst).Nodup ∧
    (t'.entries.filter (·.1 ∈ fullKeys)).Perm (t.entries.filter (·.1 ∈ fullKeys)) ∧
    (ofParams t : Except _ (DiffusionOptions Float)) = .error fault ∧
    (ofParams t' : Except _ (DiffusionOptions Float)) = .error fault ∧
    ofParams u = .ok c ∧ c.validate = .ok () := by
  intro t t' fault u c
  have hkeys : (t.entries.map Prod.fst).Nodup := by decide
  have hperm : (t'.entries.filter (·.1 ∈ fullKeys)).Perm (t.entries.filter (·.1 ∈ fullKeys)) := by
    decide +kernel
  have hfault : (ofParams t : Except _ (DiffusionOptions Float)) = .error fault := by
    have habsent : ∀ p ∈ (typed Float).take 3, t.get? scope p.key = none := by decide +kernel
    refine ((ofParams_exact t).2.2.1 fault).2 (.inl ⟨(typed Float).take 3, .of "mg_max_iter" .nat64,
      (typed Float).drop 4, "1e3", rfl, fun p hp text htext => ?_, by decide +kernel,
      by decide +kernel, ?_⟩)
    · simp [habsent p hp] at htext
    · rfl
  have hgiven : Given u c :=
    { verbose := .of_absent (by decide +kernel)
      solverVerbose := .of_absent (by decide +kernel)
      innerVerbose := .of_absent (by decide +kernel)
      maxCycles := .of_read "200" (by decide +kernel) (by decide +kernel)
      maxInner := .of_absent (by decide +kernel)
      maxFullCycles := .of_absent (by decide +kernel)
      maxCoarsening := .of_absent (by decide +kernel)
      rtol := .of_read "1e-6" (by decide +kernel) rfl
      atol := .of_absent (by decide +kernel)
      innerMethod := by decide +kernel }
  have hrange : InRange c :=
    ⟨⟨by decide +kernel, by decide +kernel⟩, ⟨by decide +kernel, by decide +kernel⟩, by decide,
      by decide⟩
  have hread : ofParams u = .ok c := ((ofParams_exact u).1 c).2 ⟨hgiven, hrange⟩
  exact ⟨hkeys, hperm, hfault, ((ofParams_exact t).2.2.2 hkeys t' hperm).trans hfault, hread,
    (ofParams_exact u).2.1 c hread⟩

/-- Tolerances are checked before caps, in whatever order they are given. -/
example : (ofParams ⟨[("diffusion.mg_max_iter", "0"), ("diffusion.mg_atol", "-1")]⟩ :
    Except _ (DiffusionOptions Float))
      = .error (.outOfRange "diffusion.mg_atol" (.badTolerance (-1.0))) := by rfl

end DiffusionOptions

end MeshDiffusion
