import Mathlib.Tactic

/-!
Outcomes of computations that may fail.

An `Outcome` says of a result both what it can be and what its faults are. It is found from the two
cases, one of which always holds (`Outcome.of_cases`), and carried along a computation
(`Outcome.bind`).
-/

namespace MeshDiffusion

variable {ε α β : Type}

/-- What a result can be, and what its faults are. -/
structure Outcome (x : Except ε α) (P : α → Prop) (Q : ε → Prop) : Prop where
  ok_iff : ∀ a, x = .ok a ↔ P a
  error_iff : ∀ e, x = .error e ↔ Q e

namespace Outcome

variable {x : Except ε α} {P P' : α → Prop} {Q Q' : ε → Prop}

/-- A result is decided by two cases that cover everything. -/
lemma of_cases (hok : ∀ a, P a → x = .ok a) (herror : ∀ e, Q e → x = .error e)
    (hcases : (∃ a, P a) ∨ ∃ e, Q e) : Outcome x P Q := by
  refine ⟨fun a => ⟨fun h => ?_, hok a⟩, fun e => ⟨fun h => ?_, herror e⟩⟩
  · rcases hcases with ⟨b, hb⟩ | ⟨e, he⟩
    · obtain rfl : b = a := Except.ok.inj ((hok b hb).symm.trans h)
      exact hb
    · simp [herror e he] at h
  · rcases hcases with ⟨a, ha⟩ | ⟨e', he'⟩
    · simp [hok a ha] at h
    · obtain rfl : e' = e := Except.error.inj ((herror e' he').symm.trans h)
      exact he'

lemma congr (h : Outcome x P Q) (hP : ∀ a, P a ↔ P' a) (hQ : ∀ e, Q e ↔ Q' e) :
    Outcome x P' Q' :=
  ⟨fun a => (h.ok_iff a).trans (hP a), fun e => (h.error_iff e).trans (hQ e)⟩

lemma pure (a : α) : Outcome (.ok a : Except ε α) (a = ·) fun _ => False :=
  of_cases (fun _ h => congrArg _ h) (fun _ => False.elim) (.inl ⟨a, rfl⟩)

/-- A fault is that of the first computation, or that of the second one on what the first gives. -/
lemma bind {f : α → Except ε β} {R : α → β → Prop} {S : α → ε → Prop} (h : Outcome x P Q)
    (hf : ∀ a, P a → Outcome (f a) (R a) (S a)) :
    Outcome (x >>= f) (fun b => ∃ a, P a ∧ R a b) fun e => Q e ∨ ∃ a, P a ∧ S a e := by
  refine of_cases ?_ ?_ ?_
  · rintro b ⟨a, ha, hb⟩
    rw [(h.ok_iff a).2 ha]
    exact ((hf a ha).ok_iff b).2 hb
  · rintro e (he | ⟨a, ha, he⟩)
    · rw [(h.error_iff e).2 he]
      rfl
    · rw [(h.ok_iff a).2 ha]
      exact ((hf a ha).error_iff e).2 he
  · cases x with
    | error e => exact .inr ⟨e, .inl ((h.error_iff e).1 rfl)⟩
    | ok a =>
        have ha := (h.ok_iff a).1 rfl
        cases hfa : f a with
        | ok b => exact .inl ⟨b, a, ha, ((hf a ha).ok_iff b).1 hfa⟩
        | error e => exact .inr ⟨e, .inr ⟨a, ha, ((hf a ha).error_iff e).1 hfa⟩⟩

end Outcome

end MeshDiffusion
