import Stencil.Template.Parse
/-!
# What a parser yields

What can be said of the results of a parser whatever it reads, and whatever errors it records on the
way.
-/
namespace Stencil

/-- Whatever the parser returns has the property. -/
def Parse.Yields {α : Type} (p : Parse α) (P : α → Prop) : Prop :=
  ∀ st a st', p st = (some a, st') → P a

namespace Parse.Yields

variable {α β : Type} {p : Parse α} {f : α → Parse β} {P : α → Prop} {Q : β → Prop}

theorem pure {a : α} (holds : P a) : (Pure.pure a : Parse α).Yields P := by
  rintro st _ _ ⟨⟩
  exact holds

theorem giveUp : (Parse.giveUp : Parse α).Yields P := by
  rintro st _ _ ⟨⟩

theorem fail (problem : SourceProblem) : (Parse.fail problem : Parse α).Yields P := by
  rintro st _ _ ⟨⟩

theorem bind (first : p.Yields P) (next : ∀ a, P a → (f a).Yields Q) : (p >>= f).Yields Q := by
  intro st b st' ran
  rw [bind_apply] at ran
  rcases outcome : p st with ⟨_ | a, between⟩ <;> rw [outcome] at ran
  · cases ran
  · exact next a (first st a between outcome) between b st' ran

/-- What comes first does not matter. -/
theorem skip (next : ∀ a, (f a).Yields Q) : (p >>= f).Yields Q :=
  bind (P := fun _ => True) (fun _ _ _ _ => trivial) fun a _ => next a

theorem and {P' : α → Prop} (yields : p.Yields P) (yields' : p.Yields P') :
    p.Yields fun a => P a ∧ P' a :=
  fun st a st' ran => ⟨yields st a st' ran, yields' st a st' ran⟩

theorem attempt (yields : p.Yields P) : (Parse.attempt p).Yields fun a? => ∀ a ∈ a?, P a := by
  rintro st a? st' ran a member
  rcases outcome : p st with ⟨b?, between⟩
  simp only [Parse.attempt, outcome, Prod.mk.injEq, Option.some.injEq] at ran
  obtain ⟨rfl, rfl⟩ := ran
  exact yields st a _ (by rw [outcome, member])

theorem chain {m : Mark} {next : α → Parse α} (step : ∀ a, P a → (next a).Yields P) (n : Nat)
    {a : α} (holds : P a) : (Parse.chain m next n a).Yields P := by
  induction n generalizing a with
  | zero => exact pure holds
  | succ n ih =>
    refine skip fun eaten => ?_
    split
    · exact bind (step a holds) fun b => ih
    · exact pure holds

theorem repeated {m : Mark} {next : α → Parse α} (step : ∀ a, P a → (next a).Yields P) {a : α}
    (holds : P a) : (Parse.repeated m next a).Yields P :=
  fun st => chain step st.rest.length holds st

end Parse.Yields

end Stencil
