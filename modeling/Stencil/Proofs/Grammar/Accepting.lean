import Stencil.Proofs.Grammar.Lookahead
/-!
# What a parser accepts

That a parser takes certain symbols and leaves others says nothing of their places in the source,
nor of what has been recorded before: it holds of every state that has the symbols to read.
-/
namespace Stencil

open Stencil.Symbol (Starts StartsBinding)
open ParseState (behind)

/-- From where `s` is left to read the parser succeeds, records nothing and leaves `r`; `Q` holds of
the result. -/
def Parse.Accepts {α : Type} (p : Parse α) (s r : List Symbol) (Q : α → Prop) : Prop :=
  ∀ st : ParseState, st.symbols = s →
    ∃ a st', p st = (some a, st') ∧ st'.symbols = r ∧ st'.errors = st.errors ∧ Q a

/-- The parser accepts `s` up to `r`, whatever the result. -/
abbrev Parse.Takes {α : Type} (p : Parse α) (s r : List Symbol) : Prop :=
  p.Accepts s r fun _ => True

namespace Parse

variable {α β : Type} {p : Parse α} {s t r : List Symbol} {Q : α → Prop} {R : β → Prop} {m : Mark}

namespace Accepts

theorem pure {a : α} (related : Q a) : (Pure.pure a : Parse α).Accepts s s Q :=
  fun st reads => ⟨a, st, rfl, reads, rfl, related⟩

theorem bind {f : α → Parse β} (first : p.Accepts s t Q)
    (next : ∀ a, Q a → (f a).Accepts t r R) : (p >>= f).Accepts s r R := by
  intro st reads
  obtain ⟨a, st', run, left, kept, related⟩ := first st reads
  obtain ⟨b, st'', run', left', kept', related'⟩ := next a related st' left
  refine ⟨b, st'', ?_, left', kept'.trans kept, related'⟩
  rw [bind_apply, run]
  exact run'

theorem bind_attempt {f : Option α → Parse β} (first : p.Accepts s t Q)
    (next : ∀ a, Q a → (f (some a)).Accepts t r R) : (attempt p >>= f).Accepts s r R := by
  have attempted : (attempt p).Accepts s t fun a? => ∃ a, a? = some a ∧ Q a := by
    intro st reads
    obtain ⟨a, st', run, left, kept, related⟩ := first st reads
    refine ⟨some a, st', ?_, left, kept, a, rfl, related⟩
    rw [attempt, run]
  refine attempted.bind fun a? found => ?_
  obtain ⟨a, rfl, related⟩ := found
  exact next a related

/-- What a parser does where `s` is next may be read off another one. -/
theorem of_branch {p' : Parse α} (same : ∀ st, st.symbols = s → p st = p' st)
    (accepts : p'.Accepts s r Q) : p.Accepts s r Q := by
  intro st reads
  rw [same st reads]
  exact accepts st reads

/-- What a parser does where `x` is next may be read off another one that begins behind it. -/
theorem of_behind {p' : Parse α} {x : Symbol}
    (same : ∀ st, st.symbols = x :: s → p st = p' (behind st)) (accepts : p'.Accepts s r Q) :
    p.Accepts (x :: s) r Q := by
  intro st reads
  rw [same st reads]
  refine accepts (behind st) ?_
  rw [ParseState.symbols_behind, reads]
  rfl

/-! ## Single symbols -/

theorem bind_eat {f : Bool → Parse β} (next : (f true).Accepts s r R) :
    (eat m >>= f).Accepts (.mark m :: s) r R :=
  of_behind (fun st reads => bind_eat_of_starts f (by rw [reads]; rfl)) next

theorem bind_eat_other {f : Bool → Parse β} (other : ¬ Starts m s)
    (next : (f false).Accepts s r R) : (eat m >>= f).Accepts s r R :=
  of_branch (fun _ reads => bind_eat_of_not_starts f (reads ▸ other)) next

theorem bind_expect {f : Unit → Parse β} (next : (f ()).Accepts s r R) :
    (expect m >>= f).Accepts (.mark m :: s) r R := by
  have expected : (expect m).Accepts (.mark m :: s) s fun _ => True := bind_eat (pure trivial)
  exact expected.bind fun _ _ => next

theorem bind_expectName {name : String} {f : String → Parse β} (next : (f name).Accepts s r R) :
    (expectName >>= f).Accepts (.name name :: s) r R := by
  refine of_behind (fun st reads => ?_) next
  have run : expectName st = (some name, behind st) := by
    rw [expectName, bind_peek, reads]
    rfl
  rw [bind_apply, run]

/-! ## Repetitions -/

theorem chain_stop {next : α → Parse α} (stops : ¬ Starts m r) (n : Nat) {a : α} (related : Q a) :
    (chain m next n a).Accepts r r Q := by
  cases n with
  | zero => exact pure related
  | succ n => exact bind_eat_other stops (pure related)

/-- A repetition that has a step for each symbol takes one more step and goes on. -/
theorem chain_step {next : α → Parse α} {a : α} {Q' : α → Prop} (step : (next a).Accepts s t Q')
    (shorter : t.length ≤ s.length)
    (others : ∀ n b, Q' b → t.length ≤ n → (chain m next n b).Accepts t r Q) (n : Nat)
    (enough : (Symbol.mark m :: s).length ≤ n) :
    (chain m next n a).Accepts (.mark m :: s) r Q := by
  cases n with
  | zero => cases enough
  | succ n =>
    have left : s.length ≤ n := Nat.le_of_succ_le_succ enough
    exact bind_eat (step.bind fun b related => others n b related (Nat.le_trans shorter left))

theorem repeated {next : α → Parse α} {a : α}
    (chained : ∀ n, s.length ≤ n → (chain m next n a).Accepts s r Q) :
    (repeated m next a).Accepts s r Q := by
  intro st reads
  refine chained st.rest.length (Nat.le_of_eq ?_) st reads
  rw [← reads, ParseState.length_symbols]

end Accepts
end Parse
end Stencil
