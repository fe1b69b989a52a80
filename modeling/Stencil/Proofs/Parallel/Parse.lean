import Stencil.Proofs.Grammar.Soundness
import Stencil.Proofs.Parallel.Names
/-!
# Two parsers in parallel

Two parsers that read the same symbols, wherever they stand, take the same decisions: they return
what is the same up to the names in it, and either both record an error or neither does. Nothing is
asked of the compilation of inline templates but that it does the same on both sides, for those
bodies at least that may occur.
-/
namespace Stencil

open Text (Position)

/-- The same symbols are left and both states have recorded errors or neither has. Only inline
templates that fit are left. -/
structure ParseState.Parallel (fits : List Char → Prop) (st st' : ParseState) : Prop where
  symbols : st.symbols = st'.symbols
  clean : st.errors = [] ↔ st'.errors = []
  inlines : st.inlines = st'.inlines
  fits : ∀ raw, .inline raw ∈ st.symbols → fits raw

/-- From parallel states on, both parsers fail or neither does, their results are related, and the
states behind them are parallel. -/
def Parse.Parallel (fits : List Char → Prop) {α β : Type} (R : α → β → Prop) (p : Parse α)
    (q : Parse β) : Prop :=
  ∀ st st', st.Parallel fits st' →
    Option.Rel R (p st).1 (q st').1 ∧ (p st).2.Parallel fits (q st').2

namespace ParseState.Parallel

variable {fits : List Char → Prop} {st st' : ParseState} {rest rest' : List Lexeme}

/-- Fewer symbols are left. -/
theorem drop (parallel : st.Parallel fits st')
    (symbols : rest.map Lexeme.symbol = rest'.map Lexeme.symbol) (fewer : rest.Sublist st.rest) :
    Parallel fits { st with rest } { st' with rest := rest' } where
  symbols := symbols
  clean := parallel.clean
  inlines := parallel.inlines
  fits raw member := parallel.fits raw ((fewer.map Lexeme.symbol).subset member)

theorem record (parallel : st.Parallel fits st') {errors errors' : List TemplateError}
    (clean : errors = [] ↔ errors' = []) :
    Parallel fits { st with errors := st.errors ++ errors }
      { st' with errors := st'.errors ++ errors' } where
  symbols := parallel.symbols
  clean := by
    dsimp only
    rw [List.append_eq_nil_iff, List.append_eq_nil_iff, parallel.clean, clean]
  inlines := parallel.inlines
  fits := parallel.fits

end ParseState.Parallel

namespace Parse

theorem symbols_skipTo (marks : List Mark) {rest rest' : List Lexeme}
    (same : rest.map Lexeme.symbol = rest'.map Lexeme.symbol) (depth : Nat) :
    (skipTo marks depth rest).map Lexeme.symbol = (skipTo marks depth rest').map Lexeme.symbol := by
  obtain ⟨n, dropped, dropped'⟩ := exists_skipTo_eq_drop marks same depth
  rw [dropped, dropped', List.map_drop, List.map_drop, same]

theorem skipTo_sublist (marks : List Mark) (depth : Nat) (rest : List Lexeme) :
    (skipTo marks depth rest).Sublist rest := by
  obtain ⟨n, dropped, -⟩ := exists_skipTo_eq_drop marks (Eq.refl (rest.map Lexeme.symbol)) depth
  rw [dropped]
  exact List.drop_sublist n rest

end Parse

namespace Parse.Parallel

variable {fits : List Char → Prop} {α β γ δ : Type} {R : α → β → Prop} {S : γ → δ → Prop}
  {p : Parse α} {q : Parse β} {f : α → Parse γ} {g : β → Parse δ}

theorem pure {a : α} {b : β} (related : R a b) :
    Parallel fits R (Pure.pure a) (Pure.pure b) :=
  fun _ _ parallel => ⟨.some related, parallel⟩

theorem bind (first : Parallel fits R p q) (next : ∀ a b, R a b → Parallel fits S (f a) (g b)) :
    Parallel fits S (p >>= f) (q >>= g) := by
  intro st st' parallel
  obtain ⟨result, between⟩ := first st st' parallel
  rw [bind_apply, bind_apply]
  generalize p st = r at result between
  generalize q st' = r' at result between
  obtain ⟨a?, after⟩ := r
  obtain ⟨b?, after'⟩ := r'
  cases result with
  | none => exact ⟨.none, between⟩
  | some related => exact next _ _ related _ _ between

/-- The same, where both sides begin with the same result. -/
theorem bind_equal {p q : Parse α} {g : α → Parse δ} (first : Parallel fits Eq p q)
    (next : ∀ a, Parallel fits S (f a) (g a)) : Parallel fits S (p >>= f) (q >>= g) := by
  refine first.bind ?_
  rintro a _ rfl
  exact next a

theorem attempt (parallel : Parallel fits R p q) :
    Parallel fits (Option.Rel R) (Parse.attempt p) (Parse.attempt q) := by
  intro st st' states
  obtain ⟨result, after⟩ := parallel st st' states
  exact ⟨.some result, after⟩

theorem peek : Parallel fits Eq Parse.peek Parse.peek := by
  intro st st' parallel
  have same : st.rest.head?.map Lexeme.symbol = st'.rest.head?.map Lexeme.symbol := by
    simpa only [ParseState.symbols, List.head?_map] using congrArg List.head? parallel.symbols
  exact ⟨.some same, parallel⟩

/-- An inline template that is next fits. -/
theorem bind_peek {f : Option Symbol → Parse γ} {g : Option Symbol → Parse δ}
    (next : ∀ found, (∀ raw, found = some (.inline raw) → fits raw) →
      Parallel fits S (f found) (g found)) :
    Parallel fits S (Parse.peek >>= f) (Parse.peek >>= g) := by
  intro st st' parallel
  rw [Parse.bind_peek, Parse.bind_peek, ← parallel.symbols]
  refine next _ (fun raw found => ?_) st st' parallel
  exact parallel.fits raw (List.mem_of_head? found)

theorem peekSecond : Parallel fits Eq Parse.peekSecond Parse.peekSecond := by
  intro st st' parallel
  have same : (st.rest.drop 1).head?.map Lexeme.symbol =
      (st'.rest.drop 1).head?.map Lexeme.symbol := by
    simpa only [ParseState.symbols, ← List.map_drop, List.head?_map] using
      congrArg (fun symbols => (symbols.drop 1).head?) parallel.symbols
  exact ⟨.some same, parallel⟩

theorem position : Parallel fits (fun _ _ => True) Parse.position Parse.position :=
  fun _ _ parallel => ⟨.some trivial, parallel⟩

theorem advance : Parallel fits Eq Parse.advance Parse.advance := by
  intro st st' parallel
  refine ⟨.some rfl, parallel.drop ?_ (List.drop_sublist 1 _)⟩
  rw [List.map_drop, List.map_drop]
  exact congrArg (List.drop 1) parallel.symbols

theorem report (problem problem' : SourceProblem) :
    Parallel fits Eq (Parse.report problem) (Parse.report problem') :=
  position.bind fun _ _ _ => fun _ _ parallel => ⟨.some rfl, parallel.record (by simp)⟩

theorem giveUp : Parallel fits R Parse.giveUp Parse.giveUp :=
  fun _ _ parallel => ⟨.none, parallel⟩

theorem fail (problem problem' : SourceProblem) :
    Parallel fits R (Parse.fail problem) (Parse.fail problem') :=
  (report problem problem').bind_equal fun _ => giveUp

theorem eat (m : Mark) : Parallel fits Eq (Parse.eat m) (Parse.eat m) := by
  refine peek.bind_equal fun found => ?_
  split
  · exact advance.bind_equal fun _ => pure rfl
  · exact pure rfl

theorem expect (m : Mark) : Parallel fits Eq (Parse.expect m) (Parse.expect m) := by
  refine (eat m).bind_equal fun eaten => ?_
  split
  · exact pure rfl
  · exact peek.bind_equal fun _ => fail _ _

theorem expectName : Parallel fits Eq Parse.expectName Parse.expectName := by
  refine peek.bind_equal fun found => ?_
  split
  · exact advance.bind_equal fun _ => pure rfl
  · exact fail _ _

theorem expectEnd : Parallel fits Eq Parse.expectEnd Parse.expectEnd := by
  refine peek.bind_equal fun found => ?_
  split
  · exact pure rfl
  · exact report _ _

theorem synchronize (marks : List Mark) :
    Parallel fits Eq (Parse.synchronize marks) (Parse.synchronize marks) :=
  fun _ _ parallel => ⟨.some rfl, parallel.drop (symbols_skipTo marks parallel.symbols 0)
    (skipTo_sublist marks 0 _)⟩

theorem chain {m : Mark} {next : α → Parse α} {next' : β → Parse β}
    (step : ∀ a b, R a b → Parallel fits R (next a) (next' b)) (n : Nat) {a : α} {b : β}
    (related : R a b) : Parallel fits R (Parse.chain m next n a) (Parse.chain m next' n b) := by
  induction n generalizing a b with
  | zero => exact pure related
  | succ n ih =>
    refine (eat m).bind_equal fun eaten => ?_
    split
    · exact (step a b related).bind fun _ _ => ih
    · exact pure related

theorem repeated {m : Mark} {next : α → Parse α} {next' : β → Parse β}
    (step : ∀ a b, R a b → Parallel fits R (next a) (next' b)) {a : α} {b : β}
    (related : R a b) : Parallel fits R (Parse.repeated m next a) (Parse.repeated m next' b) := by
  intro st st' parallel
  have same : st.rest.length = st'.rest.length := by
    simpa [ParseState.symbols] using congrArg List.length parallel.symbols
  rw [Parse.repeated, Parse.repeated, same]
  exact chain step _ related st st' parallel

end Parse.Parallel
end Stencil
