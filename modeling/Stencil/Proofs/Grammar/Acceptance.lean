import Stencil.Proofs.Grammar.Completeness
/-!
# The grammar decides what is an error

A chunk whose source scans is parsed without errors if and only if its symbols are an action, and so
for a condition. Nothing else about the way inline templates are compiled matters than which of them
compile without errors.
-/
namespace Stencil

open Text (Position)

namespace Grammar

variable {counts : List Char → Prop} {ctx ctx' : ParseContext} {pos : Position}
  {source : List Char} {lexemes : Lexemes}

/-- A parser that is sound and complete for a phrase records an error unless all is the phrase. -/
theorem parseAll_clean_iff {α : Type} {parser : Grammar → Parse α} {default : α} {P : Phrase}
    (scanned : Lexeme.scan pos source = .ok lexemes) (judges : ctx.Judges counts)
    (sound : ∀ g n st, Sound counts g n → st.rest.length ≤ n →
      Reading st (parser g st) fun _ _ => Reads counts P st.symbols [])
    (complete : ∀ s n, Reads counts P s [] → s.length ≤ n → (parser (ofDepth ctx n)).Takes s []) :
    (parseAll ctx parser default pos source).2 = [] ↔
      Reads counts P (lexemes.items.map Lexeme.symbol) [] := by
  let n := lexemes.items.length + 1
  let st : ParseState := { rest := lexemes.items, stop := lexemes.stop, errors := [], inlines := 0 }
  have errors : (parseAll ctx parser default pos source).2 =
      (parser (ofDepth ctx n) st).2.errors := by
    rw [parseAll, scanned]
  rw [errors]
  constructor
  · intro clean
    have reading := sound _ n st (sound_ofDepth judges n) (Nat.le_succ _)
    obtain ⟨_, _, reads⟩ := reading.reads (congrArg List.length clean)
    exact reads
  · intro reads
    have within : (lexemes.items.map Lexeme.symbol).length ≤ n := by
      rw [List.length_map]
      exact Nat.le_succ _
    obtain ⟨_, _, run, _, kept, _⟩ := complete _ n reads within st rfl
    rw [run, kept]

theorem parseAction_clean_iff (scanned : Lexeme.scan pos source = .ok lexemes)
    (judges : ctx.Judges counts) :
    (parseAction ctx pos source).2 = [] ↔
      Reads counts .action (lexemes.items.map Lexeme.symbol) [] :=
  parseAll_clean_iff scanned judges
    (fun _ _ _ sound within => reading_action judges sound within)
    fun _ n reads within => complete_of_reads judges reads n within Phrase.stops_nil

theorem parseCondition_clean_iff (scanned : Lexeme.scan pos source = .ok lexemes)
    (judges : ctx.Judges counts) :
    (parseCondition ctx pos source).2 = [] ↔
      Reads counts .condition (lexemes.items.map Lexeme.symbol) [] :=
  parseAll_clean_iff scanned judges
    (fun _ _ _ sound within => reading_condition judges sound within)
    fun _ n reads within => complete_of_reads judges reads n within Phrase.stops_nil

end Grammar

end Stencil
