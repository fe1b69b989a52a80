import Mathlib
import Stencil.Proofs.Grammar.Acceptance
import Stencil.Proofs.Parallel.Assembly
/-!
# Inline templates in the grammar

An inline template counts if its body compiles without errors. The name that it compiles under does
not matter.
-/
namespace Stencil

open Text (Position)

namespace Grammar

/-- The body of an inline template compiles without errors, whatever it is named. -/
def InlineCompiles (d : Delimiters) (raw : List Char) : Prop :=
  ∀ name, (compileChunks d name (inlineBody raw)).2 = []

theorem judges_compileChunks (d : Delimiters) (owner : String) :
    ParseContext.Judges ⟨owner, compileChunks d⟩ (InlineCompiles d) :=
  fun name _ => ⟨fun clean name' => (compileChunks_alike d name name' _).2.1 clean,
    fun clean => clean name⟩

/-- The parser of expression chunks accepts the grammar and nothing else. -/
theorem parseAction_accepts_iff (d : Delimiters) (owner : String) (pos : Position)
    (source : List Char) (lexemes : Lexemes) (scanned : Lexeme.scan pos source = .ok lexemes) :
    (parseAction ⟨owner, compileChunks d⟩ pos source).2 = [] ↔
      Reads (InlineCompiles d) .action (lexemes.items.map Lexeme.symbol) [] :=
  parseAction_clean_iff scanned (judges_compileChunks d owner)

/-- `x:{y}` is an action: the inline template behind the colon compiles. -/
theorem inline_application_accepted :
    (parseAction ⟨"page", compileChunks .dollar⟩ .start "x:{y}".toList).2 = [] := by
  have scanned : Lexeme.scan .start "x:{y}".toList =
      .ok ⟨[⟨.name "x", ⟨1, 1⟩⟩, ⟨.mark .colon, ⟨1, 2⟩⟩, ⟨.inline ['y'], ⟨1, 3⟩⟩], ⟨1, 6⟩⟩ := by
    cbv
  have body : InlineCompiles .dollar ['y'] := by
    intro name
    cbv
  have template : Reads (InlineCompiles .dollar) .tref [.inline ['y']] [] := .inlineTref body
  have source : Reads (InlineCompiles .dollar) .expr
      [.name "x", .mark .colon, .inline ['y']] [.mark .colon, .inline ['y']] :=
    .expr (.primary (.bareName (by decide) (by decide)) .noProperties) .noPrimaries
  refine (parseAction_accepts_iff .dollar "page" .start _ _ scanned).2 ?_
  exact .bareAction (.templates source (.applications template .noTrefs .noApplications))

end Grammar
end Stencil
