import Stencil.Proofs.Assembly.Nesting
import Stencil.Proofs.Output.Sending
import Stencil.Render.Basic
/-!
# Verbatim text

Text and line ends of a source go through to the output as they stand: as tokens, joined or not, as
the chunks that these are assembled to, and when the chunks are rendered where no indentation is
open and no line separator is set.
-/
namespace Stencil

/-! ## Tokens and chunks that read a text -/

/-- The text that a token stands for, whatever the template is rendered with. -/
def Token.verbatim? : Token → Option (List Char)
  | .text s => some s
  | .newline s => some s
  | _ => none

/-- The text that a chunk stands for, whatever the template is rendered with. -/
def Chunk.verbatim? : Chunk → Option String
  | .literal s => some s
  | .newline s => some s
  | _ => none

/-- Tokens that read a text, one behind another. -/
inductive Token.Spell : List Token → List Char → Prop
  | nil : Spell [] []
  | cons {token : Token} {rest : List Token} {s t : List Char} :
    token.verbatim? = some s → Spell rest t → Spell (token :: rest) (s ++ t)

/-- Chunks that read a text, one behind another. -/
inductive Chunk.Spell : List Chunk → String → Prop
  | nil : Spell [] ""
  | cons {chunk : Chunk} {rest : List Chunk} {s t : String} :
    chunk.verbatim? = some s → Spell rest t → Spell (chunk :: rest) (s ++ t)

namespace Token

theorem Spell.single {token : Token} {s : List Char} (reads : token.verbatim? = some s) :
    Spell [token] s := by
  simpa using Spell.cons reads .nil

theorem Spell.append {tokens more : List Token} {s t : List Char} (first : Spell tokens s)
    (second : Spell more t) : Spell (tokens ++ more) (s ++ t) := by
  induction first with
  | nil => exact second
  | cons reads _ ih =>
    rw [List.append_assoc]
    exact .cons reads ih

theorem spell_consText (s : List Char) {tokens : List Token} {t : List Char}
    (spells : Spell tokens t) : Spell (consText s tokens) (s ++ t) := by
  unfold consText
  split
  · rename_i u rest
    cases spells with
    | cons reads others =>
      cases reads
      rw [← List.append_assoc]
      exact .cons rfl others
  · split
    · rename_i empty
      rw [empty]
      exact spells
    · exact .cons rfl spells

theorem spell_joinTexts {tokens : List Token} {s : List Char} (spells : Spell tokens s) :
    Spell (joinTexts tokens) s := by
  induction spells with
  | nil => exact .nil
  | @cons token rest s t reads _ ih =>
    cases token with
    | text u =>
      cases reads
      exact spell_consText _ ih
    | newline u =>
      cases reads
      exact .cons rfl ih
    | _ => cases reads

/-- Tokens that read a text are well nested, their chunks read the same, and nothing is wrong with
them. -/
theorem Spell.nested (ctx : ParseContext) {tokens : List Token} {s : List Char}
    (spells : Spell tokens s) :
    ∃ items, Nested ctx tokens items ∧ Chunk.Spell items (.ofList s) ∧
      tokens.flatMap (errors ctx) = [] := by
  induction spells with
  | nil => exact ⟨[], .nil, .nil, rfl⟩
  | @cons token rest s t reads _ ih =>
    obtain ⟨items, nested, reads', clean⟩ := ih
    rw [String.ofList_append]
    cases token with
    | text u =>
      cases reads
      exact ⟨_, .leaf rfl nested, .cons rfl reads', clean⟩
    | newline u =>
      cases reads
      exact ⟨_, .leaf rfl nested, .cons rfl reads', clean⟩
    | _ => cases reads

end Token

namespace Chunk

theorem spell_consLiteral (s : String) {chunks : List Chunk} {t : String}
    (spells : Spell chunks t) : Spell (consLiteral s chunks) (s ++ t) := by
  unfold consLiteral
  split
  · rename_i u rest
    cases spells with
    | cons reads others =>
      cases reads
      rw [← String.append_assoc]
      exact .cons rfl others
  · exact .cons rfl spells

theorem spell_join {chunks : List Chunk} {s : String} (spells : Spell chunks s) :
    Spell (join chunks) s := by
  induction spells with
  | nil => exact .nil
  | @cons chunk rest s t reads _ ih =>
    cases chunk with
    | literal u =>
      cases reads
      exact spell_consLiteral _ ih
    | newline u =>
      cases reads
      exact .cons rfl ih
    | _ => cases reads

theorem Spell.verbatim {chunks : List Chunk} {s : String} (spells : Spell chunks s) :
    ∀ chunk ∈ chunks, (∃ t, chunk = .literal t) ∨ ∃ t, chunk = .newline t := by
  induction spells with
  | nil => exact fun _ member => absurd member List.not_mem_nil
  | @cons chunk rest s t reads _ ih =>
    refine List.forall_mem_cons.2 ⟨?_, ih⟩
    cases chunk with
    | literal u => exact .inl ⟨u, rfl⟩
    | newline u => exact .inr ⟨u, rfl⟩
    | _ => cases reads

end Chunk

/-- A source whose tokens read a text compiles to chunks that read it. -/
theorem Template.compile_of_spell {d : Delimiters} {source : String} {tokens : List Token}
    {s : List Char} (name : String) (pieced : Token.pieces d .start source.toList = .ok tokens)
    (spells : Token.Spell tokens s) :
    ∃ t, compile d name source = .ok t ∧ Chunk.Spell t.chunks (.ofList s) := by
  have read : Token.ofSource d source.toList = .ok (Token.joinTexts tokens) := by
    rw [Token.ofSource, pieced]
    rfl
  have assembled (ctx : ParseContext) : ∃ chunks, Chunk.Spell chunks (.ofList s) ∧
      Assembly.ofTokens ctx (Token.joinTexts tokens) = (chunks, []) := by
    obtain ⟨items, nested, reads, clean⟩ := (Token.spell_joinTexts spells).nested ctx
    refine ⟨Chunk.join items, Chunk.spell_join reads, ?_⟩
    rw [Assembly.ofTokens_nested nested, clean]
  obtain ⟨chunks, reads, compiled⟩ : ∃ chunks, Chunk.Spell chunks (.ofList s) ∧
      compileChunks d name source.toList = (chunks, []) := by
    rw [compileChunks, read]
    exact assembled _
  refine ⟨plain name chunks, ?_, reads⟩
  rw [compile, compileLenient, compiled]

/-! ## Rendering -/

namespace Run

/-- Where no indentation is open, a sink without a limit gets a text as it stands. -/
theorem emit_unindented (text : String) {s : RenderState} (flat : s.writer.indents = [])
    (unlimited : s.writer.sink.limit? = none) :
    ∃ w, emit text s = .ok text.length { s with writer := w } ∧
      w.sink = s.writer.sink.append text ∧ w.indents = [] := by
  have asItStands : s.writer.strategy.layOut s.writer.indents s.writer.atLineStart text = text := by
    rw [flat, Strategy.layOut_nil]
  have sent := s.writer.sends_write text
  rw [asItStands] at sent
  unfold emit
  generalize s.writer.write text = result at sent
  cases sent with
  | whole => exact ⟨_, rfl, rfl, flat⟩
  | part refused =>
    rw [Sink.accepts_of_limit?_eq_none unlimited] at refused
    cases refused

end Run

namespace Evaluator

/-- Chunks that read a text write it, line ends as they stand in the source. -/
theorem renderStep_spell {setting : Setting} (kept : setting.lineSeparator? = none)
    (ev : Evaluator) (scope : Handle) {chunks : List Chunk} {text : String}
    (spells : Chunk.Spell chunks text) {s : RenderState} (flat : s.writer.indents = [])
    (unlimited : s.writer.sink.limit? = none) :
    ∃ w, ev.renderStep setting scope chunks s = .ok text.length { s with writer := w } ∧
      w.sink = s.writer.sink.append text := by
  induction spells generalizing s with
  | nil => exact ⟨s.writer, rfl, (Sink.append_empty _).symm⟩
  | @cons chunk rest text others reads _ ih =>
    have written : ev.renderChunk setting scope chunk = Run.emit text := by
      cases chunk with
      | literal t =>
        cases reads
        rfl
      | newline t =>
        cases reads
        rw [renderChunk, Setting.newline, kept]
        rfl
      | _ => cases reads
    obtain ⟨w, emitted, sink, flat'⟩ := Run.emit_unindented text flat unlimited
    have unlimited' : w.sink.limit? = none := by rw [sink, Sink.limit?_append, unlimited]
    obtain ⟨w', goesOn, sink'⟩ := ih (s := { s with writer := w }) flat' unlimited'
    refine ⟨w', ?_, ?_⟩
    · rw [String.length_append]
      change (ev.renderChunk setting scope chunk >>= fun written =>
        ev.renderStep setting scope rest >>= fun more => pure (written + more)) s = _
      rw [written]
      simp only [bind, EStateM.bind, emitted, goesOn, pure, EStateM.pure]
    · rw [sink', ← Sink.append_append, ← sink]

end Evaluator

/-- An instance whose chunks read a text renders to that text. -/
theorem render_spell {setting : Setting} (kept : setting.lineSeparator? = none) {a : Arena}
    {root : Handle} {text : String} (strategy : Strategy)
    (spells : Chunk.Spell (a.get root).template.chunks text) :
    (setting.render a root (.fresh strategy)).result = .ok ⟨text.length, []⟩ ∧
      (setting.render a root (.fresh strategy)).writer.text = text := by
  let s : RenderState := ⟨a, [], .fresh strategy⟩
  have enough : Setting.ampleDepth = (Setting.ampleDepth - 1) + 1 := rfl
  obtain ⟨w, ended, sink⟩ := Evaluator.renderStep_spell kept
    (.ofDepth setting (Setting.ampleDepth - 1)) root spells (s := s) rfl rfl
  have rendered : (Evaluator.ofDepth setting Setting.ampleDepth).render root
      (a.get root).template.chunks s = .ok text.length { s with writer := w } := by
    rw [enough]
    exact ended
  unfold Setting.render Setting.renderWithin
  rw [rendered]
  refine ⟨rfl, ?_⟩
  change w.sink.text = text
  rw [sink]
  exact String.empty_append

end Stencil
