import Mathlib.Data.List.Basic
import Stencil.Proofs.Cursor.Phrases
import Stencil.Proofs.Scanning.Shorter
/-!
# Compilation comes to an end

The chunks of a source hand the bodies of their inline templates back to be compiled. A body stands
in its chunk with braces around it and a chunk stands in its source, so what is handed back gets
shorter and shorter, and no other source is compiled on the way. So compiling needs no test of
lengths and no bound on steps: the recursion ends for the same reason that the cursor does, because
something has been consumed.
-/
namespace Stencil

open Text (Position)

/-! ## What is handed back -/

/-- A chunk of the source hands the body of an inline template in it back to be compiled. -/
inductive HandsBack (d : Delimiters) (source : List Char) : (chunk body : List Char) → Prop where
  | inline {tokens : List Token} {token : Token} {pos : Position} {lexemes : Lexemes}
      {raw : List Char} (split : Token.ofSource d source = .ok tokens) (member : token ∈ tokens)
      (scanned : Lexeme.scan pos token.expression = .ok lexemes)
      (found : .inline raw ∈ lexemes.items.map Lexeme.symbol) :
      HandsBack d source token.expression (Grammar.inlineBody raw)

theorem Grammar.inlinesFit_shrinks (source : List Char) :
    Lexeme.InlinesFit (Grammar.Shrinks source) source :=
  fun _ _ scanned raw found =>
    (length_inlineBody_le raw).trans_lt (Lexeme.length_of_mem_scan scanned found)

namespace HandsBack

variable {d : Delimiters} {source chunk body : List Char}

theorem length_body_lt (hands : HandsBack d source chunk body) : body.length < chunk.length := by
  cases hands with
  | inline _ _ scanned found => exact Grammar.inlinesFit_shrinks _ _ _ scanned _ found

theorem length_chunk_le (hands : HandsBack d source chunk body) :
    chunk.length ≤ source.length := by
  cases hands with
  | inline split member => exact Token.length_of_mem_ofSource split _ member

theorem wellFounded (d : Delimiters) :
    WellFounded fun body source => ∃ chunk, HandsBack d source chunk body :=
  Subrelation.wf (fun ⟨_, hands⟩ => hands.length_body_lt.trans_le hands.length_chunk_le)
    (measure List.length).wf

theorem inlinesFit {tokens : List Token} (split : Token.ofSource d source = .ok tokens)
    {token : Token} (member : token ∈ tokens) :
    token.InlinesFit fun raw => ∃ chunk, HandsBack d source chunk (Grammar.inlineBody raw) := by
  cases token with
  | expr => exact fun _ _ scanned _ found => ⟨_, .inline split member scanned found⟩
  | ifMark => exact fun _ _ scanned _ found => ⟨_, .inline split member scanned found⟩
  | elseifMark => exact fun _ _ scanned _ found => ⟨_, .inline split member scanned found⟩
  | _ => trivial

end HandsBack

/-! ## Only what is handed back is compiled -/

/-- The contexts differ at most in how they compile what is in no inline template that fits. -/
structure ParseContext.Agree (fits : List Char → Prop) (ctx ctx' : ParseContext) : Prop where
  owner : ctx.owner = ctx'.owner
  compiled {raw : List Char} (fitting : fits raw) (name : String) :
    ctx.compileInline name (Grammar.inlineBody raw) =
      ctx'.compileInline name (Grammar.inlineBody raw)

section Agree

variable {fits : List Char → Prop} {ctx ctx' : ParseContext} (agree : ctx.Agree fits ctx')
include agree

theorem Grammar.inlineTemplate_congr {raw : List Char} (fitting : fits raw) (pos : Position) :
    inlineTemplate ctx raw pos = inlineTemplate ctx' raw pos := by
  funext st
  have compiled (name : String) : ctx.compileInline name (unescapeBraces (splitFormals raw).2.1) =
      ctx'.compileInline name (unescapeBraces (splitFormals raw).2.1) := agree.compiled fitting name
  simp only [inlineTemplate, agree.owner, compiled]

/-- A walk that hands back only what fits does not see how the contexts compile anything else. -/
theorem Walks.parseAll_congr [DecidablePred fits] {α : Type} (walk : Walks → Walk α) (default : α)
    (pos : Position) (source : List Char) :
    parseAll ctx fits walk default pos source = parseAll ctx' fits walk default pos source := by
  have same : inlineTemplate ctx fits = inlineTemplate ctx' fits := by
    funext raw pos c
    unfold inlineTemplate
    split
    · rename_i fitting
      rw [Grammar.inlineTemplate_congr agree fitting]
    · rfl
  rw [parseAll, parseAll, same]

variable {source : List Char} (fitting : Lexeme.InlinesFit fits source) (pos : Position)
include fitting

theorem Grammar.parseAction_congr : parseAction ctx pos source = parseAction ctx' pos source := by
  -- The walk tests what fits, so that has to be decided, if only here.
  classical
  have walked := Walks.parseAll_congr agree Walks.action (.text "", .none) pos source
  rw [Walks.parseAll_action fitting, Walks.parseAll_action fitting] at walked
  exact Option.some.inj walked

theorem Grammar.parseCondition_congr :
    parseCondition ctx pos source = parseCondition ctx' pos source := by
  classical
  have walked := Walks.parseAll_congr agree Walks.condition (.text "") pos source
  rw [Walks.parseAll_condition fitting, Walks.parseAll_condition fitting] at walked
  exact Option.some.inj walked

omit fitting in
theorem Assembly.addToken_congr (a : Assembly) {token : Token} (fitting : token.InlinesFit fits) :
    addToken ctx a token = addToken ctx' a token := by
  cases token with
  | expr => rw [addToken, addToken, Grammar.parseAction_congr agree fitting]
  | ifMark => rw [addToken, addToken, Grammar.parseCondition_congr agree fitting]
  | elseifMark => rw [addToken, addToken, Grammar.parseCondition_congr agree fitting]
  | endifMark => rw [addToken, addToken, agree.owner]
  | _ => rfl

omit fitting in
theorem Assembly.ofTokens_congr {tokens : List Token}
    (fitting : ∀ token ∈ tokens, token.InlinesFit fits) :
    ofTokens ctx tokens = ofTokens ctx' tokens := by
  have folded : tokens.foldl (addToken ctx) empty = tokens.foldl (addToken ctx') empty :=
    List.foldl_ext _ _ _ fun a token member => addToken_congr agree a (fitting token member)
  rw [ofTokens, ofTokens, folded, agree.owner]

end Agree

section Compiling

variable {d : Delimiters} {name : String} {source : List Char} {tokens : List Token}
  {compile compileInline : String → List Char → List Chunk × List TemplateError}

/-- It is enough that the bodies that are handed back are compiled. -/
theorem compileChunks_of_handed (split : Token.ofSource d source = .ok tokens)
    (compiled : ∀ chunk body, HandsBack d source chunk body →
      ∀ name, compileInline name body = compileChunks d name body) :
    compileChunks d name source = Assembly.ofTokens ⟨name, compileInline⟩ tokens := by
  rw [compileChunks_of_ok split]
  refine Assembly.ofTokens_congr ?_ fun token member => HandsBack.inlinesFit split member
  refine ⟨rfl, ?_⟩
  rintro raw ⟨chunk, hands⟩ name
  have shorter := hands.length_body_lt.trans_le hands.length_chunk_le
  exact (if_pos shorter).trans (compiled _ _ hands name).symm

/-! ## The recursion by itself -/

/-- The chunks and the errors of a source by nothing but the recursion: from the source to its
tokens, from there to the expressions in them, and back to the sources of inline templates. -/
structure Compiles (d : Delimiters)
    (compile : String → List Char → List Chunk × List TemplateError) : Prop where
  broken {source : List Char} {e : TemplateError} (fails : Token.ofSource d source = .error e)
    (name : String) : compile name source = ([], [e])
  assembled {source : List Char} {tokens : List Token}
    (split : Token.ofSource d source = .ok tokens) (name : String) :
    compile name source = Assembly.ofTokens ⟨name, compile⟩ tokens

theorem compiles_compileChunks (d : Delimiters) : Compiles d (compileChunks d) where
  broken fails _ := compileChunks_of_error fails
  assembled split _ := compileChunks_of_handed split fun _ _ _ _ => rfl

/-- Nothing else follows the recursion, since it ends: by induction on what is handed back. -/
theorem Compiles.eq_compileChunks (compiles : Compiles d compile) : compile = compileChunks d := by
  suffices ∀ source name, compile name source = compileChunks d name source from
    funext fun name => funext fun source => this source name
  intro source
  induction source using (HandsBack.wellFounded d).induction with
  | _ source ih =>
    intro name
    cases split : Token.ofSource d source with
    | error e => rw [compiles.broken split, compileChunks_of_error split]
    | ok tokens =>
      rw [compiles.assembled split]
      exact (compileChunks_of_handed split fun chunk body hands => ih body ⟨chunk, hands⟩).symm

/-- Compilation comes to an end on every source, whatever is wrong with it: it yields a template or
errors, and where a start delimiter of several bytes stands behind an indentation, the error
`SourceProblem.cutDelimiter`, for which the program aborts. The recursion through
inline templates descends along `HandsBack`, which goes down to ever shorter bodies, and on no other
sources; so the recursion by itself determines what a source compiles to. Within a chunk the cursor
of the parser is never stuck: it stays on the tokens, has one to step back to where it does, and
has consumed one wherever a phrase begins inside another or a loop goes round. -/
theorem compilation_terminates (d : Delimiters) :
    (∀ source chunk body, HandsBack d source chunk body →
      body.length < chunk.length ∧ chunk.length ≤ source.length) ∧
    (WellFounded fun body source => ∃ chunk, HandsBack d source chunk body) ∧
    (∀ name source tokens compileInline, Token.ofSource d source = .ok tokens →
      (∀ chunk body, HandsBack d source chunk body →
        ∀ name, compileInline name body = compileChunks d name body) →
      compileChunks d name source = Assembly.ofTokens ⟨name, compileInline⟩ tokens) ∧
    (∀ compile, Compiles d compile ↔ compile = compileChunks d) ∧
    (∀ ctx pos chunk,
      Walks.parseAction ctx pos chunk = some (Grammar.parseAction ctx pos chunk) ∧
      Walks.parseCondition ctx pos chunk = some (Grammar.parseCondition ctx pos chunk)) := by
  refine ⟨fun _ _ _ hands => ⟨hands.length_body_lt, hands.length_chunk_le⟩,
    HandsBack.wellFounded d, fun _ _ _ _ split compiled => compileChunks_of_handed split compiled,
    fun compile => ⟨Compiles.eq_compileChunks, ?_⟩, fun ctx pos chunk => ?_⟩
  · rintro rfl
    exact compiles_compileChunks d
  · have shrinks := Grammar.inlinesFit_shrinks chunk
    exact ⟨Walks.parseAll_action shrinks pos, Walks.parseAll_condition shrinks pos⟩

theorem nested_body_handed_back :
    HandsBack .dollar "$x:{$y:{a}$}$".toList "x:{$y:{a}$}".toList "$y:{a}$".toList ∧
      "$y:{a}$".toList.length < "x:{$y:{a}$}".toList.length := by
  have split : Token.ofSource .dollar "$x:{$y:{a}$}$".toList =
      .ok [.expr "x:{$y:{a}$}".toList none ⟨1, 2⟩] := by decide +kernel
  have scanned : Lexeme.scan .start "x:{$y:{a}$}".toList =
      .ok ⟨[⟨.name "x", ⟨1, 1⟩⟩, ⟨.mark .colon, ⟨1, 2⟩⟩, ⟨.inline "$y:{a}$".toList, ⟨1, 3⟩⟩],
        ⟨1, 12⟩⟩ := by decide +kernel
  have hands : HandsBack .dollar "$x:{$y:{a}$}$".toList "x:{$y:{a}$}".toList "$y:{a}$".toList :=
    .inline split (.head _) scanned (.tail _ (.tail _ (.head _)))
  exact ⟨hands, ((compilation_terminates .dollar).1 _ _ _ hands).1⟩

end Compiling

end Stencil
