import Mathlib
import Stencil.Proofs.Scanning.Payload
import Stencil.Proofs.Spelling.Verbatim
import Stencil.Template.Compile
/-!
# Any text in a template

Every text can be written in a template: as literal text, with a backslash before each start
delimiter and an escape chunk for each backslash, and as a text of an expression, with a backslash
before each backslash and each quote.
-/
namespace Stencil

open Text (Position)

namespace Delimiters

/-- The characters of the escape chunk for a backslash between its delimiters. -/
def backslashEscape : List Char := ['\\', 'u', '0', '0', '5', 'c']

/-- How a character of a literal text is written. -/
def encodeChar (d : Delimiters) (c : Char) : List Char :=
  if c = '\\' then d.start :: (backslashEscape ++ [d.stop])
  else if c = d.start then ['\\', c]
  else [c]

def encode (d : Delimiters) (s : List Char) : List Char := s.flatMap d.encodeChar

variable {d : Delimiters}

theorem encode_cons (d : Delimiters) (c : Char) (s : List Char) :
    d.encode (c :: s) = d.encodeChar c ++ d.encode s := rfl

theorem encodeChar_backslash (d : Delimiters) :
    d.encodeChar '\\' = d.start :: (backslashEscape ++ [d.stop]) := rfl

theorem encodeChar_start (builtIn : d.IsBuiltIn) : d.encodeChar d.start = ['\\', d.start] := by
  rcases builtIn with rfl | rfl <;> rfl

theorem encodeChar_of_ne {c : Char} (backslash : c ≠ '\\') (start : c ≠ d.start) :
    d.encodeChar c = [c] := by
  rw [encodeChar, if_neg backslash, if_neg start]

/-- A character that needs no code stands for itself only. -/
theorem encode_eq_cons (builtIn : d.IsBuiltIn) {s rest : List Char} {c : Char}
    (backslash : c ≠ '\\') (start : c ≠ d.start) (written : d.encode s = c :: rest) :
    ∃ t, s = c :: t ∧ rest = d.encode t := by
  rcases s with _ | ⟨e, t⟩
  · cases written
  · rw [encode_cons] at written
    by_cases isBackslash : e = '\\'
    · rw [isBackslash, encodeChar_backslash, List.cons_append] at written
      exact absurd (List.cons.inj written).1.symm start
    · by_cases isStart : e = d.start
      · rw [isStart, encodeChar_start builtIn, List.cons_append] at written
        exact absurd (List.cons.inj written).1.symm backslash
      · rw [encodeChar_of_ne isBackslash isStart] at written
        obtain ⟨same, behind⟩ := List.cons.inj written
        exact ⟨t, by rw [same], behind.symm⟩

/-- Blanks stand for themselves, so blanks at the front of a text stay there. -/
theorem takeWhile_encode (builtIn : d.IsBuiltIn) (s : List Char) :
    (d.encode s).takeWhile Token.isIndent = s.takeWhile Token.isIndent ∧
      (d.encode s).dropWhile Token.isIndent = d.encode (s.dropWhile Token.isIndent) := by
  have visible : Token.isIndent d.start = false := by rcases builtIn with rfl | rfl <;> rfl
  induction s with
  | nil => exact ⟨rfl, rfl⟩
  | cons c s ih =>
    rw [encode_cons]
    by_cases backslash : c = '\\'
    · subst backslash
      have visible' : Token.isIndent '\\' = false := rfl
      simp [encodeChar_backslash, visible, visible', encode_cons]
    · by_cases start : c = d.start
      · subst start
        have visible' : Token.isIndent '\\' = false := rfl
        simp [encodeChar_start builtIn, visible, visible', encode_cons]
      · rw [encodeChar_of_ne backslash start, List.singleton_append]
        cases blank : Token.isIndent c with
        | true => simp [blank, ih]
        | false => simp [blank, encode_cons, encodeChar_of_ne backslash start]

end Delimiters

namespace Token

variable {d : Delimiters}

open Delimiters

/-- The escape chunk for a backslash stands for it and gives back the blanks before it. -/
theorem chunk_backslash (builtIn : d.IsBuiltIn) (opening : Position) (indent? : Option (List Char))
    (rest : List Char) :
    chunk d opening indent? (backslashEscape ++ d.stop :: rest) =
      .ok ⟨indentText indent? ++ [.text ['\\']],
        (opening.step d.start).after (backslashEscape ++ [d.stop]), rest⟩ := by
  have inside : payload d.stop (.code 0) (backslashEscape ++ d.stop :: rest) =
      .ok (backslashEscape, rest) := by
    have plain : ∀ c ∈ backslashEscape, Plain d.stop c := by
      rcases builtIn with rfl | rfl <;> simp [backslashEscape, Plain, dollar, angle]
    have behind : payload d.stop (.code 0) (d.stop :: rest) = .ok ([], rest) := by
      rcases builtIn with rfl | rfl <;> rfl
    rw [payload_plain plain, behind]
    rfl
  have noMarker (pos : Position) : marker? backslashEscape pos = none := by
    rfl
  have escaped : escapeChunk? backslashEscape = some ['\\'] := by
    cbv
  rw [chunk, inside]
  simp only [noMarker, escaped]

/-- Blanks that are taken for the indentation of a chunk stand before a backslash. -/
theorem indentation_encode (builtIn : d.IsBuiltIn) {s indent body : List Char}
    (found : indentation? d (d.encode s) = some (indent, body)) :
    ∃ t, s = indent ++ '\\' :: t ∧ body = backslashEscape ++ d.stop :: d.encode t := by
  obtain ⟨taken, dropped⟩ := takeWhile_encode builtIn s
  have parts := List.takeWhile_append_dropWhile (p := isIndent) (l := s)
  unfold indentation? at found
  dsimp only at found
  rw [taken, dropped] at found
  rcases behind : s.dropWhile isIndent with _ | ⟨c, t⟩
  · rw [behind] at found
    cases found
  · rw [behind, encode_cons] at found
    rw [behind] at parts
    by_cases backslash : c = '\\'
    · subst backslash
      rw [encodeChar_backslash, List.cons_append, List.append_assoc] at found
      dsimp only at found
      split at found
      · cases found
        exact ⟨t, parts.symm, rfl⟩
      · cases found
    · -- Nothing else begins with a start delimiter.
      exfalso
      by_cases start : c = d.start
      · rw [start, encodeChar_start builtIn] at found
        dsimp only [List.cons_append] at found
        rw [if_neg fun holds => builtIn.start_ne_backslash holds.2.1.symm] at found
        cases found
      · rw [encodeChar_of_ne backslash start] at found
        dsimp only [List.cons_append] at found
        rw [if_neg fun holds => start holds.2.1] at found
        cases found

theorem newline_encode (builtIn : d.IsBuiltIn) {s nl rest : List Char}
    (found : newline? (d.encode s) = some (nl, rest)) : ∃ t, s = nl ++ t ∧ rest = d.encode t := by
  have start : '\r' ≠ d.start ∧ '\n' ≠ d.start := by rcases builtIn with rfl | rfl <;> decide
  unfold newline? at found
  split at found
  · rename_i behind written
    cases found
    obtain ⟨t, rfl, written'⟩ := encode_eq_cons builtIn (by decide) start.1 written
    obtain ⟨t', rfl, behind⟩ := encode_eq_cons builtIn (by decide) start.2 written'.symm
    exact ⟨t', rfl, behind⟩
  · rename_i behind written
    cases found
    obtain ⟨t, rfl, behind⟩ := encode_eq_cons builtIn (by decide) start.2 written
    exact ⟨t, rfl, behind⟩
  · cases found

/-- A step on a written text reads a part of the text from its front. -/
theorem step_encode (builtIn : d.IsBuiltIn) (pos : Position) {s more : List Char} {c : Char}
    (written : d.encode s = c :: more) :
    ∃ r front back, step d pos c more = .ok r ∧ s = front ++ back ∧ r.rest = d.encode back ∧
      Spell r.tokens front := by
  have one (s : List Char) : Spell [.text s] s := .single rfl
  unfold step
  rcases ended : newline? (c :: more) with _ | ⟨nl, rest⟩
  · rcases indented : (if pos.column = 1 then indentation? d (c :: more) else none) with
      _ | ⟨indent, body⟩
    · rcases s with _ | ⟨e, t⟩
      · cases written
      · rw [encode_cons] at written
        by_cases backslash : e = '\\'
        · rw [backslash, encodeChar_backslash, List.cons_append, List.append_assoc] at written
          obtain ⟨rfl, rfl⟩ := List.cons.inj written
          have chunked := chunk_backslash builtIn pos none (d.encode t)
          rw [escape?_of_ne builtIn.start_ne_backslash]
          dsimp only
          rw [if_neg (not_not_intro rfl), if_neg (by simp [backslashEscape])]
          exact ⟨_, ['\\'], t, chunked, by rw [backslash]; rfl, rfl, one ['\\']⟩
        · by_cases start : e = d.start
          · rw [start, encodeChar_start builtIn, List.cons_append, List.singleton_append] at written
            obtain ⟨rfl, rfl⟩ := List.cons.inj written
            have escaped : escape? d ('\\' :: d.start :: d.encode t) =
                some (d.start, d.encode t) := by
              rcases builtIn with rfl | rfl <;> rfl
            rw [escaped]
            exact ⟨_, [d.start], t, rfl, by rw [start]; rfl, rfl, one [d.start]⟩
          · rw [encodeChar_of_ne backslash start, List.singleton_append] at written
            obtain ⟨rfl, rfl⟩ := List.cons.inj written
            rw [escape?_of_ne backslash]
            dsimp only
            rw [if_pos start]
            exact ⟨_, [e], t, rfl, rfl, rfl, one [e]⟩
    · split at indented
      · rw [← written] at indented
        obtain ⟨t, rfl, rfl⟩ := indentation_encode builtIn indented
        have single : d.start.utf8Size = 1 := by rcases builtIn with rfl | rfl <;> rfl
        have chunked := indentedChunk_eq_ok_iff.2
          ⟨single, chunk_backslash builtIn (pos.after indent) (some indent) (d.encode t)⟩
        exact ⟨_, indent ++ ['\\'], t, chunked, by simp, rfl, (one indent).append (one ['\\'])⟩
      · cases indented
  · rw [← written] at ended
    obtain ⟨t, rfl, rfl⟩ := newline_encode builtIn ended
    exact ⟨_, nl, t, rfl, rfl, rfl, .single rfl⟩

/-- The lexer reads a text off what is written for it, wherever that stands. -/
theorem pieces_encode (builtIn : d.IsBuiltIn) (pos : Position) (s : List Char) :
    ∃ tokens, pieces d pos (d.encode s) = .ok tokens ∧ Spell tokens s := by
  induction size : (d.encode s).length using Nat.strongRecOn generalizing pos s with
  | _ n ih =>
    rcases written : d.encode s with _ | ⟨c, more⟩
    · have nothing : s = [] := by
        rcases s with _ | ⟨e, t⟩
        · rfl
        · rw [encode_cons, encodeChar] at written
          split at written
          · cases written
          · split at written <;> cases written
      rw [nothing, pieces]
      exact ⟨[], rfl, .nil⟩
    · obtain ⟨r, front, back, taken, split, rest, reads⟩ := step_encode builtIn pos written
      have shorter : (d.encode back).length < n := by
        have inside := length_of_step taken
        rw [← size, written, ← rest, List.length_cons]
        omega
      obtain ⟨tokens, others, reads'⟩ := ih _ shorter r.pos back rfl
      refine ⟨r.tokens ++ tokens, ?_, split ▸ reads.append reads'⟩
      rw [pieces_of_step taken, rest, others]
      rfl

end Token

/-! ## Texts in quotes -/

namespace Text

def quoteChar (c : Char) : List Char := if c = '\\' ∨ c = '"' then ['\\', c] else [c]

/-- The characters between the quotes of a text. -/
def quoteInside (s : List Char) : List Char := s.flatMap quoteChar

/-- How a text is written in an expression. -/
def quote (s : List Char) : List Char := '"' :: (quoteInside s ++ ['"'])

theorem quoteInside_cons (c : Char) (s : List Char) :
    quoteInside (c :: s) = quoteChar c ++ quoteInside s := rfl

theorem quoteChar_of_special {c : Char} (special : c = '\\' ∨ c = '"') :
    quoteChar c = ['\\', c] := if_pos special

theorem quoteChar_of_other {c : Char} (backslash : c ≠ '\\') (mark : c ≠ '"') :
    quoteChar c = [c] :=
  if_neg fun special => special.elim backslash mark

/-- No blanks stand outside the quotes. -/
theorem trim_quote (s : List Char) : trimStart (quote s) = quote s ∧ trim (quote s) = quote s :=
  ⟨rfl, trim_eq_self (by decide) (by decide) _⟩

end Text

namespace Lexeme

open Text

theorem quotedText?_quoteInside (s rest : List Char) :
    quotedText? (quoteInside s ++ '"' :: rest) = some (quoteInside s, rest) := by
  induction s with
  | nil => rfl
  | cons c s ih =>
    rw [quoteInside_cons]
    by_cases special : c = '\\' ∨ c = '"'
    · rw [quoteChar_of_special special]
      simp [quotedText?, ih]
    · obtain ⟨backslash, mark⟩ := not_or.1 special
      rw [quoteChar_of_other backslash mark, List.singleton_append, List.cons_append, quotedText?]
      · rw [ih]
        rfl
      all_goals simp_all

theorem unquote_quoteInside (s : List Char) : unquote (quoteInside s) = s := by
  induction s with
  | nil => rfl
  | cons c s ih =>
    rw [quoteInside_cons]
    by_cases special : c = '\\' ∨ c = '"'
    · rw [quoteChar_of_special special]
      have itself : unescaped c = c := by rcases special with rfl | rfl <;> rfl
      simp [unquote, ih, itself]
    · obtain ⟨backslash, mark⟩ := not_or.1 special
      rw [quoteChar_of_other backslash mark, List.singleton_append]
      rcases inside : quoteInside s with _ | ⟨e, rest⟩
      · rw [inside] at ih
        rw [← ih]
        rfl
      · rw [unquote, if_neg backslash, ← inside, ih]

/-- What is written for a text is one symbol, which denotes the text. -/
theorem scan_quote (pos : Position) (s : List Char) :
    scan pos (quote s) = .ok ⟨[⟨.text (.ofList s), pos⟩], pos.after (quote s)⟩ := by
  have visible : isBlank '"' = false := by decide
  have symbol : read '"' (quoteInside s ++ ['"']) =
      .ok ⟨.text (.ofList s), quote s, []⟩ := by
    have noMark : Mark.ofChar? '"' = none := rfl
    simp only [read, noMark, if_true, quotedText?_quoteInside, unquote_quoteInside]
    rfl
  rw [quote, scan, visible]
  simp only [Bool.false_eq_true, if_false]
  split
  · rename_i failed
    rw [symbol] at failed
    cases failed
  · rename_i r done
    rw [symbol] at done
    cases done
    rw [scan]
    rfl

end Lexeme

namespace Token

open Text

/-- A source that is one text in quotes is one expression. -/
theorem ofSource_quote {d : Delimiters} (builtIn : d.IsBuiltIn) (s : List Char) :
    ofSource d (d.start :: (quote s ++ [d.stop])) =
      .ok [.expr (quote s) none (Position.start.step d.start)] := by
  obtain ⟨starts, alone⟩ := trim_quote s
  have noMarker (pos : Position) : marker? (quote s) pos = none := by
    rw [marker?, alone]
    rfl
  have noEscape : escapeChunk? (quote s) = none := by
    have first : escapedText? (quote s) = none := by
      simp [escapedText?, quote, escapes?]
    rw [escapeChunk?, starts, alone, first]
    rfl
  exact ofSource_expression builtIn (Lexeme.scan_quote .start s) (by simp [quote]) noMarker noEscape

end Token

/-- A text in quotes parses to itself. -/
theorem Grammar.parseAction_quote (ctx : ParseContext) (pos : Position) (s : List Char) :
    parseAction ctx pos (Text.quote s) = ((.text (.ofList s), .none), []) := by
  rw [parseAction, parseAll, Lexeme.scan_quote]
  rfl

namespace Template

variable {d : Delimiters}

theorem compile_quote (builtIn : d.IsBuiltIn) (name : String) (s : List Char) :
    compile d name (.ofList (d.start :: (Text.quote s ++ [d.stop]))) =
      .ok (plain name [.expression (.text (.ofList s)) .none none]) := by
  have compiled : compileChunks d name (d.start :: (Text.quote s ++ [d.stop])) =
      ([.expression (.text (.ofList s)) .none none], []) := by
    rw [compileChunks, Token.ofSource_quote builtIn]
    dsimp only
    rw [Assembly.ofTokens_nested (.leaf rfl .nil)]
    simp [Grammar.parseAction_quote, Token.errors, Chunk.join]
  rw [compile, compileLenient, String.toList_ofList, compiled]

/-- Every text can be written: as literal text that renders to it with no error, whatever surrounds
the render, and as a text of an expression. -/
theorem every_text_expressible {d : Delimiters} (builtIn : d = .dollar ∨ d = .angle)
    (name text : String) :
    (∃ t, compile d name (.ofList (d.encode text.toList)) = .ok t ∧
      (∀ chunk ∈ t.chunks, (∃ s, chunk = .literal s) ∨ ∃ s, chunk = .newline s) ∧
      ∀ (setting : Setting) (a : Arena) (strategy : Strategy), setting.lineSeparator? = none →
        let outcome := setting.render (a.instantiate t).2 (a.instantiate t).1 (.fresh strategy)
        outcome.result = .ok ⟨text.length, []⟩ ∧ outcome.writer.text = text) ∧
    compile d name (.ofList (d.start :: (Text.quote text.toList ++ [d.stop]))) =
      .ok (plain name [.expression (.text text) .none none]) := by
  refine ⟨?_, ?_⟩
  · obtain ⟨tokens, pieced, reads⟩ := Token.pieces_encode builtIn .start text.toList
    rw [← String.toList_ofList (l := d.encode text.toList)] at pieced
    obtain ⟨t, compiled, spells⟩ := compile_of_spell name pieced reads
    rw [String.ofList_toList] at spells
    refine ⟨t, compiled, spells.verbatim, fun setting a strategy kept => render_spell kept strategy ?_⟩
    rw [Arena.instantiate, Arena.get_push_self]
    exact spells
  · rw [compile_quote builtIn, String.ofList_toList]

/-- The blanks before the chunk of the backslash are given back. -/
theorem indented_backslash_expressible :
    let source := "  $\\u005c$\r\n\\$"
    (∃ t, compile .dollar "page" source = .ok t ∧
      (Setting.standard.render (Arena.empty.instantiate t).2 (Arena.empty.instantiate t).1
        (.fresh .noIndent)).writer.text = "  \\\r\n$") ∧
    compile .dollar "page" "$\"a\\\"\"$" =
      .ok (plain "page" [.expression (.text "a\"") .none none]) := by
  intro source
  obtain ⟨⟨t, compiled, -, renders⟩, -⟩ :=
    every_text_expressible (.inl rfl) "page" "  \\\r\n$"
  obtain ⟨-, quoted⟩ := every_text_expressible (d := .dollar) (.inl rfl) "page" "a\""
  exact ⟨⟨t, compiled, (renders .standard .empty .noIndent rfl).2⟩, quoted⟩

end Template
end Stencil
