import Stencil.Proofs.Scanning.Shorter
/-!
# The readers of a payload agree

A payload is read twice: by the lexer to find its end, and by the scanner for its lexemes. A reader
that goes from character to character is in code at some depth of braces, in a quoted text, or
behind a backslash in one of these. The lexer ends a payload in code outside all braces. The scanner
comes by the same places as far as it gets, so what it meets at the end of a payload is never the
inside of a quoted text or an inline template.
-/
namespace Stencil

open Text (Position)

namespace Token

/-- Where a reader of a payload is. -/
inductive Place where
  | code (depth : Nat)
  | quoted
  /-- Behind a backslash in a quoted text. -/
  | quotedEscape
  /-- Behind a backslash inside `depth + 1` braces. -/
  | bracedEscape (depth : Nat)
  deriving DecidableEq, Repr

namespace Place

def step : Place → Char → Place
  | code 0, c => if c = '"' then quoted else if c = '{' then code 1 else code 0
  | code (depth + 1), c =>
    if c = '\\' then bracedEscape depth
    else if c = '{' then code (depth + 2)
    else if c = '}' then code depth
    else code (depth + 1)
  | quoted, c => if c = '\\' then quotedEscape else if c = '"' then code 0 else quoted
  | quotedEscape, _ => quoted
  | bracedEscape depth, _ => code (depth + 1)

/-- Where a reader is behind a text. -/
def after (place : Place) (s : List Char) : Place := s.foldl step place

def ofNesting : Nesting → Place
  | .code depth => code depth
  | .quoted => quoted

variable {place : Place} {c : Char} {s t : List Char} {depth : Nat}

@[simp] theorem after_cons (place : Place) (c : Char) (s : List Char) :
    place.after (c :: s) = (place.step c).after s := rfl

theorem after_append (place : Place) (s t : List Char) :
    place.after (s ++ t) = (place.after s).after t := List.foldl_append

theorem step_enter (backslash : c ≠ '\\') :
    (code (depth + 1)).step c = ofNesting (.enter (depth + 1) c) := by
  simp only [step, if_neg backslash, Nesting.enter]
  split
  · rfl
  · split <;> rfl

/-- Only a quote and a closing brace lead out of quoted texts and braces. -/
theorem eq_code_of_step (ends : place.step c = code 0) (quote : c ≠ '"') (brace : c ≠ '}') :
    place = code 0 := by
  unfold step at ends
  split at ends
  · rfl
  · simp only [if_neg brace] at ends
    split at ends <;> try split at ends
    all_goals cases ends
  · simp only [if_neg quote] at ends
    split at ends <;> cases ends
  · cases ends
  · cases ends

end Place

open Place

/-- A reader of the text ends where it begins: in code outside all braces. -/
def Outside (s : List Char) : Prop := (code 0).after s = code 0

variable {c stop : Char} {s t source rest content : List Char} {nesting : Nesting} {pos : Position}

/-- The lexer ends a payload outside of braces and quoted texts. -/
theorem after_of_payload (read : payload stop nesting s = .ok (source, rest)) :
    (ofNesting nesting).after source = code 0 := by
  fun_induction payload stop nesting s generalizing source with
  | case1 => cases read
  | case2 => cases read
  | case3 e s ih =>
    obtain ⟨inner, inside, rfl⟩ := prepend_eq_ok read
    have behind := ih inside
    exact behind
  | case4 s ih =>
    obtain ⟨inner, inside, rfl⟩ := prepend_eq_ok read
    exact ih inside
  | case5 c s ends escapes mark ih =>
    obtain ⟨inner, inside, rfl⟩ := prepend_eq_ok read
    have stays : quoted.step c = quoted := by
      simp only [Place.step, if_neg (ne_of_unescaped ends escapes), if_neg mark]
    rw [List.singleton_append, after_cons, ofNesting, stays]
    exact ih inside
  | case6 s ih =>
    obtain ⟨inner, inside, rfl⟩ := prepend_eq_ok read
    exact ih inside
  | case7 s quote ih =>
    obtain ⟨inner, inside, rfl⟩ := prepend_eq_ok read
    exact ih inside
  | case8 =>
    cases read
    rfl
  | case9 c s quote brace other ih =>
    obtain ⟨inner, inside, rfl⟩ := prepend_eq_ok read
    have stays : (code 0).step c = code 0 := by
      simp only [Place.step, if_neg quote, if_neg brace]
    rw [List.singleton_append, after_cons, ofNesting, stays]
    exact ih inside
  | case10 => cases read
  | case11 depth e s ih =>
    obtain ⟨inner, inside, rfl⟩ := prepend_eq_ok read
    have behind := ih inside
    exact behind
  | case12 depth c s ends escapes ih =>
    obtain ⟨inner, inside, rfl⟩ := prepend_eq_ok read
    rw [List.singleton_append, after_cons, ofNesting, step_enter (ne_of_unescaped ends escapes)]
    exact ih inside

/-! ## Conditions -/

theorem Outside.of_append_left (outside : Outside (s ++ t))
    (code : ∀ c ∈ s, c ≠ '"' ∧ c ≠ '{') : Outside t := by
  induction s with
  | nil => exact outside
  | cons c s ih =>
    obtain ⟨⟨quote, brace⟩, others⟩ := List.forall_mem_cons.1 code
    have stays : (Place.code 0).step c = .code 0 := by
      simp only [Place.step, if_neg quote, if_neg brace]
    rw [List.cons_append, Outside, after_cons, stays] at outside
    exact ih outside others

theorem Outside.of_append_right (outside : Outside (s ++ t))
    (code : ∀ c ∈ t, c ≠ '"' ∧ c ≠ '}') : Outside s := by
  induction t generalizing s with
  | nil => rwa [List.append_nil] at outside
  | cons c t ih =>
    obtain ⟨⟨quote, brace⟩, others⟩ := List.forall_mem_cons.1 code
    rw [← List.singleton_append, ← List.append_assoc] at outside
    have behind := ih outside others
    rw [Outside, after_append] at behind
    exact eq_code_of_step behind quote brace

theorem ne_of_isBlank (blank : Text.isBlank c = true) : c ≠ '"' ∧ c ≠ '{' ∧ c ≠ '}' := by
  refine ⟨?_, ?_, ?_⟩ <;>
  · rintro rfl
    exact absurd blank (by decide)

theorem Outside.trimStart (outside : Outside s) : Outside (Text.trimStart s) := by
  rw [← List.takeWhile_append_dropWhile (p := Text.isBlank) (l := s)] at outside
  refine outside.of_append_left fun c member => ?_
  obtain ⟨quote, brace, -⟩ := ne_of_isBlank (List.all_eq_true.1 List.all_takeWhile c member)
  exact ⟨quote, brace⟩

theorem Outside.trimEnd (outside : Outside s) : Outside (Text.trimEnd s) := by
  have whole := congrArg List.reverse
    (List.takeWhile_append_dropWhile (p := Text.isBlank) (l := s.reverse))
  rw [List.reverse_append, List.reverse_reverse] at whole
  rw [← whole] at outside
  refine outside.of_append_right fun c member => ?_
  have blank := List.all_eq_true.1 List.all_takeWhile c (List.mem_reverse.1 member)
  obtain ⟨quote, -, brace⟩ := ne_of_isBlank blank
  exact ⟨quote, brace⟩

theorem Outside.conditionOf? {word condition : List Char} {offset : Nat}
    (outside : Outside content) (code : ∀ c ∈ word, c ≠ '"' ∧ c ≠ '{')
    (found : conditionOf? word content = some (condition, offset)) : Outside condition := by
  simp only [Token.conditionOf?, Option.bind_eq_bind, Option.bind_eq_some_iff, Option.some.injEq,
    Prod.mk.injEq] at found
  obtain ⟨behind, dropped, opened, bracket, last, closed, rfl, -⟩ := found
  rw [Text.dropWord?_eq_some_iff] at dropped bracket
  rw [Text.dropLastWord?_eq_some_iff] at closed
  rw [dropped] at outside
  have inside := (outside.of_append_left code).trimStart
  rw [bracket] at inside
  have inside := inside.of_append_left (by simp)
  rw [closed] at inside
  exact inside.of_append_right (by simp)

theorem Outside.marker? {marker : Token} (outside : Outside source)
    (found : marker? source pos = some marker) : Outside marker.expression := by
  have content : Outside (Text.trim source) := outside.trimStart.trimEnd
  cases marked_of_marker? found with
  | elseMark => rfl
  | endifMark => rfl
  | elseifMark read => exact content.conditionOf? (by simp) read
  | ifMark read => exact content.conditionOf? (by simp) read

/-! ## Tokens -/

variable {d : Delimiters} {tokens : List Token}

theorem outside_of_mem_pieces (read : pieces d pos s = .ok tokens) :
    ∀ token ∈ tokens, Outside token.expression := by
  induction pieced_of_pieces read with
  | nil => exact List.forall_mem_nil _
  | cons taken others _ ih =>
    have here := forall_mem_step (p := Outside) rfl Outside.marker?
      (fun _ _ _ _ => after_of_payload) taken
    exact List.forall_mem_append.2 ⟨here, ih others⟩

/-! ## Lexemes -/

/-- A quoted text that has been opened is closed before the end. -/
theorem quotedText?_of_after (ends : quoted.after s = code 0) :
    ∃ raw rest, Lexeme.quotedText? s = some (raw, rest) ∧ Outside rest := by
  fun_induction Lexeme.quotedText? s with
  | case1 => cases ends
  | case2 => cases ends
  | case3 e rest ih =>
    obtain ⟨raw, behind, read, outside⟩ := ih ends
    exact ⟨_, behind, by rw [read]; rfl, outside⟩
  | case4 rest => exact ⟨[], rest, rfl, ends⟩
  | case5 c rest ended escapes mark ih =>
    have backslash := ne_of_unescaped ended escapes
    simp only [after_cons, Place.step, if_neg backslash, if_neg mark] at ends
    obtain ⟨raw, behind, read, outside⟩ := ih ends
    exact ⟨_, behind, by rw [read]; rfl, outside⟩

/-- Braces that have been opened are closed before the end. -/
theorem bracedText?_of_after {depth : Nat} (ends : (code (depth + 1)).after s = code 0) :
    ∃ raw rest, Lexeme.bracedText? depth s = some (raw, rest) ∧ Outside rest := by
  fun_induction Lexeme.bracedText? depth s with
  | case1 => cases ends
  | case2 => cases ends
  | case3 depth e rest ih =>
    obtain ⟨raw, behind, read, outside⟩ := ih ends
    exact ⟨_, behind, by rw [read]; rfl, outside⟩
  | case4 depth rest ih =>
    obtain ⟨raw, behind, read, outside⟩ := ih ends
    exact ⟨_, behind, by rw [read]; rfl, outside⟩
  | case5 rest => exact ⟨[], rest, rfl, ends⟩
  | case6 rest depth ih =>
    obtain ⟨raw, behind, read, outside⟩ := ih ends
    exact ⟨_, behind, by rw [read]; rfl, outside⟩
  | case7 depth c rest ended escapes opens closes ih =>
    have backslash := ne_of_unescaped ended escapes
    simp only [after_cons, Place.step, if_neg backslash, if_neg opens, if_neg closes] at ends
    obtain ⟨raw, behind, read, outside⟩ := ih ends
    exact ⟨_, behind, by rw [read]; rfl, outside⟩

/-- What may be wrong with a source that leaves nothing open. -/
inductive Readable : SourceProblem → Prop
  | character (c : Char) : Readable (.unexpectedCharacter c)
  | number (digits : String) : Readable (.numberOutOfRange digits)

/-- Nothing is left open at the end of the source: the lexeme in front is read as a whole and leaves
nothing open behind it, or it is wrong for another reason. -/
def Closes : Except SourceProblem Lexeme.Reading → Prop
  | .ok r => Outside r.rest
  | .error problem => Readable problem

theorem Outside.dropWhile {p : Char → Bool} (outside : Outside s)
    (code : ∀ c, p c = true → c ≠ '"' ∧ c ≠ '{') : Outside (s.dropWhile p) := by
  rw [← List.takeWhile_append_dropWhile (p := p) (l := s)] at outside
  exact outside.of_append_left fun c member =>
    code c (List.all_eq_true.1 List.all_takeWhile c member)

theorem Outside.tail (outside : Outside (c :: s)) (quote : c ≠ '"') (brace : c ≠ '{') :
    Outside s :=
  Outside.of_append_left (s := [c]) outside (List.forall_mem_singleton.2 ⟨quote, brace⟩)

theorem ne_of_isDigit (digit : c.isDigit = true) : c ≠ '"' ∧ c ≠ '{' := by
  constructor <;>
  · rintro rfl
    exact absurd digit (by decide)

theorem ne_of_continuesName (continues : Text.continuesName c = true) : c ≠ '"' ∧ c ≠ '{' := by
  constructor <;>
  · rintro rfl
    exact absurd continues (by decide)

theorem Outside.closes_read (outside : Outside (c :: s)) : Closes (Lexeme.read c s) := by
  unfold Lexeme.read
  split
  · rename_i mark isMark
    have here : mark.toChar = c := Mark.toChar_of_ofChar? isMark
    refine outside.tail ?_ ?_ <;>
    · rw [← here]
      cases mark <;> decide
  · by_cases quote : c = '"'
    · subst quote
      obtain ⟨raw, rest, closed, behind⟩ := quotedText?_of_after outside
      rw [if_pos rfl, closed]
      exact behind
    · by_cases brace : c = '{'
      · subst brace
        have inside : (code 1).after s = code 0 := outside
        obtain ⟨raw, rest, closed, behind⟩ := bracedText?_of_after inside
        rw [if_neg quote, if_pos rfl, closed]
        exact behind
      · have behind : Outside s := outside.tail quote brace
        rw [if_neg quote, if_neg brace]
        split
        · dsimp only
          split
          · exact behind.dropWhile fun c => ne_of_isDigit
          · exact .number _
        · split
          · exact behind.dropWhile fun c => ne_of_continuesName
          · exact .character c

theorem Outside.readable_of_scan {e : TemplateError} (outside : Outside s)
    (failed : Lexeme.scan pos s = .error e) : ∃ p problem, e = .malformed p problem ∧
      Readable problem := by
  fun_induction Lexeme.scan pos s with
  | case1 => cases failed
  | case2 pos c s blank ih =>
    obtain ⟨quote, brace, -⟩ := ne_of_isBlank blank
    exact ih (outside.tail quote brace) failed
  | case3 pos c s visible problem read =>
    have closes := outside.closes_read
    rw [read] at closes
    cases failed
    exact ⟨pos, problem, rfl, closes⟩
  | case4 pos c s visible r read shorter ih =>
    have closes := outside.closes_read
    rw [read] at closes
    rcases others : Lexeme.scan (pos.after r.written) r.rest with e' | more
    · rw [others] at failed
      cases failed
      exact ih closes others
    · rw [others] at failed
      cases failed

/-- The sources of expressions and conditions that a template is split into end outside of quoted
texts and inline templates, whatever the delimiters. So the scanner never finds one that is not
terminated. -/
theorem expressions_terminated {source : List Char} (split : ofSource d source = .ok tokens)
    {token : Token} (member : token ∈ tokens) :
    Outside token.expression ∧ ∀ pos p,
      Lexeme.scan pos token.expression ≠ .error (.malformed p .unterminatedText) ∧
        Lexeme.scan pos token.expression ≠ .error (.malformed p .unterminatedInline) := by
  have outside : Outside token.expression := by
    obtain ⟨pieced, read, rfl⟩ := ofSource_eq_ok_iff.1 split
    exact forall_joinTexts (fun _ => rfl) (outside_of_mem_pieces read) token member
  refine ⟨outside, fun pos p => ⟨fun failed => ?_, fun failed => ?_⟩⟩ <;>
  · obtain ⟨_, _, same, readable⟩ := outside.readable_of_scan failed
    cases same
    cases readable

/-- Delimiters that are quoted or in braces. The scanner stops at the backslash between them. -/
theorem guarded_delimiters_terminated :
    let source := "\"\x7b$\" \\ \x7b\"$\x7d".toList
    ofSource .dollar ('$' :: source ++ ['$']) = .ok [.expr source none ⟨1, 2⟩] ∧
      Outside source ∧
      Lexeme.scan ⟨1, 2⟩ source = .error (.malformed ⟨1, 7⟩ (.unexpectedCharacter '\\')) ∧
      ∀ pos p, Lexeme.scan pos source ≠ .error (.malformed p .unterminatedText) ∧
        Lexeme.scan pos source ≠ .error (.malformed p .unterminatedInline) := by
  intro source
  have split : ofSource .dollar ('$' :: source ++ ['$']) = .ok [.expr source none ⟨1, 2⟩] := by
    decide +kernel
  obtain ⟨outside, terminated⟩ := expressions_terminated split List.mem_cons_self
  exact ⟨split, outside, by decide +kernel, terminated⟩

end Token
end Stencil
