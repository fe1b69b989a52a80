import Stencil.Error
import Stencil.Template.Delimiters
import Stencil.Text.Search
/-!
# Tokens of a template's source

The source splits into literal text, line ends, expression chunks and control markers. Every lexical
step takes a piece off the front of the source and leaves a shorter rest, so the lexer ends.
Positions are those of the first character behind the opening delimiter.
-/
namespace Stencil

open Text (Position)

inductive Token where
  | text (s : List Char)
  | newline (s : List Char)
  | expr (source : List Char) (indent : Option (List Char)) (pos : Position)
  /-- `offset` characters lie between `pos` and the condition. -/
  | ifMark (condition : List Char) (offset : Nat) (pos : Position)
  | elseifMark (condition : List Char) (offset : Nat) (pos : Position)
  | elseMark (pos : Position)
  | endifMark (pos : Position)
  deriving DecidableEq, Repr

namespace Token

/-! ## The payload of a chunk -/

/-- What a reader of a payload is inside of: braces, to some depth, or a quoted text. -/
inductive Nesting where
  | code (depth : Nat)
  | quoted
  deriving DecidableEq, Repr

/-- What is wrong with a source that ends in this nesting. -/
def Nesting.problem : Nesting → SourceProblem
  | code 0 => .unterminatedExpression
  | code (_ + 1) => .unterminatedInline
  | quoted => .unterminatedText

def Nesting.enter (depth : Nat) (c : Char) : Nesting :=
  if c = '{' then code (depth + 1) else if c = '}' then code (depth - 1) else code depth

/-- Puts `taken` before the first part of a split. -/
def prepend {ε : Type} (taken : List Char) :
    Except ε (List Char × List Char) → Except ε (List Char × List Char) :=
  Except.map fun parts => (taken ++ parts.1, parts.2)

/-- Splits at the first stop character outside braces and quoted texts. A backslash keeps the
character after it from counting, inside both; quotes count outside braces only. -/
def payload (stop : Char) : Nesting → List Char → Except Nesting (List Char × List Char)
  | nesting, [] => .error nesting
  | .quoted, c :: rest =>
    match c, rest with
    | '\\', [] => .error .quoted
    | '\\', e :: rest => prepend ['\\', e] (payload stop .quoted rest)
    | '"', rest => prepend ['"'] (payload stop (.code 0) rest)
    | c, rest => prepend [c] (payload stop .quoted rest)
  | .code 0, c :: rest =>
    if c = '"' then prepend [c] (payload stop .quoted rest)
    else if c = '{' then prepend [c] (payload stop (.code 1) rest)
    else if c = stop then .ok ([], rest)
    else prepend [c] (payload stop (.code 0) rest)
  | .code (depth + 1), c :: rest =>
    match c, rest with
    | '\\', [] => .error (.code (depth + 1))
    | '\\', e :: rest => prepend ['\\', e] (payload stop (.code (depth + 1)) rest)
    | c, rest => prepend [c] (payload stop (.enter (depth + 1) c) rest)

theorem prepend_eq_ok {ε : Type} {taken source rest : List Char}
    {r : Except ε (List Char × List Char)} (h : prepend taken r = .ok (source, rest)) :
    ∃ inner, r = .ok (inner, rest) ∧ source = taken ++ inner := by
  cases r with
  | error e => simp [prepend, Except.map] at h
  | ok parts =>
    simp only [prepend, Except.map, Except.ok.injEq, Prod.mk.injEq] at h
    exact ⟨parts.1, by simp [← h.2], h.1.symm⟩

/-- A payload, its stop character and the rest make up the whole. -/
theorem eq_of_payload {stop : Char} {nesting : Nesting} {s source rest : List Char}
    (h : payload stop nesting s = .ok (source, rest)) : s = source ++ stop :: rest := by
  fun_induction payload stop nesting s generalizing source
  case case8 =>
    simp only [Except.ok.injEq, Prod.mk.injEq] at h
    obtain ⟨rfl, rfl⟩ := h
    rfl
  all_goals first
    | cases h
    | (rename_i ih
       obtain ⟨inner, hinner, rfl⟩ := prepend_eq_ok h
       simp [ih hinner])

/-! ## Control markers -/

/-- The condition of `word (condition)` and its place in the content. -/
def conditionOf? (word content : List Char) : Option (List Char × Nat) := do
  let opened ← Text.dropWord? ['('] (Text.trimStart (← Text.dropWord? word content))
  let condition ← Text.dropLastWord? [')'] opened
  some (condition, content.length - opened.length)

/-- The control marker that a payload spells out, blanks around it apart. -/
def marker? (source : List Char) (pos : Position) : Option Token :=
  let content := Text.trim source
  let lead := source.length - (Text.trimStart source).length
  if content = "else".toList then some (.elseMark pos)
  else if content = "endif".toList then some (.endifMark pos)
  else match conditionOf? "elseif".toList content with
    | some (condition, offset) => some (.elseifMark condition (lead + offset) pos)
    | none =>
      (conditionOf? "if".toList content).map fun (condition, offset) =>
        .ifMark condition (lead + offset) pos

/-! ## Escape chunks -/

def hexDigit? (c : Char) : Option Nat :=
  if c.isDigit then some (c.toNat - '0'.toNat)
  else if 'a' ≤ c ∧ c ≤ 'f' then some (c.toNat - 'a'.toNat + 10)
  else if 'A' ≤ c ∧ c ≤ 'F' then some (c.toNat - 'A'.toNat + 10)
  else none

/-- Hexadecimal digits, at least one, a plus sign before them allowed. -/
def hexValue? (s : List Char) : Option Nat :=
  let digits := if s.head? = some '+' then s.drop 1 else s
  if digits = [] then none
  else digits.foldlM (fun n c => (hexDigit? c).map (16 * n + ·)) 0

def charOf? (n : Nat) : Option Char := if n.isValidChar then some (Char.ofNat n) else none

/-- A sequence of escapes: `\n`, `\r`, `\t`, a backslash and a space, or `\u` with the code point in
the four characters after it, or in fewer at the end. -/
def escapes? : List Char → Option (List Char)
  | [] => some []
  | '\\' :: 'n' :: rest => (escapes? rest).map ('\n' :: ·)
  | '\\' :: 'r' :: rest => (escapes? rest).map ('\r' :: ·)
  | '\\' :: 't' :: rest => (escapes? rest).map ('\t' :: ·)
  | '\\' :: ' ' :: rest => (escapes? rest).map (' ' :: ·)
  | '\\' :: 'u' :: rest =>
    match (hexValue? (rest.take 4)).bind charOf? with
    | some c => (escapes? (rest.drop 4)).map (c :: ·)
    | none => none
  | _ => none
termination_by s => s.length
decreasing_by all_goals simp only [List.length_cons, List.length_drop]; omega

/-- The characters that a payload of escapes denotes; one escape at least. -/
def escapedText? (content : List Char) : Option (List Char) :=
  if content = [] then none else escapes? content

/-- The text of an escape chunk. A blank at the end may belong to the last escape. -/
def escapeChunk? (source : List Char) : Option (List Char) :=
  (escapedText? (Text.trimStart source)).or (escapedText? (Text.trim source))

/-! ## Lexical steps -/

def newline? : List Char → Option (List Char × List Char)
  | '\r' :: '\n' :: rest => some (['\r', '\n'], rest)
  | '\n' :: rest => some (['\n'], rest)
  | _ => none

theorem eq_of_newline? {s nl rest : List Char} (h : newline? s = some (nl, rest)) :
    s = nl ++ rest ∧ nl ≠ [] := by
  unfold newline? at h
  split at h <;> simp_all
  all_goals simp [← h.1]

def isIndent (c : Char) : Bool := c = ' ' || c = '\t'

/-- At the start of a line: spaces and tabs with a chunk right behind them. Whether a comment opens
there is looked up one byte behind the start delimiter, so only behind a delimiter of one byte. -/
def indentation? (d : Delimiters) (s : List Char) : Option (List Char × List Char) :=
  let indent := s.takeWhile isIndent
  match s.dropWhile isIndent with
  | c :: body =>
    if indent ≠ [] ∧ c = d.start ∧ (d.start.utf8Size = 1 → body.head? ≠ some '!') then
      some (indent, body)
    else none
  | [] => none

theorem eq_of_indentation? {d : Delimiters} {s indent body : List Char}
    (h : indentation? d s = some (indent, body)) : s = indent ++ d.start :: body := by
  unfold indentation? at h
  dsimp only at h
  split at h
  · rename_i c tail hdrop
    split at h
    · rename_i hcond
      simp only [Option.some.injEq, Prod.mk.injEq] at h
      rw [← h.1, ← h.2, ← hcond.2.1, ← hdrop]
      exact (List.takeWhile_append_dropWhile (p := isIndent) (l := s)).symm
    · simp at h
  · simp at h

/-- A backslash before a delimiter stands for the delimiter; two of them before the start delimiter
for one backslash, and the chunk follows. -/
def escape? (d : Delimiters) : List Char → Option (Char × List Char)
  | '\\' :: '\\' :: rest =>
    if rest.head? = some d.start ∨ d.start = '\\' ∨ d.stop = '\\' then some ('\\', rest) else none
  | '\\' :: c :: rest => if c = d.start ∨ c = d.stop then some (c, rest) else none
  | _ => none

theorem length_of_escape? {d : Delimiters} {s rest : List Char} {c : Char}
    (h : escape? d s = some (c, rest)) : s.length = rest.length + 2 := by
  unfold escape? at h
  split at h
  · split at h <;> simp_all
  · split at h <;> simp_all
  · simp at h

/-- What one lexical step yields: tokens, the position behind them and the rest of the source. -/
structure Step where
  tokens : List Token
  pos : Position
  rest : List Char
  deriving DecidableEq, Repr

def indentText : Option (List Char) → List Token
  | some indent => [.text indent]
  | none => []

/-- The step behind a start delimiter at `opening`. A marker that is alone on its line takes the
line end with it and drops the indentation; other markers and escapes give it back as text. -/
def chunk (d : Delimiters) (opening : Position) (indent : Option (List Char))
    (body : List Char) : Except TemplateError Step :=
  let pos := opening.step d.start
  match payload d.stop (.code 0) body with
  | .error nesting => .error (.malformed opening nesting.problem)
  | .ok (source, rest) =>
    let behind := pos.after (source ++ [d.stop])
    match marker? source pos with
    | some marker =>
      if opening.column = 1 ∨ indent.isSome then
        match newline? rest, rest with
        | some (nl, rest), _ => .ok ⟨[marker], behind.after nl, rest⟩
        | none, [] => .ok ⟨[marker], behind, []⟩
        | none, rest => .ok ⟨indentText indent ++ [marker], behind, rest⟩
      else .ok ⟨indentText indent ++ [marker], behind, rest⟩
    | none =>
      match escapeChunk? source with
      | some escaped => .ok ⟨indentText indent ++ [.text escaped], behind, rest⟩
      | none => .ok ⟨[.expr source indent pos], behind, rest⟩

theorem length_of_chunk {d : Delimiters} {opening : Position} {indent : Option (List Char)}
    {body : List Char} {step : Step} (h : chunk d opening indent body = .ok step) :
    step.rest.length < body.length := by
  unfold chunk at h
  dsimp only at h
  split at h
  · simp at h
  · rename_i source rest hpayload
    have hbody := congrArg List.length (eq_of_payload hpayload)
    simp only [List.length_append, List.length_cons] at hbody
    split at h
    · split at h
      · split at h
        · rename_i nl rest' hnl
          have hrest := congrArg List.length (eq_of_newline? hnl).1
          simp only [List.length_append] at hrest
          simp only [Except.ok.injEq] at h
          subst h
          simp only
          omega
        all_goals
          simp only [Except.ok.injEq] at h
          subst h
          simp_all
          try omega
      · simp only [Except.ok.injEq] at h
        subst h
        simp only
        omega
    · split at h <;>
        · simp only [Except.ok.injEq] at h
          subst h
          simp only
          omega

/-- A comment runs to the first exclamation mark that stands before a stop delimiter; `body` begins
with the mark that opens it. -/
def comment (d : Delimiters) (opening : Position) (body : List Char) :
    Except TemplateError Step :=
  match Text.splitAtWord? ['!', d.stop] body with
  | some (inner, rest) =>
    .ok ⟨[], (opening.step d.start).after (inner ++ ['!', d.stop]), rest⟩
  | none => .error (.malformed opening .unterminatedComment)

theorem length_of_comment {d : Delimiters} {opening : Position} {body : List Char} {step : Step}
    (h : comment d opening body = .ok step) : step.rest.length < body.length := by
  unfold comment at h
  split at h
  · rename_i inner rest hsplit
    have hbody := congrArg List.length (Text.eq_of_splitAtWord? hsplit)
    simp only [Except.ok.injEq] at h
    subst h
    simp only [List.length_append, List.length_cons, List.length_nil] at hbody
    simp only
    omega
  · simp at h

/-- A chunk or a comment behind an indentation. Its start delimiter is cut off as one byte, and a
delimiter of several bytes cannot be cut there. -/
def indentedChunk (d : Delimiters) (pos : Position) (indent body : List Char) :
    Except TemplateError Step :=
  if d.start.utf8Size = 1 then chunk d (pos.after indent) (some indent) body
  else .error (.malformed (pos.after indent) .cutDelimiter)

theorem indentedChunk_eq_ok_iff {d : Delimiters} {pos : Position} {indent body : List Char}
    {step : Step} : indentedChunk d pos indent body = .ok step ↔
      d.start.utf8Size = 1 ∧ chunk d (pos.after indent) (some indent) body = .ok step := by
  unfold indentedChunk
  split <;> simp_all

example : indentedChunk ⟨'«', '»'⟩ .start [' '] ['x', '»'] =
    .error (.malformed ⟨1, 2⟩ .cutDelimiter) :=
  rfl

theorem length_of_indentedChunk {d : Delimiters} {pos : Position} {indent body : List Char}
    {step : Step} (h : indentedChunk d pos indent body = .ok step) :
    step.rest.length < body.length :=
  length_of_chunk (indentedChunk_eq_ok_iff.1 h).2

/-- One lexical step on the source `c :: s`. -/
def step (d : Delimiters) (pos : Position) (c : Char) (s : List Char) :
    Except TemplateError Step :=
  match newline? (c :: s) with
  | some (nl, rest) => .ok ⟨[.newline nl], pos.after nl, rest⟩
  | none =>
    match if pos.column = 1 then indentation? d (c :: s) else none with
    | some (indent, body) => indentedChunk d pos indent body
    | none =>
      match escape? d (c :: s) with
      | some (e, rest) => .ok ⟨[.text [e]], (pos.step c).step e, rest⟩
      | none =>
        if c ≠ d.start then .ok ⟨[.text [c]], pos.step c, s⟩
        else if s.head? = some '!' then comment d pos s
        else chunk d pos none s

theorem length_of_step {d : Delimiters} {pos : Position} {c : Char} {s : List Char} {r : Step}
    (h : step d pos c s = .ok r) : r.rest.length ≤ s.length := by
  unfold step at h
  split at h
  · rename_i nl rest hnl
    have hs := congrArg List.length (eq_of_newline? hnl).1
    have hne := List.length_pos_iff.2 (eq_of_newline? hnl).2
    simp only [Except.ok.injEq] at h
    subst h
    simp only [List.length_cons, List.length_append] at hs ⊢
    omega
  · split at h
    · rename_i indent body hindent
      split at hindent
      · have hs := congrArg List.length (eq_of_indentation? hindent)
        have := length_of_indentedChunk h
        simp only [List.length_cons, List.length_append] at hs
        omega
      · simp at hindent
    · split at h
      · rename_i e rest hescape
        have hs := length_of_escape? hescape
        simp only [Except.ok.injEq] at h
        subst h
        simp only [List.length_cons] at hs ⊢
        omega
      · split at h
        · simp only [Except.ok.injEq] at h
          subst h
          simp
        · split at h
          · exact Nat.le_of_lt (length_of_comment h)
          · exact Nat.le_of_lt (length_of_chunk h)

/-! ## The lexer -/

/-- The tokens of the source from `pos` on, literal text still in pieces. -/
def pieces (d : Delimiters) (pos : Position) (s : List Char) :
    Except TemplateError (List Token) :=
  match s with
  | [] => .ok []
  | c :: s =>
    match h : step d pos c s with
    | .error e => .error e
    | .ok r =>
      have : r.rest.length ≤ s.length := length_of_step h
      (pieces d r.pos r.rest).map (r.tokens ++ ·)
termination_by s.length

/-- Puts text before tokens, as part of a text that they begin with. -/
def consText (s : List Char) : List Token → List Token
  | .text t :: rest => .text (s ++ t) :: rest
  | rest => if s = [] then rest else .text s :: rest

/-- Joins texts that stand next to each other. -/
def joinTexts : List Token → List Token
  | [] => []
  | .text s :: rest => consText s (joinTexts rest)
  | token :: rest => token :: joinTexts rest

/-- The tokens of a template's source, or what is wrong with it at the first place that no token
fits. -/
def ofSource (d : Delimiters) (source : List Char) : Except TemplateError (List Token) :=
  (pieces d .start source).map joinTexts

end Token
end Stencil
