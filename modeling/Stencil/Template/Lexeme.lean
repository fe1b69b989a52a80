import Stencil.Error
import Stencil.Text.Letter
import Stencil.Text.Blank
import Stencil.Decimal.Reading
/-!
# Lexemes of an expression

An expression chunk splits into symbols with the places that they begin at; blanks separate them and
mean nothing else. Each lexeme is a piece of the source as it stands, so positions follow from the
text in front.
-/
namespace Stencil

open Text (Position)

structure Lexeme where
  symbol : Symbol
  pos : Position
  deriving DecidableEq, Repr

/-- The lexemes of an expression and the place behind its last character. -/
structure Lexemes where
  items : List Lexeme
  stop : Position
  deriving DecidableEq, Repr

namespace Lexeme

/-- A symbol, the characters it is written with and what follows them. -/
structure Reading where
  symbol : Symbol
  written : List Char
  rest : List Char
  deriving DecidableEq, Repr

/-- Splits at the first quote that no backslash precedes. -/
def quotedText? : List Char → Option (List Char × List Char)
  | [] => none
  | c :: rest =>
    match c, rest with
    | '\\', [] => none
    | '\\', e :: rest => (quotedText? rest).map fun parts => ('\\' :: e :: parts.1, parts.2)
    | '"', rest => some ([], rest)
    | c, rest => (quotedText? rest).map fun parts => (c :: parts.1, parts.2)

/-- The character that a backslash and `c` stand for inside quotes. -/
def unescaped : Char → Char
  | 'n' => '\n'
  | 't' => '\t'
  | 'r' => '\r'
  | c => c

/-- The text that the characters between two quotes denote. -/
def unquote : List Char → List Char
  | [] => []
  | [c] => [c]
  | c :: e :: rest => if c = '\\' then unescaped e :: unquote rest else c :: unquote (e :: rest)

/-- Splits at the brace that closes `depth` braces and the one that opens the text; a backslash
keeps the character after it from counting. -/
def bracedText? : Nat → List Char → Option (List Char × List Char)
  | _, [] => none
  | depth, c :: rest =>
    match c, rest with
    | '\\', [] => none
    | '\\', e :: rest => (bracedText? depth rest).map fun parts => ('\\' :: e :: parts.1, parts.2)
    | '{', rest => (bracedText? (depth + 1) rest).map fun parts => ('{' :: parts.1, parts.2)
    | '}', rest =>
      match depth with
      | 0 => some ([], rest)
      | depth + 1 => (bracedText? depth rest).map fun parts => ('}' :: parts.1, parts.2)
    | c, rest => (bracedText? depth rest).map fun parts => (c :: parts.1, parts.2)

theorem eq_of_quotedText? {s raw rest : List Char} (h : quotedText? s = some (raw, rest)) :
    s = raw ++ '"' :: rest := by
  fun_induction quotedText? s generalizing raw
  case case4 =>
    simp only [Option.some.injEq, Prod.mk.injEq] at h
    obtain ⟨rfl, rfl⟩ := h
    rfl
  all_goals first
    | cases h
    | (rename_i ih
       simp only [Option.map_eq_some_iff, Prod.mk.injEq] at h
       obtain ⟨parts, hparts, rfl, rfl⟩ := h
       simp [ih hparts])

theorem eq_of_bracedText? {depth : Nat} {s raw rest : List Char}
    (h : bracedText? depth s = some (raw, rest)) : s = raw ++ '}' :: rest := by
  fun_induction bracedText? depth s generalizing raw
  case case5 =>
    simp only [Option.some.injEq, Prod.mk.injEq] at h
    obtain ⟨rfl, rfl⟩ := h
    rfl
  all_goals first
    | cases h
    | (rename_i ih
       simp only [Option.map_eq_some_iff, Prod.mk.injEq] at h
       obtain ⟨parts, hparts, rfl, rfl⟩ := h
       simp [ih hparts])

/-- The number that digits denote, if it is at most the largest one. -/
def number? (digits : List Char) : Option Int64 :=
  let n := Decimal.digitsValue digits
  if n < Nat.pow 2 63 then some (Int64.ofNat n) else none

/-- The symbol at the front of `c :: s`, whose first character is no blank. -/
def read (c : Char) (s : List Char) : Except SourceProblem Reading :=
  match Mark.ofChar? c with
  | some m => .ok ⟨.mark m, [c], s⟩
  | none =>
    if c = '"' then
      match quotedText? s with
      | some (raw, rest) =>
        .ok ⟨.text (String.ofList (unquote raw)), '"' :: raw ++ ['"'], rest⟩
      | none => .error .unterminatedText
    else if c = '{' then
      match bracedText? 0 s with
      | some (raw, rest) => .ok ⟨.inline raw, '{' :: raw ++ ['}'], rest⟩
      | none => .error .unterminatedInline
    else if c.isDigit then
      let digits := c :: s.takeWhile Char.isDigit
      match number? digits with
      | some n => .ok ⟨.number n, digits, s.dropWhile Char.isDigit⟩
      | none => .error (.numberOutOfRange (String.ofList digits))
    else if Text.startsName c then
      let word := c :: s.takeWhile Text.continuesName
      .ok ⟨.name (String.ofList word), word, s.dropWhile Text.continuesName⟩
    else .error (.unexpectedCharacter c)

/-- What a symbol is written with and the rest make up the source. -/
theorem eq_of_read {c : Char} {s : List Char} {r : Reading} (h : read c s = .ok r) :
    c :: s = r.written ++ r.rest ∧ r.written ≠ [] := by
  unfold read at h
  split at h
  · simp only [Except.ok.injEq] at h
    subst h
    simp
  · split at h
    · rename_i hc
      split at h
      · rename_i raw rest hq
        simp only [Except.ok.injEq] at h
        subst h
        simp [hc, eq_of_quotedText? hq]
      · simp at h
    · split at h
      · rename_i hc
        split at h
        · rename_i raw rest hb
          simp only [Except.ok.injEq] at h
          subst h
          simp [hc, eq_of_bracedText? hb]
        · simp at h
      · split at h
        · dsimp only at h
          split at h
          · simp only [Except.ok.injEq] at h
            subst h
            simp
          · simp at h
        · split at h
          · simp only [Except.ok.injEq] at h
            subst h
            simp
          · simp at h

theorem length_of_read {c : Char} {s : List Char} {r : Reading} (h : read c s = .ok r) :
    r.rest.length ≤ s.length := by
  obtain ⟨hs, hne⟩ := eq_of_read h
  have hlen := congrArg List.length hs
  have := List.length_pos_iff.2 hne
  simp only [List.length_cons, List.length_append] at hlen
  omega

/-- The lexemes of a source that begins at `pos`, or what is wrong at the first place that none
fits. -/
def scan (pos : Position) (s : List Char) : Except TemplateError Lexemes :=
  match s with
  | [] => .ok ⟨[], pos⟩
  | c :: s =>
    if Text.isBlank c then scan (pos.step c) s
    else
      match h : read c s with
      | .error problem => .error (.malformed pos problem)
      | .ok r =>
        have : r.rest.length ≤ s.length := length_of_read h
        (scan (pos.after r.written) r.rest).map fun more =>
          { more with items := ⟨r.symbol, pos⟩ :: more.items }
termination_by s.length

section Scanning

variable {c : Char} {s : List Char}

theorem scan_of_blank (blank : Text.isBlank c = true) (pos : Position) :
    scan pos (c :: s) = scan (pos.step c) s := by
  rw [scan, if_pos blank]

theorem scan_of_error {problem : SourceProblem} (visible : Text.isBlank c = false)
    (failed : read c s = .error problem) (pos : Position) :
    scan pos (c :: s) = .error (.malformed pos problem) := by
  rw [scan, visible]
  simp only [Bool.false_eq_true, if_false]
  split
  · rename_i failed'
    rw [failed] at failed'
    cases failed'
    rfl
  · rename_i done
    rw [failed] at done
    cases done

theorem scan_of_read {r : Reading} (visible : Text.isBlank c = false) (done : read c s = .ok r)
    (pos : Position) :
    scan pos (c :: s) = (scan (pos.after r.written) r.rest).map fun more =>
      { more with items := ⟨r.symbol, pos⟩ :: more.items } := by
  rw [scan, visible]
  simp only [Bool.false_eq_true, if_false]
  split
  · rename_i failed
    rw [done] at failed
    cases failed
  · rename_i r' done'
    rw [done] at done'
    cases done'
    rfl

end Scanning
end Lexeme
end Stencil
