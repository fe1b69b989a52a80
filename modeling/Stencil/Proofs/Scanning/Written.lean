import Stencil.Proofs.Scanning.Lines
/-!
# What tokens are written with

Each lexical step hands over the characters that it takes, in the tokens that it yields. Only an
escape stands for other characters than its own, a comment for none, and a marker may take the
indentation and the line end around it. Where a source has none of these, its tokens written one
behind the other are the source.
-/
namespace Stencil

open Text (Position)

namespace Token

variable {d : Delimiters} {pos : Position} {c : Char} {s source body indent : List Char} {r : Step}
  {tokens : List Token}

/-- The token decides which chunks are rendered. -/
def isMarker : Token → Bool
  | .ifMark _ _ _ => true
  | .elseifMark _ _ _ => true
  | .elseMark _ => true
  | .endifMark _ => true
  | _ => false

/-- How text, line ends and expressions are written in a source without escapes. A marker is not
written, since a token does not tell how much it has taken with it. -/
def written (d : Delimiters) : Token → List Char
  | .text s => s
  | .newline s => s
  | .expr source indent? _ => indent?.getD [] ++ d.start :: (source ++ [d.stop])
  | _ => []

/-- A comment begins at one of the places from `pos` on where a lexical step is taken. -/
def meetsComment (d : Delimiters) (pos : Position) (s : List Char) : Bool :=
  match s with
  | [] => false
  | c :: s =>
    decide (c = d.start ∧ s.head? = some '!') ||
      match h : step d pos c s with
      | .error _ => false
      | .ok r =>
        have : r.rest.length ≤ s.length := length_of_step h
        meetsComment d r.pos r.rest
termination_by s.length

theorem not_meetsComment_of_step (taken : step d pos c s = .ok r)
    (noComment : meetsComment d pos (c :: s) = false) :
    ¬ (c = d.start ∧ s.head? = some '!') ∧ meetsComment d r.pos r.rest = false := by
  rw [meetsComment, Bool.or_eq_false_iff, decide_eq_false_iff_not] at noComment
  refine ⟨noComment.1, ?_⟩
  have behind := noComment.2
  split at behind
  · rename_i failed
    rw [taken] at failed
    cases failed
  · rename_i r' taken'
    rw [taken] at taken'
    cases taken'
    exact behind

/-! ## Steps -/

theorem isMarker_of_marker? {marker : Token} (found : marker? source pos = some marker) :
    marker.isMarker = true := by
  cases marked_of_marker? found <;> rfl

theorem mem_of_escapedText? {content text : List Char} (escaped : escapedText? content = some text) :
    '\\' ∈ content := by
  unfold escapedText? at escaped
  split at escaped
  · cases escaped
  · unfold escapes? at escaped
    split at escaped <;> simp_all

/-- Escape chunks are written with backslashes. -/
theorem mem_of_escapeChunk? {text : List Char} (escaped : escapeChunk? source = some text) :
    '\\' ∈ source := by
  rcases Option.or_eq_some_iff.1 escaped with early | ⟨-, late⟩
  · exact (List.dropWhile_suffix _).subset (mem_of_escapedText? early)
  · exact Text.mem_of_mem_trim (mem_of_escapedText? late)

/-- A chunk that is neither a marker nor an escape is handed over as it stands. -/
theorem chunk_written {indent? : Option (List Char)} (read : chunk d pos indent? body = .ok r)
    (plain : '\\' ∉ body) (noMarker : ∀ token ∈ r.tokens, token.isMarker = false) :
    r.tokens.flatMap (written d) ++ r.rest = indent?.getD [] ++ d.start :: body := by
  have unmarked {marker : Token} {source : List Char} {place : Position}
      (found : marker? source place = some marker) (member : marker ∈ r.tokens) : False := by
    have unmarked := noMarker marker member
    rw [isMarker_of_marker? found] at unmarked
    cases unmarked
  cases chunk_ok_iff.1 read with
  | line _ found => exact (unmarked found (by simp)).elim
  | last _ found => exact (unmarked found (by simp)).elim
  | marker _ found => exact (unmarked found (by simp)).elim
  | escape split _ escaped =>
    rw [eq_of_payload split] at plain
    exact absurd (List.mem_append_left _ (mem_of_escapeChunk? escaped)) plain
  | expression split => simp [written, eq_of_payload split]

/-- A step hands over what it takes. -/
theorem step_written (read : step d pos c s = .ok r) (plain : '\\' ∉ c :: s)
    (noComment : ¬ (c = d.start ∧ s.head? = some '!'))
    (noMarker : ∀ token ∈ r.tokens, token.isMarker = false) :
    r.tokens.flatMap (written d) ++ r.rest = c :: s := by
  cases step_ok_iff.1 read with
  | newline found => simp [written, (eq_of_newline? found).1]
  | indented _ _ found _ chunked =>
    have whole := eq_of_indentation? found
    have plain : '\\' ∉ _ := fun inside =>
      plain (whole ▸ List.mem_append_right _ (List.mem_cons_of_mem _ inside))
    rw [chunk_written chunked plain noMarker, whole]
    rfl
  | escape _ found =>
    rw [(eq_of_escape? found).1] at plain
    exact absurd List.mem_cons_self plain
  | text => rfl
  | comment _ _ starts mark => exact absurd ⟨starts, mark⟩ noComment
  | chunk _ _ starts _ chunked =>
    rw [chunk_written chunked (fun inside => plain (List.mem_cons_of_mem c inside)) noMarker, starts]
    rfl

/-! ## Sources -/

theorem pieces_written (read : pieces d pos s = .ok tokens) (plain : '\\' ∉ s)
    (noComment : meetsComment d pos s = false)
    (noMarker : ∀ token ∈ tokens, token.isMarker = false) : tokens.flatMap (written d) = s := by
  induction pieced_of_pieces read with
  | nil => rfl
  | @cons pos c s r rest taken others _ ih =>
    obtain ⟨here, behind⟩ := not_meetsComment_of_step taken noComment
    obtain ⟨unmarked, unmarked'⟩ := List.forall_mem_append.1 noMarker
    have whole := step_written taken plain here unmarked
    have plain' : '\\' ∉ r.rest := fun inside => plain (whole ▸ List.mem_append_right _ inside)
    rw [List.flatMap_append, ih others plain' behind unmarked', whole]

theorem written_consText (s : List Char) (tokens : List Token) :
    (consText s tokens).flatMap (written d) = s ++ tokens.flatMap (written d) := by
  unfold consText
  split
  · simp [written]
  · split
    · simp_all
    · simp [written]

/-- Joined texts are written like single ones. -/
theorem written_joinTexts (tokens : List Token) :
    (joinTexts tokens).flatMap (written d) = tokens.flatMap (written d) := by
  fun_induction joinTexts tokens with
  | case1 => rfl
  | case2 s rest ih => rw [written_consText, ih, List.flatMap_cons, written]
  | case3 token rest _ ih => rw [List.flatMap_cons, ih, List.flatMap_cons]

theorem isMarker_consText {s : List Char}
    (noMarker : ∀ token ∈ consText s tokens, token.isMarker = false) :
    ∀ token ∈ tokens, token.isMarker = false := by
  unfold consText at noMarker
  split at noMarker
  · exact List.forall_mem_cons.2 ⟨rfl, (List.forall_mem_cons.1 noMarker).2⟩
  · split at noMarker
    · exact noMarker
    · exact (List.forall_mem_cons.1 noMarker).2

theorem isMarker_joinTexts (noMarker : ∀ token ∈ joinTexts tokens, token.isMarker = false) :
    ∀ token ∈ tokens, token.isMarker = false := by
  fun_induction joinTexts tokens with
  | case1 => exact noMarker
  | case2 s rest ih => exact List.forall_mem_cons.2 ⟨rfl, ih (isMarker_consText noMarker)⟩
  | case3 token rest _ ih =>
    obtain ⟨here, others⟩ := List.forall_mem_cons.1 noMarker
    exact List.forall_mem_cons.2 ⟨here, ih others⟩

/-- A source without backslashes, in which the lexer meets no comment and no marker, is what its
tokens are written with. -/
theorem tokens_reproduce_source {d : Delimiters} {source : List Char} {tokens : List Token}
    (split : ofSource d source = .ok tokens) (plain : '\\' ∉ source)
    (noComment : meetsComment d .start source = false)
    (noMarker : ∀ token ∈ tokens, token.isMarker = false) :
    tokens.flatMap (written d) = source := by
  obtain ⟨pieced, read, rfl⟩ := ofSource_eq_ok_iff.1 split
  rw [written_joinTexts]
  exact pieces_written read plain noComment (isMarker_joinTexts noMarker)

/-- An exclamation mark behind a chunk, a comment in an inline template, and delimiters and a brace in
a quoted text. -/
theorem greeting_reproduced :
    let source := "$a$!\r\n  $u:\x7bx | $! c !$$x$\x7d$\n\t $\"\x7d$\"$ b".toList
    let tokens : List Token := [
      .expr "a".toList none ⟨1, 2⟩, .text "!".toList, .newline "\r\n".toList,
      .expr "u:\x7bx | $! c !$$x$\x7d".toList (some "  ".toList) ⟨2, 4⟩, .newline "\n".toList,
      .expr "\"\x7d$\"".toList (some "\t ".toList) ⟨3, 4⟩, .text " b".toList]
    ofSource .dollar source = .ok tokens ∧ tokens.flatMap (written .dollar) = source := by
  intro source tokens
  have split : ofSource .dollar source = .ok tokens := by decide +kernel
  have plain : '\\' ∉ source := by decide +kernel
  have noComment : meetsComment .dollar .start source = false := by decide +kernel
  have noMarker : ∀ token ∈ tokens, token.isMarker = false := by decide +kernel
  exact ⟨split, tokens_reproduce_source split plain noComment noMarker⟩

end Token
end Stencil
