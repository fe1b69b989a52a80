import Stencil.Proofs.Places.Positions
import Stencil.Proofs.Scanning.Lines
/-!
# Comments

A comment yields no token, so a source is split with it as it is without, as far as the comment does
not come between characters that one lexical step reads together. What a step reads together depends
on the line: at its start, blanks belong to an expression behind them, and a marker that is alone
takes the whole line. Behind a comment no line starts.
-/
namespace Stencil

open Text (Position)

namespace Token

variable {d : Delimiters} {pos pos' opening : Position} {a b c s blanks body : List Char}
  {indent? : Option (List Char)} {r : Step} {tokens tokens' others more : List Token}

/-- A comment, as it is written. -/
def commentText (d : Delimiters) (c : List Char) : List Char :=
  d.start :: '!' :: (c ++ ['!', d.stop])

/-! ## What is taken of a line -/

/-- The chunk behind a start delimiter takes something around it with it: an expression the blanks
in front of it, and a marker that is alone on its line the blanks and the line end. -/
def chunkTakes (d : Delimiters) (indented : Bool) (body : List Char) : Bool :=
  match payload d.stop (.code 0) body with
  | .error _ => false
  | .ok (source, rest) =>
    if (marker? source .start).isSome then (newline? rest).isSome || indented && rest.isEmpty
    else indented && (escapeChunk? source).isNone

/-- At the start of a line stands a chunk, with or without blanks in front of it, that takes
something of the line with it. -/
def takesLine (d : Delimiters) (line : List Char) : Bool :=
  match line.dropWhile isIndent with
  | [] => false
  | c :: body =>
    decide (c = d.start ∧ body.head? ≠ some '!') && chunkTakes d (line.head?.any isIndent) body

/-- A cut in the literal text of a source, at which a comment has no width: it lies between two
lexical steps in a line, behind no backslash that stands for itself and behind no indented marker at
the end of the source; or it lies at the start of a line or in the blanks there, and nothing is
taken of this line. -/
inductive Cut (d : Delimiters) : List Char → List Char → Prop
  | inLine {a b : List Char} {taken : List Token} :
    Lexes d .start a b taken → (Position.start.after a).column ≠ 1 →
    (a.getLast? = some '\\' → b.head? = some d.start) →
    (b = [] → ∀ before line front, a = before ++ line → Lexes d .start before line front →
      (Position.start.after before).column = 1 → endsIndented d line = false) →
    Cut d a b
  | lineStart {before blanks b : List Char} {taken : List Token} :
    Lexes d .start before (blanks ++ b) taken → (Position.start.after before).column = 1 →
    blanks.all isIndent = true → takesLine d (blanks ++ b) = false → Cut d (before ++ blanks) b

/-! ## The same tokens -/

/-- The tokens are the same, apart from their places and from how literal text is cut. -/
def Same (tokens tokens' : List Token) : Prop :=
  joinTexts (tokens.map unplaced) = joinTexts (tokens'.map unplaced)

theorem consText_nil (tokens : List Token) : consText [] tokens = tokens := by
  unfold consText
  split <;> rfl

theorem consText_consText (s t : List Char) (tokens : List Token) :
    consText s (consText t tokens) = consText (s ++ t) tokens := by
  rcases tokens with _ | ⟨first, rest⟩
  · by_cases nothing : t = [] <;> simp [consText, nothing]
  · cases first with
    | text u => simp [consText]
    | _ => by_cases nothing : t = [] <;> simp [consText, nothing]

theorem joinTexts_characters (s : List Char) (tokens : List Token) :
    joinTexts (s.map (fun c => .text [c]) ++ tokens) = consText s (joinTexts tokens) := by
  induction s with
  | nil => exact (consText_nil _).symm
  | cons c s ih =>
    rw [List.map_cons, List.cons_append, joinTexts, ih, consText_consText]
    rfl

theorem Same.append (moved : tokens.map unplaced = tokens'.map unplaced) (same : Same others more) :
    Same (tokens ++ others) (tokens' ++ more) := by
  unfold Same at same ⊢
  rw [List.map_append, List.map_append, moved]
  induction tokens'.map unplaced with
  | nil => exact same
  | cons first rest ih =>
    cases first with
    | text s => exact congrArg (consText s) ih
    | _ => exact congrArg (_ :: ·) ih

theorem same_characters (s : List Char) (same : Same tokens tokens') :
    Same (s.map (fun c => .text [c]) ++ tokens) (.text s :: tokens') := by
  unfold Same at same ⊢
  rw [List.map_append, List.map_map, List.map_cons]
  exact (joinTexts_characters s _).trans (congrArg (consText s) same)

/-! ## The middle of a line -/

theorem alike_after (counts : 1 ≤ pos.column) (counts' : 1 ≤ pos'.column) (nonempty : s ≠ []) :
    (pos.after s).Alike (pos'.after s) := by
  obtain ⟨c, s, rfl⟩ := List.exists_cons_of_ne_nil nonempty
  refine Position.Alike.after ?_ s
  unfold Position.step
  split
  · exact .inl rfl
  · exact .inr ⟨Nat.lt_succ_of_le counts, Nat.lt_succ_of_le counts'⟩

theorem column_after_blanks (pos : Position) (all : blanks.all isIndent = true) :
    (pos.after blanks).column = pos.column + blanks.length := by
  rw [Position.after_of_unbroken, Position.right]
  intro inside
  exact absurd (List.all_eq_true.1 all _ inside) (by decide)

/-- Blanks that no chunk follows at the start of a line are text, character by character. -/
theorem lexes_blanks (out : d.StandOut) (all : blanks.all isIndent = true)
    (noIndent : pos.column ≤ 1 → ∀ front : List Char, front.all isIndent = true →
      indentation? d (front ++ s) = none) :
    Lexes d pos blanks s (blanks.map fun c => .text [c]) := by
  induction blanks generalizing pos with
  | nil => exact .here pos s
  | cons b blanks ih =>
    have blank : isIndent b = true := List.all_eq_true.1 all b List.mem_cons_self
    have ne {c : Char} (visible : isIndent c = false) : b ≠ c := by
      rintro rfl
      exact absurd blank (by simp [visible])
    have noNewline : newline? (b :: (blanks ++ s)) = none := by
      simp [newline?, ne (c := '\r') (by decide), ne (c := '\n') (by decide)]
    have midline : Midline d pos (b :: (blanks ++ s)) :=
      ⟨noNewline, fun lineStart => noIndent (Nat.le_of_eq lineStart) (b :: blanks) all⟩
    have onward : (pos.step b).column ≤ 1 → pos.column ≤ 1 := by
      rw [Position.step, if_neg (ne (by decide))]
      exact Nat.le_of_succ_le
    rw [List.all_cons, Bool.and_eq_true] at all
    have taken := step_ok_iff.2 (.text midline (escape?_of_ne (ne (by decide)) _) (ne out.blank))
    exact .step (s := []) taken (ih all.2 fun start => noIndent (onward start))

theorem indentation?_comment (out : d.StandOut) (all : blanks.all isIndent = true) :
    indentation? d (blanks ++ (commentText d c ++ s)) = none := by
  refine Option.eq_none_iff_forall_ne_some.2 fun ⟨indent, body⟩ found => ?_
  obtain ⟨whole, -, all', start, noComment⟩ := indentation?_eq_some_iff.1 found
  have behind := congrArg (List.dropWhile isIndent) whole
  rw [List.dropWhile_append_of_pos (List.all_eq_true.1 all),
    List.dropWhile_append_of_pos (List.all_eq_true.1 all'), commentText, List.cons_append,
    List.dropWhile_cons_of_neg (by simp [start]), List.dropWhile_cons_of_neg (by simp [start])]
    at behind
  obtain ⟨-, rfl⟩ := List.cons.inj behind
  exact noComment out.single rfl

/-- A comment is taken as a whole. -/
theorem lexes_comment (out : d.StandOut) (free : ¬ ['!', d.stop] <:+: '!' :: (c ++ ['!']))
    (pos : Position) (b : List Char) : Lexes d pos (commentText d c) b [] := by
  have split : Text.splitAtWord? ['!', d.stop] ('!' :: (c ++ ['!', d.stop]) ++ b) =
      some ('!' :: c, b) :=
    (Text.splitAtWord?_eq_some_iff (List.cons_ne_nil _ _)).2 ⟨rfl, free⟩
  have noNewline : newline? (d.start :: ('!' :: (c ++ ['!', d.stop]) ++ b)) = none := by
    simp [newline?, out.lineFeed]
  have noIndent : indentation? d ([] ++ (commentText d c ++ b)) = none :=
    indentation?_comment out rfl
  have taken : step d pos d.start ('!' :: (c ++ ['!', d.stop]) ++ ([] ++ b)) = _ :=
    step_ok_iff.2 (.comment ⟨noNewline, fun _ => noIndent⟩ (escape?_of_ne out.backslash _) rfl rfl
      split)
  simpa [commentText] using Lexes.step taken (.here _ b)

/-- No line starts behind a comment. -/
theorem column_after_comment (out : d.StandOut) (pos : Position) (c : List Char) :
    1 < (pos.after (commentText d c)).column := by
  have split : commentText d c = (d.start :: '!' :: c) ++ ['!', d.stop] := rfl
  rw [split, Position.after_append, Position.after_cons, Position.after_cons, Position.after_nil,
    Position.step, if_neg out.stop, Position.step, if_neg (by decide)]
  exact Nat.succ_lt_succ (Nat.succ_pos _)

/-! ## Lines of which nothing is taken -/

/-- Where nothing is taken of a line, a chunk is read alike without its blanks and in the middle of
a line. -/
theorem chunk_inLine (kept : chunkTakes d indent?.isSome body = false) (inLine : 1 < opening.column)
    (read : chunk d pos indent? body = .ok r) :
    ∃ r', chunk d opening none body = .ok r' ∧ r'.rest = r.rest ∧
      (indentText indent? ++ r'.tokens).map unplaced = r.tokens.map unplaced := by
  have notAlone : ¬ (opening.column = 1 ∨ (none : Option (List Char)).isSome) := by
    simp
    omega
  cases chunk_ok_iff.1 read with
  | line split found _ ended => simp [chunkTakes, split, isSome_marker? found, ended] at kept
  | last split found =>
    obtain ⟨marker, found', moved⟩ := exists_marker?_moved found (opening.step d.start)
    have given : indent? = none := by
      simpa [chunkTakes, split, isSome_marker? found, newline?] using kept
    subst given
    exact ⟨_, chunk_ok_iff.2 (.marker split found' (absurd · notAlone)), rfl,
      by simp [indentText, moved]⟩
  | marker split found =>
    obtain ⟨marker, found', moved⟩ := exists_marker?_moved found (opening.step d.start)
    exact ⟨_, chunk_ok_iff.2 (.marker split found' (absurd · notAlone)), rfl,
      by simp [indentText, moved]⟩
  | escape split noMarker escaped =>
    exact ⟨_, chunk_ok_iff.2 (.escape split (marker?_eq_none_moved noMarker _) escaped), rfl,
      by simp [indentText]⟩
  | expression split noMarker noEscape =>
    have given : indent? = none := by
      have noMarker' := marker?_eq_none_moved noMarker .start
      simpa [chunkTakes, split, noMarker', noEscape] using kept
    subst given
    exact ⟨_, chunk_ok_iff.2 (.expression split (marker?_eq_none_moved noMarker _) noEscape), rfl,
      by simp [unplaced, indentText]⟩

theorem takesLine_chunk (out : d.StandOut) (all : blanks.all isIndent = true)
    (noComment : body.head? ≠ some '!') :
    takesLine d (blanks ++ d.start :: body) = chunkTakes d (!blanks.isEmpty) body := by
  have behind : (blanks ++ d.start :: body).dropWhile isIndent = d.start :: body := by
    rw [List.dropWhile_append_of_pos (List.all_eq_true.1 all),
      List.dropWhile_cons_of_neg (by simp [out.blank])]
  have first : (blanks ++ d.start :: body).head?.any isIndent = !blanks.isEmpty := by
    rcases blanks with _ | ⟨b, blanks⟩
    · exact out.blank
    · exact List.all_eq_true.1 all b List.mem_cons_self
  rw [takesLine, behind, first]
  simp [noComment]

theorem Midline.inLine (midline : Midline d pos s) (inLine : 1 < pos'.column) : Midline d pos' s :=
  ⟨midline.noNewline, fun lineStart => absurd inLine (by omega)⟩

/-- A line of which nothing is taken is split as it is in the middle of another line. -/
theorem pieces_inLine (out : d.StandOut) (lineStart : pos.column = 1) (kept : takesLine d s = false)
    (inLine : 1 < pos'.column) (read : pieces d pos s = .ok tokens) :
    ∃ tokens', pieces d pos' s = .ok tokens' ∧ Same tokens' tokens := by
  cases pieced_of_pieces read with
  | nil => exact ⟨[], by rw [pieces], rfl⟩
  | @cons _ c s r rest taken others =>
    obtain ⟨piece, whole, place⟩ := step_takes taken
    have behind {r' : Step} (same : r'.rest = r.rest) (takes : r'.Takes pos' (c :: s)) :
        ∃ rest', pieces d r'.pos r'.rest = .ok rest' ∧ rest'.map unplaced = rest.map unplaced := by
      obtain ⟨piece', whole', place'⟩ := takes
      rw [whole, same, List.append_cancel_right_eq] at whole'
      subst whole'
      have nonempty : piece ≠ [] := by
        rintro rfl
        have length := congrArg List.length whole
        have shorter := length_of_step taken
        simp only [List.nil_append, List.length_cons] at length
        omega
      rw [same, place']
      rw [place] at others
      exact pieces_moved (alike_after (by omega) (by omega) nonempty) others
    have onward {r' : Step} (taken' : step d pos' c s = .ok r')
        (moved : r'.tokens.map unplaced = r.tokens.map unplaced) (same : r'.rest = r.rest) :
        ∃ tokens', pieces d pos' (c :: s) = .ok tokens' ∧ Same tokens' (r.tokens ++ rest) := by
      obtain ⟨rest', others', moved'⟩ := behind same (step_takes taken')
      rw [pieces_of_step taken', others']
      exact ⟨_, rfl, .append moved (congrArg joinTexts moved')⟩
    cases step_ok_iff.1 taken with
    | newline found => exact onward (step_ok_iff.2 (.newline found)) rfl rfl
    | @indented indent body _ _ _ found single chunked =>
      obtain ⟨split, given, all, start, noComment⟩ := indentation?_eq_some_iff.1 found
      have noComment := noComment single
      have indented : (!indent.isEmpty) = (some indent).isSome := by simpa using given
      rw [split, takesLine_chunk out all noComment, indented] at kept
      have inLine' : 1 < (pos'.after indent).column := by
        rw [column_after_blanks _ all]
        omega
      obtain ⟨r', chunked', same, moved⟩ := chunk_inLine kept inLine' chunked
      have noNewline' : newline? (d.start :: body) = none := by
        simp [newline?, out.lineFeed, out.carriage]
      have midline : Midline d (pos'.after indent) (d.start :: body) :=
        ⟨noNewline', fun lineStart => absurd inLine' (by omega)⟩
      have taken' := step_ok_iff.2
        (.chunk midline (escape?_of_ne out.backslash _) rfl noComment chunked')
      obtain ⟨piece', whole', place'⟩ := chunk_takes chunked'
      obtain ⟨rest', others', moved'⟩ := behind same
        ⟨indent ++ piece', by rw [split, whole', List.append_assoc],
          place'.trans (Position.after_append _ _ _).symm⟩
      have characters : Lexes d pos' indent (d.start :: body) _ := lexes_blanks out all (by omega)
      rw [split, characters.pieces, pieces_of_step taken', others']
      refine ⟨_, rfl, (same_characters indent rfl).trans ?_⟩
      exact Same.append (show (.text indent :: r'.tokens).map unplaced = _ from moved)
        (congrArg joinTexts moved')
    | escape midline found =>
      exact onward (step_ok_iff.2 (.escape (midline.inLine inLine) found)) rfl rfl
    | text midline noEscape other =>
      exact onward (step_ok_iff.2 (.text (midline.inLine inLine) noEscape other)) rfl rfl
    | comment midline noEscape starts mark split =>
      have midline := midline.inLine inLine
      exact onward (step_ok_iff.2 (.comment midline noEscape starts mark split)) rfl rfl
    | chunk midline noEscape starts noMark chunked =>
      have kept : chunkTakes d false s = false :=
        (takesLine_chunk out (List.all_nil) noMark).symm.trans (starts ▸ kept)
      obtain ⟨r', chunked', behind, moved⟩ := chunk_inLine kept inLine chunked
      exact onward (step_ok_iff.2 (.chunk (midline.inLine inLine) noEscape starts noMark chunked'))
        moved behind

/-! ## Cuts -/

/-- In the middle of a line, a comment changes nothing of what follows it. -/
theorem pieces_comment_inLine (out : d.StandOut) (inLine : 1 < pos.column)
    (free : ¬ ['!', d.stop] <:+: '!' :: (c ++ ['!'])) (read : pieces d pos b = .ok tokens) :
    ∃ tokens', pieces d pos (commentText d c ++ b) = .ok tokens' ∧ Same tokens' tokens := by
  have behind := column_after_comment out pos c
  obtain ⟨tokens', read', moved⟩ := pieces_moved (.inr ⟨inLine, behind⟩) read
  refine ⟨tokens', ?_, congrArg joinTexts moved⟩
  rw [(lexes_comment out free pos b).pieces, read']
  rfl

/-- Neither does it at the start of a line of which nothing is taken, in front of blanks or behind
them. -/
theorem pieces_comment_lineStart (out : d.StandOut) (lineStart : pos.column = 1)
    (all : blanks.all isIndent = true) (kept : takesLine d (blanks ++ b) = false)
    (free : ¬ ['!', d.stop] <:+: '!' :: (c ++ ['!']))
    (read : pieces d pos (blanks ++ b) = .ok tokens) :
    ∃ tokens', pieces d pos (blanks ++ (commentText d c ++ b)) = .ok tokens' ∧
      Same tokens' tokens := by
  have later : 1 < (⟨1, 2⟩ : Position).column := Nat.lt_succ_self 1
  obtain ⟨inLine, read', same⟩ := pieces_inLine out lineStart kept later read
  have blanksInLine : Lexes d ⟨1, 2⟩ blanks b _ := lexes_blanks out all (absurd · (by decide))
  have column := column_after_blanks ⟨1, 2⟩ all
  rw [blanksInLine.pieces] at read'
  rcases others : pieces d (Position.after ⟨1, 2⟩ blanks) b with e | rest
  · rw [others] at read'
    cases read'
  · rw [others] at read'
    cases read'
    have behind := column_after_comment out (pos.after blanks) c
    obtain ⟨rest', others', moved⟩ := pieces_moved (.inr ⟨by omega, behind⟩) others
    have characters : Lexes d pos blanks (commentText d c ++ b) _ :=
      lexes_blanks out all fun _ _ => indentation?_comment out
    have comment := lexes_comment out free (pos.after blanks) b
    rw [characters.pieces, comment.pieces, others']
    exact ⟨_, rfl, (Same.append rfl (congrArg joinTexts moved)).trans same⟩

theorem endsLine_of_lineStart (lineStart : (Position.start.after s).column = 1) :
    Text.EndsLine s := by
  induction s using List.reverseRecOn with
  | nil => exact .inl rfl
  | append_singleton init last _ =>
    right
    rw [Position.after_append, Position.after_cons, Position.after_nil, Position.step] at lineStart
    have counts := (Position.counts_start.after init).column
    split at lineStart
    · rename_i lineFeed
      rw [lineFeed, List.getLast?_concat]
    · dsimp only at lineStart
      omega

/-- A comment has no width: between the parts of a source, it changes none of the tokens but for
their places. The start delimiter is one byte long, since behind an indentation no other can be
cut off. -/
theorem comments_leave_tokens (out : d.StandOut) (split : ofSource d (a ++ b) = .ok tokens)
    (cut : Cut d a b) (free : ¬ ['!', d.stop] <:+: '!' :: (c ++ ['!'])) :
    ∃ tokens', ofSource d (a ++ (commentText d c ++ b)) = .ok tokens' ∧
      tokens'.map unplaced = tokens.map unplaced := by
  obtain ⟨pieced, read, rfl⟩ := ofSource_eq_ok_iff.1 split
  suffices ∃ pieced', pieces d .start (a ++ (commentText d c ++ b)) = .ok pieced' ∧
      Same pieced' pieced by
    obtain ⟨pieced', read', same⟩ := this
    refine ⟨joinTexts pieced', ofSource_eq_ok_iff.2 ⟨pieced', read', rfl⟩, ?_⟩
    rw [unplaced_joinTexts, unplaced_joinTexts]
    exact same
  cases cut with
  | inLine lexes column escapes keeps =>
    obtain ⟨others, behind, rfl⟩ := lexes.exists_pieces read
    have inLine : 1 < (Position.start.after a).column := by
      have counts := (Position.counts_start.after a).column
      omega
    have unread : Unread d a b (commentText d c ++ b) := .comment escapes
    have lexes' := lexes.replace out (fun _ => unread) fun _ => keeps
    obtain ⟨others', behind', same⟩ := pieces_comment_inLine out inLine free behind
    rw [lexes'.pieces, behind']
    exact ⟨_, rfl, .append rfl same⟩
  | @lineStart before blanks _ taken lexes column all kept =>
    rw [List.append_assoc] at read ⊢
    obtain ⟨others, behind, rfl⟩ := lexes.exists_pieces read
    have lexes' := lexes.replace_of_endsLine out (endsLine_of_lineStart column)
      (blanks ++ (commentText d c ++ b))
    obtain ⟨others', behind', same⟩ := pieces_comment_lineStart out column all kept free behind
    rw [lexes'.pieces, behind']
    exact ⟨_, rfl, .append rfl same⟩

/-- A comment between two blanks at the start of a line, in front of a marker that leaves the blanks
as they are. -/
theorem comment_between_blanks_leaves_tokens :
    let a := "x\n ".toList
    let b := " $if(a)$y".toList
    let tokens : List Token :=
      [.text ['x'], .newline ['\n'], .text [' ', ' '], .ifMark ['a'] 3 ⟨2, 4⟩, .text ['y']]
    ofSource .dollar (a ++ b) = .ok tokens ∧ Cut .dollar a b ∧
      ∃ tokens', ofSource .dollar (a ++ (commentText .dollar " c ".toList ++ b)) = .ok tokens' ∧
        tokens'.map unplaced = tokens.map unplaced := by
  intro a b tokens
  have split : ofSource .dollar (a ++ b) = .ok tokens := by decide +kernel
  have text : step .dollar .start 'x' ("\n ".toList ++ b) =
      .ok ⟨[.text ['x']], ⟨1, 2⟩, "\n ".toList ++ b⟩ := by decide +kernel
  have newline : step .dollar ⟨1, 2⟩ '\n' ([' '] ++ b) =
      .ok ⟨[.newline ['\n']], ⟨2, 1⟩, [' '] ++ b⟩ := by decide +kernel
  have second : Lexes .dollar ⟨1, 2⟩ (['\n'] ++ []) ([' '] ++ b) _ := .step newline (.here ⟨2, 1⟩ _)
  have lexes : Lexes .dollar .start (['x'] ++ ['\n']) ([' '] ++ b) _ := .step text second
  have kept : takesLine .dollar ([' '] ++ b) = false := by decide +kernel
  have cut : Cut .dollar ((['x'] ++ ['\n']) ++ [' ']) b := .lineStart lexes rfl rfl kept
  have out : Delimiters.dollar.StandOut := Delimiters.IsBuiltIn.standOut (.inl rfl)
  exact ⟨split, cut, comments_leave_tokens out split cut (by decide +kernel)⟩

/-- Elsewhere a comment comes between characters that are read together: a backslash and what
follows it, the start of a line and an indented expression or a marker, a marker and the end of its
line or of the source. And the mark that opens a comment closes it, too, if the comment begins with
the stop delimiter. -/
theorem comments_come_between :
    let split (source : String) := (ofSource .dollar source.toList).map (List.map unplaced)
    split "\\$! c !$n" ≠ split "\\n" ∧
      split "$! c !$  $x$" ≠ split "  $x$" ∧
      split "$! c !$$else$\n" ≠ split "$else$\n" ∧
      split "$else$$! c !$\n" ≠ split "$else$\n" ∧
      split "  $endif$$! c !$" ≠ split "  $endif$" ∧
      split "$!$ c!$" ≠ split "" := by
  decide +kernel

end Token
end Stencil
