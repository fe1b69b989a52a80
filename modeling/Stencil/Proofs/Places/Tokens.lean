import Stencil.Proofs.Places.Errors
import Stencil.Proofs.Scanning.Written
/-!
# Positions in a source

Every token comes of a step that is taken at its true position. So an expression knows where the
first character behind its start delimiter stands, its lexemes stand at the places of their
characters in the source, and what is reported of them is found there.
-/
namespace Stencil

open Text (Position)

namespace Token

variable {d : Delimiters} {pos place : Position} {c : Char} {s text source : List Char}
  {indent? : Option (List Char)} {token : Token} {before after tokens : List Token} {r : Step}

/-! ## Steps -/

/-- Every token comes of a step, and what is behind it is read on from there. -/
theorem exists_step_of_pieces (read : pieces d pos s = .ok (before ++ token :: after)) :
    ∃ taken c rest r earlier later others, s = taken ++ c :: rest ∧
      step d (pos.after taken) c rest = .ok r ∧ r.tokens = earlier ++ token :: later ∧
      pieces d r.pos r.rest = .ok others ∧ after = later ++ others := by
  generalize all : before ++ token :: after = tokens at read
  induction pieced_of_pieces read generalizing before with
  | nil => simp at all
  | @cons pos c s r rest stepped others _ ih =>
    have parts : (∃ later, r.tokens = before ++ token :: later ∧ after = later ++ rest) ∨
        ∃ before', before' ++ token :: after = rest := by
      rcases List.append_eq_append_iff.1 all with
        ⟨_ | ⟨first, gap⟩, whole, others'⟩ | ⟨gap, rfl, others'⟩
      · exact .inr ⟨[], others'⟩
      · obtain ⟨rfl, rfl⟩ := List.cons.inj others'
        exact .inl ⟨gap, whole, rfl⟩
      · exact .inr ⟨gap, others'.symm⟩
    rcases parts with ⟨later, here, behind⟩ | ⟨before', inside⟩
    · exact ⟨[], c, s, r, before, later, rest, rfl, stepped, here, others, behind⟩
    · obtain ⟨piece, whole, place⟩ := step_takes stepped
      obtain ⟨taken, c', s', r', earlier, later, more, whole', stepped', split⟩ := ih inside others
      refine ⟨piece ++ taken, c', s', r', earlier, later, more, ?_, ?_, split⟩
      · rw [whole, whole', List.append_assoc]
      · rwa [Position.after_append, ← place]

theorem expression_of_chunk {opening : Position} {indent?' : Option (List Char)} {body : List Char}
    (read : chunk d opening indent?' body = .ok r) (member : .expr text indent? place ∈ r.tokens) :
    r.tokens = [.expr text indent? place] ∧ indent?' = indent? ∧ place = opening.step d.start ∧
      body = text ++ d.stop :: r.rest ∧ r.pos = place.after (text ++ [d.stop]) := by
  have noMarker {marker : Token} {source : List Char} {pos : Position}
      (found : marker? source pos = some marker) : .expr text indent? place ≠ marker := by
    rintro rfl
    cases isMarker_of_marker? found
  have behind {last : Token} (member : .expr text indent? place ∈ indentText indent?' ++ [last]) :
      .expr text indent? place = last := by
    cases indent?' <;> simpa [indentText] using member
  cases chunk_ok_iff.1 read with
  | line _ found => exact absurd (List.mem_singleton.1 member) (noMarker found)
  | last _ found => exact absurd (List.mem_singleton.1 member) (noMarker found)
  | marker _ found => exact absurd (behind member) (noMarker found)
  | escape => cases behind member
  | expression split =>
    cases List.mem_singleton.1 member
    exact ⟨rfl, rfl, rfl, eq_of_payload split, rfl⟩

/-- An expression comes alone from its step, which takes its chunk and the indentation before it. -/
theorem expression_of_step (stepped : step d pos c s = .ok r)
    (member : .expr text indent? place ∈ r.tokens) :
    r.tokens = [.expr text indent? place] ∧ place = pos.after (indent?.getD [] ++ [d.start]) ∧
      c :: s = indent?.getD [] ++ d.start :: (text ++ d.stop :: r.rest) ∧
      r.pos = place.after (text ++ [d.stop]) := by
  cases step_ok_iff.1 stepped with
  | newline => cases List.mem_singleton.1 member
  | indented _ _ found _ read =>
    obtain ⟨alone, rfl, rfl, rfl, behind⟩ := expression_of_chunk read member
    refine ⟨alone, ?_, eq_of_indentation? found, behind⟩
    rw [Position.after_append]
    rfl
  | escape => cases List.mem_singleton.1 member
  | text => cases List.mem_singleton.1 member
  | comment => cases member
  | chunk _ _ starts _ read =>
    obtain ⟨alone, rfl, rfl, rfl, behind⟩ := expression_of_chunk read member
    exact ⟨alone, rfl, by rw [starts]; rfl, behind⟩

/-! ## Joined texts -/

theorem exists_of_consText (notText : token.NotText)
    (split : consText s tokens = before ++ token :: after) :
    ∃ before', tokens = before' ++ token :: after := by
  unfold consText at split
  split at split
  · rename_i t rest
    rcases before with _ | ⟨first, before⟩
    · cases split
      exact absurd rfl (notText _)
    · obtain ⟨-, rfl⟩ := List.cons.inj split
      exact ⟨.text t :: before, rfl⟩
  · split at split
    · exact ⟨before, split⟩
    · rcases before with _ | ⟨first, before⟩
      · cases split
        exact absurd rfl (notText _)
      · exact ⟨before, (List.cons.inj split).2⟩

/-- A token that is no text stands among the joined tokens as it does among the pieces. -/
theorem exists_of_joinTexts (notText : token.NotText)
    (split : joinTexts tokens = before ++ token :: after) :
    ∃ before' after', tokens = before' ++ token :: after' ∧ joinTexts after' = after := by
  fun_induction joinTexts tokens generalizing before with
  | case1 => simp at split
  | case2 s rest ih =>
    obtain ⟨before', split'⟩ := exists_of_consText notText split
    obtain ⟨before'', after', rfl, joined⟩ := ih split'
    exact ⟨.text s :: before'', after', rfl, joined⟩
  | case3 first rest other ih =>
    rcases before with _ | ⟨first', before⟩
    · obtain ⟨rfl, joined⟩ := List.cons.inj split
      exact ⟨[], rest, rfl, joined⟩
    · obtain ⟨rfl, split'⟩ := List.cons.inj split
      obtain ⟨before', after', rfl, joined⟩ := ih split'
      exact ⟨first :: before', after', rfl, joined⟩

/-- An expression of a source knows the place behind its start delimiter, and what is behind its
stop delimiter is read on from there. -/
theorem exists_of_expression
    (read : ofSource d source = .ok (before ++ .expr text indent? pos :: after)) :
    ∃ front rest behind, source = front ++ d.start :: (text ++ d.stop :: rest) ∧
      indent?.getD [] <:+ front ∧ pos = .after .start (front ++ [d.start]) ∧
      pieces d (.after .start (front ++ d.start :: (text ++ [d.stop]))) rest = .ok behind ∧
      joinTexts behind = after := by
  obtain ⟨tokens, raw, joined⟩ := ofSource_eq_ok_iff.1 read
  have notText : (expr text indent? pos).NotText := fun _ => nofun
  obtain ⟨before', after', rfl, joined'⟩ := exists_of_joinTexts notText joined
  obtain ⟨taken, c, rest, r, earlier, later, others, rfl, stepped, yields, onward, rfl⟩ :=
    exists_step_of_pieces raw
  have member : .expr text indent? pos ∈ r.tokens :=
    yields ▸ List.mem_append_right _ List.mem_cons_self
  obtain ⟨alone, rfl, whole, behind⟩ := expression_of_step stepped member
  have nothing : later = [] := by
    have count := congrArg List.length (yields.symm.trans alone)
    simp only [List.length_append, List.length_cons, List.length_nil] at count
    exact List.eq_nil_of_length_eq_zero (by omega)
  subst nothing
  refine ⟨taken ++ indent?.getD [], r.rest, others, ?_, List.suffix_append _ _, ?_, ?_, joined'⟩
  · rw [whole, List.append_assoc]
  · rw [List.append_assoc, Position.after_append Position.start]
  · rw [behind, ← Position.after_append, ← Position.after_append] at onward
    simpa only [List.append_assoc, List.nil_append, List.cons_append] using onward

/-- Positions in expressions are true. The position of an expression is that of the first character
behind its start delimiter, its lexemes carry the positions of their first characters, the end that
of the stop delimiter, and every error is at one of them or at the character that no lexeme begins
with, unless it is handed on from the body of an inline template. Lines count line feeds and columns
count characters. -/
theorem expressions_placed (read : ofSource d source = .ok tokens)
    (split : tokens = before ++ .expr text indent? pos :: after) :
    (∃ front rest behind, source = front ++ d.start :: (text ++ d.stop :: rest) ∧
      pos = .after .start (front ++ [d.start]) ∧
      pieces d (.after .start (front ++ d.start :: (text ++ [d.stop]))) rest = .ok behind ∧
      joinTexts behind = after ∧
      (∀ lexemes, Lexeme.scan pos text = .ok lexemes →
        Lexeme.Placed (front ++ [d.start]) text lexemes.items ∧
          lexemes.stop = .after .start (front ++ d.start :: text) ∧
          ∀ ctx, ∀ e ∈ (Grammar.parseAction ctx pos text).2, lexemes.Reported ctx e) ∧
      ∀ e, Lexeme.scan pos text = .error e →
        (∃ skipped c more problem, text = skipped ++ c :: more ∧ Text.isBlank c = false ∧
          Lexeme.read c more = .error problem ∧
          e = .malformed (.after .start (front ++ d.start :: skipped)) problem) ∧
        ∀ ctx, (Grammar.parseAction ctx pos text).2 = [e]) ∧
    ∀ s, Position.start.after s =
      ⟨1 + s.count '\n', 1 + (s.reverse.takeWhile (· ≠ '\n')).length⟩ := by
  subst split
  obtain ⟨front, rest, behind, whole, -, rfl, onward, joined⟩ := exists_of_expression read
  have line (inside : List Char) : front ++ [d.start] ++ inside = front ++ d.start :: inside :=
    List.append_assoc front [d.start] inside
  refine ⟨⟨front, rest, behind, whole, rfl, onward, joined, fun lexemes scanned => ?_,
    fun e failed => ?_⟩, Position.start_after⟩
  · obtain ⟨placed, stop⟩ := Lexeme.placed_of_scan scanned
    refine ⟨placed, ?_, fun ctx => ?_⟩
    · rw [stop, line]
    · exact Grammar.reported_of_parseAll Grammar.matchesAlong_action scanned
  · obtain ⟨skipped, c, more, problem, rfl, visible, unread, rfl⟩ :=
      Lexeme.exists_of_scan_error failed
    refine ⟨⟨skipped, c, more, problem, rfl, visible, unread, ?_⟩, fun ctx => ?_⟩
    · rw [line]
    · rw [Grammar.parseAction, Grammar.parseAll, failed]

/-- An indented expression on the second line that goes on on the third one, where the bracket that
is reported stands behind two spaces. -/
theorem bracket_on_third_line_placed :
    let text := "x.\n  [".toList
    let source := "é\r\n\t".toList ++ '$' :: (text ++ ['$'])
    ofSource .dollar source =
        .ok [.text ['é'], .newline ['\r', '\n'], .expr text (some ['\t']) ⟨2, 3⟩] ∧
      (Grammar.parseAction ⟨"page", compileChunks .dollar⟩ ⟨2, 3⟩ text).2 =
        [.malformed ⟨3, 3⟩ (.expectedProperty (some (.mark .leftBracket)))] ∧
      ∃ front rest lexemes, source = front ++ '$' :: (text ++ '$' :: rest) ∧
        Lexeme.scan ⟨2, 3⟩ text = .ok lexemes ∧
        Lexeme.Placed (front ++ ['$']) text lexemes.items ∧
        lexemes.stop = .after .start (front ++ '$' :: text) ∧
        lexemes.Reported ⟨"page", compileChunks .dollar⟩
          (.malformed ⟨3, 3⟩ (.expectedProperty (some (.mark .leftBracket)))) := by
  intro text source
  have read : ofSource .dollar source =
      .ok [.text ['é'], .newline ['\r', '\n'], .expr text (some ['\t']) ⟨2, 3⟩] := by
    decide +kernel
  have scanned : Lexeme.scan ⟨2, 3⟩ text = .ok ⟨[⟨.name "x", ⟨2, 3⟩⟩, ⟨.mark .dot, ⟨2, 4⟩⟩,
      ⟨.mark .leftBracket, ⟨3, 3⟩⟩], ⟨3, 4⟩⟩ := by
    decide +kernel
  have reported : (Grammar.parseAction ⟨"page", compileChunks .dollar⟩ ⟨2, 3⟩ text).2 =
      [.malformed ⟨3, 3⟩ (.expectedProperty (some (.mark .leftBracket)))] := by
    rw [Grammar.parseAction, Grammar.parseAll, scanned]
    rfl
  obtain ⟨⟨front, rest, -, whole, -, -, -, placed, -⟩, -⟩ :=
    expressions_placed read (show _ = [_, _] ++ _ :: [] from rfl)
  obtain ⟨each, stop, errors⟩ := placed _ scanned
  refine ⟨read, reported, front, rest, _, whole, scanned, each, stop, errors _ _ ?_⟩
  rw [reported]
  exact List.mem_singleton_self _

end Token
end Stencil
