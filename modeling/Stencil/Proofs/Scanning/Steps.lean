import Stencil.Template.Token
/-!
# What a lexical step does

All the ways that a step and a chunk can be read, with what has been found to come to each of them.
-/
namespace Stencil

open Text (Position)

theorem Text.trimStart_append (s : List Char) : s.takeWhile isBlank ++ trimStart s = s :=
  List.takeWhile_append_dropWhile

namespace Token

/-- A condition stands before the last parenthesis, behind as many characters as its place says. -/
theorem exists_of_conditionOf? {word content condition : List Char} {offset : Nat}
    (found : conditionOf? word content = some (condition, offset)) :
    ∃ lead, content = lead ++ condition ++ [')'] ∧ offset = lead.length := by
  simp only [conditionOf?, Option.bind_eq_bind, Option.bind_eq_some_iff, Option.some.injEq,
    Prod.mk.injEq] at found
  obtain ⟨behind, dropped, opened, bracket, last, closed, rfl, rfl⟩ := found
  have opens := Text.dropWord?_eq_some_iff.1 bracket
  have closes := Text.dropLastWord?_eq_some_iff.1 closed
  have whole : content = (word ++ behind.takeWhile Text.isBlank ++ ['(']) ++ opened := by
    rw [Text.dropWord?_eq_some_iff.1 dropped, List.append_assoc, List.append_assoc, ← opens,
      Text.trimStart_append]
  refine ⟨word ++ behind.takeWhile Text.isBlank ++ ['('], ?_, ?_⟩
  · rw [whole, closes]
    simp only [List.append_assoc]
  · rw [whole, List.length_append, Nat.add_sub_cancel]

variable {d : Delimiters} {pos : Position} {c : Char} {s body : List Char}
  {indent? : Option (List Char)} {r : Step}

/-- Blanks are an indentation where a chunk follows, and no comment that is told from one. -/
theorem indentation?_eq_some_iff {indent : List Char} :
    indentation? d s = some (indent, body) ↔
      s = indent ++ d.start :: body ∧ indent ≠ [] ∧ indent.all isIndent = true ∧
        isIndent d.start = false ∧ (d.start.utf8Size = 1 → body.head? ≠ some '!') := by
  constructor
  · intro found
    refine ⟨eq_of_indentation? found, ?_⟩
    unfold indentation? at found
    dsimp only at found
    split at found
    · rename_i c behind split
      split at found
      · rename_i holds
        obtain ⟨nonempty, rfl, noComment⟩ := holds
        cases found
        have visible := List.head?_dropWhile_not isIndent s
        rw [split] at visible
        exact ⟨nonempty, List.all_takeWhile, by simpa using visible, noComment⟩
      · cases found
    · cases found
  · rintro ⟨rfl, nonempty, blanks, start, noComment⟩
    have all := List.all_eq_true.1 blanks
    rw [indentation?, List.takeWhile_append_of_pos all, List.dropWhile_append_of_pos all,
      List.takeWhile_cons_of_neg (by simp [start]), List.dropWhile_cons_of_neg (by simp [start])]
    rw [List.append_nil]
    exact if_pos ⟨nonempty, rfl, noComment⟩

/-- A line ends with a line feed, or with a carriage return in front of it. -/
theorem newline?_eq_some_iff {nl rest : List Char} :
    newline? s = some (nl, rest) ↔ s = nl ++ rest ∧ (nl = ['\n'] ∨ nl = ['\r', '\n']) := by
  constructor
  · intro found
    unfold newline? at found
    split at found
    · cases found
      exact ⟨rfl, .inr rfl⟩
    · cases found
      exact ⟨rfl, .inl rfl⟩
    · cases found
  · rintro ⟨rfl, rfl | rfl⟩ <;> rfl

theorem eq_of_escape? {e : Char} (found : escape? d s = some (e, rest)) :
    s = '\\' :: e :: rest ∧ (e = '\\' ∨ e = d.start ∨ e = d.stop) := by
  unfold escape? at found
  split at found
  · split at found
    · cases found
      exact ⟨rfl, .inl rfl⟩
    · cases found
  · split at found
    · rename_i delimiter
      cases found
      exact ⟨rfl, .inr delimiter⟩
    · cases found
  · cases found

/-- The ways to spell out a marker, the blanks around it apart. -/
inductive Marked (source : List Char) (pos : Position) : Token → Prop
  | elseMark : Text.trim source = "else".toList → Marked source pos (.elseMark pos)
  | endifMark : Text.trim source = "endif".toList → Marked source pos (.endifMark pos)
  | elseifMark {condition : List Char} {offset : Nat} :
    conditionOf? "elseif".toList (Text.trim source) = some (condition, offset) →
    Marked source pos
      (.elseifMark condition (source.length - (Text.trimStart source).length + offset) pos)
  | ifMark {condition : List Char} {offset : Nat} :
    conditionOf? "if".toList (Text.trim source) = some (condition, offset) →
    Marked source pos
      (.ifMark condition (source.length - (Text.trimStart source).length + offset) pos)

theorem marked_of_marker? {source : List Char} {marker : Token}
    (found : marker? source pos = some marker) : Marked source pos marker := by
  unfold marker? at found
  dsimp only at found
  split at found
  · cases found
    exact .elseMark ‹_›
  · split at found
    · cases found
      exact .endifMark ‹_›
    · split at found
      · cases found
        exact .elseifMark ‹_›
      · obtain ⟨⟨condition, offset⟩, read, rfl⟩ := Option.map_eq_some_iff.1 found
        exact .ifMark read

/-- The ways to read a chunk behind its start delimiter. -/
inductive Chunked (d : Delimiters) (opening : Position) (indent? : Option (List Char))
    (body : List Char) : Step → Prop
  /-- A marker that is alone on its line -/
  | line {source rest nl more : List Char} {marker : Token} :
    payload d.stop (.code 0) body = .ok (source, rest) →
    marker? source (opening.step d.start) = some marker →
    opening.column = 1 ∨ indent?.isSome → newline? rest = some (nl, more) →
    Chunked d opening indent? body
      ⟨[marker], ((opening.step d.start).after (source ++ [d.stop])).after nl, more⟩
  /-- A marker that is alone on the last line -/
  | last {source : List Char} {marker : Token} :
    payload d.stop (.code 0) body = .ok (source, []) →
    marker? source (opening.step d.start) = some marker →
    opening.column = 1 ∨ indent?.isSome →
    Chunked d opening indent? body
      ⟨[marker], (opening.step d.start).after (source ++ [d.stop]), []⟩
  /-- A marker with something else on its line -/
  | marker {source rest : List Char} {marker : Token} :
    payload d.stop (.code 0) body = .ok (source, rest) →
    marker? source (opening.step d.start) = some marker →
    (opening.column = 1 ∨ indent?.isSome → newline? rest = none ∧ rest ≠ []) →
    Chunked d opening indent? body
      ⟨indentText indent? ++ [marker], (opening.step d.start).after (source ++ [d.stop]), rest⟩
  | escape {source rest escaped : List Char} :
    payload d.stop (.code 0) body = .ok (source, rest) →
    marker? source (opening.step d.start) = none → escapeChunk? source = some escaped →
    Chunked d opening indent? body
      ⟨indentText indent? ++ [.text escaped], (opening.step d.start).after (source ++ [d.stop]), rest⟩
  | expression {source rest : List Char} :
    payload d.stop (.code 0) body = .ok (source, rest) →
    marker? source (opening.step d.start) = none → escapeChunk? source = none →
    Chunked d opening indent? body
      ⟨[.expr source indent? (opening.step d.start)],
        (opening.step d.start).after (source ++ [d.stop]), rest⟩

theorem chunk_ok_iff : chunk d pos indent? body = .ok r ↔ Chunked d pos indent? body r := by
  constructor
  · intro read
    unfold chunk at read
    dsimp only at read
    split at read
    · cases read
    · rename_i source rest split
      split at read
      · rename_i marker found
        split at read
        · rename_i alone
          split at read
          · rename_i nl more ended
            cases read
            exact .line split found alone ended
          · cases read
            exact .last split found alone
          · rename_i nonempty ended
            cases read
            exact .marker split found fun _ => ⟨ended, nonempty⟩
        · rename_i inside
          cases read
          exact .marker split found fun alone => absurd alone inside
      · split at read
        · cases read
          exact .escape split ‹_› ‹_›
        · cases read
          exact .expression split ‹_› ‹_›
  · rintro (⟨split, found, alone, ended⟩ | ⟨split, found, alone⟩ | ⟨split, found, others⟩ |
      ⟨split, noMarker, escaped⟩ | ⟨split, noMarker, noEscape⟩)
    · simp only [chunk, split, found, if_pos alone, ended]
    · simp only [chunk, split, found, if_pos alone, newline?]
    · by_cases alone : pos.column = 1 ∨ indent?.isSome
      · obtain ⟨ended, nonempty⟩ := others alone
        obtain ⟨e, rest, rfl⟩ := List.exists_cons_of_ne_nil nonempty
        simp only [chunk, split, found, if_pos alone, ended]
      · simp only [chunk, split, found, if_neg alone]
    · simp only [chunk, split, noMarker, escaped]
    · simp only [chunk, split, noMarker, noEscape]

/-- Neither a line end nor an indentation begins here. -/
structure Midline (d : Delimiters) (pos : Position) (s : List Char) : Prop where
  noNewline : newline? s = none
  noIndent : pos.column = 1 → indentation? d s = none

/-- The ways to take a step. -/
inductive Stepped (d : Delimiters) (pos : Position) (c : Char) (s : List Char) : Step → Prop
  | newline {nl rest : List Char} :
    newline? (c :: s) = some (nl, rest) → Stepped d pos c s ⟨[.newline nl], pos.after nl, rest⟩
  | indented {indent body : List Char} {r : Step} :
    newline? (c :: s) = none → pos.column = 1 → indentation? d (c :: s) = some (indent, body) →
    d.start.utf8Size = 1 →
    chunk d (pos.after indent) (some indent) body = .ok r → Stepped d pos c s r
  | escape {e : Char} {rest : List Char} :
    Midline d pos (c :: s) → escape? d (c :: s) = some (e, rest) →
    Stepped d pos c s ⟨[.text [e]], (pos.step c).step e, rest⟩
  | text :
    Midline d pos (c :: s) → escape? d (c :: s) = none → c ≠ d.start →
    Stepped d pos c s ⟨[.text [c]], pos.step c, s⟩
  | comment {inner rest : List Char} :
    Midline d pos (c :: s) → escape? d (c :: s) = none → c = d.start → s.head? = some '!' →
    Text.splitAtWord? ['!', d.stop] s = some (inner, rest) →
    Stepped d pos c s ⟨[], (pos.step d.start).after (inner ++ ['!', d.stop]), rest⟩
  | chunk {r : Step} :
    Midline d pos (c :: s) → escape? d (c :: s) = none → c = d.start → s.head? ≠ some '!' →
    chunk d pos none s = .ok r → Stepped d pos c s r

theorem step_ok_iff : step d pos c s = .ok r ↔ Stepped d pos c s r := by
  constructor
  · intro read
    unfold step at read
    split at read
    · rename_i nl rest found
      cases read
      exact .newline found
    · rename_i noNewline
      split at read
      · rename_i indent body found
        split at found
        · rename_i lineStart
          obtain ⟨single, read⟩ := indentedChunk_eq_ok_iff.1 read
          exact .indented noNewline lineStart found single read
        · cases found
      · rename_i noIndent
        have midline : Midline d pos (c :: s) :=
          ⟨noNewline, fun lineStart => by rwa [if_pos lineStart] at noIndent⟩
        split at read
        · cases read
          exact .escape midline ‹_›
        · rename_i noEscape
          split at read
          · cases read
            exact .text midline noEscape ‹_›
          · rename_i starts
            have starts := Decidable.of_not_not starts
            split at read
            · rename_i mark
              unfold comment at read
              split at read
              · cases read
                exact .comment midline noEscape starts mark ‹_›
              · cases read
            · exact .chunk midline noEscape starts ‹_› read
  · have noIndent (midline : Midline d pos (c :: s)) :
        (if pos.column = 1 then indentation? d (c :: s) else none) = none := by
      split
      · exact midline.noIndent ‹_›
      · rfl
    rintro (found | ⟨noNewline, lineStart, found, single, read⟩ | ⟨midline, found⟩ |
      ⟨midline, noEscape, other⟩ | ⟨midline, noEscape, starts, mark, found⟩ |
      ⟨midline, noEscape, starts, noMark, read⟩)
    · simp only [step, found]
    · simp only [step, noNewline, if_pos lineStart, found]
      exact indentedChunk_eq_ok_iff.2 ⟨single, read⟩
    · simp only [step, midline.noNewline, noIndent midline, found]
    · simp only [step, midline.noNewline, noIndent midline, noEscape, if_pos other]
    · simp only [step, midline.noNewline, noIndent midline, noEscape, if_neg (not_not_intro starts),
        if_pos mark, comment, found]
    · simp only [step, midline.noNewline, noIndent midline, noEscape, if_neg (not_not_intro starts),
        if_neg noMark, read]

/-- The step has taken a piece off the front, which its position follows. -/
def Step.Takes (r : Step) (pos : Position) (s : List Char) : Prop :=
  ∃ taken, s = taken ++ r.rest ∧ r.pos = pos.after taken

theorem chunk_takes {indent? : Option (List Char)} (read : chunk d pos indent? body = .ok r) :
    r.Takes pos (d.start :: body) := by
  have behind {source rest : List Char}
      (split : payload d.stop (.code 0) body = .ok (source, rest)) :
      d.start :: body = (d.start :: source ++ [d.stop]) ++ rest ∧
        (pos.step d.start).after (source ++ [d.stop]) =
          pos.after (d.start :: source ++ [d.stop]) := by
    rw [eq_of_payload split]
    simp [Position.after_append]
  cases chunk_ok_iff.1 read with
  | line split found alone ended =>
    obtain ⟨whole, place⟩ := behind split
    obtain ⟨rfl, -⟩ := eq_of_newline? ended
    exact ⟨_, whole.trans (List.append_assoc _ _ _).symm,
      (congrArg (Position.after · _) place).trans (Position.after_append _ _ _).symm⟩
  | last split => exact ⟨_, behind split⟩
  | marker split => exact ⟨_, behind split⟩
  | escape split => exact ⟨_, behind split⟩
  | expression split => exact ⟨_, behind split⟩

theorem step_takes (read : step d pos c s = .ok r) : r.Takes pos (c :: s) := by
  cases step_ok_iff.1 read with
  | newline found => exact ⟨_, (eq_of_newline? found).1, rfl⟩
  | indented noNewline lineStart found single chunked =>
    obtain ⟨taken, whole, place⟩ := chunk_takes chunked
    refine ⟨_ ++ taken, ?_, place.trans (Position.after_append _ _ _).symm⟩
    rw [eq_of_indentation? found, whole, List.append_assoc]
  | escape midline found =>
    obtain ⟨whole, -⟩ := eq_of_escape? found
    obtain ⟨rfl, rfl⟩ := List.cons.inj whole
    exact ⟨['\\', _], rfl, rfl⟩
  | text => exact ⟨[c], rfl, rfl⟩
  | comment midline noEscape starts mark split =>
    subst starts
    refine ⟨d.start :: (_ ++ ['!', d.stop]), ?_, rfl⟩
    rw [Text.eq_of_splitAtWord? split]
    simp
  | chunk midline noEscape starts noMark chunked =>
    subst starts
    exact chunk_takes chunked

/-- The tokens that steps one after another yield, up to the end of the source. -/
inductive Pieced (d : Delimiters) : Position → List Char → List Token → Prop
  | nil (pos : Position) : Pieced d pos [] []
  | cons {pos : Position} {c : Char} {s : List Char} {r : Step} {rest : List Token} :
    step d pos c s = .ok r → pieces d r.pos r.rest = .ok rest → Pieced d r.pos r.rest rest →
    Pieced d pos (c :: s) (r.tokens ++ rest)

theorem pieced_of_pieces {tokens : List Token} (read : pieces d pos s = .ok tokens) :
    Pieced d pos s tokens := by
  fun_induction pieces d pos s generalizing tokens with
  | case1 pos =>
    cases read
    exact .nil pos
  | case2 => cases read
  | case3 pos c s r taken shorter ih =>
    rcases others : pieces d r.pos r.rest with e | rest
    · rw [others] at read
      cases read
    · rw [others] at read
      cases read
      exact .cons taken others (ih others)

theorem ofSource_eq_ok_iff {source : List Char} {tokens : List Token} :
    ofSource d source = .ok tokens ↔
      ∃ pieced, pieces d .start source = .ok pieced ∧ joinTexts pieced = tokens := by
  rw [ofSource]
  cases pieces d .start source <;> simp [Except.map]

end Token
end Stencil
