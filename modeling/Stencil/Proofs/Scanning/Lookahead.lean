import Mathlib.Data.List.TakeWhile
import Stencil.Proofs.Parallel.Assembly
import Stencil.Proofs.Scanning.Payload
import Stencil.Proofs.Scanning.Steps
import Stencil.Proofs.Searching
/-!
# What steps do not read

A step reads what it takes, and hardly anything behind it: the character behind a backslash, the one
behind a carriage return, the line end behind a marker, and behind blanks whether a chunk follows.
So the lexer takes a text as it does when something else follows, if the text ends with a line or a
comment follows, apart from a backslash and an indented marker at the end.
-/
namespace Stencil

open Text (Position)

/-- In front of a chunk and behind it, the lexer does not take the delimiters for anything else, and
it can cut the start delimiter off as one byte. -/
structure Delimiters.StandOut (d : Delimiters) : Prop where
  single : d.start.utf8Size = 1
  lineFeed : d.start ≠ '\n'
  carriage : d.start ≠ '\r'
  backslash : d.start ≠ '\\'
  blank : Token.isIndent d.start = false
  stop : d.stop ≠ '\n'

theorem Delimiters.IsBuiltIn.standOut {d : Delimiters} (builtIn : d.IsBuiltIn) : d.StandOut := by
  rcases builtIn with rfl | rfl <;> constructor <;> decide

namespace Token

variable {d : Delimiters} {pos pos' : Position} {c : Char}
  {s t text source rest rest' body behind indent : List Char} {indent? : Option (List Char)}
  {tokens tokens' : List Token}

/-- What follows the stop character of a payload is not read. -/
theorem payload_rest {stop : Char} {nesting : Nesting}
    (read : payload stop nesting s = .ok (source, rest)) (rest' : List Char) :
    payload stop nesting (source ++ stop :: rest') = .ok (source, rest') := by
  fun_induction payload stop nesting s generalizing source with
  | case1 => cases read
  | case2 => cases read
  | case3 e s ih =>
    obtain ⟨inner, behind, rfl⟩ := prepend_eq_ok read
    simp only [List.cons_append, List.nil_append, payload, ih behind]
    rfl
  | case4 s ih =>
    obtain ⟨inner, behind, rfl⟩ := prepend_eq_ok read
    simp only [List.cons_append, List.nil_append, payload, ih behind]
    rfl
  | case5 c s ends escapes mark ih =>
    obtain ⟨inner, behind, rfl⟩ := prepend_eq_ok read
    have other := ne_of_unescaped ends escapes
    rw [List.cons_append, List.cons_append, payload_quoted_other other mark, List.nil_append,
      ih behind]
    rfl
  | case6 s ih =>
    obtain ⟨inner, behind, rfl⟩ := prepend_eq_ok read
    simp only [List.cons_append, List.nil_append, payload, if_true, ih behind]
    rfl
  | case7 s quote ih =>
    obtain ⟨inner, behind, rfl⟩ := prepend_eq_ok read
    rw [List.cons_append, List.cons_append, payload, if_neg quote, if_pos rfl, List.nil_append,
      ih behind]
    rfl
  | case8 s quote brace =>
    cases read
    rw [List.nil_append, payload, if_neg quote, if_neg brace, if_pos rfl]
  | case9 c s quote brace other ih =>
    obtain ⟨inner, behind, rfl⟩ := prepend_eq_ok read
    rw [List.cons_append, List.cons_append, payload, if_neg quote, if_neg brace, if_neg other,
      List.nil_append, ih behind]
    rfl
  | case10 => cases read
  | case11 depth e s ih =>
    obtain ⟨inner, behind, rfl⟩ := prepend_eq_ok read
    simp only [List.cons_append, List.nil_append, payload, ih behind]
    rfl
  | case12 depth c s ends escapes ih =>
    obtain ⟨inner, behind, rfl⟩ := prepend_eq_ok read
    rw [List.cons_append, List.cons_append, payload_code_other (ne_of_unescaped ends escapes),
      List.nil_append, ih behind]
    rfl

/-- Behind the text may stand `rest'` for `rest`: the text ends with a line, or it is followed by a
comment and does not end with a backslash that `rest` leaves as it stands. -/
inductive Unread (d : Delimiters) (text rest : List Char) : List Char → Prop
  | line {rest' : List Char} : text.getLast? = some '\n' → Unread d text rest rest'
  | comment {behind : List Char} :
    (text.getLast? = some '\\' → rest.head? = some d.start) →
    Unread d text rest (d.start :: '!' :: behind)

namespace Unread

theorem of_append (unread : Unread d (s ++ t) rest rest') (nonempty : t ≠ []) :
    Unread d t rest rest' := by
  have last : (s ++ t).getLast? = t.getLast? := by
    rw [List.getLast?_append, Option.or_of_isSome]
    exact List.getLast?_isSome.2 nonempty
  cases unread with
  | line ends => exact .line (last ▸ ends)
  | comment escapes => exact .comment (last ▸ escapes)

/-- Behind a chunk, which does not end with a line, stands the comment. -/
theorem of_stop (out : d.StandOut) (unread : Unread d (s ++ [d.stop]) rest rest') :
    ∃ behind, rest' = d.start :: '!' :: behind := by
  cases unread with
  | line ends =>
    rw [List.getLast?_concat] at ends
    exact absurd (Option.some.inj ends) out.stop
  | comment => exact ⟨_, rfl⟩

theorem newline? (out : d.StandOut) (unread : Unread d text rest rest') (nonempty : text ≠ [])
    (noNewline : newline? (text ++ rest) = none) : newline? (text ++ rest') = none := by
  obtain ⟨c, text, rfl⟩ := List.exists_cons_of_ne_nil nonempty
  have other : c ≠ '\n' := by
    rintro rfl
    cases noNewline
  rcases text with _ | ⟨e, text⟩
  · cases unread with
    | line ends => exact absurd (Option.some.inj ends) other
    | comment => simp [Token.newline?, other, out.lineFeed]
  · by_cases carriage : c = '\r' ∧ e = '\n'
    · obtain ⟨rfl, rfl⟩ := carriage
      cases noNewline
    · unfold Token.newline?
      split
      · rename_i same
        cases same
        exact absurd ⟨rfl, rfl⟩ carriage
      · rename_i same
        exact absurd (List.cons.inj same).1 other
      · rfl

theorem escape? (out : d.StandOut) (unread : Unread d text rest rest') (nonempty : text ≠ [])
    (noEscape : escape? d (text ++ rest) = none) : escape? d (text ++ rest') = none := by
  obtain ⟨c, text, rfl⟩ := List.exists_cons_of_ne_nil nonempty
  by_cases other : c ≠ '\\'
  · exact escape?_of_ne other _
  obtain rfl := Decidable.of_not_not other
  have follows (front : List Char) (same : '\\' :: text = front ++ ['\\']) :
      rest.head? = some d.start := by
    cases unread with
    | line ends =>
      rw [same, List.getLast?_concat] at ends
      cases ends
    | comment escapes => exact escapes (same ▸ List.getLast?_concat)
  rcases text with _ | ⟨e, text⟩
  · obtain ⟨rest, rfl⟩ := List.head?_eq_some_iff.1 (follows [] rfl)
    simp [Token.escape?, out.backslash] at noEscape
  · by_cases second : e = '\\'
    · subst second
      rcases text with _ | ⟨f, text⟩
      · have starts := follows ['\\'] rfl
        simp [Token.escape?, starts] at noEscape
      · simpa [Token.escape?] using noEscape
    · simpa [Token.escape?, second] using noEscape

/-- An escape in front of the text is one whatever follows the text. -/
theorem escaped {e : Char} (unread : Unread d ('\\' :: e :: text) rest rest')
    (found : Token.escape? d ('\\' :: e :: (text ++ rest)) = some (e, text ++ rest)) :
    Token.escape? d ('\\' :: e :: (text ++ rest')) = some (e, text ++ rest') := by
  by_cases second : e = '\\'
  · subst second
    rcases text with _ | ⟨f, text⟩
    · cases unread with
      | line ends => cases ends
      | comment => simp [Token.escape?]
    · simpa [Token.escape?] using found
  · simpa [Token.escape?, second] using found

/-- No indentation is found that the text alone does not begin with. -/
theorem indentation? (out : d.StandOut) (unread : Unread d text rest rest') (nonempty : text ≠ [])
    (opens : ∀ blanks : List Char, blanks.all isIndent = true → text ≠ blanks ++ [d.start])
    (noIndent : indentation? d (text ++ rest) = none) : indentation? d (text ++ rest') = none := by
  refine Option.eq_none_iff_forall_ne_some.2 fun ⟨indent, body⟩ found => ?_
  obtain ⟨whole, given, blanks, start, noComment⟩ := indentation?_eq_some_iff.1 found
  have visible (more : List Char) {front : List Char} (ends : text ++ more = indent)
      (same : rest' = more ++ d.start :: front) (ahead : front.head? ≠ some '!') : False := by
    have all := List.all_eq_true.1 (ends ▸ blanks)
    cases unread with
    | line last =>
      have inside := List.mem_append_left more (List.mem_of_getLast? last)
      exact absurd (all '\n' inside) (by decide)
    | comment =>
      rcases more with _ | ⟨e, more⟩
      · obtain rfl := (List.cons.inj same).2
        exact ahead rfl
      · obtain ⟨rfl, -⟩ := List.cons.inj same
        have inside := List.mem_append_right text (List.mem_cons_self (a := d.start) (l := more))
        exact absurd (all d.start inside) (by simp [start])
  rcases List.append_eq_append_iff.1 whole with ⟨more, ends, same⟩ | ⟨more, rfl, same⟩
  · exact visible more ends.symm same (noComment out.single)
  · rcases more with _ | ⟨e, more⟩
    · exact (visible [] (by simp) same.symm (noComment out.single)).elim
    · obtain ⟨rfl, rfl⟩ := List.cons.inj same
      rcases more with _ | ⟨f, more⟩
      · exact opens indent blanks rfl
      · have found' := indentation?_eq_some_iff.2
          ⟨List.append_assoc indent (d.start :: f :: more) rest, given, blanks, start, noComment⟩
        exact absurd (noIndent.symm.trans found') nofun

end Unread

/-! ## Steps -/

/-- A marker behind blanks, and nothing behind it. -/
def endsIndented (d : Delimiters) (line : List Char) : Bool :=
  match indentation? d line with
  | none => false
  | some (_, body) =>
    match payload d.stop (.code 0) body with
    | .ok (source, []) => (marker? source .start).isSome
    | _ => false

theorem marker?_moved (source : List Char) (pos pos' : Position) :
    (marker? source pos).map unplaced = (marker? source pos').map unplaced := by
  unfold marker?
  dsimp only
  split
  · rfl
  · split
    · rfl
    · split
      · rfl
      · simp only [Option.map_map]
        rfl

theorem exists_marker?_moved {source : List Char} {marker : Token}
    (found : marker? source pos = some marker) (pos' : Position) :
    ∃ marker', marker? source pos' = some marker' ∧ marker'.unplaced = marker.unplaced := by
  have moved := marker?_moved source pos pos'
  rw [found] at moved
  exact Option.map_eq_some_iff.1 moved.symm

theorem marker?_eq_none_moved {source : List Char} (noMarker : marker? source pos = none)
    (pos' : Position) : marker? source pos' = none := by
  have moved := marker?_moved source pos pos'
  rw [noMarker] at moved
  exact Option.map_eq_none_iff.1 moved.symm

theorem isSome_marker? {source : List Char} {marker : Token}
    (found : marker? source pos = some marker) : (marker? source .start).isSome = true := by
  obtain ⟨marker', found', -⟩ := exists_marker?_moved found .start
  exact Option.isSome_of_eq_some found'

theorem endsIndented_of_chunk {source : List Char} {marker : Token}
    (found : indentation? d s = some (indent, body))
    (split : payload d.stop (.code 0) body = .ok (source, []))
    (isMarker : marker? source pos = some marker) : endsIndented d s = true := by
  simp only [endsIndented, found, split]
  exact isSome_marker? isMarker

/-- A chunk in front of the text is read whatever follows the text. -/
theorem chunk_unread (out : d.StandOut) (unread : Unread d (s ++ text) rest rest')
    (keeps : ∀ source marker, payload d.stop (.code 0) s = .ok (source, []) →
      marker? source (pos.step d.start) = some marker → text = [] → rest = [] → indent? = none)
    (read : chunk d pos indent? (s ++ (text ++ rest)) = .ok ⟨tokens, pos', text ++ rest⟩) :
    chunk d pos indent? (s ++ (text ++ rest')) = .ok ⟨tokens, pos', text ++ rest'⟩ := by
  generalize ends : text ++ rest = taken at read
  have behind {source : List Char} (front : List Char)
      (split : payload d.stop (.code 0) (s ++ taken) = .ok (source, front ++ taken)) :
      s = source ++ d.stop :: front ∧ payload d.stop (.code 0) (s ++ (text ++ rest')) =
        .ok (source, front ++ (text ++ rest')) := by
    have whole := eq_of_payload split
    rw [← List.cons_append, ← List.append_assoc] at whole
    obtain rfl := List.append_cancel_right whole
    refine ⟨rfl, ?_⟩
    rw [List.append_assoc, List.cons_append]
    exact payload_rest split _
  cases chunk_ok_iff.1 read with
  | line split found alone ended =>
    obtain ⟨rfl, lineFeed⟩ := newline?_eq_some_iff.1 ended
    obtain ⟨-, split'⟩ := behind _ split
    exact chunk_ok_iff.2 (.line split' found alone (newline?_eq_some_iff.2 ⟨rfl, lineFeed⟩))
  | last split found alone =>
    obtain ⟨rfl, split'⟩ := behind [] split
    obtain ⟨rfl, rfl⟩ := List.append_eq_nil_iff.1 ends
    rw [List.append_nil] at unread split
    obtain ⟨comment, rfl⟩ := unread.of_stop out
    obtain rfl := keeps _ _ split found rfl rfl
    refine chunk_ok_iff.2 (.marker split' found fun _ => ⟨?_, List.cons_ne_nil _ _⟩)
    simp [newline?, out.lineFeed]
  | marker split found others =>
    obtain ⟨rfl, split'⟩ := behind [] split
    refine chunk_ok_iff.2 (.marker split' found fun alone => ?_)
    obtain ⟨noNewline, nonempty⟩ := others alone
    rcases text with _ | ⟨e, text⟩
    · rw [List.append_nil] at unread
      obtain ⟨comment, rfl⟩ := unread.of_stop out
      exact ⟨by simp [newline?, out.lineFeed], List.cons_ne_nil _ _⟩
    · refine ⟨?_, List.cons_ne_nil _ _⟩
      subst ends
      exact (unread.of_append (List.cons_ne_nil e text)).newline? out (List.cons_ne_nil e text)
        noNewline
  | escape split noMarker escaped =>
    obtain ⟨rfl, split'⟩ := behind [] split
    exact chunk_ok_iff.2 (.escape split' noMarker escaped)
  | expression split noMarker noEscape =>
    obtain ⟨rfl, split'⟩ := behind [] split
    exact chunk_ok_iff.2 (.expression split' noMarker noEscape)

/-- A chunk takes something behind its start delimiter. -/
theorem exists_of_chunk {r : Step} (read : chunk d pos indent? body = .ok r) :
    ∃ e s, body = e :: s ++ r.rest := by
  have shorter := length_of_chunk read
  obtain ⟨_ | ⟨c, _ | ⟨e, s⟩⟩, whole, -⟩ := chunk_takes read
  · have length := congrArg List.length whole
    simp only [List.nil_append, List.length_cons] at length
    omega
  · obtain ⟨-, rfl⟩ := List.cons.inj whole
    exact absurd shorter (Nat.lt_irrefl _)
  · exact ⟨e, s, (List.cons.inj whole).2⟩

/-- An indented chunk in front of the text is read whatever follows the text, unless it is a marker
at the end of the source. -/
theorem indented_unread (out : d.StandOut) (unread : Unread d (c :: s ++ text) rest rest')
    (keeps : (c :: s ++ text).getLast? ≠ some '\n' → rest = [] → pos.column = 1 →
      endsIndented d (c :: s ++ text) = false)
    (noNewline : newline? (c :: (s ++ (text ++ rest'))) = none) (lineStart : pos.column = 1)
    (found : indentation? d (c :: (s ++ (text ++ rest))) = some (indent, body))
    (chunked : chunk d (pos.after indent) (some indent) body = .ok ⟨tokens, pos', text ++ rest⟩) :
    step d pos c (s ++ (text ++ rest')) = .ok ⟨tokens, pos', text ++ rest'⟩ := by
  obtain ⟨e, piece, rfl⟩ := exists_of_chunk chunked
  obtain ⟨whole, given, blanks, start, noComment⟩ := indentation?_eq_some_iff.1 found
  have longer : c :: s ++ (text ++ rest) = indent ++ d.start :: e :: piece ++ (text ++ rest) := by
    simpa using whole
  have taken : c :: s = indent ++ d.start :: e :: piece := List.append_cancel_right longer
  have found' : indentation? d (c :: (s ++ (text ++ rest'))) =
      some (indent, e :: piece ++ (text ++ rest')) := by
    refine indentation?_eq_some_iff.2 ⟨?_, given, blanks, start, noComment⟩
    rw [← List.cons_append, taken]
    simp
  refine step_ok_iff.2
    (.indented noNewline lineStart found' out.single (chunk_unread out ?_ ?_ chunked))
  · refine Unread.of_append (s := indent ++ [d.start]) ?_ (List.cons_ne_nil _ _)
    rw [taken] at unread
    simpa using unread
  · rintro source marker ended isMarker rfl rfl
    rw [List.append_nil, taken] at keeps
    have last : (indent ++ d.start :: e :: piece).getLast? = some d.stop := by
      rw [eq_of_payload ended, ← List.cons_append, ← List.append_assoc, List.getLast?_concat]
    have other : (indent ++ d.start :: e :: piece).getLast? ≠ some '\n' := fun same =>
      out.stop (Option.some.inj (last.symm.trans same))
    have line : indentation? d (indent ++ d.start :: e :: piece) = some (indent, e :: piece) :=
      indentation?_eq_some_iff.2 ⟨rfl, given, blanks, start, noComment⟩
    exact absurd (endsIndented_of_chunk line ended isMarker) (by simp [keeps other rfl lineStart])

/-- A step in front of the text is taken whatever follows the text, unless it takes an indented
marker at the end of the source, or the text ends with a start delimiter. -/
theorem step_unread (out : d.StandOut) (unread : Unread d (c :: s ++ text) rest rest')
    (opens : ∀ blanks : List Char, blanks.all isIndent = true →
      c :: s ++ text ≠ blanks ++ [d.start])
    (keeps : (c :: s ++ text).getLast? ≠ some '\n' → rest = [] → pos.column = 1 →
      endsIndented d (c :: s ++ text) = false)
    (read : step d pos c (s ++ (text ++ rest)) = .ok ⟨tokens, pos', text ++ rest⟩) :
    step d pos c (s ++ (text ++ rest')) = .ok ⟨tokens, pos', text ++ rest'⟩ := by
  have longer (rest : List Char) : c :: (s ++ (text ++ rest)) = c :: s ++ text ++ rest := by simp
  have nonempty : c :: s ++ text ≠ [] := List.cons_ne_nil _ _
  have noNewline' (noNewline : newline? (c :: (s ++ (text ++ rest))) = none) :
      newline? (c :: (s ++ (text ++ rest'))) = none := by
    rw [longer] at noNewline ⊢
    exact unread.newline? out nonempty noNewline
  have onward (midline : Midline d pos (c :: (s ++ (text ++ rest)))) :
      Midline d pos (c :: (s ++ (text ++ rest'))) := by
    refine ⟨noNewline' midline.noNewline, fun lineStart => ?_⟩
    have noIndent := midline.noIndent lineStart
    rw [longer] at noIndent ⊢
    exact unread.indentation? out nonempty opens noIndent
  have noEscape' (noEscape : escape? d (c :: (s ++ (text ++ rest))) = none) :
      escape? d (c :: (s ++ (text ++ rest'))) = none := by
    rw [longer] at noEscape ⊢
    exact unread.escape? out nonempty noEscape
  generalize result : Step.mk tokens pos' (text ++ rest) = r at read
  cases step_ok_iff.1 read with
  | newline found =>
    obtain ⟨rfl, rfl, rfl⟩ := Step.mk.inj result
    obtain ⟨whole, lineFeed⟩ := newline?_eq_some_iff.1 found
    obtain rfl : c :: s = _ := List.append_cancel_right whole
    exact step_ok_iff.2 (.newline (newline?_eq_some_iff.2 ⟨rfl, lineFeed⟩))
  | indented noNewline lineStart found _ chunked =>
    subst result
    exact indented_unread out unread keeps (noNewline' noNewline) lineStart found chunked
  | @escape e _ midline found =>
    obtain ⟨rfl, rfl, rfl⟩ := Step.mk.inj result
    obtain ⟨whole, -⟩ := eq_of_escape? found
    obtain ⟨rfl, same⟩ := List.cons.inj whole
    obtain rfl : s = [e] := List.append_cancel_right same
    exact step_ok_iff.2 (.escape (onward midline) (unread.escaped found))
  | text midline noEscape other =>
    obtain ⟨rfl, rfl, whole⟩ := Step.mk.inj result
    obtain rfl : [] = s := List.append_cancel_right whole
    exact step_ok_iff.2 (.text (onward midline) (noEscape' noEscape) other)
  | @comment inner _ midline noEscape starts mark split =>
    obtain ⟨rfl, rfl, rfl⟩ := Step.mk.inj result
    have word : ['!', d.stop] ≠ [] := List.cons_ne_nil _ _
    obtain ⟨whole, first⟩ := (Text.splitAtWord?_eq_some_iff word).1 split
    obtain rfl := List.append_cancel_right whole
    refine step_ok_iff.2 (.comment (onward midline) (noEscape' noEscape) starts ?_
      ((Text.splitAtWord?_eq_some_iff word).2 ⟨rfl, first⟩))
    rcases inner with _ | ⟨e, inner⟩
    · rfl
    · exact mark
  | chunk midline noEscape starts noMark chunked =>
    subst result
    obtain ⟨e, piece, whole⟩ := exists_of_chunk chunked
    obtain rfl := List.append_cancel_right whole
    refine step_ok_iff.2 (.chunk (onward midline) (noEscape' noEscape) starts noMark
      (chunk_unread out ?_ (fun _ _ _ _ _ _ => rfl) chunked))
    exact unread.of_append (s := [c]) (List.cons_ne_nil _ _)

/-! ## Texts -/

/-- A step ends behind what it takes. -/
theorem pos_of_step (taken : step d pos c (s ++ rest) = .ok ⟨tokens, pos', rest⟩) :
    pos' = pos.after (c :: s) := by
  obtain ⟨piece, whole, place⟩ := step_takes taken
  rw [show c :: s = piece from List.append_cancel_right whole]
  exact place

/-- In front of `rest`, the lexer takes the text from `pos` on, step by step, and yields the
tokens. -/
inductive Lexes (d : Delimiters) : Position → List Char → List Char → List Token → Prop
  | here (pos : Position) (rest : List Char) : Lexes d pos [] rest []
  | step {pos pos' : Position} {c : Char} {s text rest : List Char} {tokens more : List Token} :
    step d pos c (s ++ (text ++ rest)) = .ok ⟨tokens, pos', text ++ rest⟩ →
    Lexes d pos' text rest more → Lexes d pos (c :: s ++ text) rest (tokens ++ more)

namespace Lexes

/-- What follows the text is lexed from behind it. -/
theorem pieces (lexes : Lexes d pos text rest tokens) :
    pieces d pos (text ++ rest) = (Token.pieces d (pos.after text) rest).map (tokens ++ ·) := by
  induction lexes with
  | here pos rest =>
    rw [List.nil_append, Position.after_nil]
    cases Token.pieces d pos rest <;> rfl
  | @step pos pos' c s text rest tokens more taken _ ih =>
    have place := pos_of_step taken
    rw [List.append_assoc, List.cons_append, pieces_of_step taken, ih, Position.after_append,
      ← place]
    cases Token.pieces d (pos'.after text) rest with
    | error e => rfl
    | ok others => simp [Except.map]

theorem exists_pieces (lexes : Lexes d pos text rest tokens)
    (read : Token.pieces d pos (text ++ rest) = .ok tokens') :
    ∃ others, Token.pieces d (pos.after text) rest = .ok others ∧ tokens' = tokens ++ others := by
  rw [lexes.pieces] at read
  rcases behind : Token.pieces d (pos.after text) rest with e | others
  · rw [behind] at read
    cases read
  · rw [behind] at read
    cases read
    exact ⟨others, rfl, rfl⟩

end Lexes

/-- A source is lexed up to its end. -/
theorem lexes_of_pieces (read : pieces d pos s = .ok tokens) : Lexes d pos s [] tokens := by
  induction pieced_of_pieces read with
  | nil pos => exact .here pos []
  | @cons pos c s r rest taken others _ ih =>
    obtain ⟨_ | ⟨e, piece⟩, whole, -⟩ := step_takes taken
    · have length := congrArg List.length whole
      have shorter := length_of_step taken
      simp only [List.nil_append, List.length_cons] at length
      omega
    · obtain ⟨rfl, rfl⟩ := List.cons.inj whole
      exact .step (by simpa using taken) (ih others)

namespace Lexes

theorem exists_step (lexes : Lexes d pos (c :: t) rest tokens) :
    ∃ s text front pos' more, t = s ++ text ∧
      Token.step d pos c (s ++ (text ++ rest)) = .ok ⟨front, pos', text ++ rest⟩ ∧
      Lexes d pos' text rest more := by
  generalize whole : c :: t = text at lexes
  cases lexes with
  | here => cases whole
  | step taken others =>
    obtain ⟨rfl, rfl⟩ := List.cons.inj whole
    exact ⟨_, _, _, _, _, rfl, taken, others⟩

/-- A start delimiter that begins a step is not all that the step takes. -/
theorem length_of_start (out : d.StandOut) {r : Step} (taken : Token.step d pos d.start s = .ok r) :
    r.rest.length < s.length := by
  cases step_ok_iff.1 taken with
  | newline found =>
    obtain ⟨whole, rfl | rfl⟩ := newline?_eq_some_iff.1 found
    · exact absurd (List.cons.inj whole).1 out.lineFeed
    · obtain ⟨-, rfl⟩ := List.cons.inj whole
      exact Nat.lt_succ_self _
  | indented _ _ found =>
    obtain ⟨whole, given, blanks, -⟩ := indentation?_eq_some_iff.1 found
    obtain ⟨b, indent, rfl⟩ := List.exists_cons_of_ne_nil given
    obtain ⟨rfl, -⟩ := List.cons.inj whole
    have blank := List.all_eq_true.1 blanks d.start List.mem_cons_self
    exact absurd blank (by simp [out.blank])
  | escape _ found => exact absurd (List.cons.inj (eq_of_escape? found).1).1 out.backslash
  | text _ _ other => exact absurd rfl other
  | comment _ _ _ _ split =>
    rw [Text.eq_of_splitAtWord? split]
    simp only [List.length_append, List.length_cons]
    omega
  | chunk _ _ _ _ read => exact length_of_chunk read

/-- No step ends right behind the start delimiter that it begins with, with or without blanks. -/
theorem ne_start (out : d.StandOut) (lexes : Lexes d pos text rest tokens) {blanks : List Char}
    (all : blanks.all isIndent = true) : text ≠ blanks ++ [d.start] := by
  rintro rfl
  induction blanks generalizing pos tokens with
  | nil =>
    obtain ⟨s, text, front, pos', more, nothing, taken, -⟩ := exists_step lexes
    obtain ⟨rfl, rfl⟩ := List.append_eq_nil_iff.1 nothing.symm
    exact absurd (length_of_start out taken) (Nat.lt_irrefl _)
  | cons b blanks ih =>
    rw [List.all_cons, Bool.and_eq_true] at all
    obtain ⟨blank, all⟩ := all
    have begins : Lexes d pos (b :: (blanks ++ [d.start])) rest tokens := lexes
    obtain ⟨s, text, front, pos', more, split, taken, others⟩ := exists_step begins
    have ne {c : Char} (visible : isIndent c = false) : b ≠ c := by
      rintro rfl
      exact absurd blank (by simp [visible])
    generalize result : Step.mk front pos' (text ++ rest) = r at taken
    cases step_ok_iff.1 taken with
    | newline found =>
      obtain ⟨whole, rfl | rfl⟩ := newline?_eq_some_iff.1 found
      · exact ne (by decide) (List.cons.inj whole).1
      · exact ne (by decide) (List.cons.inj whole).1
    | @indented indent _ _ _ _ found _ chunked =>
      subst result
      obtain ⟨e, piece, rfl⟩ := exists_of_chunk chunked
      obtain ⟨whole, -⟩ := indentation?_eq_some_iff.1 found
      have longer : b :: blanks ++ [d.start] ++ rest =
          indent ++ d.start :: (e :: piece ++ text) ++ rest := by
        simpa [List.append_assoc, ← List.append_assoc blanks, split] using whole
      have early := congrArg List.dropLast (List.append_cancel_right longer)
      rw [List.dropLast_concat, List.dropLast_append_cons] at early
      have inside : d.start ∈ b :: blanks := by simp [early]
      rcases List.mem_cons.1 inside with first | later
      · exact ne out.blank first.symm
      · exact absurd (List.all_eq_true.1 all d.start later) (by simp [out.blank])
    | escape _ found => exact ne (by decide) (List.cons.inj (eq_of_escape? found).1).1
    | text =>
      obtain ⟨-, -, nothing⟩ := Step.mk.inj result
      obtain rfl : [] = s := List.append_cancel_right nothing
      obtain rfl : blanks ++ [d.start] = text := split
      exact ih all others
    | comment _ _ starts => exact ne out.blank starts
    | chunk _ _ starts => exact ne out.blank starts

/-- A text is lexed alike with something else behind it, unless it ends with an indented marker at
the end of the source. -/
theorem replace (out : d.StandOut) (lexes : Lexes d pos text rest tokens)
    (unread : text ≠ [] → Unread d text rest rest')
    (keeps : text.getLast? ≠ some '\n' → rest = [] → ∀ before line taken, text = before ++ line →
      Lexes d pos before line taken → (pos.after before).column = 1 → endsIndented d line = false) :
    Lexes d pos text rest' tokens := by
  induction lexes with
  | here pos rest => exact .here pos rest'
  | @step pos pos' c s text rest tokens more taken others ih =>
    have place := pos_of_step taken
    have opens (blanks : List Char) (all : blanks.all isIndent = true) :=
      (Lexes.step taken others).ne_start out all
    refine .step (step_unread out (unread (List.cons_ne_nil _ _)) opens ?_ taken) (ih ?_ ?_)
    · intro last nothing lineStart
      exact keeps last nothing [] (c :: s ++ text) [] rfl (.here pos _) lineStart
    · intro nonempty
      exact (unread (List.cons_ne_nil _ _)).of_append nonempty
    · rintro last rfl before line front rfl lexes lineStart
      rcases nothing : before ++ line with _ | ⟨e, more⟩
      · obtain ⟨-, rfl⟩ := List.append_eq_nil_iff.1 nothing
        rfl
      · refine keeps ?_ rfl (c :: s ++ before) line (tokens ++ front) ?_ ?_ ?_
        · rw [nothing] at last ⊢
          rwa [List.getLast?_append, Option.or_of_isSome (by simp)]
        · exact (List.append_assoc _ _ _).symm
        · exact .step (by simpa using taken) lexes
        · rw [Position.after_append, ← place]
          exact lineStart

end Lexes
end Token
end Stencil
