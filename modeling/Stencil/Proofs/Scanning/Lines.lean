import Stencil.Proofs.Scanning.Lookahead
/-!
# Sources line by line

A source that ends with a line is split by itself: whatever follows it, no lexical step looks across
its end. What follows is split as at the start of a line, and its tokens do not depend on which line
that is.
-/
namespace Stencil

open Text (Position)

namespace Text

/-- The text is empty or ends with a line. -/
def EndsLine (s : List Char) : Prop := s = [] ∨ s.getLast? = some '\n'

instance (s : List Char) : Decidable (EndsLine s) := inferInstanceAs (Decidable (_ ∨ _))

variable {s t more : List Char} {c : Char}

theorem EndsLine.of_append (ends : EndsLine (s ++ t)) : EndsLine t := by
  rcases t with _ | ⟨c, t⟩
  · exact .inl rfl
  · right
    rcases ends with nothing | last
    · simp at nothing
    · simpa using last

theorem EndsLine.append (ends : EndsLine s) (ends' : EndsLine t) : EndsLine (s ++ t) := by
  rcases ends' with rfl | last
  · rwa [List.append_nil]
  · right
    rw [List.getLast?_append, last]
    rfl

/-- Something follows a character that is no line feed. -/
theorem EndsLine.ne_nil (ends : EndsLine (s ++ c :: t)) (other : c ≠ '\n') : t ≠ [] := by
  rintro rfl
  rcases ends with nothing | last
  · simp at nothing
  · simp at last
    exact other last

/-- Whole lines end at the start of a line. -/
theorem EndsLine.column_after (ends : EndsLine s) {pos : Position} (lineStart : pos.column = 1) :
    (pos.after s).column = 1 := by
  rcases ends with rfl | last
  · exact lineStart
  · obtain ⟨init, rfl⟩ := List.getLast?_eq_some_iff.1 last
    rw [Position.after_append]
    rfl

/-- The places are told apart by no step: they are in the same column, or neither is at the start of
a line. -/
def Position.Alike (pos pos' : Position) : Prop :=
  pos.column = pos'.column ∨ 1 < pos.column ∧ 1 < pos'.column

theorem Position.Alike.lineStart_iff {pos pos' : Position} (alike : pos.Alike pos') :
    pos.column = 1 ↔ pos'.column = 1 := by
  unfold Position.Alike at alike
  omega

theorem Position.Alike.after {pos pos' : Position} (alike : pos.Alike pos') (s : List Char) :
    (pos.after s).Alike (pos'.after s) := by
  induction s generalizing pos pos' with
  | nil => exact alike
  | cons c s ih =>
    refine ih ?_
    unfold Position.step
    split
    · exact .inl rfl
    · unfold Position.Alike at alike ⊢
      dsimp only
      omega

end Text

namespace Token

open Text (EndsLine)

variable {d : Delimiters} {pos pos' : Position} {c : Char}
  {s source rest body nl indent : List Char} {r : Step} {tokens : List Token}

/-! ## What lies behind a line -/

/-- The token is no piece of text, so no text is joined with it. -/
def NotText (token : Token) : Prop := ∀ s, token ≠ .text s

theorem notText_of_marker? {marker : Token} (found : marker? source pos = some marker) :
    marker.NotText := by
  cases marked_of_marker? found <;> nofun

/-! ## Whole lines -/

/-- The tokens do not end with a piece of text. -/
def EndClosed (tokens : List Token) : Prop :=
  tokens = [] ∨ ∃ init last, tokens = init ++ [last] ∧ last.NotText

theorem EndClosed.append {more : List Token} (closed : EndClosed more) (nonempty : more ≠ [])
    (tokens : List Token) : EndClosed (tokens ++ more) := by
  obtain ⟨init, last, rfl, notText⟩ := closed.resolve_left nonempty
  exact .inr ⟨tokens ++ init, last, (List.append_assoc _ _ _).symm, notText⟩

/-- A step that ends with the last line yields no text, which could go on there. -/
theorem closed_of_step (out : d.StandOut) (ends : EndsLine (c :: s))
    (taken : step d pos c s = .ok r) (nothing : r.rest = []) :
    ∃ token, r.tokens = [token] ∧ token.NotText := by
  have chunked {opening : Position} {indent? : Option (List Char)} {body : List Char}
      (lines : EndsLine body) (read : chunk d opening indent? body = .ok r) :
      ∃ token, r.tokens = [token] ∧ token.NotText := by
    have behind {source : List Char}
        (split : payload d.stop (.code 0) body = .ok (source, r.rest)) : False := by
      rw [nothing] at split
      exact (eq_of_payload split ▸ lines).ne_nil out.stop rfl
    cases chunk_ok_iff.1 read with
    | line _ found => exact ⟨_, rfl, notText_of_marker? found⟩
    | last split => exact (behind split).elim
    | marker split => exact (behind split).elim
    | escape split => exact (behind split).elim
    | expression split => exact (behind split).elim
  cases step_ok_iff.1 taken with
  | newline => exact ⟨_, rfl, nofun⟩
  | @indented indent _ _ _ _ found _ read =>
    rw [eq_of_indentation? found, ← List.singleton_append, ← List.append_assoc] at ends
    exact chunked ends.of_append read
  | escape _ found =>
    obtain ⟨whole, escaped⟩ := eq_of_escape? found
    obtain rfl := nothing
    rw [whole] at ends
    have last := ends.ne_nil (s := ['\\'])
    rcases escaped with rfl | rfl | rfl
    · exact absurd rfl (last (by decide))
    · exact absurd rfl (last out.lineFeed)
    · exact absurd rfl (last out.stop)
  | text midline =>
    obtain rfl : s = [] := nothing
    by_cases lineFeed : c = '\n'
    · subst lineFeed
      cases midline.noNewline
    · exact absurd rfl (ends.ne_nil (s := []) lineFeed)
  | @comment inner _ _ _ _ _ split =>
    obtain rfl := nothing
    have whole : c :: s = c :: inner ++ ['!'] ++ [d.stop] := by
      simp [Text.eq_of_splitAtWord? split]
    exact absurd rfl ((whole ▸ ends).ne_nil out.stop)
  | chunk _ _ _ _ read => exact chunked (EndsLine.of_append (s := [c]) ends) read

theorem closed_of_pieces (out : d.StandOut) (ends : EndsLine s)
    (read : pieces d pos s = .ok tokens) : (s ≠ [] → tokens ≠ []) ∧ EndClosed tokens := by
  induction pieced_of_pieces read with
  | nil => exact ⟨(absurd rfl ·), .inl rfl⟩
  | @cons pos c s r rest taken others _ ih =>
    obtain ⟨consumed, whole, -⟩ := step_takes taken
    obtain ⟨nonempty, closed⟩ := ih (EndsLine.of_append (whole ▸ ends)) others
    by_cases nothing : r.rest = []
    · obtain ⟨token, alone, notText⟩ := closed_of_step out ends taken nothing
      rw [nothing, pieces] at others
      cases others
      rw [alone]
      exact ⟨fun _ => List.cons_ne_nil _ _, .inr ⟨[], token, rfl, notText⟩⟩
    · exact ⟨fun _ => by simp [nonempty nothing], closed.append (nonempty nothing) r.tokens⟩

/-- Whole lines are lexed whatever follows them. -/
theorem Lexes.replace_of_endsLine {text rest : List Char} (out : d.StandOut)
    (lexes : Lexes d pos text rest tokens) (ends : EndsLine text) (rest' : List Char) :
    Lexes d pos text rest' tokens := by
  refine lexes.replace out (fun nonempty => .line (ends.resolve_left nonempty)) ?_
  rintro other - before line taken rfl - -
  obtain ⟨-, rfl⟩ := List.append_eq_nil_iff.1 (ends.resolve_right other)
  rfl

/-- A source that ends with a line is split by itself, and so is what follows it. -/
theorem pieces_append (builtIn : d.IsBuiltIn) (ends : EndsLine s)
    (read : pieces d pos s = .ok tokens) (more : List Char) :
    pieces d pos (s ++ more) = (pieces d (pos.after s) more).map (tokens ++ ·) ∧
      (s ≠ [] → tokens ≠ []) ∧ EndClosed tokens :=
  have out := builtIn.standOut
  have lexes := (lexes_of_pieces read).replace_of_endsLine out ends more
  ⟨lexes.pieces, closed_of_pieces out ends read⟩

/-! ## Other lines -/

theorem chunk_moved (alike : pos.Alike pos') {indent? : Option (List Char)}
    (read : chunk d pos indent? body = .ok r) :
    ∃ r', chunk d pos' indent? body = .ok r' ∧
      r'.tokens.map unplaced = r.tokens.map unplaced ∧ r'.rest = r.rest := by
  cases chunk_ok_iff.1 read with
  | line split found alone ended =>
    obtain ⟨marker', found, moved⟩ := exists_marker?_moved found _
    have alone := alone.imp_left alike.lineStart_iff.1
    exact ⟨_, chunk_ok_iff.2 (.line split found alone ended), by simp [moved], rfl⟩
  | last split found alone =>
    obtain ⟨marker', found, moved⟩ := exists_marker?_moved found _
    have alone := alone.imp_left alike.lineStart_iff.1
    exact ⟨_, chunk_ok_iff.2 (.last split found alone), by simp [moved], rfl⟩
  | marker split found others =>
    obtain ⟨marker', found, moved⟩ := exists_marker?_moved found _
    have others := others ∘ Or.imp_left alike.lineStart_iff.2
    exact ⟨_, chunk_ok_iff.2 (.marker split found others), by simp [moved], rfl⟩
  | escape split noMarker escaped =>
    exact ⟨_, chunk_ok_iff.2 (.escape split (marker?_eq_none_moved noMarker _) escaped), rfl, rfl⟩
  | expression split noMarker noEscape =>
    exact ⟨_, chunk_ok_iff.2 (.expression split (marker?_eq_none_moved noMarker _) noEscape),
      by simp [unplaced], rfl⟩

theorem step_moved (alike : pos.Alike pos') (read : step d pos c s = .ok r) :
    ∃ r', step d pos' c s = .ok r' ∧
      r'.tokens.map unplaced = r.tokens.map unplaced ∧ r'.rest = r.rest := by
  have moved {s : List Char} (midline : Midline d pos s) : Midline d pos' s :=
    ⟨midline.noNewline, midline.noIndent ∘ alike.lineStart_iff.2⟩
  cases step_ok_iff.1 read with
  | newline found => exact ⟨_, step_ok_iff.2 (.newline found), rfl, rfl⟩
  | indented noNewline lineStart found single chunked =>
    obtain ⟨r', chunked', moved⟩ := chunk_moved (alike.after _) chunked
    have lineStart := alike.lineStart_iff.1 lineStart
    exact ⟨r', step_ok_iff.2 (.indented noNewline lineStart found single chunked'), moved⟩
  | escape midline found => exact ⟨_, step_ok_iff.2 (.escape (moved midline) found), rfl, rfl⟩
  | text midline noEscape other =>
    exact ⟨_, step_ok_iff.2 (.text (moved midline) noEscape other), rfl, rfl⟩
  | comment midline noEscape starts mark split =>
    exact ⟨_, step_ok_iff.2 (.comment (moved midline) noEscape starts mark split), rfl, rfl⟩
  | chunk midline noEscape starts noMark chunked =>
    obtain ⟨r', chunked', same⟩ := chunk_moved alike chunked
    exact ⟨r', step_ok_iff.2 (.chunk (moved midline) noEscape starts noMark chunked'), same⟩

/-- The tokens of a source depend on the column that it begins in, and not on the line. -/
theorem pieces_moved (alike : pos.Alike pos') (read : pieces d pos s = .ok tokens) :
    ∃ tokens', pieces d pos' s = .ok tokens' ∧
      tokens'.map unplaced = tokens.map unplaced := by
  induction pieced_of_pieces read generalizing pos' with
  | nil => exact ⟨[], by rw [pieces], rfl⟩
  | @cons pos c s r rest taken others _ ih =>
    obtain ⟨r', taken', moved, behind⟩ := step_moved alike taken
    obtain ⟨piece, whole, place⟩ := step_takes taken
    obtain ⟨piece', whole', place'⟩ := step_takes taken'
    have onward : r.pos.Alike r'.pos := by
      rw [whole, behind, List.append_cancel_right_eq] at whole'
      rw [place, place', ← whole']
      exact alike.after piece
    obtain ⟨rest', others', moved'⟩ := ih onward others
    rw [pieces_of_step taken', behind, others']
    exact ⟨_, rfl, by rw [List.map_append, List.map_append, moved, moved']⟩

/-! ## Markers on lines of their own -/

/-- A line of its own for what stands between the delimiters, with an indentation. -/
def markerLine (d : Delimiters) (indent source nl : List Char) : List Char :=
  indent ++ d.start :: (source ++ d.stop :: nl)

/-- A marker takes its whole line. -/
theorem pieces_markerLine (builtIn : d.IsBuiltIn) (lineStart : pos.column = 1)
    (blanks : indent.all isIndent = true) (noComment : source.head? ≠ some '!')
    (nonempty : source ≠ [])
    (lineFeed : nl = ['\n'] ∨ nl = ['\r', '\n'])
    (inside : payload d.stop (.code 0) (source ++ [d.stop]) = .ok (source, []))
    {place : Position → Token} (found : ∀ pos, marker? source pos = some (place pos))
    (more : List Char) :
    ∃ pos', pieces d pos (markerLine d indent source nl ++ more) =
      (pieces d (pos.after (markerLine d indent source nl)) more).map (place pos' :: ·) := by
  have split : payload d.stop (.code 0) (source ++ d.stop :: (nl ++ more)) =
      .ok (source, nl ++ more) :=
    payload_rest inside (nl ++ more)
  have chunked (opening : Position) (indent? : Option (List Char))
      (alone : opening.column = 1 ∨ indent?.isSome) :
      chunk d opening indent? (source ++ d.stop :: (nl ++ more)) =
        .ok ⟨[place (opening.step d.start)],
          ((opening.step d.start).after (source ++ [d.stop])).after nl, more⟩ :=
    chunk_ok_iff.2 (.line split (found _) alone (newline?_eq_some_iff.2 ⟨rfl, lineFeed⟩))
  have noComment : (source ++ d.stop :: (nl ++ more)).head? ≠ some '!' := by
    obtain ⟨c, source, rfl⟩ := List.exists_cons_of_ne_nil nonempty
    exact noComment
  rcases indent with _ | ⟨c, blank⟩
  · have taken := (step_start builtIn pos noComment).trans (chunked pos none (.inl lineStart))
    refine ⟨pos.step d.start, ?_⟩
    have whole : markerLine d [] source nl ++ more =
        d.start :: (source ++ d.stop :: (nl ++ more)) := by
      simp [markerLine]
    rw [whole, pieces_of_step taken]
    simp [markerLine, Position.after_append]
  · have noNewline : newline? (c :: (blank ++ d.start :: (source ++ d.stop :: (nl ++ more)))) =
        none := by
      have first : isIndent c = true := List.all_eq_true.1 blanks c List.mem_cons_self
      have other : c ≠ '\r' ∧ c ≠ '\n' := by
        constructor <;>
        · rintro rfl
          exact absurd first (by decide)
      simp [newline?, other]
    have start : isIndent d.start = false := by rcases builtIn with rfl | rfl <;> decide
    have indented := indentation?_eq_some_iff.2
      ⟨rfl, List.cons_ne_nil c blank, blanks, start, fun _ => noComment⟩
    have taken := step_ok_iff.2 (.indented noNewline lineStart indented builtIn.standOut.single
      (chunked (pos.after (c :: blank)) (some (c :: blank)) (.inr rfl)))
    refine ⟨(pos.after (c :: blank)).step d.start, ?_⟩
    have whole : markerLine d (c :: blank) source nl ++ more =
        c :: (blank ++ d.start :: (source ++ d.stop :: (nl ++ more))) := by
      simp [markerLine]
    rw [whole, pieces_of_step taken]
    simp [markerLine, Position.after_append]

/-! ## Joined texts -/

section Joining

variable {token : Token} {more : List Token}

theorem joinTexts_cons (notText : token.NotText) (more : List Token) :
    joinTexts (token :: more) = token :: joinTexts more := by
  cases token with
  | text s => exact absurd rfl (notText s)
  | _ => rfl

theorem consText_append (s : List Char) (tokens : List Token) (notText : token.NotText) :
    consText s (tokens ++ token :: more) = consText s tokens ++ token :: more := by
  have other : consText s (token :: more) =
      if s = [] then token :: more else .text s :: token :: more := by
    cases token with
    | text t => exact absurd rfl (notText t)
    | _ => rfl
  rcases tokens with _ | ⟨first, tokens⟩
  · rw [List.nil_append, other, consText]
    · split <;> rfl
    · nofun
  · cases first with
    | text t => rfl
    | _ =>
      simp only [List.cons_append, consText]
      split <;> rfl

/-- No text is joined across another token. -/
theorem joinTexts_append_cons (tokens : List Token) (notText : token.NotText) :
    joinTexts (tokens ++ token :: more) = joinTexts tokens ++ token :: joinTexts more := by
  fun_induction joinTexts tokens with
  | case1 => exact joinTexts_cons notText more
  | case2 s rest ih => rw [List.cons_append, joinTexts, ih, consText_append s _ notText]
  | case3 first rest other ih => rw [List.cons_append, joinTexts_cons other, ih, List.cons_append]

theorem joinTexts_append (closed : EndClosed tokens) (more : List Token) :
    joinTexts (tokens ++ more) = joinTexts tokens ++ joinTexts more := by
  rcases closed with rfl | ⟨init, last, rfl, notText⟩
  · rfl
  · rw [List.append_assoc, List.singleton_append, joinTexts_append_cons init notText,
      joinTexts_append_cons init notText]
    simp [joinTexts]

theorem EndClosed.joinTexts (closed : EndClosed tokens) : EndClosed (joinTexts tokens) := by
  rcases closed with rfl | ⟨init, last, rfl, notText⟩
  · exact .inl rfl
  · exact .inr ⟨_, last, joinTexts_append_cons init notText, notText⟩

theorem unplaced_joinTexts (tokens : List Token) :
    (Token.joinTexts tokens).map unplaced = Token.joinTexts (tokens.map unplaced) := by
  have consText (s : List Char) (tokens : List Token) :
      (Token.consText s tokens).map unplaced = Token.consText s (tokens.map unplaced) := by
    rcases tokens with _ | ⟨first, rest⟩
    · simp only [Token.consText]
      split <;> rfl
    · cases first <;>
      · simp only [Token.consText, List.map_cons, unplaced]
        try split <;> rfl
  fun_induction Token.joinTexts tokens with
  | case1 => rfl
  | case2 s rest ih => rw [consText, ih]; rfl
  | case3 first rest other ih =>
    have notText : first.unplaced.NotText := by
      cases first with
      | text s => exact absurd rfl (other s)
      | _ => nofun
    rw [List.map_cons, List.map_cons, joinTexts_cons notText, ih]

theorem forall_joinTexts {p : Token → Prop} (texts : ∀ s, p (.text s))
    (each : ∀ token ∈ tokens, p token) : ∀ token ∈ joinTexts tokens, p token := by
  have consText (s : List Char) {tokens : List Token} (each : ∀ token ∈ tokens, p token) :
      ∀ token ∈ Token.consText s tokens, p token := by
    unfold Token.consText
    split
    · exact List.forall_mem_cons.2 ⟨texts _, (List.forall_mem_cons.1 each).2⟩
    · split
      · exact each
      · exact List.forall_mem_cons.2 ⟨texts s, each⟩
  fun_induction joinTexts tokens with
  | case1 => exact each
  | case2 s rest ih => exact consText s (ih (List.forall_mem_cons.1 each).2)
  | case3 first rest other ih =>
    obtain ⟨here, others⟩ := List.forall_mem_cons.1 each
    exact List.forall_mem_cons.2 ⟨here, ih others⟩

end Joining

end Token
end Stencil
