import Stencil.Template.Token
import Stencil.Template.Lexeme
/-!
# Two readers of one payload

The payload of a chunk is read twice: first to find where it ends, later for its lexemes. The
readers agree on quoted texts and on braces, so the payload does not end inside a lexeme.
-/
namespace Stencil

namespace Delimiters

/-- One of the pairs that have a name. -/
def IsBuiltIn (d : Delimiters) : Prop := d = dollar ∨ d = angle

theorem IsBuiltIn.start_ne_backslash {d : Delimiters} (builtIn : d.IsBuiltIn) : d.start ≠ '\\' := by
  rcases builtIn with rfl | rfl <;> decide

end Delimiters

namespace Token

open Text (Position)

variable {stop c : Char} {s word raw rest more : List Char}

theorem prepend_prepend {ε : Type} (first second : List Char)
    (r : Except ε (List Char × List Char)) :
    prepend first (prepend second r) = prepend (first ++ second) r := by
  cases r with
  | error e => rfl
  | ok parts => simp [prepend, Except.map]

/-- What no case for a backslash has been found for is none. -/
theorem ne_of_unescaped (ends : c = '\\' → s = [] → False)
    (escapes : ∀ e rest, c = '\\' → s = e :: rest → False) : c ≠ '\\' := by
  intro same
  cases s with
  | nil => exact ends same rfl
  | cons e rest => exact escapes e rest same rfl

theorem payload_quoted_other (backslash : c ≠ '\\') (mark : c ≠ '"') :
    payload stop .quoted (c :: s) = prepend [c] (payload stop .quoted s) := by
  rw [payload]
  all_goals simp [backslash, mark]

theorem payload_code_other {depth : Nat} (backslash : c ≠ '\\') :
    payload stop (.code (depth + 1)) (c :: s) =
      prepend [c] (payload stop (.enter (depth + 1) c) s) := by
  rw [payload]
  all_goals simp [backslash]

theorem payload_of_quotedText? (read : Lexeme.quotedText? s = some (raw, rest)) :
    payload stop .quoted (s ++ more) =
      prepend (raw ++ ['"']) (payload stop (.code 0) (rest ++ more)) := by
  fun_induction Lexeme.quotedText? s generalizing raw with
  | case1 => cases read
  | case2 => cases read
  | case3 e rest ih =>
    simp only [Option.map_eq_some_iff, Prod.mk.injEq] at read
    obtain ⟨parts, inner, rfl, rfl⟩ := read
    simp only [List.cons_append, payload]
    rw [ih inner, prepend_prepend]
    rfl
  | case4 =>
    cases read
    simp [payload]
  | case5 c rest ends escapes mark ih =>
    simp only [Option.map_eq_some_iff, Prod.mk.injEq] at read
    obtain ⟨parts, inner, rfl, rfl⟩ := read
    have backslash := ne_of_unescaped ends escapes
    rw [List.cons_append, payload_quoted_other backslash mark, ih inner, prepend_prepend]
    rfl

theorem payload_of_bracedText? {depth : Nat}
    (read : Lexeme.bracedText? depth s = some (raw, rest)) :
    payload stop (.code (depth + 1)) (s ++ more) =
      prepend (raw ++ ['}']) (payload stop (.code 0) (rest ++ more)) := by
  fun_induction Lexeme.bracedText? depth s generalizing raw with
  | case1 => cases read
  | case2 => cases read
  | case3 depth e rest ih =>
    simp only [Option.map_eq_some_iff, Prod.mk.injEq] at read
    obtain ⟨parts, inner, rfl, rfl⟩ := read
    simp only [List.cons_append, payload]
    rw [ih inner, prepend_prepend]
    rfl
  | case4 depth rest ih =>
    simp only [Option.map_eq_some_iff, Prod.mk.injEq] at read
    obtain ⟨parts, inner, rfl, rfl⟩ := read
    have deeper : Nesting.enter (depth + 1) '{' = .code (depth + 1 + 1) := rfl
    rw [List.cons_append, payload_code_other (by decide), deeper, ih inner, prepend_prepend]
    rfl
  | case5 rest =>
    cases read
    have leaves : Nesting.enter (0 + 1) '}' = .code 0 := rfl
    rw [List.cons_append, payload_code_other (by decide), leaves]
    rfl
  | case6 rest depth ih =>
    simp only [Option.map_eq_some_iff, Prod.mk.injEq] at read
    obtain ⟨parts, inner, rfl, rfl⟩ := read
    have leaves : Nesting.enter (depth + 1 + 1) '}' = .code (depth + 1) := rfl
    rw [List.cons_append, payload_code_other (by decide), leaves, ih inner, prepend_prepend]
    rfl
  | case7 depth c rest ends escapes opens closes ih =>
    simp only [Option.map_eq_some_iff, Prod.mk.injEq] at read
    obtain ⟨parts, inner, rfl, rfl⟩ := read
    have backslash := ne_of_unescaped ends escapes
    have stays : Nesting.enter (depth + 1) c = .code (depth + 1) := by
      rw [Nesting.enter, if_neg opens, if_neg closes]
    rw [List.cons_append, payload_code_other backslash, stays, ih inner, prepend_prepend]
    rfl

/-- A character that neither ends a payload nor opens anything in it. -/
def Plain (stop c : Char) : Prop := c ≠ '"' ∧ c ≠ '{' ∧ c ≠ stop

theorem payload_plain (plain : ∀ c ∈ word, Plain stop c) :
    payload stop (.code 0) (word ++ more) = prepend word (payload stop (.code 0) more) := by
  induction word with
  | nil =>
    rw [List.nil_append]
    cases payload stop (.code 0) more <;> rfl
  | cons c word ih =>
    obtain ⟨⟨quote, brace, other⟩, others⟩ := List.forall_mem_cons.1 plain
    rw [List.cons_append, payload, if_neg quote, if_neg brace, if_neg other, ih others,
      prepend_prepend]
    rfl

/-- No lexeme but a quoted text and an inline template has other characters than plain ones. -/
theorem plain_of_class {d : Delimiters} (builtIn : d.IsBuiltIn) {p : Char → Bool}
    (others : p '"' = false ∧ p '{' = false ∧ p '$' = false ∧ p '>' = false) (holds : p c = true) :
    Plain d.stop c := by
  obtain ⟨quote, brace, dollar, angle⟩ := others
  refine ⟨?_, ?_, ?_⟩
  · rintro rfl
    exact absurd holds (by simp [quote])
  · rintro rfl
    exact absurd holds (by simp [brace])
  · rintro rfl
    rcases builtIn with rfl | rfl
    · exact absurd holds (by simp [Delimiters.dollar, dollar])
    · exact absurd holds (by simp [Delimiters.angle, angle])

theorem payload_of_read {d : Delimiters} (builtIn : d.IsBuiltIn) {r : Lexeme.Reading}
    (done : Lexeme.read c s = .ok r) :
    payload d.stop (.code 0) (c :: s ++ more) =
      prepend r.written (payload d.stop (.code 0) (r.rest ++ more)) := by
  have passes {p : Char → Bool}
      (others : p '"' = false ∧ p '{' = false ∧ p '$' = false ∧ p '>' = false)
      (first : Plain d.stop c) :
      payload d.stop (.code 0) (c :: s ++ more) =
        prepend (c :: s.takeWhile p) (payload d.stop (.code 0) (s.dropWhile p ++ more)) := by
    have plain : ∀ e ∈ c :: s.takeWhile p, Plain d.stop e :=
      List.forall_mem_cons.2 ⟨first, fun e member =>
        plain_of_class builtIn others (List.all_eq_true.1 List.all_takeWhile e member)⟩
    rw [← payload_plain plain, List.cons_append, List.cons_append, ← List.append_assoc,
      List.takeWhile_append_dropWhile]
  unfold Lexeme.read at done
  split at done
  · rename_i mark known
    cases done
    have isMark : (Mark.ofChar? c).isSome = true := by rw [known]; rfl
    have plain : Plain d.stop c :=
      plain_of_class builtIn (p := fun c => (Mark.ofChar? c).isSome) (by decide) isMark
    exact payload_plain (List.forall_mem_singleton.2 plain)
  · split at done
    · rename_i quote
      subst quote
      split at done
      · rename_i raw rest read
        cases done
        rw [List.cons_append, payload, if_pos rfl, payload_of_quotedText? read, prepend_prepend]
        rfl
      · cases done
    · split at done
      · rename_i brace
        subst brace
        split at done
        · rename_i raw rest read
          cases done
          rw [List.cons_append, payload, if_neg (by decide), if_pos rfl,
            payload_of_bracedText? read, prepend_prepend]
          rfl
        · cases done
      · split at done
        · rename_i digit
          dsimp only at done
          split at done
          · cases done
            exact passes (by decide) (plain_of_class builtIn (by decide) digit)
          · cases done
        · split at done
          · rename_i starts
            cases done
            exact passes (by decide) (plain_of_class builtIn (by decide) starts)
          · cases done

/-- A payload does not end inside what scans as an expression. -/
theorem payload_of_scan {d : Delimiters} (builtIn : d.IsBuiltIn) {pos : Position}
    {lexemes : Lexemes} (scanned : Lexeme.scan pos s = .ok lexemes) :
    payload d.stop (.code 0) (s ++ more) = prepend s (payload d.stop (.code 0) more) := by
  fun_induction Lexeme.scan pos s generalizing lexemes with
  | case1 => exact payload_plain (List.forall_mem_nil _)
  | case2 pos c s blank ih =>
    have plain : Plain d.stop c := plain_of_class builtIn (by decide) blank
    rw [← List.singleton_append, List.append_assoc,
      payload_plain (List.forall_mem_singleton.2 plain), ih scanned, prepend_prepend]
  | case3 => cases scanned
  | case4 pos c s visible r done shorter ih =>
    rcases behind : Lexeme.scan (pos.after r.written) r.rest with e | others
    · rw [behind] at scanned
      cases scanned
    · rw [payload_of_read builtIn done, ih behind, prepend_prepend, ← (Lexeme.eq_of_read done).1]

/-! ## Chunks and steps -/

/-- A chunk that holds what scans as an expression is one, unless it is a marker or an escape. -/
theorem chunk_expression {d : Delimiters} (builtIn : d.IsBuiltIn) {pos : Position}
    {lexemes : Lexemes} (scanned : Lexeme.scan pos s = .ok lexemes)
    (noMarker : ∀ pos, marker? s pos = none) (noEscape : escapeChunk? s = none)
    (opening : Position) (indent? : Option (List Char)) (rest : List Char) :
    chunk d opening indent? (s ++ d.stop :: rest) =
      .ok ⟨[.expr s indent? (opening.step d.start)],
        (opening.step d.start).after (s ++ [d.stop]), rest⟩ := by
  have behind : payload d.stop (.code 0) (d.stop :: rest) = .ok ([], rest) := by
    rcases builtIn with rfl | rfl <;> rfl
  have inside : payload d.stop (.code 0) (s ++ d.stop :: rest) = .ok (s, rest) := by
    rw [payload_of_scan builtIn scanned, behind]
    simp [prepend, Except.map]
  rw [chunk, inside]
  simp only [noMarker, noEscape]

theorem escape?_of_ne {d : Delimiters} (other : c ≠ '\\') (s : List Char) :
    escape? d (c :: s) = none := by
  unfold escape?
  split
  · rename_i same
    exact absurd (List.cons.inj same).1 other
  · rename_i same
    exact absurd (List.cons.inj same).1 other
  · rfl

theorem pieces_of_step {d : Delimiters} {pos : Position} {r : Step}
    (taken : step d pos c s = .ok r) :
    pieces d pos (c :: s) = (pieces d r.pos r.rest).map (r.tokens ++ ·) := by
  rw [pieces]
  split
  · rename_i failed
    rw [taken] at failed
    cases failed
  · rename_i r' taken'
    rw [taken] at taken'
    cases taken'
    rfl

/-- A start delimiter opens a chunk where no blanks stand before it. -/
theorem step_start {d : Delimiters} (builtIn : d.IsBuiltIn) (pos : Position)
    (noComment : s.head? ≠ some '!') : step d pos d.start s = chunk d pos none s := by
  have noNewline : newline? (d.start :: s) = none := by
    rcases builtIn with rfl | rfl <;> rfl
  have noIndent : (if pos.column = 1 then indentation? d (d.start :: s) else none) = none := by
    split
    · rcases builtIn with rfl | rfl <;> rfl
    · rfl
  rw [step, noNewline]
  dsimp only
  rw [noIndent, escape?_of_ne builtIn.start_ne_backslash]
  dsimp only
  rw [if_neg (not_not_intro rfl), if_neg noComment]

/-- A source that is one such chunk is one token. -/
theorem ofSource_expression {d : Delimiters} (builtIn : d.IsBuiltIn) {pos : Position}
    {lexemes : Lexemes} (scanned : Lexeme.scan pos s = .ok lexemes) (noComment : s.head? ≠ some '!')
    (noMarker : ∀ pos, marker? s pos = none) (noEscape : escapeChunk? s = none) :
    ofSource d (d.start :: (s ++ [d.stop])) =
      .ok [.expr s none (Position.start.step d.start)] := by
  have inside : (s ++ [d.stop]).head? ≠ some '!' := by
    cases s with
    | nil => rcases builtIn with rfl | rfl <;> decide
    | cons c s => exact noComment
  have taken := (step_start builtIn .start inside).trans
    (chunk_expression builtIn scanned noMarker noEscape .start none [])
  rw [ofSource, pieces_of_step taken, pieces]
  rfl

end Token
end Stencil
