import Stencil.Proofs.Parallel.Assembly
import Stencil.Proofs.Spelling.Encoding
/-!
# Inline templates inside inline templates

The source of a template can stand in an inline template of another one, as long as it escapes no
brace: the backslash before a brace is dropped from the outer body, the inner ones included, so it
is lost to the template that it was written for.
-/
namespace Stencil

open Text (Position)

/-! ## Braces and backslashes -/

namespace Text

variable {first second c : Char}

theorem dropBefore_cons_of_ne (other : c ≠ first) (s : List Char) :
    dropBefore first second (c :: s) = c :: dropBefore first second s := by
  cases s with
  | nil => rfl
  | cons e s => rw [dropBefore, if_neg fun pair => other pair.1]

/-- Behind a character that begins no pair, the rest is a text of its own. -/
theorem dropBefore_append_cons (other : c ≠ first) (s t : List Char) :
    dropBefore first second (s ++ c :: t) =
      dropBefore first second (s ++ [c]) ++ dropBefore first second t := by
  induction size : s.length using Nat.strongRecOn generalizing s with
  | _ n ih =>
    match s with
    | [] => exact dropBefore_cons_of_ne other t
    | [a] =>
      simp only [List.singleton_append, dropBefore]
      split
      · rfl
      · rw [dropBefore_cons_of_ne other]
        rfl
    | a :: b :: s =>
      simp only [List.cons_append, dropBefore]
      split
      · exact congrArg (second :: ·) (ih _ (by rw [← size]; exact Nat.le_succ _) s rfl)
      · exact congrArg (a :: ·) (ih _ (by rw [← size]; exact Nat.le_refl _) (b :: s) rfl)

theorem dropBefore_eq_self {s : List Char}
    (long : s.length ≤ (dropBefore first second s).length) : dropBefore first second s = s := by
  fun_induction dropBefore first second s with
  | case1 => rfl
  | case2 => rfl
  | case3 a b s pair ih =>
    have short := length_dropBefore_le first second s
    simp only [List.length_cons] at long
    omega
  | case4 a b s other ih =>
    rw [ih (Nat.le_of_succ_le_succ long)]

end Text

namespace Lexeme

theorem bracedText?_other {depth : Nat} {c : Char} {s : List Char} (backslash : c ≠ '\\')
    (opens : c ≠ '{') (closes : c ≠ '}') :
    bracedText? depth (c :: s) =
      (bracedText? depth s).map fun parts => (c :: parts.1, parts.2) := by
  rw [bracedText?]
  all_goals simp [backslash, opens, closes]

/-- Braces may be closed inside others. -/
theorem bracedText?_append {depth : Nat} {s raw rest : List Char}
    (read : bracedText? depth s = some (raw, rest)) (outer : Nat) (more : List Char) :
    bracedText? (depth + outer + 1) (s ++ more) =
      (bracedText? outer (rest ++ more)).map fun parts => (raw ++ '}' :: parts.1, parts.2) := by
  fun_induction bracedText? depth s generalizing raw with
  | case1 => cases read
  | case2 => cases read
  | case3 depth e s ih =>
    simp only [Option.map_eq_some_iff, Prod.mk.injEq] at read
    obtain ⟨parts, inner, rfl, rfl⟩ := read
    simp only [List.cons_append, bracedText?, ih inner, Option.map_map]
    rfl
  | case4 depth s ih =>
    simp only [Option.map_eq_some_iff, Prod.mk.injEq] at read
    obtain ⟨parts, inner, rfl, rfl⟩ := read
    have deeper := ih inner
    rw [Nat.add_right_comm depth 1 outer] at deeper
    simp only [List.cons_append, bracedText?, deeper, Option.map_map]
    rfl
  | case5 s =>
    cases read
    rw [Nat.zero_add]
    simp only [List.cons_append, bracedText?]
    rfl
  | case6 s depth ih =>
    simp only [Option.map_eq_some_iff, Prod.mk.injEq] at read
    obtain ⟨parts, inner, rfl, rfl⟩ := read
    rw [Nat.add_right_comm depth 1 outer]
    simp only [List.cons_append, bracedText?, ih inner, Option.map_map]
    rfl
  | case7 depth c s ends escapes opens closes ih =>
    simp only [Option.map_eq_some_iff, Prod.mk.injEq] at read
    obtain ⟨parts, inner, rfl, rfl⟩ := read
    have backslash : c ≠ '\\' := by
      intro same
      cases s with
      | nil => exact ends same rfl
      | cons e s => exact escapes e s same rfl
    rw [List.cons_append, bracedText?_other backslash opens closes, ih inner, Option.map_map]
    rfl

end Lexeme

/-! ## A source that applies an inline template -/

/-- `v:{y | B}` -/
def application (list formal : Char) (body : List Char) : List Char :=
  list :: ':' :: '{' :: formal :: ' ' :: '|' :: ' ' :: (body ++ ['}'])

namespace Delimiters

/-- `$v:{y | B}$` -/
def applied (d : Delimiters) (list formal : Char) (body : List Char) : List Char :=
  d.start :: (application list formal body ++ [d.stop])

end Delimiters

/-- What can stand in the braces of an inline template: the brace behind it closes them. -/
def IsBody (body : List Char) : Prop :=
  Lexeme.bracedText? 0 (body ++ ['}']) = some (body, [])

/-- No backslash stands before a brace, the one behind the body included. -/
def EscapesNoBrace (body : List Char) : Prop :=
  Grammar.unescapeBraces (body ++ ['}']) = body ++ ['}']

/-! ## Letters -/

namespace Text

variable {c : Char} (letter : c.isAlpha = true)
include letter

theorem ne_of_isAlpha {e : Char} (other : e.isAlpha = false) : c ≠ e := by
  rintro rfl
  rw [other] at letter
  cases letter

theorem toNat_of_isAlpha : 65 ≤ c.toNat ∧ c.toNat ≤ 122 := by
  simp only [Char.isAlpha, Char.isUpper, Char.isLower, Bool.or_eq_true, Bool.and_eq_true,
    decide_eq_true_eq, ge_iff_le, UInt32.le_iff_toNat_le] at letter
  change (65 ≤ c.toNat ∧ c.toNat ≤ 90) ∨ (97 ≤ c.toNat ∧ c.toNat ≤ 122) at letter
  omega

theorem isDigit_of_isAlpha : c.isDigit = false := by
  obtain ⟨low, -⟩ := toNat_of_isAlpha letter
  simp only [Char.isDigit, Bool.and_eq_false_iff, decide_eq_false_iff_not, ge_iff_le,
    UInt32.le_iff_toNat_le]
  change ¬ 48 ≤ c.toNat ∨ ¬ c.toNat ≤ 57
  omega

theorem isBlank_of_isAlpha : isBlank c = false := by
  obtain ⟨low, high⟩ := toNat_of_isAlpha letter
  simp only [isBlank, inRanges, blankRanges, List.any_cons, List.any_nil, Bool.or_false,
    Bool.or_eq_false_iff, Bool.and_eq_false_iff, decide_eq_false_iff_not]
  omega

theorem startsName_of_isAlpha : startsName c = true := by
  obtain ⟨low, high⟩ := toNat_of_isAlpha letter
  rw [startsName, isLetter, if_pos (by omega), letter]
  rfl

end Text

/-! ## Its lexemes and its token -/

section Application

variable {list formal : Char} {body : List Char}

theorem Lexeme.read_letter (letter : list.isAlpha = true) (s : List Char) :
    read list (':' :: s) = .ok ⟨.name (String.ofList [list]), [list], ':' :: s⟩ := by
  have noMark : Mark.ofChar? list = none := by
    cases known : Mark.ofChar? list with
    | none => rfl
    | some m =>
      have same := Mark.toChar_of_ofChar? known
      cases m <;> exact absurd same.symm (Text.ne_of_isAlpha letter (by decide))
  have stops : Text.continuesName ':' = false := by decide
  rw [read, noMark]
  simp [Text.ne_of_isAlpha letter, Text.isDigit_of_isAlpha letter,
    Text.startsName_of_isAlpha letter, stops]

/-- What stands between the braces of an inline template. -/
def headed (formal : Char) (body : List Char) : List Char := formal :: ' ' :: '|' :: ' ' :: body

theorem bracedText?_headed (letter : formal.isAlpha = true) (isBody : IsBody body) :
    Lexeme.bracedText? 0 (headed formal body ++ ['}']) = some (headed formal body, []) := by
  simp only [headed, List.cons_append]
  rw [Lexeme.bracedText?_other (Text.ne_of_isAlpha letter (by decide))
    (Text.ne_of_isAlpha letter (by decide)) (Text.ne_of_isAlpha letter (by decide))]
  simp [Lexeme.bracedText?, show Lexeme.bracedText? 0 (body ++ ['}']) = _ from isBody]

theorem scan_application (letter : list.isAlpha = true) (letter' : formal.isAlpha = true)
    (isBody : IsBody body) (pos : Position) :
    ∃ pos₁ pos₂ stop, Lexeme.scan pos (application list formal body) =
      .ok ⟨[⟨.name (String.ofList [list]), pos⟩, ⟨.mark .colon, pos₁⟩,
        ⟨.inline (headed formal body), pos₂⟩], stop⟩ := by
  have braces : Lexeme.read '{' (headed formal body ++ ['}']) =
      .ok ⟨.inline (headed formal body), '{' :: headed formal body ++ ['}'], []⟩ := by
    have noMark : Mark.ofChar? '{' = none := by decide
    simp [Lexeme.read, noMark, bracedText?_headed letter' isBody]
  have colon (s : List Char) : Lexeme.read ':' s = .ok ⟨.mark .colon, [':'], s⟩ := rfl
  unfold application
  rw [Lexeme.scan_of_read (Text.isBlank_of_isAlpha letter) (Lexeme.read_letter letter _)]
  dsimp only
  rw [Lexeme.scan_of_read (by decide) (colon _)]
  dsimp only
  rw [show formal :: ' ' :: '|' :: ' ' :: (body ++ ['}']) = headed formal body ++ ['}'] from rfl,
    Lexeme.scan_of_read (by decide) braces]
  dsimp only
  rw [Lexeme.scan]
  exact ⟨_, _, _, rfl⟩

theorem ofSource_applied {d : Delimiters} (builtIn : d.IsBuiltIn) (letter : list.isAlpha = true)
    (letter' : formal.isAlpha = true) (isBody : IsBody body) :
    Token.ofSource d (d.applied list formal body) =
      .ok [.expr (application list formal body) none (Position.start.step d.start)] := by
  obtain ⟨_, _, _, scanned⟩ := scan_application letter letter' isBody .start
  have starts : Text.trimStart (application list formal body) = application list formal body :=
    List.dropWhile_cons_of_neg (by rw [Text.isBlank_of_isAlpha letter]; decide)
  have alone : Text.trim (application list formal body) = application list formal body := by
    have ends : application list formal body =
        (list :: ':' :: '{' :: headed formal body) ++ ['}'] := rfl
    rw [Text.trim, starts, Text.trimEnd, ends, List.reverse_append, List.reverse_singleton,
      List.singleton_append, List.dropWhile_cons_of_neg (by decide), List.reverse_cons,
      List.reverse_reverse]
  have noMarker (pos : Position) : Token.marker? (application list formal body) pos = none := by
    rw [Token.marker?, alone]
    simp [application, Token.conditionOf?, Text.dropWord?]
  have noEscape : Token.escapeChunk? (application list formal body) = none := by
    have first : Token.escapedText? (application list formal body) = none := by
      simp [Token.escapedText?, application, Token.escapes?, Text.ne_of_isAlpha letter]
    rw [Token.escapeChunk?, starts, alone, first]
    rfl
  have noComment : (application list formal body).head? ≠ some '!' := by
    simp [application, Text.ne_of_isAlpha letter]
  exact Token.ofSource_expression builtIn scanned noComment noMarker noEscape

/-! ## Its chunk -/

theorem splitFormals_headed (letter : formal.isAlpha = true) (body : List Char) :
    (Grammar.splitFormals (headed formal body)).1 = [String.ofList [formal]] ∧
      (Grammar.splitFormals (headed formal body)).2.1 = Text.trimStart body := by
  have blank : Text.isBlank ' ' = true := by decide
  have bar : Text.splitAtWord? ['|'] (headed formal body) =
      some ([formal, ' '], ' ' :: body) := by
    have other : '|' ≠ formal := (Text.ne_of_isAlpha letter (by decide)).symm
    simp [headed, Text.splitAtWord?, Text.dropWord?, other]
  have names : (Text.splitOn ',' [formal, ' ']).map Text.trim = [[formal]] := by
    simp [Text.splitOn, Text.ne_of_isAlpha letter, Text.trim, Text.trimStart, Text.trimEnd,
      Text.isBlank_of_isAlpha letter, blank]
  have allNames : [[formal]].all Text.isName = true := by
    simp [Text.isName, Text.startsName_of_isAlpha letter]
  have trimmed : Text.trimStart (' ' :: body) = Text.trimStart body :=
    List.dropWhile_cons_of_pos blank
  rw [Grammar.splitFormals, bar]
  simp only [names, allNames, if_true, trimmed, List.map_singleton, and_self]

/-- The chunk that applies an inline template to an attribute. -/
def Chunk.applying (list : Char) (t : Template) : Chunk :=
  .expression (.apply (.attribute (String.ofList [list])) [.inline t]) .none none

/-- Applying an inline template compiles to one chunk, the template's own body in it. -/
theorem compileChunks_applied {d : Delimiters} (builtIn : d.IsBuiltIn) (name : String)
    (letter : list.isAlpha = true) (letter' : formal.isAlpha = true) (isBody : IsBody body) :
    let inner := name ++ "_anon" ++ toString 1
    let compiled := compileChunks d inner (Grammar.unescapeBraces (Text.trimStart body))
    ∃ base, compileChunks d name (d.applied list formal body) =
      ([.applying list ⟨inner, [String.ofList [formal]], compiled.1, true, none⟩],
        compiled.2.map (Grammar.shiftError base)) := by
  intro inner compiled
  obtain ⟨formals, inside⟩ := splitFormals_headed letter' body
  have same : Grammar.inlineBody (headed formal body) =
      Grammar.unescapeBraces (Text.trimStart body) := congrArg Grammar.unescapeBraces inside
  have within : (Grammar.unescapeBraces (Text.trimStart body)).length <
      (d.applied list formal body).length := by
    have trimmed : (Text.trimStart body).length ≤ body.length :=
      (List.dropWhile_sublist _).length_le
    have once := Text.length_dropBefore_le '\\' '{' (Text.trimStart body)
    have twice := Text.length_dropBefore_le '\\' '}'
      (Text.dropBefore '\\' '{' (Text.trimStart body))
    simp only [Grammar.unescapeBraces, Delimiters.applied, application, List.length_cons,
      List.length_append]
    omega
  obtain ⟨pos₁, pos₂, stop, scanned⟩ :=
    scan_application letter letter' isBody (Position.start.step d.start)
  have parsed (ctx : ParseContext) :
      Grammar.parseAction ctx (Position.start.step d.start) (application list formal body) =
        let compiled := ctx.compileInline (ctx.owner ++ "_anon" ++ toString 1)
          (Grammar.inlineBody (headed formal body))
        ((.apply (.attribute (String.ofList [list]))
            [.inline ⟨ctx.owner ++ "_anon" ++ toString 1,
              (Grammar.splitFormals (headed formal body)).1, compiled.1, true, none⟩], .none),
          compiled.2.map (Grammar.shiftError (pos₂.right
            (1 + (Grammar.splitFormals (headed formal body)).2.2)))) := by
    rw [Grammar.parseAction, Grammar.parseAll, scanned]
    rfl
  simp only [same, formals] at parsed
  rw [compileChunks_of_ok (ofSource_applied builtIn letter letter' isBody),
    Assembly.ofTokens_nested (.leaf rfl .nil)]
  simp only [parsed, Token.errors, Chunk.join, within, if_true, List.flatMap_cons,
    List.flatMap_nil, List.append_nil]
  exact ⟨_, rfl⟩

end Application

/-! ## One in the other -/

section Nested

variable {d : Delimiters} {list formal : Char} {body : List Char}

theorem trimStart_applied (builtIn : d.IsBuiltIn) (list formal : Char) (body : List Char) :
    Text.trimStart (d.applied list formal body) = d.applied list formal body :=
  List.dropWhile_cons_of_neg (by rcases builtIn with rfl | rfl <;> decide)

/-- A source that applies an inline template can stand in braces. -/
theorem isBody_applied (builtIn : d.IsBuiltIn) (letter : list.isAlpha = true)
    (letter' : formal.isAlpha = true) (isBody : IsBody body) :
    IsBody (d.applied list formal body) := by
  have other {c : Char} (plain : c ≠ '\\' ∧ c ≠ '{' ∧ c ≠ '}') (s : List Char) :
      Lexeme.bracedText? 0 (c :: s) =
        (Lexeme.bracedText? 0 s).map fun parts => (c :: parts.1, parts.2) :=
    Lexeme.bracedText?_other plain.1 plain.2.1 plain.2.2
  have start : d.start ≠ '\\' ∧ d.start ≠ '{' ∧ d.start ≠ '}' := by
    rcases builtIn with rfl | rfl <;> decide
  have stop : d.stop ≠ '\\' ∧ d.stop ≠ '{' ∧ d.stop ≠ '}' := by
    rcases builtIn with rfl | rfl <;> decide
  have name : list ≠ '\\' ∧ list ≠ '{' ∧ list ≠ '}' :=
    ⟨Text.ne_of_isAlpha letter (by decide), Text.ne_of_isAlpha letter (by decide),
      Text.ne_of_isAlpha letter (by decide)⟩
  have braces := Lexeme.bracedText?_append (bracedText?_headed letter' isBody) 0 [d.stop, '}']
  have closes : Lexeme.bracedText? 0 ['}'] = some ([], []) := rfl
  have split : d.applied list formal body ++ ['}'] = d.start :: list :: ':' :: '{' ::
      (headed formal body ++ ['}'] ++ [d.stop, '}']) := by
    simp [Delimiters.applied, application, headed]
  have opens (s : List Char) : Lexeme.bracedText? 0 ('{' :: s) =
      (Lexeme.bracedText? 1 s).map fun parts => ('{' :: parts.1, parts.2) := rfl
  rw [IsBody, split, other start, other name, other (by decide), opens, braces, List.nil_append,
    other stop, closes]
  simp [Delimiters.applied, application, headed]

/-- Its braces stand behind no backslash if those of the body do not. -/
theorem unescapeBraces_applied (builtIn : d.IsBuiltIn) (letter : list.isAlpha = true)
    (letter' : formal.isAlpha = true) (unescaped : EscapesNoBrace body) :
    Grammar.unescapeBraces (d.applied list formal body) = d.applied list formal body := by
  have once := Text.length_dropBefore_le '\\' '{' (body ++ ['}'])
  have twice := Text.length_dropBefore_le '\\' '}' (Text.dropBefore '\\' '{' (body ++ ['}']))
  have whole := congrArg List.length
    (show Text.dropBefore '\\' '}' (Text.dropBefore '\\' '{' (body ++ ['}'])) = _ from unescaped)
  have first : Text.dropBefore '\\' '{' (body ++ ['}']) = body ++ ['}'] :=
    Text.dropBefore_eq_self (by omega)
  have second : Text.dropBefore '\\' '}' (body ++ ['}']) = body ++ ['}'] :=
    Text.dropBefore_eq_self (by rw [first] at whole; omega)
  have start : d.start ≠ '\\' := builtIn.start_ne_backslash
  have keeps {brace : Char} (kept : Text.dropBefore '\\' brace (body ++ ['}']) = body ++ ['}']) :
      Text.dropBefore '\\' brace (d.applied list formal body) = d.applied list formal body := by
    have split : d.applied list formal body = d.start :: list :: ':' :: '{' :: formal :: ' ' ::
        '|' :: ' ' :: (body ++ '}' :: [d.stop]) := by
      simp [Delimiters.applied, application]
    have name : list ≠ '\\' := Text.ne_of_isAlpha letter (by decide)
    have name' : formal ≠ '\\' := Text.ne_of_isAlpha letter' (by decide)
    rw [split]
    repeat rw [Text.dropBefore_cons_of_ne (by first | assumption | decide)]
    rw [Text.dropBefore_append_cons (by decide), kept, List.append_assoc]
    rfl
  rw [Grammar.unescapeBraces, keeps first, keeps second]

/-- An inline template that escapes no brace is compiled to the same formals and chunks, up to names,
inside another one as where it stands for itself. -/
theorem nested_inline_compiles (builtIn : d = .dollar ∨ d = .angle) (name : String)
    (isBody : IsBody body) (unescaped : EscapesNoBrace body) {t : Template}
    (compiled : Template.compile d name (.ofList (d.applied 'v' 'y' body)) = .ok t) :
    ∃ t' outer inner inner' : Template,
      Template.compile d name (.ofList (d.applied 'u' 'x' (d.applied 'v' 'y' body))) = .ok t' ∧
      t.chunks = [.applying 'v' inner] ∧
      t'.chunks = [.applying 'u' outer] ∧ outer.chunks = [.applying 'v' inner'] ∧
      inner'.formals = inner.formals ∧
      inner'.chunks.map (Chunk.rename unnamed) = inner.chunks.map (Chunk.rename unnamed) := by
  have letters : 'u'.isAlpha = true ∧ 'x'.isAlpha = true ∧ 'v'.isAlpha = true ∧
      'y'.isAlpha = true := by decide
  obtain ⟨u, x, v, y⟩ := letters
  have isBody' := isBody_applied builtIn v y isBody
  obtain ⟨base, alone⟩ := compileChunks_applied builtIn name v y isBody
  obtain ⟨base₁, inside⟩ := compileChunks_applied builtIn (name ++ "_anon" ++ toString 1) v y isBody
  obtain ⟨base₂, around⟩ := compileChunks_applied builtIn name u x isBody'
  rw [trimStart_applied builtIn, unescapeBraces_applied builtIn v y unescaped, inside] at around
  obtain ⟨clean, rfl⟩ := Template.compile_eq_ok_iff.1 compiled
  have alike := compileChunks_alike d (name ++ "_anon" ++ toString 1 ++ "_anon" ++ toString 1)
    (name ++ "_anon" ++ toString 1) (Grammar.unescapeBraces (Text.trimStart body))
  rw [alone, List.map_eq_nil_iff] at clean
  have clean' := alike.2.2 clean
  rw [clean', List.map_nil, List.map_nil] at around
  refine ⟨_, _, _, _, Template.compile_eq_ok_iff.2 ⟨congrArg Prod.snd around, rfl⟩,
    congrArg Prod.fst alone, congrArg Prod.fst around, rfl, rfl, alike.1⟩

/-- `$u:{x | $v:{y | $y:{z | {\\ }}$}$}$` -/
theorem thrice_nested_compiles :
    let body := Delimiters.dollar.applied 'y' 'z' ['{', '\\', '\\', ' ', '}']
    ∃ t t' outer inner inner' : Template,
      Template.compile .dollar "page" (.ofList (Delimiters.dollar.applied 'v' 'y' body)) = .ok t ∧
      Template.compile .dollar "page" (.ofList (Delimiters.dollar.applied 'u' 'x'
        (Delimiters.dollar.applied 'v' 'y' body))) = .ok t' ∧
      t.chunks = [.applying 'v' inner] ∧
      t'.chunks = [.applying 'u' outer] ∧ outer.chunks = [.applying 'v' inner'] ∧
      inner'.formals = inner.formals ∧
      inner'.chunks.map (Chunk.rename unnamed) = inner.chunks.map (Chunk.rename unnamed) := by
  let text : List Char := ['{', '\\', '\\', ' ', '}']
  intro body
  have letters : 'v'.isAlpha = true ∧ 'y'.isAlpha = true ∧ 'z'.isAlpha = true := by decide
  obtain ⟨v, y, z⟩ := letters
  have isText : IsBody text := rfl
  have escapesNone : EscapesNoBrace text := rfl
  have isBody : IsBody body := isBody_applied (.inl rfl) y z isText
  have unescaped : EscapesNoBrace body := rfl
  have clean : (compileChunks .dollar "page" (Delimiters.dollar.applied 'v' 'y' body)).2 = [] := by
    obtain ⟨base, around⟩ := compileChunks_applied (.inl rfl) "page" v y isBody
    obtain ⟨base', inside⟩ := compileChunks_applied (.inl rfl) ("page" ++ "_anon" ++ toString 1) y z
      isText
    have read : (compileChunks .dollar ("page" ++ "_anon" ++ toString 1 ++ "_anon" ++ toString 1)
        (Grammar.unescapeBraces (Text.trimStart text))).2 = [] := by
      cbv
    rw [trimStart_applied (.inl rfl), unescapeBraces_applied (.inl rfl) y z escapesNone, inside,
      read] at around
    exact congrArg Prod.snd around
  have compiled := Template.compile_eq_ok_iff.2 ⟨clean, rfl⟩
  obtain ⟨t', outer, inner, inner', nested⟩ :=
    nested_inline_compiles (.inl rfl) "page" isBody unescaped compiled
  exact ⟨_, t', outer, inner, inner', compiled, nested⟩

/-- A brace that is escaped in a body ends it where the body is nested. -/
theorem escaped_brace_breaks_nesting :
    let body := ['a', '\\', '}', 'b']
    (∃ t, Template.compile .dollar "page" (.ofList (Delimiters.dollar.applied 'v' 'y' body)) = .ok t) ∧
    ∀ t, Template.compile .dollar "page" (.ofList (Delimiters.dollar.applied 'u' 'x'
      (Delimiters.dollar.applied 'v' 'y' body))) ≠ .ok t := by
  intro body
  have letters : 'u'.isAlpha = true ∧ 'x'.isAlpha = true ∧ 'v'.isAlpha = true ∧
      'y'.isAlpha = true := by decide
  obtain ⟨u, x, v, y⟩ := letters
  have isBody : IsBody body := rfl
  have clean : (compileChunks .dollar "page" (Delimiters.dollar.applied 'v' 'y' body)).2 = [] := by
    obtain ⟨base, alone⟩ := compileChunks_applied (.inl rfl) "page" v y isBody
    have read : (compileChunks .dollar ("page" ++ "_anon" ++ toString 1)
        (Grammar.unescapeBraces (Text.trimStart body))).2 = [] := by
      cbv
    rw [read] at alone
    exact congrArg Prod.snd alone
  have broken : (compileChunks .dollar "page" (Delimiters.dollar.applied 'u' 'x'
      (Delimiters.dollar.applied 'v' 'y' body))).2 ≠ [] := by
    let left : List Char := ['v', ':', '{', 'y', ' ', '|', ' ', 'a', '}', 'b', '}']
    obtain ⟨base, around⟩ := compileChunks_applied (.inl rfl) "page" u x
      (isBody_applied (.inl rfl) v y isBody)
    have dropped : Grammar.unescapeBraces (Text.trimStart (Delimiters.dollar.applied 'v' 'y' body)) =
        '$' :: (left ++ ['$']) := rfl
    have chunked : Token.chunk .dollar .start none (left ++ ['$']) =
        .ok ⟨[.expr left none ⟨1, 2⟩], ⟨1, 14⟩, []⟩ := by
      cbv
    have tokens : Token.ofSource .dollar ('$' :: (left ++ ['$'])) = .ok [.expr left none ⟨1, 2⟩] := by
      have taken : Token.step .dollar .start '$' (left ++ ['$']) = _ :=
        (Token.step_start (.inl rfl) .start (by decide)).trans chunked
      rw [Token.ofSource, Token.pieces_of_step taken, Token.pieces]
      rfl
    have unscanned : Lexeme.scan ⟨1, 2⟩ left =
        .error (.malformed ⟨1, 12⟩ (.unexpectedCharacter '}')) := by
      cbv
    rw [dropped, compileChunks_of_ok tokens, Assembly.ofTokens_nested (.leaf rfl .nil)] at around
    rw [around]
    simp [Token.errors, Grammar.parseAction, Grammar.parseAll, unscanned]
  exact ⟨⟨_, Template.compile_eq_ok_iff.2 ⟨clean, rfl⟩⟩,
    fun t compiled => broken (Template.compile_eq_ok_iff.1 compiled).1⟩

end Nested

end Stencil
