import Stencil.Proofs.Places.Markers
import Stencil.Proofs.Scanning.Shorter
/-!
# Positions in nested parts

A template is read in parts: expressions and conditions, which are parsed, and the bodies of inline
templates in them, which are templates again. What is wrong with a part is found where it stands by
itself and shifted to the places around it, level by level. The shift is a true one where the part
is reached without leaving the line, and where the characters in front of it are counted right.
-/
namespace Stencil

open Text (Position)
open Grammar (bodyBase shiftError inlineBody splitFormals)
open Token (ReportedIn)

/-- What is read by itself: a template, the expression of a chunk, the condition of a marker. -/
inductive Part where
  | template (source : List Char)
  | action (source : List Char)
  | condition (source : List Char)

/-- Nothing is wrong with the bodies of inline templates. -/
def ParseContext.Silent (ctx : ParseContext) : Prop :=
  ∀ name body, (ctx.compileInline name body).2 = []

theorem ParseContext.silent_silent (ctx : ParseContext) : ctx.silent.Silent := fun _ _ => rfl

namespace Part

variable {d : Delimiters} {part outer middle inner : Part} {lead lead' : List Char}
  {base : Position} {straight straight' : Prop} {move move' : TemplateError → TemplateError}
  {e : TemplateError}

def source : Part → List Char
  | template source => source
  | action source => source
  | condition source => source

/-- The part is parsed. -/
def IsParsed (part : Part) : Prop := ∃ source, part = .action source ∨ part = .condition source

/-- `inner` stands in `outer` behind the characters `lead`, and its places are counted from `base`.
They are counted right if `straight`: the characters between a marker's start delimiter and its
condition stand on one line, so do those between the brace of an inline template and its body, their
number is right, and the body escapes no brace. -/
inductive Contains (d : Delimiters) : Part → List Char → Position → Prop → Part → Prop
  | action {source front text rest : List Char} {indent? : Option (List Char)}
    {tokens : List Token} :
    Token.ofSource d source = .ok tokens →
    .expr text indent? (.after .start (front ++ [d.start])) ∈ tokens →
    source = front ++ d.start :: (text ++ d.stop :: rest) →
    Contains d (.template source) (front ++ [d.start]) (.after .start (front ++ [d.start])) True
      (.action text)
  | condition {source front lead text rest : List Char} {token : Token} {tokens : List Token} :
    Token.ofSource d source = .ok tokens → token ∈ tokens →
    token.Tries text lead.length (.after .start (front ++ [d.start])) →
    source = front ++ d.start :: (lead ++ (text ++ rest)) →
    Contains d (.template source) (front ++ d.start :: lead)
      ((Position.start.after (front ++ [d.start])).right lead.length) ('\n' ∉ lead)
      (.condition text)
  | body {outer : Part} {lexemes : Lexemes} {raw front header rest : List Char} :
    outer.IsParsed → Lexeme.scan .start outer.source = .ok lexemes →
    ⟨.inline raw, .after .start front⟩ ∈ lexemes.items →
    outer.source = front ++ '{' :: (raw ++ '}' :: rest) → raw = header ++ (splitFormals raw).2.1 →
    Contains d outer (front ++ '{' :: header) (bodyBase (.after .start front) raw)
      ('\n' ∉ header ∧ (splitFormals raw).2.2 = header.length ∧
        inlineBody raw = (splitFormals raw).2.1)
      (.template (inlineBody raw))

/-- `inner` is nested in `outer`, behind the characters `lead`; what is reported of it alone is
reported of `outer` as `move` says. -/
inductive Nests (d : Delimiters) :
    Part → List Char → (TemplateError → TemplateError) → Prop → Part → Prop
  | here (part : Part) : Nests d part [] id True part
  | inside {outer middle inner : Part} {lead lead' : List Char} {base : Position}
    {straight straight' : Prop} {move : TemplateError → TemplateError} :
    Contains d outer lead base straight middle → Nests d middle lead' move straight' inner →
    Nests d outer (lead ++ lead') (shiftError base ∘ move) (straight ∧ straight') inner

/-- What is reported of a part itself, and not of the parts inside of it. -/
inductive Own (d : Delimiters) : Part → TemplateError → Prop
  | lexical {source : List Char} {e : TemplateError} :
    Token.ofSource d source = .error e → Own d (.template source) e
  | marker {source : List Char} {tokens : List Token} {ctx : ParseContext} {e : TemplateError} :
    Token.ofSource d source = .ok tokens → e ∈ Assembly.empty.reports ctx tokens →
    Own d (.template source) e
  | action {source : List Char} {ctx : ParseContext} {e : TemplateError} :
    ctx.Silent → e ∈ (Grammar.parseAction ctx .start source).2 → Own d (.action source) e
  | condition {source : List Char} {ctx : ParseContext} {e : TemplateError} :
    ctx.Silent → e ∈ (Grammar.parseCondition ctx .start source).2 → Own d (.condition source) e

/-! ## Places -/

theorem reportedIn_of_parseAll {α : Type} {parser : ParseContext → Grammar → Parse α}
    {default : α} {ctx : ParseContext} {source : List Char} (along : Grammar.MatchesAlong parser)
    (silent : ctx.Silent) :
    ∀ e ∈ (Grammar.parseAll ctx (parser ctx) default .start source).2,
      ReportedIn .start source e := by
  intro e member
  rcases scanned : Lexeme.scan .start source with e' | lexemes
  · rw [Grammar.parseAll, scanned] at member
    obtain rfl := List.mem_singleton.1 member
    obtain ⟨before, c, rest, problem, rfl, -, -, rfl⟩ :=
      Lexeme.exists_of_scan_error (show Lexeme.scan (.after .start []) source = _ from scanned)
    exact ⟨before, problem, List.prefix_append _ _, rfl⟩
  · obtain ⟨placed, stop⟩ :=
      Lexeme.placed_of_scan (show Lexeme.scan (.after .start []) source = _ from scanned)
    cases Grammar.reported_of_parseAll along scanned e member with
    | lexeme problem inside =>
      obtain ⟨before, c, rest, r, whole, -, -, place⟩ := placed.exists_read inside
      exact ⟨before, problem, whole ▸ List.prefix_append _ _, by rw [place]; rfl⟩
    | stop problem => exact ⟨source, problem, List.prefix_refl _, by rw [stop]; rfl⟩
    | body inBody =>
      obtain ⟨-, -, wrong⟩ := inBody
      rw [silent] at wrong
      cases wrong

/-- What is reported of a part itself is reported at one of its characters or at its end. -/
theorem Own.reportedIn (own : part.Own d e) : ReportedIn .start part.source e := by
  cases own with
  | lexical broken => exact Token.reportedIn_of_ofSource_error broken
  | marker read member =>
    obtain ⟨pos, problem, rfl, open_ | ⟨token, among, marked⟩⟩ :=
      Assembly.exists_of_mem_reports member
    · cases open_
    · obtain ⟨front, payload, rest, rfl, rfl, -⟩ := Token.exists_of_marker read among marked
      refine ⟨front ++ [d.start], problem, ⟨payload ++ d.stop :: rest, ?_⟩, rfl⟩
      exact List.append_assoc front [d.start] _
  | action silent member => exact reportedIn_of_parseAll Grammar.matchesAlong_action silent e member
  | condition silent member =>
    exact reportedIn_of_parseAll Grammar.matchesAlong_condition silent e member

theorem Contains.counts (contains : Contains d outer lead base straight inner) : base.Counts := by
  cases contains with
  | action => exact Position.counts_start.after _
  | condition => exact (Position.counts_start.after _).right _
  | body => exact (Position.counts_start.after _).right _

theorem Nests.counts (nests : Nests d outer lead move straight inner) (counts : e.Counts) :
    (move e).Counts := by
  induction nests with
  | here => exact counts
  | inside contains _ ih => exact ih.shift contains.counts

/-- A part that is contained straight stands where its places are counted from. -/
theorem Contains.true_of_straight (contains : Contains d outer lead base straight inner)
    (isStraight : straight) :
    base = .after .start lead ∧ lead ++ inner.source <+: outer.source := by
  cases contains with
  | @action source front text rest _ _ _ _ whole =>
    refine ⟨rfl, d.stop :: rest, ?_⟩
    rw [whole]
    simp [Part.source]
  | @condition source front lead text rest _ _ _ _ _ whole =>
    refine ⟨?_, rest, ?_⟩
    · rw [← Position.after_of_unbroken isStraight, ← Position.after_append]
      simp
    · rw [whole]
      simp [Part.source]
  | @body _ _ raw front header rest _ _ _ whole split =>
    obtain ⟨unbroken, distance, unescaped⟩ := isStraight
    have oneLine : '\n' ∉ '{' :: header := by simp [unbroken]
    refine ⟨?_, '}' :: rest, ?_⟩
    · rw [bodyBase, distance, Position.after_append, Position.after_of_unbroken oneLine,
        List.length_cons, Nat.add_comm]
    · rw [whole, Part.source, unescaped]
      conv_rhs => rw [split]
      simp

/-- What is reported of a part that is nested straight is reported at its place in the whole. -/
theorem Nests.true_of_straight (nests : Nests d outer lead move straight inner)
    (isStraight : straight) {front : List Char} (inside : front <+: inner.source)
    (problem : SourceProblem) :
    move (.malformed (.after .start front) problem) =
        .malformed (.after .start (lead ++ front)) problem ∧
      lead ++ front <+: outer.source := by
  induction nests with
  | here => exact ⟨rfl, inside⟩
  | @inside outer middle inner lead lead' base _ _ move contains _ ih =>
    obtain ⟨here, deeper⟩ := isStraight
    obtain ⟨moved, within⟩ := ih deeper inside
    obtain ⟨rfl, stands⟩ := contains.true_of_straight here
    refine ⟨?_, ?_⟩
    · rw [Function.comp_apply, moved, shiftError, Position.shift_start_after,
        ← Position.after_append, List.append_assoc]
    · rw [List.append_assoc]
      exact ((List.prefix_append_right_inj lead).2 within).trans stands

/-! ## Explanations -/

/-- The error is one of a nested part itself, moved to its place. -/
def Explained (d : Delimiters) (outer : Part) (e : TemplateError) : Prop :=
  ∃ lead move straight inner e', Nests d outer lead move straight inner ∧ inner.Own d e' ∧
    e = move e'

theorem Own.explained (own : part.Own d e) : Explained d part e :=
  ⟨[], id, True, part, e, .here part, own, rfl⟩

theorem Explained.within (explained : Explained d inner e)
    (contains : Contains d outer lead base straight inner) :
    Explained d outer (shiftError base e) := by
  obtain ⟨lead', move, straight', part, e', nests, own, rfl⟩ := explained
  exact ⟨_, _, _, part, e', .inside contains nests, own, rfl⟩

theorem Explained.counts (explained : Explained d part e) : e.Counts := by
  obtain ⟨lead, move, straight, inner, e', nests, own, rfl⟩ := explained
  obtain ⟨front, problem, -, rfl⟩ := own.reportedIn
  exact nests.counts (Position.counts_start.after front)

theorem exists_splitFormals (raw : List Char) :
    ∃ header, raw = header ++ (splitFormals raw).2.1 := by
  unfold splitFormals
  split
  · exact ⟨[], rfl⟩
  · rename_i header behind split
    dsimp only
    split
    · refine ⟨header ++ ['|'] ++ behind.takeWhile Text.isBlank, ?_⟩
      rw [List.append_assoc, Text.trimStart_append]
      exact Text.eq_of_splitAtWord? split
    · exact ⟨[], rfl⟩

theorem explained_of_parseAll {α : Type} {parser : ParseContext → Grammar → Parse α}
    {default : α} {ctx : ParseContext} (along : Grammar.MatchesAlong parser)
    (parsed : part.IsParsed)
    (own : ∀ ctx : ParseContext, ctx.Silent →
      ∀ e ∈ (Grammar.parseAll ctx (parser ctx) default .start part.source).2, part.Own d e)
    (bodies : ∀ name body, ∀ e ∈ (ctx.compileInline name body).2, Explained d (.template body) e) :
    ∀ e ∈ (Grammar.parseAll ctx (parser ctx) default .start part.source).2, Explained d part e := by
  intro e member
  rcases scanned : Lexeme.scan .start part.source with e' | lexemes
  · refine (own ctx.silent ctx.silent_silent e ?_).explained
    rw [Grammar.parseAll, scanned] at member ⊢
    exact member
  · rcases Grammar.own_or_inBody_of_parseAll along scanned e member with itself | inBody
    · exact (own ctx.silent ctx.silent_silent e itself).explained
    · obtain ⟨inside, symbol, wrong⟩ := inBody
      rename_i l raw name e
      obtain ⟨placed, -⟩ :=
        Lexeme.placed_of_scan (show Lexeme.scan (.after .start []) part.source = _ from scanned)
      obtain ⟨front, c, more, r, whole, done, same, place⟩ := placed.exists_read inside
      obtain ⟨header, split⟩ := exists_splitFormals raw
      have written := Lexeme.written_of_read_inline done (same.symm.trans symbol)
      have stands : part.source = front ++ '{' :: (raw ++ '}' :: r.rest) := by
        rw [whole, (Lexeme.eq_of_read done).1, written]
        simp
      have member : ⟨.inline raw, .after .start front⟩ ∈ lexemes.items := by
        rw [← symbol, show Position.start.after front = l.pos from place.symm]
        exact inside
      have contains := Contains.body (d := d) parsed scanned member stands split
      exact place ▸ (bodies name _ e wrong).within contains

/-- What is reported of a token is explained by its expression or condition. -/
theorem explained_of_mem_errors {source : List Char} {tokens : List Token} {ctx : ParseContext}
    (read : Token.ofSource d source = .ok tokens)
    (bodies : ∀ name body, ∀ e ∈ (ctx.compileInline name body).2, Explained d (.template body) e)
    {token : Token} (among : token ∈ tokens) :
    ∀ e ∈ token.errors ctx, Explained d (.template source) e := by
  have counts : ctx.Counts := fun name body e inside => (bodies name body e inside).counts
  have tried {text : List Char} {offset : Nat} {pos : Position}
      (tries : token.Tries text offset pos) (marked : token.marked? = some pos) :
      ∀ e ∈ (Grammar.parseCondition ctx (pos.right offset) text).2,
        Explained d (.template source) e := by
    intro e member
    obtain ⟨front, payload, rest, whole, rfl, found⟩ := Token.exists_of_marker read among marked
    obtain ⟨lead, more, rfl, rfl⟩ := Token.exists_of_marker? found tries
    rw [Grammar.parseCondition, Grammar.parseAll_shift Grammar.matchesAlong_condition counts]
      at member
    obtain ⟨e', alone, rfl⟩ := List.mem_map.1 member
    have explained : Explained d (.condition text) e' :=
      explained_of_parseAll Grammar.matchesAlong_condition ⟨text, .inr rfl⟩
        (fun _ silent _ => .condition silent) bodies e' alone
    exact explained.within (.condition read among tries (by simpa using whole))
  cases token with
  | expr text indent? pos =>
    intro e member
    obtain ⟨before, after, rfl⟩ := List.append_of_mem among
    obtain ⟨front, rest, -, whole, -, rfl, -⟩ := Token.exists_of_expression read
    rw [Token.errors, Grammar.parseAction,
      Grammar.parseAll_shift Grammar.matchesAlong_action counts] at member
    obtain ⟨e', alone, rfl⟩ := List.mem_map.1 member
    have explained : Explained d (.action text) e' :=
      explained_of_parseAll Grammar.matchesAlong_action ⟨text, .inl rfl⟩
        (fun _ silent _ => .action silent) bodies e' alone
    exact explained.within (.action read among whole)
  | ifMark text offset pos => exact tried (.inl rfl) rfl
  | elseifMark text offset pos => exact tried (.inr rfl) rfl
  | text => exact List.forall_mem_nil _
  | newline => exact List.forall_mem_nil _
  | elseMark => exact List.forall_mem_nil _
  | endifMark => exact List.forall_mem_nil _

theorem explained_of_compileChunks (d : Delimiters) (name : String) (source : List Char) :
    ∀ e ∈ (compileChunks d name source).2, Explained d (.template source) e := by
  induction length : source.length using Nat.strongRecOn generalizing source name with
  | _ n ih =>
    intro e member
    cases read : Token.ofSource d source with
    | error broken =>
      rw [compileChunks_of_error read] at member
      obtain rfl := List.mem_singleton.1 member
      exact (Own.lexical read).explained
    | ok tokens =>
      rw [compileChunks_of_ok read] at member
      let ctx : ParseContext := ⟨name, fun name body =>
        if body.length < source.length then compileChunks d name body else ([], [])⟩
      have bodies (name : String) (body : List Char) :
          ∀ e ∈ (ctx.compileInline name body).2, Explained d (.template body) e := by
        dsimp only [ctx]
        split
        · rename_i shorter
          exact ih _ (length ▸ shorter) name body rfl
        · nofun
      have errors := Assembly.errors_perm ctx tokens .empty
      rcases List.mem_append.1 (errors.mem_iff.1 member) with nothing | found
      · cases nothing
      · rcases List.mem_append.1 found with inTokens | aboutMarkers
        · obtain ⟨token, among, here⟩ := List.mem_flatMap.1 inTokens
          exact explained_of_mem_errors read bodies among e here
        · exact (Own.marker read aboutMarkers).explained

/-- Every error of a source is one that some part of it has itself, at one of its characters or at
its end, moved to the places around the part. Where the part is nested straight, that is the place
of this character in the whole source. -/
theorem nested_errors_placed (d : Delimiters) (name : String) (source : List Char) :
    ∀ e ∈ (compileChunks d name source).2,
      ∃ lead move straight inner front problem,
        Nests d (.template source) lead move straight inner ∧
        inner.Own d (.malformed (.after .start front) problem) ∧ front <+: inner.source ∧
        e = move (.malformed (.after .start front) problem) ∧
        (straight → e = .malformed (.after .start (lead ++ front)) problem ∧
          lead ++ front <+: source) := by
  intro e member
  obtain ⟨lead, move, straight, inner, e', nests, own, rfl⟩ :=
    explained_of_compileChunks d name source e member
  obtain ⟨front, problem, inside, rfl⟩ := own.reportedIn
  exact ⟨lead, move, straight, inner, front, problem, nests, own, inside, rfl,
    fun isStraight => nests.true_of_straight isStraight inside problem⟩

/-- What is wrong with the condition on the second line is wrong with a part of the source. -/
theorem condition_on_second_line_explained :
    let source := "\n$if(@)$$endif$".toList
    let e : TemplateError := .malformed ⟨2, 5⟩ (.unexpectedCharacter '@')
    (compileChunks .dollar "page" source).2 = [e] ∧
      ∃ lead move straight inner front problem,
        Nests .dollar (.template source) lead move straight inner ∧
        inner.Own .dollar (.malformed (.after .start front) problem) ∧ front <+: inner.source ∧
        e = move (.malformed (.after .start front) problem) ∧
        (straight → e = .malformed (.after .start (lead ++ front)) problem ∧
          lead ++ front <+: source) := by
  intro source e
  have tokens : Token.ofSource .dollar source =
      .ok [.newline ['\n'], .ifMark ['@'] 3 ⟨2, 2⟩, .endifMark ⟨2, 9⟩] := by decide +kernel
  have errors : (compileChunks .dollar "page" source).2 = [e] := by
    rw [compileChunks_of_ok tokens]
    decide +kernel
  refine ⟨errors, nested_errors_placed .dollar "page" source e ?_⟩
  rw [errors]
  exact List.mem_singleton_self e

/-- A condition below its keyword and a body below its bar are counted as if they stood on the line
of the marker and of the brace; a blank behind the bar counts as many columns as it has bytes. -/
theorem wrapped_parts_misplaced :
    ((compileChunks .dollar "page" "$if\n(@)$x$endif$".toList).2 =
        [.malformed ⟨1, 6⟩ (.unexpectedCharacter '@')] ∧
      Position.start.after "$if\n(".toList = ⟨2, 2⟩) ∧
    (bodyBase (.after .start "$a:".toList) "x |\n$@$".toList = ⟨1, 9⟩ ∧
      Position.start.after "$a:\x7bx |\n".toList = ⟨2, 1⟩) ∧
    (bodyBase (.after .start "$a:".toList) "x |\u3000$@$".toList = ⟨1, 11⟩ ∧
      Position.start.after "$a:\x7bx |\u3000".toList = ⟨1, 9⟩) := by
  have tokens : Token.ofSource .dollar "$if\n(@)$x$endif$".toList =
      .ok [.ifMark ['@'] 4 ⟨1, 2⟩, .text ['x'], .endifMark ⟨2, 7⟩] := by decide +kernel
  refine ⟨⟨?_, rfl⟩, ⟨by decide +kernel, rfl⟩, ⟨by decide +kernel, rfl⟩⟩
  rw [compileChunks_of_ok tokens]
  decide +kernel

end Part
end Stencil
