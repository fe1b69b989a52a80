import Stencil.Proofs.Places.Lexemes
/-!
# Where the errors of an expression are

A parse reports its errors at lexemes or at the end, and hands on those of inline templates. At
another place the same is found, shifted by that place.
-/
namespace Stencil

open Text (Position)

namespace Grammar

/-- The place that the body of an inline template is counted from, whose opening brace stands at
`pos`. -/
def bodyBase (pos : Position) (raw : List Char) : Position := pos.right (1 + (splitFormals raw).2.2)

end Grammar

namespace TemplateError

/-- The place of the error counts from one. -/
def Counts : TemplateError → Prop
  | malformed pos _ => pos.Counts
  | _ => True

theorem Counts.shift {e : TemplateError} {base : Position} (countsBase : base.Counts)
    (counts : e.Counts) : (Grammar.shiftError base e).Counts := by
  cases e with
  | malformed pos problem => exact countsBase.shift counts
  | _ => trivial

theorem shift_shift {e : TemplateError} {base : Position} (outer : Position)
    (countsBase : base.Counts) (counts : e.Counts) :
    Grammar.shiftError outer (Grammar.shiftError base e) =
      Grammar.shiftError (outer.shift base) e := by
  cases e with
  | malformed pos problem =>
    exact congrArg (malformed · problem) (Position.shift_shift countsBase counts)
  | _ => rfl

end TemplateError

open Grammar (bodyBase shiftError inlineBody)

/-- What is wrong with the body of an inline template among the lexemes, shifted to its place. -/
inductive Lexemes.InBody (ctx : ParseContext) (lexemes : Lexemes) : TemplateError → Prop
  | intro {l : Lexeme} {raw : List Char} {name : String} {e : TemplateError} :
    l ∈ lexemes.items → l.symbol = .inline raw →
    e ∈ (ctx.compileInline name (inlineBody raw)).2 →
    InBody ctx lexemes (shiftError (bodyBase l.pos raw) e)

/-- What may be reported of lexemes: something at one of them or at the end, and what is wrong with
the body of an inline template. -/
inductive Lexemes.Reported (ctx : ParseContext) (lexemes : Lexemes) : TemplateError → Prop
  | lexeme {l : Lexeme} (problem : SourceProblem) :
    l ∈ lexemes.items → Reported ctx lexemes (.malformed l.pos problem)
  | stop (problem : SourceProblem) : Reported ctx lexemes (.malformed lexemes.stop problem)
  | body {e : TemplateError} : lexemes.InBody ctx e → Reported ctx lexemes e

/-- The same context, but nothing is wrong with the bodies of inline templates. -/
def ParseContext.silent (ctx : ParseContext) : ParseContext :=
  ⟨ctx.owner, fun name body => ((ctx.compileInline name body).1, [])⟩

namespace ParseState

variable {ctx : ParseContext} {lexemes : Lexemes} {st : ParseState}

theorem pastInline_eq (ctx : ParseContext) (raw : List Char) (st : ParseState) :
    st.pastInline ctx raw = { st.skip 1 with
      inlines := st.inlines + 1
      errors := st.errors ++
        (ctx.compileInline (ctx.owner ++ "_anon" ++ toString (st.inlines + 1))
          (inlineBody raw)).2.map (shiftError (bodyBase st.place raw)) } :=
  rfl

/-- The next lexeme stands at the place of the state. -/
theorem exists_next {x : Symbol} (next : st.symbols.head? = some x) :
    ∃ l ∈ st.rest, l.symbol = x ∧ l.pos = st.place := by
  obtain ⟨_ | ⟨l, rest⟩, stop, errors, inlines⟩ := st
  · cases next
  · exact ⟨l, List.mem_cons_self, Option.some.inj next, rfl⟩

/-! ## Reports -/

/-- A state of a parse of the lexemes -/
structure Within (ctx : ParseContext) (lexemes : Lexemes) (st : ParseState) : Prop where
  rest : ∀ l ∈ st.rest, l ∈ lexemes.items
  stop : st.stop = lexemes.stop
  errors : ∀ e ∈ st.errors, lexemes.Reported ctx e

theorem Within.skip (within : st.Within ctx lexemes) (n : Nat) : (st.skip n).Within ctx lexemes :=
  ⟨fun l member => within.rest l (List.mem_of_mem_drop member), within.stop, within.errors⟩

theorem Within.reported (within : st.Within ctx lexemes) (problem : SourceProblem) :
    lexemes.Reported ctx (.malformed st.place problem) := by
  obtain ⟨_ | ⟨l, rest⟩, stop, errors, inlines⟩ := st
  · obtain rfl := within.stop
    exact .stop problem
  · exact .lexeme problem (within.rest l List.mem_cons_self)

theorem Within.inBody (within : st.Within ctx lexemes) {raw : List Char}
    (next : st.symbols.head? = some (.inline raw)) (name : String) :
    ∀ e ∈ (ctx.compileInline name (inlineBody raw)).2.map (shiftError (bodyBase st.place raw)),
      lexemes.InBody ctx e := by
  obtain ⟨l, member, symbol, place⟩ := exists_next next
  refine List.forall_mem_map.2 fun e inside => ?_
  rw [← place]
  exact .intro (within.rest l member) symbol inside

/-- A parse stays within its lexemes. -/
theorem matches_within (ctx : ParseContext) (lexemes : Lexemes) :
    ctx.Matches ctx fun st st' => st = st' ∧ st.Within ctx lexemes where
  owner := rfl
  chunks _ _ := rfl
  symbols := by
    rintro st _ ⟨rfl, -⟩
    rfl
  inlines := by
    rintro st _ ⟨rfl, -⟩
    rfl
  skip := by
    rintro st _ ⟨rfl, within⟩ n
    exact ⟨rfl, within.skip n⟩
  report := by
    rintro st _ ⟨rfl, within⟩ problem
    refine ⟨rfl, within.rest, within.stop, List.forall_mem_append.2 ⟨within.errors, ?_⟩⟩
    exact List.forall_mem_singleton.2 (within.reported problem)
  pastInline := by
    rintro st _ raw ⟨rfl, within⟩ next
    rw [pastInline_eq]
    refine ⟨rfl, (within.skip 1).rest, within.stop, List.forall_mem_append.2 ⟨within.errors, ?_⟩⟩
    exact fun e inside => .body (within.inBody next _ e inside)

/-! ## Bodies apart -/

/-- The same parse where nothing is wrong with the bodies -/
structure Apart (ctx : ParseContext) (lexemes : Lexemes) (st st' : ParseState) : Prop where
  rest : st.rest = st'.rest
  stop : st.stop = st'.stop
  inlines : st.inlines = st'.inlines
  within : st.Within ctx lexemes
  errors : ∀ e ∈ st.errors, e ∈ st'.errors ∨ lexemes.InBody ctx e

/-- The errors of a parse are those that it has where nothing is wrong with the bodies, and those of
the bodies. -/
theorem matches_apart (ctx : ParseContext) (lexemes : Lexemes) :
    ctx.Matches ctx.silent (Apart ctx lexemes) where
  owner := rfl
  chunks _ _ := rfl
  symbols apart := congrArg (List.map Lexeme.symbol) apart.rest
  inlines apart := apart.inlines
  skip apart n :=
    ⟨congrArg (List.drop n) apart.rest, apart.stop, apart.inlines, apart.within.skip n,
      apart.errors⟩
  report {st st'} apart problem := by
    have place : st.place = st'.place := by
      rw [ParseState.place, ParseState.place, apart.rest, apart.stop]
    have kept := ((matches_within ctx lexemes).report ⟨rfl, apart.within⟩ problem).2
    refine ⟨apart.rest, apart.stop, apart.inlines, kept, List.forall_mem_append.2 ⟨?_, ?_⟩⟩
    · exact fun e earlier => (apart.errors e earlier).imp_left (List.mem_append_left _)
    · refine List.forall_mem_singleton.2 (.inl (List.mem_append_right _ ?_))
      rw [place]
      exact List.mem_singleton_self _
  pastInline {st st' raw} apart next := by
    have kept := ((matches_within ctx lexemes).pastInline ⟨rfl, apart.within⟩ next).2
    rw [pastInline_eq] at kept ⊢
    rw [pastInline_eq]
    refine ⟨congrArg (List.drop 1) apart.rest, apart.stop, congrArg (· + 1) apart.inlines, kept,
      List.forall_mem_append.2 ⟨?_, fun e inside => .inr (apart.within.inBody next _ e inside)⟩⟩
    exact fun e earlier => (apart.errors e earlier).imp_left (List.mem_append_left _)

/-! ## Shifted states -/

/-- The state of the same parse in the text that the source is an excerpt of -/
def shift (base : Position) (st : ParseState) : ParseState where
  rest := st.rest.map (Lexeme.shift base)
  stop := base.shift st.stop
  errors := st.errors.map (shiftError base)
  inlines := st.inlines

structure Counts (st : ParseState) : Prop where
  rest : ∀ l ∈ st.rest, l.pos.Counts
  stop : st.stop.Counts

theorem Counts.skip (counts : st.Counts) (n : Nat) : (st.skip n).Counts :=
  ⟨fun l member => counts.rest l (List.mem_of_mem_drop member), counts.stop⟩

theorem Counts.place (counts : st.Counts) : st.place.Counts := by
  obtain ⟨_ | ⟨l, rest⟩, stop, errors, inlines⟩ := st
  · exact counts.stop
  · exact counts.rest l List.mem_cons_self

theorem place_shift (base : Position) (st : ParseState) :
    (st.shift base).place = base.shift st.place := by
  obtain ⟨_ | ⟨l, rest⟩, stop, errors, inlines⟩ := st <;> rfl

theorem skip_shift (base : Position) (st : ParseState) (n : Nat) :
    (st.shift base).skip n = (st.skip n).shift base := by
  simp only [shift, skip, List.map_drop]

end ParseState

/-- The errors of inline templates count from one. -/
def ParseContext.Counts (ctx : ParseContext) : Prop :=
  ∀ name body, ∀ e ∈ (ctx.compileInline name body).2, e.Counts

namespace Grammar

open ParseState

variable {ctx : ParseContext}

theorem bodyBase_shift {base pos : Position} (counts : pos.Counts) (raw : List Char) :
    bodyBase (base.shift pos) raw = base.shift (bodyBase pos raw) :=
  (Position.shift_right counts _).symm

/-- A parse does the same wherever its source stands. -/
theorem matches_shift (countsBodies : ctx.Counts) (base : Position) :
    ctx.Matches ctx fun st st' => st.Counts ∧ st' = st.shift base where
  owner := rfl
  chunks _ _ := rfl
  symbols := by
    rintro st _ ⟨-, rfl⟩
    simp only [symbols, shift, List.map_map]
    rfl
  inlines := by
    rintro st _ ⟨-, rfl⟩
    rfl
  skip := by
    rintro st _ ⟨counts, rfl⟩ n
    exact ⟨counts.skip n, skip_shift base st n⟩
  report := by
    rintro st _ ⟨counts, rfl⟩ problem
    refine ⟨⟨counts.rest, counts.stop⟩, ?_⟩
    rw [ParseState.report, place_shift]
    simp only [ParseState.report, shift, List.map_append, List.map_singleton, shiftError]
  pastInline := by
    rintro st _ raw ⟨counts, rfl⟩ -
    refine ⟨⟨(counts.skip 1).rest, counts.stop⟩, ?_⟩
    have bodies (name : String) :
        (ctx.compileInline name (inlineBody raw)).2.map
            (shiftError (bodyBase (base.shift st.place) raw)) =
          ((ctx.compileInline name (inlineBody raw)).2.map
            (shiftError (bodyBase st.place raw))).map (shiftError base) := by
      rw [List.map_map]
      refine List.map_congr_left fun e inside => ?_
      rw [bodyBase_shift counts.place]
      exact (TemplateError.shift_shift base (counts.place.right _)
        (countsBodies name _ e inside)).symm
    rw [pastInline_eq, pastInline_eq, place_shift, bodies, skip_shift]
    simp only [shift, List.map_append]

/-! ## Whole sources -/

/-- A parser that matches itself in another context, as long as what it reads in brackets does. -/
def MatchesAlong {α : Type} (parser : ParseContext → Grammar → Parse α) : Prop :=
  ∀ {ctx ctx' : ParseContext} {R : ParseState → ParseState → Prop} {g g' : Grammar},
    ctx.Matches ctx' R → g.Matches R g' → Parse.Matches R (parser ctx g) (parser ctx' g')

theorem matchesAlong_action : MatchesAlong action := matches_action

theorem matchesAlong_condition : MatchesAlong condition := matches_condition

variable {α : Type} {parser : ParseContext → Grammar → Parse α} {default : α} {pos : Position}
  {source : List Char} {lexemes : Lexemes} (along : MatchesAlong parser)
include along

/-- What relates the states before a parse relates those behind it. -/
theorem MatchesAlong.run {ctx' : ParseContext} {R : ParseState → ParseState → Prop}
    (both : ctx.Matches ctx' R) (depth : Nat) {st st' : ParseState} (related : R st st') :
    R (parser ctx (ofDepth ctx depth) st).2 (parser ctx' (ofDepth ctx' depth) st').2 :=
  (along both (matches_ofDepth both depth) st st' related).2

theorem reported_of_parseAll (scanned : Lexeme.scan pos source = .ok lexemes) :
    ∀ e ∈ (parseAll ctx (parser ctx) default pos source).2, lexemes.Reported ctx e := by
  have begins : ParseState.Within ctx lexemes
      { rest := lexemes.items, stop := lexemes.stop, errors := [], inlines := 0 } :=
    ⟨fun _ member => member, rfl, List.forall_mem_nil _⟩
  have within := along.run (matches_within ctx lexemes) (lexemes.items.length + 1) ⟨rfl, begins⟩
  rw [parseAll, scanned]
  exact within.2.errors

/-- The errors of a source are its own and those of the bodies in it. -/
theorem own_or_inBody_of_parseAll (scanned : Lexeme.scan pos source = .ok lexemes) :
    ∀ e ∈ (parseAll ctx (parser ctx) default pos source).2,
      e ∈ (parseAll ctx.silent (parser ctx.silent) default pos source).2 ∨
        lexemes.InBody ctx e := by
  have begins : ParseState.Apart ctx lexemes
      { rest := lexemes.items, stop := lexemes.stop, errors := [], inlines := 0 }
      { rest := lexemes.items, stop := lexemes.stop, errors := [], inlines := 0 } :=
    ⟨rfl, rfl, rfl, ⟨fun _ member => member, rfl, List.forall_mem_nil _⟩, List.forall_mem_nil _⟩
  have apart := along.run (matches_apart ctx lexemes) (lexemes.items.length + 1) begins
  rw [parseAll, parseAll, scanned]
  exact apart.errors

/-- A source parses as at the first line and column, all errors shifted. -/
theorem parseAll_shift (countsBodies : ctx.Counts) (base : Position) :
    (parseAll ctx (parser ctx) default base source).2 =
      (parseAll ctx (parser ctx) default .start source).2.map (shiftError base) := by
  have moved := Lexeme.scan_shift base Position.counts_start source
  rw [Position.shift_start] at moved
  rcases scanned : Lexeme.scan .start source with e | lexemes
  · rw [scanned] at moved
    rw [parseAll, parseAll, scanned, moved]
    rfl
  · rw [scanned] at moved
    obtain ⟨items, stop⟩ := Lexeme.counts_of_scan Position.counts_start scanned
    have begins : ParseState.Counts
        { rest := lexemes.items, stop := lexemes.stop, errors := [], inlines := 0 } := ⟨items, stop⟩
    have same := along.run (matches_shift countsBodies base) (lexemes.items.length + 1)
      ⟨begins, rfl⟩
    have length : (lexemes.shift base).items.length = lexemes.items.length := List.length_map _
    rw [parseAll, parseAll, scanned, moved]
    dsimp only
    rw [length]
    exact congrArg ParseState.errors same.2

end Grammar
end Stencil
