import Stencil.Proofs.Grammar.Lookahead
/-!
# Parsers that match

A parser looks at symbols, drops lexemes, reports problems at the next one and compiles inline
templates; it does nothing else to a state. So a relation between states with the same symbols that
these keep is kept by every phrase of the grammar, and from both states the result is the same. Both
sides compile inline templates to the same chunks, but may find different errors in them.
-/
namespace Stencil

open Text (Position)

namespace ParseState

/-- The place of the next lexeme, or of the end. -/
def place (st : ParseState) : Position := (st.rest.head?.map Lexeme.pos).getD st.stop

def skip (n : Nat) (st : ParseState) : ParseState := { st with rest := st.rest.drop n }

def report (problem : SourceProblem) (st : ParseState) : ParseState :=
  { st with errors := st.errors ++ [.malformed st.place problem] }

/-- The state behind an inline template that is next. -/
def pastInline (ctx : ParseContext) (raw : List Char) (st : ParseState) : ParseState :=
  (Grammar.inlineTemplate ctx raw st.place (st.skip 1)).2

end ParseState

/-- The relation holds between states that differ in places and errors only, and goes on to hold
whatever two parsers do. -/
structure ParseContext.Matches (ctx ctx' : ParseContext) (R : ParseState → ParseState → Prop) :
    Prop where
  owner : ctx.owner = ctx'.owner
  chunks (name : String) (body : List Char) :
    (ctx.compileInline name body).1 = (ctx'.compileInline name body).1
  symbols {st st' : ParseState} : R st st' → st.symbols = st'.symbols
  inlines {st st' : ParseState} : R st st' → st.inlines = st'.inlines
  skip {st st' : ParseState} : R st st' → ∀ n, R (st.skip n) (st'.skip n)
  report {st st' : ParseState} : R st st' → ∀ problem, R (st.report problem) (st'.report problem)
  pastInline {st st' : ParseState} {raw : List Char} : R st st' →
    st.symbols.head? = some (.inline raw) → R (st.pastInline ctx raw) (st'.pastInline ctx' raw)

/-- From related states both parsers return the same, and leave related states. -/
def Parse.Matches {α : Type} (R : ParseState → ParseState → Prop) (p q : Parse α) : Prop :=
  ∀ st st', R st st' → (p st).1 = (q st').1 ∧ R (p st).2 (q st').2

namespace Parse.Matches

variable {ctx ctx' : ParseContext} {R : ParseState → ParseState → Prop} {α β : Type}
  {p q : Parse α} {f g : α → Parse β}

theorem pure (a : α) : Matches R (Pure.pure a) (Pure.pure a) := fun _ _ related => ⟨rfl, related⟩

theorem bind (first : Matches R p q) (next : ∀ a, Matches R (f a) (g a)) :
    Matches R (p >>= f) (q >>= g) := by
  intro st st' related
  obtain ⟨result, between⟩ := first st st' related
  rw [bind_apply, bind_apply]
  generalize p st = r at result between
  generalize q st' = r' at result between
  obtain ⟨a?, after⟩ := r
  obtain ⟨a?', after'⟩ := r'
  obtain rfl : a? = a?' := result
  cases a? with
  | none => exact ⟨rfl, between⟩
  | some a => exact next a _ _ between

theorem attempt (same : Matches R p q) : Matches R (Parse.attempt p) (Parse.attempt q) := by
  intro st st' related
  obtain ⟨result, after⟩ := same st st' related
  exact ⟨congrArg some result, after⟩

theorem giveUp : Matches R (Parse.giveUp : Parse α) Parse.giveUp :=
  fun _ _ related => ⟨rfl, related⟩

section Relation

variable (both : ctx.Matches ctx' R)
include both

/-- An inline template that is next is a case of its own: what is done with it depends on its
place. -/
theorem bind_peek {f g : Option Symbol → Parse β}
    (others : ∀ found, (∀ raw, found ≠ some (.inline raw)) → Matches R (f found) (g found))
    (isInline : ∀ raw st st', R st st' → st.symbols.head? = some (.inline raw) →
      (f (some (.inline raw)) st).1 = (g (some (.inline raw)) st').1 ∧
        R (f (some (.inline raw)) st).2 (g (some (.inline raw)) st').2) :
    Matches R (Parse.peek >>= f) (Parse.peek >>= g) := by
  intro st st' related
  rw [Parse.bind_peek, Parse.bind_peek, ← both.symbols related]
  by_cases next : ∃ raw, st.symbols.head? = some (.inline raw)
  · obtain ⟨raw, next⟩ := next
    rw [next]
    exact isInline raw st st' related next
  · exact others _ (fun raw found => next ⟨raw, found⟩) st st' related

theorem peek : Matches R Parse.peek Parse.peek := by
  intro st st' related
  have same : st.rest.head?.map Lexeme.symbol = st'.rest.head?.map Lexeme.symbol := by
    simpa only [ParseState.symbols, List.head?_map] using congrArg List.head? (both.symbols related)
  exact ⟨congrArg some same, related⟩

theorem peekSecond : Matches R Parse.peekSecond Parse.peekSecond := by
  intro st st' related
  have same : (st.rest.drop 1).head?.map Lexeme.symbol =
      (st'.rest.drop 1).head?.map Lexeme.symbol := by
    simpa only [ParseState.symbols, ← List.map_drop, List.head?_map] using
      congrArg (fun symbols => (symbols.drop 1).head?) (both.symbols related)
  exact ⟨congrArg some same, related⟩

theorem advance : Matches R Parse.advance Parse.advance :=
  fun _ _ related => ⟨rfl, both.skip related 1⟩

theorem report (problem : SourceProblem) :
    Matches R (Parse.report problem) (Parse.report problem) :=
  fun _ _ related => ⟨rfl, both.report related problem⟩

theorem fail (problem : SourceProblem) :
    Matches R (Parse.fail problem : Parse α) (Parse.fail problem) :=
  (report both problem).bind fun _ => giveUp

theorem eat (m : Mark) : Matches R (Parse.eat m) (Parse.eat m) := by
  refine (peek both).bind fun found => ?_
  split
  · exact (advance both).bind fun _ => pure true
  · exact pure false

theorem expect (m : Mark) : Matches R (Parse.expect m) (Parse.expect m) := by
  refine (eat both m).bind fun eaten => ?_
  split
  · exact pure ()
  · exact (peek both).bind fun _ => fail both _

theorem expectName : Matches R Parse.expectName Parse.expectName := by
  refine (peek both).bind fun found => ?_
  split
  · exact (advance both).bind fun _ => pure _
  · exact fail both _

theorem expectEnd : Matches R Parse.expectEnd Parse.expectEnd := by
  refine (peek both).bind fun found => ?_
  split
  · exact pure ()
  · exact report both _

theorem synchronize (marks : List Mark) :
    Matches R (Parse.synchronize marks) (Parse.synchronize marks) := by
  intro st st' related
  obtain ⟨n, dropped, dropped'⟩ := exists_skipTo_eq_drop marks (both.symbols related) 0
  refine ⟨rfl, ?_⟩
  rw [Parse.synchronize, Parse.synchronize, dropped, dropped']
  exact both.skip related n

theorem chain {m : Mark} {next next' : α → Parse α} (step : ∀ a, Matches R (next a) (next' a))
    (n : Nat) (a : α) : Matches R (Parse.chain m next n a) (Parse.chain m next' n a) := by
  induction n generalizing a with
  | zero => exact pure a
  | succ n ih =>
    refine (eat both m).bind fun eaten => ?_
    split
    · exact (step a).bind ih
    · exact pure a

theorem repeated {m : Mark} {next next' : α → Parse α} (step : ∀ a, Matches R (next a) (next' a))
    (a : α) : Matches R (Parse.repeated m next a) (Parse.repeated m next' a) := by
  intro st st' related
  have same : st.rest.length = st'.rest.length := by
    simpa [ParseState.symbols] using congrArg List.length (both.symbols related)
  rw [Parse.repeated, Parse.repeated, same]
  exact chain both step _ a st st' related

end Relation
end Parse.Matches

namespace Grammar

open Parse

/-- The phrases inside brackets match. -/
structure Matches (R : ParseState → ParseState → Prop) (g g' : Grammar) : Prop where
  templates (top : Bool) : Parse.Matches R (g.templates top) (g'.templates top)
  expr : Parse.Matches R g.expr g'.expr

variable {ctx ctx' : ParseContext} {R : ParseState → ParseState → Prop} {g g' : Grammar}
  (both : ctx.Matches ctx' R)
include both

section Brackets

variable (inside : g.Matches R g')
include inside

theorem matches_assignment : Parse.Matches R (assignment g) (assignment g') :=
  (Matches.expectName both).bind fun _ => (Matches.expect both _).bind fun _ =>
    (inside.templates false).bind fun _ => .pure _

theorem matches_addAssignment (bindings : List (String × Expr)) :
    Parse.Matches R (addAssignment g bindings) (addAssignment g' bindings) := by
  refine (matches_assignment both inside).attempt.bind fun added => ?_
  split
  · split
    · exact (Matches.report both _).bind fun _ => .pure _
    · exact .pure _
  · exact (Matches.synchronize both _).bind fun _ => .pure _

theorem matches_arguments : Parse.Matches R (arguments g) (arguments g') := by
  refine (Matches.expect both _).bind fun _ => (Matches.eat both _).bind fun closed => ?_
  split
  · exact .pure _
  · refine (Matches.peek both).bind fun first => (Matches.peekSecond both).bind fun second => ?_
    split
    · refine (matches_addAssignment both inside []).bind fun bindings => ?_
      refine (Matches.repeated both (matches_addAssignment both inside) bindings).bind fun _ => ?_
      exact (Matches.expect both _).bind fun _ => .pure _
    · exact (inside.templates false).bind fun _ => (Matches.expect both _).bind fun _ => .pure _

theorem matches_call (target : Target) :
    Parse.Matches R (do pure (Expr.call target (← arguments g)))
        (do pure (Expr.call target (← arguments g'))) :=
  (matches_arguments both inside).bind fun _ => .pure _

theorem matches_afterName (name : String) : Parse.Matches R (afterName g name)
    (afterName g' name) := by
  refine (Matches.peek both).bind fun found => ?_
  split
  · split
    · exact (Matches.advance both).bind fun _ => (Matches.expectName both).bind fun _ =>
        matches_call both inside _
    · exact .pure _
  · split
    · exact (Matches.advance both).bind fun _ => (inside.templates true).bind fun _ =>
        (Matches.expect both _).bind fun _ => .pure _
    · exact matches_call both inside _
  · exact .pure _

theorem matches_listItems : Parse.Matches R (listItems g) (listItems g') := by
  have add (items : List Expr) : Parse.Matches R (addExpr g items) (addExpr g' items) :=
    inside.expr.bind fun _ => .pure _
  refine (Matches.eat both _).bind fun closed => ?_
  split
  · exact .pure _
  · exact (add []).bind fun items => (Matches.repeated both add items).bind fun _ =>
      (Matches.expect both _).bind fun _ => .pure _

theorem matches_parenthesized : Parse.Matches R (parenthesized g) (parenthesized g') := by
  refine (inside.templates true).bind fun _ => (Matches.expect both _).bind fun _ => ?_
  refine (Matches.peek both).bind fun found => ?_
  split
  · exact matches_call both inside _
  · exact .pure _

theorem matches_atom : Parse.Matches R (atom g) (atom g') := by
  refine (Matches.peek both).bind fun found? => ?_
  cases found? with
  | none => exact Matches.fail both _
  | some found =>
    cases found with
    | name name => exact (Matches.advance both).bind fun _ => matches_afterName both inside name
    | text => exact (Matches.advance both).bind fun _ => .pure _
    | number => exact (Matches.advance both).bind fun _ => .pure _
    | inline => exact Matches.fail both _
    | mark m =>
      cases m with
      | leftBracket => exact (Matches.advance both).bind fun _ => matches_listItems both inside
      | leftParen => exact (Matches.advance both).bind fun _ => matches_parenthesized both inside
      | _ => exact Matches.fail both _

theorem matches_addProperty (target : Expr) : Parse.Matches R (addProperty g target)
    (addProperty g' target) := by
  refine (Matches.peek both).bind fun found => ?_
  split
  · exact (Matches.advance both).bind fun _ => .pure _
  · exact (Matches.advance both).bind fun _ => (inside.templates true).bind fun _ =>
      (Matches.expect both _).bind fun _ => .pure _
  · exact Matches.fail both _

theorem matches_primary : Parse.Matches R (primary g) (primary g') :=
  (matches_atom both inside).bind (Matches.repeated both (matches_addProperty both inside))

theorem matches_sum : Parse.Matches R (sum g) (sum g') := by
  have add (left : Expr) : Parse.Matches R (addPrimary g left) (addPrimary g' left) :=
    (matches_primary both inside).bind fun _ => .pure _
  exact (matches_primary both inside).bind (Matches.repeated both add)

omit inside in
theorem matches_setOption (options : ExprOptions) (name : String) (value : Expr) :
    Parse.Matches R (setOption options name value) (setOption options name value) := by
  unfold setOption
  split
  · exact .pure _
  · exact .pure _
  · exact .pure _
  · exact Matches.fail both _

theorem matches_option (options : ExprOptions) : Parse.Matches R (option g options)
    (option g' options) := by
  rw [option_eq]
  refine (Matches.expectName both).bind fun name => (Matches.eat both _).bind fun given => ?_
  dsimp only
  split
  · exact (matches_sum both inside).bind (matches_setOption both options name)
  · exact (Matches.pure _).bind (matches_setOption both options name)

theorem matches_addOption (options : ExprOptions) : Parse.Matches R (addOption g options)
    (addOption g' options) := by
  refine (matches_option both inside options).attempt.bind fun added => ?_
  split
  · exact .pure _
  · exact (Matches.synchronize both _).bind fun _ => .pure _

theorem matches_templateRef : Parse.Matches R (templateRef ctx g) (templateRef ctx' g') := by
  have named (target : Target) :
      Parse.Matches R (do pure (TemplateRef.named target (← arguments g)))
      (do pure (TemplateRef.named target (← arguments g'))) :=
    (matches_arguments both inside).bind fun _ => .pure _
  refine Matches.bind_peek both (fun found notInline => ?_) fun raw st st' related next => ?_
  · split
    · rename_i name
      have following (isSuper : Bool) : Parse.Matches R (do
          let target ← if isSuper then Target.super <$> expectName else pure (.name name)
          pure (TemplateRef.named target (← arguments g))) (do
          let target ← if isSuper then Target.super <$> expectName else pure (.name name)
          pure (TemplateRef.named target (← arguments g'))) := by
        split
        · exact ((Matches.expectName both).bind fun _ => .pure _).bind named
        · exact (Matches.pure _).bind named
      refine (Matches.advance both).bind fun _ => ?_
      dsimp only
      split
      · exact (Matches.eat both _).bind following
      · exact (Matches.pure _).bind following
    · exact (Matches.advance both).bind fun _ => (inside.templates true).bind fun _ =>
        (Matches.expect both _).bind fun _ => named _
    · exact absurd rfl (notInline _)
    · exact Matches.fail both _
  · have number : st.inlines = st'.inlines := both.inlines related
    have same : (inlineTemplate ctx raw st.place (st.skip 1)).1 =
        (inlineTemplate ctx' raw st'.place (st'.skip 1)).1 := by
      simp only [inlineTemplate, ParseState.skip, number, both.owner, both.chunks]
    exact ⟨congrArg (Option.map TemplateRef.inline) same, both.pastInline related next⟩

theorem matches_addApplication (top : Bool) (source : Expr) :
    Parse.Matches R (addApplication ctx g top source) (addApplication ctx' g' top source) := by
  have add (refs : List TemplateRef) : Parse.Matches R (addTemplate ctx g refs)
      (addTemplate ctx' g' refs) :=
    (matches_templateRef both inside).bind fun _ => .pure _
  refine (add []).bind fun refs => ?_
  dsimp only
  split
  · exact (Matches.repeated both add refs).bind fun _ => .pure _
  · exact (Matches.pure _).bind fun _ => .pure _

theorem matches_aligned (first : Expr) : Parse.Matches R (aligned ctx g first)
    (aligned ctx' g' first) := by
  have add (sources : List Expr) : Parse.Matches R (addSource g sources) (addSource g' sources) :=
    (matches_sum both inside).bind fun _ => .pure _
  exact (Matches.repeated both add _).bind fun _ => (Matches.expect both _).bind fun _ =>
    (matches_templateRef both inside).bind fun _ => .pure _

theorem matches_application (top : Bool) : Parse.Matches R (application ctx g top)
    (application ctx' g' top) := by
  have applied (source : Expr) :
      Parse.Matches R (repeated .colon (addApplication ctx g top) source)
          (repeated .colon (addApplication ctx' g' top) source) :=
    Matches.repeated both (matches_addApplication both inside top) source
  refine (matches_sum both inside).bind fun first => (Matches.peek both).bind fun found => ?_
  dsimp only
  split
  · exact (matches_aligned both inside first).bind applied
  · exact (Matches.pure _).bind applied

theorem matches_optionsBehind (e : Expr) : Parse.Matches R (optionsBehind g e)
    (optionsBehind g' e) := by
  refine (Matches.eat both _).bind fun given => ?_
  dsimp only
  split
  · exact (matches_addOption both inside _).bind fun options =>
      (Matches.repeated both (matches_addOption both inside) options).bind fun _ =>
        (Matches.expectEnd both).bind fun _ => .pure _
  · exact (Matches.pure _).bind fun _ => (Matches.expectEnd both).bind fun _ => .pure _

theorem matches_action : Parse.Matches R (action ctx g) (action ctx' g') := by
  rw [action_eq]
  refine (matches_application both inside true).attempt.bind fun e? => ?_
  split
  · exact matches_optionsBehind both inside _
  · exact (Matches.synchronize both _).bind fun _ => matches_optionsBehind both inside _

theorem matches_condition : Parse.Matches R (condition ctx g) (condition ctx' g') :=
  (Matches.eat both _).bind fun _ => (matches_application both inside true).attempt.bind fun _ =>
    (Matches.expectEnd both).bind fun _ => .pure _

end Brackets

theorem matches_ofDepth (depth : Nat) : (ofDepth ctx depth).Matches R (ofDepth ctx' depth) := by
  induction depth with
  | zero => exact ⟨fun _ => .giveUp, .giveUp⟩
  | succ depth ih => exact ⟨fun top => matches_application both ih top, matches_sum both ih⟩

end Grammar
end Stencil
