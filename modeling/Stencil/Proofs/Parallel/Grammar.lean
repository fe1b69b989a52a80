import Stencil.Proofs.Parallel.Parse
/-!
# The grammar in parallel

Every phrase is parsed in parallel if the phrases inside its brackets are.
-/
namespace Stencil

open Text (Position)

/-- The same up to the names of templates. -/
def Expr.Alike (f : String → String) (e e' : Expr) : Prop := e.rename f = e'.rename f

def Expr.AllAlike (f : String → String) (items items' : List Expr) : Prop :=
  items.map (rename f) = items'.map (rename f)

def Arguments.Alike (f : String → String) (args args' : Arguments) : Prop :=
  args.rename f = args'.rename f

def TemplateRef.Alike (f : String → String) (ref ref' : TemplateRef) : Prop :=
  ref.rename f = ref'.rename f

def TemplateRef.AllAlike (f : String → String) (refs refs' : List TemplateRef) : Prop :=
  refs.map (rename f) = refs'.map (rename f)

def ExprOptions.Alike (f : String → String) (o o' : ExprOptions) : Prop := o.rename f = o'.rename f

def Template.Alike (f : String → String) (t t' : Template) : Prop := t.rename f = t'.rename f

/-- Assignments of the same names. -/
def Arguments.BindingAlike (f : String → String) (b b' : String × Expr) : Prop :=
  b.1 = b'.1 ∧ b.2.Alike f b'.2

def Arguments.BindingsAlike (f : String → String) (bindings bindings' : List (String × Expr)) :
    Prop :=
  renameBindings f bindings = renameBindings f bindings'

/-- Inline templates that fit are named and compiled alike, and both without errors or neither. -/
structure ParseContext.Parallel (f : String → String) (fits : List Char → Prop)
    (ctx ctx' : ParseContext) : Prop where
  names (number : Nat) :
    f (ctx.owner ++ "_anon" ++ toString number) = f (ctx'.owner ++ "_anon" ++ toString number)
  chunks (number : Nat) (raw : List Char) : fits raw →
    (ctx.compileInline (ctx.owner ++ "_anon" ++ toString number)
        (Grammar.inlineBody raw)).1.map (Chunk.rename f) =
      (ctx'.compileInline (ctx'.owner ++ "_anon" ++ toString number)
        (Grammar.inlineBody raw)).1.map (Chunk.rename f)
  clean (number : Nat) (raw : List Char) : fits raw →
    ((ctx.compileInline (ctx.owner ++ "_anon" ++ toString number)
        (Grammar.inlineBody raw)).2 = [] ↔
      (ctx'.compileInline (ctx'.owner ++ "_anon" ++ toString number)
        (Grammar.inlineBody raw)).2 = [])

namespace Lexeme

/-- The symbols of a source have nothing to do with the place that it stands at. -/
theorem scan_moved (pos pos' : Position) (s : List Char) :
    (∃ e e', scan pos s = .error e ∧ scan pos' s = .error e') ∨
    ∃ lexemes lexemes', scan pos s = .ok lexemes ∧ scan pos' s = .ok lexemes' ∧
      lexemes.items.map symbol = lexemes'.items.map symbol := by
  fun_induction scan pos s generalizing pos' with
  | case1 pos =>
    rw [scan]
    exact Or.inr ⟨_, _, rfl, rfl, rfl⟩
  | case2 pos c s blank ih =>
    rw [scan_of_blank blank]
    exact ih _
  | case3 pos c s visible problem failed =>
    rw [scan_of_error (eq_false_of_ne_true visible) failed]
    exact Or.inl ⟨_, .malformed pos' problem, rfl, rfl⟩
  | case4 pos c s visible r done _ ih =>
    rw [scan_of_read (eq_false_of_ne_true visible) done]
    rcases ih (pos'.after r.written) with
      ⟨e, e', failed, failed'⟩ | ⟨lexemes, lexemes', scanned, scanned', symbols⟩
    · rw [failed, failed']
      exact Or.inl ⟨e, e', rfl, rfl⟩
    · rw [scanned, scanned']
      exact Or.inr ⟨_, _, rfl, rfl, congrArg (r.symbol :: ·) symbols⟩

/-- All inline templates in a source fit. -/
def InlinesFit (fits : List Char → Prop) (source : List Char) : Prop :=
  ∀ pos lexemes, scan pos source = .ok lexemes →
    ∀ raw, .inline raw ∈ lexemes.items.map symbol → fits raw

end Lexeme

namespace Grammar

open Parse
open Parse.Parallel (bind_equal)

/-- The phrases inside brackets are parsed in parallel. -/
structure Parallel (f : String → String) (fits : List Char → Prop) (g g' : Grammar) : Prop where
  templates (top : Bool) : Parse.Parallel fits (Expr.Alike f) (g.templates top) (g'.templates top)
  expr : Parse.Parallel fits (Expr.Alike f) g.expr g'.expr

variable {f : String → String} {fits : List Char → Prop} {ctx ctx' : ParseContext} {g g' : Grammar}
  {e e' : Expr}

section Brackets

variable (inside : g.Parallel f fits g')
include inside

theorem parallel_assignment :
    Parse.Parallel fits (Arguments.BindingAlike f) (assignment g) (assignment g') :=
  Parallel.expectName.bind_equal fun _ => (Parallel.expect _).bind_equal fun _ =>
    (inside.templates false).bind fun _ _ alike => .pure ⟨rfl, alike⟩

theorem parallel_addAssignment {bindings bindings' : List (String × Expr)}
    (alike : Arguments.BindingsAlike f bindings bindings') :
    Parse.Parallel fits (Arguments.BindingsAlike f) (addAssignment g bindings)
      (addAssignment g' bindings') := by
  refine (parallel_assignment inside).attempt.bind fun added? added?' added => ?_
  cases added with
  | none => exact (Parallel.synchronize _).bind_equal fun _ => .pure alike
  | @some one one' same =>
    obtain ⟨name, v⟩ := one
    obtain ⟨_, v'⟩ := one'
    obtain ⟨rfl, same⟩ := same
    unfold Arguments.BindingsAlike at alike ⊢
    rw [Arguments.renameBindings_eq, Arguments.renameBindings_eq] at alike
    have names : (bindings.any fun b => b.1 = name) = bindings'.any fun b => b.1 = name := by
      have fsts := congrArg (List.any · fun b => decide (b.1 = name)) alike
      simpa only [List.any_map, Function.comp_def] using fsts
    dsimp only
    rw [names]
    split
    · refine (Parallel.report _ _).bind_equal fun _ => .pure ?_
      rw [Arguments.renameBindings_eq, Arguments.renameBindings_eq, alike]
    · refine .pure ?_
      rw [Arguments.renameBindings_eq, Arguments.renameBindings_eq, List.map_append,
        List.map_append, alike, List.map_singleton, List.map_singleton, same]

theorem parallel_arguments :
    Parse.Parallel fits (Arguments.Alike f) (arguments g) (arguments g') := by
  refine (Parallel.expect _).bind_equal fun _ => (Parallel.eat _).bind_equal fun closed => ?_
  split
  · exact .pure rfl
  · refine Parallel.peek.bind_equal fun first => Parallel.peekSecond.bind_equal fun second => ?_
    split
    · refine (parallel_addAssignment inside rfl).bind fun one one' alike => ?_
      refine (Parallel.repeated (fun _ _ => parallel_addAssignment inside) alike).bind
        fun all all' alike => ?_
      refine (Parallel.expect _).bind_equal fun _ => .pure ?_
      exact congrArg Arguments.named alike
    · refine (inside.templates false).bind fun v v' alike => ?_
      exact (Parallel.expect _).bind_equal fun _ => .pure (congrArg Arguments.positional alike)

theorem parallel_call {target target' : Target} (alike : target.rename f = target'.rename f) :
    Parse.Parallel fits (Expr.Alike f) (do pure (.call target (← arguments g)))
      (do pure (.call target' (← arguments g'))) := by
  refine (parallel_arguments inside).bind fun args args' same => .pure ?_
  unfold Expr.Alike Expr.rename
  rw [alike, show args.rename f = args'.rename f from same]

theorem parallel_afterName (name : String) :
    Parse.Parallel fits (Expr.Alike f) (afterName g name) (afterName g' name) := by
  refine Parallel.peek.bind_equal fun found => ?_
  split
  · split
    · refine Parallel.advance.bind_equal fun _ => Parallel.expectName.bind_equal fun target => ?_
      exact parallel_call inside rfl
    · exact .pure rfl
  · split
    · refine Parallel.advance.bind_equal fun _ => ?_
      refine (inside.templates true).bind fun v v' alike => ?_
      refine (Parallel.expect _).bind_equal fun _ => .pure ?_
      exact congrArg (Expr.builtin _) alike
    · exact parallel_call inside rfl
  · exact .pure rfl

theorem parallel_listItems :
    Parse.Parallel fits (Expr.Alike f) (listItems g) (listItems g') := by
  have add (items items' : List Expr) (alike : Expr.AllAlike f items items') :
      Parse.Parallel fits (Expr.AllAlike f) (addExpr g items) (addExpr g' items') :=
    inside.expr.bind fun e e' same => .pure (by
      rw [Expr.AllAlike, List.map_append, List.map_append, alike, List.map_singleton,
        List.map_singleton, show e.rename f = e'.rename f from same])
  refine (Parallel.eat _).bind_equal fun closed => ?_
  split
  · exact .pure rfl
  · refine (add [] [] rfl).bind fun one one' alike => ?_
    refine (Parallel.repeated add alike).bind fun all all' alike => ?_
    refine (Parallel.expect _).bind_equal fun _ => .pure ?_
    unfold Expr.Alike Expr.rename
    rw [Expr.renameAll_eq, Expr.renameAll_eq, show all.map _ = all'.map _ from alike]

theorem parallel_parenthesized :
    Parse.Parallel fits (Expr.Alike f) (parenthesized g) (parenthesized g') := by
  refine (inside.templates true).bind fun v v' alike => (Parallel.expect _).bind_equal fun _ => ?_
  refine Parallel.peek.bind_equal fun found => ?_
  split
  · exact parallel_call inside (congrArg Target.computed alike)
  · exact .pure (congrArg Expr.rendered alike)

theorem parallel_atom : Parse.Parallel fits (Expr.Alike f) (atom g) (atom g') := by
  refine Parallel.peek.bind_equal fun found? => ?_
  cases found? with
  | none => exact .fail _ _
  | some found =>
    cases found with
    | name name => exact Parallel.advance.bind_equal fun _ => parallel_afterName inside name
    | text => exact Parallel.advance.bind_equal fun _ => .pure rfl
    | number => exact Parallel.advance.bind_equal fun _ => .pure rfl
    | inline => exact .fail _ _
    | mark m =>
      cases m with
      | leftBracket => exact Parallel.advance.bind_equal fun _ => parallel_listItems inside
      | leftParen => exact Parallel.advance.bind_equal fun _ => parallel_parenthesized inside
      | _ => exact .fail _ _

theorem parallel_addProperty (alike : e.Alike f e') :
    Parse.Parallel fits (Expr.Alike f) (addProperty g e) (addProperty g' e') := by
  have added {name name' : PropertyName} (same : name.rename f = name'.rename f) :
      (Expr.property e name).Alike f (.property e' name') := by
    unfold Expr.Alike Expr.rename
    rw [same, show e.rename f = e'.rename f from alike]
  refine Parallel.peek.bind_equal fun found => ?_
  split
  · exact Parallel.advance.bind_equal fun _ => .pure (added rfl)
  · refine Parallel.advance.bind_equal fun _ => ?_
    refine (inside.templates true).bind fun v v' same => ?_
    exact (Parallel.expect _).bind_equal fun _ =>
      .pure (added (congrArg PropertyName.computed same))
  · exact .fail _ _

theorem parallel_primary : Parse.Parallel fits (Expr.Alike f) (primary g) (primary g') :=
  (parallel_atom inside).bind fun _ _ alike =>
    .repeated (fun _ _ => parallel_addProperty inside) alike

theorem parallel_sum : Parse.Parallel fits (Expr.Alike f) (sum g) (sum g') := by
  have add (left left' : Expr) (alike : left.Alike f left') :
      Parse.Parallel fits (Expr.Alike f) (addPrimary g left) (addPrimary g' left') :=
    (parallel_primary inside).bind fun e e' same => .pure (by
      unfold Expr.Alike Expr.rename
      rw [show left.rename f = left'.rename f from alike, show e.rename f = e'.rename f from same])
  exact (parallel_primary inside).bind fun _ _ alike => .repeated add alike

omit inside in
theorem parallel_setOption {o o' : ExprOptions} (alike : o.Alike f o') (name : String)
    (same : e.Alike f e') :
    Parse.Parallel fits (ExprOptions.Alike f) (setOption o name e) (setOption o' name e') := by
  obtain ⟨separator, null, format⟩ := o
  obtain ⟨separator', null', format'⟩ := o'
  unfold ExprOptions.Alike ExprOptions.rename at alike
  obtain ⟨separated, nulled, formatted⟩ := ExprOptions.mk.inj alike
  have given : Expr.renameOptional f (some e) = Expr.renameOptional f (some e') :=
    congrArg some same
  unfold setOption
  split
  · exact .pure (by rw [ExprOptions.Alike, ExprOptions.rename, given, nulled, formatted]; rfl)
  · exact .pure (by rw [ExprOptions.Alike, ExprOptions.rename, given, separated, formatted]; rfl)
  · exact .pure (by rw [ExprOptions.Alike, ExprOptions.rename, given, separated, nulled]; rfl)
  · exact .fail _ _

theorem parallel_option {o o' : ExprOptions} (alike : o.Alike f o') :
    Parse.Parallel fits (ExprOptions.Alike f) (option g o) (option g' o') := by
  rw [option_eq, option_eq]
  refine Parallel.expectName.bind_equal fun name => (Parallel.eat _).bind_equal fun given => ?_
  dsimp only
  split
  · exact (parallel_sum inside).bind fun _ _ => parallel_setOption alike name
  · have empty : (Expr.text "").Alike f (.text "") := rfl
    exact (Parallel.pure empty).bind fun _ _ => parallel_setOption alike name

theorem parallel_addOption {o o' : ExprOptions} (alike : o.Alike f o') :
    Parse.Parallel fits (ExprOptions.Alike f) (addOption g o) (addOption g' o') := by
  refine (parallel_option inside alike).attempt.bind fun added? added?' added => ?_
  cases added with
  | none => exact (Parallel.synchronize _).bind_equal fun _ => .pure alike
  | some same => exact .pure same

section Templates

variable (contexts : ctx.Parallel f fits ctx')
include contexts

omit inside in
theorem parallel_inlineTemplate {raw : List Char} (fitting : fits raw) (pos pos' : Position) :
    Parse.Parallel fits (Template.Alike f) (inlineTemplate ctx raw pos)
      (inlineTemplate ctx' raw pos') := by
  intro st st' parallel
  have name := contexts.names (st.inlines + 1)
  have chunks := contexts.chunks (st.inlines + 1) raw fitting
  have clean := contexts.clean (st.inlines + 1) raw fitting
  obtain ⟨rest, stop, errors, inlines⟩ := st
  obtain ⟨rest', stop', errors', inlines'⟩ := st'
  obtain rfl : inlines = inlines' := parallel.inlines
  refine ⟨.some ?_, ⟨parallel.symbols, ?_, rfl, parallel.fits⟩⟩
  · rw [Template.Alike, Template.rename_eq, Template.rename_eq]
    exact Template.mk.injEq .. ▸ ⟨name, rfl, chunks, rfl, rfl⟩
  · refine (parallel.record ?_).clean
    rw [List.map_eq_nil_iff, List.map_eq_nil_iff]
    exact clean

theorem parallel_templateRef :
    Parse.Parallel fits (TemplateRef.Alike f) (templateRef ctx g) (templateRef ctx' g') := by
  have named {target target' : Target} (alike : target.rename f = target'.rename f) :
      Parse.Parallel fits (TemplateRef.Alike f)
        (do pure (.named target (← arguments g))) (do pure (.named target' (← arguments g'))) := by
    refine (parallel_arguments inside).bind fun args args' same => .pure ?_
    unfold TemplateRef.Alike TemplateRef.rename
    rw [alike, show args.rename f = args'.rename f from same]
  refine Parallel.bind_peek fun found fitting => ?_
  split
  · rename_i name
    refine Parallel.advance.bind_equal fun _ => ?_
    have following (isSuper : Bool) :
        Parse.Parallel fits (TemplateRef.Alike f)
          (do
            let target ← if isSuper then Target.super <$> expectName else pure (.name name)
            pure (.named target (← arguments g)))
          (do
            let target ← if isSuper then Target.super <$> expectName else pure (.name name)
            pure (.named target (← arguments g'))) := by
      split
      · exact (Parallel.expectName.bind_equal fun _ => .pure rfl).bind_equal fun _ => named rfl
      · exact (Parallel.pure rfl).bind_equal fun _ => named rfl
    dsimp only
    split
    · exact (Parallel.eat _).bind_equal following
    · exact (Parallel.pure rfl).bind_equal following
  · refine Parallel.advance.bind_equal fun _ => (inside.templates true).bind fun v v' same => ?_
    exact (Parallel.expect _).bind_equal fun _ => named (congrArg Target.computed same)
  · rename_i raw
    refine Parallel.position.bind fun pos pos' _ => Parallel.advance.bind_equal fun _ => ?_
    exact (parallel_inlineTemplate contexts (fitting raw rfl) pos pos').bind fun t t' alike =>
      .pure (congrArg TemplateRef.inline alike)
  · exact .fail _ _

theorem parallel_addApplication (top : Bool) (alike : e.Alike f e') :
    Parse.Parallel fits (Expr.Alike f) (addApplication ctx g top e)
      (addApplication ctx' g' top e') := by
  have add (refs refs' : List TemplateRef) (alike : TemplateRef.AllAlike f refs refs') :
      Parse.Parallel fits (TemplateRef.AllAlike f) (addTemplate ctx g refs)
        (addTemplate ctx' g' refs') :=
    (parallel_templateRef inside contexts).bind fun ref ref' same => .pure (by
      rw [TemplateRef.AllAlike, List.map_append, List.map_append, alike, List.map_singleton,
        List.map_singleton, show ref.rename f = ref'.rename f from same])
  have applied {refs refs' : List TemplateRef} (same : TemplateRef.AllAlike f refs refs') :
      Parse.Parallel fits (Expr.Alike f) (pure (.apply e refs)) (pure (.apply e' refs')) :=
    .pure (by
      unfold Expr.Alike Expr.rename
      rw [TemplateRef.renameAll_eq, TemplateRef.renameAll_eq,
        show e.rename f = e'.rename f from alike, show refs.map _ = refs'.map _ from same])
  refine (add [] [] rfl).bind fun one one' same => ?_
  dsimp only
  split
  · exact (Parallel.repeated add same).bind fun _ _ => applied
  · exact applied same

theorem parallel_aligned (alike : e.Alike f e') :
    Parse.Parallel fits (Expr.Alike f) (aligned ctx g e) (aligned ctx' g' e') := by
  have add (items items' : List Expr) (alike : Expr.AllAlike f items items') :
      Parse.Parallel fits (Expr.AllAlike f) (addSource g items) (addSource g' items') :=
    (parallel_sum inside).bind fun e e' same => .pure (by
      rw [Expr.AllAlike, List.map_append, List.map_append, alike, List.map_singleton,
        List.map_singleton, show e.rename f = e'.rename f from same])
  have first : Expr.AllAlike f [e] [e'] := by
    rw [Expr.AllAlike, List.map_singleton, List.map_singleton,
      show e.rename f = e'.rename f from alike]
  refine (Parallel.repeated add first).bind fun all all' same => ?_
  refine (Parallel.expect _).bind_equal fun _ => ?_
  refine (parallel_templateRef inside contexts).bind fun ref ref' same' => .pure ?_
  unfold Expr.Alike Expr.rename
  rw [Expr.renameAll_eq, Expr.renameAll_eq, show all.map _ = all'.map _ from same,
    show ref.rename f = ref'.rename f from same']

theorem parallel_application (top : Bool) :
    Parse.Parallel fits (Expr.Alike f) (application ctx g top) (application ctx' g' top) := by
  refine (parallel_sum inside).bind fun first first' alike => ?_
  refine Parallel.peek.bind_equal fun found => ?_
  have applied {e e' : Expr} (alike : e.Alike f e') :
      Parse.Parallel fits (Expr.Alike f) (repeated .colon (addApplication ctx g top) e)
        (repeated .colon (addApplication ctx' g' top) e') :=
    .repeated (fun _ _ => parallel_addApplication inside contexts top) alike
  dsimp only
  split
  · exact (parallel_aligned inside contexts alike).bind fun _ _ => applied
  · exact applied alike

omit contexts in
theorem parallel_optionsBehind (alike : e.Alike f e') :
    Parse.Parallel fits (fun r r' => r.1.Alike f r'.1 ∧ r.2.Alike f r'.2) (optionsBehind g e)
      (optionsBehind g' e') := by
  refine (Parallel.eat _).bind_equal fun given => ?_
  dsimp only
  split
  · refine (parallel_addOption inside rfl).bind fun _ _ same => ?_
    refine (Parallel.repeated (fun _ _ => parallel_addOption inside) same).bind fun _ _ same => ?_
    exact Parallel.expectEnd.bind_equal fun _ => .pure ⟨alike, same⟩
  · have none : ExprOptions.none.Alike f .none := rfl
    exact (Parallel.pure none).bind fun _ _ same =>
      Parallel.expectEnd.bind_equal fun _ => .pure ⟨alike, same⟩

theorem parallel_action :
    Parse.Parallel fits (fun r r' => r.1.Alike f r'.1 ∧ r.2.Alike f r'.2) (action ctx g)
      (action ctx' g') := by
  rw [action_eq, action_eq]
  refine (parallel_application inside contexts true).attempt.bind fun e? e?' related => ?_
  cases related with
  | none => exact (Parallel.synchronize _).bind_equal fun _ => parallel_optionsBehind inside rfl
  | some alike => exact parallel_optionsBehind inside alike

theorem parallel_condition :
    Parse.Parallel fits (Expr.Alike f) (condition ctx g) (condition ctx' g') := by
  refine (Parallel.eat _).bind_equal fun negated => ?_
  refine (parallel_application inside contexts true).attempt.bind fun e? e?' related => ?_
  have alike : (e?.getD (.text "")).Alike f (e?'.getD (.text "")) := by
    cases related with
    | none => rfl
    | some alike => exact alike
  refine Parallel.expectEnd.bind_equal fun _ => .pure ?_
  split
  · exact congrArg Expr.not alike
  · exact alike

end Templates
end Brackets

section Whole

variable (contexts : ctx.Parallel f fits ctx')
include contexts

theorem parallel_ofDepth (depth : Nat) :
    (ofDepth ctx depth).Parallel f fits (ofDepth ctx' depth) := by
  induction depth with
  | zero => exact ⟨fun _ => .giveUp, .giveUp⟩
  | succ depth ih => exact ⟨fun top => parallel_application ih contexts top, parallel_sum ih⟩

/-- What a source parses to has nothing to do with the place that it stands at. -/
theorem parallel_parseAll {α β : Type} {R : α → β → Prop} {parser : Grammar → Parse α}
    {parser' : Grammar → Parse β} {default : α} {default' : β}
    (parallel : ∀ g g', g.Parallel f fits g' → Parse.Parallel fits R (parser g) (parser' g'))
    (unscanned : R default default') (pos pos' : Position) {source : List Char}
    (fitting : Lexeme.InlinesFit fits source) :
    R (parseAll ctx parser default pos source).1 (parseAll ctx' parser' default' pos' source).1 ∧
      ((parseAll ctx parser default pos source).2 = [] ↔
        (parseAll ctx' parser' default' pos' source).2 = []) := by
  rcases Lexeme.scan_moved pos pos' source with
    ⟨e, e', failed, failed'⟩ | ⟨lexemes, lexemes', scanned, scanned', symbols⟩
  · rw [parseAll, parseAll, failed, failed']
    exact ⟨unscanned, by simp⟩
  · have same : lexemes.items.length = lexemes'.items.length := by
      simpa using congrArg List.length symbols
    have states : ParseState.Parallel fits
        { rest := lexemes.items, stop := lexemes.stop, errors := [], inlines := 0 }
        { rest := lexemes'.items, stop := lexemes'.stop, errors := [], inlines := 0 } :=
      ⟨symbols, Iff.rfl, rfl, fitting pos lexemes scanned⟩
    obtain ⟨result, after⟩ := parallel _ _
      (parallel_ofDepth contexts (lexemes.items.length + 1)) _ _ states
    rw [parseAll, parseAll, scanned, scanned']
    dsimp only
    rw [← same]
    refine ⟨?_, after.clean⟩
    generalize (parser _ _).1 = a? at result ⊢
    generalize (parser' _ _).1 = b? at result ⊢
    cases result with
    | none => exact unscanned
    | some related => exact related

theorem parallel_parseAction (pos pos' : Position) {source : List Char}
    (fitting : Lexeme.InlinesFit fits source) :
    ((parseAction ctx pos source).1.1.Alike f (parseAction ctx' pos' source).1.1 ∧
      (parseAction ctx pos source).1.2.Alike f (parseAction ctx' pos' source).1.2) ∧
    ((parseAction ctx pos source).2 = [] ↔ (parseAction ctx' pos' source).2 = []) :=
  parallel_parseAll contexts (fun _ _ inside => parallel_action inside contexts) ⟨rfl, rfl⟩ pos
    pos' fitting

theorem parallel_parseCondition (pos pos' : Position) {source : List Char}
    (fitting : Lexeme.InlinesFit fits source) :
    (parseCondition ctx pos source).1.Alike f (parseCondition ctx' pos' source).1 ∧
    ((parseCondition ctx pos source).2 = [] ↔ (parseCondition ctx' pos' source).2 = []) :=
  parallel_parseAll contexts (fun _ _ inside => parallel_condition inside contexts) rfl pos pos'
    fitting

end Whole
end Grammar
end Stencil
