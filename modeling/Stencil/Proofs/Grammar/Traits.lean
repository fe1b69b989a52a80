import Stencil.Proofs.Arguments.Names
import Stencil.Proofs.Grammar.Lookahead
/-!
# Traits of phrases

A trait that every phrase takes over from its parts is a trait of all that is parsed, be the source
well formed or not: what recovery leaves out or puts in has it as well. What the grammar guarantees
of the parts, such as the number of templates in an application, may be used for the phrase.
-/
namespace Stencil

open Text (Position)

/-- A trait of the phrases of each kind, and of the chunks of a template with its name. -/
structure Traits where
  expr : Expr → Prop
  target : Target → Prop
  args : Arguments → Prop
  ref : TemplateRef → Prop
  options : ExprOptions → Prop
  chunks : String → List Chunk → Prop

/-- Phrases take the trait over from their parts. -/
structure Traits.Expressed (T : Traits) : Prop where
  ofAttribute (name : String) : T.expr (.attribute name)
  ofNumber (n : Int64) : T.expr (.number n)
  ofText (s : String) : T.expr (.text s)
  ofConcat {left right : Expr} : T.expr left → T.expr right → T.expr (.concat left right)
  ofProperty {target : Expr} (name : String) : T.expr target →
    T.expr (.property target (.fixed name))
  ofComputedProperty {target inner : Expr} : T.expr target → T.expr inner →
    T.expr (.property target (.computed inner))
  ofCall {target : Target} {args : Arguments} : T.target target → T.args args →
    T.expr (.call target args)
  ofApply {source : Expr} {refs : List TemplateRef} : T.expr source → refs ≠ [] →
    (∀ ref ∈ refs, T.ref ref) → T.expr (.apply source refs)
  ofApplyAligned {sources : List Expr} {ref : TemplateRef} : 2 ≤ sources.length →
    (∀ e ∈ sources, T.expr e) → T.ref ref → T.expr (.applyAligned sources ref)
  ofRendered {inner : Expr} : T.expr inner → T.expr (.rendered inner)
  ofNot {inner : Expr} : T.expr inner → T.expr (.not inner)
  ofBuiltin (f : Builtin) {inner : Expr} : T.expr inner → T.expr (.builtin f inner)
  ofList {items : List Expr} : (∀ e ∈ items, T.expr e) → T.expr (.list items)
  ofName (name : String) : T.target (.name name)
  ofSuper (name : String) : T.target (.super name)
  ofComputed {inner : Expr} : T.expr inner → T.target (.computed inner)
  ofNoArgs : T.args .none
  ofNamed {bindings : List (String × Expr)} : (bindings.map Prod.fst).Nodup →
    (∀ b ∈ bindings, T.expr b.2) → T.args (.named bindings)
  ofPositional {value : Expr} : T.expr value → T.args (.positional value)
  ofReference {target : Target} {args : Arguments} : T.target target → T.args args →
    T.ref (.named target args)
  ofInline {name : String} {chunks : List Chunk} (formals : List String) : T.chunks name chunks →
    T.ref (.inline ⟨name, formals, chunks, true, none⟩)
  ofNoOptions : T.options .none
  ofSeparator {o : ExprOptions} {e : Expr} : T.options o → T.expr e →
    T.options { o with separator := some e }
  ofNull {o : ExprOptions} {e : Expr} : T.options o → T.expr e → T.options { o with null := some e }
  ofFormat {o : ExprOptions} {e : Expr} : T.options o → T.expr e →
    T.options { o with format := some e }

/-- The templates written in place are compiled to chunks with the trait. -/
def ParseContext.Has (T : Traits) (ctx : ParseContext) : Prop :=
  ∀ name body, T.chunks name (ctx.compileInline name body).1

namespace Parse

/-- Where the mark is next, a step is taken. -/
theorem yields_repeated_of_starts {α : Type} {m : Mark} {next : α → Parse α} {P Q : α → Prop}
    (once : ∀ a, P a → (next a).Yields Q) (again : ∀ a, Q a → (next a).Yields Q) {a b : α}
    {st st' : ParseState} (starts : Symbol.Starts m st.symbols) (holds : P a)
    (ran : repeated m next a st = (some b, st')) : Q b := by
  obtain ⟨n, length⟩ : ∃ n, st.rest.length = n + 1 := by
    rw [← st.length_symbols]
    cases remain : st.symbols with
    | nil =>
      rw [remain] at starts
      cases starts
    | cons => exact ⟨_, rfl⟩
  rw [repeated, length, chain, bind_eat_of_starts _ starts, if_pos rfl] at ran
  exact Yields.bind (once a holds) (fun _ => .chain again n) _ b st' ran

end Parse

namespace Grammar

open Parse

/-- The phrases inside brackets have the trait. -/
structure Has (T : Traits) (g : Grammar) : Prop where
  templates (top : Bool) : (g.templates top).Yields T.expr
  expr : g.expr.Yields T.expr

variable {T : Traits} (takes : T.Expressed) {ctx : ParseContext} {g : Grammar}
include takes

section Brackets

variable (has : g.Has T)
include has

omit takes in
theorem has_addAssignment {bindings : List (String × Expr)} (values : ∀ b ∈ bindings, T.expr b.2) :
    (addAssignment g bindings).Yields fun all => ∀ b ∈ all, T.expr b.2 := by
  have assigned : (assignment g).Yields fun b => T.expr b.2 :=
    .skip fun _ => .skip fun _ => .bind (has.templates false) fun _ value => .pure value
  refine .bind assigned.attempt fun added? added => ?_
  rcases added? with _ | ⟨name, value⟩
  · exact .skip fun _ => .pure values
  · dsimp only
    split
    · exact .skip fun _ => .pure values
    · exact .pure (List.forall_mem_append.2 ⟨values, List.forall_mem_singleton.2 (added _ rfl)⟩)

theorem has_arguments : (arguments g).Yields T.args := by
  -- Each step of the list keeps both what is known of the names and what is known of the values.
  have add {bindings : List (String × Expr)}
      (holds : Distinct bindings ∧ ∀ b ∈ bindings, T.expr b.2) :
      (addAssignment g bindings).Yields fun all => Distinct all ∧ ∀ b ∈ all, T.expr b.2 :=
    .and (distinct_addAssignment g holds.1) (has_addAssignment has holds.2)
  refine .skip fun _ => .skip fun closed => ?_
  split
  · exact .pure takes.ofNoArgs
  · refine .skip fun first => .skip fun second => ?_
    split
    · refine .bind (add ⟨distinct_nil, List.forall_mem_nil _⟩) fun one holds => ?_
      refine .bind (.repeated (fun _ => add) holds) fun all holds => ?_
      exact .skip fun _ => .pure (takes.ofNamed holds.1 holds.2)
    · exact .bind (has.templates false) fun _ value =>
        .skip fun _ => .pure (takes.ofPositional value)

theorem has_afterName (name : String) : (afterName g name).Yields T.expr := by
  have called {target : Target} (holds : T.target target) :
      (arguments g >>= fun args => Pure.pure (Expr.call target args)).Yields T.expr :=
    .bind (has_arguments takes has) fun _ args => .pure (takes.ofCall holds args)
  refine .skip fun found => ?_
  split
  · split
    · exact .skip fun _ => .skip fun target => called (takes.ofSuper target)
    · exact .pure (takes.ofAttribute name)
  · split
    · exact .skip fun _ => .bind (has.templates true) fun _ inner =>
        .skip fun _ => .pure (takes.ofBuiltin _ inner)
    · exact called (takes.ofName name)
  · exact .pure (takes.ofAttribute name)

theorem has_listItems : (listItems g).Yields T.expr := by
  have add {items : List Expr} (holds : ∀ e ∈ items, T.expr e) :
      (addExpr g items).Yields fun all => ∀ e ∈ all, T.expr e :=
    .bind has.expr fun e item =>
      .pure (List.forall_mem_append.2 ⟨holds, List.forall_mem_singleton.2 item⟩)
  refine .skip fun closed => ?_
  split
  · exact .pure (takes.ofList (List.forall_mem_nil _))
  · refine .bind (add (List.forall_mem_nil _)) fun one holds => ?_
    refine .bind (.repeated (fun _ => add) holds) fun all holds => ?_
    exact .skip fun _ => .pure (takes.ofList holds)

theorem has_parenthesized : (parenthesized g).Yields T.expr := by
  refine .bind (has.templates true) fun inner holds => .skip fun _ => .skip fun found => ?_
  split
  · exact .bind (has_arguments takes has) fun _ args =>
      .pure (takes.ofCall (takes.ofComputed holds) args)
  · exact .pure (takes.ofRendered holds)

theorem has_atom : (atom g).Yields T.expr := by
  refine .skip fun found? => ?_
  cases found? with
  | none => exact .fail _
  | some found =>
    cases found with
    | name name => exact .skip fun _ => has_afterName takes has name
    | text s => exact .skip fun _ => .pure (takes.ofText s)
    | number n => exact .skip fun _ => .pure (takes.ofNumber n)
    | inline => exact .fail _
    | mark m =>
      cases m with
      | leftBracket => exact .skip fun _ => has_listItems takes has
      | leftParen => exact .skip fun _ => has_parenthesized takes has
      | _ => exact .fail _

theorem has_addProperty {target : Expr} (holds : T.expr target) :
    (addProperty g target).Yields T.expr := by
  refine .skip fun found => ?_
  split
  · exact .skip fun _ => .pure (takes.ofProperty _ holds)
  · exact .skip fun _ => .bind (has.templates true) fun _ inner => .skip fun _ =>
      .pure (takes.ofComputedProperty holds inner)
  · exact .fail _

theorem has_primary : (primary g).Yields T.expr :=
  .bind (has_atom takes has) fun _ holds => .repeated (fun _ => has_addProperty takes has) holds

theorem has_sum : (sum g).Yields T.expr := by
  have add {left : Expr} (holds : T.expr left) : (addPrimary g left).Yields T.expr :=
    .bind (has_primary takes has) fun _ right => .pure (takes.ofConcat holds right)
  exact .bind (has_primary takes has) fun _ holds => .repeated (fun _ => add) holds

omit has in
theorem has_setOption {options : ExprOptions} (holds : T.options options) (name : String)
    {value : Expr} (given : T.expr value) : (setOption options name value).Yields T.options := by
  unfold setOption
  split
  · exact .pure (takes.ofSeparator holds given)
  · exact .pure (takes.ofNull holds given)
  · exact .pure (takes.ofFormat holds given)
  · exact .fail _

theorem has_addOption {options : ExprOptions} (holds : T.options options) :
    (addOption g options).Yields T.options := by
  have set : (option g options).Yields T.options := by
    rw [option_eq]
    refine .skip fun name => .skip fun given => ?_
    dsimp only
    split
    · exact .bind (has_sum takes has) fun _ => has_setOption takes holds name
    · exact .bind (.pure (takes.ofText "")) fun _ => has_setOption takes holds name
  refine .bind set.attempt fun added? added => ?_
  rcases added? with _ | options'
  · exact .skip fun _ => .pure holds
  · exact .pure (added _ rfl)

theorem has_optionsBehind {e : Expr} (holds : T.expr e) :
    (optionsBehind g e).Yields fun chunk => T.expr chunk.1 ∧ T.options chunk.2 := by
  refine .skip fun given => ?_
  dsimp only
  split
  · refine .bind (has_addOption takes has takes.ofNoOptions) fun _ options => ?_
    refine .bind (.repeated (fun _ => has_addOption takes has) options) fun _ options => ?_
    exact .skip fun _ => .pure ⟨holds, options⟩
  · exact .bind (.pure takes.ofNoOptions) fun _ options => .skip fun _ => .pure ⟨holds, options⟩

section Templates

variable (compiles : ctx.Has T)
include compiles

omit has in
theorem has_inlineTemplate (raw : List Char) (pos : Position) :
    (inlineTemplate ctx raw pos).Yields fun t => T.ref (.inline t) := by
  rintro st t st' ran
  cases ran
  exact takes.ofInline _ (compiles _ _)

theorem has_templateRef : (templateRef ctx g).Yields T.ref := by
  have named {target : Target} (holds : T.target target) :
      (arguments g >>= fun args => Pure.pure (TemplateRef.named target args)).Yields T.ref :=
    .bind (has_arguments takes has) fun _ args => .pure (takes.ofReference holds args)
  refine .skip fun found => ?_
  split
  · refine .skip fun _ => ?_
    have following (isSuper : Bool) (name : String) :
        (do
          let target ← if isSuper then Target.super <$> expectName else Pure.pure (.name name)
          Pure.pure (TemplateRef.named target (← arguments g))).Yields T.ref := by
      split
      · exact .bind (.skip fun name => .pure (takes.ofSuper name)) fun _ => named
      · exact .bind (.pure (takes.ofName name)) fun _ => named
    dsimp only
    split
    · exact .skip fun isSuper => following isSuper _
    · exact .skip fun isSuper => following isSuper _
  · exact .skip fun _ => .bind (has.templates true) fun _ inner =>
      .skip fun _ => named (takes.ofComputed inner)
  · exact .skip fun pos => .skip fun _ =>
      .bind (has_inlineTemplate takes compiles _ pos) fun _ holds => .pure holds
  · exact .fail _

theorem has_addApplication (top : Bool) {source : Expr} (holds : T.expr source) :
    (addApplication ctx g top source).Yields T.expr := by
  have add {refs : List TemplateRef} (holds : ∀ ref ∈ refs, T.ref ref) :
      (addTemplate ctx g refs).Yields fun all => all ≠ [] ∧ ∀ ref ∈ all, T.ref ref :=
    .bind (has_templateRef takes has compiles) fun ref holds' =>
      .pure ⟨by simp, List.forall_mem_append.2 ⟨holds, List.forall_mem_singleton.2 holds'⟩⟩
  have applied {refs : List TemplateRef} (given : refs ≠ [] ∧ ∀ ref ∈ refs, T.ref ref) :
      (Pure.pure (Expr.apply source refs) : Parse Expr).Yields T.expr :=
    .pure (takes.ofApply holds given.1 given.2)
  refine .bind (add (List.forall_mem_nil _)) fun one given => ?_
  dsimp only
  split
  · exact .bind (.repeated (fun _ given => add given.2) given) fun _ => applied
  · exact applied given

/-- An aligned application is read where a comma comes next, so it has a second source. -/
theorem has_aligned {first e : Expr} (holds : T.expr first) {st st' : ParseState}
    (comma : Symbol.Starts .comma st.symbols) (ran : aligned ctx g first st = (some e, st')) :
    T.expr e := by
  have add {sources : List Expr} (nonempty : sources ≠ []) (holds : ∀ e ∈ sources, T.expr e) :
      (addSource g sources).Yields fun all => 2 ≤ all.length ∧ ∀ e ∈ all, T.expr e :=
    .bind (has_sum takes has) fun e source => by
      refine .pure ⟨?_, List.forall_mem_append.2 ⟨holds, List.forall_mem_singleton.2 source⟩⟩
      have := List.length_pos_iff.2 nonempty
      rw [List.length_append, List.length_singleton]
      omega
  rw [aligned, bind_apply] at ran
  rcases read : repeated .comma (addSource g) [first] st with ⟨_ | sources, between⟩
  · rw [read] at ran
    cases ran
  · rw [read] at ran
    obtain ⟨two, sources⟩ := yields_repeated_of_starts
      (P := fun sources => sources ≠ [] ∧ ∀ e ∈ sources, T.expr e)
      (fun _ given => add given.1 given.2)
      (fun _ given => add (fun none => by simp [none] at given) given.2) comma
      ⟨by simp, List.forall_mem_singleton.2 holds⟩ read
    have behind : (do
        expect .colon
        Pure.pure (Expr.applyAligned _ (← templateRef ctx g))).Yields T.expr :=
      .skip fun _ => .bind (has_templateRef takes has compiles) fun _ ref =>
        .pure (takes.ofApplyAligned two sources ref)
    exact behind between e st' ran

theorem has_application (top : Bool) : (application ctx g top).Yields T.expr := by
  have applied {source : Expr} (holds : T.expr source) :
      (repeated .colon (addApplication ctx g top) source).Yields T.expr :=
    .repeated (fun _ => has_addApplication takes has compiles top) holds
  refine .bind (has_sum takes has) fun first holds st e st' ran => ?_
  by_cases next : top = true ∧ Symbol.Starts .comma st.symbols
  · obtain ⟨rfl, comma⟩ := next
    replace ran := (aligned_branch comma).symm.trans ran
    rw [bind_apply] at ran
    rcases read : aligned ctx g first st with ⟨_ | source, between⟩
    · rw [read] at ran
      cases ran
    · rw [read] at ran
      exact applied (has_aligned takes has compiles holds comma read) between e st' ran
  · replace ran := (single_branch next).symm.trans ran
    exact applied holds st e st' ran

theorem has_action :
    (action ctx g).Yields fun chunk => T.expr chunk.1 ∧ T.options chunk.2 := by
  rw [action_eq]
  refine .bind (has_application takes has compiles true).attempt fun e? holds => ?_
  rcases e? with _ | e
  · exact .skip fun _ => has_optionsBehind takes has (takes.ofText "")
  · exact has_optionsBehind takes has (holds e rfl)

theorem has_condition : (condition ctx g).Yields T.expr := by
  refine .skip fun negated => ?_
  refine .bind (has_application takes has compiles true).attempt fun e? holds => ?_
  have given : T.expr (e?.getD (.text "")) := by
    rcases e? with _ | e
    · exact takes.ofText ""
    · exact holds e rfl
  refine Parse.Yields.skip fun _ => .pure ?_
  split
  · exact takes.ofNot given
  · exact given

end Templates
end Brackets

section Whole

variable (compiles : ctx.Has T)
include compiles

theorem has_ofDepth (depth : Nat) : (ofDepth ctx depth).Has T := by
  induction depth with
  | zero => exact ⟨fun _ => .giveUp, .giveUp⟩
  | succ depth ih =>
    exact ⟨fun top => has_application takes ih compiles top, has_sum takes ih⟩

theorem has_parseAll {α : Type} {P : α → Prop} {parser : Grammar → Parse α} {default : α}
    (yields : ∀ {g}, g.Has T → (parser g).Yields P) (holds : P default) (pos : Position)
    (source : List Char) : P (parseAll ctx parser default pos source).1 := by
  unfold parseAll
  split
  · exact holds
  · rename_i lexemes _
    have has := has_ofDepth takes compiles (lexemes.items.length + 1)
    dsimp only
    generalize ran : parser _ _ = r
    rcases r with ⟨_ | a, st⟩
    · exact holds
    · exact yields has _ a st ran

/-- Whatever stands in a chunk, what is made of it has the trait. -/
theorem has_parseAction (pos : Position) (source : List Char) :
    T.expr (parseAction ctx pos source).1.1 ∧ T.options (parseAction ctx pos source).1.2 :=
  has_parseAll takes compiles (fun has => has_action takes has compiles)
    ⟨takes.ofText "", takes.ofNoOptions⟩ pos source

theorem has_parseCondition (pos : Position) (source : List Char) :
    T.expr (parseCondition ctx pos source).1 :=
  has_parseAll takes compiles (fun has => has_condition takes has compiles) (takes.ofText "") pos
    source

end Whole
end Grammar
end Stencil
