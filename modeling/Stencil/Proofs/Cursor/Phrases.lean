import Stencil.Proofs.Cursor.Following
import Stencil.Proofs.Parallel.Grammar
/-!
# The phrases of a cursor

Each phrase of the grammar is followed by the walk of the same name. Inside brackets the walks may
be counted on where fewer lexemes are left than in front of the bracket, and that is the only place
where a phrase begins inside another one. So a grammar that is unrolled as deep as there are lexemes
is followed by the walks that know no depth.
-/
namespace Stencil

open Text (Position)

namespace Walks

open Walk (Follows FollowsAt)

/-- The phrases inside brackets are followed where fewer than `n` lexemes are left. -/
structure Follows (fits : List Char → Prop) (n : Nat) (w : Walks) (g : Grammar) : Prop where
  templates (top : Bool) : Walk.Follows fits n (w.templates top) (g.templates top)
  expr : Walk.Follows fits n w.expr g.expr

variable {ctx : ParseContext} {fits : List Char → Prop} {n : Nat} {w : Walks} {g : Grammar}

/-- A body that is handed back is compiled as the parser compiles it. -/
theorem follows_inlineTemplate [DecidablePred fits] {raw : List Char} (fitting : fits raw)
    (pos : Position) :
    Walk.Follows fits n (inlineTemplate ctx fits raw pos) (Grammar.inlineTemplate ctx raw pos) := by
  intro front st _
  refine ⟨[], rfl, ?_⟩
  rw [inlineTemplate, if_pos fitting, List.append_nil]
  rfl

section Brackets

variable (inside : w.Follows fits n g)
include inside

theorem follows_assignment : Walk.Follows fits n (assignment w) (Grammar.assignment g) :=
  Follows.expectName.bind fun _ => (Follows.expect _).bind fun _ =>
    (inside.templates false).bind fun _ => .pure _

theorem follows_addAssignment (bindings : List (String × Expr)) :
    Walk.Follows fits n (addAssignment w bindings) (Grammar.addAssignment g bindings) := by
  refine (follows_assignment inside).attempt.bind fun added? => ?_
  cases added? with
  | none => exact (Follows.synchronize _).bind fun _ => .pure _
  | some added =>
    dsimp only
    split
    · exact (Follows.report _).bind fun _ => .pure _
    · exact .pure _

theorem follows_arguments :
    Walk.Follows fits (n + 1) (arguments w) (Grammar.arguments g) := by
  refine Follows.bind_expect fun _ => (Follows.eat _).bind fun closed => ?_
  split
  · exact .pure _
  · have positional : Walk.Follows fits n
        (do
          let value ← w.templates false
          Walk.expect .rightParen
          pure (Arguments.positional value))
        (do
          let value ← g.templates false
          Parse.expect .rightParen
          pure (Arguments.positional value)) :=
      (inside.templates false).bind fun _ => (Follows.expect _).bind fun _ => .pure _
    have add := follows_addAssignment inside
    refine Follows.peek.bind fun first? => Follows.peekSecond.bind fun second? => ?_
    rcases first? with _ | (name | _ | _ | _ | _)
    case some.name =>
      rcases second? with _ | (_ | _ | _ | _ | m)
      case some.mark =>
        cases m with
        | equals =>
          exact (add []).bind fun first => (Follows.repeated add first).inner.bind fun _ =>
            (Follows.expect _).bind fun _ => .pure _
        | _ => exact positional
      all_goals exact positional
    all_goals exact positional

theorem follows_call (target : Target) :
    Walk.Follows fits (n + 1) (do pure (Expr.call target (← arguments w)))
      (do pure (Expr.call target (← Grammar.arguments g))) :=
  (follows_arguments inside).bind fun _ => .pure _

theorem follows_afterName (name : String) :
    Walk.Follows fits n (afterName w name) (Grammar.afterName g name) := by
  have call (target : Target) := (follows_call inside target).inner
  refine Follows.bind_peek fun found? => Follows.at_ ?_
  rcases found? with _ | (_ | _ | _ | _ | m)
  case some.mark =>
    cases m with
    | dot =>
      dsimp only
      split
      · exact Follows.advance.bind fun _ => Follows.expectName.bind fun _ => call _
      · exact .pure _
    | leftParen =>
      dsimp only
      cases Builtin.ofName? name with
      | none => exact call _
      | some function =>
        exact Follows.advance.bind fun _ => (inside.templates true).bind fun _ =>
          (Follows.expect _).bind fun _ => .pure _
    | _ => exact .pure _
  all_goals exact .pure _

theorem follows_listItems : Walk.Follows fits n (listItems w) (Grammar.listItems g) := by
  have add (items : List Expr) :
      Walk.Follows fits n (addExpr w items) (Grammar.addExpr g items) :=
    inside.expr.bind fun _ => .pure _
  refine (Follows.eat _).bind fun closed => ?_
  split
  · exact .pure _
  · exact (add []).bind fun items => (Follows.repeated add items).inner.bind fun _ =>
      (Follows.expect _).bind fun _ => .pure _

theorem follows_parenthesized :
    Walk.Follows fits n (parenthesized w) (Grammar.parenthesized g) := by
  refine (inside.templates true).bind fun inner => (Follows.expect _).bind fun _ => ?_
  refine Follows.bind_peek fun found? => Follows.at_ ?_
  rcases found? with _ | (_ | _ | _ | _ | m)
  case some.mark =>
    cases m with
    | leftParen => exact (follows_call inside _).inner
    | _ => exact .pure _
  all_goals exact .pure _

omit inside in
/-- The walk steps back to the symbol that it has consumed, never further. -/
theorem refuse_after {l : Lexeme} {rest front : List Lexeme} {st : ParseState}
    (next : st.rest = l :: rest) (problem : SourceProblem) :
    refuse (some l.symbol) problem (.after (front ++ [l]) { st with rest }) =
      Walk.fail problem (.after front st) :=
  Walk.bind_of_some _ (Walk.stepBack_after next)

/-- The walk consumes before it looks, and the parser looks before it consumes. They meet where the
symbol is of use, and where the walk has stepped back from one that is not. -/
theorem follows_atom : Walk.Follows fits (n + 1) (atom w) (Grammar.atom g) := by
  intro front st ahead
  cases next : st.rest with
  | nil =>
    refine (Follows.fail (n := n + 1) (.unexpectedSymbol none) front st ahead).congr ?_ ?_
    · exact Walk.bind_of_some _ (Walk.take_after_end next)
    · rw [Grammar.atom, Parse.bind_peek, ParseState.symbols, next]
      rfl
  | cons l rest =>
    have split : st.rest = [l] ++ ({ st with rest } : ParseState).rest := next
    have behind : ParseState.Ahead fits n { st with rest } := ahead.fewer split (by simp [next])
    have looked {β : Type} (f : Option Symbol → Parse β) :
        (Parse.peek >>= f) st = f (some l.symbol) st := by
      rw [Parse.bind_peek, ParseState.symbols, next]
      rfl
    have advanced (p : Parse Expr) :
        (Parse.advance >>= fun _ => p) st = p { st with rest } := by
      change p { st with rest := st.rest.drop 1 } = _
      rw [next]
      rfl
    have taken {β : Type} (f : Option Symbol → Walk β) :
        (Walk.take >>= f) (.after front st) =
          f (some l.symbol) (.after (front ++ [l]) { st with rest }) :=
      Walk.bind_of_some f (Walk.take_after next)
    have refused (problem : SourceProblem) :
        Walk.Mirrors (Walk.fail problem : Walk Expr) (Parse.fail problem) front st :=
      Follows.fail problem front st ahead
    obtain ⟨symbol, pos⟩ := l
    cases symbol with
    | name name =>
      exact (follows_afterName inside name _ _ behind).consumed next (taken _)
        ((looked _).trans (advanced _))
    | text s =>
      exact (Follows.pure (n := n) (.text s) _ _ behind).consumed next (taken _)
        ((looked _).trans (advanced _))
    | number k =>
      exact (Follows.pure (n := n) (.number k) _ _ behind).consumed next (taken _)
        ((looked _).trans (advanced _))
    | «inline» raw =>
      exact (refused _).congr ((taken _).trans (refuse_after next _)) (looked _)
    | mark m =>
      cases m with
      | leftBracket =>
        exact (follows_listItems inside _ _ behind).consumed next (taken _)
          ((looked _).trans (advanced _))
      | leftParen =>
        exact (follows_parenthesized inside _ _ behind).consumed next (taken _)
          ((looked _).trans (advanced _))
      | _ => exact (refused _).congr ((taken _).trans (refuse_after next _)) (looked _)

theorem follows_addProperty (target : Expr) :
    Walk.Follows fits n (addProperty w target) (Grammar.addProperty g target) := by
  refine Follows.bind_peek fun found? => Follows.at_ ?_
  rcases found? with _ | (_ | _ | _ | _ | m)
  case some.name => exact Follows.advance.bind fun _ => .pure _
  case some.mark =>
    cases m with
    | leftParen =>
      exact Follows.advance.bind fun _ => (inside.templates true).bind fun _ =>
        (Follows.expect _).bind fun _ => .pure _
    | _ => exact Follows.fail _
  all_goals exact Follows.fail _

theorem follows_primary : Walk.Follows fits (n + 1) (primary w) (Grammar.primary g) :=
  (follows_atom inside).bind (Follows.repeated (follows_addProperty inside))

theorem follows_sum : Walk.Follows fits (n + 1) (sum w) (Grammar.sum g) := by
  have add (left : Expr) :
      Walk.Follows fits n (addPrimary w left) (Grammar.addPrimary g left) :=
    ((follows_primary inside).bind fun _ => .pure _).inner
  exact (follows_primary inside).bind (Follows.repeated add)

variable [DecidablePred fits]

theorem follows_templateRef :
    Walk.Follows fits n (templateRef (inlineTemplate ctx fits) w) (Grammar.templateRef ctx g) := by
  have named (target : Target) : Walk.Follows fits n
      (do pure (TemplateRef.named target (← arguments w)))
      (do pure (TemplateRef.named target (← Grammar.arguments g))) :=
    ((follows_arguments inside).bind fun _ => .pure _).inner
  refine Follows.bind_peek fun found? => ?_
  rcases found? with _ | (name | _ | _ | raw | m)
  case some.name =>
    have following (isSuper : Bool) : Walk.Follows fits n
        (do
          let target ← if isSuper then Target.super <$> Walk.expectName else pure (.name name)
          pure (TemplateRef.named target (← arguments w)))
        (do
          let target ← if isSuper then Target.super <$> Parse.expectName else pure (.name name)
          pure (TemplateRef.named target (← Grammar.arguments g))) := by
      split
      · exact (Follows.expectName.bind fun _ => .pure _).bind named
      · exact (Follows.pure _).bind named
    refine (Follows.advance.bind fun _ => ?_).at_
    dsimp only
    split
    · exact (Follows.eat _).bind following
    · exact (Follows.pure _).bind following
  case some.inline =>
    intro front st ahead next
    have fitting : fits raw := ahead.fitting (List.mem_of_head? next)
    have follows : Walk.Follows fits n
        (do
          let pos ← Walk.position
          Walk.advance
          pure (TemplateRef.inline (← inlineTemplate ctx fits raw pos)))
        (do
          let pos ← Parse.position
          Parse.advance
          pure (TemplateRef.inline (← Grammar.inlineTemplate ctx raw pos))) :=
      Follows.position.bind fun pos => Follows.advance.bind fun _ =>
        (follows_inlineTemplate fitting pos).bind fun _ => .pure _
    exact follows front st ahead
  case some.mark =>
    cases m with
    | leftParen =>
      exact (Follows.advance.bind fun _ => (inside.templates true).bind fun _ =>
        (Follows.expect _).bind fun _ => named _).at_
    | _ => exact (Follows.fail _).at_
  all_goals exact (Follows.fail _).at_

theorem follows_addApplication (top : Bool) (source : Expr) :
    Walk.Follows fits n (addApplication (inlineTemplate ctx fits) w top source)
      (Grammar.addApplication ctx g top source) := by
  have add (refs : List TemplateRef) : Walk.Follows fits n
      (addTemplate (inlineTemplate ctx fits) w refs) (Grammar.addTemplate ctx g refs) :=
    (follows_templateRef inside).bind fun _ => .pure _
  refine (add []).bind fun refs => ?_
  dsimp only
  split
  · exact (Follows.repeated add refs).inner.bind fun _ => .pure _
  · exact (Follows.pure _).bind fun _ => .pure _

theorem follows_aligned (first : Expr) :
    Walk.Follows fits (n + 1) (aligned (inlineTemplate ctx fits) w first)
      (Grammar.aligned ctx g first) := by
  have add (sources : List Expr) :
      Walk.Follows fits n (addSource w sources) (Grammar.addSource g sources) :=
    ((follows_sum inside).bind fun _ => .pure _).inner
  exact (Follows.repeated add _).bind fun _ => Follows.bind_expect fun _ =>
    (follows_templateRef inside).bind fun _ => .pure _

theorem follows_application (top : Bool) :
    Walk.Follows fits (n + 1) (application (inlineTemplate ctx fits) w top)
      (Grammar.application ctx g top) := by
  have applied (source : Expr) : Walk.Follows fits (n + 1)
      (Walk.repeated .colon (addApplication (inlineTemplate ctx fits) w top) source)
      (Parse.repeated .colon (Grammar.addApplication ctx g top) source) :=
    Follows.repeated (follows_addApplication inside top) source
  refine (follows_sum inside).bind fun first => Follows.peek.bind fun found? => ?_
  have plain : Walk.Follows fits (n + 1)
      (do
        let source ← pure first
        Walk.repeated .colon (addApplication (inlineTemplate ctx fits) w top) source)
      (do
        let source ← pure first
        Parse.repeated .colon (Grammar.addApplication ctx g top) source) :=
    (Follows.pure first).bind applied
  cases top with
  | false => exact plain
  | true =>
    rcases found? with _ | (_ | _ | _ | _ | m)
    case some.mark =>
      cases m with
      | comma => exact (follows_aligned inside first).bind applied
      | _ => exact plain
    all_goals exact plain

end Brackets

/-! ## Whole expressions -/

theorem setOption_unknown {name : String} (unknown : ¬ IsOption name) (options : ExprOptions)
    (value : Expr) : setOption options name value = Walk.fail (.unknownOption name) := by
  unfold setOption
  split
  · exact absurd (Or.inl rfl) unknown
  · exact absurd (Or.inr (Or.inl rfl)) unknown
  · exact absurd (Or.inr (Or.inr rfl)) unknown
  · rfl

theorem follows_setOption (options : ExprOptions) (name : String) (value : Expr) :
    Walk.Follows fits n (setOption options name value)
      (Grammar.setOption options name value) := by
  by_cases known : IsOption name
  · rcases known with rfl | rfl | rfl
    · exact .pure _
    · exact .pure _
    · exact .pure _
  · rw [setOption_unknown known, Grammar.setOption_unknown known]
    exact Follows.fail _

section Whole

variable {depth : Nat} (whole : w.Follows fits n (Grammar.ofDepth ctx (depth + 1)))
include whole

theorem follows_option (options : ExprOptions) :
    Walk.Follows fits n (option w options)
      (Grammar.option (Grammar.ofDepth ctx depth) options) := by
  rw [Grammar.option_eq]
  refine Follows.expectName.bind fun name => (Follows.eat _).bind fun given => ?_
  dsimp only
  split
  · exact whole.expr.bind (follows_setOption options name)
  · exact (Follows.pure _).bind (follows_setOption options name)

theorem follows_addOption (options : ExprOptions) :
    Walk.Follows fits n (addOption w options)
      (Grammar.addOption (Grammar.ofDepth ctx depth) options) := by
  refine (follows_option whole options).attempt.bind fun added? => ?_
  cases added? with
  | none => exact (Follows.synchronize _).bind fun _ => .pure _
  | some options => exact .pure _

theorem follows_optionsBehind (expr : Expr) :
    Walk.Follows fits n (optionsBehind w expr)
      (Grammar.optionsBehind (Grammar.ofDepth ctx depth) expr) := by
  have add := follows_addOption whole
  have ending (options : ExprOptions) : Walk.Follows fits n
      (do
        Walk.expectEnd
        pure (expr, options))
      (do
        Parse.expectEnd
        pure (expr, options)) := Follows.expectEnd.bind fun _ => .pure _
  refine (Follows.eat _).bind fun more => ?_
  dsimp only
  split
  · exact (add .none).bind fun first => (Follows.repeated add first).inner.bind ending
  · exact (Follows.pure _).bind ending

theorem follows_action :
    Walk.Follows fits n (action w) (Grammar.action ctx (Grammar.ofDepth ctx depth)) := by
  rw [Grammar.action_eq]
  refine (whole.templates true).attempt.bind fun expr? => ?_
  cases expr? with
  | none => exact (Follows.synchronize _).bind fun _ => follows_optionsBehind whole _
  | some expr => exact follows_optionsBehind whole expr

theorem follows_condition :
    Walk.Follows fits n (condition w) (Grammar.condition ctx (Grammar.ofDepth ctx depth)) :=
  (Follows.eat _).bind fun _ => (whole.templates true).attempt.bind fun _ =>
    Follows.expectEnd.bind fun _ => .pure _

end Whole

variable [DecidablePred fits] {source : List Char}

/-- The walks that know no depth follow the grammar that is unrolled deep enough: a phrase inside
another one begins where fewer lexemes are left. -/
theorem follows_phrases (depth : Nat) :
    (phrases (inlineTemplate ctx fits)).Follows fits depth (Grammar.ofDepth ctx depth) := by
  induction depth with
  | zero => exact ⟨fun _ _ _ ahead => absurd ahead.few (Nat.not_lt_zero _),
      fun _ _ ahead => absurd ahead.few (Nat.not_lt_zero _)⟩
  | succ depth ih =>
    -- The walks inside begin behind `st`, whichever number of lexemes that is.
    have inside (front : List Lexeme) (st : ParseState) (few : st.rest.length < depth + 1) :
        Walks.Follows fits st.rest.length
          { templates := fun top c' =>
              if _consumed : c'.left < (Cursor.after front st).left then
                phrase (inlineTemplate ctx fits) (some top) c'
              else none
            expr := fun c' =>
              if _consumed : c'.left < (Cursor.after front st).left then
                phrase (inlineTemplate ctx fits) none c'
              else none }
          (Grammar.ofDepth ctx depth) := by
      have consumed {front' : List Lexeme} {st' : ParseState}
          (ahead : st'.Ahead fits st.rest.length) :
          (Cursor.after front' st').left < (Cursor.after front st).left := by
        rw [Cursor.left_after, Cursor.left_after]
        exact Nat.succ_lt_succ ahead.few
      have enough : st.rest.length ≤ depth := Nat.le_of_lt_succ few
      exact {
        templates := fun top front' st' ahead =>
          (ih.templates top front' st' (ahead.mono enough)).congr (dif_pos (consumed ahead)) rfl
        expr := fun front' st' ahead =>
          (ih.expr front' st' (ahead.mono enough)).congr (dif_pos (consumed ahead)) rfl }
    constructor
    case templates =>
      intro top front st ahead
      have here : Walk.Mirrors _ (Grammar.application ctx (Grammar.ofDepth ctx depth) top)
          front st :=
        follows_application (inside front st ahead.few) top front st
          ⟨Nat.lt_succ_self _, ahead.fitting⟩
      refine here.congr ?_ rfl
      change phrase (inlineTemplate ctx fits) (some top) _ = _
      rw [phrase]
    case expr =>
      intro front st ahead
      have here := follows_sum (inside front st ahead.few) front st
        ⟨Nat.lt_succ_self _, ahead.fitting⟩
      refine here.congr ?_ rfl
      change phrase (inlineTemplate ctx fits) none _ = _
      rw [phrase]

/-- The cursor gets through every source, well-formed or not, and finds in it what the parser finds
in the list of its lexemes. -/
theorem parseAll_eq (fitting : Lexeme.InlinesFit fits source) {α : Type}
    {walk : Walks → Walk α} {parser : Grammar → Parse α}
    (follows : ∀ depth, Walk.Follows fits (depth + 1) (walk (phrases (inlineTemplate ctx fits)))
      (parser (Grammar.ofDepth ctx depth)))
    (default : α) (pos : Position) :
    parseAll ctx fits walk default pos source =
      some (Grammar.parseAll ctx parser default pos source) := by
  rcases scanned : Lexeme.scan pos source with e | lexemes
  · rw [parseAll, Grammar.parseAll, scanned]
  · have ahead : ParseState.Ahead fits (lexemes.items.length + 1 + 1)
        ⟨lexemes.items, lexemes.stop, [], 0⟩ :=
      ⟨Nat.lt_add_of_pos_right (Nat.succ_pos 1), fitting pos lexemes scanned _⟩
    obtain ⟨taken, -, walked⟩ := follows (lexemes.items.length + 1) [] _ ahead
    rw [parseAll, Grammar.parseAll, scanned]
    exact congrArg (Option.map _) walked

theorem parseAll_action (fitting : Lexeme.InlinesFit fits source) (pos : Position) :
    parseAll ctx fits action (.text "", .none) pos source =
      some (Grammar.parseAction ctx pos source) :=
  parseAll_eq fitting (fun depth => follows_action (follows_phrases (depth + 1))) _ pos

theorem parseAll_condition (fitting : Lexeme.InlinesFit fits source) (pos : Position) :
    parseAll ctx fits condition (.text "") pos source =
      some (Grammar.parseCondition ctx pos source) :=
  parseAll_eq fitting (fun depth => follows_condition (follows_phrases (depth + 1))) _ pos

end Walks
end Stencil
