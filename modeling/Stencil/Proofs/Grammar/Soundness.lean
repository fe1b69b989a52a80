import Stencil.Proofs.Grammar.Reading
/-!
# What is read without an error is a phrase

A parser that records nothing has read its phrase. The parsers contain each other inside brackets
only, so they are sound on a number of lexemes if those inside brackets are on fewer.
-/
namespace Stencil

open Stencil.Symbol (Starts StartsBinding)
open Parse

/-- The body of the inline template that is written `raw`. -/
def Grammar.inlineBody (raw : List Char) : List Char := unescapeBraces (splitFormals raw).2.1

/-- The bodies of the inline templates that count compile without errors, under any name. -/
def ParseContext.Judges (ctx : ParseContext) (counts : List Char → Prop) : Prop :=
  ∀ name raw, (ctx.compileInline name (Grammar.inlineBody raw)).2 = [] ↔ counts raw

namespace Grammar

/-- What stands in brackets is read right as long as fewer than `n` lexemes are left. -/
structure Sound (counts : List Char → Prop) (g : Grammar) (n : Nat) : Prop where
  templates (top : Bool) {st : ParseState} : st.rest.length < n →
    Reading st (g.templates top st) fun _ r => Reads counts (.templates top) st.symbols r
  expr {st : ParseState} : st.rest.length < n →
    Reading st (g.expr st) fun _ r => Reads counts .expr st.symbols r

variable {counts : List Char → Prop} {ctx : ParseContext} {g : Grammar} {n : Nat} {st : ParseState}

/-! ## Arguments -/

section Arguments

theorem reading_assignment (sound : Sound counts g n) (within : st.rest.length < n) :
    Reading st (assignment g st) fun b r =>
      ∃ s, st.symbols = .name b.1 :: .mark .equals :: s ∧
        Reads counts (.templates false) s r := by
  unfold assignment
  refine Reading.bind_expectName fun name st₁ named => ?_
  refine Reading.bind_expect .equals fun st₂ bound => ?_
  have shorter := named.2.1
  have shorter' := bound.2.1
  refine Reading.bind (sound.templates false (by omega)) fun v st₃ _ => ?_
  refine Reading.pure fun value => ⟨st₂.symbols, ?_, value⟩
  rw [named.1, bound.1]

theorem length_skipTo_le (marks : List Mark) (depth : Nat) (rest : List Lexeme) :
    (skipTo marks depth rest).length ≤ rest.length := by
  obtain ⟨n, dropped, -⟩ := exists_skipTo_eq_drop marks (Eq.refl (rest.map Lexeme.symbol)) depth
  rw [dropped]
  exact (List.drop_sublist n rest).length_le

/-- Whatever is skipped, the lexemes get no more. -/
theorem reading_synchronize (marks : List Mark) {α : Type} (a : α) :
    Reading st ((synchronize marks >>= fun _ => Pure.pure a) st) fun _ _ => True :=
  ⟨length_skipTo_le marks 0 st.rest, Nat.le_refl _, fun _ => ⟨a, rfl, trivial⟩⟩

theorem reading_addAssignment (sound : Sound counts g n) (within : st.rest.length < n)
    (bindings : List (String × Expr)) :
    Reading st (addAssignment g bindings st) fun bindings' r =>
      ∃ name s, st.symbols = .name name :: .mark .equals :: s ∧ name ∉ bindings.map Prod.fst ∧
        bindings'.map Prod.fst = bindings.map Prod.fst ++ [name] ∧
        Reads counts (.templates false) s r := by
  unfold addAssignment
  refine Reading.bind_attempt (reading_assignment sound within) (fun b st₁ _ => ?_) fun st₁ _ => ?_
  · obtain ⟨name, v⟩ := b
    dsimp only
    split
    · refine Reading.report_bind _ fun st₂ _ => ?_
      exact Reading.pure trivial
    · rename_i fresh
      refine Reading.pure fun read => ?_
      obtain ⟨s, begins, value⟩ := read
      refine ⟨name, s, begins, ?_, by simp, value⟩
      simpa using fresh
  · exact reading_synchronize _ _

theorem reading_bindings (sound : Sound counts g n) (within : st.rest.length < n)
    (bindings : List (String × Expr)) :
    Reading st (repeated .comma (addAssignment g) bindings st) fun _ r =>
      Reads counts (.bindings (bindings.map Prod.fst)) st.symbols r := by
  refine Reading.repeated (T := fun b s r => Reads counts (.bindings (b.map Prod.fst)) s r)
    (fun _ _ => .noBindings) (fun b st₁ within => ?_) bindings (Nat.le_of_lt within)
  refine (reading_addAssignment sound within b).weaken fun b' r read u tail => ?_
  obtain ⟨name, s, begins, fresh, names, value⟩ := read
  rw [begins]
  exact .bindings fresh value (names ▸ tail)

theorem reading_arguments (sound : Sound counts g n) (within : st.rest.length ≤ n) :
    Reading st (arguments g st) fun _ r => Reads counts .args st.symbols r := by
  unfold arguments
  refine Reading.bind_expect .leftParen fun st₁ opened => ?_
  have shorter := opened.2.1
  refine Reading.bind_eat .rightParen (fun st₂ closed => ?_) fun _ => ?_
  · refine Reading.pure ?_
    rw [opened.1, closed.1]
    exact .noArgs
  · simp only [Bool.false_eq_true, if_false]
    by_cases next : StartsBinding st₁.symbols
    · refine Reading.of_eq (binding_branch next) ?_
      refine Reading.bind (reading_addAssignment sound (by omega) []) fun b st₂ _ => ?_
      refine Reading.bind (reading_bindings sound (by omega) b) fun b' st₃ _ => ?_
      refine Reading.bind_expect .rightParen fun st₄ closed => ?_
      refine Reading.pure fun tail first => ?_
      obtain ⟨name, s, begins, -, names, value⟩ := first
      rw [names, closed.1] at tail
      rw [opened.1, begins]
      exact .named value tail
    · refine Reading.of_eq (positional_branch next) ?_
      refine Reading.bind (sound.templates false (by omega)) fun v st₂ _ => ?_
      refine Reading.bind_expect .rightParen fun st₃ closed => ?_
      refine Reading.pure fun value => ?_
      rw [closed.1] at value
      rw [opened.1]
      exact .positional next value

end Arguments

/-! ## Expressions -/

section Expressions

/-- What a parenthesis holds, with the parenthesis that closes it. -/
theorem reading_enclosed {α : Type} (sound : Sound counts g n) (within : st.rest.length < n)
    {f : Expr → Parse α} {Q : α → List Symbol → Prop}
    (next : ∀ e st', st'.rest.length < st.rest.length → Reading st' (f e st') fun a r =>
      Reads counts (.templates true) st.symbols (.mark .rightParen :: st'.symbols) → Q a r) :
    Reading st ((do
      let inner ← g.templates true
      expect .rightParen
      f inner) st) Q := by
  refine Reading.bind (sound.templates true within) fun e st₁ shorter => ?_
  refine Reading.bind_expect .rightParen fun st₂ closed => ?_
  have shorter' := closed.2.1
  refine (next e st₂ (by omega)).weaken fun a r related inner => related ?_
  rwa [closed.1] at inner

/-- The name of a parent's template and its arguments, behind the word and the dot. -/
theorem reading_superName {α : Type} (sound : Sound counts g n) (within : st.rest.length < n)
    {f : String → Arguments → Parse α} {Q : α → List Symbol → Prop}
    (next : ∀ name args st', Reading st' (f name args st') fun a r =>
      (∃ s, st.symbols = .name name :: s ∧ Reads counts .args s st'.symbols) → Q a r) :
    Reading st ((do
      let name ← expectName
      f name (← arguments g)) st) Q := by
  refine Reading.bind_expectName fun name st₁ named => ?_
  have shorter := named.2.1
  refine Reading.bind (reading_arguments sound (by omega)) fun args st₂ _ => ?_
  exact (next name args st₂).weaken fun a r related args => related ⟨st₁.symbols, named.1, args⟩

theorem reading_afterName (sound : Sound counts g n) (within : st.rest.length < n)
    (name : String) :
    Reading st (afterName g name st) fun _ r =>
      Reads counts .atom (.name name :: st.symbols) r := by
  by_cases called : Starts .leftParen st.symbols
  · have took := Reading.took_drop called
    have shorter := took.2.1
    cases function : Builtin.ofName? name with
    | some f =>
      rw [afterName_builtin function called]
      refine Reading.after_took took (reading_enclosed sound (by omega) fun e st₁ _ => ?_)
      refine Reading.pure fun inner => ?_
      rw [took.1]
      exact .builtin (by simp [function]) inner
    | none =>
      rw [afterName_call function called]
      refine Reading.bind (reading_arguments sound (Nat.le_of_lt within)) fun args st₁ _ => ?_
      exact Reading.pure fun args => .call function args
  · by_cases parent : name = "super" ∧ Starts .dot st.symbols
    · obtain ⟨rfl, dot⟩ := parent
      have took := Reading.took_drop dot
      have shorter := took.2.1
      rw [afterName_super dot]
      refine Reading.after_took took ?_
      refine reading_superName sound (by omega) fun target args st₁ => ?_
      refine Reading.pure fun read => ?_
      obtain ⟨s, named, args⟩ := read
      rw [took.1, named]
      exact .superCall args
    · rw [afterName_attribute called parent]
      exact Reading.pure (.bareName called parent)

theorem reading_addExpr (sound : Sound counts g n) (within : st.rest.length < n)
    (items : List Expr) :
    Reading st (addExpr g items st) fun _ r => Reads counts .expr st.symbols r :=
  Reading.bind (sound.expr within) fun _ _ _ => Reading.pure fun item => item

theorem reading_listItems (sound : Sound counts g n) (within : st.rest.length < n) :
    Reading st (listItems g st) fun _ r =>
      Reads counts .atom (.mark .leftBracket :: st.symbols) r := by
  unfold listItems
  refine Reading.bind_eat .rightBracket (fun st₁ closed => ?_) fun _ => ?_
  · refine Reading.pure ?_
    rw [closed.1]
    exact .emptyList
  · refine Reading.bind (reading_addExpr sound within []) fun items st₁ shorter => ?_
    have others : Reading st₁ (repeated .comma (addExpr g) items st₁) fun _ r =>
        Reads counts .exprs st₁.symbols r := by
      refine Reading.repeated (T := fun _ s r => Reads counts .exprs s r) (fun _ _ => .noExprs)
        (fun items st₂ within => ?_) items (show _ ≤ n by omega)
      exact (reading_addExpr sound within items).weaken fun _ _ item _ rest => .exprs item rest
    refine Reading.bind others fun items st₂ shorter' => ?_
    refine Reading.bind_expect .rightBracket fun st₃ closed => ?_
    refine Reading.pure fun rest first => ?_
    rw [closed.1] at rest
    exact .list first rest

theorem reading_parenthesized (sound : Sound counts g n) (within : st.rest.length < n) :
    Reading st (parenthesized g st) fun _ r =>
      Reads counts .atom (.mark .leftParen :: st.symbols) r := by
  unfold parenthesized
  refine reading_enclosed sound within fun e st₁ shorter => ?_
  by_cases called : Starts .leftParen st₁.symbols
  · refine Reading.of_eq (call_branch called) ?_
    refine Reading.bind (reading_arguments sound (by omega)) fun args st₂ _ => ?_
    exact Reading.pure fun args inner => .computedCall inner args
  · refine Reading.of_eq (value_branch called) ?_
    exact Reading.pure fun inner => .parenthesized inner called

theorem reading_atom (sound : Sound counts g n) (within : st.rest.length ≤ n) :
    Reading st (atom g st) fun _ r => Reads counts .atom st.symbols r := by
  obtain ⟨_ | ⟨⟨x, pos⟩, rest⟩, stop, errors, inlines⟩ := st
  · exact Reading.fail _
  · have shorter : rest.length < n := within
    cases x with
    | name name =>
      exact Reading.after_took (Reading.took_drop rfl) (reading_afterName sound shorter name)
    | text s => exact Reading.after_took (Reading.took_drop rfl) (Reading.pure .text)
    | number k => exact Reading.after_took (Reading.took_drop rfl) (Reading.pure .number)
    | inline raw => exact Reading.fail _
    | mark m =>
      cases m with
      | leftBracket =>
        exact Reading.after_took (Reading.took_drop rfl) (reading_listItems sound shorter)
      | leftParen =>
        exact Reading.after_took (Reading.took_drop rfl) (reading_parenthesized sound shorter)
      | _ => exact Reading.fail _

theorem reading_addProperty (sound : Sound counts g n) (within : st.rest.length ≤ n)
    (target : Expr) :
    Reading st (addProperty g target st) fun _ r => ∀ u, Reads counts .properties r u →
      Reads counts .properties (.mark .dot :: st.symbols) u := by
  obtain ⟨_ | ⟨⟨x, pos⟩, rest⟩, stop, errors, inlines⟩ := st
  · exact Reading.fail _
  · have shorter : rest.length < n := within
    cases x with
    | name name =>
      exact Reading.after_took (Reading.took_drop rfl)
        (Reading.pure fun _ others => .fixedProperty others)
    | mark m =>
      cases m with
      | leftParen =>
        refine Reading.after_took (Reading.took_drop rfl)
          (reading_enclosed sound shorter fun e st₁ _ => ?_)
        exact Reading.pure fun inner _ others => .computedProperty inner others
      | _ => exact Reading.fail _
    | _ => exact Reading.fail _

theorem reading_primary (sound : Sound counts g n) (within : st.rest.length ≤ n) :
    Reading st (primary g st) fun _ r => Reads counts .primary st.symbols r := by
  refine Reading.bind (reading_atom sound within) fun e st₁ shorter => ?_
  have others : Reading st₁ (repeated .dot (addProperty g) e st₁) fun _ r =>
      Reads counts .properties st₁.symbols r :=
    Reading.repeated (T := fun _ s r => Reads counts .properties s r) (fun _ _ => .noProperties)
      (fun e _ within => reading_addProperty sound (Nat.le_of_lt within) e) e
      (Nat.le_trans shorter within)
  exact others.weaken fun _ _ properties atom => .primary atom properties

theorem reading_sum (sound : Sound counts g n) (within : st.rest.length ≤ n) :
    Reading st (sum g st) fun _ r => Reads counts .expr st.symbols r := by
  refine Reading.bind (reading_primary sound within) fun e st₁ shorter => ?_
  have others : Reading st₁ (repeated .plus (addPrimary g) e st₁) fun _ r =>
      Reads counts .primaries st₁.symbols r := by
    refine Reading.repeated (T := fun _ s r => Reads counts .primaries s r)
      (fun _ _ => .noPrimaries) (fun left st₂ within => ?_) e (Nat.le_trans shorter within)
    refine Reading.bind (reading_primary sound (Nat.le_of_lt within)) fun right st₃ _ => ?_
    exact Reading.pure fun first _ rest => .primaries first rest
  exact others.weaken fun _ _ rest first => .expr first rest

theorem reading_addSource (sound : Sound counts g n) (within : st.rest.length ≤ n)
    (sources : List Expr) :
    Reading st (addSource g sources st) fun _ r => Reads counts .expr st.symbols r :=
  Reading.bind (reading_sum sound within) fun _ _ _ => Reading.pure fun source => source

end Expressions

/-! ## Templates -/

section Templates

variable (judges : ctx.Judges counts)
include judges

omit judges in
theorem inlineTemplate_run (ctx : ParseContext) (raw : List Char) (pos : Text.Position)
    (st : ParseState) :
    ∃ t, inlineTemplate ctx raw pos st = (some t, { st with
      inlines := st.inlines + 1
      errors := st.errors ++
        (ctx.compileInline (ctx.owner ++ "_anon" ++ toString (st.inlines + 1))
          (inlineBody raw)).2.map
          (shiftError (pos.right (1 + (splitFormals raw).2.2))) }) :=
  ⟨_, rfl⟩

theorem reading_inlineTemplate (raw : List Char) (pos : Text.Position) :
    Reading st (inlineTemplate ctx raw pos st) fun _ r => counts raw ∧ r = st.symbols := by
  obtain ⟨t, run⟩ := inlineTemplate_run ctx raw pos st
  rw [run]
  refine ⟨Nat.le_refl _, by simp, fun unchanged => ⟨t, rfl, ?_, rfl⟩⟩
  refine (judges (ctx.owner ++ "_anon" ++ toString (st.inlines + 1)) raw).1 ?_
  simpa using unchanged

theorem reading_templateRef (sound : Sound counts g n) (within : st.rest.length ≤ n) :
    Reading st (templateRef ctx g st) fun _ r => Reads counts .tref st.symbols r := by
  cases next : st.symbols.head? with
  | none =>
    rw [templateRef, bind_peek, next]
    exact Reading.fail _
  | some x =>
    have took := Reading.took_drop next
    have shorter : st.behind.rest.length < n := Nat.lt_of_lt_of_le took.2.1 within
    rw [took.1]
    cases x with
    | name name =>
      by_cases parent : name = "super" ∧ Starts .dot st.behind.symbols
      · obtain ⟨rfl, dot⟩ := parent
        have took' := Reading.took_drop dot
        have shorter' := took'.2.1
        rw [templateRef_super next dot]
        refine Reading.after_took took (Reading.after_took took' ?_)
        refine reading_superName sound (by omega) fun target args st₁ => Reading.pure fun read => ?_
        obtain ⟨s, named, args⟩ := read
        rw [took'.1, named]
        exact .superTref args
      · rw [templateRef_named next parent]
        refine Reading.after_took took ?_
        refine Reading.bind (reading_arguments sound (Nat.le_of_lt shorter)) fun args st₁ _ => ?_
        exact Reading.pure fun args => .namedTref args
    | inline raw =>
      obtain ⟨pos, run⟩ := templateRef_inline ctx g next
      rw [run]
      refine Reading.after_took took ?_
      refine Reading.bind (reading_inlineTemplate judges raw pos) fun t st₁ _ => ?_
      refine Reading.pure fun inline => ?_
      obtain ⟨wellFormed, rest⟩ := inline
      rw [rest]
      exact .inlineTref wellFormed
    | mark m =>
      cases m with
      | leftParen =>
        rw [templateRef_computed next]
        refine Reading.after_took took (reading_enclosed sound shorter fun e st₁ shorter' => ?_)
        refine Reading.bind (reading_arguments sound (by omega)) fun args st₂ _ => ?_
        exact Reading.pure fun args inner => .computedTref inner args
      | _ =>
        rw [templateRef, bind_peek, next]
        exact Reading.fail _
    | _ =>
      rw [templateRef, bind_peek, next]
      exact Reading.fail _

theorem reading_addTemplate (sound : Sound counts g n) (within : st.rest.length ≤ n)
    (templates : List TemplateRef) :
    Reading st (addTemplate ctx g templates st) fun _ r => Reads counts .tref st.symbols r :=
  Reading.bind (reading_templateRef judges sound within) fun _ _ _ => Reading.pure fun t => t

theorem reading_addApplication (sound : Sound counts g n) (within : st.rest.length ≤ n) (top : Bool)
    (source : Expr) :
    Reading st (addApplication ctx g top source st) fun _ r =>
      ∀ u, Reads counts (.applications top) r u →
        Reads counts (.applications top) (.mark .colon :: st.symbols) u := by
  refine Reading.bind (reading_addTemplate judges sound within []) fun ts st₁ shorter => ?_
  cases top with
  | true =>
    have others : Reading st₁ (repeated .comma (addTemplate ctx g) ts st₁) fun _ r =>
        Reads counts .trefs st₁.symbols r := by
      refine Reading.repeated (T := fun _ s r => Reads counts .trefs s r) (fun _ _ => .noTrefs)
        (fun ts st₂ within => ?_) ts (Nat.le_trans shorter within)
      exact (reading_addTemplate judges sound (Nat.le_of_lt within) ts).weaken
        fun _ _ first _ rest => .trefs first rest
    refine Reading.bind others fun ts st₂ _ => ?_
    exact Reading.pure fun rest first _ more => .applications first rest more
  | false =>
    exact Reading.pure fun first _ more => .nestedApplications first more

theorem reading_aligned (sound : Sound counts g n) (within : st.rest.length ≤ n) (first : Expr) :
    Reading st (aligned ctx g first st) fun _ r => ∃ u,
      Reads counts .exprs st.symbols (.mark .colon :: u) ∧ Reads counts .tref u r := by
  have sources : Reading st (repeated .comma (addSource g) [first] st) fun _ r =>
      Reads counts .exprs st.symbols r := by
    refine Reading.repeated (T := fun _ s r => Reads counts .exprs s r) (fun _ _ => .noExprs)
      (fun sources st₁ within => ?_) [first] within
    exact (reading_addSource sound (Nat.le_of_lt within) sources).weaken
      fun _ _ source _ rest => .exprs source rest
  refine Reading.bind sources fun sources st₁ shorter => ?_
  refine Reading.bind_expect .colon fun st₂ took => ?_
  have shorter' := took.2.1
  refine Reading.bind (reading_templateRef judges sound (by omega)) fun t st₃ _ => ?_
  refine Reading.pure fun template sources => ⟨st₂.symbols, ?_, template⟩
  rwa [took.1] at sources

theorem reading_application (sound : Sound counts g n) (within : st.rest.length ≤ n) (top : Bool) :
    Reading st (application ctx g top st) fun _ r =>
      Reads counts (.templates top) st.symbols r := by
  have others {st₁ : ParseState} (shorter : st₁.rest.length ≤ st.rest.length) (e : Expr) :
      Reading st₁ (repeated .colon (addApplication ctx g top) e st₁) fun _ r =>
        Reads counts (.applications top) st₁.symbols r :=
    Reading.repeated (T := fun _ s r => Reads counts (.applications top) s r)
      (fun _ _ => .noApplications)
      (fun e _ within => reading_addApplication judges sound (Nat.le_of_lt within) top e) e
      (Nat.le_trans shorter within)
  refine Reading.bind (reading_sum sound within) fun first st₁ shorter => ?_
  by_cases severalSources : top = true ∧ Starts .comma st₁.symbols
  · obtain ⟨rfl, comma⟩ := severalSources
    refine Reading.of_eq (aligned_branch comma) ?_
    refine Reading.bind (reading_aligned judges sound (by omega) first)
      fun source st₂ shorter' => ?_
    refine (others (by omega) source).weaken fun _ _ more aligned first => ?_
    obtain ⟨u, sources, template⟩ := aligned
    obtain ⟨t, split⟩ : ∃ t, st₁.symbols = .mark .comma :: t := List.head?_eq_some_iff.1 comma
    rw [split] at sources first
    exact .aligned first sources template more
  · refine Reading.of_eq (single_branch severalSources) ?_
    have unread : Reading st₁ ((Pure.pure first : Parse Expr) st₁) fun _ r => r = st₁.symbols :=
      Reading.pure rfl
    refine Reading.bind unread fun source st₂ shorter' => ?_
    refine (others (by omega) source).weaken fun _ _ more same first => ?_
    rw [same] at more
    exact .templates first more

/-- Every bracket is read right that is opened on the way. -/
theorem sound_ofDepth (depth : Nat) : Sound counts (ofDepth ctx depth) depth := by
  induction depth with
  | zero => exact ⟨fun _ _ none => absurd none (Nat.not_lt_zero _),
      fun none => absurd none (Nat.not_lt_zero _)⟩
  | succ depth ih =>
    exact ⟨fun top _ within => reading_application judges ih (Nat.le_of_lt_succ within) top,
      fun within => reading_sum ih (Nat.le_of_lt_succ within)⟩

end Templates

/-! ## Chunks -/

section Chunks

theorem reading_expectEnd : Reading st (expectEnd st) fun _ r => st.symbols = [] ∧ r = [] := by
  obtain ⟨_ | ⟨l, rest⟩, stop, errors, inlines⟩ := st
  · exact Reading.pure ⟨rfl, rfl⟩
  · refine Reading.of_recorded (Nat.le_refl _) ?_
    simp [expectEnd, report, record, bind_apply, peek, position]

theorem reading_setOption (options : ExprOptions) (name : String) (value : Expr) :
    Reading st (setOption options name value st) fun _ r => IsOption name ∧ r = st.symbols := by
  by_cases known : IsOption name
  · obtain ⟨options', set⟩ := setOption_known known options value
    rw [set]
    exact Reading.pure ⟨known, rfl⟩
  · rw [setOption_unknown known]
    exact Reading.fail _

theorem reading_option (sound : Sound counts g n) (within : st.rest.length ≤ n)
    (options : ExprOptions) :
    Reading st (option g options st) fun _ r => Reads counts .option st.symbols r := by
  rw [option_eq]
  refine Reading.bind_expectName fun name st₁ named => ?_
  have shorter := named.2.1
  rw [named.1]
  refine Reading.bind_eat .equals (fun st₂ took => ?_) fun _ => ?_
  · have shorter' := took.2.1
    rw [took.1]
    refine Reading.bind (reading_sum sound (by omega)) fun v st₃ _ => ?_
    refine (reading_setOption options name v).weaken fun _ r set value => ?_
    obtain ⟨known, rfl⟩ := set
    exact .option known value
  · refine (reading_setOption options name (.text "")).weaken fun _ r set => ?_
    obtain ⟨known, rfl⟩ := set
    exact .bareOption known

theorem reading_addOption (sound : Sound counts g n) (within : st.rest.length ≤ n)
    (options : ExprOptions) :
    Reading st (addOption g options st) fun _ r => Reads counts .option st.symbols r := by
  unfold addOption
  refine Reading.bind_attempt (reading_option sound within options) (fun options st₁ _ => ?_)
    fun st₁ _ => ?_
  · exact Reading.pure fun read => read
  · exact reading_synchronize _ _

theorem reading_optionsBehind (sound : Sound counts g n) (within : st.rest.length ≤ n) (e : Expr) :
    Reading st (optionsBehind g e st) fun _ _ => ∀ s,
      Reads counts (.templates true) s st.symbols → Reads counts .action s [] := by
  have ending {st₁ : ParseState} (options : ExprOptions) :
      Reading st₁ ((do
        expectEnd
        Pure.pure (e, options)) st₁) fun _ _ => st₁.symbols = [] := by
    refine Reading.bind reading_expectEnd fun _ st₂ _ => ?_
    exact Reading.pure fun ended => ended.1
  refine Reading.bind_eat .semicolon (fun st₁ took => ?_) fun _ => ?_
  · have shorter := took.2.1
    refine Reading.bind (reading_addOption sound (by omega) .none) fun options st₂ shorter' => ?_
    have others : Reading st₂ (repeated .comma (addOption g) options st₂) fun _ r =>
        Reads counts .options st₂.symbols r := by
      refine Reading.repeated (T := fun _ s r => Reads counts .options s r) (fun _ _ => .noOptions)
        (fun options st₃ within => ?_) options (show _ ≤ n by omega)
      exact (reading_addOption sound (Nat.le_of_lt within) options).weaken
        fun _ _ first _ rest => .options first rest
    refine Reading.bind others fun options st₃ _ => ?_
    refine (ending options).weaken fun _ _ ended rest first s source => ?_
    rw [ended] at rest
    rw [took.1] at source
    exact .action source first rest
  · refine (ending .none).weaken fun _ _ ended s source => ?_
    rw [ended] at source
    exact .bareAction source

/-- Where no error is recorded, the whole chunk is an action. -/
theorem reading_action (judges : ctx.Judges counts) (sound : Sound counts g n)
    (within : st.rest.length ≤ n) :
    Reading st (action ctx g st) fun _ _ => Reads counts .action st.symbols [] := by
  rw [action_eq]
  refine Reading.bind_attempt (reading_application judges sound within true)
    (fun e st₁ shorter => ?_) fun st₁ shorter => ?_
  · exact (reading_optionsBehind sound (by omega) e).weaken fun _ _ read source => read _ source
  · have skipped := length_skipTo_le [.semicolon] 0 st₁.rest
    have behind : Reading { st₁ with rest := skipTo [.semicolon] 0 st₁.rest }
        (optionsBehind g (.text "") { st₁ with rest := skipTo [.semicolon] 0 st₁.rest })
        fun _ _ => True :=
      (reading_optionsBehind sound (by dsimp only; omega) (.text "")).weaken fun _ _ _ => trivial
    exact behind.widen skipped rfl fun _ _ _ => trivial

/-- Where no error is recorded, the whole condition of a conditional is read. -/
theorem reading_condition (judges : ctx.Judges counts) (sound : Sound counts g n)
    (within : st.rest.length ≤ n) :
    Reading st (condition ctx g st) fun _ _ => Reads counts .condition st.symbols [] := by
  have expression {st₁ : ParseState} (negated : Bool) (shorter : st₁.rest.length ≤ n) :
      Reading st₁ ((do
        let expr := (← attempt (application ctx g true)).getD (Expr.text "")
        expectEnd
        Pure.pure (if negated then Expr.not expr else expr)) st₁) fun _ _ =>
        Reads counts (.templates true) st₁.symbols [] := by
    refine Reading.bind_attempt (reading_application judges sound shorter true)
      (fun e st₂ _ => ?_) fun st₂ _ => ?_
    · refine Reading.bind reading_expectEnd fun _ st₃ _ => ?_
      refine Reading.pure fun ended source => ?_
      rwa [ended.1] at source
    · refine Reading.bind reading_expectEnd fun _ st₃ _ => ?_
      exact Reading.pure fun _ => trivial
  refine Reading.bind_eat .bang (fun st₁ took => ?_) fun _ => ?_
  · have shorter := took.2.1
    refine (expression true (by omega)).weaken fun _ _ read => ?_
    rw [took.1]
    exact .negated read
  · exact (expression false within).weaken fun _ _ read => .condition read

end Chunks

end Grammar
end Stencil
