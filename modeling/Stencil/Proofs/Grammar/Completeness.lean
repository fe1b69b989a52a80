import Stencil.Proofs.Grammar.Accepting
import Stencil.Proofs.Grammar.Follow
import Stencil.Proofs.Grammar.Soundness
/-!
# Every phrase is read without an error

The parser of a phrase accepts it wherever the phrase cannot go on, if the grammar is unrolled as
deep as there are symbols. The induction is on the derivation; the parser of a repetition accepts it
with any number of steps that is no less than that of the symbols.
-/
namespace Stencil

open Stencil.Symbol (Starts StartsBinding)
open Phrase (Stops stops_mark)
open Parse

namespace Grammar

/-- The parser of the phrase accepts it. -/
def Accepted (ctx : ParseContext) (g : Grammar) : Phrase → List Symbol → List Symbol → Prop
  | .action, s, r => (action ctx g).Takes s r
  | .condition, s, r => (condition ctx g).Takes s r
  | .option, s, r => ∀ o, (option g o).Takes s r
  | .options, s, r => ∀ n o, s.length ≤ n → (chain .comma (addOption g) n o).Takes s r
  | .templates top, s, r => (application ctx g top).Takes s r
  | .applications top, s, r =>
    ∀ n e, s.length ≤ n → (chain .colon (addApplication ctx g top) n e).Takes s r
  | .trefs, s, r => ∀ n ts, s.length ≤ n → (chain .comma (addTemplate ctx g) n ts).Takes s r
  | .tref, s, r => (templateRef ctx g).Takes s r
  | .expr, s, r => (sum g).Takes s r
  | .exprs, s, r => ∀ n es, s.length ≤ n → (chain .comma (addSource g) n es).Takes s r
  | .primaries, s, r => ∀ n e, s.length ≤ n → (chain .plus (addPrimary g) n e).Takes s r
  | .primary, s, r => (primary g).Takes s r
  | .properties, s, r => ∀ n e, s.length ≤ n → (chain .dot (addProperty g) n e).Takes s r
  | .atom, s, r => (atom g).Takes s r
  | .args, s, r => (arguments g).Takes s r
  | .bindings bound, s, r => ∀ n b, b.map Prod.fst = bound → s.length ≤ n →
    (chain .comma (addAssignment g) n b).Takes s r

variable {counts : List Char → Prop} {ctx : ParseContext} {g : Grammar} {s t u v r : List Symbol}
  {name : String}

/-! ## Arguments -/

section Arguments

theorem addAssignment_accepts {b : List (String × Expr)} (fresh : name ∉ b.map Prod.fst)
    (value : (g.templates false).Takes s r) :
    (addAssignment g b).Accepts (.name name :: .mark .equals :: s) r fun b' =>
      b'.map Prod.fst = b.map Prod.fst ++ [name] := by
  have assigned : (assignment g).Accepts (.name name :: .mark .equals :: s) r fun a =>
      a.1 = name := by
    refine Accepts.bind_expectName (Accepts.bind_expect ?_)
    exact value.bind fun v _ => Accepts.pure rfl
  refine assigned.bind_attempt fun a named => ?_
  obtain ⟨name', v⟩ := a
  obtain rfl : name' = name := named
  have unbound : ¬ b.any (fun a => a.1 = name') = true := by simpa using fresh
  dsimp only
  rw [if_neg unbound]
  exact Accepts.pure (by simp)

theorem arguments_none : (arguments g).Takes (.mark .leftParen :: .mark .rightParen :: r) r := by
  refine Accepts.bind_expect (Accepts.bind_eat ?_)
  exact Accepts.pure trivial

theorem arguments_positional (positional : ¬ StartsBinding s) (opens : ¬ Starts .rightParen s)
    (value : (g.templates false).Takes s (.mark .rightParen :: r)) :
    (arguments g).Takes (.mark .leftParen :: s) r := by
  refine Accepts.bind_expect (Accepts.bind_eat_other opens ?_)
  refine Accepts.of_branch (fun st reads => positional_branch (reads ▸ positional)) ?_
  exact value.bind fun v _ => Accepts.bind_expect (Accepts.pure trivial)

theorem arguments_named (value : (g.templates false).Takes s t)
    (others : Accepted ctx g (.bindings [name]) t (.mark .rightParen :: r)) :
    (arguments g).Takes (.mark .leftParen :: .name name :: .mark .equals :: s) r := by
  refine Accepts.bind_expect (Accepts.bind_eat_other (nomatch ·) ?_)
  refine Accepts.of_branch (fun st reads => binding_branch (reads ▸ ⟨⟨name, rfl⟩, rfl⟩)) ?_
  refine (addAssignment_accepts (List.not_mem_nil) value).bind fun b named => ?_
  refine (Accepts.repeated fun n enough => others n b named enough).bind fun b' _ => ?_
  exact Accepts.bind_expect (Accepts.pure trivial)

end Arguments

/-! ## Expressions -/

section Expressions

theorem enclosed_accepts {α : Type} {f : Expr → Parse α} {Q : α → Prop}
    (inner : (g.templates true).Takes s (.mark .rightParen :: t))
    (next : ∀ e, (f e).Accepts t r Q) :
    Parse.Accepts (do
      let inner ← g.templates true
      expect .rightParen
      f inner) s r Q :=
  inner.bind fun e _ => Accepts.bind_expect (next e)

theorem atom_name (follows : (afterName g name).Takes s r) :
    (atom g).Takes (.name name :: s) r := by
  refine Accepts.of_behind (fun st reads => ?_) follows
  rw [atom, bind_peek, reads]
  rfl

theorem afterName_takes_attribute (noCall : ¬ Starts .leftParen r)
    (noParent : ¬ (name = "super" ∧ Starts .dot r)) : (afterName g name).Takes r r := by
  have named : (pure (Expr.attribute name) : Parse Expr).Takes r r := Accepts.pure trivial
  refine Accepts.of_branch (fun st reads => ?_) named
  exact afterName_attribute (reads ▸ noCall) (reads ▸ noParent)

theorem afterName_takes_super (args : (arguments g).Takes s r) :
    (afterName g "super").Takes (.mark .dot :: .name name :: s) r := by
  refine Accepts.of_behind (fun st reads => afterName_super (by rw [reads]; rfl)) ?_
  refine Accepts.bind_expectName ?_
  exact args.bind fun a _ => Accepts.pure trivial

theorem afterName_takes_builtin (function : Builtin.ofName? name ≠ none)
    (inner : (g.templates true).Takes s (.mark .rightParen :: r)) :
    (afterName g name).Takes (.mark .leftParen :: s) r := by
  obtain ⟨f, known⟩ := Option.ne_none_iff_exists'.1 function
  refine Accepts.of_behind (fun st reads => afterName_builtin known (by rw [reads]; rfl)) ?_
  exact enclosed_accepts inner fun e => Accepts.pure trivial

theorem afterName_takes_call (function : Builtin.ofName? name = none) (opened : Starts .leftParen s)
    (args : (arguments g).Takes s r) : (afterName g name).Takes s r := by
  refine Accepts.of_branch (fun st reads => afterName_call function (reads ▸ opened)) ?_
  exact args.bind fun a _ => Accepts.pure trivial

theorem atom_bracket (items : (listItems g).Takes s r) :
    (atom g).Takes (.mark .leftBracket :: s) r := by
  refine Accepts.of_behind (fun st reads => ?_) items
  rw [atom, bind_peek, reads]
  rfl

theorem atom_paren (inner : (parenthesized g).Takes s r) :
    (atom g).Takes (.mark .leftParen :: s) r := by
  refine Accepts.of_behind (fun st reads => ?_) inner
  rw [atom, bind_peek, reads]
  rfl

theorem listItems_takes (opens : ¬ Starts .rightBracket s) (first : g.expr.Takes s t)
    (others : ∀ n es, t.length ≤ n →
      (chain .comma (addExpr g) n es).Takes t (.mark .rightBracket :: r)) :
    (listItems g).Takes s r := by
  refine Accepts.bind_eat_other opens ?_
  have added : (addExpr g []).Takes s t := first.bind fun e _ => Accepts.pure trivial
  refine added.bind fun es _ => ?_
  refine (Accepts.repeated fun n enough => others n es enough).bind fun es' _ => ?_
  exact Accepts.bind_expect (Accepts.pure trivial)

theorem parenthesized_takes_value (inner : (g.templates true).Takes s (.mark .rightParen :: r))
    (noCall : ¬ Starts .leftParen r) : (parenthesized g).Takes s r := by
  refine enclosed_accepts inner fun e => ?_
  exact Accepts.of_branch (fun st reads => value_branch (reads ▸ noCall)) (Accepts.pure trivial)

theorem parenthesized_takes_call (inner : (g.templates true).Takes s (.mark .rightParen :: t))
    (opened : Starts .leftParen t) (args : (arguments g).Takes t r) :
    (parenthesized g).Takes s r := by
  refine enclosed_accepts inner fun e => ?_
  refine Accepts.of_branch (fun st reads => call_branch (reads ▸ opened)) ?_
  exact args.bind fun a _ => Accepts.pure trivial

theorem atom_text {text : String} : (atom g).Takes (.text text :: r) r := by
  have literal : (pure (Expr.text text) : Parse Expr).Takes r r := Accepts.pure trivial
  refine Accepts.of_behind (fun st reads => ?_) literal
  rw [atom, bind_peek, reads]
  rfl

theorem atom_number {n : Int64} : (atom g).Takes (.number n :: r) r := by
  have literal : (pure (Expr.number n) : Parse Expr).Takes r r := Accepts.pure trivial
  refine Accepts.of_behind (fun st reads => ?_) literal
  rw [atom, bind_peek, reads]
  rfl

theorem addProperty_fixed (e : Expr) : (addProperty g e).Takes (.name name :: s) s := by
  refine Accepts.of_behind (fun st reads => ?_)
    (Accepts.pure (a := Expr.property e (.fixed name)) trivial)
  rw [addProperty, bind_peek, reads]
  rfl

theorem addProperty_computed (inner : (g.templates true).Takes s (.mark .rightParen :: t))
    (e : Expr) : (addProperty g e).Takes (.mark .leftParen :: s) t := by
  have enclosed : Parse.Takes (do
      let inner ← g.templates true
      expect .rightParen
      pure (Expr.property e (.computed inner))) s t :=
    enclosed_accepts inner fun _ => Accepts.pure trivial
  refine Accepts.of_behind (fun st reads => ?_) enclosed
  rw [addProperty, bind_peek, reads]
  rfl

theorem primary_takes (first : (atom g).Takes s t)
    (properties : Accepted ctx g .properties t r) : (primary g).Takes s r :=
  first.bind fun e _ => Accepts.repeated fun n enough => properties n e enough

theorem addPrimary_takes (right : (primary g).Takes s r) (left : Expr) :
    (addPrimary g left).Takes s r :=
  right.bind fun _ _ => Accepts.pure trivial

theorem sum_takes (first : (primary g).Takes s t)
    (others : Accepted ctx g .primaries t r) : (sum g).Takes s r :=
  first.bind fun e _ => Accepts.repeated fun n enough => others n e enough

theorem addSource_takes (source : (sum g).Takes s r) (sources : List Expr) :
    (addSource g sources).Takes s r :=
  source.bind fun _ _ => Accepts.pure trivial

end Expressions

/-! ## Templates -/

section Templates

theorem templateRef_takes_named (opened : Starts .leftParen s) (args : (arguments g).Takes s r) :
    (templateRef ctx g).Takes (.name name :: s) r := by
  have noParent : ¬ (name = "super" ∧ Starts .dot s) := by
    rintro ⟨-, dot⟩
    cases opened.symm.trans dot
  refine Accepts.of_behind (fun st reads => templateRef_named (by rw [reads]; rfl) ?_)
    (args.bind fun a _ => Accepts.pure trivial)
  rwa [ParseState.symbols_behind, reads]

theorem templateRef_takes_super (args : (arguments g).Takes s r) :
    (templateRef ctx g).Takes (.name "super" :: .mark .dot :: .name name :: s) r := by
  have named : Parse.Takes (do
      let target ← expectName
      pure (TemplateRef.named (.super target) (← arguments g))) (.name name :: s) r := by
    refine Accepts.bind_expectName ?_
    exact args.bind fun a _ => Accepts.pure trivial
  intro st reads
  have dot : Starts .dot st.behind.symbols := by
    rw [ParseState.symbols_behind, reads]
    rfl
  rw [templateRef_super (by rw [reads]; rfl) dot]
  refine named st.behind.behind ?_
  rw [ParseState.symbols_behind, ParseState.symbols_behind, reads]
  rfl

theorem templateRef_takes_computed (inner : (g.templates true).Takes s (.mark .rightParen :: t))
    (args : (arguments g).Takes t r) : (templateRef ctx g).Takes (.mark .leftParen :: s) r := by
  refine Accepts.of_behind (fun st reads => templateRef_computed (by rw [reads]; rfl)) ?_
  refine enclosed_accepts inner fun e => ?_
  exact args.bind fun a _ => Accepts.pure trivial

theorem inlineTemplate_takes (judges : ctx.Judges counts) {raw : List Char}
    (wellFormed : counts raw) (pos : Text.Position) : (inlineTemplate ctx raw pos).Takes r r := by
  intro st reads
  have none := (judges (ctx.owner ++ "_anon" ++ toString (st.inlines + 1)) raw).2 wellFormed
  obtain ⟨t, run⟩ := inlineTemplate_run ctx raw pos st
  refine ⟨t, _, run, reads, ?_, trivial⟩
  dsimp only
  rw [none, List.map_nil, List.append_nil]

theorem templateRef_takes_inline (judges : ctx.Judges counts) {raw : List Char}
    (wellFormed : counts raw) : (templateRef ctx g).Takes (.inline raw :: r) r := by
  intro st reads
  have next : st.symbols.head? = some (.inline raw) := by
    rw [reads]
    rfl
  obtain ⟨pos, run⟩ := templateRef_inline ctx g next
  have inlined : Parse.Takes (do pure (TemplateRef.inline (← inlineTemplate ctx raw pos))) r r :=
    (inlineTemplate_takes judges wellFormed pos).bind fun _ _ => Accepts.pure trivial
  rw [run]
  refine inlined st.behind ?_
  rw [ParseState.symbols_behind, reads]
  rfl

theorem addTemplate_takes (template : (templateRef ctx g).Takes s r) (ts : List TemplateRef) :
    (addTemplate ctx g ts).Takes s r :=
  template.bind fun _ _ => Accepts.pure trivial

theorem addApplication_takes (first : (templateRef ctx g).Takes s t)
    (others : Accepted ctx g .trefs t r) (e : Expr) : (addApplication ctx g true e).Takes s r := by
  refine (addTemplate_takes first []).bind fun ts _ => ?_
  refine (Accepts.repeated fun n enough => others n ts enough).bind fun ts' _ => ?_
  exact Accepts.pure trivial

theorem addApplication_takes_nested (template : (templateRef ctx g).Takes s r) (e : Expr) :
    (addApplication ctx g false e).Takes s r :=
  (addTemplate_takes template []).bind fun _ _ => Accepts.pure trivial

theorem application_takes {top : Bool} (single : ¬ (top = true ∧ Starts .comma t))
    (first : (sum g).Takes s t) (others : Accepted ctx g (.applications top) t r) :
    (application ctx g top).Takes s r := by
  refine first.bind fun e _ => Accepts.of_branch (fun st reads => single_branch (reads ▸ single)) ?_
  have unread : (pure e : Parse Expr).Takes t t := Accepts.pure trivial
  exact unread.bind fun e' _ => Accepts.repeated fun n enough => others n e' enough

theorem application_takes_aligned (first : (sum g).Takes s (.mark .comma :: t))
    (sources : Accepted ctx g .exprs (.mark .comma :: t) (.mark .colon :: u))
    (template : (templateRef ctx g).Takes u v)
    (others : Accepted ctx g (.applications true) v r) : (application ctx g true).Takes s r := by
  have aligned (e : Expr) : (aligned ctx g e).Takes (.mark .comma :: t) v := by
    refine (Accepts.repeated fun n enough => sources n [e] enough).bind fun es _ => ?_
    refine Accepts.bind_expect ?_
    exact template.bind fun _ _ => Accepts.pure trivial
  refine first.bind fun e _ => ?_
  refine Accepts.of_branch (fun st reads => aligned_branch (by rw [reads]; rfl)) ?_
  exact (aligned e).bind fun e' _ => Accepts.repeated fun n enough => others n e' enough

end Templates

/-! ## Chunks -/

section Chunks

theorem setOption_takes (known : IsOption name) (o : ExprOptions) (e : Expr) :
    (setOption o name e).Takes r r := by
  obtain ⟨o', set⟩ := setOption_known known o e
  rw [set]
  exact Accepts.pure trivial

theorem option_takes_bare (known : IsOption name) (stops : ¬ Starts .equals r) (o : ExprOptions) :
    (option g o).Takes (.name name :: r) r := by
  rw [option_eq]
  refine Accepts.bind_expectName (Accepts.bind_eat_other stops ?_)
  have unread : (pure (Expr.text "") : Parse Expr).Takes r r := Accepts.pure trivial
  exact unread.bind fun e _ => setOption_takes known o e

theorem option_takes (known : IsOption name) (value : (sum g).Takes s r) (o : ExprOptions) :
    (option g o).Takes (.name name :: .mark .equals :: s) r := by
  rw [option_eq]
  refine Accepts.bind_expectName (Accepts.bind_eat ?_)
  exact value.bind fun e _ => setOption_takes known o e

theorem addOption_takes (taken : ∀ o, (option g o).Takes s r) (o : ExprOptions) :
    (addOption g o).Takes s r :=
  (taken o).bind_attempt fun _ _ => Accepts.pure trivial

theorem expectEnd_takes : expectEnd.Takes [] [] := by
  intro st reads
  refine ⟨(), st, ?_, reads, rfl, trivial⟩
  rw [expectEnd, bind_peek, reads]
  rfl

theorem optionsBehind_takes_none (e : Expr) : (optionsBehind g e).Takes [] [] := by
  refine Accepts.bind_eat_other (nomatch ·) ?_
  exact expectEnd_takes.bind fun _ _ => Accepts.pure trivial

theorem optionsBehind_takes (first : ∀ o, (option g o).Takes s t)
    (others : Accepted ctx g .options t []) (e : Expr) :
    (optionsBehind g e).Takes (.mark .semicolon :: s) [] := by
  refine Accepts.bind_eat ((addOption_takes first .none).bind fun o _ => ?_)
  refine (Accepts.repeated fun n enough => others n o enough).bind fun o' _ => ?_
  exact expectEnd_takes.bind fun _ _ => Accepts.pure trivial

theorem action_takes (expression : (application ctx g true).Takes s t)
    (options : ∀ e, (optionsBehind g e).Takes t r) : (action ctx g).Takes s r := by
  rw [action_eq]
  exact expression.bind_attempt fun e _ => options e

theorem condition_takes (opens : ¬ Starts .bang s)
    (expression : (application ctx g true).Takes s []) : (condition ctx g).Takes s [] := by
  refine Accepts.bind_eat_other opens (expression.bind_attempt fun e _ => ?_)
  exact expectEnd_takes.bind fun _ _ => Accepts.pure trivial

theorem condition_takes_negated (expression : (application ctx g true).Takes s []) :
    (condition ctx g).Takes (.mark .bang :: s) [] := by
  refine Accepts.bind_eat (expression.bind_attempt fun e _ => ?_)
  exact expectEnd_takes.bind fun _ _ => Accepts.pure trivial

end Chunks

/-! ## All phrases -/

/-- The parser accepts the phrase where it cannot go on, if the grammar is unrolled as deep as there
are symbols. -/
def Complete (ctx : ParseContext) (P : Phrase) (s r : List Symbol) : Prop :=
  ∀ depth, s.length ≤ depth → P.Stops r → Accepted ctx (ofDepth ctx depth) P s r

/-- What stands in brackets has one symbol less at least. -/
theorem Complete.templates {top : Bool} {depth : Nat} (complete : Complete ctx (.templates top) s r)
    (shorter : s.length < depth) (stops : (Phrase.templates top).Stops r) :
    ((ofDepth ctx depth).templates top).Takes s r := by
  cases depth with
  | zero => cases shorter
  | succ depth => exact complete depth (Nat.le_of_lt_succ shorter) stops

theorem Complete.listItems {depth : Nat} (first : Complete ctx .expr s t)
    (others : Complete ctx .exprs t (.mark .rightBracket :: r)) (opens : ¬ Starts .rightBracket s)
    (shorter : s.length < depth) (shorter' : t.length ≤ s.length) (stops : Phrase.expr.Stops t) :
    (listItems (ofDepth ctx depth)).Takes s r := by
  cases depth with
  | zero => cases shorter
  | succ depth =>
    have within : s.length ≤ depth := Nat.le_of_lt_succ shorter
    have items := others depth (Nat.le_trans shorter' within) (stops_mark (by decide))
    exact listItems_takes opens (first depth within stops) items

/-- The parsers accept what the rules derive. Where an item of a phrase ends is told by what the
repetition behind it begins with, and that by what follows the phrase. -/
theorem complete_of_reads (judges : ctx.Judges counts) {P : Phrase} (reads : Reads counts P s r) :
    Complete ctx P s r := by
  induction reads with
  | bareAction _ expression =>
    intro depth within _
    exact action_takes (expression depth within Phrase.stops_nil) optionsBehind_takes_none
  -- A chunk ends behind its last phrase, so nothing can go on there.
  | action readsExpression readsFirst readsOthers expression first others =>
    intro depth within _
    have shorter := readsExpression.length_le
    have shorter' := readsFirst.length_le
    simp only [List.length_cons] at shorter
    have stops := readsOthers.stops_before (P := .option) rfl (by decide) Phrase.stops_nil
    refine action_takes (expression depth within (stops_mark (by decide))) fun e => ?_
    exact optionsBehind_takes (first depth (by omega) stops)
      (others depth (by omega) Phrase.stops_nil) e
  | condition readsExpression expression =>
    intro depth within _
    have opens : ¬ Starts .bang _ := fun starts =>
      absurd (readsExpression.opens_with .templates starts) (by decide)
    exact condition_takes opens (expression depth within Phrase.stops_nil)
  | negated _ expression =>
    intro depth within _
    simp only [List.length_cons] at within
    exact condition_takes_negated (expression depth (by omega) Phrase.stops_nil)
  | bareOption known =>
    intro depth within stops
    exact option_takes_bare known (stops _ (by decide))
  | option known _ value =>
    intro depth within stops
    simp only [List.length_cons] at within
    exact option_takes known (value depth (by omega) (stops.mono (by decide)))
  -- A repetition ends where its separator does not follow.
  | noOptions | noTrefs | noExprs | noPrimaries | noProperties =>
    intro depth within stops n _ _
    exact Accepts.chain_stop (stops _ (by decide)) n trivial
  | options readsFirst readsOthers first others =>
    intro depth within stops n o enough
    have shorter := readsFirst.length_le
    simp only [List.length_cons] at within
    have stops' := readsOthers.stops_before (P := .option) rfl (by decide) (stops.mono (by decide))
    refine Accepts.chain_step (addOption_takes (first depth (by omega) stops') o) shorter
      (fun n o _ enough => ?_) n enough
    exact others depth (by omega) stops n o enough
  | @templates top _ _ _ readsFirst readsOthers first others =>
    intro depth within stops
    have shorter := readsFirst.length_le
    have behind : Phrase.expr.Stops _ :=
      readsOthers.stops_before rfl (by decide) (stops.mono (by cases top <;> decide))
    refine application_takes ?_ (first depth within behind)
      (others depth (by omega) (stops.mono (by cases top <;> decide)))
    -- A comma behind the expression would be that of a second source.
    rintro ⟨rfl, comma⟩
    rcases readsOthers.empty_or_separator rfl with rfl | colon
    · exact stops .comma (by decide) comma
    · cases comma.symm.trans colon
  | aligned readsFirst readsSources readsTemplate readsOthers first sources template others =>
    intro depth within stops
    have shorter := readsFirst.length_le
    have shorter' := readsSources.length_le
    have shorter'' := readsTemplate.length_le
    simp only [List.length_cons] at shorter shorter'
    exact application_takes_aligned (first depth within (stops_mark (by decide)))
      (sources depth (by simp only [List.length_cons]; omega) (stops_mark (by decide)))
      (template depth (by omega) nofun) (others depth (by omega) (stops.mono (by decide)))
  | @noApplications top =>
    intro depth within stops n e _
    exact Accepts.chain_stop (stops _ (by cases top <;> decide)) n trivial
  | applications readsFirst readsTemplates readsOthers first templates others =>
    intro depth within stops n e enough
    have shorter := readsFirst.length_le
    have shorter' := readsTemplates.length_le
    simp only [List.length_cons] at within
    have behind : Phrase.trefs.Stops _ :=
      readsOthers.stops_before rfl (by decide) (stops.mono (by decide))
    have application := addApplication_takes (first depth (by omega) nofun)
      (templates depth (by omega) behind) e
    refine Accepts.chain_step application (by omega) (fun n e _ enough => ?_) n enough
    exact others depth (by omega) stops n e enough
  | nestedApplications readsTemplate readsOthers template others =>
    intro depth within stops n e enough
    have shorter := readsTemplate.length_le
    simp only [List.length_cons] at within
    have application := addApplication_takes_nested (template depth (by omega) nofun) e
    refine Accepts.chain_step application shorter (fun n e _ enough => ?_) n enough
    exact others depth (by omega) stops n e enough
  | trefs readsFirst readsOthers first others =>
    intro depth within stops n ts enough
    have shorter := readsFirst.length_le
    simp only [List.length_cons] at within
    refine Accepts.chain_step (addTemplate_takes (first depth (by omega) nofun) ts) shorter
      (fun n ts _ enough => ?_) n enough
    exact others depth (by omega) stops n ts enough
  | namedTref readsArgs args =>
    intro depth within _
    simp only [List.length_cons] at within
    exact templateRef_takes_named readsArgs.args_opened (args depth (by omega) nofun)
  | superTref _ args =>
    intro depth within _
    simp only [List.length_cons] at within
    exact templateRef_takes_super (args depth (by omega) nofun)
  | computedTref readsInner _ inner args =>
    intro depth within _
    have shorter := readsInner.length_le
    simp only [List.length_cons] at within shorter
    exact templateRef_takes_computed (inner.templates within (stops_mark (by decide)))
      (args depth (by omega) nofun)
  | inlineTref wellFormed =>
    intro depth within _
    exact templateRef_takes_inline judges wellFormed
  | expr readsFirst readsOthers first others =>
    intro depth within stops
    have shorter := readsFirst.length_le
    have stops' := readsOthers.stops_before (P := .primary) rfl (by decide) (stops.mono (by decide))
    exact sum_takes (first depth within stops') (others depth (by omega) (stops.mono (by decide)))
  | exprs readsFirst readsOthers first others =>
    intro depth within stops n es enough
    have shorter := readsFirst.length_le
    simp only [List.length_cons] at within
    have behind : Phrase.expr.Stops _ :=
      readsOthers.stops_before rfl (by decide) (stops.mono (by decide))
    refine Accepts.chain_step (addSource_takes (first depth (by omega) behind) es) shorter
      (fun n es _ enough => ?_) n enough
    exact others depth (by omega) stops n es enough
  | primaries readsFirst readsOthers first others =>
    intro depth within stops n e enough
    have shorter := readsFirst.length_le
    simp only [List.length_cons] at within
    have behind : Phrase.primary.Stops _ :=
      readsOthers.stops_before rfl (by decide) (stops.mono (by decide))
    refine Accepts.chain_step (addPrimary_takes (first depth (by omega) behind) e) shorter
      (fun n e _ enough => ?_) n enough
    exact others depth (by omega) stops n e enough
  | primary readsFirst _ first others =>
    intro depth within stops
    have shorter := readsFirst.length_le
    exact primary_takes (first depth within nofun) (others depth (by omega) stops)
  | fixedProperty readsOthers others =>
    intro depth within stops n e enough
    simp only [List.length_cons] at within
    refine Accepts.chain_step (addProperty_fixed e) (by simp) (fun n e _ enough => ?_) n enough
    exact others depth (by omega) stops n e enough
  | computedProperty readsInner readsOthers inner others =>
    intro depth within stops n e enough
    have shorter := readsInner.length_le
    simp only [List.length_cons] at within shorter
    have inner := inner.templates (show _ < depth by omega) (stops_mark (by decide))
    have property := addProperty_computed inner e
    refine Accepts.chain_step property (Nat.le_succ_of_le (Nat.le_of_succ_le shorter))
      (fun n e _ enough => ?_) n enough
    exact others depth (by omega) stops n e enough
  | bareName noCall noParent =>
    intro depth within _
    exact atom_name (afterName_takes_attribute noCall noParent)
  | superCall _ args =>
    intro depth within _
    simp only [List.length_cons] at within
    exact atom_name (afterName_takes_super (args depth (by omega) nofun))
  | builtin function _ inner =>
    intro depth within _
    simp only [List.length_cons] at within
    have inner := inner.templates (show _ < depth by omega) (stops_mark (by decide))
    exact atom_name (afterName_takes_builtin function inner)
  | call function readsArgs args =>
    intro depth within _
    simp only [List.length_cons] at within
    exact atom_name (afterName_takes_call function readsArgs.args_opened
      (args depth (by omega) nofun))
  | text =>
    intro depth within _
    exact atom_text
  | number =>
    intro depth within _
    exact atom_number
  | emptyList =>
    intro depth within _
    exact atom_bracket (Accepts.bind_eat (Accepts.pure trivial))
  | list readsFirst readsOthers first others =>
    intro depth within _
    have behind : Phrase.expr.Stops _ :=
      readsOthers.stops_before rfl (by decide) (stops_mark (by decide))
    have opens : ¬ Starts .rightBracket _ := fun starts =>
      absurd (readsFirst.opens_with .expr starts) (by decide)
    exact atom_bracket (first.listItems others opens within readsFirst.length_le behind)
  | parenthesized _ noCall inner =>
    intro depth within _
    exact atom_paren (parenthesized_takes_value
      (inner.templates within (stops_mark (by decide))) noCall)
  | computedCall readsInner readsArgs inner args =>
    intro depth within _
    have shorter := readsInner.length_le
    simp only [List.length_cons] at within shorter
    exact atom_paren (parenthesized_takes_call (inner.templates within (stops_mark (by decide)))
      readsArgs.args_opened (args depth (by omega) nofun))
  | noArgs =>
    intro depth within _
    exact arguments_none
  | positional positional readsValue value =>
    intro depth within _
    have opens : ¬ Starts .rightParen _ := fun starts =>
      absurd (readsValue.opens_with .templates starts) (by decide)
    exact arguments_positional positional opens (value.templates within (stops_mark (by decide)))
  | named readsValue readsOthers value others =>
    intro depth within _
    have shorter := readsValue.length_le
    simp only [List.length_cons] at within
    have behind : (Phrase.templates false).Stops _ :=
      readsOthers.stops_before rfl (by decide) (stops_mark (by decide))
    exact arguments_named (value.templates (by omega) behind)
      (others depth (by omega) (stops_mark (by rw [Phrase.goesOn_bindings]; decide)))
  | noBindings =>
    intro depth within stops n b _ _
    exact Accepts.chain_stop (stops .comma (by rw [Phrase.goesOn_bindings]; decide)) n trivial
  | bindings fresh readsValue readsOthers value others =>
    intro depth within stops n b bound enough
    have shorter := readsValue.length_le
    simp only [List.length_cons] at within
    have behind : (Phrase.templates false).Stops _ :=
      readsOthers.stops_before rfl (by decide)
        (stops.mono (by rw [Phrase.goesOn_bindings]; decide))
    have assigned := addAssignment_accepts (bound ▸ fresh)
      (value.templates (show _ < depth by omega) behind)
    refine Accepts.chain_step assigned (by simp only [List.length_cons]; omega)
      (fun n b names enough => ?_) n enough
    exact others depth (by omega) stops n b (bound ▸ names) enough

end Grammar
end Stencil
