import Stencil.Proofs.Locality
import Stencil.Proofs.Outcome
import Stencil.Proofs.Unindented.Basic
/-!
# Strategies agree without indentation

One step of evaluating, writing and rendering is alike in two settings of different strategies if
the steps below it are. Strategies matter only where a text is made on a writer of its own, so that
whole renders are alike, and what they write differs in nothing where no indentation is open.
-/
namespace Stencil

/-- What is asked of two evaluators, for one step above them to be alike. -/
structure Evaluator.AlikeTo (ev ev' : Evaluator) : Prop where
  eval (scope : Handle) {e : Expr} :
    Within Nowhere e.indents → Drafting.Alike (ev.eval scope e) (ev'.eval scope e)
  write (scope : Handle) (v : Value) {o : WriteOptions} :
    Within Nowhere (Expr.optionalIndents o.separator?) →
    Drafting.Alike (ev.write scope v o) (ev'.write scope v o)
  render (scope : Handle) {chunks : List Chunk} :
    Within Nowhere (Chunk.allIndents chunks) →
    Drafting.Alike (ev.render scope chunks) (ev'.render scope chunks)

/-- The setting with another strategy. -/
def Setting.under (setting : Setting) (strategy : Strategy) : Setting := { setting with strategy }

namespace Drafting

variable {setting : Setting} {strategy : Strategy} {ev ev' : Evaluator} {scope callee : Handle}

section Evaluation

variable (drafts : ev.Drafts Nowhere) (below : ev.AlikeTo ev')
include drafts below

/-! ## Texts -/

theorem alike_text (v : Value) :
    Alike (ev.text setting scope v) (ev'.text (setting.under strategy) scope v) := by
  have captured (v : Value) :=
    (below.write scope v (o := .plain) within_nil).captured (drafts.write scope v within_nil)
      setting.strategy strategy
  cases v with
  | text s => exact .refl _
  | _ => exact captured _

theorem alike_evalText {e : Expr} (within : Within Nowhere e.indents) :
    Alike (ev.evalText setting scope e) (ev'.evalText (setting.under strategy) scope e) :=
  (below.eval scope within).bind (drafts.eval scope within).keeps fun v _ =>
    alike_text drafts below v

theorem alike_concat (v w : Value) :
    Alike (ev.concat setting scope v w) (ev'.concat (setting.under strategy) scope v w) := by
  rw [Lockstep.concat_eq, Lockstep.concat_eq]
  split
  · exact .refl _
  · split
    · exact .refl _
    · refine (alike_text drafts below v).bind (silent_text drafts v).keeps fun s _ => ?_
      exact (alike_text drafts below w).bind (silent_text drafts w).keeps fun t _ => .refl _

/-! ## Names -/

theorem alike_target {t : Target} (within : Within Nowhere t.indents) :
    Alike (ev.target setting scope t) (ev'.target (setting.under strategy) scope t) := by
  cases t with
  | name name => exact .refl _
  | super name => exact .refl _
  | computed e =>
    exact (alike_evalText drafts below within).bind (silent_evalText drafts within).keeps
      fun name _ => .refl _

variable (registry : setting.registry.Opens Nowhere)
include registry

theorem alike_template? {t : Target} (within : Within Nowhere t.indents) :
    Alike (ev.template? setting scope t) (ev'.template? (setting.under strategy) scope t) :=
  (alike_target drafts below within).bind (silent_target drafts registry within).keeps
    fun _ _ => .refl _

theorem alike_referred {ref : TemplateRef} (within : Within Nowhere ref.indents) :
    Alike (ev.referred setting scope ref) (ev'.referred (setting.under strategy) scope ref) := by
  cases ref with
  | named t args =>
    rw [TemplateRef.indents, within_append] at within
    exact (alike_template? drafts below registry within.1).bind
      (silent_template? drafts registry within.1).keeps fun found? _ => .refl _
  | «inline» t => exact .refl _

omit registry

/-! ## Arguments -/

theorem alike_bindNamed (t : Template) {bindings : List (String × Expr)}
    (within : Within Nowhere (Arguments.bindingIndents bindings)) :
    Alike (ev.bindNamed callee scope t bindings) (ev'.bindNamed callee scope t bindings) := by
  induction bindings with
  | nil => exact .refl _
  | cons binding rest ih =>
    obtain ⟨name, e⟩ := binding
    rw [Arguments.bindingIndents, within_append] at within
    unfold Evaluator.bindNamed
    dsimp only
    split
    · exact .next (silent_report _).keeps fun _ _ => ih within.2
    · refine (below.eval scope within.1).bind (drafts.eval scope within.1).keeps fun v _ => ?_
      exact .next (silent_bindUnlessNull name v).keeps fun _ _ => ih within.2

theorem alike_bindArguments {args : Arguments} (within : Within Nowhere args.indents) :
    Alike (ev.bindArguments scope callee args) (ev'.bindArguments scope callee args) := by
  refine .withArena fun a _ => ?_
  cases args with
  | none => exact .refl _
  | positional e =>
    dsimp only
    split
    · refine .next silent_openArguments.keeps fun inner _ => ?_
      exact (below.eval inner within).bind (drafts.eval inner within).keeps fun v _ => .refl _
    · exact .refl _
  | named bindings =>
    exact .next silent_openArguments.keeps fun inner _ => alike_bindNamed drafts below _ within

/-! ## Calls and applications -/

include registry in
theorem alike_call {t : Target} {args : Arguments} (within : Within Nowhere t.indents)
    (within' : Within Nowhere args.indents) :
    Alike (ev.call setting scope t args) (ev'.call (setting.under strategy) scope t args) := by
  refine (alike_template? drafts below registry within).bind
    (silent_template? drafts registry within).keeps fun found? found => ?_
  cases found? with
  | none => exact .refl _
  | some t =>
    refine .next (silent_embed scope (found t rfl)).keeps fun callee _ => ?_
    exact (alike_bindArguments drafts below within').bind
      (silent_bindArguments drafts within').keeps fun _ _ => .refl _

theorem alike_applyTo {t : Template} {args : Arguments} (within : Within Nowhere t.indents)
    (within' : Within Nowhere args.indents) (index : Nat) (v : Value) :
    Alike (ev.applyTo scope t args index v) (ev'.applyTo scope t args index v) := by
  refine .next (silent_embed scope within).keeps fun callee _ => ?_
  refine .next (silent_bindElement t index v).keeps fun _ _ => ?_
  exact (alike_bindArguments drafts below within').bind
    (silent_bindArguments drafts within').keeps fun _ _ => .refl _

include registry in
theorem alike_applyInTurn {templates : List TemplateRef}
    (within : Within Nowhere (TemplateRef.allIndents templates)) (index : Nat)
    (items : List Value) :
    Alike (ev.applyInTurn setting scope templates index items)
      (ev'.applyInTurn (setting.under strategy) scope templates index items) := by
  induction items generalizing index with
  | nil => exact .refl _
  | cons item rest ih =>
    unfold Evaluator.applyInTurn
    cases at? : templates[index % templates.length]? with
    | none => exact ih (index + 1)
    | some ref =>
      have own := TemplateRef.within_allIndents.1 within ref (List.mem_of_getElem? at?)
      refine (alike_referred drafts below registry own).bind
        (silent_referred drafts registry own).keeps fun found? found => ?_
      cases found? with
      | none => exact ih (index + 1)
      | some found' =>
        obtain ⟨t, args⟩ := found'
        obtain ⟨body, arguments⟩ := found t args rfl
        refine (alike_applyTo drafts below body arguments (index + 1) item).bind
          (silent_applyTo drafts body arguments (index + 1) item).keeps fun v _ => ?_
        exact (ih (index + 1)).bind
          (silent_applyInTurn drafts registry within (index + 1) rest).keeps fun vs _ => .refl _

include registry in
theorem alike_applyRotating {source : Expr} {templates : List TemplateRef}
    (within : Within Nowhere source.indents)
    (within' : Within Nowhere (TemplateRef.allIndents templates)) :
    Alike (ev.applyRotating setting scope source templates)
      (ev'.applyRotating (setting.under strategy) scope source templates) := by
  refine (below.eval scope within).bind (drafts.eval scope within).keeps fun v _ => ?_
  dsimp only
  split
  · exact .refl _
  · exact (alike_applyInTurn drafts below registry within' 0 _).bind
      (silent_applyInTurn drafts registry within' 0 _).keeps fun vs _ => .refl _

theorem alike_evalSources {sources : List Expr}
    (within : Within Nowhere (Expr.allIndents sources)) :
    Alike (ev.evalSources scope sources) (ev'.evalSources scope sources) := by
  induction sources with
  | nil => exact .refl _
  | cons e rest ih =>
    rw [Expr.allIndents, within_append] at within
    refine (below.eval scope within.1).bind (drafts.eval scope within.1).keeps fun v _ => ?_
    split
    · exact .refl _
    · exact (ih within.2).bind (silent_evalSources drafts within.2).keeps fun lists? _ => .refl _

theorem alike_applyRows {t : Template} {args : Arguments} (within : Within Nowhere t.indents)
    (within' : Within Nowhere args.indents) (index : Nat) (rows : List (List (Option Value))) :
    Alike (ev.applyRows scope t args index rows) (ev'.applyRows scope t args index rows) := by
  induction rows generalizing index with
  | nil => exact .refl _
  | cons row rest ih =>
    refine .next (silent_embed scope within).keeps fun callee _ => ?_
    refine .next (silent_bindRow t.formals row (index + 1)).keeps fun _ _ => ?_
    refine (alike_bindArguments drafts below within').bind
      (silent_bindArguments drafts within').keeps fun _ _ => ?_
    exact (ih (index + 1)).bind
      (silent_applyRows drafts within within' (index + 1) rest).keeps fun vs _ => .refl _

include registry in
theorem alike_applyAligned {sources : List Expr} {ref : TemplateRef}
    (within : Within Nowhere (Expr.allIndents sources)) (within' : Within Nowhere ref.indents) :
    Alike (ev.applyAligned setting scope sources ref)
      (ev'.applyAligned (setting.under strategy) scope sources ref) := by
  refine (alike_evalSources drafts below within).bind
    (silent_evalSources drafts within).keeps fun lists? _ => ?_
  cases lists? with
  | none => exact .refl _
  | some lists =>
    refine (alike_referred drafts below registry within').bind
      (silent_referred drafts registry within').keeps fun found? found => ?_
    cases found? with
    | none => exact .refl _
    | some found' =>
      obtain ⟨t, args⟩ := found'
      obtain ⟨body, arguments⟩ := found t args rfl
      let rows := Evaluator.rows (Evaluator.walked t.formals lists)
      have each : Alike (ev.applyRows scope t args 0 rows) (ev'.applyRows scope t args 0 rows) :=
        alike_applyRows drafts below body arguments 0 rows
      have applied := each.bind (f := fun vs => (return .list vs : Run Value))
        (g := fun vs => return .list vs)
        (silent_applyRows drafts body arguments 0 _).keeps fun vs _ => .refl _
      dsimp only
      split
      · exact .next (silent_report _).keeps fun _ _ => applied
      · exact applied

/-! ## Expressions -/

theorem alike_evalItems {items : List Expr} (within : Within Nowhere (Expr.allIndents items)) :
    Alike (ev.evalItems scope items) (ev'.evalItems scope items) := by
  induction items with
  | nil => exact .refl _
  | cons e rest ih =>
    rw [Expr.allIndents, within_append] at within
    refine (below.eval scope within.1).bind (drafts.eval scope within.1).keeps fun v _ => ?_
    exact (ih within.2).bind (silent_evalItems drafts within.2).keeps fun vs _ => .refl _

theorem alike_evalProperty {target : Expr} {name : PropertyName}
    (within : Within Nowhere target.indents) (within' : Within Nowhere name.indents) :
    Alike (ev.evalStep setting scope (.property target name))
      (ev'.evalStep (setting.under strategy) scope (.property target name)) := by
  refine (below.eval scope within).bind (drafts.eval scope within).keeps fun v _ => ?_
  cases name with
  | fixed name => exact .refl _
  | computed e =>
    exact (alike_evalText drafts below within').bind (silent_evalText drafts within').keeps
      fun name _ => .refl _

include registry in
theorem alike_evalStep {e : Expr} (within : Within Nowhere e.indents) :
    Alike (ev.evalStep setting scope e) (ev'.evalStep (setting.under strategy) scope e) := by
  cases e with
  | «attribute» name => exact .refl _
  | number n => exact .refl _
  | text s => exact .refl _
  | concat left right =>
    rw [Expr.indents, within_append] at within
    refine (below.eval scope within.1).bind (drafts.eval scope within.1).keeps fun v _ => ?_
    exact (below.eval scope within.2).bind (drafts.eval scope within.2).keeps fun w _ =>
      alike_concat drafts below v w
  | property target name =>
    rw [Expr.indents, within_append] at within
    exact alike_evalProperty drafts below within.1 within.2
  | call t args =>
    rw [Expr.indents, within_append] at within
    exact alike_call drafts below registry within.1 within.2
  | apply source templates =>
    rw [Expr.indents, within_append] at within
    exact alike_applyRotating drafts below registry within.1 within.2
  | applyAligned sources ref =>
    rw [Expr.indents, within_append] at within
    exact alike_applyAligned drafts below registry within.1 within.2
  | rendered inner =>
    have within : Within Nowhere inner.indents := within
    refine (below.eval scope within).bind (drafts.eval scope within).keeps fun v _ => ?_
    split
    · exact .refl _
    · exact (alike_text drafts below v).bind (silent_text drafts v).keeps fun s _ => .refl _
  | not inner =>
    have within : Within Nowhere inner.indents := within
    exact (below.eval scope within).bind (drafts.eval scope within).keeps fun v _ => .refl _
  | builtin f inner =>
    have within : Within Nowhere inner.indents := within
    exact (below.eval scope within).bind (drafts.eval scope within).keeps fun v _ => .refl _
  | list items =>
    exact (alike_evalItems drafts below within).bind (silent_evalItems drafts within).keeps
      fun vs _ => .refl _

/-! ## Writing -/

theorem alike_writeSeparator {separator? : Option Expr}
    (within : Within Nowhere (Expr.optionalIndents separator?)) (pending : Bool) :
    Alike (ev.writeSeparator setting scope separator? pending)
      (ev'.writeSeparator (setting.under strategy) scope separator? pending) := by
  cases separator? with
  | none => exact .refl _
  | some e =>
    cases pending with
    | false => exact .refl _
    | true =>
      exact (alike_evalText drafts below within).bind (silent_evalText drafts within).keeps
        fun s _ => .refl _

theorem alike_writeElements {o : WriteOptions}
    (within : Within Nowhere (Expr.optionalIndents o.separator?)) (pending : Bool)
    (items : List Value) :
    Alike (ev.writeElements setting scope o pending items)
      (ev'.writeElements (setting.under strategy) scope o pending items) := by
  induction items generalizing pending with
  | nil => exact .refl _
  | cons item rest ih =>
    rw [Evaluator.writeElements_cons, Evaluator.writeElements_cons]
    split
    · exact ih pending
    · refine (alike_writeSeparator drafts below within pending).bind
        (drafted_writeSeparator drafts within pending).keeps fun n _ => ?_
      refine (below.write scope item within).bind (drafts.write scope item within).keeps
        fun m _ => .withArena fun a _ => ?_
      exact (ih _).bind (drafted_writeElements drafts within _ rest).keeps fun k _ => .refl _

omit drafts in
theorem alike_writeTemplate (h : Handle) :
    Alike (ev.writeTemplate setting scope h)
      (ev'.writeTemplate (setting.under strategy) scope h) := by
  have enclosed : Silent Nowhere Any
      (Run.changeArena fun a => a.setEnclosing h (some scope)) :=
    silent_changeArena fun a opens => opens.setEnclosing _ _
  refine .next enclosed.keeps fun _ _ => .withArena fun a opens => ?_
  change Alike (if setting.strict && a.isSelfEnclosed h then _ else _)
    (if setting.strict && a.isSelfEnclosed h then _ else _)
  split
  · exact .refl _
  · exact below.render h (Template.indents_eq _ ▸ opens h)

theorem alike_writeStep (v : Value) {o : WriteOptions}
    (within : Within Nowhere (Expr.optionalIndents o.separator?)) :
    Alike (ev.writeStep setting scope v o) (ev'.writeStep (setting.under strategy) scope v o) := by
  cases v with
  | template h => exact alike_writeTemplate below h
  | list items => exact alike_writeElements drafts below within false items
  | map entries => exact alike_writeElements drafts below within false _
  | _ => exact .refl _

/-! ## Chunks -/

theorem alike_evalOption {e? : Option Expr} (within : Within Nowhere (Expr.optionalIndents e?)) :
    Alike (ev.evalOption setting scope e?) (ev'.evalOption (setting.under strategy) scope e?) := by
  cases e? with
  | none => exact .refl _
  | some e =>
    exact (alike_evalText drafts below within).bind (silent_evalText drafts within).keeps
      fun s _ => .refl _

theorem alike_writeOptions {o : ExprOptions} (within : Within Nowhere o.indents) :
    Alike (ev.writeOptions setting scope o) (ev'.writeOptions (setting.under strategy) scope o) := by
  obtain ⟨separator, null, format⟩ := o
  rw [ExprOptions.indents, within_append, within_append] at within
  refine (alike_evalOption drafts below within.1.2).bind
    (silent_evalOption drafts within.1.2).keeps fun null? _ => ?_
  exact (alike_evalOption drafts below within.2).bind
    (silent_evalOption drafts within.2).keeps fun format? _ => .refl _

theorem alike_renderChunk {chunk : Chunk} (within : Within Nowhere chunk.indents) :
    Alike (ev.renderChunk setting scope chunk)
      (ev'.renderChunk (setting.under strategy) scope chunk) := by
  cases chunk with
  | literal s => exact .refl _
  | newline s => exact .refl _
  | expression e options indent? =>
    rw [Chunk.indents, within_append, within_append] at within
    refine (below.eval scope within.1.2).bind (drafts.eval scope within.1.2).keeps fun v _ => ?_
    refine (alike_writeOptions drafts below within.2).bind
      (silent_writeOptions drafts within.2).keeps fun o same => ?_
    obtain ⟨separator, null, format⟩ := options
    rw [ExprOptions.indents, within_append, within_append] at within
    refine Alike.indented (below.write scope v ?_) indent?
    rw [same]
    exact within.2.1.1
  | conditional condition holds otherwise =>
    rw [Chunk.indents, within_append, within_append] at within
    refine (below.eval scope within.1.1).bind (drafts.eval scope within.1.1).keeps fun v _ => ?_
    split
    · exact below.render scope (Template.indents_eq holds ▸ within.1.2)
    · cases otherwise with
      | none => exact .refl _
      | some t => exact below.render scope (Template.indents_eq t ▸ within.2)

theorem alike_renderStep {chunks : List Chunk}
    (within : Within Nowhere (Chunk.allIndents chunks)) :
    Alike (ev.renderStep setting scope chunks)
      (ev'.renderStep (setting.under strategy) scope chunks) := by
  induction chunks with
  | nil => exact .refl _
  | cons chunk rest ih =>
    rw [Chunk.allIndents, within_append] at within
    refine (alike_renderChunk drafts below within.1).bind
      (drafted_renderChunk drafts within.1).keeps fun n _ => ?_
    exact (ih within.2).bind (drafted_renderStep drafts within.2).keeps fun m _ => .refl _

end Evaluation

/-! ## Whole renders -/

theorem alike_ofDepth (registry : setting.registry.Opens Nowhere) (strategy : Strategy)
    (depth : Nat) :
    (Evaluator.ofDepth setting depth).AlikeTo (.ofDepth (setting.under strategy) depth) := by
  induction depth with
  | zero => exact ⟨fun _ _ _ => .refl _, fun _ _ _ _ => .refl _, fun _ _ _ => .refl _⟩
  | succ depth ih =>
    have drafts := drafts_ofDepth registry depth
    exact ⟨fun _ _ within => alike_evalStep drafts ih registry within,
      fun _ v _ within => alike_writeStep drafts ih v within,
      fun _ _ within => alike_renderStep drafts ih within⟩

/-- A render makes the same of its texts under another strategy. -/
theorem renderWithin_under (registry : setting.registry.Opens Nowhere) {a : Arena}
    (opens : a.Opens Nowhere) (strategy : Strategy) (depth : Nat) (root : Handle) (w : Writer) :
    (setting.under strategy).renderWithin depth a root w = setting.renderWithin depth a root w := by
  have within : Within Nowhere (Chunk.allIndents (a.get root).template.chunks) :=
    Template.indents_eq _ ▸ opens root
  unfold Setting.renderWithin
  rw [← (alike_ofDepth registry strategy depth).render root within ⟨a, [], w⟩ opens]

/-- Nor does what it writes depend on the strategy of its own writer, if that has no indentation
open. A sink that is too small may still get more of it under one strategy than under another. -/
theorem renderWithin_unindented (registry : setting.registry.Opens Nowhere) {a : Arena}
    (opens : a.Opens Nowhere) (depth : Nat) (root : Handle) {w w' : Writer}
    (unindented : w.indents = []) (unindented' : w'.indents = []) (sink : w'.sink = w.sink) :
    let one := setting.renderWithin depth a root w
    let other := setting.renderWithin depth a root w'
    other.result = one.result ∧
      (one.result ≠ .error (.fatal .sinkFull) → other.writer.text = one.writer.text) := by
  intro one other
  have within : Within Nowhere (Chunk.allIndents (a.get root).template.chunks) :=
    Template.indents_eq _ ▸ opens root
  obtain ⟨d, ending, nowhere, -, wrote⟩ :=
    (drafts_ofDepth registry depth).render root within a [] opens
  have same : d.on w' = d.on w := by
    rw [Draft.on, Draft.on, unindented, unindented']
    exact d.layOut_unindented nowhere _ _ _ _
  subst one other
  unfold Setting.renderWithin
  cases fits : w.sink.accepts (d.on w) with
  | true =>
    have fits' : w'.sink.accepts (d.on w') = true := by rw [sink, same, fits]
    have text : w'.text ++ d.on w = w.text ++ d.on w := by rw [Writer.text, sink, Writer.text]
    rw [(wrote w).eq_of_accepts fits, (wrote w').eq_of_accepts fits', same]
    cases ending with
    | back => exact ⟨rfl, fun _ => text⟩
    | stopped => exact ⟨rfl, fun _ => text⟩
  | false =>
    have full' : w'.sink.accepts (d.on w') = false := by rw [sink, same, fits]
    obtain ⟨t, failed⟩ := (wrote w).sinkFull_of_refuses fits
    obtain ⟨t', failed'⟩ := (wrote w').sinkFull_of_refuses full'
    rw [failed, failed']
    exact ⟨rfl, fun apart => absurd rfl apart⟩

end Drafting

/-- Where no template that the root leads to or the registry finds opens an indentation, a text is
the same under both strategies: what it says, the characters counted, the diagnostics and what
stopped it. So is a render on writers without open indentations, whatever strategies these have;
only what reached a sink that was too small may differ. -/
theorem strategies_agree (setting : Setting) (strategy : Strategy) (a : Arena) (root : Handle)
    (registry : setting.registry.Opens Nowhere)
    (opens : ∀ h, a.LeadsTo root h → Within Nowhere (a.get h).template.indents) :
    (let text := setting.renderToText a root
      let other := (setting.under strategy).renderToText a root
      other.writer.text = text.writer.text ∧ other.result = text.result) ∧
    ∀ depth (w w' : Writer), w.indents = [] → w'.indents = [] → w'.sink = w.sink →
      let one := setting.renderWithin depth a root w
      let other := (setting.under strategy).renderWithin depth a root w'
      other.result = one.result ∧
        (one.result ≠ .error (.fatal .sinkFull) → other.writer.text = one.writer.text) := by
  classical
  -- Templates that cannot be reached may open indentations, so they are taken away first.
  have nowhere : (a.veiled (a.LeadsTo root)).Opens Nowhere := by
    intro h
    rw [Arena.get_veiled]
    split
    · rename_i reached
      exact opens h reached
    · exact within_nil
  have agree (depth : Nat) (w w' : Writer) (unindented : w.indents = [])
      (unindented' : w'.indents = []) (sink : w'.sink = w.sink) := by
    have moved := Drafting.renderWithin_unindented registry nowhere depth root unindented
      unindented' sink
    rw [← Drafting.renderWithin_under registry nowhere strategy depth root w'] at moved
    obtain ⟨result, writer⟩ := render_veiled setting a root depth w
    obtain ⟨result', writer'⟩ := render_veiled (setting.under strategy) a root depth w'
    dsimp only at moved
    rw [← result, ← writer, ← result', ← writer'] at moved
    exact moved
  refine ⟨?_, agree⟩
  intro text other
  have unbounded : (Writer.fresh setting.strategy).sink.limit? = none := rfl
  obtain ⟨result, rest⟩ := agree Setting.ampleDepth (.fresh setting.strategy) (.fresh strategy)
    rfl rfl rfl
  exact ⟨rest (Drafting.ne_sinkFull_of_unlimited unbounded setting _ a root), result⟩

-- A text goes out character by character under one strategy and whole under the other, so that a sink
-- which is too small for it gets a part of it or nothing.
example :
    let page := (Arena.empty.instantiate (.plain "page" [.literal "abc"])).2
    let onto (strategy : Strategy) :=
      (Setting.standard.under strategy).renderWithin 2 page ⟨0⟩ (.onto strategy (.upTo 2))
    (onto .autoIndent).result = (onto .noIndent).result ∧
      (onto .autoIndent).writer.text = "ab" ∧ (onto .noIndent).writer.text = "" := by
  decide +kernel

/-- A registry that knows a template by a name of two lines. -/
def Unindented.setting : Setting :=
  let lines := Template.plain "lines" [.literal "x", .newline "\n", .literal "y"]
  { Setting.standard with
    registry := ⟨fun name => if name = "a\nb" then some lines else none, fun _ _ => none⟩ }

/-- The list of the two lines of that name. -/
def Unindented.name : Value := .list [.text "a\n", .text "b"]

/-- An instance that calls what the list names, and then writes the list with commas. The other one,
which opens an indentation, cannot be reached from it. -/
def Unindented.page : Arena :=
  let apart := Template.plain "apart" [.expression (.text "z") .none (some "  ")]
  let root := Template.plain "root" [
    .expression (.call (.computed (.attribute "name")) .none) .none none,
    .expression (.attribute "name") ⟨some (.text ","), none, none⟩ none]
  ((Arena.empty.instantiate apart).2.instantiate root).2.setAttribute ⟨1⟩ "name" Unindented.name

theorem Unindented.not_holds_name (x : Handle) : ¬ name.Holds x := by
  intro holds
  obtain ⟨v, member, holds⟩ := Value.holds_list_iff.1 holds
  rcases List.mem_pair.1 member with rfl | rfl
  · exact Value.not_holds_text _ holds
  · exact Value.not_holds_text _ holds

theorem Unindented.eq_of_leadsTo {h : Handle} (reached : page.LeadsTo ⟨1⟩ h) : h = ⟨1⟩ := by
  rcases reached.cases_head with same | ⟨x, step, -⟩
  · exact same.symm
  · rcases step with link | ⟨⟨name, set | given⟩, holds⟩
    · cases link
    · change Table.find? name [("name", Unindented.name)] = _ at set
      simp only [Table.find?] at set
      split at set
      · cases set
        exact absurd holds (not_holds_name x)
      · cases set
    · cases given

theorem page_strategies_agree :
    let one := Unindented.setting.renderToText Unindented.page ⟨1⟩
    let other := (Unindented.setting.under .noIndent).renderToText Unindented.page ⟨1⟩
    other.writer.text = one.writer.text ∧ other.result = one.result ∧
      (Unindented.setting.renderWithin 6 Unindented.page ⟨1⟩ (.fresh .autoIndent)).writer.text =
        "x\nya\n,b" := by
  intro one other
  have registry : Unindented.setting.registry.Opens Nowhere := by
    constructor
    case named =>
      intro name t found
      simp only [Unindented.setting] at found
      split at found
      · cases found
        decide
      · cases found
    case inherited => nofun
  have opens (h : Handle) (reached : Unindented.page.LeadsTo ⟨1⟩ h) :
      Within Nowhere (Unindented.page.get h).template.indents := by
    rw [Unindented.eq_of_leadsTo reached]
    decide
  obtain ⟨⟨text, result⟩, -⟩ :=
    strategies_agree Unindented.setting .noIndent Unindented.page ⟨1⟩ registry opens
  exact ⟨text, result, by decide +kernel⟩

end Stencil
