import Stencil.Proofs.Drafting.Basic
import Stencil.Proofs.Lockstep.Step
/-!
# Drafts of renders

Evaluating an expression writes nothing. Writing a value and rendering chunks have drafts, whose
indentations are those of the chunks, the arena and the registry.
-/
namespace Stencil

/-- What is asked of an evaluator, for one step above it to be the same. -/
structure Evaluator.Drafts (allowed : String → Prop) (ev : Evaluator) : Prop where
  eval (scope : Handle) {e : Expr} :
    Within allowed e.indents → Drafting.Silent allowed Drafting.Any (ev.eval scope e)
  write (scope : Handle) (v : Value) {o : WriteOptions} :
    Within allowed (Expr.optionalIndents o.separator?) →
    Drafting.Drafted allowed (ev.write scope v o)
  render (scope : Handle) {chunks : List Chunk} :
    Within allowed (Chunk.allIndents chunks) → Drafting.Drafted allowed (ev.render scope chunks)

namespace Drafting

variable {allowed : String → Prop} {setting : Setting} {ev : Evaluator} {scope callee : Handle}

/-! ## Texts -/

section Evaluation

variable (drafts : ev.Drafts allowed)
include drafts

theorem silent_text (v : Value) : Silent allowed Any (ev.text setting scope v) := by
  cases v with
  | text s => exact silent_pure trivial
  | _ => exact silent_captured _ (drafts.write scope _ within_nil)

theorem silent_evalText {e : Expr} (within : Within allowed e.indents) :
    Silent allowed Any (ev.evalText setting scope e) :=
  silent_bind (drafts.eval scope within) fun v _ => silent_text drafts v

theorem silent_concat (v w : Value) : Silent allowed Any (ev.concat setting scope v w) := by
  rw [Lockstep.concat_eq]
  split
  · exact silent_pure trivial
  · split
    · exact silent_pure trivial
    · refine silent_bind (silent_text drafts v) fun s _ => ?_
      exact silent_bind (silent_text drafts w) fun t _ => silent_pure trivial

/-! ## Names -/

omit drafts in
theorem silent_resolveAttribute (name : String) :
    Silent allowed Any (Run.resolveAttribute scope name) := by
  refine silent_withArena fun a _ => ?_
  cases a.resolve scope name with
  | found v => exact silent_pure trivial
  | missing declared owner =>
    cases declared with
    | true => exact silent_pure trivial
    | false => exact silent_bind (silent_report _) fun _ _ => silent_pure trivial

omit drafts in
theorem silent_resolveProperty (v : Value) (name : String) :
    Silent allowed Any (Run.resolveProperty v name) := by
  unfold Run.resolveProperty
  split
  · exact silent_pure trivial
  · refine silent_withArena fun a _ => ?_
    cases a.property v name with
    | some found => exact silent_pure trivial
    | none => exact silent_bind (silent_report _) fun _ _ => silent_pure trivial

/-- A template, if there is one, that opens allowed indentations only. -/
def Found (allowed : String → Prop) (found? : Option Template) : Prop :=
  ∀ t, found? = some t → Within allowed t.indents

variable (registry : setting.registry.Opens allowed)
include registry

omit drafts in
theorem found_lookupName (group? : Option String) (name : String) :
    Found allowed (Evaluator.lookupName setting group? name) := by
  intro t found
  rcases (Option.orElse_eq_some _ _ _).1 found with inGroup | ⟨-, anywhere⟩
  · obtain ⟨group, -, named⟩ := Option.bind_eq_some_iff.1 inGroup
    exact registry.named named
  · exact registry.named anywhere

theorem silent_target {t : Target} (within : Within allowed t.indents) :
    Silent allowed (fun r => Found allowed r.2) (ev.target setting scope t) := by
  cases t with
  | name name =>
    exact silent_withArena fun _ _ => silent_pure (found_lookupName registry _ name)
  | super name =>
    refine silent_withArena fun a _ => silent_pure fun t found => ?_
    obtain ⟨group, -, named⟩ := Option.bind_eq_some_iff.1 found
    exact registry.inherited named
  | computed e =>
    exact silent_bind (silent_evalText drafts within) fun name _ =>
      silent_pure fun t found => registry.named found

theorem silent_template? {t : Target} (within : Within allowed t.indents) :
    Silent allowed (Found allowed) (ev.template? setting scope t) := by
  refine silent_bind (silent_target drafts registry within) ?_
  rintro ⟨name, found?⟩ found
  cases found? with
  | some t => exact silent_pure found
  | none => exact silent_bind (silent_report _) fun _ _ => silent_pure found

omit registry

/-! ## Arguments -/

omit drafts in
theorem silent_bindUnlessNull (name : String) (v : Value) :
    Silent allowed Any (Evaluator.bindUnlessNull callee name v) := by
  unfold Evaluator.bindUnlessNull
  split
  · exact silent_pure trivial
  · exact silent_changeArena fun _ opens => opens.setArgument callee name v

omit drafts in
theorem silent_openArguments :
    Silent allowed Any (Evaluator.openArguments scope callee) :=
  silent_enter fun _ opens => opens.push (opens scope)

theorem silent_bindNamed (t : Template) {bindings : List (String × Expr)}
    (within : Within allowed (Arguments.bindingIndents bindings)) :
    Silent allowed Any (ev.bindNamed callee scope t bindings) := by
  induction bindings with
  | nil => exact silent_pure trivial
  | cons binding rest ih =>
    obtain ⟨name, e⟩ := binding
    rw [Arguments.bindingIndents, within_append] at within
    unfold Evaluator.bindNamed
    dsimp only
    split
    · exact silent_bind (silent_report _) fun _ _ => ih within.2
    · refine silent_bind (drafts.eval scope within.1) fun v _ => ?_
      exact silent_bind (silent_bindUnlessNull name v) fun _ _ => ih within.2

theorem silent_bindArguments {args : Arguments} (within : Within allowed args.indents) :
    Silent allowed Any (ev.bindArguments scope callee args) := by
  refine silent_withArena fun a _ => ?_
  cases args with
  | none => exact silent_pure trivial
  | positional e =>
    dsimp only
    split
    · refine silent_bind silent_openArguments fun inner _ => ?_
      exact silent_bind (drafts.eval inner within) fun v _ => silent_bindUnlessNull _ v
    · exact silent_report _
  | named bindings =>
    exact silent_bind silent_openArguments fun inner _ => silent_bindNamed drafts _ within

/-! ## Calls and applications -/

include registry in
theorem silent_call {t : Target} {args : Arguments} (within : Within allowed t.indents)
    (within' : Within allowed args.indents) :
    Silent allowed Any (ev.call setting scope t args) := by
  refine silent_bind (silent_template? drafts registry within) fun found? found => ?_
  cases found? with
  | none => exact silent_pure trivial
  | some t =>
    refine silent_bind (silent_embed scope (found t rfl)) fun callee _ => ?_
    exact silent_bind (silent_bindArguments drafts within') fun _ _ => silent_pure trivial

/-- A template and arguments, if there are any, that open allowed indentations only. -/
def Referred (allowed : String → Prop) (found? : Option (Template × Arguments)) : Prop :=
  ∀ t args, found? = some (t, args) → Within allowed t.indents ∧ Within allowed args.indents

include registry in
theorem silent_referred {ref : TemplateRef} (within : Within allowed ref.indents) :
    Silent allowed (Referred allowed) (ev.referred setting scope ref) := by
  cases ref with
  | named t args =>
    rw [TemplateRef.indents, within_append] at within
    refine silent_bind (silent_template? drafts registry within.1) fun found? found =>
      silent_pure ?_
    intro t args some
    obtain ⟨t, rfl, same⟩ := Option.map_eq_some_iff.1 some
    cases same
    exact ⟨found _ rfl, within.2⟩
  | «inline» t =>
    refine silent_pure fun t' args same => ?_
    cases same
    exact ⟨within, within_nil⟩

omit drafts in
theorem silent_bindElement (t : Template) (index : Nat) (v : Value) :
    Silent allowed Any (Evaluator.bindElement callee t index v) := by
  refine silent_changeArena fun a opens => ?_
  dsimp only
  cases Evaluator.soleFormal? t with
  | none => exact ((opens.setArgument _ _ _).setArgument _ _ _).setArgument _ _ _
  | some formal =>
    exact (((opens.setArgument _ _ _).setArgument _ _ _).setArgument _ _ _).setArgument _ _ _

theorem silent_applyTo {t : Template} {args : Arguments} (within : Within allowed t.indents)
    (within' : Within allowed args.indents) (index : Nat) (v : Value) :
    Silent allowed Any (ev.applyTo scope t args index v) := by
  refine silent_bind (silent_embed scope within) fun callee _ => ?_
  refine silent_bind (silent_bindElement t index v) fun _ _ => ?_
  exact silent_bind (silent_bindArguments drafts within') fun _ _ => silent_pure trivial

include registry in
theorem silent_applyInTurn {templates : List TemplateRef}
    (within : Within allowed (TemplateRef.allIndents templates)) (index : Nat)
    (items : List Value) :
    Silent allowed Any (ev.applyInTurn setting scope templates index items) := by
  induction items generalizing index with
  | nil => exact silent_pure trivial
  | cons item rest ih =>
    unfold Evaluator.applyInTurn
    cases at? : templates[index % templates.length]? with
    | none => exact ih (index + 1)
    | some ref =>
      refine silent_bind (silent_referred drafts registry
        (TemplateRef.within_allIndents.1 within ref (List.mem_of_getElem? at?))) fun found? found => ?_
      cases found? with
      | none => exact ih (index + 1)
      | some found' =>
        obtain ⟨t, args⟩ := found'
        obtain ⟨within, within'⟩ := found t args rfl
        refine silent_bind (silent_applyTo drafts within within' (index + 1) item) fun v _ => ?_
        exact silent_bind (ih (index + 1)) fun vs _ => silent_pure trivial

include registry in
theorem silent_applyRotating {source : Expr} {templates : List TemplateRef}
    (within : Within allowed source.indents)
    (within' : Within allowed (TemplateRef.allIndents templates)) :
    Silent allowed Any (ev.applyRotating setting scope source templates) := by
  refine silent_bind (drafts.eval scope within) fun v _ => ?_
  dsimp only
  split
  · exact silent_pure trivial
  · exact silent_bind (silent_applyInTurn drafts registry within' 0 _) fun vs _ =>
      silent_pure trivial

theorem silent_evalSources {sources : List Expr}
    (within : Within allowed (Expr.allIndents sources)) :
    Silent allowed Any (ev.evalSources scope sources) := by
  induction sources with
  | nil => exact silent_pure trivial
  | cons e rest ih =>
    rw [Expr.allIndents, within_append] at within
    refine silent_bind (drafts.eval scope within.1) fun v _ => ?_
    split
    · exact silent_pure trivial
    · exact silent_bind (ih within.2) fun lists? _ => silent_pure trivial

omit drafts in
theorem silent_bindRow (formals : List String) (row : List (Option Value)) (index : Nat) :
    Silent allowed Any (Evaluator.bindRow callee formals row index) := by
  refine silent_changeArena fun a opens => Arena.Opens.setArgument ?_ _ _ _
  induction formals.zip row generalizing a with
  | nil => exact opens
  | cons entry rest ih =>
    obtain ⟨formal, element?⟩ := entry
    refine ih _ ?_
    cases element? with
    | none => exact opens
    | some v =>
      dsimp only
      split
      · exact opens
      · exact opens.setArgument _ _ _

theorem silent_applyRows {t : Template} {args : Arguments} (within : Within allowed t.indents)
    (within' : Within allowed args.indents) (index : Nat) (rows : List (List (Option Value))) :
    Silent allowed Any (ev.applyRows scope t args index rows) := by
  induction rows generalizing index with
  | nil => exact silent_pure trivial
  | cons row rest ih =>
    refine silent_bind (silent_embed scope within) fun callee _ => ?_
    refine silent_bind (silent_bindRow t.formals row (index + 1)) fun _ _ => ?_
    refine silent_bind (silent_bindArguments drafts within') fun _ _ => ?_
    exact silent_bind (ih (index + 1)) fun vs _ => silent_pure trivial

include registry in
theorem silent_applyAligned {sources : List Expr} {ref : TemplateRef}
    (within : Within allowed (Expr.allIndents sources)) (within' : Within allowed ref.indents) :
    Silent allowed Any (ev.applyAligned setting scope sources ref) := by
  refine silent_bind (silent_evalSources drafts within) fun lists? _ => ?_
  cases lists? with
  | none => exact silent_pure trivial
  | some lists =>
    refine silent_bind (silent_referred drafts registry within') fun found? found => ?_
    cases found? with
    | none => exact silent_pure trivial
    | some found' =>
      obtain ⟨t, args⟩ := found'
      obtain ⟨within, within'⟩ := found t args rfl
      have applied : Silent allowed Any
          (do return .list (← ev.applyRows scope t args 0
            (Evaluator.rows (Evaluator.walked t.formals lists))) : Run Value) :=
        silent_bind (silent_applyRows drafts within within' 0 _) fun vs _ => silent_pure trivial
      dsimp only
      split
      · exact silent_bind (silent_report _) fun _ _ => applied
      · exact applied

/-! ## Expressions -/

theorem silent_evalItems {items : List Expr} (within : Within allowed (Expr.allIndents items)) :
    Silent allowed Any (ev.evalItems scope items) := by
  induction items with
  | nil => exact silent_pure trivial
  | cons e rest ih =>
    rw [Expr.allIndents, within_append] at within
    refine silent_bind (drafts.eval scope within.1) fun v _ => ?_
    exact silent_bind (ih within.2) fun vs _ => silent_pure trivial

theorem silent_evalProperty {target : Expr} {name : PropertyName}
    (within : Within allowed target.indents) (within' : Within allowed name.indents) :
    Silent allowed Any (ev.evalStep setting scope (.property target name)) := by
  refine silent_bind (drafts.eval scope within) fun v _ => ?_
  cases name with
  | fixed name => exact silent_resolveProperty v name
  | computed e =>
    exact silent_bind (silent_evalText drafts within') fun name _ => silent_resolveProperty v name

include registry in
theorem silent_evalStep {e : Expr} (within : Within allowed e.indents) :
    Silent allowed Any (ev.evalStep setting scope e) := by
  cases e with
  | «attribute» name => exact silent_resolveAttribute name
  | number n => exact silent_pure trivial
  | text s => exact silent_pure trivial
  | concat left right =>
    rw [Expr.indents, within_append] at within
    refine silent_bind (drafts.eval scope within.1) fun v _ => ?_
    exact silent_bind (drafts.eval scope within.2) fun w _ => silent_concat drafts v w
  | property target name =>
    rw [Expr.indents, within_append] at within
    exact silent_evalProperty drafts within.1 within.2
  | call t args =>
    rw [Expr.indents, within_append] at within
    exact silent_call drafts registry within.1 within.2
  | apply source templates =>
    rw [Expr.indents, within_append] at within
    exact silent_applyRotating drafts registry within.1 within.2
  | applyAligned sources ref =>
    rw [Expr.indents, within_append] at within
    exact silent_applyAligned drafts registry within.1 within.2
  | rendered inner =>
    refine silent_bind (drafts.eval scope within) fun v _ => ?_
    split
    · exact silent_pure trivial
    · exact silent_bind (silent_text drafts v) fun s _ => silent_pure trivial
  | not inner => exact silent_bind (drafts.eval scope within) fun v _ => silent_pure trivial
  | builtin f inner => exact silent_bind (drafts.eval scope within) fun v _ => silent_pure trivial
  | list items =>
    exact silent_bind (silent_evalItems drafts within) fun vs _ => silent_pure trivial

/-! ## Writing -/

theorem drafted_writeSeparator {separator? : Option Expr}
    (within : Within allowed (Expr.optionalIndents separator?)) (pending : Bool) :
    Drafted allowed (ev.writeSeparator setting scope separator? pending) := by
  cases separator? with
  | none => exact drafted_nothing
  | some e =>
    cases pending with
    | false => exact drafted_nothing
    | true => exact drafted_bind (silent_evalText drafts within) fun s _ => drafted_emit s

/-- What is written for an element and after it follows the separator. -/
theorem drafted_writeElements {o : WriteOptions}
    (within : Within allowed (Expr.optionalIndents o.separator?)) (pending : Bool)
    (items : List Value) :
    Drafted allowed (ev.writeElements setting scope o pending items) := by
  induction items generalizing pending with
  | nil => exact drafted_nothing
  | cons item rest ih =>
    rw [Evaluator.writeElements_cons]
    split
    · exact ih pending
    · have element := drafted_append
        (f := fun blank a => ev.writeElements setting scope o
          (!(blank && Evaluator.suppressesSeparator a item)) rest)
        (drafts.write scope item within) fun _ _ _ => ih _
      have separator : Drafted allowed (ev.writeSeparator setting scope o.separator? pending) :=
        drafted_writeSeparator drafts within pending
      have both := drafted_add separator element
      simpa only [bind_assoc, pure_bind, Nat.add_assoc] using both

theorem drafted_writeTemplate (h : Handle) :
    Drafted allowed (ev.writeTemplate setting scope h) := by
  refine drafted_bind (silent_changeArena fun a opens => opens.setEnclosing _ _) fun _ _ => ?_
  refine drafted_withArena fun a opens => ?_
  split
  · exact drafted_stop (by simp)
  · exact drafts.render h (Template.indents_eq _ ▸ opens h)

theorem drafted_writeStep (v : Value) {o : WriteOptions}
    (within : Within allowed (Expr.optionalIndents o.separator?)) :
    Drafted allowed (ev.writeStep setting scope v o) := by
  cases v with
  | null =>
    dsimp only [Evaluator.writeStep]
    cases o.null? with
    | some s => exact drafted_emit s
    | none => exact drafted_nothing
  | template h => exact drafted_writeTemplate drafts h
  | list items => exact drafted_writeElements drafts within false items
  | map entries => exact drafted_writeElements drafts within false _
  | _ => exact drafted_emit _

/-! ## Chunks -/

theorem silent_evalOption {e? : Option Expr}
    (within : Within allowed (Expr.optionalIndents e?)) :
    Silent allowed Any (ev.evalOption setting scope e?) := by
  cases e? with
  | none => exact silent_pure trivial
  | some e => exact silent_bind (silent_evalText drafts within) fun s _ => silent_pure trivial

theorem silent_writeOptions {o : ExprOptions} (within : Within allowed o.indents) :
    Silent allowed (fun r => r.separator? = o.separator) (ev.writeOptions setting scope o) := by
  obtain ⟨separator, null, format⟩ := o
  rw [ExprOptions.indents, within_append, within_append] at within
  refine silent_bind (silent_evalOption drafts within.1.2) fun null? _ => ?_
  exact silent_bind (silent_evalOption drafts within.2) fun format? _ => silent_pure rfl

theorem drafted_renderChunk {chunk : Chunk} (within : Within allowed chunk.indents) :
    Drafted allowed (ev.renderChunk setting scope chunk) := by
  cases chunk with
  | literal s => exact drafted_emit s
  | newline s => exact drafted_emit _
  | expression e options indent? =>
    rw [Chunk.indents, within_append, within_append] at within
    refine drafted_bind (drafts.eval scope within.1.2) fun v _ => ?_
    refine drafted_bind (silent_writeOptions drafts within.2) fun o same => ?_
    refine drafted_indented within.1.1 (drafts.write scope v ?_)
    obtain ⟨separator, null, format⟩ := options
    rw [ExprOptions.indents, within_append, within_append] at within
    rw [same]
    exact within.2.1.1
  | conditional condition holds otherwise =>
    rw [Chunk.indents, within_append, within_append] at within
    refine drafted_bind (drafts.eval scope within.1.1) fun v _ => ?_
    split
    · exact drafts.render scope (Template.indents_eq holds ▸ within.1.2)
    · cases otherwise with
      | none => exact drafted_nothing
      | some t => exact drafts.render scope (Template.indents_eq t ▸ within.2)

theorem drafted_renderStep {chunks : List Chunk}
    (within : Within allowed (Chunk.allIndents chunks)) :
    Drafted allowed (ev.renderStep setting scope chunks) := by
  induction chunks with
  | nil => exact drafted_nothing
  | cons chunk rest ih =>
    rw [Chunk.allIndents, within_append] at within
    exact drafted_add (drafted_renderChunk drafts within.1) (ih within.2)

end Evaluation

/-! ## Whole renders -/

theorem drafts_step (registry : setting.registry.Opens allowed) (drafts : ev.Drafts allowed) :
    (Evaluator.step setting ev).Drafts allowed where
  eval _ _ within := silent_evalStep drafts registry within
  write _ v _ within := drafted_writeStep drafts v within
  render _ _ within := drafted_renderStep drafts within

theorem drafts_exhausted : Evaluator.exhausted.Drafts allowed where
  eval _ _ _ := silent_stop (by simp)
  write _ _ _ _ := drafted_stop (by simp)
  render _ _ _ := drafted_stop (by simp)

theorem drafts_ofDepth (registry : setting.registry.Opens allowed) (depth : Nat) :
    (Evaluator.ofDepth setting depth).Drafts allowed := by
  induction depth with
  | zero => exact drafts_exhausted
  | succ depth ih => exact drafts_step registry ih

end Drafting
end Stencil
