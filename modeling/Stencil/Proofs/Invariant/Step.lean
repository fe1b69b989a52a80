import Stencil.Proofs.Invariant.Basic
import Stencil.Proofs.Recast
/-!
# Evaluators and invariants

One step of evaluating, writing and rendering keeps an invariant if the steps below it do, and so
does an evaluator of any depth.
-/
namespace Stencil
namespace Invariant

/-- An evaluator that keeps an invariant at every scope of the arena. Where there are no chunks it
does so at any other scope too. -/
structure Upheld (I : Invariant) (ev : Evaluator) : Prop where
  eval (c : Handle) (e : Expr) : I.Keeps c Any (ev.eval c e)
  write (c : Handle) (v : Value) (o : WriteOptions) : I.Keeps c Any (ev.write c v o)
  render (c : Handle) (chunks : List Chunk) : I.Keeps c Any (ev.render c chunks)
  blank (c : Handle) {s : RenderState} :
    I.Holds s.arena s.diagnostics → I.Ends s.arena Any (ev.render c [] s)

variable {I : Invariant} {setting : Setting} {ev : Evaluator} {c h : Handle}
  (laws : I.Lawful setting) (upheld : I.Upheld ev)

/-! ## Texts and names -/

include upheld in
theorem keeps_text (v : Value) : I.Keeps c Any (ev.text setting c v) := by
  cases v with
  | text s => exact keeps_pure trivial
  | _ => exact keeps_captured _ (upheld.write c _ .plain)

include upheld in
theorem keeps_evalText (e : Expr) : I.Keeps c Any (ev.evalText setting c e) :=
  keeps_bind (upheld.eval c e) fun v _ => keeps_text upheld v

include upheld in
theorem keeps_concat (v w : Value) : I.Keeps c Any (ev.concat setting c v w) := by
  rw [Lockstep.concat_eq]
  split
  · exact keeps_pure trivial
  · split
    · exact keeps_pure trivial
    · refine keeps_bind (keeps_text upheld v) fun s _ => ?_
      exact keeps_bind (keeps_text upheld w) fun t _ => keeps_pure trivial

include laws in
theorem keeps_resolveAttribute (name : String) :
    I.Keeps c Any (Run.resolveAttribute c name) := by
  refine keeps_withArena fun a => ?_
  cases a.resolve c name with
  | found v => exact keeps_pure trivial
  | missing declared owner =>
    cases declared with
    | true => exact keeps_pure trivial
    | false => exact keeps_bind (keeps_report laws .missingAttribute) fun _ _ => keeps_pure trivial

include laws in
theorem keeps_resolveProperty (v : Value) (name : String) :
    I.Keeps c Any (Run.resolveProperty v name) := by
  unfold Run.resolveProperty
  split
  · exact keeps_pure trivial
  · refine keeps_withArena fun a => ?_
    cases a.property v name with
    | some found => exact keeps_pure trivial
    | none => exact keeps_bind (keeps_report laws .unresolvedProperty) fun _ _ => keeps_pure trivial

include upheld in
theorem keeps_target (t : Target) : I.Keeps c Any (ev.target setting c t) := by
  cases t with
  | name name => exact keeps_withArena fun _ => keeps_pure trivial
  | super name => exact keeps_withArena fun _ => keeps_pure trivial
  | computed e => exact keeps_bind (keeps_evalText upheld e) fun name _ => keeps_pure trivial

include laws upheld

theorem keeps_template? (t : Target) : I.Keeps c Any (ev.template? setting c t) := by
  refine keeps_bind (keeps_target upheld t) ?_
  rintro ⟨name, found?⟩ -
  cases found? with
  | some t => exact keeps_pure trivial
  | none => exact keeps_bind (keeps_report laws .templateNotFound) fun _ _ => keeps_pure trivial

/-! ## Arguments -/

omit upheld in
theorem keeps_bindUnlessNull (made : I.Made h) (name : String) (v : Value) :
    I.Keeps c Any (Evaluator.bindUnlessNull h name v) := by
  unfold Evaluator.bindUnlessNull
  split
  · exact keeps_pure trivial
  · rename_i notNull
    exact keeps_bound laws made fun _ => .bind .refl (Bool.eq_false_of_not_eq_true notNull)

theorem keeps_bindNamed (made : I.Made h) (t : Template) (bindings : List (String × Expr)) :
    I.Keeps c Any (ev.bindNamed h c t bindings) := by
  induction bindings with
  | nil => exact keeps_pure trivial
  | cons binding rest ih =>
    obtain ⟨name, e⟩ := binding
    unfold Evaluator.bindNamed
    dsimp only
    split
    · exact keeps_bind (keeps_report laws .unknownParameter) fun _ _ => ih
    · refine keeps_bind (upheld.eval c e) fun v _ => ?_
      exact keeps_bind (keeps_bindUnlessNull laws made name v) fun _ _ => ih

theorem keeps_bindArguments (made : I.Made h) (args : Arguments) :
    I.Keeps c Any (ev.bindArguments c h args) := by
  refine keeps_withArena fun a => ?_
  cases args with
  | none => exact keeps_pure trivial
  | positional e =>
    dsimp only
    split
    · refine keeps_openArguments laws made fun scope => ?_
      exact keeps_bind (upheld.eval scope e) fun v _ => keeps_bindUnlessNull laws made _ v
    · exact keeps_report laws .arityMismatch
  | named bindings =>
    exact keeps_openArguments laws made fun scope => keeps_bindNamed laws upheld made _ bindings

/-! ## Calls and applications -/

theorem keeps_call (t : Target) (args : Arguments) : I.Keeps c Any (ev.call setting c t args) := by
  refine keeps_bind (keeps_template? laws upheld t) fun found? _ => ?_
  cases found? with
  | none => exact keeps_pure trivial
  | some t =>
    refine keeps_bind (keeps_embed laws t) fun callee made => ?_
    exact keeps_bind (keeps_bindArguments laws upheld made args) fun _ _ => keeps_pure trivial

theorem keeps_referred (ref : TemplateRef) : I.Keeps c Any (ev.referred setting c ref) := by
  cases ref with
  | named t args =>
    exact keeps_bind (keeps_template? laws upheld t) fun found? _ => keeps_pure trivial
  | «inline» t => exact keeps_pure trivial

omit upheld in
theorem keeps_bindElement (made : I.Made h) (t : Template) (index : Nat) {v : Value}
    (notNull : v.isNull = false) : I.Keeps c Any (Evaluator.bindElement h t index v) := by
  refine keeps_bound laws made fun a => ?_
  dsimp only
  cases Evaluator.soleFormal? t with
  | none => exact .bind (.bind (.bind .refl notNull) notNull) rfl
  | some formal => exact .bind (.bind (.bind (.bind .refl notNull) notNull) notNull) rfl

theorem keeps_applyTo (t : Template) (args : Arguments) (index : Nat) {v : Value}
    (notNull : v.isNull = false) : I.Keeps c Any (ev.applyTo c t args index v) := by
  refine keeps_bind (keeps_embed laws t) fun callee made => ?_
  refine keeps_bind (keeps_bindElement laws made t index notNull) fun _ _ => ?_
  exact keeps_bind (keeps_bindArguments laws upheld made args) fun _ _ => keeps_pure trivial

/-- The elements that templates are applied to are not null. -/
theorem keeps_applyInTurn (templates : List TemplateRef) (index : Nat) {items : List Value}
    (notNull : ∀ v ∈ items, v.isNull = false) :
    I.Keeps c Any (ev.applyInTurn setting c templates index items) := by
  induction items generalizing index with
  | nil => exact keeps_pure trivial
  | cons item rest ih =>
    have ih (index : Nat) := ih index fun v member => notNull v (List.mem_cons_of_mem item member)
    unfold Evaluator.applyInTurn
    cases templates[index % templates.length]? with
    | none => exact ih (index + 1)
    | some ref =>
      refine keeps_bind (keeps_referred laws upheld ref) fun found? _ => ?_
      cases found? with
      | none => exact ih (index + 1)
      | some found =>
        obtain ⟨t, args⟩ := found
        refine keeps_bind (keeps_applyTo laws upheld t args (index + 1)
          (notNull item List.mem_cons_self)) fun v _ => ?_
        exact keeps_bind (ih (index + 1)) fun vs _ => keeps_pure trivial

theorem keeps_applyRotating (source : Expr) (templates : List TemplateRef) :
    I.Keeps c Any (ev.applyRotating setting c source templates) := by
  refine keeps_bind (upheld.eval c source) fun v _ => ?_
  dsimp only
  split
  · exact keeps_pure trivial
  · have notNull (w : Value) (member : w ∈ v.elements.filter fun w => !w.isNull) :
        w.isNull = false := by
      simpa using (List.mem_filter.1 member).2
    exact keeps_bind (keeps_applyInTurn laws upheld templates 0 notNull) fun vs _ =>
      keeps_pure trivial

omit laws in
theorem keeps_evalSources (sources : List Expr) : I.Keeps c Any (ev.evalSources c sources) := by
  induction sources with
  | nil => exact keeps_pure trivial
  | cons e rest ih =>
    refine keeps_bind (upheld.eval c e) fun v _ => ?_
    split
    · exact keeps_pure trivial
    · exact keeps_bind ih fun lists? _ => keeps_pure trivial

omit upheld in
theorem keeps_bindRow (made : I.Made h) (formals : List String) (row : List (Option Value))
    (index : Nat) : I.Keeps c Any (Evaluator.bindRow h formals row index) := by
  refine keeps_bound laws made fun a => ?_
  refine .bind (List.foldlRecOn (motive := fun b => a.Bound h b) _ _ .refl ?_) rfl
  rintro b bound ⟨formal, element?⟩ -
  cases element? with
  | none => exact bound
  | some v =>
    dsimp only
    split
    · exact bound
    · rename_i notNull
      exact .bind bound (Bool.eq_false_of_not_eq_true notNull)

theorem keeps_applyRows (t : Template) (args : Arguments) (index : Nat)
    (rows : List (List (Option Value))) : I.Keeps c Any (ev.applyRows c t args index rows) := by
  induction rows generalizing index with
  | nil => exact keeps_pure trivial
  | cons row rest ih =>
    refine keeps_bind (keeps_embed laws t) fun callee made => ?_
    refine keeps_bind (keeps_bindRow laws made t.formals row (index + 1)) fun _ _ => ?_
    refine keeps_bind (keeps_bindArguments laws upheld made args) fun _ _ => ?_
    exact keeps_bind (ih (index + 1)) fun vs _ => keeps_pure trivial

theorem keeps_applyAligned (sources : List Expr) (ref : TemplateRef) :
    I.Keeps c Any (ev.applyAligned setting c sources ref) := by
  refine keeps_bind (keeps_evalSources upheld sources) fun lists? _ => ?_
  cases lists? with
  | none => exact keeps_pure trivial
  | some lists =>
    refine keeps_bind (keeps_referred laws upheld ref) fun found? _ => ?_
    cases found? with
    | none => exact keeps_pure trivial
    | some found =>
      obtain ⟨t, args⟩ := found
      have applied : I.Keeps c Any
          (do return .list (← ev.applyRows c t args 0
            (Evaluator.rows (Evaluator.walked t.formals lists))) : Run Value) :=
        keeps_bind (keeps_applyRows laws upheld t args 0 _) fun vs _ => keeps_pure trivial
      dsimp only
      split
      · exact keeps_bind (keeps_report laws .arityMismatch) fun _ _ => applied
      · exact applied

/-! ## Expressions -/

omit laws in
theorem keeps_evalItems (items : List Expr) : I.Keeps c Any (ev.evalItems c items) := by
  induction items with
  | nil => exact keeps_pure trivial
  | cons e rest ih =>
    refine keeps_bind (upheld.eval c e) fun v _ => ?_
    exact keeps_bind ih fun vs _ => keeps_pure trivial

theorem keeps_evalProperty (target : Expr) (name : PropertyName) :
    I.Keeps c Any (ev.evalStep setting c (.property target name)) := by
  refine keeps_bind (upheld.eval c target) fun v _ => ?_
  cases name with
  | fixed name => exact keeps_resolveProperty laws v name
  | computed e =>
    exact keeps_bind (keeps_evalText upheld e) fun name _ => keeps_resolveProperty laws v name

theorem keeps_evalStep (e : Expr) : I.Keeps c Any (ev.evalStep setting c e) := by
  cases e with
  | «attribute» name => exact keeps_resolveAttribute laws name
  | number n => exact keeps_pure trivial
  | text s => exact keeps_pure trivial
  | concat left right =>
    refine keeps_bind (upheld.eval c left) fun v _ => ?_
    exact keeps_bind (upheld.eval c right) fun w _ => keeps_concat upheld v w
  | property target name => exact keeps_evalProperty laws upheld target name
  | call t args => exact keeps_call laws upheld t args
  | apply source templates => exact keeps_applyRotating laws upheld source templates
  | applyAligned sources ref => exact keeps_applyAligned laws upheld sources ref
  | rendered inner =>
    refine keeps_bind (upheld.eval c inner) fun v _ => ?_
    split
    · exact keeps_pure trivial
    · exact keeps_bind (keeps_text upheld v) fun s _ => keeps_pure trivial
  | not inner => exact keeps_bind (upheld.eval c inner) fun v _ => keeps_pure trivial
  | builtin f inner => exact keeps_bind (upheld.eval c inner) fun v _ => keeps_pure trivial
  | list items => exact keeps_bind (keeps_evalItems upheld items) fun vs _ => keeps_pure trivial

/-! ## Writing -/

theorem keeps_writeSeparator (separator? : Option Expr) (pending : Bool) :
    I.Keeps c Any (ev.writeSeparator setting c separator? pending) := by
  cases separator? with
  | none => exact keeps_pure trivial
  | some separator =>
    cases pending with
    | false => exact keeps_pure trivial
    | true => exact keeps_bind (keeps_evalText upheld separator) fun s _ => keeps_emit laws s

theorem keeps_writeElements (o : WriteOptions) (pending : Bool) (items : List Value) :
    I.Keeps c Any (ev.writeElements setting c o pending items) := by
  induction items generalizing pending with
  | nil => exact keeps_pure trivial
  | cons item rest ih =>
    rw [Evaluator.writeElements_cons]
    split
    · exact ih pending
    · refine keeps_bind (keeps_writeSeparator laws upheld o.separator? pending) fun n _ => ?_
      refine keeps_bind (upheld.write c item o) fun m _ => keeps_withArena fun a => ?_
      exact keeps_bind (ih _) fun k _ => keeps_pure trivial

/-- Every value keeps the invariant when it is written, if instances do. -/
theorem keeps_write {instances : Handle → Handle → Run Nat}
    (keeps : ∀ h, I.Keeps c Any (instances c h)) (v : Value) (o : WriteOptions) :
    I.Keeps c Any ((Evaluator.withInstances setting ev instances).write c v o) := by
  cases v with
  | null =>
    dsimp only [Evaluator.withInstances, Evaluator.step, Evaluator.writeStep]
    cases o.null? with
    | some s => exact keeps_emit laws s
    | none => exact keeps_pure trivial
  | template h => exact keeps h
  | list items => exact keeps_writeElements laws upheld o false items
  | map entries => exact keeps_writeElements laws upheld o false _
  | _ => exact keeps_emit laws _

/-- An instance of the arena is rendered at its own scope, and there is nothing in any other. -/
theorem keeps_writeTemplate (opened : I.Open h) :
    I.Keeps c Any (ev.writeTemplate setting c h) := by
  intro s holds inside
  have enclosed := laws.enclose holds inside opened
  have size : s.arena.size = (s.arena.setEnclosing h (some c)).size :=
    (Arena.size_setEnclosing s.arena h (some c)).symm
  rw [show s = ⟨s.arena, s.diagnostics, s.writer⟩ from rfl, Evaluator.writeTemplate_run]
  split
  · rename_i refused
    exact .error enclosed (laws.recursion _ (Bool.and_eq_true_iff.1 refused).1)
  · refine Ends.after (Nat.le_of_eq size) ?_
    by_cases within : (s.arena.setEnclosing h (some c)).contains h
    · exact upheld.render h _ ⟨_, s.diagnostics, s.writer⟩ enclosed within
    · rw [Arena.get_eq_default within]
      exact upheld.blank h (s := ⟨_, s.diagnostics, s.writer⟩) enclosed

/-! ## Chunks -/

omit laws in
theorem keeps_evalOption (e? : Option Expr) : I.Keeps c Any (ev.evalOption setting c e?) := by
  cases e? with
  | none => exact keeps_pure trivial
  | some e => exact keeps_bind (keeps_evalText upheld e) fun s _ => keeps_pure trivial

omit laws in
theorem keeps_writeOptions (o : ExprOptions) : I.Keeps c Any (ev.writeOptions setting c o) := by
  refine keeps_bind (keeps_evalOption upheld o.null) fun null? _ => ?_
  exact keeps_bind (keeps_evalOption upheld o.format) fun format? _ => keeps_pure trivial

theorem keeps_renderChunk (chunk : Chunk) : I.Keeps c Any (ev.renderChunk setting c chunk) := by
  cases chunk with
  | literal s => exact keeps_emit laws s
  | newline s => exact keeps_emit laws _
  | expression e options indent =>
    refine keeps_bind (upheld.eval c e) fun v _ => ?_
    refine keeps_bind (keeps_writeOptions upheld options) fun o _ => ?_
    exact keeps_indented indent (upheld.write c v o)
  | conditional condition holds otherwise =>
    refine keeps_bind (upheld.eval c condition) fun v _ => ?_
    split
    · exact upheld.render c _
    · cases otherwise with
      | none => exact keeps_pure trivial
      | some t => exact upheld.render c _

theorem keeps_renderStep (chunks : List Chunk) : I.Keeps c Any (ev.renderStep setting c chunks) := by
  induction chunks with
  | nil => exact keeps_pure trivial
  | cons chunk rest ih =>
    refine keeps_bind (keeps_renderChunk laws upheld chunk) fun n _ => ?_
    exact keeps_bind ih fun m _ => keeps_pure trivial

/-! ## Whole renders -/

theorem upheld_withInstances {instances : Handle → Handle → Run Nat}
    (keeps : ∀ c h, I.Keeps c Any (instances c h)) :
    I.Upheld (Evaluator.withInstances setting ev instances) where
  eval _ e := keeps_evalStep laws upheld e
  write c v o := keeps_write laws upheld (keeps c) v o
  render _ chunks := keeps_renderStep laws upheld chunks
  blank _ _ holds := .ok holds (Nat.le_refl _) trivial

omit upheld in
theorem upheld_exhausted : I.Upheld Evaluator.exhausted where
  eval _ _ := keeps_stop laws.tooDeep
  write _ _ _ := keeps_stop laws.tooDeep
  render _ _ := keeps_stop laws.tooDeep
  blank _ _ holds := .error holds laws.tooDeep

omit upheld in
theorem upheld_ofDepth (opened : ∀ h, I.Open h) (depth : Nat) :
    I.Upheld (Evaluator.ofDepth setting depth) := by
  induction depth with
  | zero => exact upheld_exhausted laws
  | succ depth ih =>
    rw [Evaluator.ofDepth_succ, Evaluator.step_eq_withInstances]
    exact upheld_withInstances laws ih fun c h => keeps_writeTemplate laws ih (opened h)

omit laws in
theorem Upheld.template (a : Arena) (root : Handle) {ds : List TemplateError} (w : Writer)
    (holds : I.Holds a ds) :
    I.Ends a Any (ev.render root (a.get root).template.chunks ⟨a, ds, w⟩) := by
  by_cases within : a.contains root
  · exact upheld.render root _ ⟨a, ds, w⟩ holds within
  · rw [Arena.get_eq_default within]
    exact upheld.blank root (s := ⟨a, ds, w⟩) holds

omit laws in
/-- However a render ends, the invariant holds of the arena that it leaves, and of what it has
reported if it comes to an end. -/
theorem Upheld.outcome (a : Arena) (root : Handle) (w : Writer) (holds : I.Holds a []) :
    (∃ ds, I.Holds (ev.outcome a root w).arena ds) ∧
    (∀ r, (ev.outcome a root w).result = .ok r →
      I.Holds (ev.outcome a root w).arena r.diagnostics) ∧
    ∀ cause, (ev.outcome a root w).result = .error cause → I.Stops cause := by
  have ends := upheld.template a root w holds
  unfold Evaluator.outcome
  generalize ev.render root _ _ = ran at ends
  cases ends with
  | ok holds => exact ⟨⟨_, holds⟩, fun _ ended => Except.ok.inj ended ▸ holds, nofun⟩
  | error holds stops => exact ⟨⟨_, holds⟩, nofun, fun _ stopped => Except.error.inj stopped ▸ stops⟩

omit upheld in
/-- The same of a render by an evaluator of any depth. -/
theorem Lawful.render (opened : ∀ h, I.Open h) (depth : Nat) (a : Arena) (root : Handle)
    (w : Writer) (holds : I.Holds a []) :
    (∃ ds, I.Holds (setting.renderWithin depth a root w).arena ds) ∧
    (∀ r, (setting.renderWithin depth a root w).result = .ok r →
      I.Holds (setting.renderWithin depth a root w).arena r.diagnostics) ∧
    ∀ cause, (setting.renderWithin depth a root w).result = .error cause → I.Stops cause :=
  (upheld_ofDepth laws opened depth).outcome a root w holds

end Invariant
end Stencil
