import Stencil.Proofs.Lockstep.Call
/-!
# Evaluators in lockstep

One step of evaluating, writing and rendering agrees in two renders if the steps below it do, and so
whole renders agree that go equally deep.
-/
namespace Stencil

namespace Evaluator

/-- Writes the separator before an element, if one comes there. -/
def writeSeparator (setting : Setting) (ev : Evaluator) (scope : Handle)
    (separator? : Option Expr) (pending : Bool) : Run Nat :=
  match separator? with
  | some separator =>
    if pending then do
      let text ← ev.evalText setting scope separator
      Run.emit text
    else pure 0
  | none => pure 0

theorem writeElements_cons (setting : Setting) (ev : Evaluator) (scope : Handle)
    (o : WriteOptions) (pending : Bool) (item : Value) (rest : List Value) :
    ev.writeElements setting scope o pending (item :: rest) =
      if item.isNull && o.null?.isNone then ev.writeElements setting scope o pending rest
      else do
        let separated ← ev.writeSeparator setting scope o.separator? pending
        let written ← ev.write scope item o
        let a ← Run.arena
        let others ← ev.writeElements setting scope o
          (!(written = 0 && suppressesSeparator a item)) rest
        return separated + written + others := by
  rw [writeElements]
  unfold writeSeparator
  cases o.separator? with
  | none => rfl
  | some separator =>
    cases pending with
    | false => rfl
    | true => simp only [if_true, bind_assoc]

/-- Writing an instance links it to the caller first, whether it is then refused or entered. -/
theorem writeTemplate_run (setting : Setting) (ev : Evaluator) (caller h : Handle) (a : Arena)
    (ds : List TemplateError) (w : Writer) :
    ev.writeTemplate setting caller h ⟨a, ds, w⟩ =
      if setting.strict && (a.setEnclosing h (some caller)).isSelfEnclosed h then
        .error (.fatal (.infiniteRecursion ((a.setEnclosing h (some caller)).trace h)))
          ⟨a.setEnclosing h (some caller), ds, w⟩
      else
        ev.render h ((a.setEnclosing h (some caller)).get h).template.chunks
          ⟨a.setEnclosing h (some caller), ds, w⟩ := by
  change (if setting.strict && (a.setEnclosing h (some caller)).isSelfEnclosed h then
      Run.stop (.fatal (.infiniteRecursion ((a.setEnclosing h (some caller)).trace h)))
    else ev.render h ((a.setEnclosing h (some caller)).get h).template.chunks)
      ⟨a.setEnclosing h (some caller), ds, w⟩ = _
  split <;> rfl

/-- One step over `ev`, apart from instances, which are written by `instances`. -/
def withInstances (setting : Setting) (ev : Evaluator) (instances : Handle → Handle → Run Nat) :
    Evaluator :=
  { step setting ev with
    write := fun scope v o =>
      match v with
      | .template h => instances scope h
      | v => (step setting ev).write scope v o }

theorem step_eq_withInstances (setting : Setting) (ev : Evaluator) :
    step setting ev = withInstances setting ev (ev.writeTemplate setting) := by
  have write : (step setting ev).write =
      (withInstances setting ev (ev.writeTemplate setting)).write := by
    funext scope v o
    cases v <;> rfl
  exact congrArg (fun write => Evaluator.mk (step setting ev).eval write (step setting ev).render)
    write

end Evaluator

namespace Lockstep

variable {L : Lockstep} {ev ev' : Evaluator} {c c' h h' : Handle} {a b : Arena} {v v' : Value}
  (setting : Setting) [suits : L.Suits setting] (laws : L.Lawful)

section Below

variable (rel : L.Related ev ev') (coupled : L.Coupled c c' a b)
include laws rel coupled

/-! ## Expressions -/

theorem agrees_evalItems (items : List Expr) :
    L.Agrees c c' a b L.SameItems (ev.evalItems c items) (ev'.evalItems c' items) := by
  induction items generalizing a b with
  | nil => exact agrees_pure laws coupled .nil
  | cons e rest ih =>
    refine agrees_bind laws coupled (rel.eval e coupled) ?_
    intro a₁ b₁ v v' coupled _ same
    refine agrees_bind laws coupled (ih coupled) ?_
    intro a₂ b₂ vs vs' coupled evolves sames
    exact agrees_pure laws coupled (List.rel_append (same.evolve laws evolves).spread sames)

theorem agrees_evalProperty (target : Expr) (name : PropertyName) :
    L.Agrees c c' a b L.Same (ev.evalStep setting c (.property target name))
      (ev'.evalStep setting c' (.property target name)) := by
  refine agrees_bind laws coupled (rel.eval target coupled) ?_
  intro a₁ b₁ v v' coupled _ same
  cases name with
  | fixed name => exact fun ds ds' w fits =>
      agrees_resolveProperty laws coupled same name ds ds' w fits
  | computed e =>
    refine agrees_bind_equal laws coupled (agrees_evalText setting laws rel coupled e) ?_
    intro a₂ b₂ name coupled evolves
    exact agrees_resolveProperty laws coupled (same.evolve laws evolves) name

theorem agrees_evalRendered (inner : Expr) :
    L.Agrees c c' a b L.Same (ev.evalStep setting c (.rendered inner))
      (ev'.evalStep setting c' (.rendered inner)) := by
  refine agrees_bind laws coupled (rel.eval inner coupled) ?_
  intro a₁ b₁ v v' coupled _ same
  rw [← same.isNull_eq]
  split
  · exact agrees_pure laws coupled .null
  · refine agrees_bind_equal laws coupled (agrees_text setting laws rel coupled same) ?_
    intro a₂ b₂ s coupled _
    exact agrees_pure laws coupled (.text s)

theorem agrees_evalStep (e : Expr) :
    L.Agrees c c' a b L.Same (ev.evalStep setting c e) (ev'.evalStep setting c' e) := by
  cases e with
  | «attribute» name => exact agrees_resolveAttribute laws coupled name
  | number n => exact agrees_pure laws coupled (.int n)
  | text s => exact agrees_pure laws coupled (.text s)
  | concat left right =>
    refine agrees_bind laws coupled (rel.eval left coupled) ?_
    intro a₁ b₁ v v' coupled _ same
    refine agrees_bind laws coupled (rel.eval right coupled) ?_
    intro a₂ b₂ w w' coupled evolves same'
    exact agrees_concat setting laws rel coupled (same.evolve laws evolves) same'
  | property target name => exact agrees_evalProperty setting laws rel coupled target name
  | call t args => exact agrees_call setting laws rel coupled t args
  | apply source templates => exact agrees_applyRotating setting laws rel coupled source templates
  | applyAligned sources ref => exact agrees_applyAligned setting laws rel coupled sources ref
  | rendered inner => exact agrees_evalRendered setting laws rel coupled inner
  | not inner =>
    refine agrees_bind laws coupled (rel.eval inner coupled) ?_
    intro a₁ b₁ v v' coupled _ same
    rw [same.truthy_eq]
    exact agrees_pure laws coupled (.bool _)
  | builtin f inner =>
    refine agrees_bind laws coupled (rel.eval inner coupled) ?_
    intro a₁ b₁ v v' coupled _ same
    exact agrees_pure laws coupled (same.apply f)
  | list items =>
    refine agrees_bind laws coupled (agrees_evalItems laws rel coupled items) ?_
    intro a₁ b₁ vs vs' coupled _ sames
    exact agrees_pure laws coupled (.of_forall₂ sames)

/-! ## Writing -/

omit rel in
theorem suppressesSeparator_eq (same : L.Same a b v v')
    (opened : ∀ h, v = .template h → L.Open h) :
    Evaluator.suppressesSeparator a v = Evaluator.suppressesSeparator b v' := by
  have twins {h h' : Handle} (twin : L.Twin a b h h') (opened : L.Open h) :
      Evaluator.suppressesSeparator a (.template h) =
        Evaluator.suppressesSeparator b (.template h') :=
    (laws.similar coupled twin).isPureConditional opened
  cases same with
  | template twin => exact twins twin (opened _ rfl)
  | list => rfl
  | @same v fixed =>
    cases v with
    | template h => exact twins (fixed h .template) (opened h rfl)
    | _ => rfl

theorem agrees_writeSeparator (separator? : Option Expr) (pending : Bool) :
    L.Agrees c c' a b Equal (ev.writeSeparator setting c separator? pending)
      (ev'.writeSeparator setting c' separator? pending) := by
  cases separator? with
  | none => exact agrees_pure laws coupled rfl
  | some separator =>
    cases pending with
    | false => exact agrees_pure laws coupled rfl
    | true =>
      refine agrees_bind_equal laws coupled (agrees_evalText setting laws rel coupled separator) ?_
      intro a₁ b₁ text coupled _
      exact agrees_emit laws coupled text

theorem agrees_writeElements (o : WriteOptions) (pending : Bool) {items items' : List Value}
    (sames : L.SameItems a b items items') :
    L.Agrees c c' a b Equal (ev.writeElements setting c o pending items)
      (ev'.writeElements setting c' o pending items') := by
  induction items generalizing items' a b pending with
  | nil =>
    cases sames
    exact agrees_pure laws coupled rfl
  | cons item rest ih =>
    obtain _ | ⟨first, others⟩ := sames
    rw [Evaluator.writeElements_cons, Evaluator.writeElements_cons, ← first.isNull_eq]
    split
    · exact ih coupled pending others
    · refine agrees_bind_equal laws coupled
        (agrees_writeSeparator setting laws rel coupled o.separator? pending) ?_
      intro a₁ b₁ separated coupled evolves
      have first := first.evolve laws evolves
      have others := SameItems.evolve laws evolves others
      refine agrees_bind laws coupled (rel.write o coupled first) ?_
      rintro a₂ b₂ written _ coupled evolves ⟨rfl, opened⟩
      have first := first.evolve laws evolves
      have others := SameItems.evolve laws evolves others
      refine agrees_withArena ?_
      rw [suppressesSeparator_eq laws coupled first opened]
      refine agrees_bind_equal laws coupled (ih coupled _ others) ?_
      intro a₃ b₃ count coupled _
      exact agrees_pure laws coupled rfl

/-- Every value is written alike if instances are. -/
theorem agrees_write {instances instances' : Handle → Handle → Run Nat} (o : WriteOptions)
    (same : L.Same a b v v')
    (agrees : ∀ {h h'}, L.Twin a b h h' →
      L.Agrees c c' a b (L.Wrote (.template h)) (instances c h) (instances' c' h')) :
    L.Agrees c c' a b (L.Wrote v) ((Evaluator.withInstances setting ev instances).write c v o)
      ((Evaluator.withInstances setting ev' instances').write c' v' o) := by
  cases same with
  | template twin => exact agrees twin
  | list lengths each =>
    exact (agrees_writeElements setting laws rel coupled o false
      (Value.Paired.forall₂_of_list lengths each)).wrote nofun
  | @same v fixed =>
    have elements := Value.Paired.elements (.same fixed)
    cases v with
    | null =>
      dsimp only [Evaluator.withInstances, Evaluator.step, Evaluator.writeStep]
      cases o.null? with
      | some s => exact (agrees_emit laws coupled s).wrote nofun
      | none => exact (agrees_pure laws coupled rfl : L.Agrees c c' a b Equal _ _).wrote nofun
    | template h => exact agrees (fixed h .template)
    | list items =>
      exact (agrees_writeElements setting laws rel coupled o false elements).wrote nofun
    | map entries =>
      exact (agrees_writeElements setting laws rel coupled o false elements).wrote nofun
    | _ => exact (agrees_emit laws coupled _).wrote nofun

/-! ## Chunks -/

theorem agrees_evalOption (e? : Option Expr) :
    L.Agrees c c' a b Equal (ev.evalOption setting c e?) (ev'.evalOption setting c' e?) := by
  cases e? with
  | none => exact agrees_pure laws coupled rfl
  | some e =>
    refine agrees_bind_equal laws coupled (agrees_evalText setting laws rel coupled e) ?_
    intro a₁ b₁ s coupled _
    exact agrees_pure laws coupled rfl

theorem agrees_writeOptions (o : ExprOptions) :
    L.Agrees c c' a b Equal (ev.writeOptions setting c o) (ev'.writeOptions setting c' o) := by
  refine agrees_bind_equal laws coupled (agrees_evalOption setting laws rel coupled o.null) ?_
  intro a₁ b₁ null? coupled _
  refine agrees_bind_equal laws coupled (agrees_evalOption setting laws rel coupled o.format) ?_
  intro a₂ b₂ format? coupled _
  exact agrees_pure laws coupled rfl

theorem agrees_renderChunk (chunk : Chunk) :
    L.Agrees c c' a b Equal (ev.renderChunk setting c chunk)
      (ev'.renderChunk setting c' chunk) := by
  cases chunk with
  | literal s => exact agrees_emit laws coupled s
  | newline s => exact agrees_emit laws coupled _
  | expression e options indent =>
    refine agrees_bind laws coupled (rel.eval e coupled) ?_
    intro a₁ b₁ v v' coupled _ same
    refine agrees_bind_equal laws coupled
      (agrees_writeOptions setting laws rel coupled options) ?_
    intro a₂ b₂ o coupled evolves
    refine agrees_indented indent ?_
    exact (rel.write o coupled (same.evolve laws evolves)).mono fun _ _ _ _ wrote => wrote.1
  | conditional condition holds otherwise =>
    refine agrees_bind laws coupled (rel.eval condition coupled) ?_
    intro a₁ b₁ v v' coupled _ same
    rw [← same.truthy_eq]
    split
    · exact rel.render _ coupled
    · cases otherwise with
      | none => exact agrees_pure laws coupled rfl
      | some t => exact rel.render _ coupled

theorem agrees_renderStep (chunks : List Chunk) :
    L.Agrees c c' a b Equal (ev.renderStep setting c chunks)
      (ev'.renderStep setting c' chunks) := by
  induction chunks generalizing a b with
  | nil => exact agrees_pure laws coupled rfl
  | cons chunk rest ih =>
    refine agrees_bind_equal laws coupled (agrees_renderChunk setting laws rel coupled chunk) ?_
    intro a₁ b₁ written coupled _
    refine agrees_bind_equal laws coupled (ih coupled) ?_
    intro a₂ b₂ others coupled _
    exact agrees_pure laws coupled rfl

end Below

/-! ## Whole renders -/

/-- What is asked of enclosing an instance where a value holds it. Unless it then encloses itself
under a strict setting, the renders go on inside it. -/
structure Encloses (L : Lockstep) (setting : Setting) (c c' h h' : Handle) (a b : Arena) :
    Prop where
  opened : L.Open h
  refused : setting.strict = true →
    (a.setEnclosing h (some c)).isSelfEnclosed h = (b.setEnclosing h' (some c')).isSelfEnclosed h'
  traces : setting.strict = true → (a.setEnclosing h (some c)).isSelfEnclosed h = true →
    (a.setEnclosing h (some c)).trace h = (b.setEnclosing h' (some c')).trace h' ∧
      L.Left (a.setEnclosing h (some c)) (b.setEnclosing h' (some c'))
  entered : (setting.strict = true → (a.setEnclosing h (some c)).isSelfEnclosed h = false) →
    L.Coupled h h' (a.setEnclosing h (some c)) (b.setEnclosing h' (some c')) ∧
      ((a.setEnclosing h (some c)).get h).template.chunks =
        ((b.setEnclosing h' (some c')).get h').template.chunks ∧
      ∀ a₂ b₂, L.Evolves h h' (a.setEnclosing h (some c)) (b.setEnclosing h' (some c')) a₂ b₂ →
        L.Evolves c c' a b a₂ b₂

/-- Every instance that a value may hold is enclosed so. -/
def Enclosing (L : Lockstep) (setting : Setting) : Prop :=
  ∀ {c c' h h' a b}, L.Coupled c c' a b → L.Twin a b h h' → L.Encloses setting c c' h h' a b

omit suits in
/-- An instance agrees whose chunks do once it is enclosed. -/
theorem agrees_writeTemplate (rel : L.Related ev ev')
    (encloses : L.Encloses setting c c' h h' a b) :
    L.Agrees c c' a b (L.Wrote (.template h)) (ev.writeTemplate setting c h)
      (ev'.writeTemplate setting c' h') := by
  refine Agrees.wrote ?_ fun _ same => Value.template.inj same ▸ encloses.opened
  intro ds ds' w fits
  rw [Evaluator.writeTemplate_run, Evaluator.writeTemplate_run]
  have inside (allowed : setting.strict = true →
      (a.setEnclosing h (some c)).isSelfEnclosed h = false) :
      L.Outcome c c' a b ds ds' Equal
        (ev.render h ((a.setEnclosing h (some c)).get h).template.chunks
          ⟨a.setEnclosing h (some c), ds, w⟩)
        (ev'.render h' ((b.setEnclosing h' (some c')).get h').template.chunks
          ⟨b.setEnclosing h' (some c'), ds', w⟩) := by
    obtain ⟨inner, chunks, wider⟩ := encloses.entered allowed
    rw [chunks]
    exact (rel.render _ inner ds ds' w fits).widen wider fun _ _ _ _ equal => equal
  cases strict : setting.strict with
  | false => exact inside (by simp [strict])
  | true =>
    rw [← encloses.refused strict]
    cases refused : (a.setEnclosing h (some c)).isSelfEnclosed h with
    | true =>
      obtain ⟨traces, left⟩ := encloses.traces strict refused
      rw [traces]
      exact .error (.refl ds ds') left
    | false => exact inside fun _ => refused

include laws

/-- Steps over evaluators that agree do so too, if they write instances alike. -/
theorem related_withInstances (rel : L.Related ev ev')
    {instances instances' : Handle → Handle → Run Nat}
    (agrees : ∀ {c c' h h' a b}, L.Coupled c c' a b → L.Twin a b h h' →
      L.Agrees c c' a b (L.Wrote (.template h)) (instances c h) (instances' c' h')) :
    L.Related (Evaluator.withInstances setting ev instances)
      (Evaluator.withInstances setting ev' instances') where
  eval e coupled := agrees_evalStep setting laws rel coupled e
  write o coupled same := agrees_write setting laws rel coupled o same (agrees coupled)
  render chunks coupled := agrees_renderStep setting laws rel coupled chunks

theorem related_step (enclosing : L.Enclosing setting) (rel : L.Related ev ev') :
    L.Related (Evaluator.step setting ev) (Evaluator.step setting ev') := by
  rw [Evaluator.step_eq_withInstances, Evaluator.step_eq_withInstances]
  exact related_withInstances setting laws rel fun coupled twin =>
    agrees_writeTemplate setting rel (enclosing coupled twin)

theorem related_exhausted : L.Related Evaluator.exhausted Evaluator.exhausted where
  eval _ coupled := agrees_stop laws coupled _
  write _ coupled _ := agrees_stop laws coupled _
  render _ coupled := agrees_stop laws coupled _

omit suits laws in
/-- A lax comparison ends where the first render does not begin. -/
theorem related_exhausted_lax (isLax : L.Lax) (ev' : Evaluator) :
    L.Related Evaluator.exhausted ev' where
  eval _ _ _ _ _ _ := .lax isLax
  write _ _ _ _ _ _ _ := .lax isLax
  render _ _ _ _ _ _ := .lax isLax

/-- Evaluators that go equally deep agree. -/
theorem related_ofDepth (enclosing : L.Enclosing setting) (depth : Nat) :
    L.Related (Evaluator.ofDepth setting depth) (Evaluator.ofDepth setting depth) := by
  induction depth with
  | zero => exact related_exhausted laws
  | succ depth ih => exact related_step setting laws enclosing ih

omit suits laws

/-- What two renders come to whose evaluators agree. -/
theorem render_outcome [exact_ : L.Exact] {depth : Nat} {root root' : Handle}
    (rel : L.Related (Evaluator.ofDepth setting depth) (Evaluator.ofDepth setting depth))
    (coupled : L.Coupled root root' a b)
    (template : (a.get root).template = (b.get root').template) (w : Writer) :
    (setting.renderWithin depth a root w).result = (setting.renderWithin depth b root' w).result ∧
    (setting.renderWithin depth a root w).writer = (setting.renderWithin depth b root' w).writer ∧
    (L.Evolves root root' a b (setting.renderWithin depth a root w).arena
        (setting.renderWithin depth b root' w).arena ∨
      (∀ r, (setting.renderWithin depth a root w).result ≠ .ok r) ∧
        L.Left (setting.renderWithin depth a root w).arena
          (setting.renderWithin depth b root' w).arena) := by
  unfold Setting.renderWithin
  rw [template]
  have outcome := rel.render (b.get root').template.chunks coupled [] [] w
    (exact_.fits w.strategy)
  generalize (Evaluator.ofDepth setting depth).render root _ ⟨a, [], w⟩ = r at outcome ⊢
  generalize (Evaluator.ofDepth setting depth).render root' _ ⟨b, [], w⟩ = r' at outcome ⊢
  cases outcome with
  | ok _ reports evolves equal =>
    obtain rfl := equal
    obtain rfl := reports.eq
    exact ⟨rfl, rfl, Or.inl evolves⟩
  | error _ left => exact ⟨rfl, rfl, Or.inr ⟨by simp, left⟩⟩
  | lax isLax => exact absurd isLax exact_.strict

end Lockstep
end Stencil
