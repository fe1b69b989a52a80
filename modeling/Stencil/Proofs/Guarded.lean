import Stencil.Proofs.Steady
/-!
# The activations in progress

A strict render looks for an instance in its own enclosing chain before it goes into it. Here the
render is given the activations in progress as a stack without repetitions, and stops as soon as it
would write one of them again. For a strict setting the two come to the same, so the links that the
render itself keeps changing never hide an activation in progress from it.
-/
namespace Stencil

/-- The activations whose chunks are being rendered, the innermost first. None is there twice. -/
structure Active where
  handles : List Handle
  distinct : handles.Nodup

namespace Active

def only (root : Handle) : Active := ⟨[root], List.nodup_singleton root⟩

def enter (active : Active) (h : Handle) (fresh : h ∉ active.handles) : Active :=
  ⟨h :: active.handles, List.nodup_cons.2 ⟨fresh, active.distinct⟩⟩

end Active

namespace Evaluator

/-- Stops at an instance without going into it. -/
def refuse (caller h : Handle) : Run Nat := do
  Run.changeArena fun a => a.setEnclosing h (some caller)
  let a ← Run.arena
  Run.stop (.fatal (.infiniteRecursion (a.trace h)))

/-- Goes at most `depth` steps deep, and into none of the activations in progress. -/
def guarded (setting : Setting) : Nat → Active → Evaluator
  | 0, _ => exhausted
  | depth + 1, active =>
    { step setting (guarded setting depth active) with
      write := fun scope v o =>
        match v with
        | .template h =>
          if fresh : h ∉ active.handles then
            (guarded setting depth (active.enter h fresh)).writeTemplate setting scope h
          else refuse scope h
        | v => (step setting (guarded setting depth active)).write scope v o }

theorem guarded_succ (setting : Setting) (depth : Nat) (active : Active) :
    guarded setting (depth + 1) active =
      withInstances setting (guarded setting depth active) fun scope h =>
        if fresh : h ∉ active.handles then
          (guarded setting depth (active.enter h fresh)).writeTemplate setting scope h
        else refuse scope h := rfl

end Evaluator

/-- Renders an activation's template, with the activations in progress on a stack. -/
def Setting.renderGuarded (setting : Setting) (depth : Nat) (a : Arena) (root : Handle)
    (w : Writer) : RenderOutcome :=
  match (Evaluator.guarded setting depth (.only root)).render root (a.get root).template.chunks
    ⟨a, [], w⟩ with
  | .ok chars s => ⟨.ok ⟨chars, s.diagnostics⟩, s.arena, s.writer⟩
  | .error cause s => ⟨.error cause, s.arena, s.writer⟩

namespace Steady

variable {kinds : ScopeKind → Prop} {a₀ a b : Arena} {c h : Handle} {v : Value} {setting : Setting}
  {ds ds' : List TemplateError}

theorem eq_of_outcome {α : Type} {active : List Handle} {strict : Bool}
    {r r' : EStateM.Result Stop RenderState α}
    (outcome : (lockstep kinds strict a₀ active).Outcome c c a b ds ds Lockstep.Equal r r') :
    r = r' := by
  cases outcome with
  | ok _ reports evolves equal =>
    obtain ⟨rfl, -⟩ := evolves
    obtain rfl := equal
    obtain rfl := reports.eq
    rfl
  | error reports left =>
    obtain ⟨rfl, -⟩ := left
    obtain rfl := reports.eq
    rfl
  | lax isLax => exact isLax.elim

/-- What comes of a render inside an instance does not depend on what is in progress there. -/
theorem outcome_of_inner {active inner : List Handle} {strict : Bool} {a₁ b₁ : Arena}
    {r r' : EStateM.Result Stop RenderState Nat}
    (wider : ∀ a₂, Moved kinds strict a₀ h a₁ a₂ → Moved kinds strict a₀ c a a₂)
    (outcome : (lockstep kinds strict a₀ inner).Outcome h h a₁ b₁ ds ds' Lockstep.Equal r r') :
    (lockstep kinds strict a₀ active).Outcome c c a b ds ds' Lockstep.Equal r r' := by
  cases outcome with
  | ok fits reports evolves equal => exact .ok fits reports ⟨evolves.1, wider _ evolves.2⟩ equal
  | error reports left => exact .error reports left
  | lax isLax => exact isLax.elim

/-- An instance is refused where it is in progress, and otherwise joins the stack when it is
entered. -/
theorem agrees_writeInstance (isStrict : setting.strict = true) {ev : Evaluator}
    {inner : Active → Evaluator} {active : Active}
    (rel : ∀ active : Active,
      (lockstep kinds setting.strict a₀ active.handles).Related ev (inner active))
    (standing : Standing kinds setting.strict a₀ active.handles c a) (knows : a.Knows kinds h) :
    (lockstep kinds setting.strict a₀ active.handles).Agrees c c a a Lockstep.Equal
      (ev.writeTemplate setting c h)
      (if fresh : h ∉ active.handles then (inner (active.enter h fresh)).writeTemplate setting c h
        else Evaluator.refuse c h) := by
  intro ds ds' w fits
  have left : (lockstep kinds setting.strict a₀ active.handles).Left
      (a.setEnclosing h (some c)) (a.setEnclosing h (some c)) := ⟨rfl, standing.link knows⟩
  rw [Evaluator.writeTemplate_run]
  by_cases fresh : h ∉ active.handles
  · rw [dif_pos fresh, Evaluator.writeTemplate_run]
    split
    · exact .error (.refl ds ds') left
    · rename_i allowed
      have apart (_ : setting.strict = true) : ¬ a.Reaches c h := by
        rw [← standing.refused_iff knows]
        simpa [isStrict] using allowed
      obtain ⟨inside, wider⟩ := standing.enter knows apart
      exact outcome_of_inner wider ((rel (active.enter h fresh)).render
        ((a.setEnclosing h (some c)).get h).template.chunks ⟨⟨rfl, rfl⟩, inside⟩ ds ds' w fits)
  · have refused := (standing.refused_iff knows).2 (standing.around isStrict h (not_not.1 fresh))
    rw [dif_neg fresh, isStrict, refused]
    exact .error (.refl ds ds') left

theorem related_guarded (isStrict : setting.strict = true) (instances : kinds .template)
    (depth : Nat) (active : Active) :
    (lockstep kinds setting.strict a₀ active.handles).Related
      (Evaluator.ofDepth setting depth) (Evaluator.guarded setting depth active) := by
  have laws (active : List Handle) : (lockstep kinds setting.strict a₀ active).Lawful :=
    lawful instances
  induction depth generalizing active with
  | zero => exact Lockstep.related_exhausted (laws _)
  | succ depth ih =>
    rw [Evaluator.ofDepth_succ, Evaluator.step_eq_withInstances, Evaluator.guarded_succ]
    refine Lockstep.related_withInstances setting (laws _) (ih active) ?_
    rintro c _ h _ a _ ⟨⟨rfl, rfl⟩, standing⟩ ⟨rfl, knows⟩
    exact (agrees_writeInstance isStrict ih standing knows).wrote fun _ _ => trivial

end Steady

theorem render_eq_guarded {setting : Setting} (isStrict : setting.strict = true) {a : Arena}
    (inRange : a.InRange) {root : Handle} (inside : a.contains root) (depth : Nat) (w : Writer) :
    setting.renderWithin depth a root w = setting.renderGuarded depth a root w := by
  have standing : Steady.Standing (fun _ => True) setting.strict a [root] root a :=
    Steady.standing_root inRange inside fun _ => List.mem_singleton.1
  have rel : (Steady.lockstep (fun _ => True) setting.strict a [root]).Related
      (.ofDepth setting depth) (.guarded setting depth (.only root)) :=
    Steady.related_guarded isStrict trivial depth (.only root)
  have outcome := rel.render (a.get root).template.chunks ⟨⟨rfl, rfl⟩, standing⟩ [] [] w trivial
  have same := Steady.eq_of_outcome outcome
  unfold Setting.renderWithin Setting.renderGuarded
  generalize (Evaluator.ofDepth setting depth).render root _ _ = r at same ⊢
  subst same
  cases (Evaluator.guarded setting depth (.only root)).render root _ _ <;> rfl

end Stencil
