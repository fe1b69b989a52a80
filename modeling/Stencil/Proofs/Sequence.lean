import Stencil.Render.Basic
/-!
# One run after another

Runs come to an end one after another, and so do the parts of a list of chunks.
-/
namespace Stencil

namespace Run

variable {α β : Type}

theorem bind_ok {x : Run α} {f : α → Run β} {s u : RenderState} {r : β}
    (ended : (x >>= f) s = .ok r u) : ∃ v t, x s = .ok v t ∧ f v t = .ok r u := by
  change EStateM.bind x f s = _ at ended
  unfold EStateM.bind at ended
  generalize x s = ran at ended
  cases ran with
  | ok v t => exact ⟨v, t, rfl, ended⟩
  | error => cases ended

theorem bind_of_ok {x : Run α} (f : α → Run β) {s t : RenderState} {v : α}
    (ran : x s = .ok v t) : (x >>= f) s = f v t := by
  change EStateM.bind x f s = _
  simp only [EStateM.bind, ran]

theorem bind_of_error {x : Run α} (f : α → Run β) {s t : RenderState} {cause : Stop}
    (stopped : x s = .error cause t) : (x >>= f) s = .error cause t := by
  change EStateM.bind x f s = _
  simp only [EStateM.bind, stopped]

theorem arena_bind (f : Arena → Run β) (s : RenderState) : (arena >>= f) s = f s.arena s := rfl

end Run

/-- The chunks that a conditional renders for a value of its condition. -/
def Chunk.chosen (holds : Template) (otherwise : Option Template) (v : Value) : List Chunk :=
  if v.truthy then holds.chunks
  else match otherwise with
    | some t => t.chunks
    | none => []

namespace Evaluator

/-- Renders what a conditional comes to for a value of its condition. -/
def renderChosen (ev : Evaluator) (scope : Handle) (holds : Template) (otherwise : Option Template)
    (v : Value) : Run Nat :=
  if v.truthy then ev.render scope holds.chunks
  else match otherwise with
    | some t => ev.render scope t.chunks
    | none => pure 0

variable {setting : Setting} {ev : Evaluator} {c : Handle} {s u : RenderState} {n : Nat}
  {first second : List Chunk} {condition : Expr} {holds : Template} {otherwise : Option Template}

theorem renderStep_append (setting : Setting) (ev : Evaluator) (c : Handle)
    (first second : List Chunk) :
    ev.renderStep setting c (first ++ second) = do
      let written ← ev.renderStep setting c first
      let others ← ev.renderStep setting c second
      return written + others := by
  induction first with
  | nil => simp only [List.nil_append, renderStep, pure_bind, Nat.zero_add, bind_pure]
  | cons chunk rest ih =>
    simp only [List.cons_append, renderStep, ih, bind_assoc, pure_bind, Nat.add_assoc]

theorem renderStep_append_ok_iff :
    ev.renderStep setting c (first ++ second) s = .ok n u ↔
      ∃ m k t, ev.renderStep setting c first s = .ok m t ∧
        ev.renderStep setting c second t = .ok k u ∧ m + k = n := by
  rw [renderStep_append]
  constructor
  · intro ended
    obtain ⟨m, t, written, rest⟩ := Run.bind_ok ended
    obtain ⟨k, _, others, total⟩ := Run.bind_ok rest
    cases total
    exact ⟨m, k, t, written, others, rfl⟩
  · rintro ⟨m, k, t, written, others, rfl⟩
    rw [Run.bind_of_ok _ written, Run.bind_of_ok _ others]
    rfl

theorem renderStep_conditional_ok
    (ended : ev.renderStep setting c (.conditional condition holds otherwise :: second) s =
      .ok n u) :
    ∃ v t m t' k, ev.eval c condition s = .ok v t ∧
      ev.renderChosen c holds otherwise v t = .ok m t' ∧
      ev.renderStep setting c second t' = .ok k u ∧ m + k = n := by
  obtain ⟨m, t', written, rest⟩ := Run.bind_ok ended
  obtain ⟨v, t, evaluated, written⟩ := Run.bind_ok written
  obtain ⟨k, _, others, total⟩ := Run.bind_ok rest
  cases total
  exact ⟨v, t, m, t', k, evaluated, written, others, rfl⟩

end Evaluator
end Stencil
