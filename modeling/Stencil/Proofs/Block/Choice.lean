import Stencil.Proofs.Deeper
import Stencil.Proofs.Drafting.Step
import Stencil.Proofs.Repeat
import Stencil.Proofs.Sequence
/-!
# What a conditional chooses

The chunks that a conditional chooses are rendered as if they stood in its place. Evaluating the
condition leaves activations behind and may report something, and it may link instances anew; the
chunks behind it do not notice unless the links around their own scope have changed.
-/
namespace Stencil

/-- A run over chunks comes to an end and goes on to evaluate a condition, with one evaluator below
it. -/
structure Evaluator.Decides (setting : Setting) (ev : Evaluator) (scope : Handle)
    (before : List Chunk) (condition : Expr) (s t : RenderState) (v : Value) (u : RenderState) :
    Prop where
  written : ∃ n, ev.renderStep setting scope before s = .ok n t
  evaluated : ev.eval scope condition t = .ok v u

section Choice

open Arena

variable {setting : Setting} {ev : Evaluator} {c : Handle} {before behind : List Chunk}
  {condition : Expr} {holds : Template} {otherwise : Option Template} {s t u : RenderState}
  {v : Value} {depth n : Nat}

theorem Evaluator.Decides.unique {t' u' : RenderState} {v' : Value}
    (decides : ev.Decides setting c before condition s t v u)
    (decides' : ev.Decides setting c before condition s t' v' u') : t = t' ∧ v = v' ∧ u = u' := by
  obtain ⟨⟨n, written⟩, evaluated⟩ := decides
  obtain ⟨⟨n', written'⟩, evaluated'⟩ := decides'
  rw [written] at written'
  cases written'
  rw [evaluated] at evaluated'
  cases evaluated'
  exact ⟨rfl, rfl, rfl⟩

/-- A run over chunks with a conditional among them comes to its condition. -/
theorem Evaluator.exists_decides
    (ended : ev.renderStep setting c (before ++ .conditional condition holds otherwise :: behind) s =
      .ok n u) :
    ∃ t v t', ev.Decides setting c before condition s t v t' := by
  obtain ⟨_, _, t, written, rest, -⟩ := Evaluator.renderStep_append_ok_iff.1 ended
  obtain ⟨v, t', _, _, _, evaluated, -⟩ := Evaluator.renderStep_conditional_ok rest
  exact ⟨t, v, t', ⟨_, written⟩, evaluated⟩

/-- An evaluator that does what another one does where that comes to an end decides alike. -/
theorem Evaluator.Decides.of_related {ev' : Evaluator} (rel : Deeper.lockstep.Related ev ev')
    (decides : ev.Decides setting c before condition s t v u) :
    ev'.Decides setting c before condition s t v u := by
  obtain ⟨⟨n, written⟩, evaluated⟩ := decides
  have coupled : Deeper.lockstep.Coupled c c s.arena s.arena := ⟨rfl, rfl⟩
  obtain ⟨n', written', -⟩ := Deeper.ends_of_agrees
    (Lockstep.agrees_renderStep setting Deeper.lawful rel coupled before) written
  exact ⟨⟨n', written'⟩, Deeper.eval_of_related rel evaluated⟩

/-- What is chosen is rendered alike one step deeper. -/
theorem Evaluator.render_of_renderChosen
    (ended : (ofDepth setting depth).renderChosen c holds otherwise v s = .ok n u) :
    (ofDepth setting (depth + 1)).render c (Chunk.chosen holds otherwise v) s = .ok n u := by
  have deeper := Deeper.related_ofDepth setting (Nat.le_succ depth)
  unfold renderChosen at ended
  unfold Chunk.chosen
  cases truthy : v.truthy with
  | true =>
    rw [truthy] at ended
    exact Deeper.render_of_related deeper ended
  | false =>
    rw [truthy] at ended
    cases otherwise with
    | some t => exact Deeper.render_of_related deeper ended
    | none => exact ended

/-- Where a run over chunks with a conditional among them comes to an end, so does one over what it
chooses, unless evaluating its condition changes the links around the scope. -/
theorem Evaluator.render_chosen {a : Arena} (closed : a.Closed IsInstance) (inside : a.contains c)
    {ds : List TemplateError} {w : Writer} {t' : RenderState}
    (decides : (ofDepth setting depth).Decides setting c before condition ⟨a, ds, w⟩ t v t')
    (frame : setting.strict = true ∨ Frame c t.arena t'.arena)
    (ended : (ofDepth setting (depth + 1)).render c
      (before ++ .conditional condition holds otherwise :: behind) ⟨a, ds, w⟩ = .ok n u) :
    ∃ u', (ofDepth setting (depth + 1)).render c
        (before ++ (Chunk.chosen holds otherwise v ++ behind)) ⟨a, ds, w⟩ = .ok n u' ∧
      u'.writer = u.writer := by
  obtain ⟨m, _, ⟨a₁, ds₁, w₁⟩, written, rest, rfl⟩ := renderStep_append_ok_iff.1 ended
  obtain ⟨v, ⟨a₂, ds₂, w₂⟩, k, s₃, l, evaluated, chosen, others, rfl⟩ :=
    renderStep_conditional_ok rest
  obtain ⟨rfl, rfl, rfl⟩ := decides.unique ⟨⟨m, written⟩, evaluated⟩
  have instances : IsInstance .template := rfl
  have begun : Steady.Moved IsInstance setting.strict a c a a₁ :=
    Steady.chunks_move setting instances closed inside
      (show (ofDepth setting (depth + 1)).render c before _ = _ from written)
  have inside₁ := begun.grows.contains inside
  have moved := Steady.eval_moves setting instances begun.closed inside₁ evaluated
  -- Evaluating the condition wrote nothing.
  have drafts := Drafting.drafts_ofDepth (Registry.opens_everything setting.registry) depth
  obtain ⟨writer, -⟩ := (drafts.eval c (within_everything _)).rerun (opens_everything a₁) evaluated
  obtain rfl : w₂ = w₁ := writer
  have onward : (ofDepth setting (depth + 1)).render c (Chunk.chosen holds otherwise v ++ behind)
      ⟨a₂, ds₂, w₂⟩ = .ok (k + l) u :=
    renderStep_append_ok_iff.2 ⟨k, l, s₃, render_of_renderChosen chosen, others, rfl⟩
  obtain ⟨u', ran, same⟩ := Repeat.render_without begun.closed inside₁ moved.closed moved.keeps
    (frame.elim moved.frame id) onward ds₁
  exact ⟨u', renderStep_append_ok_iff.2 ⟨m, k + l, _, written, ran, rfl⟩, same⟩

/-- Renders that agree decide alike. -/
theorem Lockstep.exists_decides {L : Lockstep} [L.Suits setting] (laws : L.Lawful)
    {ev' : Evaluator} (rel : L.Related ev ev') {c' : Handle} {a b : Arena}
    (coupled : L.Coupled c c' a b) (fits : ∀ strategy, L.Fits strategy) {ds : List TemplateError}
    {w : Writer} (decides : ev.Decides setting c before condition ⟨a, ds, w⟩ t v u)
    (ds' : List TemplateError) :
    ∃ t' v' u', ev'.Decides setting c' before condition ⟨b, ds', w⟩ t' v' u' ∧
      L.Evolves c c' a b t.arena t'.arena ∧ L.Evolves c c' t.arena t'.arena u.arena u'.arena ∧
      L.Same u.arena u'.arena v v' := by
  obtain ⟨⟨n, written⟩, evaluated⟩ := decides
  obtain ⟨n', ⟨b₁, ds₁, w₁⟩, written', same, -, evolves, -⟩ :=
    (Lockstep.agrees_renderStep setting laws rel coupled before).ends (fits _) written ds'
  obtain rfl : w₁ = t.writer := same
  obtain ⟨v', u', evaluated', -, -, evolves', same⟩ :=
    (rel.eval condition (laws.coupled coupled evolves)).ends (fits _) evaluated ds₁
  exact ⟨_, v', u', ⟨⟨n', written'⟩, evaluated'⟩, evolves, evolves', same⟩

end Choice

end Stencil
