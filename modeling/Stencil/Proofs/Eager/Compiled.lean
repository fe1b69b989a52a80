import Stencil.Proofs.Captured.Libraries
import Stencil.Proofs.Eager.Render
import Stencil.Proofs.Reachable
/-!
# Eager rendering of compiled templates

A host that makes its instances of compiled templates, and looks names up in a library of them, never
has an indentation with a line end in it opened. What holds of eager and lazy rendering therefore
holds of everything that such a host renders.
-/
namespace Stencil

/-- All instances are of templates that have a source. -/
def Arena.HasSources (a : Arena) : Prop := ∀ h, a.contains h → (a.get h).template.HasSource

theorem Arena.HasSources.opens {a : Arena} (sourced : a.HasSources) : a.Opens Unbroken := by
  intro h
  by_cases inside : a.contains h
  · exact (sourced h inside).within
  · rw [get_eq_default inside]
    exact within_nil

/-- The registry is that of a library, or of one of its groups. -/
inductive Registry.Of (l : Library) : Registry → Prop
  | all : Of l l.registry
  | group (id : GroupId) : Of l (l.groupRegistry id)

theorem Registry.Of.opens {l : Library} {registry : Registry} (own : registry.Of l)
    (each : l.Each Template.HasSource) : registry.Opens Unbroken := by
  cases own with
  | all => exact each.unbroken.registry
  | group id => exact each.unbroken.groupRegistry id

/-- With compiled templates and the library of some group files, an expression that makes up the
template of an instance may be made a text first wherever the instance is rendered from the start of
a line, once. -/
theorem compiled_eager_render_eq {setting : Setting} (leaves : setting.formatters.LeaveTexts)
    {files : List GroupFile} (registry : setting.registry.Of (Library.empty.registerAll files).1)
    {host : List Handle} {a : Arena} (reachable : Reachable host a) (sourced : a.HasSources)
    {root : Handle} (made : root ∈ host) {e : Expr} {indent? : Option String}
    (direct : (a.get root).template.chunks = [.direct e indent?])
    {w : Writer} (same : w.strategy = setting.strategy)
    (place : w.strategy = .noIndent ∨ w.atLineStart = true) {depth : Nat} {r : Rendered}
    (ended : (setting.renderWithin depth a root w).result = .ok r)
    (once : setting.strict = true ∨ w.strategy = .noIndent ∨ setting.WritesOnce depth a root w)
    {deeper : Nat} (le : 2 * depth ≤ deeper) :
    let outcome := setting.renderWithin (deeper + 1) (a.recast root [.eager e indent?]) root w
    outcome.result = .ok r ∧ outcome.writer = (setting.renderWithin depth a root w).writer := by
  obtain ⟨closed, known⟩ := reachable.invariant
  exact Eager.outcome_eq leaves (registry.opens (.registerAll files)) closed sourced.opens
    (known root made).inside direct same place ended once le

end Stencil
