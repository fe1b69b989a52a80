import Stencil.Group.Library
import Stencil.Proofs.Eager.Basic
import Stencil.Proofs.Recast
/-!
# Eager and lazy rendering

Whether an expression is written as it is evaluated or made a text first, the render comes to the
same where a line begins. The text is laid out again when it is written, so its inner lines are
indented twice over, once by each. A render that writes its own root again in the middle of a line
is another matter: there the template itself is written where no line begins.
-/
namespace Stencil

namespace Eager

open Arena Steady

/-- Renders of arenas whose root has an expression written directly in the first one, and made a
text first in the second. -/
abbrev lockstep (setting : Setting) (a₀ : Arena) (root : Handle) (e : Expr)
    (indent? : Option String) : Lockstep :=
  Recast.lockstep setting a₀ root [.direct e indent?] [.eager e indent?] (· = setting.strategy)

instance (setting : Setting) (a₀ : Arena) (root : Handle) (e : Expr) (indent? : Option String) :
    (lockstep setting a₀ root e indent?).Suits setting := ⟨rfl⟩

variable {setting : Setting} {a₀ a b : Arena} {root c : Handle} {e : Expr} {indent? : Option String}
  {ev : Evaluator}

/-- Without indentation the second render makes the text of the root first, which takes one step
more. -/
theorem agrees_root_noIndent (leaves : setting.formatters.LeaveTexts)
    (noIndent : setting.strategy = .noIndent) (notStrict : setting.strict = false)
    {depth deeper : Nat}
    (rel : (lockstep setting a₀ root e indent?).Related (.ofDepth setting depth)
      (.ofDepth setting deeper))
    (coupled : (lockstep setting a₀ root e indent?).Coupled c c a b)
    (knows : a.Knows IsInstance root) :
    (lockstep setting a₀ root e indent?).Agrees c c a b Lockstep.Equal
      ((Evaluator.ofDepth setting depth).writeTemplate setting c root)
      ((Evaluator.ofDepth setting (deeper + 1)).writeTemplate setting c root) := by
  intro ds ds' w fits
  have same : w.strategy = setting.strategy := fits
  obtain ⟨⟨-, alike⟩, standing⟩ := coupled
  obtain ⟨inner, wider⟩ := standing.enter knows (by simp [notStrict])
  have linked := alike.setEnclosing root (some c)
  have entered := rel.render [.direct e indent?] ⟨⟨rfl, linked⟩, inner.fewer⟩ ds ds' w fits
  rw [Evaluator.writeTemplate_run, Evaluator.writeTemplate_run, notStrict, linked.left,
    linked.right]
  simp only [Bool.false_and, Bool.false_eq_true, if_false]
  generalize (Evaluator.ofDepth setting depth).render root _ _ = r at entered ⊢
  generalize ran : (Evaluator.ofDepth setting deeper).render root _ _ = r' at entered
  cases entered with
  | error => exact .lax trivial
  | lax => exact .lax trivial
  | ok fits reports evolves equal =>
    obtain rfl := equal
    rw [render_eager leaves setting.registry.opens_everything (within_everything _) indent?
      (Arena.opens_everything _) (Or.inl (same.trans noIndent)) same ran]
    exact .ok fits reports ⟨evolves.1, wider _ evolves.2⟩ rfl

/-- The root begins with an expression in both. -/
theorem opened (h : Handle) : (lockstep setting a₀ root e indent?).Open h := fun _ => rfl

/-- Evaluators without indentation agree. Writing the root takes the second one a step more. -/
theorem related_noIndent (leaves : setting.formatters.LeaveTexts) (inside : a₀.contains root)
    (noIndent : setting.strategy = .noIndent) (notStrict : setting.strict = false)
    {depth deeper : Nat} (le : 2 * depth ≤ deeper) :
    (lockstep setting a₀ root e indent?).Related (.ofDepth setting depth)
      (.ofDepth setting deeper) := by
  induction depth generalizing deeper with
  | zero => exact Lockstep.related_exhausted_lax trivial _
  | succ depth ih =>
    obtain ⟨deeper, rfl⟩ : ∃ k, deeper = k + 2 := ⟨deeper - 2, by omega⟩
    have enough : 2 * depth ≤ deeper + 1 := by omega
    have rel := ih enough
    rw [Evaluator.ofDepth_succ, Evaluator.ofDepth_succ, Evaluator.step_eq_withInstances,
      Evaluator.step_eq_withInstances]
    refine Lockstep.related_withInstances setting (Recast.lawful inside) rel ?_
    rintro c _ h _ a b ⟨⟨rfl, alike⟩, standing⟩ ⟨rfl, knows⟩
    by_cases isRoot : h = root
    · subst isRoot
      exact (agrees_root_noIndent leaves noIndent notStrict (ih (by omega))
        ⟨⟨rfl, alike⟩, standing⟩ knows).wrote fun h _ => opened h
    · exact Lockstep.agrees_writeTemplate setting rel
        (Recast.encloses ⟨⟨rfl, alike⟩, standing⟩ knows isRoot)

/-- Evaluators of a strict setting agree, and so do those of one without indentation. -/
theorem related_ofDepth (leaves : setting.formatters.LeaveTexts) (inside : a₀.contains root)
    (harmless : setting.strict = true ∨ setting.strategy = .noIndent) {depth deeper : Nat}
    (le : 2 * depth ≤ deeper) :
    (lockstep setting a₀ root e indent?).Related (.ofDepth setting depth)
      (.ofDepth setting deeper) := by
  cases strict : setting.strict with
  | true => exact Recast.related_strict strict inside (by omega)
  | false =>
    have noIndent : setting.strategy = .noIndent := harmless.resolve_left (by simp [strict])
    exact related_noIndent leaves inside noIndent strict le

/-! ## Whole renders -/

/-- Making a text first opens no other indentations. -/
theorem opens_recast {allowed : String → Prop} (opens : a.Opens allowed)
    (inside : a.contains root) (direct : (a.get root).template.chunks = [.direct e indent?]) :
    (a.recast root [.eager e indent?]).Opens allowed := by
  intro x
  rw [Recast.get_recast inside, Template.indents_eq]
  split
  · rename_i isRoot
    have within := opens x
    rw [isRoot, Template.indents_eq, direct] at within
    exact within
  · exact Template.indents_eq _ ▸ opens x

/-- Where the evaluators agree, a render that makes the text first comes to what the other one
comes to. -/
theorem render_of_related (leaves : setting.formatters.LeaveTexts)
    (registry : setting.registry.Opens Unbroken) (opens : a.Opens Unbroken) {root : Handle}
    (inside : a.contains root) (direct : (a.get root).template.chunks = [.direct e indent?])
    {w : Writer} (same : w.strategy = setting.strategy)
    (place : w.strategy = .noIndent ∨ w.atLineStart = true) {ev : Evaluator} {depth : Nat}
    (rel : (lockstep setting a root e indent?).Related ev (.ofDepth setting depth))
    (standing : Standing IsInstance setting.strict a [root] root a) {r : Rendered}
    (ended : (ev.outcome a root w).result = .ok r) :
    let outcome := setting.renderWithin (depth + 1) (a.recast root [.eager e indent?]) root w
    outcome.result = .ok r ∧ outcome.writer = (ev.outcome a root w).writer := by
  obtain ⟨⟨a₁, ds, w₁⟩, ran, rfl, writer⟩ := Evaluator.ran_of_outcome ended
  have alike := Recast.alike_recast inside direct [.eager e indent?]
  have within : Within Unbroken (Chunk.allIndents [.direct e indent?]) := by
    rw [← direct, ← Template.indents_eq]
    exact opens root
  have relays : Relays Unbroken w := by
    rcases place with noIndent | starts
    · exact Or.inl noIndent
    · exact Or.inr ⟨starts, fun _ unbroken => unbroken⟩
  have outcome := rel.render [.direct e indent?] ⟨⟨rfl, alike⟩, standing⟩ [] [] w same
  rw [direct] at ran
  rw [ran] at outcome
  generalize ran' : (Evaluator.ofDepth setting depth).render root _ _ = r' at outcome
  cases outcome with
  | ok _ reports _ equal =>
    obtain rfl := equal
    obtain rfl := reports.eq
    have within : Within Unbroken e.indents := by
      simp only [Chunk.allIndents, Chunk.direct, Chunk.indents, within_append] at within
      exact within.1.1.2
    have eager := render_eager leaves registry within indent? (opens_recast opens inside direct)
      relays same ran'
    rw [← writer]
    simp only [Setting.renderWithin, alike.right, eager, and_self]

/-- Where neither is cut off and the root is not written again in the middle of a line, one comes to
what the other comes to. -/
theorem outcome_eq {setting : Setting} (leaves : setting.formatters.LeaveTexts)
    (registry : setting.registry.Opens Unbroken) {a : Arena} (closed : a.Closed IsInstance)
    (opens : a.Opens Unbroken) {root : Handle} (inside : a.contains root) {e : Expr}
    {indent? : Option String} (direct : (a.get root).template.chunks = [.direct e indent?])
    {w : Writer} (same : w.strategy = setting.strategy)
    (place : w.strategy = .noIndent ∨ w.atLineStart = true) {depth : Nat} {r : Rendered}
    (ended : (setting.renderWithin depth a root w).result = .ok r)
    (once : setting.strict = true ∨ w.strategy = .noIndent ∨ setting.WritesOnce depth a root w)
    {deeper : Nat} (le : 2 * depth ≤ deeper) :
    let outcome := setting.renderWithin (deeper + 1) (a.recast root [.eager e indent?]) root w
    outcome.result = .ok r ∧ outcome.writer = (setting.renderWithin depth a root w).writer := by
  have standing : Standing IsInstance setting.strict a [root] root a :=
    standing_root closed inside fun _ => List.mem_singleton.1
  by_cases harmless : setting.strict = true ∨ setting.strategy = .noIndent
  · have rel : (lockstep setting a root e indent?).Related (.ofDepth setting depth)
        (.ofDepth setting deeper) :=
      related_ofDepth leaves inside harmless le
    exact render_of_related leaves registry opens inside direct same place rel standing ended
  · have once : setting.WritesOnce depth a root w := by
      rw [same] at once
      tauto
    have rel : (lockstep setting a root e indent?).Related (.barred setting root depth)
        (.ofDepth setting deeper) :=
      Recast.related_barred inside (by omega)
    rw [← once.result] at ended
    rw [← once.writer]
    exact render_of_related leaves registry opens inside direct same place rel standing ended

end Eager

/-- A render that comes to an end writes the same if the expression that makes up its template is
made a text first: from the start of a line, or anywhere without indentation. It must not write its
own root again, which a strict render never does and which is harmless without indentation.
Templates that were compiled open no indentations with line ends in them. -/
theorem eager_render_eq {setting : Setting} (leaves : setting.formatters.LeaveTexts)
    (registry : setting.registry.Opens Unbroken) {a : Arena} (closed : a.Closed IsInstance)
    (opens : a.Opens Unbroken) {root : Handle} (inside : a.contains root) {e : Expr}
    {indent? : Option String} (direct : (a.get root).template.chunks = [.direct e indent?])
    {w : Writer} (same : w.strategy = setting.strategy)
    (place : w.strategy = .noIndent ∨ w.atLineStart = true) {depth : Nat} {r : Rendered}
    (ended : (setting.renderWithin depth a root w).result = .ok r)
    (once : setting.strict = true ∨ w.strategy = .noIndent ∨ setting.WritesOnce depth a root w)
    {deeper : Nat} (le : 2 * depth < deeper) :
    let outcome := setting.renderWithin deeper (a.recast root [.eager e indent?]) root w
    outcome.result = .ok r ∧ outcome.writer = (setting.renderWithin depth a root w).writer := by
  obtain ⟨deeper, rfl⟩ : ∃ k, deeper = k + 1 := ⟨deeper - 1, by omega⟩
  exact Eager.outcome_eq leaves registry closed opens inside direct same place ended once
    (Nat.le_of_lt_succ le)

/-- An instance that writes another one behind an indentation. -/
def Eager.indented : Arena :=
  let lines := Template.plain "lines" [.literal "b", .newline "\n", .newline "\n", .literal "c"]
  let root := Template.plain "root" [.direct (.attribute "x") (some "  ")]
  ((Arena.empty.instantiate lines).2.instantiate root).2.setAttribute ⟨1⟩ "x" (.template ⟨0⟩)

theorem indented_eager_render_eq :
    let w := (Writer.fresh .autoIndent).push ">"
    let outcome := Setting.standard.renderWithin 9
      (Eager.indented.recast ⟨1⟩ [.eager (.attribute "x") (some "  ")]) ⟨1⟩ w
    outcome.result = .ok ⟨10, []⟩ ∧ outcome.writer.text = ">  b\n\n>  c" := by
  intro w outcome
  have closed : Eager.indented.Closed IsInstance := by
    refine Arena.Closed.setAttribute ((Arena.closed_empty.instantiate _).instantiate _) _ _ ?_
    intro x holds
    obtain rfl := Value.holds_template_iff.1 holds
    exact ⟨by decide, rfl⟩
  have opens : Eager.indented.Opens Unbroken :=
    ((Arena.opens_empty.push (by decide)).push (by decide)).modify _ fun _ => rfl
  have ended : (Setting.standard.renderWithin 4 Eager.indented ⟨1⟩ w).result = .ok ⟨10, []⟩ := by
    decide +kernel
  have once : Setting.standard.WritesOnce 4 Eager.indented ⟨1⟩ w :=
    ⟨by decide +kernel, by decide +kernel⟩
  have text : (Setting.standard.renderWithin 4 Eager.indented ⟨1⟩ w).writer.text =
      ">  b\n\n>  c" := by decide +kernel
  have direct : (Eager.indented.get ⟨1⟩).template.chunks =
      [.direct (.attribute "x") (some "  ")] := rfl
  have enough : 2 * 4 < 9 := by decide
  have leaves : Setting.standard.formatters.LeaveTexts := rfl
  have registry : Setting.standard.registry.Opens Unbroken := ⟨nofun, nofun⟩
  obtain ⟨result, writer⟩ := eager_render_eq leaves registry closed opens (by decide) direct rfl
    (Or.inr rfl) ended (Or.inr (Or.inr once)) enough
  exact ⟨result, (congrArg Writer.text writer).trans text⟩

/-- An instance that writes another one, which begins with an indentation. -/
def Eager.nested : Arena :=
  let inner := Template.plain "inner" [.direct (.text "z") (some "  ")]
  let root := Template.plain "root" [.direct (.attribute "x") none]
  ((Arena.empty.instantiate inner).2.instantiate root).2.setAttribute ⟨1⟩ "x" (.template ⟨0⟩)

-- The text is made on a writer that indents, so it must be written on such a one too.
example :
    let w := Writer.fresh .noIndent
    let eager := Eager.nested.recast ⟨1⟩ [.eager (.attribute "x") none]
    (Setting.standard.renderWithin 4 Eager.nested ⟨1⟩ w).writer.text = "z" ∧
      (Setting.standard.renderWithin 9 eager ⟨1⟩ w).writer.text = "  z" := by
  decide +kernel

/-! ## A root that is written again -/

namespace Eager

/-- A group with a template `a`, which finds another one under this name itself. -/
def shadowing : Group :=
  let a := Template.plain "a" [.literal "foo ", .expression (.attribute "x") .none none]
  let shadow := Template.plain "g.a" [.expression (.text "z") .none (some "  ")]
  ((Group.empty "g" .dollar).insert (a.withFormals ["x"])).insert (shadow.withFormals ["x"])

def shadowed : Setting :=
  { Setting.standard with registry := (Library.empty.add shadowing).2.groupRegistry ⟨0⟩ }

/-- `a(x=me)` -/
def passing : Expr := .call (.name "a") (.named [("x", .attribute "me")])

/-- An instance that passes itself on. -/
def itself : Arena :=
  (Arena.empty.instantiate (.plain "main" [.direct passing none])).2.setAttribute ⟨0⟩ "me"
    (.template ⟨0⟩)

end Eager

/-- An instance that `a` writes in the middle of its line, and that then calls what `a` means there,
which begins with an indentation. Made a text first, the indentation is at the start of a line. -/
theorem rewritten_root_differs :
    let direct := Eager.shadowed.renderToText Eager.itself ⟨0⟩
    let eager := Eager.shadowed.renderToText
      (Eager.itself.recast ⟨0⟩ [.eager Eager.passing none]) ⟨0⟩
    Eager.shadowed.formatters.LeaveTexts ∧
      (Eager.itself.get ⟨0⟩).template.chunks = [.direct Eager.passing none] ∧
      direct.result = .ok ⟨5, []⟩ ∧ direct.writer.text = "foo z" ∧
      eager.result = .ok ⟨7, []⟩ ∧ eager.writer.text = "foo   z" :=
  ⟨rfl, rfl, by decide +kernel, by decide +kernel, by decide +kernel, by decide +kernel⟩

end Stencil
