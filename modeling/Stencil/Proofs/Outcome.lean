import Stencil.Proofs.Appending
import Stencil.Proofs.Invariant.Step
import Stencil.Proofs.Output.Pieces
/-!
# How a render ends

A render reports what it can go on after, and stops for nothing but a full sink and, in a strict
setting, a template that encloses itself. Whichever way it ends, the indentations that it has opened
are closed again.
-/
namespace Stencil

namespace Drafting

theorem indents_writeOn (d : Draft) (w : Writer) : (d.writeOn w).1.indents = w.indents := by
  have sent := d.sends_writeOn w
  generalize d.writeOn w = r at sent
  cases sent with
  | whole => rfl
  | part _ _ _ _ _ indents => exact indents

/-- A render leaves the writer as writing its draft does, and stops for a full sink exactly if the
draft does not get through. -/
theorem render_writes (setting : Setting) (depth : Nat) (a : Arena) (root : Handle) :
    ∃ d : Draft, ∀ w, (setting.renderWithin depth a root w).writer = (d.writeOn w).1 ∧
      ((setting.renderWithin depth a root w).result = .error (.fatal .sinkFull) ↔
        (d.writeOn w).2 = none) := by
  obtain ⟨d, ending, sound, wrote⟩ := render_wrote setting depth a root
  refine ⟨d, fun w => ?_⟩
  have written := wrote w
  unfold Setting.renderWithin
  generalize (Evaluator.ofDepth setting depth).render root _ ⟨a, [], w⟩ = r at written ⊢
  cases written with
  | whole taken =>
    rw [taken]
    cases sound with
    | back => exact ⟨rfl, nofun, nofun⟩
    | stopped apart => exact ⟨rfl, fun full => absurd (Except.error.inj full) apart, nofun⟩
  | part refused =>
    rw [refused]
    exact ⟨rfl, fun _ => rfl, fun _ => rfl⟩

end Drafting

/-- The render puts these pieces into its sink, one after another until one of them is refused. -/
def Setting.Puts (setting : Setting) (depth : Nat) (a : Arena) (root : Handle) (w : Writer)
    (pieces : List String) : Prop :=
  ∀ limit?, (setting.renderWithin depth a root (w.limited limit?)).writer.sink =
    ((w.limited limit?).sink.putAll pieces).1

/-- Where a render stops for a full sink, the sink has refused a piece. -/
theorem Drafting.refused_of_sinkFull {setting : Setting} {depth : Nat} {a : Arena} {root : Handle}
    {w : Writer}
    (full : (setting.renderWithin depth a root w).result = .error (.fatal .sinkFull)) :
    ∃ taken refused rest, setting.Puts depth a root w (taken ++ refused :: rest) ∧
      (setting.renderWithin depth a root w).writer.sink = w.sink.append (String.join taken) ∧
      (setting.renderWithin depth a root w).writer.sink.put? refused = none := by
  obtain ⟨d, writes⟩ := render_writes setting depth a root
  have puts (limit? : Option Nat) := d.puts_writeOn (w.limited limit?)
  obtain ⟨left, stopped⟩ := writes w
  have refusal := puts w.sink.limit?
  unfold Writer.Puts at refusal puts
  rw [show w.limited w.sink.limit? = w from rfl, stopped.1 full, ← left] at refusal
  obtain ⟨taken, refused, rest, split, sink, noRoom⟩ := Sink.refused_of_putAll refusal
  refine ⟨taken, refused, rest, fun limit? => ?_, sink, noRoom⟩
  rw [← split, (writes (w.limited limit?)).1]
  exact (congrArg Prod.fst (puts limit?)).symm

theorem Drafting.ne_sinkFull_of_unlimited {w : Writer} (unlimited : w.sink.limit? = none)
    (setting : Setting) (depth : Nat) (a : Arena) (root : Handle) :
    (setting.renderWithin depth a root w).result ≠ .error (.fatal .sinkFull) := by
  intro full
  obtain ⟨taken, refused, -, -, sink, noRoom⟩ := refused_of_sinkFull full
  have boundless : (w.sink.append (String.join taken)).limit? = none := unlimited
  rw [sink, Sink.put?_of_limit?_eq_none boundless] at noRoom
  cases noRoom

/-- What a render may stop for. -/
inductive Setting.Stops (setting : Setting) : Stop → Prop
  | tooDeep : Stops setting .tooDeep
  | full : Stops setting (.fatal .sinkFull)
  | recursion {names : List String} :
    setting.strict = true → Stops setting (.fatal (.infiniteRecursion names))

namespace Reporting

def invariant (setting : Setting) : Invariant where
  Holds _ ds := ∀ e ∈ ds, e.Recoverable
  Made _ := True
  Stops := setting.Stops

theorem lawful (setting : Setting) : (invariant setting).Lawful setting where
  report holds recoverable e member := by
    rcases List.mem_append.1 member with old | new
    · exact holds e old
    · exact List.mem_singleton.1 new ▸ recoverable
  embed _ holds _ := ⟨holds, trivial⟩
  arguments holds _ _ := holds
  argument _ holds _ _ := holds
  enclose holds _ _ := holds
  tooDeep := .tooDeep
  full := .full
  recursion _ strict := .recursion strict

theorem render (setting : Setting) (depth : Nat) (a : Arena) (root : Handle) (w : Writer) :
    (∀ r, (setting.renderWithin depth a root w).result = .ok r →
      ∀ e ∈ r.diagnostics, e.Recoverable) ∧
    ∀ cause, (setting.renderWithin depth a root w).result = .error cause →
      setting.Stops cause :=
  ((lawful setting).render (fun _ => trivial) depth a root w (List.forall_mem_nil _)).2

end Reporting

/-- A render fails only for a template that encloses itself, in a strict setting, or for a sink that
has refused one of the pieces that it was given. Otherwise it comes to an end, and has gone on after
all that it reports. -/
theorem render_error_policy (setting : Setting) (depth : Nat) (a : Arena) (root : Handle)
    (w : Writer) :
    let outcome := setting.renderWithin depth a root w
    (∀ e, outcome.result = .error (.fatal e) → e.isFatal = true ∧
      ((∃ names, e = .infiniteRecursion names) ∧ setting.strict = true ∨
        e = .sinkFull ∧ ∃ taken refused rest,
          setting.Puts depth a root w (taken ++ refused :: rest) ∧
          outcome.writer.sink = w.sink.append (String.join taken) ∧
          outcome.writer.sink.put? refused = none)) ∧
    (∀ r, outcome.result = .ok r → ∀ e ∈ r.diagnostics, e.isFatal = false ∧ e.Recoverable) ∧
    (setting.strict = false → w.sink.limit? = none → outcome.result ≠ .error .tooDeep →
      ∃ r, outcome.result = .ok r) := by
  intro outcome
  obtain ⟨reported, stops⟩ := Reporting.render setting depth a root w
  refine ⟨fun e failed => ?_, fun r ended e member => ?_, fun lax unlimited shallow => ?_⟩
  · cases stops _ failed with
    | full => exact ⟨rfl, .inr ⟨rfl, Drafting.refused_of_sinkFull failed⟩⟩
    | recursion strict => exact ⟨rfl, .inl ⟨⟨_, rfl⟩, strict⟩⟩
  · have recoverable := reported r ended e member
    exact ⟨recoverable.isFatal_eq_false, recoverable⟩
  · cases result : outcome.result with
    | ok r => exact ⟨r, rfl⟩
    | error cause =>
      cases stops _ result with
      | tooDeep => exact absurd result shallow
      | recursion strict => exact absurd (strict.symm.trans lax) (by simp)
      | full =>
        exact absurd result (Drafting.ne_sinkFull_of_unlimited unlimited setting depth a root)

/-- An instance that asks for an attribute and a template that there are not. -/
def Reporting.lacking : Arena :=
  (Arena.empty.instantiate (.plain "page" [.literal "a",
    .expression (.attribute "x") .none none,
    .expression (.call (.name "item") .none) .none none])).2

/-- A full sink ends a render, while what is lacking is reported. -/
theorem full_sink_ends_lacking_render :
    let cut := Setting.standard.renderWithin 5 Drafting.listed ⟨1⟩ (.onto .autoIndent (.upTo 4))
    let whole := Setting.standard.renderWithin 5 Reporting.lacking ⟨0⟩ (.fresh .autoIndent)
    cut.result = .error (.fatal .sinkFull) ∧ (∃ refused, cut.writer.sink.put? refused = none) ∧
      ∃ r, whole.result = .ok r ∧
        r.diagnostics = [.missingAttribute "page" "x", .templateNotFound "item"] ∧
        ∀ e ∈ r.diagnostics, e.isFatal = false ∧ e.Recoverable := by
  intro cut whole
  obtain ⟨failed, -, -⟩ :=
    render_error_policy .standard 5 Drafting.listed ⟨1⟩ (.onto .autoIndent (.upTo 4))
  obtain ⟨-, reported, succeeds⟩ :=
    render_error_policy .standard 5 Reporting.lacking ⟨0⟩ (.fresh .autoIndent)
  have full : cut.result = .error (.fatal .sinkFull) := by decide +kernel
  have ended : whole.result =
      .ok ⟨1, [.missingAttribute "page" "x", .templateNotFound "item"]⟩ := by decide +kernel
  obtain ⟨r, ok⟩ := succeeds rfl rfl (by decide +kernel)
  obtain rfl := Except.ok.inj (ended.symm.trans ok)
  refine ⟨full, ?_, _, ended, rfl, reported _ ended⟩
  obtain ⟨-, ⟨⟨_, other⟩, -⟩ | ⟨-, taken, refused, rest, -, -, noRoom⟩⟩ := failed _ full
  · cases other
  · exact ⟨refused, noRoom⟩

/-- However a render ends, the writer has the indentations open that it had before. -/
theorem render_restores_indents (setting : Setting) (depth : Nat) (a : Arena) (root : Handle)
    (w : Writer) : (setting.renderWithin depth a root w).writer.indents = w.indents := by
  obtain ⟨d, writes⟩ := Drafting.render_writes setting depth a root
  rw [(writes w).1, Drafting.indents_writeOn]

-- The sink is full in the middle of a template that is indented.
example :
    let w := (Writer.onto .autoIndent (.upTo 9)).push ">"
    let outcome := Setting.standard.renderWithin 5 Drafting.listed ⟨1⟩ w
    outcome.result = .error (.fatal .sinkFull) ∧ outcome.writer.text = ">a:\n>  b\n" ∧
      outcome.writer.indents = [">"] := by
  decide +kernel

end Stencil
