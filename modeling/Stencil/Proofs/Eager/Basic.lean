import Stencil.Proofs.Drafting.Step
import Stencil.Proofs.Output.Layers
import Stencil.Proofs.Sequence
/-!
# Texts made beforehand

A value may be made a text first, on a writer of its own, and that text then be written in its
place. The draft of the value is laid out twice, which comes to the same as once.
-/
namespace Stencil

/-- The chunk of an expression without options, written as it is evaluated. -/
def Chunk.direct (e : Expr) (indent? : Option String) : Chunk := .expression e .none indent?

/-- The chunk of the same expression in parentheses, which makes it a text first. -/
def Chunk.eager (e : Expr) (indent? : Option String) : Chunk := .direct (.rendered e) indent?

/-- Texts are written as they are. -/
def Formatters.LeaveTexts (fs : Formatters) : Prop := fs.find? .text = Option.none

namespace Eager

open Drafting

variable {setting : Setting} {allowed : String → Prop} {a : Arena}
  {ds : List TemplateError} {w : Writer} {c : Handle} {n : Nat} {t : RenderState}

/-- Texts laid out a second time may be written on `w`. -/
def Relays (allowed : String → Prop) (w : Writer) : Prop :=
  w.strategy = .noIndent ∨ w.atLineStart = true ∧ ∀ indent, allowed indent → Unbroken indent

theorem Relays.layOut_fresh (relays : Relays allowed w) {d : Draft} (opens : d.Opens allowed) :
    w.strategy.layOut w.indents w.atLineStart (d.on (.fresh w.strategy)) = d.on w ∧
      w.strategy.startsAfter w.atLineStart (d.on (.fresh w.strategy)) =
        d.startsAfter w.strategy w.atLineStart := by
  refine Draft.layOut_fresh ?_
  rcases relays with noIndent | ⟨starts, unbroken⟩
  · exact Or.inl noIndent
  · exact Or.inr ⟨starts, opens.mono unbroken⟩

/-- A text that a draft comes to is written as the draft is. -/
theorem write_fresh (relays : Relays allowed w) {d : Draft} (opens : d.Opens allowed)
    {after : Writer} (written : d.writeOn w = (after, some n)) :
    w.write (d.on (.fresh w.strategy)) = (after, some n) := by
  obtain ⟨same, starts⟩ := relays.layOut_fresh opens
  have sent := d.sends_writeOn w
  have resent := Writer.sends_write w (d.on (.fresh w.strategy))
  rw [same, starts] at resent
  rw [written] at sent
  cases sent with
  | whole fits =>
    generalize w.write _ = r at resent
    cases resent with
    | whole => rfl
    | part refused => exact absurd (refused.symm.trans fits) (by simp)

/-- What a run writes can be made a text first that is written then. -/
theorem captured_emit {x : Run Nat} (drafted : Drafted allowed x) (opens : a.Opens allowed)
    (relays : Relays allowed w) (ended : x ⟨a, ds, w⟩ = .ok n t) :
    ∃ s a₁ ds₁, Run.captured w.strategy x ⟨a, ds, w⟩ = .ok s ⟨a₁, ds₁, w⟩ ∧
      Run.emit s ⟨a₁, ds₁, w⟩ = .ok n t := by
  obtain ⟨d, ending, within, -, wrote⟩ := drafted a ds opens
  have captured := captured_eq (wrote (.fresh w.strategy)) w
  have written := wrote w
  rw [ended] at written
  generalize ran : EStateM.Result.ok n t = r at written
  cases written with
  | part => cases ran
  | whole taken =>
    cases ending with
    | stopped => cases ran
    | back r a₁ ds₁ =>
      cases ran
      refine ⟨_, a₁, ds₁, captured, ?_⟩
      simp only [Run.emit, write_fresh relays within taken]
      rfl

/-! ## Values -/

section Values

variable (leaves : setting.formatters.LeaveTexts) (registry : setting.registry.Opens allowed)
include leaves

theorem write_text (ev : Evaluator) (c : Handle) (s : String) :
    (Evaluator.step setting ev).write c (.text s) .plain = Run.emit s := by
  have noFormatter : setting.formatters.for? (.text s) = none := leaves
  have same : setting.formatters.text (.text s) none = s := by
    rw [Formatters.text, noFormatter]
    rfl
  exact congrArg Run.emit same

include registry

/-- A value that is not null is written as its text is. -/
theorem text_emit {depth : Nat} (opens : a.Opens allowed) (relays : Relays allowed w)
    (same : w.strategy = setting.strategy) {v : Value} (notNull : v.isNull = false)
    (ended : (Evaluator.ofDepth setting depth).write c v .plain ⟨a, ds, w⟩ = .ok n t) :
    ∃ s a₁ ds₁, (Evaluator.ofDepth setting depth).text setting c v ⟨a, ds, w⟩ =
        .ok s ⟨a₁, ds₁, w⟩ ∧ Run.emit s ⟨a₁, ds₁, w⟩ = .ok n t := by
  have drafted := (drafts_ofDepth registry depth).write c v (o := .plain) within_nil
  cases v with
  | text s =>
    cases depth with
    | zero => cases ended
    | succ depth =>
      rw [Evaluator.ofDepth_succ, write_text leaves] at ended
      exact ⟨s, a, ds, rfl, ended⟩
  | null => cases notNull
  | _ =>
    have captured := captured_emit drafted opens relays ended
    rw [same] at captured
    exact captured

/-- The same behind an indentation. -/
theorem text_indented {depth : Nat} (indent? : Option String) (opens : a.Opens allowed)
    (relays : Relays allowed w) (same : w.strategy = setting.strategy) {v : Value}
    (notNull : v.isNull = false)
    (ended : Run.indented indent? ((Evaluator.ofDepth setting depth).write c v .plain)
      ⟨a, ds, w⟩ = .ok n t) :
    ∃ s a₁ ds₁, (Evaluator.ofDepth setting depth).text setting c v ⟨a, ds, w⟩ =
        .ok s ⟨a₁, ds₁, w⟩ ∧ Run.indented indent? (Run.emit s) ⟨a₁, ds₁, w⟩ = .ok n t := by
  cases indent? with
  | none => exact text_emit leaves registry opens relays same notNull ended
  | some indent =>
    simp only [Run.indented] at ended ⊢
    generalize ran : (Evaluator.ofDepth setting depth).write c v .plain
      ⟨a, ds, w.push indent⟩ = r at ended
    cases r with
    | error => cases ended
    | ok m t' =>
      obtain ⟨s, a₁, ds₁, made, emitted⟩ :=
        text_emit leaves registry opens (w := w.push indent) relays same notNull ran
      have silent : Silent allowed Any ((Evaluator.ofDepth setting depth).text setting c v) :=
        silent_text (drafts_ofDepth registry depth) v
      obtain ⟨-, -, -, anywhere⟩ := silent.rerun opens made
      refine ⟨s, a₁, ds₁, anywhere w, ?_⟩
      simp only [emitted]
      exact ended

end Values

/-! ## Chunks -/

theorem render_direct (setting : Setting) (ev : Evaluator) (c : Handle) (e : Expr)
    (indent? : Option String) :
    (Evaluator.step setting ev).render c [.direct e indent?] =
      (do let v ← ev.eval c e; Run.indented indent? (ev.write c v .plain)) := by
  simp only [Evaluator.step, Evaluator.renderStep, Evaluator.renderChunk, Chunk.direct,
    Evaluator.writeOptions, ExprOptions.none, Evaluator.evalOption, pure_bind, Nat.add_zero,
    bind_pure]
  rfl

theorem eval_rendered_null {ev : Evaluator} {e : Expr} {v : Value} {s t : RenderState}
    (evaluated : ev.eval c e s = .ok v t) (isNull : v.isNull = true) :
    (Evaluator.step setting ev).eval c (.rendered e) s = .ok .null t := by
  refine (Run.bind_of_ok _ evaluated).trans ?_
  rw [if_pos isNull]
  rfl

theorem eval_rendered {ev : Evaluator} {e : Expr} {v : Value} {text : String}
    {s t u : RenderState} (evaluated : ev.eval c e s = .ok v t) (notNull : v.isNull = false)
    (made : ev.text setting c v t = .ok text u) :
    (Evaluator.step setting ev).eval c (.rendered e) s = .ok (.text text) u := by
  refine (Run.bind_of_ok _ evaluated).trans ?_
  rw [if_neg (by simp [notNull])]
  exact Run.bind_of_ok _ made

/-- A chunk that is rendered with its expression made a text first comes to the same, one step
deeper. -/
theorem render_eager {depth : Nat} (leaves : setting.formatters.LeaveTexts)
    (registry : setting.registry.Opens allowed) {e : Expr} (within : Within allowed e.indents)
    (indent? : Option String) (opens : a.Opens allowed) (relays : Relays allowed w)
    (same : w.strategy = setting.strategy)
    (ended : (Evaluator.ofDepth setting depth).render c [.direct e indent?] ⟨a, ds, w⟩ = .ok n t) :
    (Evaluator.ofDepth setting (depth + 1)).render c [.eager e indent?] ⟨a, ds, w⟩ = .ok n t := by
  cases depth with
  | zero => cases ended
  | succ depth =>
    have drafts := drafts_ofDepth registry depth
    rw [Evaluator.ofDepth_succ, render_direct] at ended
    obtain ⟨v, ⟨a₁, ds₁, w₁⟩, evaluated, written⟩ := Run.bind_ok ended
    obtain ⟨rfl, opens, -, -⟩ := (drafts.eval c within).rerun opens evaluated
    rw [Evaluator.ofDepth_succ, Chunk.eager, render_direct, Evaluator.ofDepth_succ]
    cases notNull : v.isNull with
    | true =>
      cases v with
      | null =>
        cases depth with
        | zero => cases evaluated
        | succ depth => exact (Run.bind_of_ok _ (eval_rendered_null evaluated rfl)).trans written
      | _ => cases notNull
    | false =>
      obtain ⟨s, a₂, ds₂, made, emitted⟩ :=
        text_indented leaves registry indent? opens relays same notNull written
      rw [Run.bind_of_ok _ (eval_rendered evaluated notNull made), write_text leaves]
      exact emitted

end Eager
end Stencil
