import Stencil.Proofs.Output.Sending
/-!
# Drafts

A draft is what a run writes, told apart from the writer it is written on: texts, one behind
another, some of them inside indentations. The writer settles what the draft comes to, and its sink
how much of it goes through.
-/
namespace Stencil

inductive Draft where
  | blank
  | text (s : String)
  | append (first second : Draft)
  /-- With one more indentation open. -/
  | indented (indent : String) (inner : Draft)

namespace Draft

/-- Writes a draft and counts the characters; there is no count if the sink refused a part. -/
def writeOn : Draft → Writer → Writer × Option Nat
  | blank, w => (w, some 0)
  | text s, w => w.write s
  | append first second, w => Writer.andThen (first.writeOn w) second.writeOn
  | indented indent inner, w =>
    let (after, count?) := inner.writeOn (w.push indent)
    (after.pop, count?)

/-- Whether a line begins behind a draft. -/
def startsAfter (strategy : Strategy) : Draft → Bool → Bool
  | blank, start => start
  | text s, start => strategy.startsAfter start s
  | append first second, start =>
    second.startsAfter strategy (first.startsAfter strategy start)
  | indented _ inner, start => inner.startsAfter strategy start

/-- What a draft comes to, where `indents` are open, the last one first. -/
def layOut (strategy : Strategy) : Draft → List String → Bool → String
  | blank, _, _ => ""
  | text s, indents, start => strategy.layOut indents start s
  | append first second, indents, start =>
    first.layOut strategy indents start ++
      second.layOut strategy indents (first.startsAfter strategy start)
  | indented indent inner, indents, start => inner.layOut strategy (indent :: indents) start

/-- What a draft comes to on a writer. -/
def on (d : Draft) (w : Writer) : String := d.layOut w.strategy w.indents w.atLineStart

open Writer

/-- A writer sends what the draft comes to on it. -/
theorem sends_writeOn (d : Draft) (w : Writer) :
    Sends w (d.on w) (d.startsAfter w.strategy w.atLineStart) (d.writeOn w) := by
  induction d generalizing w with
  | blank => exact sends_nothing w
  | text s => exact sends_write w s
  | append first second ih ih' =>
    exact (ih w).andThen (ih' (w.past (first.on w) (first.startsAfter w.strategy w.atLineStart)))
  | indented indent inner ih =>
    have inside := ih (w.push indent)
    simp only [writeOn]
    generalize inner.writeOn (w.push indent) = sent at inside
    cases inside with
    | whole fits => exact .whole fits
    | part refused split fits sink strategy indents =>
      refine .part refused split fits sink strategy ?_
      rw [pop, indents, push, List.tail_cons]

/-! ## Blank drafts -/

/-- Nothing but empty texts. -/
def isBlank : Draft → Bool
  | blank => true
  | text s => s.isEmpty
  | append first second => first.isBlank && second.isBlank
  | indented _ inner => inner.isBlank

theorem layOut_eq_empty_iff (strategy : Strategy) (d : Draft) (indents : List String)
    (start : Bool) : d.layOut strategy indents start = "" ↔ d.isBlank = true := by
  induction d generalizing indents start with
  | blank => simp [layOut, isBlank]
  | text s =>
    rw [isBlank, String.isEmpty_iff, layOut]
    cases strategy with
    | noIndent => exact Iff.rfl
    | autoIndent =>
      have lines (cs : List Char) :
          Line.indent (String.join indents.reverse).toList start cs = [] ↔ cs = [] := by
        cases cs <;> simp [Line.indent]
      rw [Strategy.layOut, String.ofList_eq_empty_iff, lines, String.toList_eq_nil_iff]
  | append first second ih ih' =>
    rw [layOut, String.append_eq_empty_iff, ih, ih', isBlank, Bool.and_eq_true]
  | indented indent inner ih => exact ih (indent :: indents) start

/-- Whether characters were written does not depend on the writer. -/
theorem count_eq_zero_iff {d : Draft} {w after : Writer} {n : Nat}
    (written : d.writeOn w = (after, some n)) : n = 0 ↔ d.isBlank = true := by
  have sent := sends_writeOn d w
  rw [written] at sent
  cases sent with
  | whole fits => rw [← layOut_eq_empty_iff w.strategy d w.indents w.atLineStart, on,
      String.length_eq_zero_iff]

/-! ## Indentations -/

/-- Every indentation that the draft opens is one of those allowed. -/
def Opens (allowed : String → Prop) : Draft → Prop
  | blank => True
  | text _ => True
  | append first second => first.Opens allowed ∧ second.Opens allowed
  | indented indent inner => allowed indent ∧ inner.Opens allowed

theorem Opens.mono {allowed more : String → Prop} (weaker : ∀ indent, allowed indent → more indent)
    {d : Draft} (opens : d.Opens allowed) : d.Opens more := by
  induction d with
  | blank => trivial
  | text => trivial
  | append first second ih ih' => exact ⟨ih opens.1, ih' opens.2⟩
  | indented indent inner ih => exact ⟨weaker indent opens.1, ih opens.2⟩

end Draft
end Stencil
