import Stencil.Proofs.Output.Draft
/-!
# Indentation in layers

A text that was laid out on its own may be laid out again where more indentations are open. It comes
to the same as if all of them had been open from the start, provided that no indentation has a line
end in it: an inner indentation makes the outer ones stand before itself, and a line that is blank
is left alone by both.
-/
namespace Stencil

/-- There is no line end in the indentation. -/
def Unbroken (indent : String) : Prop := ∀ c ∈ indent.toList, c ≠ '\n' ∧ c ≠ '\r'

instance : DecidablePred Unbroken := fun indent =>
  List.decidableBAll (fun c => c ≠ '\n' ∧ c ≠ '\r') indent.toList

namespace Line

variable {inner : List Char} (unbroken : ∀ c ∈ inner, c ≠ '\n' ∧ c ≠ '\r')
include unbroken

/-- No line begins inside an indentation that stands in a line. -/
theorem indent_of_unbroken (outer : List Char) :
    indent outer false inner = inner ∧ startsAfter false inner = false := by
  induction inner with
  | nil => exact ⟨rfl, rfl⟩
  | cons c rest ih =>
    obtain ⟨first, others⟩ := List.forall_mem_cons.1 unbroken
    have inLine : next false c = false := by simp [next, first]
    obtain ⟨same, starts⟩ := ih others
    refine ⟨?_, ?_⟩
    · rw [indent, inLine, same]
      rfl
    · rw [startsAfter_cons, inLine, starts]

/-- The outer indentation comes before the inner one, and before what stands behind it in case it
is empty. -/
theorem indent_indentation (outer : List Char) {c : Char} (begins : next true c = false)
    (behind : List Char) :
    indent outer true (inner ++ c :: behind) =
      outer ++ inner ++ c :: indent outer false behind ∧
    startsAfter true (inner ++ c :: behind) = startsAfter false behind := by
  cases inner with
  | nil => simp [indent, begins]
  | cons first rest =>
    obtain ⟨here, others⟩ := List.forall_mem_cons.1 unbroken
    have inLine : next true first = false := by simp [next, here]
    have notNewline : c ≠ '\n' := by
      rintro rfl
      simp [next] at begins
    have goesOn : next false c = false := by simp [next, notNewline]
    obtain ⟨same, starts⟩ := indent_of_unbroken others outer
    refine ⟨?_, ?_⟩
    · rw [List.cons_append, indent, inLine, indent_append, same, starts, indent, goesOn]
      simp
    · rw [List.cons_append, startsAfter_cons, inLine, startsAfter_append, starts,
        startsAfter_cons, goesOn]

theorem indent_indent (outer : List Char) (start : Bool) (cs : List Char) :
    indent outer start (indent inner start cs) = indent (outer ++ inner) start cs ∧
      startsAfter start (indent inner start cs) = startsAfter start cs := by
  induction cs generalizing start with
  | nil => exact ⟨rfl, rfl⟩
  | cons c rest ih =>
    obtain ⟨same, starts⟩ := ih (next start c)
    cases start with
    | false =>
      simp only [indent, Bool.false_and, Bool.false_eq_true, if_false, List.nil_append,
        startsAfter_cons]
      exact ⟨by rw [same], starts⟩
    | true =>
      cases begins : next true c with
      | true =>
        rw [begins] at same starts
        simp only [indent, begins, Bool.not_true, Bool.and_false, Bool.false_eq_true, if_false,
          List.nil_append, startsAfter_cons]
        exact ⟨by rw [same], starts⟩
      | false =>
        rw [begins] at same starts
        obtain ⟨line, after⟩ := indent_indentation unbroken outer begins (indent inner false rest)
        simp only [indent, begins, Bool.not_false, Bool.and_self, if_true, startsAfter_cons]
        exact ⟨by rw [line, same], by rw [after, starts]⟩

end Line

namespace Strategy

theorem startsAfter_append (strategy : Strategy) (start : Bool) (s t : String) :
    strategy.startsAfter start (s ++ t) =
      strategy.startsAfter (strategy.startsAfter start s) t := by
  cases strategy with
  | noIndent => rfl
  | autoIndent =>
    rw [startsAfter, String.toList_append, Line.startsAfter_append]
    rfl

theorem layOut_append (strategy : Strategy) (indents : List String) (start : Bool)
    (s t : String) :
    strategy.layOut indents start (s ++ t) =
      strategy.layOut indents start s ++
        strategy.layOut indents (strategy.startsAfter start s) t := by
  cases strategy with
  | noIndent => rfl
  | autoIndent =>
    rw [layOut, String.toList_append, Line.indent_append, String.ofList_append]
    rfl

theorem layOut_empty (strategy : Strategy) (indents : List String) (start : Bool) :
    strategy.layOut indents start "" = "" ∧ strategy.startsAfter start "" = start := by
  cases strategy <;> exact ⟨rfl, rfl⟩

theorem layOut_layOut (strategy : Strategy) {inner : List String}
    (unbroken : ∀ indent ∈ inner, Unbroken indent) (outer : List String) (start : Bool)
    (s : String) :
    strategy.layOut outer start (strategy.layOut inner start s) =
        strategy.layOut (inner ++ outer) start s ∧
      strategy.startsAfter start (strategy.layOut inner start s) =
        strategy.startsAfter start s := by
  cases strategy with
  | noIndent => exact ⟨rfl, rfl⟩
  | autoIndent =>
    have joined : ∀ c ∈ (String.join inner.reverse).toList, c ≠ '\n' ∧ c ≠ '\r' := by
      intro c member
      rw [String.toList_join, List.mem_flatMap] at member
      obtain ⟨indent, opened, member⟩ := member
      exact unbroken indent (List.mem_reverse.1 opened) c member
    obtain ⟨same, starts⟩ := Line.indent_indent joined (String.join outer.reverse).toList start
      s.toList
    simp only [layOut, startsAfter, String.toList_ofList]
    refine ⟨?_, starts⟩
    rw [same, List.reverse_append, String.join_append, String.toList_append]

end Strategy

namespace Draft

/-- What a draft comes to inside some indentations may be written inside others. -/
theorem layOut_nested (strategy : Strategy) {d : Draft} (opens : d.Opens Unbroken)
    {inner : List String} (unbroken : ∀ indent ∈ inner, Unbroken indent) (outer : List String)
    (start : Bool) :
    strategy.layOut outer start (d.layOut strategy inner start) =
        d.layOut strategy (inner ++ outer) start ∧
      strategy.startsAfter start (d.layOut strategy inner start) =
        d.startsAfter strategy start := by
  induction d generalizing inner start with
  | blank => exact strategy.layOut_empty outer start
  | text s => exact strategy.layOut_layOut unbroken outer start s
  | append first second ih ih' =>
    obtain ⟨same, starts⟩ := ih opens.1 unbroken start
    obtain ⟨same', starts'⟩ := ih' opens.2 unbroken (first.startsAfter strategy start)
    refine ⟨?_, ?_⟩
    · rw [layOut, layOut, Strategy.layOut_append, same, starts, same']
    · rw [layOut, startsAfter, Strategy.startsAfter_append, starts, starts']
  | indented indent d ih =>
    exact ih opens.2 (List.forall_mem_cons.2 ⟨opens.1, unbroken⟩) start

/-- Without indentation a draft comes to the same everywhere. -/
theorem layOut_noIndent (d : Draft) (indents indents' : List String) (start start' : Bool) :
    d.layOut .noIndent indents start = d.layOut .noIndent indents' start' ∧
      d.startsAfter .noIndent start = start := by
  induction d generalizing indents indents' start start' with
  | blank => exact ⟨rfl, rfl⟩
  | text s => exact ⟨rfl, rfl⟩
  | append first second ih ih' =>
    obtain ⟨same, starts⟩ := ih indents indents' start start'
    obtain ⟨same', starts'⟩ := ih' indents indents' (first.startsAfter .noIndent start)
      (first.startsAfter .noIndent start')
    refine ⟨?_, ?_⟩
    · rw [layOut, layOut, same, same']
    · rw [startsAfter, starts', starts]
  | indented indent d ih => exact ih (indent :: indents) (indent :: indents') start start'

/-- A text that is made on a fresh writer may be written in place of its draft, where a line begins
or nothing is indented. -/
theorem layOut_fresh {d : Draft} {w : Writer}
    (place : w.strategy = .noIndent ∨ w.atLineStart = true ∧ d.Opens Unbroken) :
    w.strategy.layOut w.indents w.atLineStart (d.on (.fresh w.strategy)) = d.on w ∧
      w.strategy.startsAfter w.atLineStart (d.on (.fresh w.strategy)) =
        d.startsAfter w.strategy w.atLineStart := by
  unfold on Writer.fresh Writer.onto
  dsimp only
  rcases place with noIndent | ⟨starts, opens⟩
  · rw [noIndent]
    obtain ⟨same, start⟩ := layOut_noIndent d [] w.indents true w.atLineStart
    obtain ⟨-, start'⟩ := layOut_noIndent d [] w.indents w.atLineStart true
    exact ⟨same, start'.symm⟩
  · rw [starts]
    exact layOut_nested w.strategy opens (List.forall_mem_nil _) w.indents true

end Draft
end Stencil
