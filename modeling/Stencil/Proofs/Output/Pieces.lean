import Stencil.Proofs.Output.Draft
/-!
# The pieces that a sink gets

A writer hands its text to the sink in pieces: a character at a time and indentations one by one,
or each text as it stands. What the pieces are is settled before the first of them is put; writing
fails exactly if the sink refuses one.
-/
namespace Stencil

namespace Sink

theorem putAll_append (s : Sink) (pieces more : List String) :
    s.putAll (pieces ++ more) =
      match s.putAll pieces with
      | (t, true) => t.putAll more
      | (t, false) => (t, false) := by
  induction pieces generalizing s with
  | nil => rfl
  | cons piece rest ih =>
    rw [List.cons_append, putAll, putAll]
    cases s.put? piece with
    | some t => exact ih t
    | none => rfl

/-- A sink that has not taken all pieces is left with those before the first one that it refuses. -/
theorem refused_of_putAll {s t : Sink} {pieces : List String} (put : s.putAll pieces = (t, false)) :
    ∃ taken refused rest, pieces = taken ++ refused :: rest ∧ t = s.append (String.join taken) ∧
      t.put? refused = none := by
  induction pieces generalizing s with
  | nil => cases put
  | cons piece rest ih =>
    rw [Writer.putAll_cons] at put
    split at put
    · obtain ⟨taken, refused, others, split, left, full⟩ := ih put
      refine ⟨piece :: taken, refused, others, congrArg (piece :: ·) split, ?_, full⟩
      rw [left, append_append, String.join_cons]
    · rename_i full
      cases put
      exact ⟨[], piece, rest, rfl, (append_empty _).symm, if_neg full⟩

end Sink

/-- The pieces in which characters are put, `indents` in the order of a line. -/
def Line.pieces (indents : List String) : Bool → List Char → List String
  | _, [] => []
  | start, c :: rest =>
    (if start && !next start c then indents else []) ++
      c.toString :: pieces indents (next start c) rest

theorem Line.pieces_cons (indents : List String) (start : Bool) (c : Char) (rest : List Char) :
    pieces indents start (c :: rest) =
      pieces indents start [c] ++ pieces indents (next start c) rest := by
  simp [pieces]

/-- The pieces in which a text is put, where `indents` are open, the last one first. -/
def Strategy.pieces (strategy : Strategy) (indents : List String) (start : Bool) (s : String) :
    List String :=
  match strategy with
  | autoIndent => Line.pieces indents.reverse start s.toList
  | noIndent => [s]

namespace Writer

/-- The pieces went to the sink one after another, until it refused one. -/
def Puts (w : Writer) (pieces : List String) (sent : Writer × Option Nat) : Prop :=
  w.sink.putAll pieces = (sent.1.sink, sent.2.isSome)

variable {w : Writer} {pieces more : List String}

theorem Puts.andThen {sent : Writer × Option Nat} {f : Writer → Writer × Option Nat}
    (first : Puts w pieces sent)
    (second : ∀ after n, sent = (after, some n) → Puts after more (f after)) :
    Puts w (pieces ++ more) (andThen sent f) := by
  unfold Puts at first
  rcases sent with ⟨after, _ | n⟩
  · rw [Puts, Sink.putAll_append, first]
    rfl
  · have next := second after n rfl
    rw [Puts, Sink.putAll_append, first, Writer.andThen, Option.isSome_map]
    exact next

theorem puts_send (w : Writer) (piece : String) : Puts w [piece] (w.send piece) := by
  unfold Puts send
  rw [Sink.putAll]
  cases w.sink.put? piece <;> rfl

theorem puts_beginLine (w : Writer) : Puts w w.lineIndents w.beginLine := by
  unfold Puts beginLine
  rcases w.sink.putAll w.lineIndents with ⟨sink, _ | _⟩ <;> rfl

/-- One character, with the indentations before it if a line begins with it. -/
theorem puts_writeChar (w : Writer) (c : Char) :
    Puts w (Line.pieces w.lineIndents w.atLineStart [c]) (w.writeChar c) := by
  unfold writeChar
  simp only [Line.pieces]
  by_cases newline : c = '\n'
  · have next : Line.next w.atLineStart c = true := by simp [Line.next, newline]
    rw [if_pos newline, next, Bool.not_true, Bool.and_false, if_neg Bool.false_ne_true]
    exact puts_send { w with atLineStart := true } c.toString
  · by_cases begins : c ≠ '\r' ∧ w.atLineStart = true
    · have next : Line.next w.atLineStart c = false := by simp [Line.next, newline, begins.1]
      rw [if_neg newline, if_pos begins, next, begins.2, Bool.not_false, Bool.and_true,
        if_pos rfl]
      exact (puts_beginLine w).andThen (f := fun w => w.send c.toString)
        fun after _ _ => puts_send after c.toString
    · have next : Line.next w.atLineStart c = w.atLineStart := by
        cases start : w.atLineStart <;> simp_all [Line.next]
      rw [if_neg newline, if_neg begins, next, Bool.and_not_self, if_neg Bool.false_ne_true]
      exact puts_send w c.toString

theorem puts_writeChars (w : Writer) (cs : List Char) :
    Puts w (Line.pieces w.lineIndents w.atLineStart cs) (w.writeChars 0 cs) := by
  induction cs generalizing w with
  | nil => rfl
  | cons c rest ih =>
    rw [writeChars_cons, Line.pieces_cons]
    refine (puts_writeChar w c).andThen fun after n sent => ?_
    have behind := sends_writeChar w c
    rw [sent] at behind
    cases behind
    exact ih _

theorem puts_write (w : Writer) (s : String) :
    Puts w (w.strategy.pieces w.indents w.atLineStart s) (w.write s) := by
  unfold write Strategy.pieces
  cases w.strategy with
  | autoIndent => exact puts_writeChars w s.toList
  | noIndent => exact puts_send w s

end Writer

namespace Draft

/-- The pieces in which a draft is put, where `indents` are open, the last one first. -/
def pieces (strategy : Strategy) : Draft → List String → Bool → List String
  | blank, _, _ => []
  | text s, indents, start => strategy.pieces indents start s
  | append first second, indents, start =>
    first.pieces strategy indents start ++
      second.pieces strategy indents (first.startsAfter strategy start)
  | indented indent inner, indents, start => inner.pieces strategy (indent :: indents) start

theorem puts_writeOn (d : Draft) (w : Writer) :
    w.Puts (d.pieces w.strategy w.indents w.atLineStart) (d.writeOn w) := by
  induction d generalizing w with
  | blank => rfl
  | text s => exact w.puts_write s
  | append first second ih ih' =>
    refine (ih w).andThen fun after n sent => ?_
    have behind := first.sends_writeOn w
    rw [sent] at behind
    cases behind
    exact ih' _
  | indented indent inner ih => exact ih (w.push indent)

end Draft
end Stencil
