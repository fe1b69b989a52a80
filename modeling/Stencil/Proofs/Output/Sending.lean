import Stencil.Output.Writer
/-!
# What a writer sends

What a text comes to behind the open indentations is settled before any of it is sent. A sink takes
it whole if it fits, although it comes in pieces, and otherwise a part of it from its beginning on.
-/
namespace Stencil

/-! ## Lines -/

namespace Line

/-- Whether the line goes on to begin behind a character, `start` telling whether it did before it. -/
def next (start : Bool) (c : Char) : Bool := c = '\n' || c = '\r' && start

/-- The characters of a text with an indentation before the first one of each line, line feeds and
carriage returns apart. `start` tells whether the text itself begins a line. -/
def indent (indentation : List Char) : Bool → List Char → List Char
  | _, [] => []
  | start, c :: rest =>
    (if start && !next start c then indentation else []) ++
      c :: indent indentation (next start c) rest

/-- Whether what comes behind a text begins a line. -/
def startsAfter (start : Bool) (cs : List Char) : Bool := cs.foldl next start

@[simp] theorem startsAfter_nil (start : Bool) : startsAfter start [] = start := rfl

@[simp] theorem startsAfter_cons (start : Bool) (c : Char) (rest : List Char) :
    startsAfter start (c :: rest) = startsAfter (next start c) rest := rfl

theorem startsAfter_append (start : Bool) (cs ds : List Char) :
    startsAfter start (cs ++ ds) = startsAfter (startsAfter start cs) ds :=
  List.foldl_append

theorem indent_append (indentation : List Char) (start : Bool) (cs ds : List Char) :
    indent indentation start (cs ++ ds) =
      indent indentation start cs ++ indent indentation (startsAfter start cs) ds := by
  induction cs generalizing start with
  | nil => rfl
  | cons c rest ih => simp [indent, ih]

theorem indent_nil (start : Bool) (cs : List Char) : indent [] start cs = cs := by
  induction cs generalizing start with
  | nil => rfl
  | cons c rest ih => simp [indent, ih]

end Line

namespace Strategy

/-- What a text comes to, where `indents` are open, the last one first. -/
def layOut (strategy : Strategy) (indents : List String) (start : Bool) (s : String) : String :=
  match strategy with
  | autoIndent => .ofList (Line.indent (String.join indents.reverse).toList start s.toList)
  | noIndent => s

/-- Whether a line begins behind a text. Without indentation a writer does not keep track of it. -/
def startsAfter (strategy : Strategy) (start : Bool) (s : String) : Bool :=
  match strategy with
  | autoIndent => Line.startsAfter start s.toList
  | noIndent => start

/-- Where no indentation is open, a text stays as it is. -/
theorem layOut_nil (strategy : Strategy) (start : Bool) (s : String) :
    strategy.layOut [] start s = s := by
  cases strategy with
  | autoIndent => simp [layOut, Line.indent_nil]
  | noIndent => rfl

end Strategy

namespace Writer

/-- The writer behind a piece of text that its sink has taken. -/
def past (w : Writer) (piece : String) (start : Bool) : Writer :=
  { w with sink := w.sink.append piece, atLineStart := start }

/-- What comes of sending a piece of text: all of it with the number of its characters, or a part
from its beginning on without any. -/
inductive Sends (w : Writer) (piece : String) (start : Bool) : Writer × Option Nat → Prop
  | whole : w.sink.accepts piece = true →
    Sends w piece start (w.past piece start, some piece.length)
  | part {before rest : String} {after : Writer} : w.sink.accepts piece = false →
    piece = before ++ rest → w.sink.accepts before = true →
    after.sink = w.sink.append before → after.strategy = w.strategy →
    after.indents = w.indents → Sends w piece start (after, none)

/-- Goes on after a piece that was taken whole, and adds up the characters. -/
def andThen (sent : Writer × Option Nat) (f : Writer → Writer × Option Nat) :
    Writer × Option Nat :=
  match sent with
  | (w, some n) => ((f w).1, (f w).2.map (n + ·))
  | (w, none) => (w, none)

variable {w : Writer} {piece next : String} {start last : Bool}

theorem Sends.andThen {sent : Writer × Option Nat} {f : Writer → Writer × Option Nat}
    (first : Sends w piece start sent)
    (second : Sends (w.past piece start) next last (f (w.past piece start))) :
    Sends w (piece ++ next) last (andThen sent f) := by
  cases first with
  | whole fits =>
    have both : w.sink.accepts (piece ++ next) =
        (w.past piece start).sink.accepts next := by
      rw [Sink.accepts_append, fits, Bool.true_and]
      rfl
    simp only [Writer.andThen]
    generalize f (w.past piece start) = r at second
    cases second with
    | whole fits' =>
      rw [Option.map_some, ← String.length_append]
      have same : (w.past piece start).past next last = w.past (piece ++ next) last := by
        simp [past, Sink.append_append]
      rw [same]
      exact .whole (both.trans fits')
    | @part before rest after refused split fits' sink strategy indents =>
      have longer : piece ++ next = piece ++ before ++ rest := by rw [split, String.append_assoc]
      refine .part (both.trans refused) longer ?_ ?_ strategy indents
      · rw [Sink.accepts_append, fits, Bool.true_and]
        exact fits'
      · rw [sink, ← Sink.append_append]
        rfl
  | @part before rest after refused split fits sink strategy indents =>
    have longer : piece ++ next = before ++ (rest ++ next) := by rw [split, String.append_assoc]
    refine .part ?_ longer fits sink strategy indents
    rw [Sink.accepts_append, refused, Bool.false_and]

theorem sends_nothing (w : Writer) : Sends w "" w.atLineStart (w, some 0) := by
  have same : w.past "" w.atLineStart = w := by simp [past]
  have sent : Sends w "" w.atLineStart (w.past "" w.atLineStart, some 0) :=
    .whole (Sink.accepts_empty w.sink)
  rwa [same] at sent

theorem sends_send (w : Writer) (piece : String) (start : Bool) :
    Sends w piece start ({ w with atLineStart := start }.send piece) := by
  unfold send
  dsimp only
  rw [Sink.put?_eq]
  cases fits : w.sink.accepts piece with
  | true => exact .whole fits
  | false =>
    have split : piece = "" ++ piece := String.empty_append.symm
    exact .part fits split (Sink.accepts_empty _) (Sink.append_empty _).symm rfl rfl

/-! ## Indentations -/

theorem putAll_cons (s : Sink) (piece : String) (rest : List String) :
    s.putAll (piece :: rest) =
      if s.accepts piece then (s.append piece).putAll rest else (s, false) := by
  rw [Sink.putAll, Sink.put?_eq]
  split <;> simp_all

/-- Pieces are put one by one, but taken together they fit exactly if each of them does. -/
theorem putAll_cases (s : Sink) (pieces : List String) :
    (s.accepts (String.join pieces) = true ∧
      s.putAll pieces = (s.append (String.join pieces), true)) ∨
    ∃ before rest, s.accepts (String.join pieces) = false ∧ String.join pieces = before ++ rest ∧
      s.accepts before = true ∧ s.putAll pieces = (s.append before, false) := by
  induction pieces generalizing s with
  | nil => exact Or.inl ⟨Sink.accepts_empty s, by simp [Sink.putAll]⟩
  | cons piece rest ih =>
    rw [putAll_cons, String.join_cons, Sink.accepts_append]
    cases fits : s.accepts piece with
    | true =>
      rcases ih (s.append piece) with ⟨others, put⟩ | ⟨before, after, refused, split, taken, put⟩
      · exact Or.inl ⟨by rw [others]; rfl, by rw [if_pos rfl, put, Sink.append_append]⟩
      · refine Or.inr ⟨piece ++ before, after, by rw [refused]; rfl, ?_, ?_, ?_⟩
        · rw [split, String.append_assoc]
        · rw [Sink.accepts_append, fits, taken]
          rfl
        · rw [if_pos rfl, put, Sink.append_append]
    | false =>
      exact Or.inr ⟨"", piece ++ String.join rest, rfl, (String.empty_append).symm,
        Sink.accepts_empty s, by simp⟩

theorem sends_beginLine (w : Writer) :
    Sends w (String.join w.lineIndents) false w.beginLine := by
  unfold beginLine
  rcases putAll_cases w.sink w.lineIndents with
    ⟨fits, put⟩ | ⟨before, rest, refused, split, taken, put⟩
  · rw [put]
    exact .whole fits
  · rw [put]
    exact .part refused split taken rfl rfl rfl

/-! ## Texts -/

/-- One character, with the indentations before it if a line begins with it. -/
theorem sends_writeChar (w : Writer) (c : Char) :
    Sends w (.ofList (Line.indent (String.join w.lineIndents).toList w.atLineStart [c]))
      (Line.next w.atLineStart c) (w.writeChar c) := by
  have alone : String.ofList [c] = c.toString := rfl
  unfold writeChar
  simp only [Line.indent, String.ofList_append]
  by_cases newline : c = '\n'
  · have next : Line.next w.atLineStart c = true := by simp [Line.next, newline]
    rw [if_pos newline, next, alone, Bool.not_true, Bool.and_false, if_neg Bool.false_ne_true]
    simpa using sends_send w c.toString true
  · by_cases begins : c ≠ '\r' ∧ w.atLineStart = true
    · have next : Line.next w.atLineStart c = false := by simp [Line.next, newline, begins.1]
      have line := (sends_beginLine w).andThen (f := fun w => w.send c.toString)
        (sends_send (w.past (String.join w.lineIndents) false) c.toString false)
      rw [if_neg newline, if_pos begins, next, begins.2, alone, Bool.not_false, Bool.and_true,
        if_pos rfl, String.ofList_toList]
      exact line
    · have next : Line.next w.atLineStart c = w.atLineStart := by
        cases start : w.atLineStart <;> simp_all [Line.next]
      rw [if_neg newline, if_neg begins, next, alone]
      simpa using sends_send w c.toString w.atLineStart

/-- The count of earlier characters is only added. -/
theorem writeChars_eq (w : Writer) (written : Nat) (cs : List Char) :
    w.writeChars written cs =
      ((w.writeChars 0 cs).1, (w.writeChars 0 cs).2.map (written + ·)) := by
  induction cs generalizing w written with
  | nil => rfl
  | cons c rest ih =>
    rw [writeChars, writeChars]
    rcases w.writeChar c with ⟨w, _ | n⟩
    · rfl
    · dsimp only
      rw [ih w (written + n), ih w (0 + n), Option.map_map]
      simp only [Nat.zero_add, Function.comp_def, Nat.add_assoc]

theorem writeChars_cons (w : Writer) (c : Char) (rest : List Char) :
    w.writeChars 0 (c :: rest) = andThen (w.writeChar c) fun w => w.writeChars 0 rest := by
  unfold andThen
  rw [writeChars]
  rcases w.writeChar c with ⟨w, _ | n⟩
  · rfl
  · dsimp only
    rw [writeChars_eq, Nat.zero_add]

theorem sends_writeChars (w : Writer) (cs : List Char) :
    Sends w (.ofList (Line.indent (String.join w.lineIndents).toList w.atLineStart cs))
      (Line.startsAfter w.atLineStart cs) (w.writeChars 0 cs) := by
  induction cs generalizing w with
  | nil => exact sends_nothing w
  | cons c rest ih =>
    have parts := Line.indent_append (String.join w.lineIndents).toList w.atLineStart [c] rest
    rw [List.singleton_append] at parts
    rw [writeChars_cons, parts, String.ofList_append]
    exact (sends_writeChar w c).andThen (ih _)

/-- What comes of writing a text. -/
theorem sends_write (w : Writer) (s : String) :
    Sends w (w.strategy.layOut w.indents w.atLineStart s)
      (w.strategy.startsAfter w.atLineStart s) (w.write s) := by
  unfold write Strategy.layOut Strategy.startsAfter
  cases w.strategy with
  | autoIndent => exact sends_writeChars w s.toList
  | noIndent => exact sends_send w s w.atLineStart

theorem strategy_write (w : Writer) (s : String) : (w.write s).1.strategy = w.strategy := by
  have sent := sends_write w s
  generalize w.write s = r at sent
  cases sent with
  | whole => rfl
  | part _ _ _ _ strategy => exact strategy

end Writer
end Stencil
