import Stencil.Proofs.Output.Layers
/-!
# Lines

Indentations may be opened and closed anywhere between two texts, in the middle of a line too. What
an indenting writer makes of that is told line by line: the indentation that is open at the first
character of a line other than a carriage return stands before that character, and nothing else is
added.
-/
namespace Stencil

/-- A character with the indentation that is open where it is written. -/
structure Glyph where
  char : Char
  indentation : List Char

namespace Line

/-- A line that is laid out from its beginning. -/
def laidOut (line : List Glyph) : List Char :=
  (line.takeWhile (·.char = '\r')).map Glyph.char ++
    match line.dropWhile (·.char = '\r') with
    | [] => []
    | first :: rest => first.indentation ++ first.char :: rest.map Glyph.char

/-- A line that is laid out from some place on, `start` telling whether that is its beginning. -/
def laidOutFrom (start : Bool) (line : List Glyph) : List Char :=
  if start then laidOut line else line.map Glyph.char

/-- Lines, the first of which may have begun before. -/
def linesFrom (start : Bool) : List (List Glyph) → List (List Char)
  | [] => []
  | first :: rest => laidOutFrom start first :: rest.map laidOut

/-- Glyphs in lines, `start` telling whether the first of them begins a line. -/
def layOut (start : Bool) (glyphs : List Glyph) : List Char :=
  ['\n'].intercalate (linesFrom start (glyphs.splitOnP (·.char = '\n')))

variable {g : Glyph}

/-- A character other than a line feed in front of the rest of its line. -/
theorem laidOutFrom_cons (inLine : g.char ≠ '\n') (start : Bool) (line : List Glyph) :
    laidOutFrom start (g :: line) =
      (if start && !next start g.char then g.indentation else []) ++
        g.char :: laidOutFrom (next start g.char) line := by
  cases start with
  | false => simp [laidOutFrom, next, inLine]
  | true =>
    by_cases return_ : g.char = '\r'
    · simp [laidOutFrom, laidOut, next, return_]
    · simp [laidOutFrom, laidOut, next, inLine, return_]

/-- Text in front of the first line of several. -/
theorem intercalate_append_head (front line : List Char) (lines : List (List Char)) :
    ['\n'].intercalate ((front ++ line) :: lines) =
      front ++ ['\n'].intercalate (line :: lines) := by
  cases lines <;> simp [List.intercalate]

theorem exists_lines (glyphs : List Glyph) :
    ∃ line lines, glyphs.splitOnP (·.char = '\n') = line :: lines :=
  List.exists_cons_of_ne_nil (List.splitOnP_ne_nil _ glyphs)

theorem layOut_cons (start : Bool) (g : Glyph) (rest : List Glyph) :
    layOut start (g :: rest) =
      (if start && !next start g.char then g.indentation else []) ++
        g.char :: layOut (next start g.char) rest := by
  obtain ⟨line, lines, split⟩ := exists_lines rest
  by_cases newline : g.char = '\n'
  · have next : next start g.char = true := by simp [next, newline]
    have nothing : laidOutFrom start [] = [] := by cases start <;> rfl
    have apart : (g :: rest).splitOnP (·.char = '\n') = [] :: line :: lines := by
      rw [List.splitOnP_cons_eq_if_modifyHead, if_pos (decide_eq_true newline), split]
    rw [next, layOut, apart, layOut, split, linesFrom, linesFrom, nothing, List.map_cons, newline,
      List.intercalate_cons_cons]
    simp [laidOutFrom]
  · have within : (g :: rest).splitOnP (·.char = '\n') = (g :: line) :: lines := by
      rw [List.splitOnP_cons_eq_if_modifyHead, if_neg (by simp [newline]), split,
        List.modifyHead_cons]
    rw [layOut, within, layOut, split, linesFrom, linesFrom, laidOutFrom_cons newline,
      List.append_cons, intercalate_append_head, ← List.append_cons]

@[simp] theorem layOut_nil (start : Bool) : layOut start [] = [] := by
  cases start <;> rfl

/-- Lines come out of glyphs one by one, if only it is known whether a line begins. -/
theorem layOut_append (start : Bool) (gs hs : List Glyph) :
    layOut start (gs ++ hs) =
      layOut start gs ++ layOut (startsAfter start (gs.map Glyph.char)) hs := by
  induction gs generalizing start with
  | nil => simp
  | cons g rest ih => simp [layOut_cons, ih]

/-- Where one indentation is open, it is the one that a writer puts before each line. -/
theorem layOut_map (indentation : List Char) (start : Bool) (cs : List Char) :
    layOut start (cs.map (⟨·, indentation⟩)) = indent indentation start cs := by
  induction cs generalizing start with
  | nil => simp [indent]
  | cons c rest ih => rw [List.map_cons, layOut_cons, ih, indent]

end Line

/-- What is done with a writer. -/
inductive Operation where
  | push (indent : String)
  | pop
  | write (s : String)

/-- The characters that operations write, where `indents` are open at first, the last one first. -/
def Operation.glyphs (indents : List String) : List Operation → List Glyph
  | [] => []
  | push indent :: rest => glyphs (indent :: indents) rest
  | pop :: rest => glyphs indents.tail rest
  | write s :: rest =>
    s.toList.map (⟨·, (String.join indents.reverse).toList⟩) ++ glyphs indents rest

namespace Writer

def perform (w : Writer) : Operation → Writer × Option Nat
  | .push indent => (w.push indent, some 0)
  | .pop => (w.pop, some 0)
  | .write s => w.write s

/-- Performs operations one after another and adds up what the writes have counted. There is no sum
if the sink refused a part. -/
def run (w : Writer) : List Operation → Writer × Option Nat
  | [] => (w, some 0)
  | operation :: rest => andThen (w.perform operation) fun w => w.run rest

variable {w : Writer}

/-- A text goes out whole where the sink has no limit. -/
theorem write_of_unlimited (unlimited : w.sink.limit? = none) (s : String) :
    w.write s = (w.past (w.strategy.layOut w.indents w.atLineStart s)
      (w.strategy.startsAfter w.atLineStart s),
      some (w.strategy.layOut w.indents w.atLineStart s).length) := by
  have sent := sends_write w s
  generalize w.write s = r at sent
  cases sent with
  | whole => rfl
  | part refused =>
    rw [Sink.accepts_of_limit?_eq_none unlimited] at refused
    cases refused

theorem write_append (unlimited : w.sink.limit? = none) (s t : String) :
    w.write (s ++ t) = andThen (w.write s) fun w => w.write t := by
  rw [write_of_unlimited unlimited s, andThen,
    write_of_unlimited (w := w.past _ _) unlimited t, write_of_unlimited unlimited (s ++ t)]
  simp [past, Strategy.layOut_append, Strategy.startsAfter_append, Sink.append_append]

/-- It does not matter in how many pieces a text is written. -/
theorem run_writes (unlimited : w.sink.limit? = none) (pieces : List String) :
    w.run (pieces.map .write) = w.write (String.join pieces) := by
  induction pieces generalizing w with
  | nil =>
    rw [String.join_nil, write_of_unlimited unlimited]
    obtain ⟨nothing, start⟩ := w.strategy.layOut_empty w.indents w.atLineStart
    rw [nothing, start]
    simp [run, past]
  | cons piece rest ih =>
    rw [String.join_cons, write_append unlimited, List.map_cons, run, perform,
      write_of_unlimited unlimited, andThen, andThen, ih (w := w.past _ _) unlimited]

/-- A write goes on with the glyphs of its own. -/
theorem glyphs_write (indents : List String) (s : String) (rest : List Operation) (start : Bool) :
    String.ofList (Line.layOut start (Operation.glyphs indents (.write s :: rest))) =
      Strategy.autoIndent.layOut indents start s ++
        String.ofList (Line.layOut (Strategy.autoIndent.startsAfter start s)
          (Operation.glyphs indents rest)) := by
  have characters : (s.toList.map (⟨·, (String.join indents.reverse).toList⟩)).map Glyph.char =
      s.toList := by
    simp [Function.comp_def]
  rw [Operation.glyphs, Line.layOut_append, Line.layOut_map, characters, String.ofList_append]
  rfl

theorem run_lays_out (auto : w.strategy = .autoIndent) (unlimited : w.sink.limit? = none)
    (operations : List Operation) :
    let text := String.ofList (Line.layOut w.atLineStart (Operation.glyphs w.indents operations))
    (w.run operations).1.sink = w.sink.append text ∧ (w.run operations).2 = some text.length := by
  induction operations generalizing w with
  | nil => simp [run, Operation.glyphs]
  | cons operation rest ih =>
    cases operation with
    | push indent =>
      obtain ⟨sink, count⟩ := ih (w := w.push indent) auto unlimited
      rw [run, perform, andThen, count]
      exact ⟨sink, by rw [Option.map_some, Nat.zero_add]; rfl⟩
    | pop =>
      obtain ⟨sink, count⟩ := ih (w := w.pop) auto unlimited
      rw [run, perform, andThen, count]
      exact ⟨sink, by rw [Option.map_some, Nat.zero_add]; rfl⟩
    | write s =>
      let behind := w.past (w.strategy.layOut w.indents w.atLineStart s)
        (w.strategy.startsAfter w.atLineStart s)
      obtain ⟨sink, count⟩ := ih (w := behind) auto unlimited
      rw [run, perform, write_of_unlimited unlimited, andThen, count, sink, glyphs_write]
      simp [behind, past, Sink.append_append, auto]

end Writer

/-- Whatever indentations are opened and closed between the texts, a writer lays their characters
out in lines and counts what it appends; and it does not matter in how many pieces a text comes. -/
theorem writer_indents_lines {w : Writer} (auto : w.strategy = .autoIndent)
    (unlimited : w.sink.limit? = none) :
    (∀ operations,
      let appended := String.ofList
        (Line.layOut w.atLineStart (Operation.glyphs w.indents operations))
      (w.run operations).1.text = w.text ++ appended ∧
        (w.run operations).2 = some appended.length) ∧
    ∀ pieces, w.run (pieces.map .write) = w.run [.write (String.join pieces)] := by
  constructor
  · intro operations
    obtain ⟨sink, count⟩ := Writer.run_lays_out auto unlimited operations
    exact ⟨congrArg Sink.text sink, count⟩
  · intro pieces
    have whole := Writer.run_writes unlimited [String.join pieces]
    rw [Writer.run_writes unlimited pieces]
    simpa using whole.symm

/-- An indentation is opened between a carriage return and the first character behind it, and closed
in the middle of the line. -/
theorem split_line_indented_once :
    let w : Writer := ⟨.autoIndent, [">"], true, ⟨"a\n", none⟩⟩
    let operations : List Operation :=
      [.write "\r", .push "\t", .write "b", .pop, .write "c\r\n\n", .write "", .write "d"]
    (w.run operations).1.text = "a\n\r>\tbc\r\n\n>d" ∧ (w.run operations).2 = some 10 ∧
      w.run [.write "é\r", .write "\nb"] = w.run [.write "é\r\nb"] := by
  intro w operations
  obtain ⟨laidOut, pieces⟩ := writer_indents_lines (w := w) rfl rfl
  obtain ⟨text, count⟩ := laidOut operations
  exact ⟨text.trans (by decide +kernel), count.trans (by decide +kernel),
    pieces ["é\r", "\nb"]⟩

end Stencil
