import Stencil.Output.Sink
/-!
# Writers

A writer sends text to a sink. Under `autoIndent` the open indentations come before the first
character of each line; carriage returns and line feeds alone make no line begin.
-/
namespace Stencil

inductive Strategy where
  | autoIndent
  /-- Text goes out as it stands. -/
  | noIndent
  deriving DecidableEq, Repr

namespace Strategy

instance : Inhabited Strategy := ⟨autoIndent⟩

def name : Strategy → String
  | autoIndent => "AutoIndent"
  | noIndent => "NoIndent"

end Strategy

structure Writer where
  strategy : Strategy
  /-- The open indentations, the last one first. -/
  indents : List String
  atLineStart : Bool
  sink : Sink
  deriving DecidableEq, Repr

namespace Writer

def onto (strategy : Strategy) (sink : Sink) : Writer := ⟨strategy, [], true, sink⟩

/-- A writer that takes any amount of text. -/
def fresh (strategy : Strategy) : Writer := onto strategy .unlimited

def text (w : Writer) : String := w.sink.text

def push (w : Writer) (indent : String) : Writer := { w with indents := indent :: w.indents }

def pop (w : Writer) : Writer := { w with indents := w.indents.tail }

theorem pop_push (w : Writer) (indent : String) : (w.push indent).pop = w := rfl

/-- The indentations of a line, in the order in which they were opened. -/
def lineIndents (w : Writer) : List String := w.indents.reverse

/-- How many characters the indentations of a line have. -/
def indentLength (w : Writer) : Nat := (String.join w.lineIndents).length

/-- Begins a line. -/
def beginLine (w : Writer) : Writer × Option Nat :=
  match w.sink.putAll w.lineIndents with
  | (sink, true) => ({ w with sink, atLineStart := false }, some w.indentLength)
  | (sink, false) => ({ w with sink }, none)

/-- Sends one text as it stands and counts its characters. -/
def send (w : Writer) (piece : String) : Writer × Option Nat :=
  match w.sink.put? piece with
  | some sink => ({ w with sink }, some piece.length)
  | none => (w, none)

/-- Writes one character, behind the indentation where a line begins with it. -/
def writeChar (w : Writer) (c : Char) : Writer × Option Nat :=
  if c = '\n' then { w with atLineStart := true }.send c.toString
  else if c ≠ '\r' ∧ w.atLineStart then
    match w.beginLine with
    | (w, some n) => let (w, sent?) := w.send c.toString; (w, sent?.map (n + ·))
    | (w, none) => (w, none)
  else w.send c.toString

/-- Writes characters one at a time, after `written` earlier ones. -/
def writeChars (w : Writer) (written : Nat) : List Char → Writer × Option Nat
  | [] => (w, some written)
  | c :: rest =>
    match w.writeChar c with
    | (w, some n) => writeChars w (written + n) rest
    | (w, none) => (w, none)

/-- Writes a text. The count takes in what indentation was added; there is none if the sink refused
a part. -/
def write (w : Writer) (s : String) : Writer × Option Nat :=
  match w.strategy with
  | .autoIndent => w.writeChars 0 s.toList
  | .noIndent => w.send s

end Writer
end Stencil
