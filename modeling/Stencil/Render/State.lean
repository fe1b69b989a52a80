import Stencil.Arena
import Stencil.Error
import Stencil.Formatter
import Stencil.Output.Writer
import Stencil.Registry
/-!
# The state of a render

A render changes an arena, collects diagnostics and writes text. It stops early where an error is
fatal, and where it would go deeper than it may.
-/
namespace Stencil

/-- What a render takes from its surroundings. -/
structure Setting where
  registry : Registry
  formatters : Formatters
  /-- Whether a template that encloses itself is an error. -/
  strict : Bool
  /-- Stands for every line end of a template. -/
  lineSeparator? : Option String
  strategy : Strategy

namespace Setting

def standard : Setting := ⟨.none, .standard, false, none, .autoIndent⟩

instance : Inhabited Setting := ⟨standard⟩

def newline (s : Setting) (source : String) : String := s.lineSeparator?.getD source

end Setting

/-- Why a render stopped. -/
inductive Stop where
  | fatal (e : TemplateError)
  /-- The render was to go deeper than it may. -/
  | tooDeep
  deriving DecidableEq, Repr

structure RenderState where
  arena : Arena
  /-- The errors that the render went on after, in their order. -/
  diagnostics : List TemplateError
  writer : Writer

abbrev Run := EStateM Stop RenderState

namespace Run

def arena : Run Arena := fun s => .ok s.arena s

def changeArena (f : Arena → Arena) : Run Unit := fun s => .ok () { s with arena := f s.arena }

/-- Adds an activation to the arena. -/
def enter (f : Arena → Handle × Arena) : Run Handle := fun s =>
  let (h, arena) := f s.arena
  .ok h { s with arena }

def report (e : TemplateError) : Run Unit := fun s =>
  .ok () { s with diagnostics := s.diagnostics ++ [e] }

def stop {α : Type} (cause : Stop) : Run α := fun s => .error cause s

/-- Writes a text and counts the characters. -/
def emit (text : String) : Run Nat := fun s =>
  match s.writer.write text with
  | (writer, some n) => .ok n { s with writer }
  | (writer, none) => .error (.fatal .sinkFull) { s with writer }

/-- Runs with one more indentation open, if one is given, which is closed however the run ends. -/
def indented {α : Type} (indent? : Option String) (run : Run α) : Run α :=
  match indent? with
  | none => run
  | some indent => fun s =>
    match run { s with writer := s.writer.push indent } with
    | .ok a t => .ok a { t with writer := t.writer.pop }
    | .error e t => .error e { t with writer := t.writer.pop }

/-- Runs on a fresh writer that takes any amount of text, and gives what was written on it. -/
def captured {α : Type} (strategy : Strategy) (run : Run α) : Run String := fun s =>
  match run { s with writer := .fresh strategy } with
  | .ok _ t => .ok t.writer.text { t with writer := s.writer }
  | .error e t => .error e { t with writer := s.writer }

end Run
end Stencil
