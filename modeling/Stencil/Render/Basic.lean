import Stencil.Value.ListFunction
import Stencil.Render.Call
/-!
# Rendering

One step of evaluating an expression, writing a value and rendering chunks, and the evaluators that
take a number of steps. `render` writes the template of an activation.
-/
namespace Stencil

namespace Evaluator

variable (setting : Setting) (ev : Evaluator)

/-- The elements that a value puts into the list that is made of it. -/
def spread : Value → List Value
  | .list items => items
  | .map entries => Table.values entries
  | v => [v]

def evalItems (scope : Handle) : List Expr → Run (List Value)
  | [] => return []
  | e :: rest => do
    let v ← ev.eval scope e
    let items ← evalItems scope rest
    return spread v ++ items

def evalStep (scope : Handle) : Expr → Run Value
  | .attribute name => Run.resolveAttribute scope name
  | .number n => return .int n
  | .text s => return .text s
  | .concat left right => do
    let a ← ev.eval scope left
    let b ← ev.eval scope right
    ev.concat setting scope a b
  | .property target name => do
    let v ← ev.eval scope target
    let name ←
      match name with
      | .fixed name => pure name
      | .computed e => ev.evalText setting scope e
    Run.resolveProperty v name
  | .call t args => ev.call setting scope t args
  | .apply source templates => ev.applyRotating setting scope source templates
  | .applyAligned sources ref => ev.applyAligned setting scope sources ref
  | .rendered inner => do
    let v ← ev.eval scope inner
    if v.isNull then return .null
    return .text (← ev.text setting scope v)
  | .not inner => do
    let v ← ev.eval scope inner
    return .bool (!v.truthy)
  | .builtin f inner => do
    let v ← ev.eval scope inner
    return f.apply v
  | .list items => return .list (← ev.evalItems scope items)

/-- An instance of a template that begins with a conditional without an else branch. Where it writes
nothing, no separator follows it. -/
def suppressesSeparator (a : Arena) : Value → Bool
  | .template h => (a.get h).template.isPureConditional
  | _ => false

/-- Writes elements, `pending` telling that a separator comes before the next one that is written.
Nulls are left out unless a text stands for them. -/
def writeElements (scope : Handle) (o : WriteOptions) (pending : Bool) :
    List Value → Run Nat
  | [] => return 0
  | item :: rest =>
    if item.isNull && o.null?.isNone then writeElements scope o pending rest
    else do
      let separated ←
        match o.separator? with
        | some separator =>
          if pending then do
            let text ← ev.evalText setting scope separator
            Run.emit text
          else pure 0
        | none => pure 0
      let written ← ev.write scope item o
      let a ← Run.arena
      let pending := !(written = 0 && suppressesSeparator a item)
      let others ← writeElements scope o pending rest
      return separated + written + others

/-- Writes an instance of a template where a value of `caller` holds it, which encloses it from now
on. -/
def writeTemplate (caller h : Handle) : Run Nat := do
  Run.changeArena fun a => a.setEnclosing h (some caller)
  let a ← Run.arena
  if setting.strict && a.isSelfEnclosed h then
    Run.stop (.fatal (.infiniteRecursion (a.trace h)))
  else ev.render h (a.get h).template.chunks

def writeStep (scope : Handle) (v : Value) (o : WriteOptions) : Run Nat :=
  match v with
  | .null =>
    match o.null? with
    | some text => Run.emit text
    | none => return 0
  | .template h => ev.writeTemplate setting scope h
  | .list items => ev.writeElements setting scope o false items
  | .map entries => ev.writeElements setting scope o false (Table.values entries)
  | v => Run.emit (setting.formatters.text v o.format?)

def evalOption (scope : Handle) : Option Expr → Run (Option String)
  | none => return none
  | some e => return some (← ev.evalText setting scope e)

/-- Evaluates the options of an expression chunk that are needed once. -/
def writeOptions (scope : Handle) (o : ExprOptions) : Run WriteOptions := do
  let null? ← ev.evalOption setting scope o.null
  let format? ← ev.evalOption setting scope o.format
  return ⟨o.separator, null?, format?⟩

def renderChunk (scope : Handle) : Chunk → Run Nat
  | .literal s => Run.emit s
  | .newline s => Run.emit (setting.newline s)
  | .expression e options indent => do
    let v ← ev.eval scope e
    let o ← ev.writeOptions setting scope options
    Run.indented indent (ev.write scope v o)
  | .conditional condition holds otherwise => do
    let v ← ev.eval scope condition
    if v.truthy then ev.render scope holds.chunks
    else
      match otherwise with
      | some t => ev.render scope t.chunks
      | none => return 0

def renderStep (scope : Handle) : List Chunk → Run Nat
  | [] => return 0
  | chunk :: rest => do
    let written ← ev.renderChunk setting scope chunk
    let others ← renderStep scope rest
    return written + others

/-- One step more than `ev` takes. -/
def step : Evaluator where
  eval := fun scope e => ev.evalStep setting scope e
  write := fun scope v o => ev.writeStep setting scope v o
  render := fun scope chunks => ev.renderStep setting scope chunks

/-- Goes at most `depth` steps deep. -/
def ofDepth (setting : Setting) : Nat → Evaluator
  | 0 => exhausted
  | depth + 1 =>
    { eval := fun scope e s => (step setting (ofDepth setting depth)).eval scope e s
      write := fun scope v o s => (step setting (ofDepth setting depth)).write scope v o s
      render := fun scope chunks s => (step setting (ofDepth setting depth)).render scope chunks s }

theorem ofDepth_succ (setting : Setting) (depth : Nat) :
    ofDepth setting (depth + 1) = step setting (ofDepth setting depth) := rfl

end Evaluator

/-- What a render comes to that no fatal error ends. -/
structure Rendered where
  /-- How many characters were written, indentation included. -/
  chars : Nat
  diagnostics : List TemplateError
  deriving DecidableEq, Repr

namespace Rendered

def isClean (r : Rendered) : Bool := r.diagnostics.isEmpty

/-- Takes the first diagnostic for a failure. -/
def result (r : Rendered) : Except TemplateError Nat :=
  match r.diagnostics with
  | [] => .ok r.chars
  | e :: _ => .error e

end Rendered

/-- The answer of a render, with the arena and the writer that it leaves behind. -/
structure RenderOutcome where
  result : Except Stop Rendered
  arena : Arena
  writer : Writer

namespace Setting

/-- Renders an activation's template, going at most `depth` steps deep. -/
def renderWithin (setting : Setting) (depth : Nat) (a : Arena) (root : Handle) (w : Writer) :
    RenderOutcome :=
  match (Evaluator.ofDepth setting depth).render root (a.get root).template.chunks ⟨a, [], w⟩ with
  | .ok chars s => ⟨.ok ⟨chars, s.diagnostics⟩, s.arena, s.writer⟩
  | .error cause s => ⟨.error cause, s.arena, s.writer⟩

/-- Deeper than any render that ends will go. -/
def ampleDepth : Nat := 1000000000000000000

def render (setting : Setting) (a : Arena) (root : Handle) (w : Writer) : RenderOutcome :=
  setting.renderWithin ampleDepth a root w

/-- Renders on a fresh writer of the setting's own strategy. -/
def renderToText (setting : Setting) (a : Arena) (root : Handle) : RenderOutcome :=
  setting.render a root (.fresh setting.strategy)

end Setting
end Stencil
