import Stencil.Render.State
/-!
# Evaluators

Evaluating an expression, writing a value and rendering chunks call one another. Each of them is
defined one step deep over an `Evaluator` that stands for the steps below it.
-/
namespace Stencil

/-- The options of an expression chunk with the texts that they come to. The separator stays an
expression and is evaluated each time it is written. -/
structure WriteOptions where
  separator? : Option Expr
  null? : Option String
  format? : Option String

def WriteOptions.plain : WriteOptions := ⟨none, none, none⟩

structure Evaluator where
  eval (scope : Handle) (e : Expr) : Run Value
  /-- Writes a value and counts the characters. -/
  write (scope : Handle) (v : Value) (o : WriteOptions) : Run Nat
  render (scope : Handle) (chunks : List Chunk) : Run Nat

namespace Evaluator

/-- Takes no step at all. -/
def exhausted : Evaluator :=
  ⟨fun _ _ => Run.stop .tooDeep, fun _ _ _ => Run.stop .tooDeep, fun _ _ => Run.stop .tooDeep⟩

variable (setting : Setting) (ev : Evaluator)

/-- The text of a value, written on its own without any indentation around it. -/
def text (scope : Handle) (v : Value) : Run String :=
  match v with
  | .text s => pure s
  | v => Run.captured setting.strategy (ev.write scope v .plain)

def evalText (scope : Handle) (e : Expr) : Run String := do
  let v ← ev.eval scope e
  ev.text setting scope v

/-- Null adds nothing to a value; otherwise the texts are joined. -/
def concat (scope : Handle) (a b : Value) : Run Value :=
  match a, b with
  | .null, b => pure b
  | a, .null => pure a
  | a, b => do
    let left ← ev.text setting scope a
    let right ← ev.text setting scope b
    return .text (left ++ right)

end Evaluator
end Stencil
