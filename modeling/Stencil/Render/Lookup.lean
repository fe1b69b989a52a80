import Stencil.Render.Evaluator
/-!
# Looking names up

What the names of attributes, properties and templates mean in a scope. A name that means nothing is
reported and stands for null.
-/
namespace Stencil

/-- The key of a map that stands for the keys it does not have. -/
def defaultKey : String := "_default_"

/-- A property of a map: an entry, the default entry, or all keys or values. -/
def mapProperty (entries : Table Value) (name : String) : Option Value :=
  entries.find? name <|> entries.find? defaultKey <|>
    match name with
    | "keys" => some (.list (entries.keys.map .text))
    | "values" => some (.list entries.values)
    | _ => none

/-- A property of a value that is not null. -/
def Arena.property (a : Arena) (v : Value) (name : String) : Option Value :=
  match v with
  | .aggregate fields => Table.find? name fields
  | .template h => (a.get h).property name
  | .map entries => mapProperty entries name
  | .object o => o.property? name
  | _ => none

/-- How a message names the value whose property is missing. -/
def Arena.describe (a : Arena) (v : Value) : String :=
  match v with
  | .template h => "template '" ++ (a.get h).name ++ "'"
  | v => v.kind

namespace Run

def resolveAttribute (scope : Handle) (name : String) : Run Value := do
  let a ← arena
  match a.resolve scope name with
  | .found v => return v
  | .missing declared owner =>
    if !declared then report (.missingAttribute (a.get owner).name name)
    return .null

def resolveProperty (v : Value) (name : String) : Run Value := do
  if v.isNull then return .null
  let a ← arena
  match a.property v name with
  | some found => return found
  | none =>
    report (.unresolvedProperty (a.describe v) name)
    return .null

end Run

namespace Evaluator

variable (setting : Setting) (ev : Evaluator)

/-- The template of a name: one of the caller's own group first, then any. -/
def lookupName (group? : Option String) (name : String) : Option Template :=
  group?.bind (fun group => setting.registry.lookup? (group ++ "." ++ name)) <|>
    setting.registry.lookup? name

/-- What a call names, for a message, and the template that it finds. -/
def target (scope : Handle) : Target → Run (String × Option Template)
  | .name name => do
    let a ← Run.arena
    return (name, lookupName setting (a.groupOf scope) name)
  | .super name => do
    let a ← Run.arena
    return ("super." ++ name,
      (a.groupOf scope).bind fun group => setting.registry.lookupSuper? group name)
  | .computed e => do
    let name ← ev.evalText setting scope e
    return (name, setting.registry.lookup? name)

def template? (scope : Handle) (t : Target) : Run (Option Template) := do
  let (name, found?) ← ev.target setting scope t
  if found?.isNone then Run.report (.templateNotFound name)
  return found?

end Evaluator
end Stencil
