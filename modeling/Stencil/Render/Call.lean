import Stencil.Render.Lookup
/-!
# Calls and applications

A call makes an instance of a template and binds its arguments; an application does so for each
element of a value. The instances are written later, where their value is.
-/
namespace Stencil

/-- The element that an application is at. -/
def elementName : String := "it"

/-- An older name for the element. -/
def formerElementName : String := "attr"

/-- The number of the element, from 1. -/
def indexName : String := "i"

namespace Evaluator

variable (setting : Setting) (ev : Evaluator)

/-- Binds a value in the arguments of an instance; null is not bound. -/
def bindUnlessNull (callee : Handle) (name : String) (v : Value) : Run Unit :=
  if v.isNull then pure () else Run.changeArena fun a => a.setArgument callee name v

/-- The scope that the arguments of a call are evaluated in. It starts with what is bound in the
callee so far. -/
def openArguments (caller callee : Handle) : Run Handle :=
  Run.enter fun a => a.argumentScope caller (a.get callee).arguments

/-- Binds named arguments one after another. A name that the callee does not take is reported, and
its expression is not evaluated. -/
def bindNamed (callee scope : Handle) (t : Template) : List (String × Expr) → Run Unit
  | [] => pure ()
  | (name, e) :: rest => do
    if !t.formals.isEmpty && !t.hasFormal name then
      Run.report (.unknownParameter t.name name)
    else
      let v ← ev.eval scope e
      bindUnlessNull callee name v
    bindNamed callee scope t rest

/-- Evaluates the arguments of a call in the caller's scope and binds them in the callee. -/
def bindArguments (caller callee : Handle) (args : Arguments) : Run Unit := do
  let a ← Run.arena
  let t := (a.get callee).template
  match args with
  | .none => return ()
  | .positional e =>
    match t.formals with
    | [formal] =>
      let scope ← openArguments caller callee
      let v ← ev.eval scope e
      bindUnlessNull callee formal v
    | formals => Run.report (.arityMismatch t.name formals.length 1)
  | .named bindings =>
    let scope ← openArguments caller callee
    ev.bindNamed callee scope t bindings

def call (scope : Handle) (t : Target) (args : Arguments) : Run Value := do
  match ← ev.template? setting scope t with
  | none => return .null
  | some template =>
    let callee ← Run.enter fun a => a.embed scope template
    ev.bindArguments scope callee args
    return .template callee

/-- The template of a reference and the arguments that come with it. -/
def referred (scope : Handle) : TemplateRef → Run (Option (Template × Arguments))
  | .named t args => do
    return (← ev.template? setting scope t).map fun template => (template, args)
  | .inline template => return some (template, .none)

/-- The formal parameter that takes the element of an application. -/
def soleFormal? (t : Template) : Option String :=
  if t.isInline || t.formals.length = 1 then t.formals.head? else none

/-- Binds what an application gives its instance for an element. -/
def bindElement (callee : Handle) (t : Template) (index : Nat) (element : Value) : Run Unit :=
  Run.changeArena fun a =>
    let a := match soleFormal? t with
      | some formal => a.setArgument callee formal element
      | none => a
    let a := a.setArgument callee elementName element
    let a := a.setArgument callee formerElementName element
    a.setArgument callee indexName (.int (.ofNat index))

/-- Applies a template to an element. -/
def applyTo (scope : Handle) (t : Template) (args : Arguments) (index : Nat) (element : Value) :
    Run Value := do
  let callee ← Run.enter fun a => a.embed scope t
  bindElement callee t index element
  ev.bindArguments scope callee args
  return .template callee

/-- Applies the templates in turn to elements that are not null, `index` of which came before. A
template that is not found takes its turn and gives nothing. -/
def applyInTurn (scope : Handle) (templates : List TemplateRef) (index : Nat) :
    List Value → Run (List Value)
  | [] => return []
  | element :: rest => do
    let found? ←
      match templates[index % templates.length]? with
      | some ref => ev.referred setting scope ref
      | none => pure none
    match found? with
    | none => applyInTurn scope templates (index + 1) rest
    | some (t, args) =>
      let instance_ ← ev.applyTo scope t args (index + 1) element
      let instances ← applyInTurn scope templates (index + 1) rest
      return instance_ :: instances

def applyRotating (scope : Handle) (source : Expr) (templates : List TemplateRef) :
    Run Value := do
  let v ← ev.eval scope source
  if v.isNull || templates.isEmpty then return .null
  let elements := v.elements.filter fun element => !element.isNull
  return .list (← ev.applyInTurn setting scope templates 0 elements)

/-- The elements of all sources, unless one of them is null. -/
def evalSources (scope : Handle) : List Expr → Run (Option (List (List Value)))
  | [] => return some []
  | e :: rest => do
    let v ← ev.eval scope e
    if v.isNull then return none
    return (← evalSources scope rest).map (v.elements :: ·)

/-- The numbers that an aligned application reports when they differ: those of the formal parameters
and the sources, or of the elements in the shortest and the longest source. -/
def misalignment? (formals : List String) (lists : List (List Value)) : Option (Nat × Nat) :=
  if formals.length ≠ lists.length then some (formals.length, lists.length)
  else
    let shortest := ((lists.map List.length).min?).getD 0
    let longest := ((lists.map List.length).max?).getD 0
    if shortest ≠ longest then some (shortest, longest) else none

/-- The sources that an aligned application walks: as many as there are formal parameters, and if
that is all of them, each as far as the shortest. -/
def walked (formals : List String) (lists : List (List Value)) : List (List Value) :=
  if formals.length ≠ lists.length then lists.take formals.length
  else
    let shortest := ((lists.map List.length).min?).getD 0
    lists.map fun l => l.take shortest

/-- The steps through several lists. A list that has ended has no element for a step. -/
def rows (lists : List (List Value)) : List (List (Option Value)) :=
  let longest := ((lists.map List.length).max?).getD 0
  (List.range longest).map fun j => lists.map fun l => l[j]?

/-- Binds the elements of one step to the formal parameters, except where there is none or null. -/
def bindRow (callee : Handle) (formals : List String) (row : List (Option Value)) (step : Nat) :
    Run Unit :=
  Run.changeArena fun a =>
    let a := (formals.zip row).foldl (fun a (formal, element?) =>
      match element? with
      | some element => if element.isNull then a else a.setArgument callee formal element
      | none => a) a
    a.setArgument callee indexName (.int (.ofNat step))

/-- Applies a template to the steps that come after the first `step` ones. -/
def applyRows (scope : Handle) (t : Template) (args : Arguments) (step : Nat) :
    List (List (Option Value)) → Run (List Value)
  | [] => return []
  | row :: rest => do
    let callee ← Run.enter fun a => a.embed scope t
    bindRow callee t.formals row (step + 1)
    ev.bindArguments scope callee args
    let instances ← applyRows scope t args (step + 1) rest
    return .template callee :: instances

def applyAligned (scope : Handle) (sources : List Expr) (ref : TemplateRef) : Run Value := do
  match ← ev.evalSources scope sources with
  | none => return .null
  | some lists =>
    match ← ev.referred setting scope ref with
    | none => return .null
    | some (t, args) =>
      match misalignment? t.formals lists with
      | some (expected, actual) => Run.report (.arityMismatch t.name expected actual)
      | none => pure ()
      return .list (← ev.applyRows scope t args 0 (rows (walked t.formals lists)))

end Evaluator
end Stencil
