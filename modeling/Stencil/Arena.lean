import Stencil.Table
import Stencil.Template.Basic
import Stencil.Value.Basic
/-!
# Arenas

An arena holds the activations of templates under handles. An activation may be enclosed by another;
the scope in which a call's arguments are evaluated is an activation of its own, on top of the
caller. Activations are only ever added, so handles stay good.
-/
namespace Stencil

inductive ScopeKind where
  /-- An instance of a template. -/
  | template
  /-- A scope for the arguments of a call: what is not found in it is looked for in the caller. -/
  | arguments
  deriving DecidableEq, Repr

def ScopeKind.name : ScopeKind → String
  | template => "Template"
  | arguments => "Arguments"

structure Activation where
  template : Template
  attributes : Table Value
  arguments : Table Value
  enclosing? : Option Handle
  kind : ScopeKind

namespace Activation

def ofTemplate (t : Template) : Activation := ⟨t, .empty, .empty, none, .template⟩

instance : Inhabited Activation := ⟨ofTemplate default⟩

def name (a : Activation) : String := a.template.name

/-- The binding of a name: arguments come before attributes. -/
def lookup (a : Activation) (name : String) : Option Value :=
  a.arguments.find? name <|> a.attributes.find? name

/-- What a property of a template value is: attributes come before arguments. -/
def property (a : Activation) (name : String) : Option Value :=
  a.attributes.find? name <|> a.arguments.find? name

end Activation

structure Arena where
  slots : Array Activation

/-- What a name resolves to in a scope. -/
inductive Resolution where
  | found (v : Value)
  /-- Found nowhere up to `owner`; `declared` tells whether a template on the way has a formal
  parameter of the name. -/
  | missing (declared : Bool) (owner : Handle)

namespace Arena

def empty : Arena := ⟨#[]⟩

instance : Inhabited Arena := ⟨empty⟩

def size (a : Arena) : Nat := a.slots.size

def isEmpty (a : Arena) : Bool := a.slots.isEmpty

def contains (a : Arena) (h : Handle) : Prop := h.index < a.size

instance (a : Arena) (h : Handle) : Decidable (a.contains h) :=
  inferInstanceAs (Decidable (h.index < a.size))

/-- The activation of a handle that this arena gave out. -/
def get (a : Arena) (h : Handle) : Activation := a.slots[h.index]?.getD default

def modify (a : Arena) (h : Handle) (f : Activation → Activation) : Arena :=
  ⟨a.slots.modify h.index f⟩

def push (a : Arena) (activation : Activation) : Handle × Arena :=
  (⟨a.size⟩, ⟨a.slots.push activation⟩)

@[simp] theorem size_modify (a : Arena) (h : Handle) (f : Activation → Activation) :
    (a.modify h f).size = a.size := by
  simp [modify, size]

@[simp] theorem size_push (a : Arena) (act : Activation) : (a.push act).2.size = a.size + 1 := by
  simp [push, size]

/-- A change reaches one activation only. -/
theorem get_modify {a : Arena} {h : Handle} (inside : a.contains h)
    (f : Activation → Activation) (x : Handle) :
    (a.modify h f).get x = if x = h then f (a.get h) else a.get x := by
  have lt : h.index < a.slots.size := inside
  by_cases eq : x = h
  · subst eq
    simp [get, modify, Array.getElem_modify, lt]
  · have ne : h.index ≠ x.index := fun same => eq (by
      cases x
      cases h
      simp_all)
    by_cases within : x.index < a.slots.size
    · simp [get, modify, Array.getElem_modify, within, ne, eq]
    · simp [get, modify, within, eq]

/-- A new activation leaves the others as they are. -/
theorem get_push_of_contains {a : Arena} {x : Handle} (inside : a.contains x)
    (act : Activation) : (a.push act).2.get x = a.get x := by
  have lt : x.index < a.slots.size := inside
  simp [get, push, Array.getElem?_push_lt lt, lt]

@[simp] theorem get_push_self (a : Arena) (act : Activation) :
    (a.push act).2.get (a.push act).1 = act := by
  simp [get, push, size]

/-- A new instance of a template that nothing encloses. -/
def instantiate (a : Arena) (t : Template) : Handle × Arena := a.push (.ofTemplate t)

/-- A new instance of a template inside another activation. -/
def embed (a : Arena) (enclosing : Handle) (t : Template) : Handle × Arena :=
  a.push { Activation.ofTemplate t with enclosing? := some enclosing }

/-- A new scope for a call's arguments, on top of the caller and with some arguments bound. -/
def argumentScope (a : Arena) (caller : Handle) (bound : Table Value) : Handle × Arena :=
  a.push ⟨(a.get caller).template, .empty, bound, some caller, .arguments⟩

def attribute? (a : Arena) (h : Handle) (name : String) : Option Value :=
  (a.get h).attributes.find? name

def setAttribute (a : Arena) (h : Handle) (name : String) (v : Value) : Arena :=
  a.modify h fun act => { act with attributes := act.attributes.insert name v }

/-- What an attribute becomes when one more value is added to it. -/
def merged (old? : Option Value) (v : Value) : Value :=
  match old? with
  | none => v
  | some (.list items) => .list (items ++ [v])
  | some old => .list [old, v]

/-- Adds a value to an attribute, which becomes a list with the second one. Null adds nothing. -/
def addAttribute (a : Arena) (h : Handle) (name : String) (v : Value) : Arena :=
  if v.isNull then a else a.setAttribute h name (merged (a.attribute? h name) v)

def setArgument (a : Arena) (h : Handle) (name : String) (v : Value) : Arena :=
  a.modify h fun act => { act with arguments := act.arguments.insert name v }

def setEnclosing (a : Arena) (h : Handle) (enclosing? : Option Handle) : Arena :=
  a.modify h fun act => { act with enclosing? }

/-- The handles from `h?` on along the enclosing links, at most `n` of them. -/
def chainFrom (a : Arena) : Nat → Option Handle → List Handle
  | 0, _ => []
  | _, none => []
  | n + 1, some h => h :: chainFrom a n (a.get h).enclosing?

/-- What encloses an activation, from the inside outwards. A chain that runs in a circle ends after
as many links as the arena has activations. -/
def enclosingChain (a : Arena) (h : Handle) : List Handle :=
  a.chainFrom a.size (a.get h).enclosing?

def isSelfEnclosed (a : Arena) (h : Handle) : Bool := (a.enclosingChain h).contains h

/-- The names of the templates from `h` down to itself along its enclosing links. -/
def trace (a : Arena) (h : Handle) : List String :=
  let around := (a.enclosingChain h).takeWhile (· ≠ h)
  let templates := around.filter fun x => (a.get x).kind = .template
  let name := (a.get h).name
  name :: (templates.map fun x => (a.get x).name).reverse ++ [name]

/-- Resolves a name from `h` on, through at most `n` scopes. -/
def resolveFrom (a : Arena) (name : String) : Nat → Handle → Bool → Resolution
  | 0, h, declared => .missing declared h
  | n + 1, h, declared =>
    let act := a.get h
    match act.lookup name with
    | some v => .found v
    | none =>
      let declared := declared || act.template.hasFormal name
      match act.kind, act.enclosing? with
      | .arguments, some caller => resolveFrom a name n caller declared
      | _, _ => .missing declared h

/-- Resolves a name in a scope. Only the scopes of arguments continue in their callers. -/
def resolve (a : Arena) (h : Handle) (name : String) : Resolution :=
  a.resolveFrom name (a.size + 1) h false

/-- The group of the nearest template around `h`, itself included, that was defined in one. -/
def groupOf (a : Arena) (h : Handle) : Option String :=
  (h :: a.enclosingChain h).findSome? fun x => (a.get x).template.group

end Arena
end Stencil
