import Stencil.Value.Basic
/-!
# Accessors

The named properties of a host type. A computed getter comes before a predicate, and both before a
plain field of the same name.
-/
namespace Stencil

structure Accessors (α : Type) where
  getters : Table (α → Value)
  predicates : Table (α → Value)
  fields : Table (α → Value)

namespace Accessors

variable {α : Type}

def empty : Accessors α := ⟨.empty, .empty, .empty⟩

def getter (a : Accessors α) (name : String) (read : α → Value) : Accessors α :=
  { a with getters := a.getters.insert name read }

def predicate (a : Accessors α) (name : String) (read : α → Value) : Accessors α :=
  { a with predicates := a.predicates.insert name read }

def field (a : Accessors α) (name : String) (read : α → Value) : Accessors α :=
  { a with fields := a.fields.insert name read }

def reader? (a : Accessors α) (name : String) : Option (α → Value) :=
  a.getters.find? name <|> a.predicates.find? name <|> a.fields.find? name

def resolve? (a : Accessors α) (target : α) (name : String) : Option Value :=
  (a.reader? name).map fun read => read target

/-- The names of all accessors, a name once for each kind that has it. -/
def names (a : Accessors α) : List String := a.getters.keys ++ a.predicates.keys ++ a.fields.keys

end Accessors
end Stencil
