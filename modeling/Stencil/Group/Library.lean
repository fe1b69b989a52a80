import Stencil.Group.Basic
import Stencil.Registry
/-!
# Libraries

All groups that were ever made, some of them registered under their names. A group that another one
replaces under its name is still there for the groups that extend it.
-/
namespace Stencil

structure Library where
  groups : List Group
  registered : Table GroupId

namespace Library

def empty : Library := ⟨[], .empty⟩

instance : Inhabited Library := ⟨empty⟩

/-- The group at a place that this library gave out. -/
def get (l : Library) (id : GroupId) : Group := l.groups[id.index]?.getD default

def set (l : Library) (id : GroupId) (g : Group) : Library :=
  { l with groups := l.groups.set id.index g }

/-- Takes in a group without registering it. -/
def add (l : Library) (g : Group) : GroupId × Library :=
  (⟨l.groups.length⟩, { l with groups := l.groups ++ [g] })

/-- Registers a group in the place of any other of its name. -/
def register (l : Library) (id : GroupId) : Library :=
  { l with registered := l.registered.insert (l.get id).name id }

def group? (l : Library) (name : String) : Option GroupId := l.registered.find? name

/-- The group registered under a name; an empty one is made and registered if there is none. -/
def groupOrCreate (l : Library) (name : String) (d : Delimiters) : GroupId × Library :=
  match l.group? name with
  | some id => (id, l)
  | none =>
    let (id, l) := l.add (.empty name d)
    (id, l.register id)

/-- Forgets every registration; the groups stay for those who hold their places. -/
def clear (l : Library) : Library := { l with registered := .empty }

def define (l : Library) (id : GroupId) (name : String) (formals : List String)
    (source : String) : Except TemplateError (Template × Library) :=
  ((l.get id).define name formals source).map fun (t, g) => (t, l.set id g)

def insert (l : Library) (id : GroupId) (t : Template) : Library :=
  l.set id ((l.get id).insert t)

def addAlias (l : Library) (id : GroupId) (name target : String) : Library :=
  l.set id ((l.get id).withAlias name target)

/-- Makes a group extend another one, once and for all. -/
def setParent (l : Library) (id parent : GroupId) : Except TemplateError Library :=
  let g := l.get id
  match g.parent? with
  | some _ => .error (.groupRefused (.alreadyExtends g.name (l.get parent).name))
  | none => .ok (l.set id { g with parent? := some parent })

/-- The groups from a place upwards, at most `n` of them. -/
def chain (l : Library) : Nat → Option GroupId → Lineage
  | 0, _ => []
  | _, none => []
  | n + 1, some id =>
    match l.groups[id.index]? with
    | some g => g :: chain l n g.parent?
    | none => []

/-- How many steps upwards a lookup can take before it asks a group for a name a second time: a
lookup asks for its name and for targets of aliases, each at most once in a group. The last summand
leaves room for the way to the group that a super lookup starts from. -/
def reach (l : Library) : Nat :=
  let aliases := l.groups.foldl (fun n g => n + g.aliases.length) 0
  l.groups.length * (aliases + 1) + l.groups.length + 1

def lineage (l : Library) (id : GroupId) : Lineage := l.chain l.reach (some id)

def lookup (l : Library) (id : GroupId) (name : String) : Option Template :=
  (l.lineage id).lookup name

def lookupSuper (l : Library) (id : GroupId) (group name : String) : Option Template :=
  (l.lineage id).lookupSuper group name

/-- Finds a template by its group's name and its own, with a dot between them. -/
def lookupQualified (l : Library) (name : String) : Option Template := do
  let (group, template) ← Text.splitAtLast? '.' name.toList
  let id ← l.group? (String.ofList group)
  l.lookup id (String.ofList template)

/-- Finds a name for a template of a registered group, from the group's parent upwards. -/
def lookupSuperQualified (l : Library) (group name : String) : Option Template :=
  (l.group? group).bind fun id => l.lookupSuper id group name

/-- All registered groups, their templates by qualified names. -/
def registry (l : Library) : Registry := ⟨l.lookupQualified, l.lookupSuperQualified⟩

/-- One group, its templates by their own names. -/
def groupRegistry (l : Library) (id : GroupId) : Registry := ⟨l.lookup id, l.lookupSuper id⟩

end Library
end Stencil
