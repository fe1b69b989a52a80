import Stencil.Template.Compile
import Stencil.Table
/-!
# Groups

A group holds templates under their names and aliases for them, and may extend a parent group. A
lineage is a group with its ancestors behind it.
-/
namespace Stencil

/-- The place of a group in its library. -/
structure GroupId where
  index : Nat
  deriving DecidableEq, Repr

structure Group where
  name : String
  delimiters : Delimiters
  templates : Table Template
  aliases : Table String
  parent? : Option GroupId

namespace Group

def empty (name : String) (d : Delimiters) : Group := ⟨name, d, .empty, .empty, none⟩

instance : Inhabited Group := ⟨empty "" .dollar⟩

/-- Enters a template under its own name, replacing the one that was there. -/
def insert (g : Group) (t : Template) : Group :=
  { g with templates := g.templates.insert t.name (t.inGroup g.name) }

/-- Compiles a source and enters it under a name that is still free. -/
def define (g : Group) (name : String) (formals : List String) (source : String) :
    Except TemplateError (Template × Group) :=
  if g.templates.contains name then
    .error (.groupRefused (.alreadyDefined name g.name))
  else
    match Template.compile g.delimiters name source with
    | .error e => .error e
    | .ok t =>
      let t := (t.withFormals formals).inGroup g.name
      .ok (t, g.insert t)

/-- Makes `name` another name for `target`. -/
def withAlias (g : Group) (name target : String) : Group :=
  { g with aliases := g.aliases.insert name target }

/-- The names of the group's own templates, in order. -/
def templateNames (g : Group) : List String := g.templates.keys

end Group

/-- A group and its ancestors, from the group upwards. -/
abbrev Lineage := List Group

namespace Lineage

/-- A group's own templates come first, then the target of an alias, in the group itself and among
its ancestors, and last the name among the ancestors. The target of an alias is found as a name of
its own in every group it is looked up in. -/
def lookup : Lineage → String → Option Template
  | [], _ => none
  | g :: ancestors, name =>
    g.templates.find? name <|>
      ((g.aliases.find? name).bind fun target =>
        g.templates.find? target <|> lookup ancestors target) <|>
      lookup ancestors name

/-- The lineage from the group of a name upwards. -/
def fromGroup (l : Lineage) (group : String) : Lineage := l.dropWhile fun g => g.name ≠ group

/-- Looks a name up from the parent of one of the groups. -/
def lookupSuper (l : Lineage) (group name : String) : Option Template :=
  lookup (l.fromGroup group).tail name

end Lineage
end Stencil
