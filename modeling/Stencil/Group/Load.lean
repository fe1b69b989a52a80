import Stencil.Group.File
import Stencil.Group.Library
import Stencil.Files.Search
import Stencil.Markup.Standard
/-!
# Loading group files

All files are read before the first is registered, and every group is filled before the first is
made to extend another, so that a file may extend a group of a later one. What was registered before
a problem stays. What is said here holds for any reader of marked-up text; a program that names none
reads with the standard one.
-/
namespace Stencil

inductive LoadProblem where
  | unreadable (source : String) (problem : FileProblem)
  | refusedTemplate (group template : String) (cause : TemplateError)
  | unknownParent (group parent : String)
  | refusedParent (cause : TemplateError)
  | invalidPattern (pattern : String)
  deriving DecidableEq, Repr

/-- The messages about a problem, from the outermost cause inwards. -/
def LoadProblem.causes : LoadProblem → List String
  | unreadable source problem => problem.causes source
  | refusedTemplate group template cause =>
    ["In group '" ++ group ++ "', template '" ++ template ++ "'", cause.message]
  | unknownParent group parent =>
    ["Group '" ++ group ++ "' extends unknown group '" ++ parent ++ "'"]
  | refusedParent cause => [cause.message]
  | invalidPattern pattern => ["Invalid glob pattern: " ++ pattern]

/-- What a library has become, and what went wrong last. -/
abbrev Loaded := Library × Except LoadProblem Unit

namespace Library

/-- Defines the templates of one file in a group. -/
def defineAll (l : Library) (id : GroupId) (group : String) : List TemplateDeclaration → Loaded
  | [] => (l, .ok ())
  | t :: rest =>
    match l.define id t.name t.formals t.body with
    | .error e => (l, .error (.refusedTemplate group t.name e))
    | .ok (_, l) => defineAll l id group rest

def addAliases (l : Library) (id : GroupId) (aliases : List (String × String)) : Library :=
  aliases.foldl (fun l entry => l.addAlias id entry.1 entry.2) l

/-- Fills the group of one file, which is made if need be. -/
def fill (l : Library) (file : GroupFile) : Loaded :=
  let (id, l) := l.groupOrCreate file.name file.delimiters
  match l.defineAll id file.name file.templates with
  | (l, .ok ()) => (l.addAliases id file.aliases, .ok ())
  | (l, .error e) => (l, .error e)

/-- Makes the group of one file extend the group that the file names. -/
def link (l : Library) (file : GroupFile) : Loaded :=
  match file.extends? with
  | none => (l, .ok ())
  | some parentName =>
    match l.group? parentName with
    | none => (l, .error (.unknownParent file.name parentName))
    | some parent =>
      match l.group? file.name with
      | none => (l, .ok ())
      | some id =>
        match l.setParent id parent with
        | .ok l => (l, .ok ())
        | .error e => (l, .error (.refusedParent e))

/-- Applies a step to one file after another until one fails. -/
def forFiles (step : Library → GroupFile → Loaded) (l : Library) : List GroupFile → Loaded
  | [] => (l, .ok ())
  | file :: rest =>
    match step l file with
    | (l, .ok ()) => forFiles step l rest
    | (l, .error e) => (l, .error e)

def registerAll (l : Library) (files : List GroupFile) : Loaded :=
  match forFiles fill l files with
  | (l, .ok ()) => forFiles link l files
  | (l, .error e) => (l, .error e)

end Library

variable [Markup.Reader]

/-- Reads texts under the names of their sources. -/
def GroupFile.parseAll (sources : List (String × String)) : Except LoadProblem (List GroupFile) :=
  sources.mapM fun (source, text) =>
    match GroupFile.parse text.toList with
    | .ok file => .ok file
    | .error problem => .error (.unreadable source problem)

namespace Library

/-- Reads texts, each under the name of its source, and registers them. -/
def loadSources (l : Library) (sources : List (String × String)) : Loaded :=
  match GroupFile.parseAll sources with
  | .ok files => l.registerAll files
  | .error e => (l, .error e)

/-- Reads and registers the files that a pattern names. -/
def loadMatching (l : Library) (tree : Files.FileTree) (pattern : String) : Loaded :=
  match Files.Pattern.parse? pattern.toList with
  | none => (l, .error (.invalidPattern pattern))
  | some p => l.loadSources (tree.matching p)

/-- Reads and registers the files that a pattern names, as a part of working with templates. -/
def loadAssets (l : Library) (tree : Files.FileTree) (pattern : String) :
    Library × Except TemplateError Unit :=
  match l.loadMatching tree pattern with
  | (l, .ok ()) => (l, .ok ())
  | (l, .error e) => (l, .error (.groupRefused (.unloadable e.causes)))

end Library
end Stencil
