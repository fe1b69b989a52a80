import Stencil.Files.Pattern
import Stencil.Table
/-!
# Searching files

The files below one directory, and those among them that a pattern names, in the order of their
paths taken component by component.
-/
namespace Stencil.Files

/-- A file below the directory: the names on the way to it, and what it holds. -/
structure File where
  path : List String
  content : String
  deriving DecidableEq, Repr

abbrev FileTree := List File

/-- The names on the way that a relative path describes. -/
def pathOfText (s : String) : List String :=
  (Text.splitOn '/' s.toList).filterMap fun part =>
    if part = [] ∨ part = ['.'] then none else some (String.ofList part)

/-- A place in the tree. -/
structure Place where
  /-- The names on the way to the place. -/
  path : List String
  /-- How a search arrived there, if it has left the directory that it began in. -/
  shown? : Option String
  deriving DecidableEq, Repr

namespace Place

def root : Place := ⟨[], none⟩

/-- The place shown as it was reached by one more name. -/
def showing (p : Place) (entry : String) : String :=
  match p.shown? with
  | none => entry
  | some shown => shown ++ "/" ++ entry

def text (p : Place) : String := p.shown?.getD "."

end Place

namespace FileTree

def file? (tree : FileTree) (path : List String) : Option String :=
  (tree.find? fun f => f.path = path).map File.content

def isDirectory (tree : FileTree) (path : List String) : Bool :=
  path.isEmpty || tree.any fun f => path.isPrefixOf f.path && path ≠ f.path

/-- The names in a directory, in order. -/
def entries (tree : FileTree) (path : List String) : List String :=
  Table.keys (Table.ofList (tree.filterMap fun f =>
    if path.isPrefixOf f.path then (f.path[path.length]?).map fun entry => (entry, ())
    else none))

def depth (tree : FileTree) : Nat := (tree.map fun f => f.path.length).foldl max 0

/-- The place that one name leads to. A single dot stays, two dots lead up, but not out of the tree,
and an empty name stays except at the start. -/
def enter? (tree : FileTree) (p : Place) (entry : String) : Option Place :=
  if entry = "." then
    if tree.isDirectory p.path then
      some ⟨p.path, p.shown?.map fun shown => shown ++ "/."⟩
    else none
  else if entry = ".." then
    if tree.isDirectory p.path && !p.path.isEmpty then
      some ⟨p.path.dropLast, some (p.showing "..")⟩
    else none
  else if entry = "" then
    if tree.isDirectory p.path && p.shown?.isSome then some p else none
  else
    let path := p.path ++ [entry]
    if (tree.file? path).isSome || tree.isDirectory path then some ⟨path, some (p.showing entry)⟩
    else none

/-- What is in a directory, each with its name. -/
def children (tree : FileTree) (p : Place) : List (String × Place) :=
  if tree.isDirectory p.path then
    (tree.entries p.path).filterMap fun entry =>
      (tree.enter? p entry).map fun child => (entry, child)
  else []

/-- The places below `p` that are instances of the components, each step going down in the tree or
on in the components. -/
def search (tree : FileTree) : Nat → List Component → Place → List Place
  | 0, _, _ => []
  | _, [], p => [p]
  | n + 1, .name s :: rest, p =>
    match tree.enter? p s with
    | some next => search tree n rest next
    | none => []
  | n + 1, .anyDirectories :: rest, p =>
    let rest := rest.dropWhile (· = .anyDirectories)
    (tree.children p).flatMap fun (entry, child) =>
      let here :=
        match rest with
        | c :: rest => if c.accepts entry then search tree n rest child else []
        | [] => if tree.isDirectory child.path then [child] else []
      here ++ search tree n (.anyDirectories :: rest) child
  | n + 1, c :: rest, p =>
    let special := if c.beginsWithDot then ["..", "."].filter c.accepts else []
    (special.filterMap (tree.enter? p)).flatMap (search tree n rest) ++
      (tree.children p).flatMap fun (entry, child) =>
        if c.accepts entry then search tree n rest child else []

/-- The files that a pattern names, each under its path. -/
def matching (tree : FileTree) (pattern : Pattern) : List (String × String) :=
  if pattern.isAbsolute || pattern.directoriesOnly || pattern.components.isEmpty then []
  else
    let steps := (pattern.components.length + 1) * (tree.depth + 2)
    (tree.search steps pattern.components .root).filterMap fun p =>
      (tree.file? p.path).map fun content => (p.text, content)

end FileTree
end Stencil.Files
