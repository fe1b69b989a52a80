import Stencil.Text.Search
/-!
# Path patterns

A pattern names files by their paths. In one component of a path `?` stands for any character, `*`
for any characters and a bracket for one of a set of characters; the component `**` stands for any
number of directories.
-/
namespace Stencil.Files

/-- The first and the last character of a range. -/
structure CharRange where
  first : Char
  last : Char
  deriving DecidableEq, Repr

namespace CharRange

def contains (r : CharRange) (c : Char) : Bool := r.first ≤ c && c ≤ r.last

/-- The ranges between brackets: `a-z`, or a single character. -/
def listOf : List Char → List CharRange
  | first :: '-' :: last :: rest => ⟨first, last⟩ :: listOf rest
  | c :: rest => ⟨c, c⟩ :: listOf rest
  | [] => []

end CharRange

inductive Wildcard where
  | char (c : Char)
  | anyChar
  | anyChars
  | within (ranges : List CharRange)
  | except (ranges : List CharRange)
  deriving DecidableEq, Repr

namespace Wildcard

/-- Whether one character can stand for a wildcard. -/
def accepts : Wildcard → Char → Bool
  | char expected, c => expected = c
  | anyChar, _ => true
  | anyChars, _ => true
  | within ranges, c => ranges.any fun r => r.contains c
  | except ranges, c => !ranges.any fun r => r.contains c

def isChar : Wildcard → Bool
  | char _ => true
  | _ => false

/-- Whether a name is an instance of a list of wildcards. -/
def accept : List Wildcard → List Char → Bool
  | [], name => name.isEmpty
  | .anyChars :: rest, [] => accept rest []
  | .anyChars :: rest, c :: name => accept rest (c :: name) || accept (.anyChars :: rest) name
  | _ :: _, [] => false
  | w :: rest, c :: name => w.accepts c && accept rest name
termination_by wildcards name => wildcards.length + name.length

end Wildcard

/-- What a part of a pattern is made of. -/
inductive PatternToken where
  | wildcard (w : Wildcard)
  /-- Any number of directories. -/
  | anyDirectories
  deriving DecidableEq, Repr

/-- The ranges of a bracket that has just been opened, and what follows it. At least one character
stands between the brackets, the first one whatever it is. -/
def bracket? (s : List Char) : Option (Wildcard × List Char) :=
  match s with
  | '!' :: first :: rest =>
    (Text.splitAtWord? [']'] rest).map fun (inner, rest) =>
      (.except (CharRange.listOf (first :: inner)), rest)
  | ['!'] => none
  | first :: rest =>
    (Text.splitAtWord? [']'] rest).map fun (inner, rest) =>
      (.within (CharRange.listOf (first :: inner)), rest)
  | [] => none

theorem length_of_bracket? {s rest : List Char} {w : Wildcard}
    (h : bracket? s = some (w, rest)) : rest.length < s.length := by
  simp only [bracket?] at h
  split at h
  · obtain ⟨⟨inner, r⟩, hs, hr⟩ := Option.map_eq_some_iff.1 h
    simp only [Prod.mk.injEq] at hr
    rw [Text.eq_of_splitAtWord? hs]
    simp only [← hr.2, List.length_cons, List.length_append]
    omega
  · simp at h
  · obtain ⟨⟨inner, r⟩, hs, hr⟩ := Option.map_eq_some_iff.1 h
    simp only [Prod.mk.injEq] at hr
    rw [Text.eq_of_splitAtWord? hs]
    simp only [← hr.2, List.length_cons, List.length_append]
    omega
  · simp at h

/-- Reads a pattern, `atStart` telling that a component begins. Two stars are a component of their
own, three and more are refused, and so is a bracket that does not end. -/
def tokens? (atStart : Bool) (s : List Char) : Option (List PatternToken) :=
  match s with
  | [] => some []
  | '*' :: '*' :: '*' :: _ => none
  | ['*', '*'] => if atStart then some [.anyDirectories] else none
  | '*' :: '*' :: '/' :: rest =>
    if atStart then (tokens? true rest).map (.anyDirectories :: ·) else none
  | '*' :: '*' :: _ => none
  | '*' :: rest => (tokens? false rest).map (.wildcard .anyChars :: ·)
  | '?' :: rest => (tokens? false rest).map (.wildcard .anyChar :: ·)
  | '[' :: rest =>
    match _bracket : bracket? rest with
    | some (w, rest) => (tokens? false rest).map (.wildcard w :: ·)
    | none => none
  | c :: rest => (tokens? (c = '/') rest).map (.wildcard (.char c) :: ·)
termination_by s.length
decreasing_by
  all_goals simp only [List.length_cons]
  all_goals first
    | omega
    | exact Nat.lt_succ_of_lt (length_of_bracket? _bracket)

/-- One component of a pattern. -/
inductive Component where
  /-- A name without wildcards. -/
  | name (s : String)
  | wildcards (ws : List Wildcard)
  | anyDirectories
  deriving DecidableEq, Repr

namespace Component

def ofTokens (ts : List PatternToken) : Component :=
  if ts.contains .anyDirectories then anyDirectories
  else
    let ws := ts.filterMap fun t =>
      match t with
      | .wildcard w => some w
      | .anyDirectories => none
    if ws.all Wildcard.isChar then
      name (String.ofList (ws.filterMap fun w =>
        match w with
        | .char c => some c
        | _ => none))
    else wildcards ws

def parse? (s : List Char) : Option Component := (tokens? true s).map ofTokens

/-- Whether a name in a directory is an instance of the component. -/
def accepts (c : Component) (entry : String) : Bool :=
  match c with
  | name s => s = entry
  | wildcards ws => Wildcard.accept ws entry.toList
  | anyDirectories => true

/-- Only a pattern that begins with a dot can name a directory itself and the one above it. -/
def beginsWithDot : Component → Bool
  | wildcards (.char '.' :: _) => true
  | _ => false

end Component

structure Pattern where
  components : List Component
  /-- A slash at the end asks for directories. -/
  directoriesOnly : Bool
  /-- A slash at the start leads away from the directory that is searched. -/
  isAbsolute : Bool
  deriving DecidableEq, Repr

namespace Pattern

/-- Reads a pattern, which is sound as a whole and in each component. -/
def parse? (s : List Char) : Option Pattern := do
  let _ ← tokens? true s
  let parts := Text.splitOn '/' s
  let parts := if parts.getLast? = some [] then parts.dropLast else parts
  let components ← parts.mapM Component.parse?
  some ⟨components, s.getLast? = some '/', s.head? = some '/'⟩

end Pattern
end Stencil.Files
