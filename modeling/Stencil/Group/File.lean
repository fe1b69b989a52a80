import Stencil.Markup.Reader
import Stencil.Template.Delimiters
import Stencil.Text.Blank
import Stencil.Text.Bytes
import Stencil.Text.Search
/-!
# Group files

The text form of a group: an element `group` with elements `template` and `alias` inside.
`GroupFile.parse` reads the events of the text one after another; everything between the start tag
of a template and its end tag is the template's body.
-/
namespace Stencil

open Markup (Event Reader)

structure TemplateDeclaration where
  name : String
  formals : List String
  body : String
  deriving DecidableEq, Repr

structure GroupFile where
  name : String
  extends? : Option String
  delimiters : Delimiters
  templates : List TemplateDeclaration
  /-- Each alias with its target. -/
  aliases : List (String × String)
  deriving DecidableEq, Repr

/-- The elements that a group file is made of. -/
inductive Element where
  | group | template | aliasEntry
  deriving DecidableEq, Repr

namespace Element

def name : Element → String
  | group => "group"
  | template => "template"
  | aliasEntry => "alias"

def ofName? (s : List Char) : Option Element :=
  if s = "group".toList then some group
  else if s = "template".toList then some template
  else if s = "alias".toList then some aliasEntry
  else none

end Element

/-- Why a text is no group file. -/
inductive FileProblem where
  | malformedMarkup
  | outsideGroup (element : Element)
  | emptyOutsideGroup
  | missingName (element : Element)
  | missingTarget
  | unknownDelimiters (name : String)
  | unterminatedBody
  | misplacedEndTag
  /-- A body that would begin or end inside a character: the program does not return from there. -/
  | cutCharacter
  | invalidEntity (template : String)
  | noGroup
  deriving DecidableEq, Repr

/-- The messages about a problem in the file `source`, from the outermost cause inwards. -/
def FileProblem.causes (source : String) : FileProblem → List String
  | malformedMarkup => ["XML parse error"]
  | outsideGroup element =>
    ["<" ++ element.name ++ "> outside <group> (Source: " ++ source ++ ")"]
  | emptyOutsideGroup => ["Element outside <group> (Source: " ++ source ++ ")"]
  | missingName element => ["<" ++ element.name ++ "> is missing the name attribute: " ++ source]
  | missingTarget => ["<alias> is missing the target attribute: " ++ source]
  | unknownDelimiters name => ["Unknown delimiters '" ++ name ++ "' in " ++ source]
  | unterminatedBody => ["Missing end tag: </template>"]
  | misplacedEndTag => ["Unexpected end tag position (Source: " ++ source ++ ")"]
  | cutCharacter => ["byte index is not a char boundary"]
  | invalidEntity template =>
    ["Template '" ++ template ++ "' in " ++ source, "Invalid entity in template body"]
  | noGroup => ["Group file has no <group> element: " ++ source]

namespace GroupFile

variable [Reader]

/-- The file that a group's start tag announces. -/
def ofAttributes (attributes : List Char) : Except FileProblem GroupFile :=
  match Reader.attribute? attributes "name" with
  | none => .error (.missingName .group)
  | some name =>
    let extends? := (Reader.attribute? attributes "extends").filter fun s => !Text.allBlank s.toList
    match Reader.attribute? attributes "delimiters" with
    | none => .ok ⟨name, extends?, .dollar, [], []⟩
    | some word =>
      match Delimiters.ofName? word with
      | some d => .ok ⟨name, extends?, d, [], []⟩
      | none => .error (.unknownDelimiters word)

/-- The names between the commas of a text, blanks around them apart. -/
def formalsOfText (s : List Char) : List String :=
  (((Text.splitOn ',' s).map Text.trim).filter fun part => !part.isEmpty).map String.ofList

/-- The name and the formal parameters in a template's tag. -/
def templateHeader (attributes : List Char) : Except FileProblem (String × List String) :=
  match Reader.attribute? attributes "name" with
  | none => .error (.missingName .template)
  | some name =>
    let formals := (Reader.attribute? attributes "args").map fun s => formalsOfText s.toList
    .ok (name, formals.getD [])

def aliasOfAttributes (attributes : List Char) : Except FileProblem (String × String) :=
  match Reader.attribute? attributes "name" with
  | none => .error (.missingName .aliasEntry)
  | some name =>
    match Reader.attribute? attributes "target" with
    | none => .error .missingTarget
    | some target => .ok (name, target)

/-- A text without a line end at its start. -/
def dropLineEnd (s : List Char) : List Char :=
  match s with
  | '\r' :: '\n' :: rest => rest
  | '\n' :: rest => rest
  | _ => s

/-- A text without its last line, if that is blank, and the line end before it. -/
def dropBlankLastLine (s : List Char) : List Char :=
  match Text.splitAtLast? '\n' s with
  | some (before, last) =>
    if Text.allBlank last then (Text.dropLastWord? ['\r'] before).getD before else s
  | none => s

/-- The characters that a body stands for: a single section of character data as it stands, and
anything else with its entities resolved. -/
def bodyCharacters? (raw : List Char) : Option (List Char) :=
  match (Text.dropWord? "<![CDATA[".toList (Text.trim raw)).bind
      (Text.dropLastWord? "]]>".toList) with
  | some inner => some inner
  | none => Reader.resolve? raw

/-- The source of a template whose element has the content `raw`. The line ends behind the start tag
and before the end tag are not part of it. -/
def templateBody? (raw : List Char) : Option String :=
  (bodyCharacters? raw).map fun body =>
    String.ofList (dropBlankLastLine (dropLineEnd body))

/-- A template whose end tag has not come yet. -/
structure OpenTemplate where
  name : String
  formals : List String
  /-- The byte offset behind the start tag. -/
  start : Nat
  /-- How many elements `template` are open inside it. -/
  depth : Nat
  deriving DecidableEq, Repr

structure Progress where
  file? : Option GroupFile
  open? : Option OpenTemplate
  deriving DecidableEq, Repr

namespace Progress

def start : Progress := ⟨none, none⟩

def withTemplate (file : GroupFile) (t : TemplateDeclaration) : Progress :=
  ⟨some { file with templates := file.templates ++ [t] }, none⟩

def withAlias (file : GroupFile) (entry : String × String) : Progress :=
  ⟨some { file with aliases := file.aliases ++ [entry] }, none⟩

/-- A start tag outside every template body. -/
def onOpened (p : Progress) (name attributes : List Char) (stop : Nat) :
    Except FileProblem Progress :=
  match Element.ofName? name with
  | some .group => (ofAttributes attributes).map fun file => ⟨some file, none⟩
  | some .template =>
    match p.file? with
    | none => .error (.outsideGroup .template)
    | some _ => (templateHeader attributes).map fun (name, formals) =>
        { p with open? := some ⟨name, formals, stop, 0⟩ }
  | some .aliasEntry =>
    match p.file? with
    | none => .error (.outsideGroup .aliasEntry)
    | some file => (aliasOfAttributes attributes).map (withAlias file)
  | none => .ok p

/-- An empty tag outside every template body. -/
def onEmpty (p : Progress) (name attributes : List Char) : Except FileProblem Progress :=
  match Element.ofName? name with
  | some .template =>
    match p.file? with
    | none => .error .emptyOutsideGroup
    | some file => (templateHeader attributes).map fun (name, formals) =>
        withTemplate file ⟨name, formals, ""⟩
  | some .aliasEntry =>
    match p.file? with
    | none => .error .emptyOutsideGroup
    | some file => (aliasOfAttributes attributes).map (withAlias file)
  | _ => .ok p

/-- How many bytes an end tag of `template` has, written without blanks. -/
def endTagLength : Nat := Text.byteLength "</template>".toList

/-- The body of a template whose end tag ends at `stop`. It is cut out of the text up to an end tag's
length before. -/
def bodyText (text : List Char) (t : OpenTemplate) (stop : Nat) : Except FileProblem String :=
  if stop < endTagLength then .error .misplacedEndTag
  else
    (Text.cutBytes? t.start (stop - endTagLength) text).elim (.error .cutCharacter) fun raw =>
      (templateBody? raw).elim (.error (.invalidEntity t.name)) .ok

/-- The end tag of an open template. -/
def onTemplateEnd (text : List Char) (p : Progress) (t : OpenTemplate) (stop : Nat) :
    Except FileProblem Progress :=
  (bodyText text t stop).map fun body =>
    ⟨p.file?.map fun file =>
      { file with templates := file.templates ++ [⟨t.name, t.formals, body⟩] }, none⟩

/-- An event inside the body of a template. -/
def insideTemplate (text : List Char) (p : Progress) (t : OpenTemplate) :
    Event → Except FileProblem Progress
  | .opened name _ _ =>
    if Element.ofName? name = some .template then
      .ok { p with open? := some { t with depth := t.depth + 1 } }
    else .ok p
  | .closed name stop =>
    if Element.ofName? name = some .template then
      match t.depth with
      | 0 => onTemplateEnd text p t stop
      | depth + 1 => .ok { p with open? := some { t with depth } }
    else .ok p
  | .empty .. => .ok p
  | .broken => .error .malformedMarkup

/-- Takes in one event of the file `text`. -/
def step (text : List Char) (p : Progress) (e : Event) : Except FileProblem Progress :=
  match p.open? with
  | some t => insideTemplate text p t e
  | none =>
    match e with
    | .opened name attributes stop => p.onOpened name attributes stop
    | .empty name attributes => p.onEmpty name attributes
    | .closed .. => .ok p
    | .broken => .error .malformedMarkup

def finish (p : Progress) : Except FileProblem GroupFile :=
  match p.open?, p.file? with
  | some _, _ => .error .unterminatedBody
  | none, some file => .ok file
  | none, none => .error .noGroup

end Progress

def parse (text : List Char) : Except FileProblem GroupFile := do
  let progress ← (Reader.events text).foldlM (Progress.step text) .start
  progress.finish

end GroupFile
end Stencil
