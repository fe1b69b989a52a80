import Stencil.Template.Grammar
import Stencil.Template.Token
/-!
# Chunks from tokens

Tokens are read from left to right with a stack of open conditionals. Text and expressions go to the
innermost branch that is open. A marker without a conditional to belong to is reported and left
out; a conditional that is open at the end is reported and closed there.
-/
namespace Stencil

open Text (Position)

/-- One branch of a conditional and what it depends on. -/
structure Arm where
  condition : Expr
  body : List Chunk

/-- The branch of a conditional that is being read, with the arms before it. -/
inductive OpenBranch where
  | arm (before : List Arm) (condition : Expr)
  | otherwise (first : Arm) (more : List Arm)

structure OpenConditional where
  branch : OpenBranch
  /-- The chunks of the open branch so far. -/
  body : List Chunk
  /-- The place of the `if`. -/
  pos : Position

structure Assembly where
  /-- The chunks outside every open conditional. -/
  chunks : List Chunk
  /-- The open conditionals, the innermost first. -/
  conditionals : List OpenConditional
  errors : List TemplateError

namespace Assembly

def empty : Assembly := ⟨[], [], []⟩

/-- A text at the end of chunks continues a literal that stands there. -/
def appendText (chunks : List Chunk) (s : String) : List Chunk :=
  match chunks.getLast? with
  | some (.literal t) => chunks.dropLast ++ [.literal (t ++ s)]
  | _ => chunks ++ [.literal s]

/-- Changes the chunks of the innermost branch. -/
def modifyInnermost (f : List Chunk → List Chunk) (a : Assembly) : Assembly :=
  match a.conditionals with
  | [] => { a with chunks := f a.chunks }
  | c :: outer => { a with conditionals := { c with body := f c.body } :: outer }

def addChunk (chunk : Chunk) : Assembly → Assembly := modifyInnermost (· ++ [chunk])

def addText (s : String) : Assembly → Assembly := modifyInnermost (appendText · s)

def addErrors (errors : List TemplateError) (a : Assembly) : Assembly :=
  { a with errors := a.errors ++ errors }

def report (pos : Position) (problem : SourceProblem) : Assembly → Assembly :=
  addErrors [.malformed pos problem]

/-- The arms after the first are nested in the else branch, one in the other. Every branch carries
the template's name. -/
def conditional (name : String) (first : Arm) (otherwise : Option Template) : List Arm → Chunk
  | [] => .conditional first.condition (.plain name first.body) otherwise
  | next :: more =>
    .conditional first.condition (.plain name first.body)
      (some (.plain name [conditional name next otherwise more]))

/-- The chunk of a conditional that ends with its open branch. -/
def closed (name : String) (c : OpenConditional) : Chunk :=
  match c.branch with
  | .arm [] condition => conditional name ⟨condition, c.body⟩ none []
  | .arm (first :: more) condition => conditional name first none (more ++ [⟨condition, c.body⟩])
  | .otherwise first more => conditional name first (some (.plain name c.body)) more

/-- Ends the branch at an `elseif` or an `else`, if it is a branch that may be followed by one. -/
def nextBranch (pos : Position) (marker : InnerMarker) (next : List Arm → Arm → OpenBranch)
    (a : Assembly) : Assembly :=
  match a.conditionals with
  | [] => a.report pos (.strayMarker marker)
  | c :: outer =>
    match c.branch with
    | .otherwise _ _ => a.report pos (.markerAfterElse marker)
    | .arm before condition =>
      { a with conditionals :=
          { c with branch := next before ⟨condition, c.body⟩, body := [] } :: outer }

/-- The else branch behind the arms `before` and `last`. -/
def otherwiseAfter (before : List Arm) (last : Arm) : OpenBranch :=
  match before with
  | [] => .otherwise last []
  | first :: more => .otherwise first (more ++ [last])

/-- Closes the innermost conditional. -/
def closeInnermost (name : String) (a : Assembly) : Assembly :=
  match a.conditionals with
  | [] => a
  | c :: outer => addChunk (closed name c) { a with conditionals := outer }

def addToken (ctx : ParseContext) (a : Assembly) : Token → Assembly
  | .text s => a.addText (String.ofList s)
  | .newline s => a.addChunk (.newline (String.ofList s))
  | .expr source indent pos =>
    let ((expr, options), errors) := Grammar.parseAction ctx pos source
    (a.addErrors errors).addChunk (.expression expr options (indent.map String.ofList))
  | .ifMark source offset pos =>
    let (condition, errors) := Grammar.parseCondition ctx (pos.right offset) source
    let a := a.addErrors errors
    { a with conditionals := ⟨.arm [] condition, [], pos⟩ :: a.conditionals }
  | .elseifMark source offset pos =>
    let (condition, errors) := Grammar.parseCondition ctx (pos.right offset) source
    (a.addErrors errors).nextBranch pos .elseif fun before last => .arm (before ++ [last]) condition
  | .elseMark pos => a.nextBranch pos .otherwise otherwiseAfter
  | .endifMark pos =>
    match a.conditionals with
    | [] => a.report pos (.strayMarker .endif)
    | _ => a.closeInnermost ctx.owner

/-- Reports and closes the conditionals that are still open, the innermost first. -/
def closeAll (name : String) : List OpenConditional → Assembly → Assembly
  | [], a => a
  | c :: outer, a => closeAll name outer ((a.report c.pos .missingEndif).closeInnermost name)

def finish (name : String) (a : Assembly) : List Chunk × List TemplateError :=
  let a := closeAll name a.conditionals a
  (a.chunks, a.errors)

/-- The chunks that tokens make up and everything that is wrong with them. -/
def ofTokens (ctx : ParseContext) (tokens : List Token) : List Chunk × List TemplateError :=
  (tokens.foldl (addToken ctx) empty).finish ctx.owner

end Assembly
end Stencil
