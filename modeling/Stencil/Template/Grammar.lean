import Stencil.Template.Basic
import Stencil.Template.Parse
import Stencil.Text.Bytes
import Stencil.Text.Search
/-!
# The grammar of expressions

One parser for each phrase of the expression language. Phrases contain each other only inside
brackets, and a bracket is consumed before what it holds is read; the nesting is therefore no
deeper than the number of lexemes, and `Grammar.ofDepth` unrolls the grammar as far.
-/
namespace Stencil

open Text (Position)
open Parse

/-- What the parser of one chunk knows: the name that inline templates are named after, and how the
body of one is compiled under a name. -/
structure ParseContext where
  owner : String
  compileInline : String → List Char → List Chunk × List TemplateError

/-- The phrases that may stand inside brackets. -/
structure Grammar where
  /-- An expression with the templates applied to it; lists of sources and of templates may stand
  at the top of a chunk or of a parenthesis, but not in an argument list. -/
  templates : (top : Bool) → Parse Expr
  expr : Parse Expr

namespace Grammar

/-- `a, b | body` splits into the names, the body and the distance of the body from the front. The
distance counts the characters up to the bar and the bytes of the blanks behind it. Without a bar,
or when what precedes it is no list of names, all is body. -/
def splitFormals (raw : List Char) : List String × List Char × Nat :=
  match Text.splitAtWord? ['|'] raw with
  | none => ([], raw, 0)
  | some (header, behind) =>
    let names := (Text.splitOn ',' header).map Text.trim
    if names.all Text.isName then
      let blanks := behind.takeWhile Text.isBlank
      (names.map String.ofList, Text.trimStart behind,
        header.length + 1 + Text.byteLength blanks)
    else ([], raw, 0)

/-- Braces lose the backslash before them. -/
def unescapeBraces (body : List Char) : List Char :=
  Text.dropBefore '\\' '}' (Text.dropBefore '\\' '{' body)

def shiftError (base : Position) : TemplateError → TemplateError
  | .malformed pos problem => .malformed (base.shift pos) problem
  | e => e

/-- The template of the characters between two braces, the first of which stands at `pos`. -/
def inlineTemplate (ctx : ParseContext) (raw : List Char) (pos : Position) : Parse Template :=
  fun st =>
    let number := st.inlines + 1
    let name := ctx.owner ++ "_anon" ++ toString number
    let (formals, body, distance) := splitFormals raw
    let (chunks, errors) := ctx.compileInline name (unescapeBraces body)
    let errors := errors.map (shiftError (pos.right (1 + distance)))
    (some { name, formals, chunks, isInline := true, group := none },
      { st with inlines := number, errors := st.errors ++ errors })

variable (ctx : ParseContext) (g : Grammar)

/-- `name = value` -/
def assignment : Parse (String × Expr) := do
  let name ← expectName
  expect .equals
  let value ← g.templates false
  pure (name, value)

/-- One more assignment of a list; a name is bound once. -/
def addAssignment (bindings : List (String × Expr)) : Parse (List (String × Expr)) := do
  match ← attempt (assignment g) with
  | some (name, value) =>
    if bindings.any (fun b => b.1 = name) then
      report (.repeatedArgument name)
      pure bindings
    else pure (bindings ++ [(name, value)])
  | none =>
    synchronize [.comma]
    pure bindings

/-- `()`, `(value)` or `(name = value, …)` -/
def arguments : Parse Arguments := do
  expect .leftParen
  if ← eat .rightParen then pure .none
  else match ← peek, ← peekSecond with
    | some (.name _), some (.mark .equals) =>
      let bindings ← repeated .comma (addAssignment g) (← addAssignment g [])
      expect .rightParen
      pure (.named bindings)
    | _, _ =>
      let value ← g.templates false
      expect .rightParen
      pure (.positional value)

/-- A template that an expression is applied to. -/
def templateRef : Parse TemplateRef := do
  match ← peek with
  | some (.name name) =>
    advance
    let isSuper ← if name = "super" then eat .dot else pure false
    let target ← if isSuper then Target.super <$> expectName else pure (.name name)
    pure (.named target (← arguments g))
  | some (.mark .leftParen) =>
    advance
    let inner ← g.templates true
    expect .rightParen
    pure (.named (.computed inner) (← arguments g))
  | some (.inline raw) =>
    let pos ← position
    advance
    pure (.inline (← inlineTemplate ctx raw pos))
  | found => fail (.expectedTemplate found)

/-- What follows a name at the front of an expression: the name is an attribute, a list function, a
template or the word for the parent group. -/
def afterName (name : String) : Parse Expr := do
  match ← peek with
  | some (.mark .dot) =>
    if name = "super" then
      advance
      let target ← expectName
      pure (.call (.super target) (← arguments g))
    else pure (.attribute name)
  | some (.mark .leftParen) =>
    match Builtin.ofName? name with
    | some function =>
      advance
      let inner ← g.templates true
      expect .rightParen
      pure (.builtin function inner)
    | none => pure (.call (.name name) (← arguments g))
  | _ => pure (.attribute name)

/-- One more item of a list. -/
def addExpr (items : List Expr) : Parse (List Expr) := do
  pure (items ++ [← g.expr])

def listItems : Parse Expr := do
  if ← eat .rightBracket then pure (.list [])
  else
    let items ← repeated .comma (addExpr g) (← addExpr g [])
    expect .rightBracket
    pure (.list items)

/-- `(inner)`, or `(inner)(…)` where the inner expression names a template. -/
def parenthesized : Parse Expr := do
  let inner ← g.templates true
  expect .rightParen
  match ← peek with
  | some (.mark .leftParen) => pure (.call (.computed inner) (← arguments g))
  | _ => pure (.rendered inner)

def atom : Parse Expr := do
  match ← peek with
  | some (.name name) =>
    advance
    afterName g name
  | some (.text s) =>
    advance
    pure (.text s)
  | some (.number n) =>
    advance
    pure (.number n)
  | some (.mark .leftBracket) =>
    advance
    listItems g
  | some (.mark .leftParen) =>
    advance
    parenthesized g
  | some (.inline _) => fail .misplacedInline
  | found => fail (.unexpectedSymbol found)

/-- A property of the target, behind its dot. -/
def addProperty (target : Expr) : Parse Expr := do
  match ← peek with
  | some (.name name) =>
    advance
    pure (.property target (.fixed name))
  | some (.mark .leftParen) =>
    advance
    let inner ← g.templates true
    expect .rightParen
    pure (.property target (.computed inner))
  | found => fail (.expectedProperty found)

def primary : Parse Expr := do
  repeated .dot (addProperty g) (← atom g)

def addPrimary (left : Expr) : Parse Expr := do
  pure (.concat left (← primary g))

/-- Primaries joined by plus signs. -/
def sum : Parse Expr := do
  repeated .plus (addPrimary g) (← primary g)

/-- One more source of an aligned application. -/
def addSource (sources : List Expr) : Parse (List Expr) := do
  pure (sources ++ [← sum g])

def addTemplate (templates : List TemplateRef) : Parse (List TemplateRef) := do
  pure (templates ++ [← templateRef ctx g])

/-- The templates behind a colon, applied to the source. -/
def addApplication (top : Bool) (source : Expr) : Parse Expr := do
  let templates ← addTemplate ctx g []
  let templates ← if top then repeated .comma (addTemplate ctx g) templates else pure templates
  pure (.apply source templates)

/-- The sources of an aligned application behind the first one, and its template. -/
def aligned (first : Expr) : Parse Expr := do
  let sources ← repeated .comma (addSource g) [first]
  expect .colon
  pure (.applyAligned sources (← templateRef ctx g))

/-- An expression and the templates applied to it. -/
def application (top : Bool) : Parse Expr := do
  let first ← sum g
  let source ←
    match top, ← peek with
    | true, some (.mark .comma) => aligned ctx g first
    | _, _ => pure first
  repeated .colon (addApplication ctx g top) source

/-- The grammar with brackets nested less than `depth` deep. -/
def ofDepth (ctx : ParseContext) : Nat → Grammar
  | 0 => { templates := fun _ => giveUp, expr := giveUp }
  | depth + 1 =>
    { templates := fun top => application ctx (ofDepth ctx depth) top
      expr := sum (ofDepth ctx depth) }

/-- One option behind the semicolon of a chunk. -/
def option (options : ExprOptions) : Parse ExprOptions := do
  let name ← expectName
  let value ← if ← eat .equals then sum g else pure (.text "")
  match name with
  | "separator" => pure { options with separator := some value }
  | "null" => pure { options with null := some value }
  | "format" => pure { options with format := some value }
  | _ => fail (.unknownOption name)

/-- One more option; after an error the list goes on at the next comma. -/
def addOption (options : ExprOptions) : Parse ExprOptions := do
  match ← attempt (option g options) with
  | some options => pure options
  | none =>
    synchronize [.comma]
    pure options

/-- A whole expression chunk: an expression and its options. After an error in the expression the
options are still read. -/
def action : Parse (Expr × ExprOptions) := do
  let expr ←
    match ← attempt (application ctx g true) with
    | some expr => pure expr
    | none =>
      synchronize [.semicolon]
      pure (.text "")
  let options ←
    if ← eat .semicolon then repeated .comma (addOption g) (← addOption g .none)
    else pure .none
  expectEnd
  pure (expr, options)

/-- The condition of an `if`, negated by an exclamation mark before it. -/
def condition : Parse Expr := do
  let negated ← eat .bang
  let expr := (← attempt (application ctx g true)).getD (.text "")
  expectEnd
  pure (if negated then .not expr else expr)

/-- Scans and parses a source from a place on; a source that does not scan stands for `default`. -/
def parseAll {α : Type} (ctx : ParseContext) (parser : Grammar → Parse α) (default : α)
    (pos : Position) (source : List Char) : α × List TemplateError :=
  match Lexeme.scan pos source with
  | .error e => (default, [e])
  | .ok lexemes =>
    let g := ofDepth ctx (lexemes.items.length + 1)
    match parser g { rest := lexemes.items, stop := lexemes.stop, errors := [], inlines := 0 } with
    | (result, st) => (result.getD default, st.errors)

def parseAction (ctx : ParseContext) (pos : Position) (source : List Char) :
    (Expr × ExprOptions) × List TemplateError :=
  parseAll ctx (action ctx) (.text "", .none) pos source

def parseCondition (ctx : ParseContext) (pos : Position) (source : List Char) :
    Expr × List TemplateError :=
  parseAll ctx (condition ctx) (.text "") pos source

end Grammar
end Stencil
