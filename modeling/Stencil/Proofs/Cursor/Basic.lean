import Stencil.Proofs.Grammar.Soundness
/-!
# Parsing with a cursor

The grammar of expressions once more, for a cursor that moves over the tokens of an expression, the
last of which is its end. The parsers here have no bound on their steps. They look at the token
under the cursor, step past it, and step back to it where it turns out to be none they can use; they
call each other and go round in loops as the phrases of the grammar do. What makes all of this safe
is not taken for granted: a walk is stuck where it would look at a token that is not there, step
back from the first one, or have an inline template compiled that is not shorter than the
expression, and where it would begin a phrase inside another, or a turn of a loop, without a token
having been consumed since the last one.
-/
namespace Stencil

open Text (Position)

/-- A cursor over tokens; a token without a symbol is the end. -/
structure Cursor where
  tokens : List (Option Symbol × Position)
  /-- The number of tokens in front of the cursor. -/
  index : Nat
  errors : List TemplateError
  inlines : Nat

namespace Cursor

/-- The token under the cursor. -/
def token? (c : Cursor) : Option (Option Symbol × Position) := c.tokens[c.index]?

/-- How many tokens have not been consumed. -/
def left (c : Cursor) : Nat := c.tokens.length - c.index

/-- One token further, or still at the last one. -/
def forward (c : Cursor) : Cursor :=
  if c.index < c.tokens.length - 1 then { c with index := c.index + 1 } else c

end Cursor

/-- A walk comes to a result, or to none if it has recorded an error and gives up; where it is stuck
it comes to nothing at all. -/
def Walk (α : Type) : Type := Cursor → Option (Option α × Cursor)

namespace Walk

variable {α β : Type}

instance : Monad Walk where
  pure a := fun c => some (some a, c)
  bind w f := fun c =>
    match w c with
    | some (some a, c) => f a c
    | some (none, c) => some (none, c)
    | none => none

theorem bind_apply (w : Walk α) (f : α → Walk β) (c : Cursor) :
    (w >>= f) c =
      match w c with
      | some (some a, c) => f a c
      | some (none, c) => some (none, c)
      | none => none := rfl

/-! ## Steps -/

def peek : Walk (Option Symbol) := fun c => c.token?.map fun token => (some token.1, c)

/-- The symbol behind the next one; behind the end there is only the end. -/
def peekSecond : Walk (Option Symbol) := fun c =>
  c.tokens[min (c.index + 1) (c.tokens.length - 1)]?.map fun token => (some token.1, c)

def position : Walk Position := fun c => c.token?.map fun token => (some token.2, c)

def advance : Walk Unit := fun c => some (some (), c.forward)

/-- Consumes the next symbol, whatever it is. -/
def take : Walk (Option Symbol) := do
  let symbol ← peek
  advance
  pure symbol

def stepBack : Walk Unit := fun c =>
  match c.index with
  | 0 => none
  | index + 1 => some (some (), { c with index })

def eat (m : Mark) : Walk Bool := do
  if (← peek) = some (.mark m) then
    advance
    pure true
  else pure false

def record (errors : List TemplateError) : Walk Unit := fun c =>
  some (some (), { c with errors := c.errors ++ errors })

def report (problem : SourceProblem) : Walk Unit := do
  record [.malformed (← position) problem]

def giveUp : Walk α := fun c => some (none, c)

def fail (problem : SourceProblem) : Walk α := do
  report problem
  giveUp

def expect (m : Mark) : Walk Unit := do
  if ← eat m then pure ()
  else fail (.expectedMark m (← peek))

def expectName : Walk String := do
  match ← peek with
  | some (.name s) =>
    advance
    pure s
  | found => fail (.expectedName found)

def expectEnd : Walk Unit := do
  match ← peek with
  | none => pure ()
  | found => report (.unexpectedSymbol found)

def attempt (w : Walk α) : Walk (Option α) := fun c => (w c).map fun ran => (some ran.1, ran.2)

/-! ## Loops -/

/-- How deep in brackets the symbol leads, unless it closes one that has not been opened. -/
def depthBehind? : Symbol → Nat → Option Nat
  | .mark .leftParen, depth => some (depth + 1)
  | .mark .leftBracket, depth => some (depth + 1)
  | .mark .rightParen, 0 => none
  | .mark .rightBracket, 0 => none
  | .mark .rightParen, depth + 1 => some depth
  | .mark .rightBracket, depth + 1 => some depth
  | _, depth => some depth

/-- Skips symbols up to one of the marks outside brackets, up to a closing bracket that has not been
opened, or up to the end. -/
def skipTo (marks : List Mark) (depth : Nat) (c : Cursor) : Option (Option Unit × Cursor) :=
  match c.token? with
  | none => none
  | some (none, _) => some (some (), c)
  | some (some symbol, _) =>
    if depth = 0 ∧ marks.any (fun m => symbol = .mark m) then some (some (), c)
    else
      match depthBehind? symbol depth with
      | none => some (some (), c)
      | some depth =>
        if _consumed : c.forward.left < c.left then skipTo marks depth c.forward else none
termination_by c.left

def synchronize (marks : List Mark) : Walk Unit := skipTo marks 0

/-- `next` once for each mark `m` that is met in turn. -/
def repeated (m : Mark) (next : α → Walk α) (a : α) (c : Cursor) : Option (Option α × Cursor) :=
  (do
    if ← eat m then
      let b ← next a
      fun c' => if _consumed : c'.left < c.left then repeated m next b c' else none
    else pure a : Walk α) c
termination_by c.left

end Walk

/-- The body between the characters of an inline template is shorter than the source. -/
abbrev Grammar.Shrinks (source raw : List Char) : Prop :=
  (inlineBody raw).length < source.length

/-- The phrases that may stand inside brackets. -/
structure Walks where
  templates : (top : Bool) → Walk Expr
  expr : Walk Expr

namespace Walks

open Walk

/-- The template of the characters between two braces. Its body is handed back to be compiled if
the characters fit. -/
def inlineTemplate (ctx : ParseContext) (fits : List Char → Prop) [DecidablePred fits]
    (raw : List Char) (pos : Position) : Walk Template := fun c =>
  if fits raw then
    let (template, after) := Grammar.inlineTemplate ctx raw pos ⟨[], pos, c.errors, c.inlines⟩
    some (template, { c with errors := after.errors, inlines := after.inlines })
  else none

variable (template : List Char → Position → Walk Template) (w : Walks)

def assignment : Walk (String × Expr) := do
  let name ← expectName
  expect .equals
  let value ← w.templates false
  pure (name, value)

def addAssignment (bindings : List (String × Expr)) : Walk (List (String × Expr)) := do
  match ← attempt (assignment w) with
  | some (name, value) =>
    if bindings.any (fun b => b.1 = name) then
      report (.repeatedArgument name)
      pure bindings
    else pure (bindings ++ [(name, value)])
  | none =>
    synchronize [.comma]
    pure bindings

def arguments : Walk Arguments := do
  expect .leftParen
  if ← eat .rightParen then pure .none
  else match ← peek, ← peekSecond with
    | some (.name _), some (.mark .equals) =>
      let bindings ← repeated .comma (addAssignment w) (← addAssignment w [])
      expect .rightParen
      pure (.named bindings)
    | _, _ =>
      let value ← w.templates false
      expect .rightParen
      pure (.positional value)

def templateRef : Walk TemplateRef := do
  match ← peek with
  | some (.name name) =>
    advance
    let isSuper ← if name = "super" then eat .dot else pure false
    let target ← if isSuper then Target.super <$> expectName else pure (.name name)
    pure (.named target (← arguments w))
  | some (.mark .leftParen) =>
    advance
    let inner ← w.templates true
    expect .rightParen
    pure (.named (.computed inner) (← arguments w))
  | some (.inline raw) =>
    let pos ← position
    advance
    pure (.inline (← template raw pos))
  | found => fail (.expectedTemplate found)

def afterName (name : String) : Walk Expr := do
  match ← peek with
  | some (.mark .dot) =>
    if name = "super" then
      advance
      let target ← expectName
      pure (.call (.super target) (← arguments w))
    else pure (.attribute name)
  | some (.mark .leftParen) =>
    match Builtin.ofName? name with
    | some function =>
      advance
      let inner ← w.templates true
      expect .rightParen
      pure (.builtin function inner)
    | none => pure (.call (.name name) (← arguments w))
  | _ => pure (.attribute name)

def addExpr (items : List Expr) : Walk (List Expr) := do
  pure (items ++ [← w.expr])

def listItems : Walk Expr := do
  if ← eat .rightBracket then pure (.list [])
  else
    let items ← repeated .comma (addExpr w) (← addExpr w [])
    expect .rightBracket
    pure (.list items)

def parenthesized : Walk Expr := do
  let inner ← w.templates true
  expect .rightParen
  match ← peek with
  | some (.mark .leftParen) => pure (.call (.computed inner) (← arguments w))
  | _ => pure (.rendered inner)

/-- Goes back to the symbol that has just been consumed, to report it. The end is not consumed. -/
def refuse (found : Option Symbol) (problem : SourceProblem) : Walk Expr := do
  if found.isSome then stepBack
  fail problem

/-- What an expression begins with is consumed before it is looked at. -/
def atom : Walk Expr := do
  match ← take with
  | some (.name name) => afterName w name
  | some (.text s) => pure (.text s)
  | some (.number n) => pure (.number n)
  | some (.mark .leftBracket) => listItems w
  | some (.mark .leftParen) => parenthesized w
  | some (.inline raw) => refuse (some (.inline raw)) .misplacedInline
  | found => refuse found (.unexpectedSymbol found)

def addProperty (target : Expr) : Walk Expr := do
  match ← peek with
  | some (.name name) =>
    advance
    pure (.property target (.fixed name))
  | some (.mark .leftParen) =>
    advance
    let inner ← w.templates true
    expect .rightParen
    pure (.property target (.computed inner))
  | found => fail (.expectedProperty found)

def primary : Walk Expr := do
  repeated .dot (addProperty w) (← atom w)

def addPrimary (left : Expr) : Walk Expr := do
  pure (.concat left (← primary w))

def sum : Walk Expr := do
  repeated .plus (addPrimary w) (← primary w)

def addSource (sources : List Expr) : Walk (List Expr) := do
  pure (sources ++ [← sum w])

def addTemplate (templates : List TemplateRef) : Walk (List TemplateRef) := do
  pure (templates ++ [← templateRef template w])

def addApplication (top : Bool) (source : Expr) : Walk Expr := do
  let templates ← addTemplate template w []
  let templates ←
    if top then repeated .comma (addTemplate template w) templates else pure templates
  pure (.apply source templates)

def aligned (first : Expr) : Walk Expr := do
  let sources ← repeated .comma (addSource w) [first]
  expect .colon
  pure (.applyAligned sources (← templateRef template w))

def application (top : Bool) : Walk Expr := do
  let first ← sum w
  let source ←
    match top, ← peek with
    | true, some (.mark .comma) => aligned template w first
    | _, _ => pure first
  repeated .colon (addApplication template w top) source

/-- An expression with templates, or one without if no `top` is given. A phrase inside it begins
further on. -/
def phrase (top? : Option Bool) (c : Cursor) : Option (Option Expr × Cursor) :=
  let inside : Walks := {
    templates := fun top c' =>
      if _consumed : c'.left < c.left then phrase (some top) c' else none
    expr := fun c' => if _consumed : c'.left < c.left then phrase none c' else none }
  match top? with
  | some top => application template inside top c
  | none => sum inside c
termination_by c.left

def phrases : Walks where
  templates top := phrase template (some top)
  expr := phrase template none

def setOption (options : ExprOptions) (name : String) (value : Expr) : Walk ExprOptions :=
  match name with
  | "separator" => pure { options with separator := some value }
  | "null" => pure { options with null := some value }
  | "format" => pure { options with format := some value }
  | _ => fail (.unknownOption name)

def option (options : ExprOptions) : Walk ExprOptions := do
  let name ← expectName
  let value ← if ← eat .equals then w.expr else pure (.text "")
  setOption options name value

def addOption (options : ExprOptions) : Walk ExprOptions := do
  match ← attempt (option w options) with
  | some options => pure options
  | none =>
    synchronize [.comma]
    pure options

def optionsBehind (expr : Expr) : Walk (Expr × ExprOptions) := do
  let options ←
    if ← eat .semicolon then repeated .comma (addOption w) (← addOption w .none)
    else pure .none
  expectEnd
  pure (expr, options)

def action : Walk (Expr × ExprOptions) := do
  match ← attempt (w.templates true) with
  | some expr => optionsBehind w expr
  | none =>
    synchronize [.semicolon]
    optionsBehind w (.text "")

def condition : Walk Expr := do
  let negated ← eat .bang
  let expr := (← attempt (w.templates true)).getD (.text "")
  expectEnd
  pure (if negated then .not expr else expr)

/-- Walks over a source from its first token on; nothing comes of it where the walk is stuck. -/
def parseAll {α : Type} (ctx : ParseContext) (fits : List Char → Prop) [DecidablePred fits]
    (walk : Walks → Walk α) (default : α) (pos : Position) (source : List Char) :
    Option (α × List TemplateError) :=
  match Lexeme.scan pos source with
  | .error e => some (default, [e])
  | .ok lexemes =>
    let tokens := lexemes.items.map (fun l => (some l.symbol, l.pos)) ++ [(none, lexemes.stop)]
    (walk (phrases (inlineTemplate ctx fits)) ⟨tokens, 0, [], 0⟩).map fun ran =>
      (ran.1.getD default, ran.2.errors)

/-- Bodies are handed back only if they are shorter than the source. -/
def parseAction (ctx : ParseContext) (pos : Position) (source : List Char) :
    Option ((Expr × ExprOptions) × List TemplateError) :=
  parseAll ctx (Grammar.Shrinks source) action (.text "", .none) pos source

def parseCondition (ctx : ParseContext) (pos : Position) (source : List Char) :
    Option (Expr × List TemplateError) :=
  parseAll ctx (Grammar.Shrinks source) condition (.text "") pos source

end Walks
end Stencil
