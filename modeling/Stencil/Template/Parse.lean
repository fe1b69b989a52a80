import Stencil.Template.Lexeme
/-!
# Parsing with recovery

A parser reads lexemes from the front of a list and records errors as it goes. It may fail, which
means that an error has been recorded; what it has consumed and recorded by then stays.
-/
namespace Stencil

open Text (Position)

/-- What is left to read and what has been found wrong; `inlines` counts the inline templates met
so far, which are named by their number. -/
structure ParseState where
  rest : List Lexeme
  /-- The place of the end. -/
  stop : Position
  errors : List TemplateError
  inlines : Nat
  deriving DecidableEq, Repr

def Parse (α : Type) : Type := ParseState → Option α × ParseState

namespace Parse

variable {α β : Type}

instance : Monad Parse where
  pure a := fun st => (some a, st)
  bind p f := fun st =>
    match p st with
    | (some a, st) => f a st
    | (none, st) => (none, st)

theorem bind_apply (p : Parse α) (f : α → Parse β) (st : ParseState) :
    (p >>= f) st =
      match p st with
      | (some a, st) => f a st
      | (none, st) => (none, st) := rfl

/-- The next symbol, if any. -/
def peek : Parse (Option Symbol) := fun st => (some (st.rest.head?.map Lexeme.symbol), st)

/-- The symbol behind the next one, if any. -/
def peekSecond : Parse (Option Symbol) := fun st =>
  (some ((st.rest.drop 1).head?.map Lexeme.symbol), st)

def position : Parse Position := fun st =>
  (some ((st.rest.head?.map Lexeme.pos).getD st.stop), st)

def advance : Parse Unit := fun st => (some (), { st with rest := st.rest.drop 1 })

/-- Consumes the mark if it is next. -/
def eat (m : Mark) : Parse Bool := do
  if (← peek) = some (.mark m) then
    advance
    pure true
  else pure false

def record (errors : List TemplateError) : Parse Unit := fun st =>
  (some (), { st with errors := st.errors ++ errors })

/-- Records a problem at the next symbol and goes on. -/
def report (problem : SourceProblem) : Parse Unit := do
  record [.malformed (← position) problem]

/-- Fails without a record of its own. -/
def giveUp : Parse α := fun st => (none, st)

/-- Records a problem at the next symbol and fails. -/
def fail (problem : SourceProblem) : Parse α := do
  report problem
  giveUp

def expect (m : Mark) : Parse Unit := do
  if ← eat m then pure ()
  else fail (.expectedMark m (← peek))

def expectName : Parse String := do
  match ← peek with
  | some (.name s) =>
    advance
    pure s
  | found => fail (.expectedName found)

/-- Turns failure into `none`. -/
def attempt (p : Parse α) : Parse (Option α) := fun st =>
  match p st with
  | (a?, st) => (some a?, st)

/-- Drops lexemes up to one of the marks outside brackets, or up to a closing bracket that no
dropped one opens. -/
def skipTo (marks : List Mark) : Nat → List Lexeme → List Lexeme
  | _, [] => []
  | depth, l :: rest =>
    if depth = 0 ∧ marks.any (fun m => l.symbol = .mark m) then l :: rest
    else match l.symbol, depth with
      | .mark .leftParen, depth => skipTo marks (depth + 1) rest
      | .mark .leftBracket, depth => skipTo marks (depth + 1) rest
      | .mark .rightParen, 0 => l :: rest
      | .mark .rightBracket, 0 => l :: rest
      | .mark .rightParen, depth + 1 => skipTo marks depth rest
      | .mark .rightBracket, depth + 1 => skipTo marks depth rest
      | _, depth => skipTo marks depth rest

def synchronize (marks : List Mark) : Parse Unit := fun st =>
  (some (), { st with rest := skipTo marks 0 st.rest })

/-- `next` once for each mark `m` that is met in turn, `steps` times at most. -/
def chain (m : Mark) (next : α → Parse α) : Nat → α → Parse α
  | 0, a => pure a
  | steps + 1, a => do
    if ← eat m then chain m next steps (← next a)
    else pure a

/-- `next` once for each mark `m` that is met in turn. Every step consumes a mark, so there are no
more steps than lexemes. -/
def repeated (m : Mark) (next : α → Parse α) (a : α) : Parse α := fun st =>
  chain m next st.rest.length a st

/-- Records what stands behind the end of a complete parse. -/
def expectEnd : Parse Unit := do
  match ← peek with
  | none => pure ()
  | found => report (.unexpectedSymbol found)

end Parse
end Stencil
