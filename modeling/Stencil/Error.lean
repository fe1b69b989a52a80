import Stencil.Text.Position
import Stencil.Template.Symbol
/-!
# What can go wrong

Errors are causes; `TemplateError.message` holds their wording. A fatal error ends a render, any
other error of a render is recorded and stands for a missing value.
-/
namespace Stencil

open Text (Position)

/-- The control markers that need an open conditional. -/
inductive InnerMarker where
  | elseif | otherwise | endif
  deriving DecidableEq, Repr

def InnerMarker.word : InnerMarker → String
  | elseif => "elseif"
  | otherwise => "else"
  | endif => "endif"

/-- What is wrong with a template's source at one place. -/
inductive SourceProblem where
  | unterminatedComment
  | unterminatedExpression
  | unterminatedText
  | unterminatedInline
  /-- A start delimiter of several bytes behind an indentation: no text begins at its second byte,
  and the program does not return from there. -/
  | cutDelimiter
  | numberOutOfRange (digits : String)
  | unexpectedCharacter (c : Char)
  | unexpectedSymbol (found : Option Symbol)
  | expectedMark (mark : Mark) (found : Option Symbol)
  | expectedName (found : Option Symbol)
  | expectedProperty (found : Option Symbol)
  | expectedTemplate (found : Option Symbol)
  | misplacedInline
  | unknownOption (name : String)
  | repeatedArgument (name : String)
  | strayMarker (marker : InnerMarker)
  | markerAfterElse (marker : InnerMarker)
  | missingEndif
  deriving DecidableEq, Repr

def SourceProblem.message : SourceProblem → String
  | unterminatedComment => "unterminated comment"
  | unterminatedExpression => "unterminated expression"
  | unterminatedText => "unterminated string literal"
  | unterminatedInline => "unterminated anonymous template: missing '\x7d'"
  | cutDelimiter => "byte index 1 is not a char boundary"
  | numberOutOfRange digits => "integer out of range: " ++ digits
  | unexpectedCharacter c => "unexpected character '" ++ c.toString ++ "'"
  | unexpectedSymbol found => "unexpected " ++ Symbol.describe found
  | expectedMark mark found =>
    "expected " ++ Symbol.describe (some (.mark mark)) ++ " but found " ++ Symbol.describe found
  | expectedName found => "expected a name but found " ++ Symbol.describe found
  | expectedProperty found =>
    "expected a property name after '.' but found " ++ Symbol.describe found
  | expectedTemplate found => "expected a template but found " ++ Symbol.describe found
  | misplacedInline => "anonymous template must follow ':'"
  | unknownOption name => "unknown option '" ++ name ++ "'"
  | repeatedArgument name => "argument '" ++ name ++ "' assigned twice"
  | strayMarker marker => marker.word ++ " without matching if"
  | markerAfterElse marker => marker.word ++ " after else"
  | missingEndif => "missing endif"

/-- Why a data tree has no value. -/
inductive SerialProblem where
  | wideInteger
  | keyNotText (kind : String)
  | valueWithoutKey
  | custom (reason : String)
  deriving DecidableEq, Repr

def SerialProblem.message : SerialProblem → String
  | wideInteger => "i128 is not supported"
  | keyNotText kind => "Map key must be a string, got " ++ kind
  | valueWithoutKey => "Missing key for value"
  | custom reason => reason

/-- Why a group of templates does not take a change. -/
inductive GroupProblem where
  | alreadyDefined (template group : String)
  | alreadyExtends (group parent : String)
  /-- Group files that could not be loaded, with the messages from the outermost cause inwards. -/
  | unloadable (causes : List String)
  deriving DecidableEq, Repr

def GroupProblem.message : GroupProblem → String
  | alreadyDefined template group =>
    "Template '" ++ template ++ "' already defined in group '" ++ group ++ "'"
  | alreadyExtends group parent =>
    "Group '" ++ group ++ "' already extends another group, can't extend '" ++ parent ++ "'"
  | unloadable causes =>
    "Failed to load template groups from pattern: " ++ ": ".intercalate causes

inductive TemplateError where
  | malformed (pos : Position) (problem : SourceProblem)
  | missingAttribute (template name : String)
  | unresolvedProperty (target property : String)
  | arityMismatch (template : String) (expected actual : Nat)
  | templateNotFound (name : String)
  | unknownParameter (template name : String)
  /-- A template that encloses itself, with the names from the outermost template inwards. -/
  | infiniteRecursion (trace : List String)
  /-- The sink took no more text. -/
  | sinkFull
  | unserializable (problem : SerialProblem)
  | groupRefused (problem : GroupProblem)
  deriving DecidableEq, Repr

namespace TemplateError

/-- The names of nested templates, from the outermost inwards. -/
def traceText (names : List String) : String := " -> ".intercalate names

def message : TemplateError → String
  | malformed pos problem =>
    "Syntax Error at " ++ toString pos.line ++ ":" ++ toString pos.column ++ ": " ++
      problem.message
  | missingAttribute template name =>
    "No such attribute: '" ++ name ++ "' in template '" ++ template ++ "'"
  | unresolvedProperty target property =>
    "Can't resolve property '" ++ property ++ "' on " ++ target
  | arityMismatch template expected actual =>
    "Arity mismatch applying '" ++ template ++ "': expected " ++ toString expected ++ ", got " ++
      toString actual
  | templateNotFound name => "Template not found: '" ++ name ++ "'"
  | unknownParameter template name =>
    "Template '" ++ template ++ "' has no formal parameter '" ++ name ++ "'"
  | infiniteRecursion trace => "Infinite recursion detected: " ++ traceText trace
  | sinkFull => "Write Error: sink full"
  | unserializable problem => "Serialization Error: " ++ problem.message
  | groupRefused problem => "Group Load Error: " ++ problem.message

/-- A fatal error ends the render it happens in. -/
def isFatal : TemplateError → Bool
  | infiniteRecursion _ | sinkFull => true
  | _ => false

end TemplateError
end Stencil
