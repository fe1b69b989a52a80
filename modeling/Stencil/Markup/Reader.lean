/-!
# Readers of marked-up text

What is asked of a reader: the tags of a text in their order, the attributes in a tag, and the
characters that entities stand for.
-/
namespace Stencil.Markup

def isSpace (c : Char) : Bool := c = ' ' || c = '\t' || c = '\n' || c = '\r'

/-- A mark at the start of a text that tells its encoding. -/
def byteOrderMark : Char := '\ufeff'

structure Attribute where
  name : List Char
  /-- The characters between the quotes as they stand. -/
  value : List Char
  deriving DecidableEq, Repr

/-- A tag. Texts, comments, processing instructions, character data and document types are none. -/
inductive Event where
  /-- A start tag; `stop` is the byte offset behind it. -/
  | opened (name attributes : List Char) (stop : Nat)
  /-- A tag that ends with `/`. -/
  | empty (name attributes : List Char)
  /-- An end tag; `stop` is the byte offset behind it. -/
  | closed (name : List Char) (stop : Nat)
  /-- Here the text is not well formed. -/
  | broken
  deriving DecidableEq, Repr

class Reader where
  /-- The tags of a text. Their offsets do not count a byte order mark at its start. -/
  events : List Char → List Event
  /-- The value of an attribute among what follows the name of a tag. -/
  attribute? : List Char → String → Option String
  /-- A text with its entities resolved, unless there is one that cannot be. -/
  resolve? : List Char → Option (List Char)

end Stencil.Markup
