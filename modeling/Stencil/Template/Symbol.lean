/-!
# Symbols of the expression language

What an expression chunk is made of once blanks are gone, and how a symbol is shown in a message.
-/
namespace Stencil

/-- The symbols of one character. -/
inductive Mark where
  | leftParen | rightParen | leftBracket | rightBracket
  | comma | colon | semicolon | dot | plus | bang | equals
  deriving DecidableEq, Repr

namespace Mark

def toChar : Mark → Char
  | leftParen => '('
  | rightParen => ')'
  | leftBracket => '['
  | rightBracket => ']'
  | comma => ','
  | colon => ':'
  | semicolon => ';'
  | dot => '.'
  | plus => '+'
  | bang => '!'
  | equals => '='

def all : List Mark := [
  leftParen, rightParen, leftBracket, rightBracket, comma, colon, semicolon, dot, plus, bang,
  equals]

def ofChar? (c : Char) : Option Mark := all.find? fun m => m.toChar = c

theorem ofChar?_toChar (m : Mark) : ofChar? m.toChar = some m := by cases m <;> decide

theorem toChar_of_ofChar? {c : Char} {m : Mark} (h : ofChar? c = some m) : m.toChar = c := by
  simpa using List.find?_some h

end Mark

inductive Symbol where
  | name (name : String)
  /-- A quoted text, its escapes resolved. -/
  | text (text : String)
  | number (n : Int64)
  /-- A template in braces: the characters between them as they stand. -/
  | inline (body : List Char)
  | mark (mark : Mark)
  deriving DecidableEq, Repr

namespace Symbol

/-- How a message names the symbol that it met; past the last one lies the end. -/
def describe : Option Symbol → String
  | some (name s) => "'" ++ s ++ "'"
  | some (text s) => "\"" ++ s ++ "\""
  | some (number n) => toString n.toInt
  | some (inline _) => "anonymous template"
  | some (mark m) => "'" ++ m.toChar.toString ++ "'"
  | none => "end of expression"

end Symbol
end Stencil
