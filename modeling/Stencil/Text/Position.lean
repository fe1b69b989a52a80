/-!
# Positions in a text

Lines and columns count from one; a line feed ends a line and every other character takes a column.
-/
namespace Stencil.Text

structure Position where
  line : Nat
  column : Nat
  deriving DecidableEq, Repr

namespace Position

def start : Position := ⟨1, 1⟩

def step (pos : Position) (c : Char) : Position :=
  if c = '\n' then ⟨pos.line + 1, 1⟩ else ⟨pos.line, pos.column + 1⟩

/-- Where the text that begins at `pos` and reads `s` ends. -/
def after (pos : Position) (s : List Char) : Position := s.foldl step pos

@[simp] theorem after_nil (pos : Position) : pos.after [] = pos := rfl

@[simp] theorem after_cons (pos : Position) (c : Char) (s : List Char) :
    pos.after (c :: s) = (pos.step c).after s := rfl

theorem after_append (pos : Position) (s t : List Char) :
    pos.after (s ++ t) = (pos.after s).after t := List.foldl_append

/-- The place `offset` characters to the right on the same line. -/
def right (pos : Position) (offset : Nat) : Position := ⟨pos.line, pos.column + offset⟩

/-- The place in the whole text of what stands at `inner` in an excerpt that begins at `base`. -/
def shift (base inner : Position) : Position :=
  if inner.line = 1 then ⟨base.line, base.column + inner.column - 1⟩
  else ⟨base.line + inner.line - 1, inner.column⟩

end Position
end Stencil.Text
