import Stencil.Text.CodePoints
/-!
# White space

The characters that trimming removes and that separate lexemes: the White_Space property.
-/
namespace Stencil.Text

/-- The ranges of the White_Space property. -/
def blankRanges : List (Nat × Nat) := [
  (0x9, 0xD), (0x20, 0x20), (0x85, 0x85), (0xA0, 0xA0), (0x1680, 0x1680), (0x2000, 0x200A),
  (0x2028, 0x2029), (0x202F, 0x202F), (0x205F, 0x205F), (0x3000, 0x3000)]

def isBlank (c : Char) : Bool := inRanges blankRanges c.toNat

def trimStart (s : List Char) : List Char := s.dropWhile isBlank

def trimEnd (s : List Char) : List Char := (s.reverse.dropWhile isBlank).reverse

/-- The text without the blanks at its two ends. -/
def trim (s : List Char) : List Char := trimEnd (trimStart s)

/-- There is nothing to trim where no blanks stand at the ends. -/
theorem trim_eq_self {first last : Char} (visible : isBlank first = false)
    (visible' : isBlank last = false) (s : List Char) :
    trim (first :: (s ++ [last])) = first :: (s ++ [last]) := by
  rw [trim, trimStart, List.dropWhile_cons_of_neg (by simp [visible]), trimEnd,
    ← List.cons_append, List.reverse_append, List.reverse_singleton, List.singleton_append,
    List.dropWhile_cons_of_neg (by simp [visible']), List.reverse_cons, List.reverse_reverse]

theorem mem_of_mem_trim {c : Char} {s : List Char} (member : c ∈ trim s) : c ∈ s := by
  rw [trim, trimEnd, List.mem_reverse] at member
  have inside := (List.dropWhile_suffix isBlank).subset member
  exact (List.dropWhile_suffix isBlank).subset (List.mem_reverse.1 inside)

def allBlank (s : List Char) : Bool := s.all isBlank

end Stencil.Text
