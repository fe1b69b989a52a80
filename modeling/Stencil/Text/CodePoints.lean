/-!
# Sets of characters given by ranges of code points

A table lists the ranges of one Unicode property (version 17); membership is a scan of the table.
-/
namespace Stencil.Text

/-- Some range of the table holds the code point, both ends included. -/
def inRanges (table : List (Nat × Nat)) (codePoint : Nat) : Bool :=
  table.any fun range => range.1 ≤ codePoint && codePoint ≤ range.2

end Stencil.Text
