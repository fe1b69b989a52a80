import Stencil.Text.Quoted
import Stencil.Formatter
/-!
# Sample formatters

A formatter for each type, for trying out how values choose theirs.
-/
namespace Stencil.Sample

def textFormatter : Formatter := fun v format =>
  match format with
  | none => v.scalarText
  | some "upper" => v.scalarText.map Char.toUpper
  | some f => f ++ "<" ++ v.scalarText ++ ">"

/-- The digits of `hex` are those of the two's complement. -/
def intFormatter : Formatter
  | .int n, some "hex" => String.ofList (Text.hexDigits n.toUInt64.toNat)
  | v, _ => "i" ++ v.scalarText

def boolFormatter : Formatter := fun v _ => if v.truthy then "yes" else "no"

/-- Shows the text and the format that it was asked for. -/
def taggedFormatter (tag : String) : Formatter := fun v format =>
  tag ++ "[" ++ v.scalarText ++ "|" ++ format.getD "-" ++ "]"

end Stencil.Sample
