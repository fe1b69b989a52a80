import Stencil.Proofs.Grammar.Phrase
/-!
# Where a phrase ends

A parser takes as much as it can, and a phrase may end earlier. The two agree where what follows the
phrase does not begin with a mark that the phrase could go on with.
-/
namespace Stencil

open Stencil.Symbol (Starts StartsBinding)

variable {counts : List Char → Prop} {P : Phrase} {s t r : List Symbol} {m : Mark}

namespace Phrase

/-- The marks that a phrase could go on with. -/
def goesOn : Phrase → List Mark
  | action => []
  | condition => []
  | option => [.equals, .plus, .dot]
  | options => [.comma, .equals, .plus, .dot]
  | templates true => [.comma, .colon, .plus, .dot]
  | templates false => [.colon, .plus, .dot]
  | applications true => [.colon, .comma]
  | applications false => [.colon]
  | trefs => [.comma]
  | tref => []
  | expr => [.plus, .dot]
  | exprs => [.comma, .plus, .dot]
  | primaries => [.plus, .dot]
  | primary => [.dot]
  | properties => [.dot]
  | atom => []
  | args => []
  | bindings _ => [.comma, .colon, .plus, .dot]

theorem goesOn_bindings (bound : List String) :
    (bindings bound).goesOn = [.comma, .colon, .plus, .dot] := rfl

/-- The mark before each item of a repetition. -/
def separator? : Phrase → Option Mark
  | options => some .comma
  | applications _ => some .colon
  | trefs => some .comma
  | exprs => some .comma
  | primaries => some .plus
  | properties => some .dot
  | bindings _ => some .comma
  | _ => none

/-- The phrases that are expressions or begin with one. -/
inductive IsExpression : Phrase → Prop
  | templates {top : Bool} : IsExpression (.templates top)
  | expr : IsExpression .expr
  | primary : IsExpression .primary
  | atom : IsExpression .atom

/-- What follows the phrase does not go on with it. -/
def Stops (P : Phrase) (r : List Symbol) : Prop := ∀ m ∈ P.goesOn, ¬ Starts m r

theorem Stops.mono {P' : Phrase} (stops : P.Stops r) (fewer : P'.goesOn ⊆ P.goesOn) : P'.Stops r :=
  fun m goes => stops m (fewer goes)

theorem stops_nil : P.Stops [] := fun _ _ starts => nomatch starts

theorem stops_mark (other : m ∉ P.goesOn) : P.Stops (.mark m :: r) := by
  intro m' goes starts
  obtain rfl := Symbol.mark.inj (Option.some.inj starts)
  exact other goes

end Phrase

namespace Reads

open Phrase (Stops stops_mark)

/-- No phrase adds symbols. -/
theorem length_le (reads : Reads counts P s r) : r.length ≤ s.length := by
  induction reads with
  | _ => grind

/-- A repetition is empty or begins with its separator. -/
theorem empty_or_separator (tail : Reads counts P s r) (repetition : P.separator? = some m) :
    s = r ∨ Starts m s := by
  cases tail with
  | noOptions | noApplications | noTrefs | noExprs | noPrimaries | noProperties | noBindings =>
    exact Or.inl rfl
  | options | applications | nestedApplications | trefs | exprs | primaries | fixedProperty
  | computedProperty | bindings =>
    obtain rfl := Option.some.inj repetition
    exact Or.inr rfl
  | _ => cases repetition

/-- A phrase stops before a repetition if it stops behind it and does not go on with what separates
the items. -/
theorem stops_before {T : Phrase} (tail : Reads counts T s r) (repetition : T.separator? = some m)
    (other : m ∉ P.goesOn) (stops : P.Stops r) : P.Stops s := by
  rcases tail.empty_or_separator repetition with rfl | starts
  · exact stops
  · obtain ⟨t, rfl⟩ := List.head?_eq_some_iff.1 starts
    exact stops_mark other

/-- Brackets are the only marks that an expression begins with. -/
theorem opens_with (reads : Reads counts P s r) (expression : P.IsExpression)
    (starts : Starts m s) : m = .leftParen ∨ m = .leftBracket := by
  induction reads with
  | templates _ _ ih _ => exact ih .expr starts
  | aligned _ _ _ _ ih => exact ih .expr starts
  | expr _ _ ih _ => exact ih .primary starts
  | primary _ _ ih _ => exact ih .atom starts
  | parenthesized | computedCall =>
    exact Or.inl (Symbol.mark.inj (Option.some.inj starts)).symm
  | emptyList | list =>
    exact Or.inr (Symbol.mark.inj (Option.some.inj starts)).symm
  | bareName | superCall | builtin | call | text | number => cases starts
  | _ => cases expression

theorem args_opened (reads : Reads counts .args s r) : Starts .leftParen s := by
  cases reads with
  | noArgs | positional | named => rfl

end Reads
end Stencil
