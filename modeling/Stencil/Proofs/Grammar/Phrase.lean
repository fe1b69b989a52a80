import Stencil.Template.Grammar
/-!
# The phrases of the expression language

The grammar of expression chunks as a relation between symbols: a phrase is read from the front of a
list and leaves the rest. A rule looks ahead where the grammar says what may not follow. Repetitions
are phrases of their own, and nothing tells them to go on as far as they can.
-/
namespace Stencil

/-- What the rules of the grammar are about. -/
inductive Phrase where
  | action
  | condition
  | option
  /-- `(',' option)*` -/
  | options
  /-- An expression with the templates applied to it, at the top of a chunk or of a parenthesis, or
  in an argument list. -/
  | templates (top : Bool)
  /-- `(':' tref (',' tref)*)*`, in an argument list `(':' tref)*` -/
  | applications (top : Bool)
  /-- `(',' tref)*` -/
  | trefs
  | tref
  | expr
  /-- `(',' expr)*` -/
  | exprs
  /-- `('+' primary)*` -/
  | primaries
  | primary
  /-- `('.' (ID | '(' texpr ')'))*` -/
  | properties
  | atom
  | args
  /-- `(',' ID '=' narg)*`, where the names in `bound` are bound already -/
  | bindings (bound : List String)

/-- The names of the options of a chunk. -/
def IsOption (name : String) : Prop := name = "separator" ∨ name = "null" ∨ name = "format"

namespace Symbol

/-- The mark is next. -/
abbrev Starts (m : Mark) (s : List Symbol) : Prop := s.head? = some (.mark m)

/-- The symbols begin with a name and an equals sign. -/
def StartsBinding (s : List Symbol) : Prop :=
  (∃ name, s.head? = some (.name name)) ∧ Starts .equals (s.drop 1)

end Symbol

open Stencil.Symbol (Starts StartsBinding)

/-- The phrase is read from the front of the first list and leaves the second. `counts` tells which
inline templates count as well-formed. -/
inductive Reads (counts : List Char → Prop) : Phrase → List Symbol → List Symbol → Prop
  | bareAction {s : List Symbol} : Reads counts (.templates true) s [] → Reads counts .action s []
  | action {s t u : List Symbol} : Reads counts (.templates true) s (.mark .semicolon :: t) →
    Reads counts .option t u → Reads counts .options u [] → Reads counts .action s []
  | condition {s : List Symbol} : Reads counts (.templates true) s [] →
    Reads counts .condition s []
  | negated {s : List Symbol} : Reads counts (.templates true) s [] →
    Reads counts .condition (.mark .bang :: s) []
  | bareOption {name : String} {r : List Symbol} :
    IsOption name → Reads counts .option (.name name :: r) r
  | option {name : String} {s r : List Symbol} : IsOption name → Reads counts .expr s r →
    Reads counts .option (.name name :: .mark .equals :: s) r
  | noOptions {r : List Symbol} : Reads counts .options r r
  | options {s t r : List Symbol} : Reads counts .option s t → Reads counts .options t r →
    Reads counts .options (.mark .comma :: s) r
  | templates {top : Bool} {s t r : List Symbol} : Reads counts .expr s t →
    Reads counts (.applications top) t r → Reads counts (.templates top) s r
  | aligned {s t u v r : List Symbol} : Reads counts .expr s (.mark .comma :: t) →
    Reads counts .exprs (.mark .comma :: t) (.mark .colon :: u) → Reads counts .tref u v →
    Reads counts (.applications true) v r → Reads counts (.templates true) s r
  | noApplications {top : Bool} {r : List Symbol} : Reads counts (.applications top) r r
  | applications {s t u r : List Symbol} : Reads counts .tref s t → Reads counts .trefs t u →
    Reads counts (.applications true) u r →
    Reads counts (.applications true) (.mark .colon :: s) r
  | nestedApplications {s t r : List Symbol} : Reads counts .tref s t →
    Reads counts (.applications false) t r →
    Reads counts (.applications false) (.mark .colon :: s) r
  | noTrefs {r : List Symbol} : Reads counts .trefs r r
  | trefs {s t r : List Symbol} : Reads counts .tref s t → Reads counts .trefs t r →
    Reads counts .trefs (.mark .comma :: s) r
  | namedTref {name : String} {s r : List Symbol} : Reads counts .args s r →
    Reads counts .tref (.name name :: s) r
  | superTref {name : String} {s r : List Symbol} : Reads counts .args s r →
    Reads counts .tref (.name "super" :: .mark .dot :: .name name :: s) r
  | computedTref {s t r : List Symbol} :
    Reads counts (.templates true) s (.mark .rightParen :: t) → Reads counts .args t r →
    Reads counts .tref (.mark .leftParen :: s) r
  | inlineTref {raw : List Char} {r : List Symbol} : counts raw →
    Reads counts .tref (.inline raw :: r) r
  | expr {s t r : List Symbol} : Reads counts .primary s t → Reads counts .primaries t r →
    Reads counts .expr s r
  | noExprs {r : List Symbol} : Reads counts .exprs r r
  | exprs {s t r : List Symbol} : Reads counts .expr s t → Reads counts .exprs t r →
    Reads counts .exprs (.mark .comma :: s) r
  | noPrimaries {r : List Symbol} : Reads counts .primaries r r
  | primaries {s t r : List Symbol} : Reads counts .primary s t → Reads counts .primaries t r →
    Reads counts .primaries (.mark .plus :: s) r
  | primary {s t r : List Symbol} : Reads counts .atom s t → Reads counts .properties t r →
    Reads counts .primary s r
  | noProperties {r : List Symbol} : Reads counts .properties r r
  | fixedProperty {name : String} {s r : List Symbol} : Reads counts .properties s r →
    Reads counts .properties (.mark .dot :: .name name :: s) r
  | computedProperty {s t r : List Symbol} :
    Reads counts (.templates true) s (.mark .rightParen :: t) → Reads counts .properties t r →
    Reads counts .properties (.mark .dot :: .mark .leftParen :: s) r
  | bareName {name : String} {r : List Symbol} : ¬ Starts .leftParen r →
    ¬ (name = "super" ∧ Starts .dot r) → Reads counts .atom (.name name :: r) r
  | superCall {name : String} {s r : List Symbol} : Reads counts .args s r →
    Reads counts .atom (.name "super" :: .mark .dot :: .name name :: s) r
  | builtin {name : String} {s r : List Symbol} : Builtin.ofName? name ≠ none →
    Reads counts (.templates true) s (.mark .rightParen :: r) →
    Reads counts .atom (.name name :: .mark .leftParen :: s) r
  | call {name : String} {s r : List Symbol} : Builtin.ofName? name = none →
    Reads counts .args s r → Reads counts .atom (.name name :: s) r
  | text {text : String} {r : List Symbol} : Reads counts .atom (.text text :: r) r
  | number {n : Int64} {r : List Symbol} : Reads counts .atom (.number n :: r) r
  | emptyList {r : List Symbol} :
    Reads counts .atom (.mark .leftBracket :: .mark .rightBracket :: r) r
  | list {s t r : List Symbol} : Reads counts .expr s t →
    Reads counts .exprs t (.mark .rightBracket :: r) →
    Reads counts .atom (.mark .leftBracket :: s) r
  | parenthesized {s r : List Symbol} :
    Reads counts (.templates true) s (.mark .rightParen :: r) → ¬ Starts .leftParen r →
    Reads counts .atom (.mark .leftParen :: s) r
  | computedCall {s t r : List Symbol} :
    Reads counts (.templates true) s (.mark .rightParen :: t) → Reads counts .args t r →
    Reads counts .atom (.mark .leftParen :: s) r
  | noArgs {r : List Symbol} : Reads counts .args (.mark .leftParen :: .mark .rightParen :: r) r
  | positional {s r : List Symbol} : ¬ StartsBinding s →
    Reads counts (.templates false) s (.mark .rightParen :: r) →
    Reads counts .args (.mark .leftParen :: s) r
  | named {name : String} {s t r : List Symbol} : Reads counts (.templates false) s t →
    Reads counts (.bindings [name]) t (.mark .rightParen :: r) →
    Reads counts .args (.mark .leftParen :: .name name :: .mark .equals :: s) r
  | noBindings {bound : List String} {r : List Symbol} : Reads counts (.bindings bound) r r
  | bindings {bound : List String} {name : String} {s t r : List Symbol} : name ∉ bound →
    Reads counts (.templates false) s t → Reads counts (.bindings (bound ++ [name])) t r →
    Reads counts (.bindings bound) (.mark .comma :: .name name :: .mark .equals :: s) r

end Stencil
