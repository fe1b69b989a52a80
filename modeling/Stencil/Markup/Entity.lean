import Stencil.Decimal.Reading
/-!
# Entities

The five named entities and the characters named by number in decimal or, behind an `x`, in
hexadecimal digits.
-/
namespace Stencil.Markup

def hexDigit? (c : Char) : Option Nat :=
  if '0' ≤ c ∧ c ≤ '9' then some (c.toNat - '0'.toNat)
  else if 'a' ≤ c ∧ c ≤ 'f' then some (c.toNat - 'a'.toNat + 10)
  else if 'A' ≤ c ∧ c ≤ 'F' then some (c.toNat - 'A'.toNat + 10)
  else none

/-- The number that digits of a base up to 16 name. -/
def number? (base : Nat) (digits : List Char) : Option Nat :=
  if digits.isEmpty then none
  else digits.foldlM (fun n c => do
    let digit ← hexDigit? c
    if digit < base then some (base * n + digit) else none) 0

/-- The character of a code, which is not zero and no half of a pair. -/
def charOfCode? (n : Nat) : Option Char :=
  if n ≠ 0 ∧ n.isValidChar then some (Char.ofNat n) else none

/-- The character that an entity, without its `&` and `;`, stands for. -/
def entity? (name : List Char) : Option Char :=
  match name with
  | '#' :: 'x' :: digits => (number? 16 digits).bind charOfCode?
  | '#' :: digits => (number? 10 digits).bind charOfCode?
  | _ =>
    match String.ofList name with
    | "lt" => some '<'
    | "gt" => some '>'
    | "amp" => some '&'
    | "apos" => some '\''
    | "quot" => some '"'
    | _ => none

/-- A text with its entities resolved, `open?` being the part of an entity that has been read. There
is none if an entity is unknown or does not end before the next one begins. -/
def resolveFrom (open? : Option (List Char)) : List Char → Option (List Char)
  | [] => if open?.isNone then some [] else none
  | c :: s =>
    match open? with
    | none =>
      if c = '&' then resolveFrom (some []) s
      else (resolveFrom none s).map (c :: ·)
    | some name =>
      if c = '&' then none
      else if c = ';' then do
        let resolved ← entity? name.reverse
        (resolveFrom none s).map (resolved :: ·)
      else resolveFrom (some (c :: name)) s

def resolveEntities (s : List Char) : Option (List Char) := resolveFrom none s

end Stencil.Markup
