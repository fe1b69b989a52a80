import Stencil.Markup.Reader
/-!
# Attributes of a tag

`name="value"` pairs behind the name of a tag. What is no such pair is passed over: a name without
an equals sign, a value without quotes, and a name that came before.
-/
namespace Stencil.Markup

def dropSpace (s : List Char) : List Char := s.dropWhile isSpace

def dropToSpace (s : List Char) : List Char := s.dropWhile fun c => !isSpace c

theorem length_dropWhile_le {α : Type} (p : α → Bool) (s : List α) :
    (s.dropWhile p).length ≤ s.length :=
  (List.dropWhile_suffix p).length_le

theorem length_dropSpace_le (s : List Char) : (dropSpace s).length ≤ s.length :=
  length_dropWhile_le _ s

theorem length_dropToSpace_le (s : List Char) : (dropToSpace s).length ≤ s.length :=
  length_dropWhile_le _ s

def isNamePart (c : Char) : Bool := c ≠ '=' && !isSpace c

/-- The attributes that follow the names `seen`. A quote that is never closed ends them. -/
def attributesFrom (seen : List (List Char)) (s : List Char) : List Attribute :=
  match _start : dropSpace s with
  | [] => []
  | first :: more =>
    let name := first :: more.takeWhile isNamePart
    match _equals : dropSpace (more.dropWhile isNamePart) with
    | [] => []
    | c :: rest =>
      if c ≠ '=' then attributesFrom seen (c :: rest)
      else if seen.contains name then attributesFrom seen (dropToSpace rest)
      else
        match _value : dropSpace rest with
        | [] => []
        | quote :: body =>
          if quote = '"' ∨ quote = '\'' then
            match _closing : body.dropWhile (· ≠ quote) with
            | [] => []
            | _ :: behind =>
              ⟨name, body.takeWhile (· ≠ quote)⟩ :: attributesFrom (name :: seen) behind
          else attributesFrom (name :: seen) (dropToSpace (quote :: body))
termination_by s.length
decreasing_by
  all_goals
    have h₁ := length_dropSpace_le s
    have h₂ := length_dropSpace_le (more.dropWhile isNamePart)
    have h₃ := length_dropWhile_le isNamePart more
    rw [_start] at h₁
    rw [_equals] at h₂
    simp only [List.length_cons] at h₁ h₂ ⊢
  · omega
  · have h₄ := length_dropToSpace_le rest
    omega
  · have h₄ := length_dropSpace_le rest
    have h₅ := length_dropWhile_le (fun x => decide (x ≠ quote)) body
    rw [_value] at h₄
    rw [_closing] at h₅
    simp only [List.length_cons] at h₄ h₅
    omega
  · have h₄ := length_dropSpace_le rest
    have h₅ := length_dropToSpace_le (quote :: body)
    rw [_value] at h₄
    simp only [List.length_cons] at h₄ h₅
    omega

/-- The value of an attribute among what follows the name of a tag. -/
def attribute? (s : List Char) (name : String) : Option String :=
  ((attributesFrom [] s).find? fun a => a.name = name.toList).map fun a => String.ofList a.value

end Stencil.Markup
