/-!
# Cutting texts at other texts

Splitting at the first or last occurrence of a character or a word, and replacing a word.
-/
namespace Stencil.Text

/-- What follows `word` in a text that begins with it. -/
def dropWord? : List Char → List Char → Option (List Char)
  | [], s => some s
  | _ :: _, [] => none
  | w :: word, c :: s => if w = c then dropWord? word s else none

theorem dropWord?_eq_some_iff {word s rest : List Char} :
    dropWord? word s = some rest ↔ s = word ++ rest := by
  induction word generalizing s with
  | nil => simp [dropWord?]
  | cons w word ih =>
    cases s with
    | nil => simp [dropWord?]
    | cons c s => by_cases h : w = c <;> simp [dropWord?, ih, h, eq_comm (a := c)]

/-- What precedes `word` in a text that ends with it. -/
def dropLastWord? (word s : List Char) : Option (List Char) :=
  (dropWord? word.reverse s.reverse).map List.reverse

theorem dropLastWord?_eq_some_iff {word s rest : List Char} :
    dropLastWord? word s = some rest ↔ s = rest ++ word := by
  simp only [dropLastWord?, Option.map_eq_some_iff, dropWord?_eq_some_iff]
  constructor
  · rintro ⟨t, h, rfl⟩
    simpa using congrArg List.reverse h
  · rintro rfl
    exact ⟨rest.reverse, by simp, by simp⟩

/-- The parts before and after the first occurrence of a word. -/
def splitAtWord? (word : List Char) : List Char → Option (List Char × List Char)
  | [] => if word = [] then some ([], []) else none
  | c :: s =>
    match dropWord? word (c :: s) with
    | some rest => some ([], rest)
    | none => (splitAtWord? word s).map fun parts => (c :: parts.1, parts.2)

theorem eq_of_splitAtWord? {word s before rest : List Char}
    (h : splitAtWord? word s = some (before, rest)) : s = before ++ word ++ rest := by
  induction s generalizing before with
  | nil =>
    by_cases hw : word = []
    · simp only [splitAtWord?, hw, ↓reduceIte, Option.some.injEq, Prod.mk.injEq] at h
      simp [hw, ← h.1, ← h.2]
    · simp [splitAtWord?, hw] at h
  | cons c s ih =>
    simp only [splitAtWord?] at h
    split at h
    · rename_i rest' hr
      simp only [Option.some.injEq, Prod.mk.injEq] at h
      simpa [← h.1, h.2] using dropWord?_eq_some_iff.1 (h.2 ▸ hr)
    · simp only [Option.map_eq_some_iff, Prod.mk.injEq] at h
      obtain ⟨⟨b, r⟩, hs, rfl, rfl⟩ := h
      simp [ih hs]

/-- The parts before and after the last occurrence of a character. -/
def splitAtLast? (c : Char) (s : List Char) : Option (List Char × List Char) :=
  (splitAtWord? [c] s.reverse).map fun parts => (parts.2.reverse, parts.1.reverse)

/-- The texts between the occurrences of a separator; a text without it is one part. -/
def splitOn (sep : Char) : List Char → List (List Char)
  | [] => [[]]
  | c :: s =>
    if c = sep then [] :: splitOn sep s
    else match splitOn sep s with
      | [] => [[c]]
      | part :: parts => (c :: part) :: parts

/-- Every occurrence of the two characters `first second`, found from the left, becomes the second
alone. -/
def dropBefore (first second : Char) : List Char → List Char
  | [] => []
  | [c] => [c]
  | a :: b :: s =>
    if a = first ∧ b = second then second :: dropBefore first second s
    else a :: dropBefore first second (b :: s)

theorem length_dropBefore_le (first second : Char) (s : List Char) :
    (dropBefore first second s).length ≤ s.length := by
  fun_induction dropBefore first second s <;> (simp_all; try omega)

end Stencil.Text
