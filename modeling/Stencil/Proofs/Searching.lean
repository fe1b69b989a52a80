import Mathlib.Data.List.TakeWhile
import Stencil.Text.Search
/-!
# Finding words in texts

Where a text is split at a word or a character, and what does not depend on the rest of the text:
the first occurrence of a word is the same whatever comes behind it, and splitting at a separator
undoes joining with it.
-/
namespace Stencil.Text

variable {s : List Char}

theorem dropWord?_eq_none_iff {word : List Char} : dropWord? word s = none ↔ ¬ word <+: s := by
  rw [← not_iff_not, not_not, ← ne_eq, Option.ne_none_iff_exists']
  simp only [dropWord?_eq_some_iff]
  exact exists_congr fun _ => eq_comm

/-- A text is split at the first place that the word stands at. -/
theorem splitAtWord?_eq_some_iff {word before rest : List Char} (nonempty : word ≠ []) :
    splitAtWord? word s = some (before, rest) ↔
      s = before ++ word ++ rest ∧ ¬ word <:+: before ++ word.dropLast := by
  constructor
  · intro found
    refine ⟨eq_of_splitAtWord? found, ?_⟩
    induction s generalizing before with
    | nil => simp [splitAtWord?, nonempty] at found
    | cons c s ih =>
      rw [splitAtWord?] at found
      split at found
      · cases found
        intro inside
        have shorter := inside.length_le
        have positive := List.length_pos_iff.2 nonempty
        simp only [List.nil_append, List.length_dropLast] at shorter
        omega
      · rename_i missing
        obtain ⟨⟨inner, rest⟩, later, same⟩ := Option.map_eq_some_iff.1 found
        cases same
        rw [List.cons_append, List.infix_cons_iff]
        rintro (here | inside)
        · refine dropWord?_eq_none_iff.1 missing (here.trans ?_)
          rw [eq_of_splitAtWord? later, ← List.cons_append, List.append_assoc]
          refine (List.prefix_append_right_inj (c :: inner)).2 ?_
          exact (List.dropLast_prefix word).trans (List.prefix_append word rest)
        · exact ih later inside
  · rintro ⟨rfl, first⟩
    induction before with
    | nil =>
      obtain ⟨w, word, rfl⟩ := List.exists_cons_of_ne_nil nonempty
      have here : dropWord? (w :: word) (w :: word ++ rest) = some rest :=
        dropWord?_eq_some_iff.2 rfl
      rw [List.cons_append] at here
      simp only [List.nil_append, List.cons_append, splitAtWord?, here]
    | cons c before ih =>
      rw [List.cons_append, List.infix_cons_iff, not_or] at first
      have missing : dropWord? word (c :: (before ++ word ++ rest)) = none := by
        refine dropWord?_eq_none_iff.2 fun here => first.1 ?_
        have shorter : c :: (before ++ word.dropLast) <+: c :: (before ++ word ++ rest) := by
          rw [← List.cons_append, ← List.cons_append, ← List.cons_append, List.append_assoc]
          refine (List.prefix_append_right_inj (c :: before)).2 ?_
          exact (List.dropLast_prefix word).trans (List.prefix_append word rest)
        refine List.prefix_of_prefix_length_le here shorter ?_
        simp
        omega
      rw [List.cons_append, List.cons_append, splitAtWord?, missing, ih first.2]
      rfl

/-- Behind a text without the word, no character that is not its last one completes it. -/
theorem not_infix_append {word t : List Char} {c : Char} (ends : word.getLast? = some c)
    (outside : c ∉ t) (absent : ¬ word <:+: s) : ¬ word <:+: s ++ t := by
  obtain ⟨word, rfl⟩ := List.getLast?_eq_some_iff.1 ends
  rintro ⟨before, after, parts⟩
  rcases List.append_eq_append_iff.1 parts with ⟨more, whole, -⟩ | ⟨more, whole, rest⟩
  · exact absent ⟨before, more, whole.symm⟩
  · rcases List.eq_nil_or_concat more with rfl | ⟨more, last, rfl⟩
    · exact absent ⟨before, [], by simpa using whole⟩
    · refine outside ?_
      have same : c = last := by
        rw [List.concat_eq_append, ← List.append_assoc, ← List.append_assoc] at whole
        exact List.singleton_inj.1 (List.append_inj' whole rfl).2
      rw [rest, same]
      simp

/-- The first occurrence of a word is the same in front of another rest. -/
theorem splitAtWord?_replace {word before rest : List Char} (nonempty : word ≠ [])
    (split : splitAtWord? word s = some (before, rest)) (rest' : List Char) :
    splitAtWord? word (before ++ word ++ rest') = some (before, rest') :=
  (splitAtWord?_eq_some_iff nonempty).2 ⟨rfl, ((splitAtWord?_eq_some_iff nonempty).1 split).2⟩

theorem splitAtLast?_append {c : Char} {last : List Char} (apart : c ∉ last) (before : List Char) :
    splitAtLast? c (before ++ c :: last) = some (before, last) := by
  have first : splitAtWord? [c] (before ++ c :: last).reverse =
      some (last.reverse, before.reverse) := by
    refine (splitAtWord?_eq_some_iff (List.cons_ne_nil _ _)).2 ⟨by simp, fun inside => apart ?_⟩
    have member : c ∈ last.reverse ++ [c].dropLast := inside.subset List.mem_cons_self
    simpa using member
  rw [splitAtLast?, first]
  simp

theorem splitOn_of_not_mem {sep : Char} {part : List Char} (apart : sep ∉ part) :
    splitOn sep part = [part] := by
  induction part with
  | nil => rfl
  | cons c part ih =>
    obtain ⟨ne, apart⟩ := List.ne_and_not_mem_of_not_mem_cons apart
    rw [splitOn, if_neg ne.symm, ih apart]

theorem splitOn_append_cons {sep : Char} {part : List Char} (apart : sep ∉ part)
    (rest : List Char) : splitOn sep (part ++ sep :: rest) = part :: splitOn sep rest := by
  induction part with
  | nil => rw [List.nil_append, splitOn, if_pos rfl]
  | cons c part ih =>
    obtain ⟨ne, apart⟩ := List.ne_and_not_mem_of_not_mem_cons apart
    rw [List.cons_append, splitOn, if_neg ne.symm, ih apart]

/-- Splitting undoes joining. -/
theorem splitOn_intercalate {sep : Char} {parts : List (List Char)} (ne_nil : parts ≠ [])
    (apart : ∀ part ∈ parts, sep ∉ part) : splitOn sep ([sep].intercalate parts) = parts := by
  induction parts with
  | nil => exact absurd rfl ne_nil
  | cons part rest ih =>
    obtain ⟨first, others⟩ := List.forall_mem_cons.1 apart
    cases rest with
    | nil => simpa using splitOn_of_not_mem first
    | cons next more =>
      rw [List.intercalate_cons_cons, List.append_assoc, List.singleton_append,
        splitOn_append_cons first, ih (List.cons_ne_nil _ _) others]

end Stencil.Text
