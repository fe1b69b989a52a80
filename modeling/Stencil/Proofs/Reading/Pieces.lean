import Stencil.Proofs.Reading.Written
/-!
# Marked-up texts in pieces

A tag, a comment or a section is read without looking behind its end, so it is read alike in front
of every other rest.
-/
namespace Stencil.Markup

open Text (byteLength dropWord? splitAtWord?)

variable {s rest : List Char}

/-! ## Reading one piece -/

theorem splitTag?_replace {quote? : Option Char} {content : List Char}
    (split : splitTag? quote? s = some (content, rest)) (rest' : List Char) :
    splitTag? quote? (content ++ '>' :: rest') = some (content, rest') := by
  induction s generalizing quote? content with
  | nil => simp [splitTag?] at split
  | cons c s ih =>
    simp only [splitTag?] at split
    split at split
    · split at split
      case isTrue => cases split; simp [splitTag?]
      case isFalse inner =>
        obtain ⟨⟨content, rest⟩, later, same⟩ := Option.map_eq_some_iff.1 split
        cases same
        simp [splitTag?, inner, ih later]
    · obtain ⟨⟨content, rest⟩, later, same⟩ := Option.map_eq_some_iff.1 split
      cases same
      simp [splitTag?, ih later]

/-- A word and what it may be written as have the same letters, whatever their case. -/
theorem dropWordAnyCase?_eq_some_iff {word : List Char} :
    dropWordAnyCase? word s = some rest ↔
      ∃ read, s = read ++ rest ∧ read.map Char.toLower = word.map Char.toLower := by
  induction word generalizing s with
  | nil => simp [dropWordAnyCase?, eq_comm]
  | cons w word ih =>
    cases s with
    | nil =>
      refine iff_of_false (fun none => by cases none) ?_
      rintro ⟨read, empty, letters⟩
      rw [(List.append_eq_nil_iff.1 empty.symm).1] at letters
      cases letters
    | cons c s =>
      rw [dropWordAnyCase?, Option.ite_none_right_eq_some, ih]
      constructor
      · rintro ⟨same, read, rfl, letters⟩
        exact ⟨c :: read, rfl, by rw [List.map_cons, List.map_cons, same, letters]⟩
      · rintro ⟨read, parts, letters⟩
        obtain ⟨first, read, rfl, same, more⟩ := List.map_eq_cons_iff.1 letters
        obtain ⟨rfl, behind⟩ := List.cons.inj parts
        exact ⟨same.symm, read, behind, more⟩

theorem dropDeclaration?_replace {depth : Nat} {named found : Bool}
    (dropped : dropDeclaration? depth named s = some (found, rest)) :
    ∃ read, s = read ++ rest ∧
      ∀ rest', dropDeclaration? depth named (read ++ rest') = some (found, rest') := by
  fun_induction dropDeclaration? depth named s with
  | case1 => cases dropped
  | case2 depth named s ih =>
    obtain ⟨read, rfl, others⟩ := ih dropped
    exact ⟨'<' :: read, rfl, fun rest' => by rw [List.cons_append, dropDeclaration?, others]⟩
  | case3 named s =>
    cases dropped
    exact ⟨['>'], rfl, fun _ => rfl⟩
  | case4 named s depth ih =>
    obtain ⟨read, rfl, others⟩ := ih dropped
    exact ⟨'>' :: read, rfl, fun rest' => by rw [List.cons_append, dropDeclaration?, others]⟩
  | case5 depth named c s notOpen notClose ih =>
    obtain ⟨read, rfl, others⟩ := ih dropped
    refine ⟨c :: read, rfl, fun rest' => ?_⟩
    rw [List.cons_append, dropDeclaration?.eq_5 _ _ _ _ notOpen notClose, others]

/-- A part between two words ends at the first occurrence of the second. -/
theorem enclosed_replace {opening closing body before : List Char} (nonempty : closing ≠ [])
    (opened : dropWord? opening s = some body)
    (closed : splitAtWord? closing body = some (before, rest)) :
    s = opening ++ (before ++ closing) ++ rest ∧ ∀ rest',
      dropWord? opening (opening ++ (before ++ closing) ++ rest') =
        some (before ++ closing ++ rest') ∧
      splitAtWord? closing (before ++ closing ++ rest') = some (before, rest') := by
  refine ⟨?_, fun rest' => ⟨?_, Text.splitAtWord?_replace nonempty closed rest'⟩⟩
  · rw [Text.dropWord?_eq_some_iff.1 opened, Text.eq_of_splitAtWord? closed]
    simp only [List.append_assoc]
  · exact Text.dropWord?_eq_some_iff.2 (List.append_assoc _ _ _)

/-- Which of the three it is shows in its first letter, so the rest has no part in it. -/
theorem dropMarked?_replace (dropped : dropMarked? s = some rest) :
    ∃ read, s = read ++ rest ∧ ∀ rest', dropMarked? (read ++ rest') = some rest' := by
  rw [dropMarked?] at dropped
  split at dropped
  case h_1 body comment =>
    obtain ⟨⟨before, rest⟩, closed, rfl⟩ := Option.map_eq_some_iff.1 dropped
    obtain ⟨parts, others⟩ := enclosed_replace (by decide) comment closed
    refine ⟨_, parts, fun rest' => ?_⟩
    rw [dropMarked?, (others rest').1]
    dsimp only
    rw [(others rest').2, Option.map_some]
  case h_2 =>
    split at dropped
    case h_1 body characters =>
      obtain ⟨⟨before, rest⟩, closed, rfl⟩ := Option.map_eq_some_iff.1 dropped
      obtain ⟨parts, others⟩ := enclosed_replace (by decide) characters closed
      have noComment (rest' : List Char) : dropWord? "--".toList
          ("[CDATA[".toList ++ (before ++ "]]>".toList) ++ rest') = none := rfl
      refine ⟨_, parts, fun rest' => ?_⟩
      rw [dropMarked?, noComment, (others rest').1]
      dsimp only
      rw [(others rest').2, Option.map_some]
    case h_2 =>
      split at dropped
      case h_2 => cases dropped
      case h_1 body doctype =>
        split at dropped
        case h_2 => cases dropped
        case h_1 last declared =>
          cases dropped
          obtain ⟨word, rfl, letters⟩ := dropWordAnyCase?_eq_some_iff.1 doctype
          obtain ⟨declaration, rfl, others⟩ := dropDeclaration?_replace declared
          obtain ⟨first, word, rfl, letter, more⟩ := List.map_eq_cons_iff.1 letters
          have noComment (s : List Char) : dropWord? "--".toList (first :: s) = none := by
            refine Text.dropWord?_eq_none_iff.2 fun here => ?_
            rw [← (List.cons_prefix_cons.1 here).1] at letter
            exact absurd letter (by decide)
          have noCharacters (s : List Char) : dropWord? "[CDATA[".toList (first :: s) = none := by
            refine Text.dropWord?_eq_none_iff.2 fun here => ?_
            rw [← (List.cons_prefix_cons.1 here).1] at letter
            exact absurd letter (by decide)
          refine ⟨first :: word ++ declaration, (List.append_assoc _ _ _).symm, fun rest' => ?_⟩
          have named : dropWordAnyCase? "DOCTYPE".toList
              (first :: (word ++ (declaration ++ rest'))) = some (declaration ++ rest') :=
            dropWordAnyCase?_eq_some_iff.2 ⟨_, rfl, letters⟩
          rw [List.append_assoc, List.cons_append, dropMarked?, noComment, noCharacters, named]
          dsimp only
          rw [others]

theorem eq_of_piece?_startTag {content : List Char}
    (found : piece? s = some (.startTag content, rest)) : s = content ++ '>' :: rest := by
  unfold piece? at found
  split at found
  case h_4 =>
    obtain ⟨⟨content, rest⟩, split, same⟩ := Option.map_eq_some_iff.1 found
    cases same
    exact eq_of_splitTag? split
  case h_3 => split at found <;> cases found
  all_goals
    obtain ⟨_, _, same⟩ := Option.map_eq_some_iff.1 found
    cases same

theorem eq_of_piece?_endTag {content : List Char}
    (found : piece? s = some (.endTag content, rest)) : s = '/' :: (content ++ '>' :: rest) := by
  unfold piece? at found
  split at found
  case h_2 =>
    obtain ⟨⟨content, rest⟩, split, same⟩ := Option.map_eq_some_iff.1 found
    cases same
    rw [eq_of_splitTag? split]
  case h_3 => split at found <;> cases found
  all_goals
    obtain ⟨_, _, same⟩ := Option.map_eq_some_iff.1 found
    cases same

/-- A piece ends where it ends whatever stands behind it. -/
theorem piece?_replace {piece : Piece} (found : piece? s = some (piece, rest)) :
    ∃ read, s = read ++ rest ∧ ∀ rest', piece? (read ++ rest') = some (piece, rest') := by
  unfold piece? at found
  split at found
  case h_1 marked =>
    obtain ⟨rest, dropped, same⟩ := Option.map_eq_some_iff.1 found
    cases same
    obtain ⟨read, rfl, others⟩ := dropMarked?_replace dropped
    refine ⟨'!' :: read, rfl, fun rest' => ?_⟩
    rw [List.cons_append, piece?, others, Option.map_some]
  case h_2 tag =>
    obtain ⟨⟨content, rest⟩, split, same⟩ := Option.map_eq_some_iff.1 found
    cases same
    refine ⟨'/' :: (content ++ ['>']), by simp [eq_of_splitTag? split], fun rest' => ?_⟩
    have again := splitTag?_replace split rest'
    simp [piece?, again]
  case h_3 instruction =>
    split at found
    case h_2 => cases found
    case h_1 first before rest split =>
      cases found
      have parts := Text.eq_of_splitAtWord? split
      obtain rfl : '?' = first := by simpa using congrArg List.head? parts
      refine ⟨'?' :: before ++ "?>".toList, parts, fun rest' => ?_⟩
      have again := Text.splitAtWord?_replace (by decide) split rest'
      simp only [List.cons_append] at again ⊢
      rw [piece?, again]
  case h_4 noMark noSlash noQuestion =>
    obtain ⟨⟨content, rest⟩, split, same⟩ := Option.map_eq_some_iff.1 found
    cases same
    have parts := eq_of_splitTag? split
    refine ⟨content ++ ['>'], by simp [parts], fun rest' => ?_⟩
    have again := splitTag?_replace split rest'
    rw [List.append_assoc, List.singleton_append]
    cases content with
    | nil => rfl
    | cons first content =>
      rw [List.cons_append] at parts again ⊢
      rw [piece?, again, Option.map_some]
      · rintro _ ⟨⟩
        exact noMark _ parts
      · rintro _ ⟨⟩
        exact noSlash _ parts
      · rintro _ ⟨⟩
        exact noQuestion _ parts

end Stencil.Markup
