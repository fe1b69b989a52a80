import Stencil.Markup.Entity
import Stencil.Markup.Event
import Stencil.Proofs.Printing.Markup
/-!
# Reading what was written

The standard reader finds in a marked-up text what was written: entities resolve to their
characters, sections and escaped texts leave no event, attributes are read one after another, and
every tag leaves its own event.
-/
namespace Stencil

namespace Markup

open Text (byteLength splitAtWord?)

variable {c : Char} {s t name value : List Char}

/-! ## Entities -/

/-- The name of an entity does not contain what ends it. -/
def IsEntityName (name : List Char) : Prop := ∀ d ∈ name, d ≠ ';' ∧ d ≠ '&' ∧ d ≠ '<'

instance : DecidablePred IsEntityName := fun name =>
  List.decidableBAll (fun d => d ≠ ';' ∧ d ≠ '&' ∧ d ≠ '<') name

/-- A special character is written as the entity that stands for it. -/
theorem escapeChar_of_special : ∀ c ∈ special, ∃ name,
    escapeChar c = '&' :: (name ++ [';']) ∧ IsEntityName name ∧ entity? name = some c := by
  refine forall_special ?_ ?_ ?_ ?_ ?_
  · exact ⟨"amp".toList, rfl, by decide, by decide⟩
  · exact ⟨"lt".toList, rfl, by decide, by decide⟩
  · exact ⟨"gt".toList, rfl, by decide, by decide⟩
  · exact ⟨"quot".toList, rfl, by decide, by decide⟩
  · exact ⟨"apos".toList, rfl, by decide, by decide⟩

theorem resolveFrom_name (isName : IsEntityName name) (read rest : List Char) :
    resolveFrom (some read) (name ++ ';' :: rest) =
      (entity? (read.reverse ++ name)).bind fun resolved =>
        (resolveFrom none rest).map (resolved :: ·) := by
  induction name generalizing read with
  | nil => simp [resolveFrom]
  | cons d name ih =>
    obtain ⟨⟨notEnd, notOpen, -⟩, isName⟩ := List.forall_mem_cons.1 isName
    rw [List.cons_append, resolveFrom]
    simp only [if_neg notOpen, if_neg notEnd, ih isName, List.reverse_cons, List.append_assoc,
      List.singleton_append]

/-! ## Events of a piece -/

/-- What a `<` leaves: the name in a tag ends before its first blank, and an end tag needs its
element to be the innermost. -/
theorem eventsFrom_lt (size : Nat) (names : List (List Char)) (s : List Char) :
    eventsFrom size names ('<' :: s) =
      match piece? s with
      | none => [.broken]
      | some (.other, rest) => eventsFrom size names rest
      | some (.startTag content, rest) =>
        if content.getLast? = some '/' then
          .empty (content.dropLast.takeWhile fun c => !isSpace c) (dropToSpace content.dropLast) ::
            eventsFrom size names rest
        else
          .opened (content.takeWhile fun c => !isSpace c) (dropToSpace content)
            (size - byteLength rest) ::
            eventsFrom size ((content.takeWhile fun c => !isSpace c) :: names) rest
      | some (.endTag content, rest) =>
        if names.head? = some (endName content) then
          .closed (endName content) (size - byteLength rest) :: eventsFrom size names.tail rest
        else [.broken] := by
  have here : ('<' :: s).dropWhile (fun c => c ≠ '<' && c ≠ '&') = '<' :: s := rfl
  rw [eventsFrom, here]
  simp only [if_neg (by decide : ¬ '<' = '&')]
  cases piece? s with
  | none => rfl
  | some found =>
    obtain ⟨piece, rest⟩ := found
    cases piece with
    | other => rfl
    | startTag content =>
      dsimp only
      split
      case h_1 slash => simp [slash]
      case h_2 noSlash =>
        rw [if_neg noSlash]
        rfl
    | endTag content =>
      cases names with
      | nil => rfl
      | cons top names => simp

section

variable {rest content : List Char}

theorem eventsFrom_other (piece : piece? s = some (.other, rest)) (size : Nat)
    (names : List (List Char)) : eventsFrom size names ('<' :: s) = eventsFrom size names rest := by
  rw [eventsFrom_lt, piece]

theorem eventsFrom_opened (piece : piece? s = some (.startTag content, rest))
    (stays : content.getLast? ≠ some '/') (size : Nat) (names : List (List Char)) :
    eventsFrom size names ('<' :: s) =
      .opened (content.takeWhile fun c => !isSpace c) (dropToSpace content)
        (size - byteLength rest) ::
        eventsFrom size ((content.takeWhile fun c => !isSpace c) :: names) rest := by
  rw [eventsFrom_lt, piece]
  exact if_neg stays

theorem eventsFrom_empty (piece : piece? s = some (.startTag (content ++ ['/']), rest))
    (size : Nat) (names : List (List Char)) :
    eventsFrom size names ('<' :: s) =
      .empty (content.takeWhile fun c => !isSpace c) (dropToSpace content) ::
        eventsFrom size names rest := by
  simp [eventsFrom_lt, piece]

theorem eventsFrom_closed (piece : piece? s = some (.endTag content, rest)) (size : Nat)
    (names : List (List Char)) :
    eventsFrom size (endName content :: names) ('<' :: s) =
      .closed (endName content) (size - byteLength rest) :: eventsFrom size names rest := by
  rw [eventsFrom_lt, piece]
  exact if_pos rfl

end

/-! ## Texts without events -/

/-- The text leaves no event and does not change what is read behind it. -/
def Eventless (text : List Char) : Prop :=
  ∀ size names rest, eventsFrom size names (text ++ rest) = eventsFrom size names rest

theorem Eventless.append (left : Eventless s) (right : Eventless t) : Eventless (s ++ t) := by
  intro size names rest
  rw [List.append_assoc, left, right]

theorem eventless_singleton (tag : c ≠ '<') (reference : c ≠ '&') : Eventless [c] := by
  intro size names rest
  have passed : ([c] ++ rest).dropWhile (fun c => c ≠ '<' && c ≠ '&') =
      rest.dropWhile (fun c => c ≠ '<' && c ≠ '&') := by
    simp [tag, reference]
  rw [eventsFrom, eventsFrom.eq_def size names rest, passed]

theorem eventless_flatMap {α : Type} {f : α → List Char} {items : List α}
    (each : ∀ a ∈ items, Eventless (f a)) : Eventless (items.flatMap f) := by
  induction items with
  | nil => exact fun _ _ _ => rfl
  | cons a items ih =>
    obtain ⟨first, others⟩ := List.forall_mem_cons.1 each
    exact first.append (ih others)

theorem eventless_reference (isName : IsEntityName name) : Eventless ('&' :: (name ++ [';'])) := by
  intro size names rest
  have here : ('&' :: (name ++ ';' :: rest)).dropWhile (fun c => c ≠ '<' && c ≠ '&') =
      '&' :: (name ++ ';' :: rest) := rfl
  have closed : (name ++ ';' :: rest).dropWhile (fun c => c ≠ ';' && c ≠ '&' && c ≠ '<') =
      ';' :: rest := by
    rw [List.dropWhile_append_of_pos fun c member => by simpa [and_assoc] using isName c member]
    rfl
  rw [List.cons_append, List.append_assoc, List.singleton_append, eventsFrom, here]
  simp only [if_true]
  rw [closed]
  rfl

theorem eventless_escape (s : List Char) : Eventless (escape s) := by
  refine eventless_flatMap fun c _ => ?_
  by_cases h : c ∈ special
  · obtain ⟨name, written, isName, -⟩ := escapeChar_of_special c h
    exact written ▸ eventless_reference isName
  · rw [escapeChar_of_not_special h]
    refine eventless_singleton ?_ ?_
    all_goals
      rintro rfl
      exact h (by decide)

theorem piece?_charData (s : List Char) : piece? ("![CDATA[".toList ++ s) =
    (splitAtWord? "]]>".toList s).map fun parts => (.other, parts.2) := by
  simp [piece?, dropMarked?, Text.dropWord?, Function.comp_def]

/-- A section ends where it should if its text does not end it. -/
theorem eventless_charData (free : ¬sectionEnd <:+: s) : Eventless (charData s) := by
  intro size names rest
  have closed : splitAtWord? "]]>".toList (s ++ ("]]>".toList ++ rest)) = some (s, rest) := by
    rw [← List.append_assoc]
    exact (Text.splitAtWord?_eq_some_iff (by decide)).2
      ⟨rfl, Text.not_infix_append (c := '>') (by decide) (by decide) free⟩
  have piece := piece?_charData (s ++ ("]]>".toList ++ rest))
  rw [closed, Option.map_some] at piece
  have shape : charData s ++ rest = '<' :: ("![CDATA[".toList ++ (s ++ ("]]>".toList ++ rest))) := by
    simp only [charData, List.append_assoc, List.cons_append]
  rw [shape]
  exact eventsFrom_other piece size names

/-! ## Attributes -/

theorem ne_of_isAlpha {d : Char} (letter : c.isAlpha = true) (other : d.isAlpha = false) :
    c ≠ d := by
  rintro rfl
  rw [letter] at other
  cases other

theorem isSpace_of_isAlpha (letter : c.isAlpha = true) : isSpace c = false := by
  simp [isSpace, ne_of_isAlpha letter]

theorem isNamePart_of_isAlpha (letter : c.isAlpha = true) : isNamePart c = true := by
  simp [isNamePart, isSpace_of_isAlpha letter, ne_of_isAlpha letter]

theorem attributesFrom_cons {a : Attribute} (writable : a.Writable) {seen : List (List Char)}
    (new : a.name ∉ seen) (rest : List Char) :
    attributesFrom seen (a.text ++ rest) = a :: attributesFrom (a.name :: seen) rest := by
  obtain ⟨name, value⟩ := a
  obtain ⟨first, more, rfl⟩ := List.exists_cons_of_ne_nil writable.name.ne_nil
  have moreParts (c : Char) (member : c ∈ more) : isNamePart c = true :=
    isNamePart_of_isAlpha (writable.name.letters c (List.mem_cons_of_mem first member))
  have visible := isSpace_of_isAlpha (writable.name.letters first List.mem_cons_self)
  have start : dropSpace (Attribute.text ⟨first :: more, value⟩ ++ rest) =
      first :: (more ++ '=' :: '"' :: (value ++ '"' :: rest)) := by
    have shape : Attribute.text ⟨first :: more, value⟩ ++ rest =
        ' ' :: first :: (more ++ '=' :: '"' :: (value ++ '"' :: rest)) := by
      simp [Attribute.text]
    rw [shape, dropSpace, List.dropWhile_cons_of_pos (by decide),
      List.dropWhile_cons_of_neg (by simp [visible])]
  have readName : (more ++ '=' :: '"' :: (value ++ '"' :: rest)).takeWhile isNamePart = more := by
    rw [List.takeWhile_append_of_pos moreParts, List.takeWhile_cons_of_neg (by decide),
      List.append_nil]
  have behindName : dropSpace ((more ++ '=' :: '"' :: (value ++ '"' :: rest)).dropWhile isNamePart) =
      '=' :: '"' :: (value ++ '"' :: rest) := by
    rw [List.dropWhile_append_of_pos moreParts]
    rfl
  have inside (c : Char) (member : c ∈ value) : decide (c ≠ '"') = true := by
    refine decide_eq_true ?_
    rintro rfl
    exact writable.value _ member (by decide)
  have readValue : (value ++ '"' :: rest).takeWhile (· ≠ '"') = value := by
    rw [List.takeWhile_append_of_pos inside, List.takeWhile_cons_of_neg (by decide),
      List.append_nil]
  have behindValue : (value ++ '"' :: rest).dropWhile (· ≠ '"') = '"' :: rest := by
    rw [List.dropWhile_append_of_pos inside, List.dropWhile_cons_of_neg (by decide)]
  have quote : dropSpace ('"' :: (value ++ '"' :: rest)) = '"' :: (value ++ '"' :: rest) := rfl
  rw [attributesFrom, start]
  dsimp only
  rw [behindName]
  dsimp only
  rw [readName, if_neg (not_not_intro rfl), if_neg (by simpa using new), quote]
  dsimp only
  rw [if_pos (Or.inl rfl), behindValue, readValue]

/-- Attributes of different names are read as they were written. -/
theorem attributesFrom_attributesText {attributes : List Attribute} {seen : List (List Char)}
    (writable : ∀ a ∈ attributes, a.Writable) (new : ∀ a ∈ attributes, a.name ∉ seen)
    (apart : attributes.Pairwise fun a b => a.name ≠ b.name) :
    attributesFrom seen (attributesText attributes) = attributes := by
  induction attributes generalizing seen with
  | nil =>
    rw [attributesText, List.flatMap_nil, attributesFrom]
    rfl
  | cons a rest ih =>
    obtain ⟨first, others⟩ := List.forall_mem_cons.1 writable
    obtain ⟨firstNew, othersNew⟩ := List.forall_mem_cons.1 new
    obtain ⟨differ, apart⟩ := List.pairwise_cons.1 apart
    rw [attributesText, List.flatMap_cons, attributesFrom_cons first firstNew]
    refine congrArg (a :: ·) (ih others (fun b member => ?_) apart)
    exact List.not_mem_cons_of_ne_of_not_mem (differ b member).symm (othersNew b member)

/-! ## Tags -/

/-- A part of a tag that the tag does not end in. -/
def TagPart (text : List Char) : Prop :=
  ∀ rest, splitTag? none (text ++ rest) =
    (splitTag? none rest).map fun parts => (text ++ parts.1, parts.2)

theorem TagPart.append (left : TagPart s) (right : TagPart t) : TagPart (s ++ t) := by
  intro rest
  rw [List.append_assoc, left, right, Option.map_map]
  simp [Function.comp_def]

theorem TagPart.flatMap {α : Type} {f : α → List Char} {items : List α}
    (each : ∀ a ∈ items, TagPart (f a)) : TagPart (items.flatMap f) := by
  induction items with
  | nil => exact fun rest => by simp
  | cons a items ih =>
    obtain ⟨first, others⟩ := List.forall_mem_cons.1 each
    exact first.append (ih others)

theorem tagPart_of_plain (plain : Plain s) : TagPart s := by
  rw [← List.flatMap_singleton' s]
  refine .flatMap fun c member rest => ?_
  have other := plain c member
  simp only [special, List.mem_cons, List.not_mem_nil, or_false, not_or] at other
  simp [splitTag?, other]

theorem splitTag?_quoted (plain : Plain value) (rest : List Char) :
    splitTag? (some '"') (value ++ '"' :: rest) =
      (splitTag? none rest).map fun parts => (value ++ '"' :: parts.1, parts.2) := by
  induction value with
  | nil => simp [splitTag?]
  | cons c value ih =>
    obtain ⟨other, plain⟩ := List.forall_mem_cons.1 plain
    have ne : c ≠ '"' := by
      rintro rfl
      exact other (by decide)
    rw [List.cons_append, splitTag?]
    simp [ne, ih plain, Function.comp_def]

theorem tagPart_quoted (plain : Plain value) : TagPart ('"' :: (value ++ ['"'])) := by
  intro rest
  simp [splitTag?, splitTag?_quoted plain, Function.comp_def]

theorem plain_of_letters (letters : ∀ c ∈ s, c.isAlpha = true) : Plain s := by
  intro c member isSpecial
  have letter := letters c member
  simp only [special, List.mem_cons, List.not_mem_nil, or_false] at isSpecial
  rcases isSpecial with rfl | rfl | rfl | rfl | rfl
  all_goals exact absurd letter (by decide)

theorem Attribute.Writable.tagPart {a : Attribute} (writable : a.Writable) : TagPart a.text := by
  have start : TagPart [' '] := tagPart_of_plain (by decide)
  have equals : TagPart ['='] := tagPart_of_plain (by decide)
  have name := tagPart_of_plain (plain_of_letters writable.name.letters)
  have value := tagPart_quoted writable.value
  simpa [Attribute.text] using start.append (name.append (equals.append value))

theorem piece?_of_isAlpha (letter : c.isAlpha = true) (s : List Char) :
    piece? (c :: s) = (splitTag? none (c :: s)).map fun parts => (.startTag parts.1, parts.2) := by
  simp [piece?, ne_of_isAlpha letter]

section

variable {attributes : List Attribute} (isName : IsName name)
include isName

/-- Blanks in an end tag are no part of the name. -/
theorem endName_append {blanks : List Char} (blank : ∀ c ∈ blanks, isSpace c = true) :
    endName (name ++ blanks) = name := by
  have dropped : (name ++ blanks).reverse.dropWhile isSpace = name.reverse := by
    rw [List.reverse_append,
      List.dropWhile_append_of_pos fun c member => blank c (List.mem_reverse.1 member)]
    cases backwards : name.reverse with
    | nil => rfl
    | cons last before =>
      have letter : last ∈ name := List.mem_reverse.1 (backwards ▸ List.mem_cons_self)
      rw [List.dropWhile_cons_of_neg]
      simp [isSpace_of_isAlpha (isName.letters last letter)]
  rw [endName, dropped, List.reverse_reverse]
  exact if_neg (by simpa using isName.ne_nil)

variable (writable : ∀ a ∈ attributes, a.Writable)
include writable

theorem piece?_tagContent {closing : List Char} (part : TagPart closing) (rest : List Char) :
    piece? (tagContent name attributes ++ (closing ++ '>' :: rest)) =
      some (.startTag (tagContent name attributes ++ closing), rest) := by
  have content : TagPart (tagContent name attributes) :=
    (tagPart_of_plain (plain_of_letters isName.letters)).append
      (.flatMap fun a member => (writable a member).tagPart)
  have split := content.append part ('>' :: rest)
  obtain ⟨first, more, rfl⟩ := List.exists_cons_of_ne_nil isName.ne_nil
  rw [List.append_assoc] at split
  rw [tagContent, List.append_assoc, List.cons_append] at split ⊢
  rw [piece?_of_isAlpha (isName.letters first List.mem_cons_self), split]
  simp [splitTag?]

omit writable in
/-- The name in a tag ends before the attributes. -/
theorem name_tagContent (attributes : List Attribute) :
    (tagContent name attributes).takeWhile (fun c => !isSpace c) = name ∧
    dropToSpace (tagContent name attributes) = attributesText attributes := by
  have visible (c : Char) (member : c ∈ name) : (!isSpace c) = true := by
    rw [isSpace_of_isAlpha (isName.letters c member)]
    rfl
  have stop : (attributesText attributes).takeWhile (fun c => !isSpace c) = [] ∧
      (attributesText attributes).dropWhile (fun c => !isSpace c) = attributesText attributes := by
    cases attributes with
    | nil => exact ⟨rfl, rfl⟩
    | cons a rest => exact ⟨rfl, rfl⟩
  rw [dropToSpace, tagContent, List.takeWhile_append_of_pos visible,
    List.dropWhile_append_of_pos visible, stop.1, stop.2, List.append_nil]
  exact ⟨rfl, rfl⟩

omit writable in
/-- No slash stands at the end of a start tag. -/
theorem getLast?_tagContent (attributes : List Attribute) :
    (tagContent name attributes).getLast? ≠ some '/' := by
  intro last
  rcases List.eq_nil_or_concat attributes with rfl | ⟨before, a, rfl⟩
  · rw [tagContent, attributesText, List.flatMap_nil, List.append_nil] at last
    have member : '/' ∈ name := List.mem_of_getLast? last
    exact absurd (isName.letters _ member) (by decide)
  · have quoted : a.text = ' ' :: (a.name ++ '=' :: '"' :: a.value) ++ ['"'] := by
      simp [Attribute.text]
    rw [tagContent, attributesText, List.concat_eq_append, List.flatMap_append,
      List.flatMap_singleton, quoted, ← List.append_assoc, ← List.append_assoc,
      List.getLast?_concat] at last
    cases last

theorem eventsFrom_startTag (size : Nat) (names : List (List Char)) (rest : List Char) :
    eventsFrom size names (startTag name attributes ++ rest) =
      .opened name (attributesText attributes) (size - byteLength rest) ::
        eventsFrom size (name :: names) rest := by
  have nothing : TagPart [] := fun _ => by simp
  have piece := piece?_tagContent isName writable nothing rest
  have shape : startTag name attributes ++ rest =
      '<' :: (tagContent name attributes ++ ([] ++ '>' :: rest)) := by
    simp [startTag]
  obtain ⟨readName, readAttributes⟩ := name_tagContent isName attributes
  rw [List.append_nil] at piece
  rw [shape, eventsFrom_opened piece (getLast?_tagContent isName attributes), readName,
    readAttributes]

theorem eventsFrom_emptyTag (size : Nat) (names : List (List Char)) (rest : List Char) :
    eventsFrom size names (emptyTag name attributes ++ rest) =
      .empty name (attributesText attributes) :: eventsFrom size names rest := by
  have slash : TagPart ['/'] := tagPart_of_plain (by decide)
  have piece := piece?_tagContent isName writable slash rest
  have shape : emptyTag name attributes ++ rest =
      '<' :: (tagContent name attributes ++ (['/'] ++ '>' :: rest)) := by
    simp [emptyTag]
  obtain ⟨readName, readAttributes⟩ := name_tagContent isName attributes
  rw [shape, eventsFrom_empty piece, readName, readAttributes]

end

end Markup
end Stencil
