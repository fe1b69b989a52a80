import Stencil.Text.Bytes
import Stencil.Text.Search
import Stencil.Markup.Attribute
/-!
# Events of a marked-up text

The tags of a text in their order. Texts, comments, processing instructions, character data and
document types are checked for their own ends and leave no event. A text that is not well formed
ends with the event `broken`; elements that stay open at the end are no fault.
-/
namespace Stencil.Markup

open Text (byteLength dropWord? splitAtWord?)

/-- What stands between `<` and `>`. -/
inductive Piece where
  | startTag (content : List Char)
  | endTag (content : List Char)
  | other
  deriving DecidableEq, Repr

/-- The parts before and after the first `>` that is not in quotes. -/
def splitTag? (quote? : Option Char) : List Char → Option (List Char × List Char)
  | [] => none
  | c :: s =>
    match quote? with
    | none =>
      if c = '>' then some ([], s)
      else (splitTag? (if c = '"' ∨ c = '\'' then some c else none) s).map fun (content, rest) =>
        (c :: content, rest)
    | some quote =>
      (splitTag? (if c = quote then none else some quote) s).map fun (content, rest) =>
        (c :: content, rest)

theorem eq_of_splitTag? {quote? : Option Char} {s content rest : List Char}
    (h : splitTag? quote? s = some (content, rest)) : s = content ++ '>' :: rest := by
  induction s generalizing quote? content with
  | nil => simp [splitTag?] at h
  | cons c s ih =>
    simp only [splitTag?] at h
    split at h
    · split at h
      · rename_i hc
        simp only [Option.some.injEq, Prod.mk.injEq] at h
        simp [hc, ← h.1, h.2]
      · obtain ⟨⟨b, r⟩, hs, hb⟩ := Option.map_eq_some_iff.1 h
        simp only [Prod.mk.injEq] at hb
        obtain ⟨rfl, rfl⟩ := hb
        simp [ih hs]
    · obtain ⟨⟨b, r⟩, hs, hb⟩ := Option.map_eq_some_iff.1 h
      simp only [Prod.mk.injEq] at hb
      obtain ⟨rfl, rfl⟩ := hb
      simp [ih hs]

/-- What follows a word, read without regard to case, at the start of a text. -/
def dropWordAnyCase? : List Char → List Char → Option (List Char)
  | [], s => some s
  | _ :: _, [] => none
  | w :: word, c :: s => if w.toLower = c.toLower then dropWordAnyCase? word s else none

theorem length_dropWordAnyCase?_le {word s rest : List Char}
    (h : dropWordAnyCase? word s = some rest) : rest.length ≤ s.length := by
  induction word generalizing s with
  | nil => simp_all [dropWordAnyCase?]
  | cons w word ih =>
    cases s with
    | nil => simp [dropWordAnyCase?] at h
    | cons c s =>
      simp only [dropWordAnyCase?] at h
      split at h
      · have := ih h
        simp only [List.length_cons]
        omega
      · simp at h

/-- What follows the `>` that is no answer to a `<` after the start, `depth` of them being open;
and whether a character that is not blank came before it. -/
def dropDeclaration? (depth : Nat) (named : Bool) : List Char → Option (Bool × List Char)
  | [] => none
  | '<' :: s => dropDeclaration? (depth + 1) true s
  | '>' :: s =>
    match depth with
    | 0 => some (named, s)
    | depth + 1 => dropDeclaration? depth true s
  | c :: s => dropDeclaration? depth (named || !isSpace c) s

theorem length_of_dropDeclaration? {depth : Nat} {named found : Bool} {s rest : List Char}
    (h : dropDeclaration? depth named s = some (found, rest)) : rest.length < s.length := by
  fun_induction dropDeclaration? depth named s with
  | case1 => simp at h
  | case2 _ _ _ ih => have := ih h; simp only [List.length_cons]; omega
  | case3 => simp only [Option.some.injEq, Prod.mk.injEq] at h; simp [h.2]
  | case4 _ _ _ ih => have := ih h; simp only [List.length_cons]; omega
  | case5 _ _ _ _ _ _ ih => have := ih h; simp only [List.length_cons]; omega

/-- What follows a comment, character data or a document type whose first character, an exclamation
mark, is gone. Only the word of a document type may be written in either case. -/
def dropMarked? (s : List Char) : Option (List Char) :=
  match dropWord? "--".toList s with
  | some body => (splitAtWord? "-->".toList body).map Prod.snd
  | none =>
    match dropWord? "[CDATA[".toList s with
    | some body => (splitAtWord? "]]>".toList body).map Prod.snd
    | none =>
      match dropWordAnyCase? "DOCTYPE".toList s with
      | some body =>
        match dropDeclaration? 0 false body with
        | some (true, rest) => some rest
        | _ => none
      | none => none

theorem length_of_dropMarked? {s rest : List Char} (h : dropMarked? s = some rest) :
    rest.length ≤ s.length := by
  simp only [dropMarked?] at h
  split at h
  · rename_i body hb
    obtain ⟨⟨before, r⟩, hr, rfl⟩ := Option.map_eq_some_iff.1 h
    rw [Text.dropWord?_eq_some_iff.1 hb, Text.eq_of_splitAtWord? hr]
    simp only [List.length_append]
    omega
  · split at h
    · rename_i body hb
      obtain ⟨⟨before, r⟩, hr, rfl⟩ := Option.map_eq_some_iff.1 h
      rw [Text.dropWord?_eq_some_iff.1 hb, Text.eq_of_splitAtWord? hr]
      simp only [List.length_append]
      omega
    · split at h
      · rename_i body hb
        split at h
        · rename_i found r hd
          simp only [Option.some.injEq] at h
          subst h
          have := length_of_dropDeclaration? hd
          have := length_dropWordAnyCase?_le hb
          omega
        · simp at h
      · simp at h

/-- Reads what follows a `<`. -/
def piece? (s : List Char) : Option (Piece × List Char) :=
  match s with
  | '!' :: rest => (dropMarked? rest).map fun rest => (.other, rest)
  | '/' :: rest => (splitTag? none rest).map fun (content, rest) => (.endTag content, rest)
  | '?' :: _ =>
    match splitAtWord? "?>".toList s with
    | some (_ :: _, rest) => some (.other, rest)
    | _ => none
  | _ => (splitTag? none s).map fun (content, rest) => (.startTag content, rest)

theorem length_of_piece? {s rest : List Char} {piece : Piece}
    (h : piece? s = some (piece, rest)) : rest.length ≤ s.length := by
  simp only [piece?] at h
  split at h
  · obtain ⟨r, hr, hp⟩ := Option.map_eq_some_iff.1 h
    have := length_of_dropMarked? hr
    simp only [Prod.mk.injEq] at hp
    simp only [← hp.2, List.length_cons]
    omega
  · obtain ⟨⟨content, r⟩, hr, hp⟩ := Option.map_eq_some_iff.1 h
    simp only [Prod.mk.injEq] at hp
    rw [eq_of_splitTag? hr]
    simp only [← hp.2, List.length_cons, List.length_append]
    omega
  · split at h
    · rename_i c before r hs
      simp only [Option.some.injEq, Prod.mk.injEq] at h
      rw [Text.eq_of_splitAtWord? hs]
      simp only [← h.2, List.length_append]
      omega
    · simp at h
  · obtain ⟨⟨content, r⟩, hr, hp⟩ := Option.map_eq_some_iff.1 h
    simp only [Prod.mk.injEq] at hp
    rw [eq_of_splitTag? hr]
    simp only [← hp.2, List.length_cons, List.length_append]
    omega

/-- The name of an end tag: blanks may follow it. -/
def endName (content : List Char) : List Char :=
  let name := (content.reverse.dropWhile isSpace).reverse
  if name.isEmpty then content else name

/-- The events of a text of `size` bytes from the place where `s` is left of it, inside the open
elements `names`. -/
def eventsFrom (size : Nat) (names : List (List Char)) (s : List Char) : List Event :=
  match _text : s.dropWhile (fun c => c ≠ '<' && c ≠ '&') with
  | [] => []
  | c :: more =>
    if c = '&' then
      match _reference : more.dropWhile (fun c => c ≠ ';' && c ≠ '&' && c ≠ '<') with
      | ';' :: rest => eventsFrom size names rest
      | _ => [.broken]
    else
      match _piece : piece? more with
      | none => [.broken]
      | some (.other, rest) => eventsFrom size names rest
      | some (.startTag content, rest) =>
        let (whole, isEmpty) :=
          match content.getLast? with
          | some '/' => (content.dropLast, true)
          | _ => (content, false)
        let name := whole.takeWhile fun c => !isSpace c
        let attributes := dropToSpace whole
        if isEmpty then .empty name attributes :: eventsFrom size names rest
        else
          .opened name attributes (size - byteLength rest) :: eventsFrom size (name :: names) rest
      | some (.endTag content, rest) =>
        let name := endName content
        match names with
        | top :: names =>
          if top = name then .closed name (size - byteLength rest) :: eventsFrom size names rest
          else [.broken]
        | [] => [.broken]
termination_by s.length
decreasing_by
  all_goals
    have h₁ := length_dropWhile_le (fun c => c ≠ '<' && c ≠ '&') s
    rw [_text] at h₁
    simp only [List.length_cons] at h₁
  · have h₂ := length_dropWhile_le (fun c => c ≠ ';' && c ≠ '&' && c ≠ '<') more
    rw [_reference] at h₂
    simp only [List.length_cons] at h₂
    omega
  all_goals
    have h₂ := length_of_piece? _piece
    omega

/-- The events of a text. Their offsets do not count a byte order mark at its start. -/
def Event.ofText (s : List Char) : List Event :=
  let body :=
    match s with
    | c :: rest => if c = byteOrderMark then rest else s
    | [] => []
  eventsFrom (byteLength body) [] body

end Stencil.Markup
