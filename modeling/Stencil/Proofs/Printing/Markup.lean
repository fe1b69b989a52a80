import Mathlib.Data.List.Infix
import Stencil.Markup.Reader
import Stencil.Proofs.Searching
import Stencil.Text.Bytes
/-!
# Writing marked-up text

Entities, sections of character data, attributes and elements as they are written, and what is asked
of a reader about them: an attribute is found under its name, the five entities resolve to their
characters, and an element leaves one event for each of its tags, with the offset behind the tag.
-/
namespace Stencil

namespace Markup

open Text (byteLength)

/-! ## Entities -/

/-- The characters that may not stand for themselves. -/
def special : List Char := ['&', '<', '>', '"', '\'']

/-- The text has no special character. -/
def Plain (s : List Char) : Prop := ∀ c ∈ s, c ∉ special

instance : DecidablePred Plain := fun s => List.decidableBAll (fun c => c ∉ special) s

def escapeChar : Char → List Char
  | '&' => "&amp;".toList
  | '<' => "&lt;".toList
  | '>' => "&gt;".toList
  | '"' => "&quot;".toList
  | '\'' => "&apos;".toList
  | c => [c]

def escape (s : List Char) : List Char := s.flatMap escapeChar

theorem escape_cons (c : Char) (s : List Char) : escape (c :: s) = escapeChar c ++ escape s := rfl

theorem escapeChar_of_not_special {c : Char} (plain : c ∉ special) : escapeChar c = [c] := by
  simp only [special, List.mem_cons, List.not_mem_nil, or_false, not_or] at plain
  unfold escapeChar
  split <;> simp_all

theorem forall_special {P : Char → Prop} (amp : P '&') (lt : P '<') (gt : P '>') (quot : P '"')
    (apos : P '\'') : ∀ c ∈ special, P c := by
  intro c member
  simp only [special, List.mem_cons, List.not_mem_nil, or_false] at member
  rcases member with rfl | rfl | rfl | rfl | rfl
  · exact amp
  · exact lt
  · exact gt
  · exact quot
  · exact apos

/-- No tag begins in an escaped text. -/
theorem not_mem_escape (s : List Char) : '<' ∉ escape s := by
  intro member
  obtain ⟨c, -, member⟩ := List.mem_flatMap.1 member
  by_cases h : c ∈ special
  · revert member
    revert c
    exact forall_special (by decide) (by decide) (by decide) (by decide) (by decide)
  · rw [escapeChar_of_not_special h, List.mem_singleton] at member
    exact h (member ▸ by decide)

/-- A section of character data. -/
def charData (s : List Char) : List Char := '<' :: ("![CDATA[".toList ++ (s ++ "]]>".toList))

/-- What ends a section of character data. -/
def sectionEnd : List Char := "]]>".toList

/-! ## Attributes -/

/-- A name of letters. -/
structure IsName (s : List Char) : Prop where
  ne_nil : s ≠ []
  letters : ∀ c ∈ s, c.isAlpha = true

instance : DecidablePred IsName := fun s =>
  decidable_of_iff (s ≠ [] ∧ s.all Char.isAlpha = true)
    ⟨fun h => ⟨h.1, List.all_eq_true.1 h.2⟩, fun h => ⟨h.ne_nil, List.all_eq_true.2 h.letters⟩⟩

/-- An attribute that can be written between double quotes. -/
structure Attribute.Writable (a : Attribute) : Prop where
  name : IsName a.name
  value : Plain a.value

theorem writable_mk {name : String} {value : List Char} (isName : IsName name.toList)
    (plain : Plain value) : Attribute.Writable ⟨name.toList, value⟩ :=
  ⟨isName, plain⟩

/-- How an attribute is written behind the name of a tag. -/
def Attribute.text (a : Attribute) : List Char := ' ' :: (a.name ++ '=' :: '"' :: (a.value ++ ['"']))

def attributesText (attributes : List Attribute) : List Char := attributes.flatMap Attribute.text

/-- Attributes that can be written in one tag. -/
structure WritableAttributes (attributes : List Attribute) : Prop where
  each : ∀ a ∈ attributes, a.Writable
  apart : attributes.Pairwise fun a b => a.name ≠ b.name

/-! ## Elements -/

/-- The content of a tag that an element may begin with. -/
def tagContent (name : List Char) (attributes : List Attribute) : List Char :=
  name ++ attributesText attributes

def startTag (name : List Char) (attributes : List Attribute) : List Char :=
  '<' :: (tagContent name attributes ++ ['>'])

def emptyTag (name : List Char) (attributes : List Attribute) : List Char :=
  '<' :: (tagContent name attributes ++ ['/', '>'])

def endTag (name : List Char) : List Char := '<' :: '/' :: (name ++ ['>'])

/-- A part of a document. -/
inductive Node where
  | element (name : List Char) (attributes : List Attribute) (content : List Node)
  | empty (name : List Char) (attributes : List Attribute)
  | text (s : List Char)
  | charData (s : List Char)

namespace Node

mutual

/-- How a part is written: a text has entities for its special characters. -/
def written : Node → List Char
  | element name attributes content => startTag name attributes ++ (allWritten content ++ endTag name)
  | empty name attributes => emptyTag name attributes
  | text s => escape s
  | charData s => Markup.charData s

def allWritten : List Node → List Char
  | [] => []
  | node :: rest => node.written ++ allWritten rest

end

mutual

/-- The events of the tags in a part that begins at the byte offset `start`. -/
def events (start : Nat) : Node → List Event
  | element name attributes content =>
    let inside := start + byteLength (startTag name attributes)
    .opened name (attributesText attributes) inside ::
      (allEvents inside content ++
        [.closed name (inside + byteLength (allWritten content) + byteLength (endTag name))])
  | empty name attributes => [.empty name (attributesText attributes)]
  | text _ => []
  | charData _ => []

def allEvents (start : Nat) : List Node → List Event
  | [] => []
  | node :: rest => node.events start ++ allEvents (start + byteLength node.written) rest

end

/-- The part can be read again as it was written. -/
inductive WellFormed : Node → Prop
  | element {name : List Char} {attributes : List Attribute} {content : List Node}
      (isName : IsName name) (writable : WritableAttributes attributes)
      (inside : ∀ node ∈ content, node.WellFormed) : WellFormed (element name attributes content)
  | empty {name : List Char} {attributes : List Attribute} (isName : IsName name)
      (writable : WritableAttributes attributes) : WellFormed (empty name attributes)
  | text (s : List Char) : WellFormed (text s)
  | charData {s : List Char} (free : ¬sectionEnd <:+: s) : WellFormed (charData s)

@[simp] theorem allWritten_append (nodes nodes' : List Node) :
    allWritten (nodes ++ nodes') = allWritten nodes ++ allWritten nodes' := by
  induction nodes with
  | nil => rfl
  | cons node nodes ih => rw [List.cons_append, allWritten, allWritten, ih, List.append_assoc]

@[simp] theorem allEvents_append (start : Nat) (nodes nodes' : List Node) :
    allEvents start (nodes ++ nodes') =
      allEvents start nodes ++ allEvents (start + byteLength (allWritten nodes)) nodes' := by
  induction nodes generalizing start with
  | nil => rfl
  | cons node nodes ih =>
    rw [List.cons_append, allEvents, allEvents, allWritten, ih, Text.byteLength_append,
      List.append_assoc, Nat.add_assoc]

end Node

/-! ## Readers -/

namespace Reader

variable [Reader]

/-- The events of a document are those of the tags of its element. -/
def ReadsElements : Prop :=
  ∀ {name : List Char} {attributes : List Attribute} {content : List Node},
    (Node.element name attributes content).WellFormed →
      events (Node.element name attributes content).written =
        (Node.element name attributes content).events 0

/-- An attribute is found under its name, with the value that was written. -/
def FindsAttributes : Prop :=
  ∀ {attributes : List Attribute}, WritableAttributes attributes → ∀ name : String,
    attribute? (attributesText attributes) name =
      (attributes.find? fun a => a.name = name.toList).map fun a => String.ofList a.value

/-- The five entities stand for their characters, and any other character for itself. -/
structure ResolvesEntities : Prop where
  nil : resolve? [] = some []
  entity {c : Char} (s : List Char) : c ∈ special →
    resolve? (escapeChar c ++ s) = (resolve? s).map (c :: ·)
  character {c : Char} (s : List Char) : c ≠ '&' → resolve? (c :: s) = (resolve? s).map (c :: ·)

theorem ResolvesEntities.escape (entities : ResolvesEntities) (s : List Char) :
    resolve? (escape s) = some s := by
  induction s with
  | nil => exact entities.nil
  | cons c s ih =>
    rw [escape_cons]
    by_cases h : c ∈ special
    · rw [entities.entity _ h, ih, Option.map_some]
    · have plain : c ≠ '&' := by
        rintro rfl
        exact h (by decide)
      rw [escapeChar_of_not_special h, List.singleton_append, entities.character _ plain, ih,
        Option.map_some]

end Reader

end Markup
end Stencil
