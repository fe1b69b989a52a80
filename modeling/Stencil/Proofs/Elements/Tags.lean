import Stencil.Proofs.Printing.Markup
/-!
# Where tags stand

The offsets of events as places in the text, and what is asked of a reader about end tags: the event
of an end tag tells where it is, and blanks behind the name in it are no part of the name.
-/
namespace Stencil.Markup

open Text (byteLength)

variable {s t text name blanks : List Char}

namespace Event

/-- The event in a text that has `base` more bytes in front. -/
def shift (base : Nat) : Event → Event
  | opened name attributes stop => opened name attributes (base + stop)
  | empty name attributes => empty name attributes
  | closed name stop => closed name (base + stop)
  | broken => broken

/-- The tag that left the event stands in the text, and its offset is that of its end. -/
def EndsIn (text : List Char) : Event → Prop
  | opened name _ stop =>
    byteLength name + 2 ≤ stop ∧ ∃ read, read <+: text ∧ byteLength read = stop
  | closed _ stop => ∃ read, read <+: text ∧ byteLength read = stop
  | _ => True

theorem shift_shift (base base' : Nat) (e : Event) :
    (e.shift base').shift base = e.shift (base + base') := by
  cases e <;> simp [shift, Nat.add_assoc]

theorem map_shift_zero (es : List Event) : es.map (shift 0) = es := by
  refine (List.map_congr_left fun e _ => ?_).trans (List.map_id es)
  cases e <;> simp [shift]

theorem shift_injective (base : Nat) : Function.Injective (shift base) := by
  intro e e' same
  cases e <;> cases e' <;> simp_all [shift]

theorem eq_closed_of_shift {base stop : Nat} {e : Event} (same : e.shift base = closed name stop) :
    ∃ stop', e = closed name stop' ∧ stop = base + stop' := by
  cases e <;> cases same
  exact ⟨_, rfl, rfl⟩

theorem EndsIn.shift {e : Event} (ends : e.EndsIn text) (s : List Char) :
    (e.shift (byteLength s)).EndsIn (s ++ text) := by
  have behind {read : List Char} (inside : read <+: text) : s ++ read <+: s ++ text :=
    (List.prefix_append_right_inj s).2 inside
  cases e with
  | opened =>
    obtain ⟨wide, read, inside, rfl⟩ := ends
    exact ⟨by omega, s ++ read, behind inside, Text.byteLength_append s read⟩
  | closed =>
    obtain ⟨read, inside, rfl⟩ := ends
    exact ⟨s ++ read, behind inside, Text.byteLength_append s read⟩
  | empty | broken => trivial

theorem EndsIn.append {e : Event} (ends : e.EndsIn s) (text : List Char) :
    e.EndsIn (s ++ text) := by
  cases e with
  | opened =>
    obtain ⟨wide, read, inside, size⟩ := ends
    exact ⟨wide, read, inside.trans (List.prefix_append s text), size⟩
  | closed =>
    obtain ⟨read, inside, size⟩ := ends
    exact ⟨read, inside.trans (List.prefix_append s text), size⟩
  | empty | broken => trivial

end Event

/-! ## End tags -/

/-- An end tag with blanks behind the name. -/
def endTagWith (name blanks : List Char) : List Char := '<' :: '/' :: (name ++ (blanks ++ ['>']))

theorem byteLength_tag (content : List Char) :
    byteLength ('<' :: (content ++ ['>'])) = byteLength content + 2 := by
  have open_ : Char.utf8Size '<' = 1 := rfl
  have close : Char.utf8Size '>' = 1 := rfl
  simp only [Text.byteLength_cons, Text.byteLength_append, Text.byteLength_nil, open_, close]
  omega

theorem byteLength_endTag (content : List Char) :
    byteLength ('<' :: '/' :: (content ++ ['>'])) = byteLength content + 3 := by
  have slash : Char.utf8Size '/' = 1 := rfl
  rw [← List.cons_append, byteLength_tag, Text.byteLength_cons, slash]
  omega

theorem byteLength_endTagWith (name blanks : List Char) :
    byteLength (endTagWith name blanks) =
      byteLength blanks + byteLength (endTagWith name []) := by
  rw [endTagWith, endTagWith, ← List.append_assoc, ← List.append_assoc, byteLength_endTag,
    byteLength_endTag, Text.byteLength_append, Text.byteLength_append, Text.byteLength_nil]
  omega

theorem byteLength_eq_length (single : ∀ c ∈ s, c.utf8Size = 1) : byteLength s = s.length := by
  induction s with
  | nil => rfl
  | cons c s ih =>
    obtain ⟨first, others⟩ := List.forall_mem_cons.1 single
    rw [Text.byteLength_cons, first, ih others, List.length_cons, Nat.add_comm]

theorem utf8Size_of_isSpace {c : Char} (blank : isSpace c = true) : c.utf8Size = 1 := by
  simp only [isSpace, Bool.or_eq_true, decide_eq_true_eq] at blank
  rcases blank with ((rfl | rfl) | rfl) | rfl
  all_goals rfl

/-! ## Byte order marks -/

/-- A text without the byte order mark at its start. -/
def withoutMark (s : List Char) : List Char :=
  match s with
  | c :: rest => if c = byteOrderMark then rest else s
  | [] => []

theorem withoutMark_append (s : List Char) (unmarked : ∀ c ∈ t.head?, c ≠ byteOrderMark) :
    withoutMark (s ++ t) = withoutMark s ++ t := by
  cases s with
  | nil =>
    cases t with
    | nil => rfl
    | cons c t => exact if_neg (unmarked c rfl)
  | cons c s =>
    by_cases mark : c = byteOrderMark <;> simp [withoutMark, mark]

theorem byteLength_withoutMark (s : List Char) :
    byteLength (withoutMark s) ≤ byteLength s ∧ byteLength s ≤ byteLength (withoutMark s) + 3 := by
  cases s with
  | nil => exact ⟨Nat.le_refl _, Nat.zero_le _⟩
  | cons c rest =>
    by_cases mark : c = byteOrderMark
    · have size : byteOrderMark.utf8Size = 3 := rfl
      rw [withoutMark, if_pos mark, Text.byteLength_cons, mark, size]
      omega
    · rw [withoutMark, if_neg mark]
      omega

/-! ## Readers -/

/-- The offset behind an end tag that follows `before`. -/
def endTagStop (before name blanks : List Char) : Nat :=
  byteLength (withoutMark before) + byteLength (endTagWith name blanks)

namespace Reader

variable [Reader]

/-- The event of an end tag tells where the tag is in the text. The tags of the events before it stand
before it, and those of the events behind it stand behind it. -/
def PlacesTags : Prop :=
  ∀ {text name : List Char} {es es' : List Event} {stop : Nat}, IsName name →
    events text = es ++ .closed name stop :: es' →
      ∃ before blanks rest, ∃ later : List Event, text = before ++ (endTagWith name blanks ++ rest) ∧
        (∀ c ∈ blanks, isSpace c = true) ∧ stop = endTagStop before name blanks ∧
        (∀ e ∈ es, e.EndsIn (withoutMark before)) ∧
        es' = later.map (Event.shift stop) ∧ ∀ e ∈ later, e.EndsIn rest

/-- Blanks in an end tag are no part of its name: with others in their place the events are the same,
but for their offsets from the tag on. -/
def TrimsEndTags : Prop :=
  ∀ {before name blanks blanks' rest : List Char} {es later : List Event}, IsName name →
    (∀ c ∈ blanks, isSpace c = true) → (∀ c ∈ blanks', isSpace c = true) →
    events (before ++ (endTagWith name blanks ++ rest)) =
      es ++ .closed name (endTagStop before name blanks) ::
        later.map (Event.shift (endTagStop before name blanks)) →
    events (before ++ (endTagWith name blanks' ++ rest)) =
      es ++ .closed name (endTagStop before name blanks') ::
        later.map (Event.shift (endTagStop before name blanks'))

end Reader

end Stencil.Markup
