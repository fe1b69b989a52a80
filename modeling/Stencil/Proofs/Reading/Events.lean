import Stencil.Proofs.Elements.Tags
import Stencil.Proofs.Reading.Pieces
/-!
# The events of a text, bit by bit

A text is read in bits: a character, a reference, a comment, a tag. Each leaves the same events
whatever stands around it, their offsets counted from where it begins, so the events of a text do
not change when something stands in front of it, and a text can be cut at any of its end tags.
-/
namespace Stencil.Markup

open Text (byteLength)

variable {s rest text more content name : List Char} {names names' : List (List Char)}
  {es es' : List Event}

/-! ## Bits -/

/-- Inside the elements `names`, the text leaves the events `es`, whatever stands in front of it and
behind; behind it the elements `names'` are open. -/
structure Reads (names : List (List Char)) (text : List Char) (es : List Event)
    (names' : List (List Char)) : Prop where
  events (base : Nat) (rest : List Char) :
    eventsFrom (base + byteLength (text ++ rest)) names (text ++ rest) =
      es.map (Event.shift base) ++ eventsFrom (base + byteLength (text ++ rest)) names' rest
  endsIn : ∀ e ∈ es, e.EndsIn text

theorem Reads.nil (names : List (List Char)) : Reads names [] [] names :=
  ⟨fun _ _ => rfl, nofun⟩

theorem Reads.append {names'' : List (List Char)} (first : Reads names s es names')
    (second : Reads names' text es' names'') :
    Reads names (s ++ text) (es ++ es'.map (Event.shift (byteLength s))) names'' where
  events base rest := by
    have inner := second.events (base + byteLength s) rest
    rw [Nat.add_assoc, ← Text.byteLength_append] at inner
    rw [List.append_assoc, first.events, inner, List.map_append, List.append_assoc, List.map_map]
    simp only [Function.comp_def, Event.shift_shift]
  endsIn := by
    rw [List.forall_mem_append, List.forall_mem_map]
    exact ⟨fun e member => (first.endsIn e member).append text,
      fun e member => (second.endsIn e member).shift s⟩

/-- The smallest parts that a text is read in, with their events. -/
inductive Bit : List (List Char) → List Char → List Event → List (List Char) → Prop
  | silent {names : List (List Char)} {text : List Char} (eventless : Eventless text) :
      Bit names text [] names
  | opened {names : List (List Char)} (content : List Char)
      (piece : ∀ rest, piece? (content ++ '>' :: rest) = some (.startTag content, rest))
      (stays : content.getLast? ≠ some '/') :
      Bit names ('<' :: (content ++ ['>']))
        [.opened (content.takeWhile fun c => !isSpace c) (dropToSpace content)
          (byteLength content + 2)]
        ((content.takeWhile fun c => !isSpace c) :: names)
  | empty {names : List (List Char)} (content : List Char)
      (piece : ∀ rest, piece? (content ++ '/' :: '>' :: rest) =
        some (.startTag (content ++ ['/']), rest)) :
      Bit names ('<' :: (content ++ ['/', '>']))
        [.empty (content.takeWhile fun c => !isSpace c) (dropToSpace content)] names
  | closed {names : List (List Char)} (content : List Char)
      (piece : ∀ rest, piece? ('/' :: (content ++ '>' :: rest)) = some (.endTag content, rest)) :
      Bit (endName content :: names) ('<' :: '/' :: (content ++ ['>']))
        [.closed (endName content) (byteLength content + 3)] names

theorem byteLength_takeWhile_le (p : Char → Bool) (s : List Char) :
    byteLength (s.takeWhile p) ≤ byteLength s := by
  calc byteLength (s.takeWhile p) ≤ byteLength (s.takeWhile p) + byteLength (s.dropWhile p) :=
        Nat.le_add_right _ _
    _ = byteLength s := by rw [← Text.byteLength_append, List.takeWhile_append_dropWhile]

theorem Bit.reads (bit : Bit names text es names') : Reads names text es names' := by
  -- What a tag of a known size leaves behind it tells where it ends.
  have stop_eq {tag rest : List Char} (base : Nat) :
      base + byteLength (tag ++ rest) - byteLength rest = base + byteLength tag := by
    rw [Text.byteLength_append]
    omega
  cases bit with
  | silent eventless => exact ⟨fun _ rest => eventless _ _ rest, nofun⟩
  | opened content piece stays =>
    have name := byteLength_takeWhile_le (fun c => !isSpace c) content
    have size := byteLength_tag content
    refine ⟨fun base rest => ?_, List.forall_mem_singleton.2 ⟨by omega, _, List.prefix_rfl, size⟩⟩
    have events := eventsFrom_opened (piece rest) stays
      (base + byteLength ('<' :: (content ++ ['>']) ++ rest)) names
    rw [stop_eq, size] at events
    simpa [Event.shift] using events
  | empty content piece =>
    refine ⟨fun base rest => ?_, List.forall_mem_singleton.2 trivial⟩
    have events := eventsFrom_empty (piece rest)
      (base + byteLength ('<' :: (content ++ ['/', '>']) ++ rest)) names
    simpa [Event.shift] using events
  | closed content piece =>
    have size := byteLength_endTag content
    refine ⟨fun base rest => ?_, List.forall_mem_singleton.2 ⟨_, List.prefix_rfl, size⟩⟩
    have events := eventsFrom_closed (piece rest)
      (base + byteLength ('<' :: '/' :: (content ++ ['>']) ++ rest)) names'
    rw [stop_eq, size] at events
    simpa [Event.shift] using events

/-! ## Rows of bits -/

/-- The text is read bit by bit, and leaves the events `es`, until it ends or is not well formed. -/
inductive Bits : List (List Char) → List Char → List Event → Prop
  | ended {names : List (List Char)} {s : List Char} {es : List Event}
      (last : es = [] ∨ es = [.broken]) (events : ∀ size, eventsFrom size names s = es) :
      Bits names s es
  | cons {names names' : List (List Char)} {text s : List Char} {es es' : List Event}
      (bit : Bit names text es names') (bits : Bits names' s es') :
      Bits names (text ++ s) (es ++ es'.map (Event.shift (byteLength text)))

/-- A reference is a bit if a semicolon ends it. -/
theorem bit_or_broken (names : List (List Char)) (s : List Char) :
    (∀ size, eventsFrom size names ('&' :: s) = [.broken]) ∨
      ∃ name rest, s = name ++ ';' :: rest ∧ Bit names ('&' :: (name ++ [';'])) [] names := by
  let part (c : Char) : Bool := c ≠ ';' && c ≠ '&' && c ≠ '<'
  have here : ('&' :: s).dropWhile (fun c => c ≠ '<' && c ≠ '&') = '&' :: s := rfl
  cases behind : s.dropWhile part with
  | nil =>
    refine .inl fun size => ?_
    rw [eventsFrom, here]
    simp only [if_true]
    rw [behind]
  | cons c rest =>
    by_cases ends : c = ';'
    · subst ends
      refine .inr ⟨s.takeWhile part, rest, ?_, .silent (eventless_reference fun c member => ?_)⟩
      · rw [← behind, List.takeWhile_append_dropWhile]
      · simpa [part, and_assoc] using List.mem_takeWhile_imp member
    · refine .inl fun size => ?_
      rw [eventsFrom, here]
      simp only [if_true]
      rw [behind]
      split
      case h_1 closed => exact absurd (List.cons.inj closed).1 ends
      case h_2 => rfl

/-- Every text that has not ended begins with a bit, or is not well formed. -/
theorem ended_or_bit (names : List (List Char)) (s : List Char) :
    (∃ es, (es = [] ∨ es = [.broken]) ∧ ∀ size, eventsFrom size names s = es) ∨
      ∃ text es names' rest, s = text ++ rest ∧ text ≠ [] ∧ Bit names text es names' := by
  cases s with
  | nil => exact .inl ⟨[], .inl rfl, fun size => by rw [eventsFrom]; rfl⟩
  | cons c s =>
    by_cases reference : c = '&'
    · subst reference
      rcases bit_or_broken names s with broken | ⟨name, rest, rfl, bit⟩
      · exact .inl ⟨_, .inr rfl, broken⟩
      · exact .inr ⟨_, _, _, rest, by simp, by simp, bit⟩
    by_cases tag : c = '<'
    · subst tag
      cases found : piece? s with
      | none => exact .inl ⟨_, .inr rfl, fun size => by rw [eventsFrom_lt, found]⟩
      | some parts =>
        obtain ⟨piece, rest⟩ := parts
        obtain ⟨read, rfl, others⟩ := piece?_replace found
        cases piece with
        | other =>
          have eventless : Eventless ('<' :: read) := fun size names rest =>
            eventsFrom_other (others rest) size names
          exact .inr ⟨_, _, _, rest, rfl, by simp, .silent eventless⟩
        | startTag content =>
          have parts : read ++ rest = (content ++ ['>']) ++ rest := by
            simp [eq_of_piece?_startTag found]
          obtain rfl := List.append_cancel_right parts
          by_cases slash : content.getLast? = some '/'
          · obtain ⟨content, rfl⟩ := List.getLast?_eq_some_iff.1 slash
            have bit : Bit names ('<' :: (content ++ ['/', '>'])) _ names :=
              .empty content fun rest' => by simpa using others rest'
            exact .inr ⟨_, _, _, rest, by simp, by simp, bit⟩
          · have bit : Bit names ('<' :: (content ++ ['>'])) _ _ :=
              .opened content (fun rest' => by simpa using others rest') slash
            exact .inr ⟨_, _, _, rest, by simp, by simp, bit⟩
        | endTag content =>
          have parts : read ++ rest = ('/' :: (content ++ ['>'])) ++ rest := by
            simp [eq_of_piece?_endTag found]
          obtain rfl := List.append_cancel_right parts
          by_cases own : names.head? = some (endName content)
          · obtain ⟨others', rfl⟩ := List.head?_eq_some_iff.1 own
            have bit : Bit (endName content :: others') ('<' :: '/' :: (content ++ ['>'])) _ _ :=
              .closed content fun rest' => by simpa using others rest'
            exact .inr ⟨_, _, _, rest, by simp, by simp, bit⟩
          · refine .inl ⟨_, .inr rfl, fun size => ?_⟩
            rw [eventsFrom_lt, found]
            exact if_neg own
    · exact .inr ⟨[c], _, _, s, rfl, by simp, .silent (eventless_singleton tag reference)⟩

theorem exists_bits (names : List (List Char)) (s : List Char) : ∃ es, Bits names s es := by
  rcases ended_or_bit names s with ⟨es, last, events⟩ | ⟨text, es, names', rest, parts, ne_nil, bit⟩
  · exact ⟨es, .ended last events⟩
  · obtain ⟨es', bits⟩ := exists_bits names' rest
    refine ⟨es ++ es'.map (Event.shift (byteLength text)), ?_⟩
    rw [parts]
    exact .cons bit bits
termination_by s.length
decreasing_by
  have positive := List.length_pos_iff.2 ne_nil
  rw [parts, List.length_append]
  omega

theorem Bits.events (bits : Bits names s es) (base : Nat) :
    eventsFrom (base + byteLength s) names s = es.map (Event.shift base) := by
  induction bits generalizing base with
  | ended last events =>
    rw [events]
    rcases last with rfl | rfl <;> rfl
  | @cons names names' text s es es' bit bits ih =>
    have later := ih (base + byteLength text)
    rw [Nat.add_assoc, ← Text.byteLength_append] at later
    rw [bit.reads.events, later, List.map_append, List.map_map]
    simp only [Function.comp_def, Event.shift_shift]

theorem Bits.endsIn (bits : Bits names s es) : ∀ e ∈ es, e.EndsIn s := by
  induction bits with
  | ended last events => rcases last with rfl | rfl <;> simp [Event.EndsIn]
  | @cons names names' text s es es' bit bits ih =>
    rw [List.forall_mem_append, List.forall_mem_map]
    exact ⟨fun e member => (bit.reads.endsIn e member).append s,
      fun e member => (ih e member).shift text⟩

theorem Bits.eq (bits : Bits names s es) : es = eventsFrom (byteLength s) names s := by
  have events := bits.events 0
  rw [Nat.zero_add, Event.map_shift_zero] at events
  exact events.symm

theorem bits_eventsFrom (names : List (List Char)) (s : List Char) :
    Bits names s (eventsFrom (byteLength s) names s) := by
  obtain ⟨es, bits⟩ := exists_bits names s
  exact bits.eq ▸ bits

/-- The events of a text do not depend on what stands in front of it. -/
theorem eventsFrom_shift (base : Nat) (names : List (List Char)) (s : List Char) :
    eventsFrom (base + byteLength s) names s =
      (eventsFrom (byteLength s) names s).map (Event.shift base) :=
  (bits_eventsFrom names s).events base

/-- The only event that an end tag leaves is its own. -/
theorem Bit.at_closed {stop : Nat} {before after : List Event}
    (bit : Bit names text (before ++ .closed name stop :: after) names') :
    before = [] ∧ after = [] ∧ names = name :: names' ∧ ∃ content,
      text = '<' :: '/' :: (content ++ ['>']) ∧ name = endName content ∧
      stop = byteLength text := by
  generalize events : before ++ .closed name stop :: after = es at bit
  cases bit with
  | silent => simp at events
  | opened | empty => simp [List.append_eq_singleton_iff] at events
  | closed content piece =>
    obtain ⟨rfl, rest⟩ | ⟨_, absurd⟩ := List.append_eq_singleton_iff.1 events
    · cases rest
      exact ⟨rfl, rfl, rfl, content, rfl, rfl, (byteLength_endTag content).symm⟩
    · cases absurd

/-- A text can be cut at each of its end tags: what stands before it is read as it was, whatever
stands in the place of the tag. -/
theorem Bits.at_closed {stop : Nat} (bits : Bits names s es)
    {before behind : List Event} (events : es = before ++ .closed name stop :: behind) :
    ∃ text content rest inner,
      s = text ++ ('<' :: '/' :: (content ++ ['>']) ++ rest) ∧ name = endName content ∧
      Reads names text before (name :: inner) ∧
      stop = byteLength (text ++ '<' :: '/' :: (content ++ ['>'])) ∧
      behind = (eventsFrom (byteLength rest) inner rest).map (Event.shift stop) := by
  induction bits generalizing before behind stop with
  | ended last _ =>
    subst events
    rcases last with none | one
    · simp at none
    · simp [List.append_eq_singleton_iff] at one
  | @cons names names' first s es es' bit bits ih =>
    -- The end tag is this bit itself, or one of those behind.
    have place : (∃ after, es = before ++ .closed name stop :: after ∧
          behind = after ++ es'.map (Event.shift (byteLength first))) ∨
        ∃ before', before = es ++ before' ∧
          es'.map (Event.shift (byteLength first)) = before' ++ .closed name stop :: behind := by
      rcases List.append_eq_append_iff.1 events with ⟨before', same, later⟩ | ⟨after, same, later⟩
      · exact .inr ⟨before', same, later⟩
      · cases after with
        | nil => exact .inr ⟨[], by simpa using same.symm, later.symm⟩
        | cons e after =>
          obtain ⟨rfl, rfl⟩ := List.cons.inj later
          exact .inl ⟨after, same, rfl⟩
    rcases place with ⟨after, rfl, rfl⟩ | ⟨before', rfl, later⟩
    · obtain ⟨rfl, rfl, rfl, content, rfl, own, size⟩ := bit.at_closed
      refine ⟨[], content, s, names', rfl, own, .nil _, size, ?_⟩
      rw [← bits.eq, size, List.nil_append]
    · obtain ⟨left, right, rfl, rfl, tail⟩ := List.map_eq_append_iff.1 later
      obtain ⟨e, right, rfl, same, rfl⟩ := List.map_eq_cons_iff.1 tail
      obtain ⟨stop', rfl, rfl⟩ := Event.eq_closed_of_shift same
      obtain ⟨text, content, rest, inner, rfl, own, reads, size, others⟩ := ih rfl
      refine ⟨first ++ text, content, rest, inner, by simp, own, bit.reads.append reads, ?_, ?_⟩
      · simp [size]
      · simp [others, Function.comp_def, Event.shift_shift]

end Stencil.Markup
