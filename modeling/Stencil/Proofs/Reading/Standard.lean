import Stencil.Markup.Standard
import Stencil.Proofs.Reading.Events
/-!
# The standard reader

The standard reader finds the elements, attributes and entities that were written, tells where the
tags of any text are, and reads the name of an end tag without the blanks behind it.
-/
namespace Stencil.Markup

open Text (byteLength)

variable {s t text before name blanks rest : List Char} {attributes : List Attribute}
  {names : List (List Char)} {es : List Event}

/-! ## Entities and attributes -/

theorem standard_resolvesEntities : Reader.ResolvesEntities where
  nil := rfl
  entity s special := by
    obtain ⟨name, written, isName, resolved⟩ := escapeChar_of_special _ special
    change resolveEntities _ = _
    rw [written, List.cons_append, List.append_assoc, List.singleton_append, resolveEntities,
      resolveFrom]
    simp only [if_true, resolveFrom_name isName, List.reverse_nil, List.nil_append, resolved,
      Option.bind_some]
    rfl
  character s plain := by
    change resolveEntities _ = _
    rw [resolveEntities, resolveFrom]
    simp only [if_neg plain]
    rfl

theorem standard_findsAttributes : Reader.FindsAttributes := by
  intro attributes writable name
  change attribute? _ name = _
  rw [attribute?, attributesFrom_attributesText writable.each (fun _ _ => List.not_mem_nil)
    writable.apart]

/-! ## Elements -/

namespace Node

mutual

theorem events_add (base start : Nat) :
    (node : Node) → node.events (base + start) = (node.events start).map (Event.shift base)
  | element name attributes content => by
    rw [events, events, Nat.add_assoc, allEvents_add base _ content]
    simp [Event.shift, Nat.add_assoc]
  | empty .. => rfl
  | text _ => rfl
  | charData _ => rfl

theorem allEvents_add (base start : Nat) : (nodes : List Node) →
    allEvents (base + start) nodes = (allEvents start nodes).map (Event.shift base)
  | [] => rfl
  | node :: rest => by
    rw [allEvents, allEvents, events_add base start node, Nat.add_assoc,
      allEvents_add base _ rest, List.map_append]

end

end Node

theorem reads_silent (eventless : Eventless text) (names : List (List Char)) :
    Reads names text [] names :=
  (Bit.silent eventless).reads

theorem reads_startTag (isName : IsName name) (writable : WritableAttributes attributes)
    (names : List (List Char)) : Reads names (startTag name attributes)
      [.opened name (attributesText attributes) (byteLength (startTag name attributes))]
      (name :: names) where
  events base rest := by
    have stop : base + byteLength (startTag name attributes ++ rest) - byteLength rest =
        base + byteLength (startTag name attributes) := by
      rw [Text.byteLength_append]
      omega
    rw [eventsFrom_startTag isName writable.each, stop]
    rfl
  endsIn := by
    refine List.forall_mem_singleton.2 ⟨?_, _, List.prefix_rfl, rfl⟩
    rw [startTag, byteLength_tag, tagContent, Text.byteLength_append]
    omega

theorem reads_emptyTag (isName : IsName name) (writable : WritableAttributes attributes)
    (names : List (List Char)) :
    Reads names (emptyTag name attributes) [.empty name (attributesText attributes)] names where
  events base rest := by
    rw [eventsFrom_emptyTag isName writable.each]
    rfl
  endsIn := List.forall_mem_singleton.2 trivial

theorem eq_append_of_endName (content : List Char) :
    ∃ blanks, content = endName content ++ blanks ∧ ∀ c ∈ blanks, isSpace c = true := by
  unfold endName
  dsimp only
  split
  · exact ⟨[], (List.append_nil content).symm, nofun⟩
  · refine ⟨(content.reverse.takeWhile isSpace).reverse, ?_, fun c member => ?_⟩
    · rw [← List.reverse_append, List.takeWhile_append_dropWhile, List.reverse_reverse]
    · exact List.mem_takeWhile_imp (List.mem_reverse.1 member)

theorem plain_of_isSpace (blank : ∀ c ∈ blanks, isSpace c = true) : Plain blanks := by
  intro c member isSpecial
  have space := blank c member
  simp only [special, List.mem_cons, List.not_mem_nil, or_false] at isSpecial
  rcases isSpecial with rfl | rfl | rfl | rfl | rfl
  all_goals exact absurd space (by decide)

/-- Whatever blanks are in it, an end tag closes the element that it names. -/
theorem reads_endTagWith (isName : IsName name) (blank : ∀ c ∈ blanks, isSpace c = true)
    (names : List (List Char)) :
    Reads (name :: names) (endTagWith name blanks)
      [.closed name (byteLength (endTagWith name blanks))] names := by
  have part : TagPart (name ++ blanks) :=
    (tagPart_of_plain (plain_of_letters isName.letters)).append
      (tagPart_of_plain (plain_of_isSpace blank))
  have piece (rest : List Char) :
      piece? ('/' :: (name ++ blanks ++ '>' :: rest)) = some (.endTag (name ++ blanks), rest) := by
    have split : splitTag? none (name ++ blanks ++ '>' :: rest) = some (name ++ blanks, rest) := by
      rw [part]
      simp [splitTag?]
    rw [piece?, split]
    rfl
  have bit : Bit (endName (name ++ blanks) :: names) _ _ names := .closed _ piece
  have bit := bit.reads
  rw [endName_append isName blank, ← byteLength_endTag, List.append_assoc] at bit
  exact bit

theorem endTagWith_nil (name : List Char) : endTagWith name [] = endTag name := rfl

theorem reads_allWritten {nodes : List Node}
    (each : ∀ node ∈ nodes, ∀ names, Reads names node.written (node.events 0) names)
    (names : List (List Char)) :
    Reads names (Node.allWritten nodes) (Node.allEvents 0 nodes) names := by
  induction nodes with
  | nil => exact .nil names
  | cons node nodes ih =>
    obtain ⟨first, others⟩ := List.forall_mem_cons.1 each
    have reads := (first names).append (ih others)
    rwa [← Node.allEvents_add, Nat.add_comm] at reads

/-- A part leaves the events of its tags, whatever stands around it. -/
theorem Node.WellFormed.reads {node : Node} (wellFormed : node.WellFormed)
    (names : List (List Char)) : Reads names node.written (node.events 0) names := by
  induction wellFormed generalizing names with
  | text s => exact reads_silent (eventless_escape s) names
  | charData free => exact reads_silent (eventless_charData free) names
  | empty isName writable => exact reads_emptyTag isName writable names
  | @element name attributes content isName writable _ ih =>
    have closing := reads_endTagWith isName (List.forall_mem_nil _) names
    rw [endTagWith_nil] at closing
    have reads := (reads_startTag isName writable names).append
      ((reads_allWritten ih (name :: names)).append closing)
    rw [List.map_append, ← Node.allEvents_add, Nat.add_zero] at reads
    simpa [Node.written, Node.events, Event.shift, Nat.add_assoc] using reads

theorem ofText_eq (s : List Char) :
    Event.ofText s = eventsFrom (byteLength (withoutMark s)) [] (withoutMark s) := by
  cases s <;> rfl

theorem standard_readsElements : Reader.ReadsElements := by
  intro name attributes content wellFormed
  have reads := (wellFormed.reads []).events 0 []
  have ended : eventsFrom (0 + byteLength ((Node.element name attributes content).written ++ []))
      [] [] = [] := by
    rw [eventsFrom]
    rfl
  have unmarked : withoutMark (Node.element name attributes content).written =
      (Node.element name attributes content).written := by
    simp [Node.written, startTag, withoutMark, byteOrderMark]
  rw [ended, List.append_nil, List.append_nil, Nat.zero_add, Event.map_shift_zero] at reads
  exact (ofText_eq _).trans (unmarked.symm ▸ reads)

/-! ## End tags -/

theorem withoutMark_append_endTagWith (before name blanks rest : List Char) :
    withoutMark (before ++ (endTagWith name blanks ++ rest)) =
      withoutMark before ++ (endTagWith name blanks ++ rest) := by
  refine withoutMark_append before ?_
  rintro c ⟨⟩
  decide

/-- A text whose end is known without its mark is known with it. -/
theorem exists_of_withoutMark (ne_nil : t ≠ []) (parts : withoutMark text = s ++ t) :
    ∃ before, text = before ++ t ∧ withoutMark before = s := by
  cases text with
  | nil => exact absurd (List.append_eq_nil_iff.1 parts.symm).2 ne_nil
  | cons c rest =>
    by_cases mark : c = byteOrderMark
    · rw [withoutMark, if_pos mark] at parts
      exact ⟨c :: s, by rw [parts]; rfl, if_pos mark⟩
    · rw [withoutMark, if_neg mark] at parts
      refine ⟨s, parts, ?_⟩
      cases s with
      | nil => rfl
      | cons d s =>
        obtain ⟨rfl, -⟩ := List.cons.inj parts
        exact if_neg mark

theorem standard_placesTags : Reader.PlacesTags := by
  intro text name es es' stop _ events
  have events : eventsFrom (byteLength (withoutMark text)) [] (withoutMark text) =
      es ++ .closed name stop :: es' := (ofText_eq text).symm.trans events
  obtain ⟨s, content, rest, inner, parts, named, reads, size, rfl⟩ :=
    (bits_eventsFrom [] (withoutMark text)).at_closed events
  obtain ⟨blanks, written, blank⟩ := eq_append_of_endName content
  rw [← named] at written
  have tag : '<' :: '/' :: (content ++ ['>']) = endTagWith name blanks := by
    rw [written, endTagWith, List.append_assoc]
  rw [tag] at parts size
  obtain ⟨before, rfl, rfl⟩ := exists_of_withoutMark (by simp [endTagWith]) parts
  rw [Text.byteLength_append] at size
  exact ⟨before, blanks, rest, _, rfl, blank, size, reads.endsIn, rfl,
    (bits_eventsFrom inner rest).endsIn⟩

/-- Where the blanks at the end of a text begin is told by the character before them. -/
theorem eq_of_append_blanks {blanks' : List Char} (visible : ∀ c ∈ s.getLast?, isSpace c = false)
    (visible' : ∀ c ∈ t.getLast?, isSpace c = false) (blank : ∀ c ∈ blanks, isSpace c = true)
    (blank' : ∀ c ∈ blanks', isSpace c = true) (same : s ++ blanks = t ++ blanks') : s = t := by
  have dropped {s blanks : List Char} (visible : ∀ c ∈ s.getLast?, isSpace c = false)
      (blank : ∀ c ∈ blanks, isSpace c = true) :
      (s ++ blanks).reverse.dropWhile isSpace = s.reverse := by
    rw [List.reverse_append,
      List.dropWhile_append_of_pos fun c member => blank c (List.mem_reverse.1 member)]
    rcases List.eq_nil_or_concat s with rfl | ⟨before, last, rfl⟩
    · rfl
    · rw [List.concat_eq_append, List.reverse_append, List.reverse_singleton, List.singleton_append,
        List.dropWhile_cons_of_neg]
      simpa using visible last (by simp)
  rw [← List.reverse_inj, ← dropped visible blank, same, dropped visible' blank']

/-- An end tag that ends at a known offset begins at a known one. -/
theorem eq_of_append_endTagWith {blanks' rest' : List Char} (isName : IsName name)
    (blank : ∀ c ∈ blanks, isSpace c = true) (blank' : ∀ c ∈ blanks', isSpace c = true)
    (same : s ++ (endTagWith name blanks ++ rest) = t ++ (endTagWith name blanks' ++ rest'))
    (stop : byteLength (s ++ endTagWith name blanks) = byteLength (t ++ endTagWith name blanks')) :
    s = t ∧ rest = rest' := by
  have tags : s ++ endTagWith name blanks = t ++ endTagWith name blanks' := by
    rw [← Text.takeBytes_append (s ++ endTagWith name blanks) rest, stop, List.append_assoc, same,
      ← List.append_assoc, Text.takeBytes_append]
  have shape (s blanks : List Char) :
      s ++ endTagWith name blanks = s ++ '<' :: '/' :: name ++ blanks ++ ['>'] := by
    simp [endTagWith]
  have visible (s : List Char) : ∀ c ∈ (s ++ '<' :: '/' :: name).getLast?, isSpace c = false := by
    obtain ⟨before, last, rfl⟩ := (List.eq_nil_or_concat name).resolve_left isName.ne_nil
    have shape : s ++ '<' :: '/' :: before.concat last = s ++ '<' :: '/' :: before ++ [last] := by
      simp
    rw [shape, List.getLast?_concat]
    rintro c ⟨⟩
    exact isSpace_of_isAlpha (isName.letters last (by simp))
  constructor
  · rw [shape, shape] at tags
    have names := eq_of_append_blanks (visible s) (visible t) blank blank'
      (List.append_cancel_right tags)
    exact List.append_cancel_right names
  · rw [← List.append_assoc, ← List.append_assoc, tags] at same
    exact List.append_cancel_left same

theorem standard_trimsEndTags : Reader.TrimsEndTags := by
  intro before name blanks blanks' rest es later isName blank blank' events
  have events : eventsFrom
      (byteLength (withoutMark (before ++ (endTagWith name blanks ++ rest)))) []
      (withoutMark (before ++ (endTagWith name blanks ++ rest))) = _ := (ofText_eq _).symm.trans events
  obtain ⟨s, content, rest', inner, parts, named, reads, size, behind⟩ :=
    (bits_eventsFrom [] _).at_closed events
  obtain ⟨blanks'', written, blank''⟩ := eq_append_of_endName content
  rw [← named] at written
  have tag : '<' :: '/' :: (content ++ ['>']) = endTagWith name blanks'' := by
    rw [written, endTagWith, List.append_assoc]
  rw [tag] at parts size
  rw [withoutMark_append_endTagWith] at parts
  rw [endTagStop, ← Text.byteLength_append] at size
  obtain ⟨rfl, rfl⟩ := eq_of_append_endTagWith isName blank blank'' parts size
  obtain rfl := (Event.shift_injective _).list_map behind
  have read := (reads.append (reads_endTagWith isName blank' inner)).events 0 rest
  rw [Nat.zero_add, Event.map_shift_zero, List.append_assoc, List.append_assoc,
    ← withoutMark_append_endTagWith, ← ofText_eq] at read
  have length : byteLength (withoutMark (before ++ (endTagWith name blanks' ++ rest))) =
      endTagStop before name blanks' + byteLength rest := by
    rw [withoutMark_append_endTagWith, Text.byteLength_append, Text.byteLength_append, endTagStop,
      Nat.add_assoc]
  change Event.ofText _ = _
  rw [read, length, eventsFrom_shift]
  rfl

end Stencil.Markup
