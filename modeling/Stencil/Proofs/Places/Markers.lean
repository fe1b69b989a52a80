import Stencil.Proofs.Assembly.Nesting
import Stencil.Proofs.Places.Tokens
/-!
# Positions of markers and of lexical errors

A marker knows the place behind its start delimiter, and how many characters lie between that place
and its condition. What is reported about markers is reported there, and a source that does not
split into tokens is reported where the piece begins that has no end.
-/
namespace Stencil

open Text (Position)

namespace Text

/-- Trimming a text takes blanks off its end. -/
theorem exists_trimStart_eq (s : List Char) : ∃ blanks, trimStart s = trim s ++ blanks := by
  obtain ⟨blanks, whole⟩ := List.dropWhile_suffix (p := isBlank) (l := (trimStart s).reverse)
  refine ⟨blanks.reverse, ?_⟩
  rw [trim, trimEnd, ← List.reverse_append, whole, List.reverse_reverse]

end Text

namespace Token

variable {d : Delimiters} {pos place : Position} {c : Char} {s text source payload : List Char}
  {indent? : Option (List Char)} {token : Token} {tokens : List Token} {r : Step} {offset : Nat}
  {e : TemplateError}

/-- The place that a marker knows -/
def marked? : Token → Option Position
  | .ifMark _ _ pos => some pos
  | .elseifMark _ _ pos => some pos
  | .elseMark pos => some pos
  | .endifMark pos => some pos
  | _ => none

/-- The marker tries the condition, which stands `offset` characters behind the place. -/
def Tries (token : Token) (text : List Char) (offset : Nat) (place : Position) : Prop :=
  token = .ifMark text offset place ∨ token = .elseifMark text offset place

/-! ## What a marker is written with -/

theorem marked?_of_marker? (found : marker? payload pos = some token) :
    token.marked? = some pos := by
  cases marked_of_marker? found <;> rfl

/-- The condition of a marker stands in its payload behind as many characters as the marker says. -/
theorem exists_of_marker? (found : marker? payload pos = some token)
    (tries : token.Tries text offset place) :
    ∃ lead rest, payload = lead ++ text ++ rest ∧ offset = lead.length := by
  obtain ⟨blanks, trimmed⟩ := Text.exists_trimStart_eq payload
  have lead : payload.length - (Text.trimStart payload).length =
      (payload.takeWhile Text.isBlank).length := by
    have whole := congrArg List.length (Text.trimStart_append payload)
    rw [List.length_append] at whole
    omega
  have inContent {word : List Char} {inner : Nat}
      (read : conditionOf? word (Text.trim payload) = some (text, inner)) :
      ∃ front rest, payload = front ++ text ++ rest ∧
        (payload.takeWhile Text.isBlank).length + inner = front.length := by
    obtain ⟨front, content, rfl⟩ := exists_of_conditionOf? read
    refine ⟨payload.takeWhile Text.isBlank ++ front, ')' :: blanks, ?_, by rw [List.length_append]⟩
    conv_lhs => rw [← Text.trimStart_append payload, trimmed, content]
    simp only [List.append_assoc, List.singleton_append]
  cases marked_of_marker? found with
  | elseMark => rcases tries with same | same <;> cases same
  | endifMark => rcases tries with same | same <;> cases same
  | elseifMark read =>
    rcases tries with same | same <;> cases same
    exact lead ▸ inContent read
  | ifMark read =>
    rcases tries with same | same <;> cases same
    exact lead ▸ inContent read

theorem marker_of_chunk {opening : Position} {body : List Char}
    (read : chunk d opening indent? body = .ok r) (member : token ∈ r.tokens)
    (marked : token.marked? = some place) :
    ∃ payload rest, body = payload ++ d.stop :: rest ∧
      marker? payload (opening.step d.start) = some token := by
  have behind {last : Token} (member : token ∈ indentText indent? ++ [last]) : token = last := by
    cases indent? with
    | none => exact List.mem_singleton.1 member
    | some indent =>
      rcases List.mem_pair.1 member with rfl | same
      · cases marked
      · exact same
  cases chunk_ok_iff.1 read with
  | line split found =>
    cases List.mem_singleton.1 member
    exact ⟨_, _, eq_of_payload split, found⟩
  | last split found =>
    cases List.mem_singleton.1 member
    exact ⟨_, _, eq_of_payload split, found⟩
  | marker split found =>
    cases behind member
    exact ⟨_, _, eq_of_payload split, found⟩
  | escape =>
    cases behind member
    cases marked
  | expression =>
    cases List.mem_singleton.1 member
    cases marked

theorem marker_of_step (stepped : step d pos c s = .ok r) (member : token ∈ r.tokens)
    (marked : token.marked? = some place) :
    ∃ indent payload rest, c :: s = indent ++ d.start :: (payload ++ d.stop :: rest) ∧
      marker? payload (pos.after (indent ++ [d.start])) = some token := by
  cases step_ok_iff.1 stepped with
  | newline =>
    cases List.mem_singleton.1 member
    cases marked
  | @indented indent _ _ _ _ found _ read =>
    obtain ⟨payload, rest, rfl, marker⟩ := marker_of_chunk read member marked
    refine ⟨indent, payload, rest, eq_of_indentation? found, ?_⟩
    rwa [Position.after_append]
  | escape =>
    cases List.mem_singleton.1 member
    cases marked
  | text =>
    cases List.mem_singleton.1 member
    cases marked
  | comment => cases member
  | chunk _ _ starts _ read =>
    obtain ⟨payload, rest, rfl, marker⟩ := marker_of_chunk read member marked
    exact ⟨[], payload, rest, by rw [starts]; rfl, marker⟩

/-- A marker of a source knows the place behind its start delimiter. -/
theorem exists_of_marker (read : ofSource d source = .ok tokens) (member : token ∈ tokens)
    (marked : token.marked? = some pos) :
    ∃ front payload rest, source = front ++ d.start :: (payload ++ d.stop :: rest) ∧
      pos = .after .start (front ++ [d.start]) ∧ marker? payload pos = some token := by
  obtain ⟨before, after, rfl⟩ := List.append_of_mem member
  obtain ⟨tokens, raw, joined⟩ := ofSource_eq_ok_iff.1 read
  have notText : token.NotText := by
    rintro s rfl
    cases marked
  obtain ⟨before', after', rfl, -⟩ := exists_of_joinTexts notText joined
  obtain ⟨taken, c, rest, r, earlier, later, others, rfl, stepped, yields, -⟩ :=
    exists_step_of_pieces raw
  have yielded : token ∈ r.tokens := yields ▸ List.mem_append_right _ List.mem_cons_self
  obtain ⟨indent, payload, rest', whole, found⟩ := marker_of_step stepped yielded marked
  obtain rfl := Option.some.inj (marked.symm.trans (marked?_of_marker? found))
  refine ⟨taken ++ indent, payload, rest', ?_, ?_, found⟩
  · rw [whole, List.append_assoc]
  · rw [List.append_assoc, Position.after_append Position.start]

/-! ## Lexical errors -/

/-- The error is reported behind some characters of the text. -/
def ReportedIn (pos : Position) (s : List Char) (e : TemplateError) : Prop :=
  ∃ front problem, front <+: s ∧ e = .malformed (pos.after front) problem

theorem reportedIn_of_step_error (failed : step d pos c s = .error e) :
    ReportedIn pos (c :: s) e := by
  have inChunk {opening : Position} {indent? : Option (List Char)} {body : List Char}
      (failed : chunk d opening indent? body = .error e) :
      ∃ problem, e = .malformed opening problem := by
    unfold chunk at failed
    dsimp only at failed
    repeat' split at failed
    all_goals first
      | cases failed
        exact ⟨_, rfl⟩
      | cases failed
  unfold step at failed
  split at failed
  · cases failed
  · split at failed
    · rename_i indent body found
      split at found
      · have opens : indent <+: c :: s := ⟨_, (eq_of_indentation? found).symm⟩
        unfold indentedChunk at failed
        split at failed
        · obtain ⟨problem, rfl⟩ := inChunk failed
          exact ⟨indent, problem, opens, rfl⟩
        · cases failed
          exact ⟨indent, _, opens, rfl⟩
      · cases found
    · split at failed
      · cases failed
      · split at failed
        · cases failed
        · split at failed
          · unfold comment at failed
            split at failed
            · cases failed
            · cases failed
              exact ⟨[], _, List.nil_prefix, rfl⟩
          · obtain ⟨problem, rfl⟩ := inChunk failed
            exact ⟨[], problem, List.nil_prefix, rfl⟩

theorem reportedIn_of_pieces_error (failed : pieces d pos s = .error e) : ReportedIn pos s e := by
  fun_induction pieces d pos s with
  | case1 => cases failed
  | case2 pos c s e' stepped =>
    cases failed
    exact reportedIn_of_step_error stepped
  | case3 pos c s r stepped _ ih =>
    rcases others : pieces d r.pos r.rest with e' | rest
    · rw [others] at failed
      cases failed
      obtain ⟨front, problem, ⟨rest, inside⟩, rfl⟩ := ih others
      obtain ⟨taken, whole, place⟩ := step_takes stepped
      refine ⟨taken ++ front, problem, ⟨rest, ?_⟩, ?_⟩
      · rw [List.append_assoc, inside, whole]
      · rw [place, Position.after_append]
    · rw [others] at failed
      cases failed

theorem reportedIn_of_ofSource_error (failed : ofSource d source = .error e) :
    ReportedIn .start source e := by
  rw [ofSource] at failed
  rcases read : pieces d .start source with e' | tokens
  · rw [read] at failed
    cases failed
    exact reportedIn_of_pieces_error read
  · rw [read] at failed
    cases failed

end Token

/-! ## Reports about markers -/

namespace Assembly

variable {ctx : ParseContext} {a : Assembly} {token : Token} {tokens : List Token}

/-- The places of the conditionals that are open -/
def places (a : Assembly) : List Position := a.conditionals.map OpenConditional.pos

@[simp] theorem places_addErrors (errors : List TemplateError) (a : Assembly) :
    (a.addErrors errors).places = a.places := rfl

@[simp] theorem places_modifyInnermost (f : List Chunk → List Chunk) (a : Assembly) :
    (a.modifyInnermost f).places = a.places := by
  unfold modifyInnermost
  split
  · rfl
  · rename_i c outer inside
    simp [places, inside]

theorem places_closeInnermost (name : String) (a : Assembly) :
    (a.closeInnermost name).places = a.places.tail := by
  unfold closeInnermost
  split
  · rename_i outside
    simp [places, outside]
  · rename_i c outer inside
    refine (places_modifyInnermost _ _).trans ?_
    simp [places, inside]

theorem places_nextBranch (pos : Position) (marker : InnerMarker)
    (next : List Arm → Arm → OpenBranch) (a : Assembly) :
    (a.nextBranch pos marker next).places = a.places := by
  obtain ⟨chunks, _ | ⟨⟨branch, body, pos'⟩, conditionals⟩, errors⟩ := a
  · rfl
  · cases branch <;> rfl

/-- A conditional is open from the place of its `if` on. -/
theorem mem_places_addToken {pos : Position} (member : pos ∈ (a.addToken ctx token).places) :
    pos ∈ a.places ∨ token.marked? = some pos := by
  cases token with
  | text s => exact .inl (by simpa [addToken, addText] using member)
  | newline s => exact .inl (by simpa [addToken, addChunk] using member)
  | expr source indent? pos' =>
    exact .inl (by simpa [addToken, addChunk] using member)
  | ifMark source offset pos' =>
    rcases List.mem_cons.1 member with rfl | outer
    · exact .inr rfl
    · exact .inl outer
  | elseifMark source offset pos' =>
    rw [addToken, places_nextBranch] at member
    exact .inl member
  | elseMark pos' =>
    rw [addToken, places_nextBranch] at member
    exact .inl member
  | endifMark pos' =>
    obtain ⟨outside, _ | ⟨c, outer⟩, old⟩ := a
    · exact .inl member
    · rw [addToken, places_closeInnermost] at member
      exact .inl (List.mem_of_mem_tail member)

/-- What is reported about markers is reported at one of them. -/
theorem exists_of_mem_reports {e : TemplateError} (member : e ∈ a.reports ctx tokens) :
    ∃ pos problem, e = .malformed pos problem ∧
      (pos ∈ a.places ∨ ∃ token ∈ tokens, token.marked? = some pos) := by
  induction tokens generalizing a with
  | nil =>
    obtain ⟨c, inside, rfl⟩ := List.mem_map.1 member
    exact ⟨c.pos, _, rfl, .inl (List.mem_map_of_mem inside)⟩
  | cons token rest ih =>
    rcases List.mem_append.1 member with here | later
    · unfold markerReports at here
      split at here <;> try split at here
      all_goals first
        | cases List.mem_singleton.1 here
          exact ⟨_, _, rfl, .inr ⟨_, List.mem_cons_self, rfl⟩⟩
        | cases here
    · obtain ⟨pos, problem, rfl, inside | ⟨token', among, marked⟩⟩ := ih later
      · refine ⟨pos, problem, rfl, (mem_places_addToken inside).imp_right fun marked => ?_⟩
        exact ⟨token, List.mem_cons_self, marked⟩
      · exact ⟨pos, problem, rfl, .inr ⟨token', List.mem_cons_of_mem _ among, marked⟩⟩

end Assembly
end Stencil
