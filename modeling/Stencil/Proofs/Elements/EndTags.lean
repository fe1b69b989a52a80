import Mathlib
import Stencil.Proofs.Elements.Bodies
import Stencil.Proofs.Reading.Standard
/-!
# Blanks in end tags

Blanks may stand between the name in an end tag and its `>`. Where the body of a template ends is
counted back from behind its end tag, by the length of a tag without blanks: so each blank lets one
more character of the tag into the body.
-/
namespace Stencil

open Markup (Event Reader endTagStop endTagWith isSpace withoutMark)
open Text (byteLength)

namespace GroupFile

variable {before rest blanks blanks₀ : List Char} {es later : List Event} {t : OpenTemplate}
  {file : GroupFile}

/-- The text before an end tag of a template, the tag and the text behind it. -/
def closedText (before blanks rest : List Char) : List Char :=
  before ++ (endTagWith "template".toList blanks ++ rest)

/-- The offset behind the end tag. -/
def closedAt (before blanks : List Char) : Nat := endTagStop before "template".toList blanks

theorem closedAt_eq (before blanks : List Char) : closedAt before blanks =
    byteLength (withoutMark before) + byteLength blanks + Progress.endTagLength := by
  have tag : byteLength (endTagWith "template".toList blanks) =
      byteLength blanks + Progress.endTagLength := Markup.byteLength_endTagWith _ blanks
  rw [closedAt, endTagStop, tag, Nat.add_assoc]

theorem goesOn_closedText (before blanks rest : List Char) :
    GoesOn (byteLength before - byteLength (withoutMark before)) rest (closedAt before blanks)
      (closedText before blanks rest) := by
  have mark := Markup.byteLength_withoutMark before
  have place := closedAt_eq before blanks
  refine ⟨by omega, by omega, before ++ endTagWith "template".toList blanks, ?_, ?_⟩
  · rw [closedText, List.append_assoc]
  · rw [closedAt, endTagStop, Text.byteLength_append]
    omega

theorem Carries.map_shift {templates : List TemplateDeclaration} {put : String → GroupFile}
    (carries : Carries t templates es put) (d : Nat) :
    Carries t templates (es.map (Event.shift d)) put := by
  cases carries with
  | kept file after => exact .kept file after
  | anew file opened => exact .anew file (List.mem_map_of_mem opened)

/-- The variants of a file right behind the end tag that closes one of its templates. -/
def Variants.closing (file : GroupFile) (t : OpenTemplate) : Variants where
  put body := { file with templates := file.templates ++ [⟨t.name, t.formals, body⟩] }
  open? := none

section

variable [Reader]

/-- What is read as the body of the template that the end tag closes. -/
def closedBody (t : OpenTemplate) (before blanks rest : List Char) : Except FileProblem String :=
  Progress.bodyText (closedText before blanks rest) t (closedAt before blanks)

/-- What is read before an end tag does not depend on the tag. -/
theorem foldlM_closedText (ends : ∀ e ∈ es, e.EndsIn (withoutMark before))
    (blanks rest : List Char) (p : Progress) :
    es.foldlM (Progress.step (closedText before blanks rest)) p =
      es.foldlM (Progress.step before) p := by
  refine Progress.foldlM_step_append (fun e member name stop closed => ?_) _ p
  have ends := ends e member
  rw [closed] at ends
  obtain ⟨read, ⟨others, parts⟩, rfl⟩ := ends
  have size := congrArg byteLength parts
  have mark := Markup.byteLength_withoutMark before
  rw [Text.byteLength_append] at size
  omega

theorem step_closedText (outermost : t.depth = 0) (file : GroupFile)
    (before blanks rest : List Char) :
    Progress.step (closedText before blanks rest) ⟨some file, some t⟩
        (.closed "template".toList (closedAt before blanks)) =
      (closedBody t before blanks rest).map fun body =>
        ⟨some { file with templates := file.templates ++ [⟨t.name, t.formals, body⟩] }, none⟩ := by
  have named : Element.ofName? "template".toList = some .template := by decide
  simp only [Progress.step, Progress.insideTemplate, named, if_true, outermost,
    Progress.onTemplateEnd]
  rfl

section

variable (ends : ∀ e ∈ es, e.EndsIn (withoutMark before))
  (folded : es.foldlM (Progress.step before) .start = .ok ⟨some file, some t⟩)
  (outermost : t.depth = 0)
include ends folded outermost

theorem parse_closedText
    (events : Reader.events (closedText before blanks rest) =
      es ++ .closed "template".toList (closedAt before blanks) ::
        later.map (Event.shift (closedAt before blanks))) :
    parse (closedText before blanks rest) =
      (closedBody t before blanks rest).bind fun body =>
        ((later.map (Event.shift (closedAt before blanks))).foldlM
            (Progress.step (closedText before blanks rest))
            ((Variants.closing file t).progress (closedAt before blanks) body)).bind
          Progress.finish := by
  have step := step_closedText outermost file before blanks rest
  rw [parse, events, List.foldlM_append, foldlM_closedText ends, folded]
  cases found : closedBody t before blanks rest with
  | error problem =>
    rw [found] at step
    exact congrArg (Except.bind · Progress.finish) (foldlM_step_error step _)
  | ok body =>
    rw [found] at step
    exact congrArg (Except.bind · Progress.finish) (foldlM_step step _)

/-- Of the file only the body of the template depends on the blanks in its end tag. -/
theorem exists_parse_closedText {parsed : GroupFile}
    (behind : ∀ e ∈ later, e.EndsIn rest)
    (events : ∀ blanks, (∀ c ∈ blanks, isSpace c = true) →
      Reader.events (closedText before blanks rest) =
        es ++ .closed "template".toList (closedAt before blanks) ::
          later.map (Event.shift (closedAt before blanks)))
    (blank₀ : ∀ c ∈ blanks₀, isSpace c = true)
    (accepted : parse (closedText before blanks₀ rest) = .ok parsed) :
    ∃ put, Carries t file.templates later put ∧
      ∀ blanks, (∀ c ∈ blanks, isSpace c = true) →
        parse (closedText before blanks rest) = (closedBody t before blanks rest).map put := by
  have sound : (Variants.closing file t).Sound t file.templates later :=
    .of_carries (.kept file [])
  rw [parse_closedText ends folded outermost (events _ blank₀)] at accepted
  cases found : closedBody t before blanks₀ rest with
  | error problem =>
    rw [found] at accepted
    cases accepted
  | ok body₀ =>
    simp only [found, Except.bind] at accepted
    cases sound.foldlM behind fun _ member => member with
    | refused problem all =>
      rw [all _ _ _ (goesOn_closedText before blanks₀ rest)] at accepted
      cases accepted
    | taken v sound all =>
      rw [all _ _ _ (goesOn_closedText before blanks₀ rest)] at accepted
      have closed : v.open? = none := by
        cases here : v.open? with
        | none => rfl
        | some inner => simp [Progress.finish, Variants.progress, here] at accepted
      have finished (d : Nat) (body : String) :
          (v.progress d body).finish = .ok (v.put body) := by
        simp [Progress.finish, Variants.progress, closed]
      refine ⟨v.put, sound.carries, fun blanks blank => ?_⟩
      rw [parse_closedText ends folded outermost (events _ blank)]
      cases closedBody t before blanks rest with
      | error problem => rfl
      | ok body =>
        simp only [Except.bind, Except.map]
        rw [all _ _ _ (goesOn_closedText before blanks rest)]
        exact finished _ body

end

/-- As many characters of the tag are in the body as there are blanks in the tag. -/
theorem closedBody_eq {opening content : List Char} (unmarked : withoutMark before = before)
    (parts : before = opening ++ content) (start : byteLength opening = t.start)
    (blank : ∀ c ∈ blanks, isSpace c = true) (rest : List Char) :
    closedBody t before blanks rest =
      (templateBody? (content ++ ("</template".toList ++ blanks).take blanks.length)).elim
        (.error (.invalidEntity t.name)) .ok := by
  let tag := "</template".toList ++ blanks
  have ascii : "</template".toList.all (fun c => c.utf8Size = 1) = true := by decide
  have single : ∀ c ∈ tag, c.utf8Size = 1 :=
    List.forall_mem_append.2 ⟨fun c member => of_decide_eq_true (List.all_eq_true.1 ascii c member),
      fun c member => Markup.utf8Size_of_isSpace (blank c member)⟩
  have size : byteLength (tag.take blanks.length) = byteLength blanks := by
    rw [Markup.byteLength_eq_length fun c member => single c (List.mem_of_mem_take member),
      Markup.byteLength_eq_length fun c member => Markup.utf8Size_of_isSpace (blank c member),
      List.length_take, List.length_append]
    omega
  have shape : closedText before blanks rest =
      opening ++
        (content ++ tag.take blanks.length ++ (tag.drop blanks.length ++ '>' :: rest)) := by
    rw [List.append_assoc, ← List.append_assoc (tag.take _), List.take_append_drop]
    simp [closedText, parts, endTagWith, tag]
  have place := closedAt_eq before blanks
  have long : ¬ closedAt before blanks < Progress.endTagLength := by omega
  have cut : closedAt before blanks - Progress.endTagLength =
      byteLength opening + byteLength (content ++ tag.take blanks.length) := by
    rw [place, Nat.add_sub_cancel, unmarked, parts, Text.byteLength_append, Text.byteLength_append,
      size, Nat.add_assoc]
  rw [closedBody, Progress.bodyText, if_neg long, cut, shape, ← start, Text.cutBytes?_append,
    Option.elim_some]

/-- What blanks do in the end tag that closes the template `t`, with `before` and `rest` around it
and the events `later` behind it: the file comes out as `put` tells, for the body that is read. -/
structure BlanksEnterBody (t : OpenTemplate) (templates : List TemplateDeclaration)
    (later : List Event) (before rest : List Char) (put : String → GroupFile) : Prop where
  /-- Nothing but the body of the template depends on the blanks. -/
  carries : Carries t templates later put
  parse_eq {blanks : List Char} : (∀ c ∈ blanks, isSpace c = true) →
    parse (closedText before blanks rest) = (closedBody t before blanks rest).map put
  /-- Behind the content of the element come as many characters of its end tag as it has blanks. -/
  closedBody_eq : withoutMark before = before → ∃ opening content,
    before = opening ++ content ∧ byteLength opening = t.start ∧
    ∀ blanks, (∀ c ∈ blanks, isSpace c = true) →
      closedBody t before blanks rest =
        (templateBody? (content ++ ("</template".toList ++ blanks).take blanks.length)).elim
          (.error (.invalidEntity t.name)) .ok

/-- Every end tag that closes a template of the file lets as many of its characters into the body as
there are blanks in it; nothing else in the file depends on them. So it is with every reader that
tells where the tags are and reads the name of an end tag without the blanks behind it. -/
theorem end_tag_blanks_enter_body (placed : Reader.PlacesTags) (trimmed : Reader.TrimsEndTags)
    {text : List Char} {parsed : GroupFile} {p : Progress} {es' : List Event} {stop : Nat}
    (accepted : parse text = .ok parsed)
    (events : Reader.events text = es ++ .closed "template".toList stop :: es')
    (reached : es.foldlM (Progress.step text) .start = .ok p) (opened : p.open? = some t)
    (outermost : t.depth = 0) :
    ∃ file before blanks₀ rest put,
      p.file? = some file ∧ text = closedText before blanks₀ rest ∧
      stop = closedAt before blanks₀ ∧ (∀ c ∈ blanks₀, isSpace c = true) ∧
      BlanksEnterBody t file.templates es' before rest put := by
  have isName : Markup.IsName "template".toList := by decide
  obtain ⟨before, blanks₀, rest, later, rfl, blank₀, rfl, ends, rfl, behind⟩ :=
    placed isName events
  have others (blanks : List Char) (blank : ∀ c ∈ blanks, isSpace c = true) :=
    trimmed isName blank₀ blank events
  obtain ⟨file?, open?⟩ := p
  cases opened
  have folded : es.foldlM (Progress.step before) .start = .ok ⟨file?, some t⟩ := by
    rw [← foldlM_closedText ends blanks₀ rest]
    exact reached
  have begun : Progress.Begun (withoutMark before) ⟨file?, some t⟩ :=
    Progress.Begun.foldlM (.of_none rfl) ends folded
  obtain ⟨group, opening, ⟨inside, parted⟩, start⟩ := begun t rfl
  obtain ⟨file, rfl⟩ := Option.isSome_iff_exists.1 group
  obtain ⟨put, carries, all⟩ :=
    exists_parse_closedText ends folded outermost behind others blank₀ accepted
  refine ⟨file, before, blanks₀, rest, put, rfl, rfl, rfl, blank₀, carries.map_shift _,
    fun {blanks} => all blanks, fun whole => ?_⟩
  have split : before = opening ++ inside := whole.symm.trans parted.symm
  exact ⟨opening, inside, split, start, fun blanks blank => closedBody_eq whole split start blank rest⟩

end

/-- A file with one template, and blanks in its end tag. -/
def rowText (blanks : List Char) : List Char :=
  closedText "<group name='page'><template name='row'>x".toList blanks "</group>".toList

/-- The events before the end tag of the template. -/
def rowEvents : List Event :=
  [.opened "group".toList " name='page'".toList 19,
    .opened "template".toList " name='row'".toList 40]

theorem parse_rowText_nil :
    parse (rowText []) = .ok ⟨"page", none, .dollar, [⟨"row", [], "x"⟩], []⟩ := by
  unfold rowText closedText endTagWith
  cbv

/-- The body begins behind the forty bytes of the tags, and a blank more in its end tag lets a
character more of the tag into it. -/
theorem blanks_behind_row_enter_body :
    parse (rowText []) = .ok ⟨"page", none, .dollar, [⟨"row", [], "x"⟩], []⟩ ∧
    Reader.events (rowText []) =
      rowEvents ++ .closed "template".toList 52 :: [.closed "group".toList 60] ∧
    rowEvents.foldlM (Progress.step (rowText [])) .start =
      .ok ⟨some ⟨"page", none, .dollar, [], []⟩, some ⟨"row", [], 40, 0⟩⟩ ∧
    ∃ before blanks₀ rest put,
      rowText [] = closedText before blanks₀ rest ∧ 52 = closedAt before blanks₀ ∧
      BlanksEnterBody ⟨"row", [], 40, 0⟩ [] [.closed "group".toList 60] before rest put := by
  have events : Reader.events (rowText []) =
      rowEvents ++ .closed "template".toList 52 :: [.closed "group".toList 60] := by
    unfold rowText closedText endTagWith rowEvents
    cbv
  have reached : rowEvents.foldlM (Progress.step (rowText [])) .start =
      .ok ⟨some ⟨"page", none, .dollar, [], []⟩, some ⟨"row", [], 40, 0⟩⟩ := by
    unfold rowText closedText endTagWith rowEvents
    cbv
  obtain ⟨file, before, blanks₀, rest, put, group, whole, stop, -, enter⟩ :=
    end_tag_blanks_enter_body Markup.standard_placesTags Markup.standard_trimsEndTags
      parse_rowText_nil events reached rfl rfl
  cases group
  exact ⟨parse_rowText_nil, events, reached, before, blanks₀, rest, put, whole, stop, enter⟩

/-- One blank in the end tag, and its first character is in the body. -/
theorem blank_in_end_tag_changes_body :
    isSpace ' ' = true ∧
    parse (rowText []) = .ok ⟨"page", none, .dollar, [⟨"row", [], "x"⟩], []⟩ ∧
    parse (rowText [' ']) = .ok ⟨"page", none, .dollar, [⟨"row", [], "x<"⟩], []⟩ ∧
    parse (rowText [' ']) ≠ parse (rowText []) := by
  have spaced : parse (rowText [' ']) =
      .ok ⟨"page", none, .dollar, [⟨"row", [], "x<"⟩], []⟩ := by
    unfold rowText closedText endTagWith
    cbv
  refine ⟨rfl, parse_rowText_nil, spaced, ?_⟩
  rw [parse_rowText_nil, spaced]
  simp

end GroupFile
end Stencil
