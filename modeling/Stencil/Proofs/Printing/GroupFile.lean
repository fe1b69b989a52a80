import Stencil.Group.File
import Stencil.Proofs.Printing.Markup
import Stencil.Proofs.Reading.Standard
/-!
# Writing group files

A group file is written as an element `group` with its templates and aliases inside. The body of a
template stands on lines of its own, as character data or with entities for its special characters.
Reading the text gives back the file: one step for each element, carried by where the element stands
in the text.
-/
namespace Stencil

open Markup (Attribute IsName Node Plain Reader WritableAttributes attributesText charData endTag
  escape startTag)
open Text (byteLength)

/-! ## Bodies -/

namespace TemplateDeclaration

/-- The body with the line ends around it. -/
def lines (t : TemplateDeclaration) : List Char := '\n' :: (t.body.toList ++ ['\n'])

/-- What stands between the tags of a template: a section of character data, if that is asked for
and the body does not end one, or the lines with entities in them. -/
def content (inSection : Bool) (t : TemplateDeclaration) : Node :=
  if inSection ∧ ¬Markup.sectionEnd <:+: t.body.toList then .charData t.lines else .text t.lines

theorem wellFormed_content (inSection : Bool) (t : TemplateDeclaration) :
    (t.content inSection).WellFormed := by
  unfold content
  split
  case isTrue free =>
    refine .charData fun inside => ?_
    rw [lines, List.infix_cons_iff] at inside
    rcases inside with here | later
    · exact absurd (List.cons_prefix_cons.1 here).1 (by decide)
    · exact Text.not_infix_append (c := '>') (by decide) (by decide) free.2 later
  case isFalse => exact .text t.lines

theorem events_content (inSection : Bool) (t : TemplateDeclaration) (start : Nat) :
    (t.content inSection).events start = [] := by
  unfold content
  split
  · rw [Node.events]
  · rw [Node.events]

section

variable [Reader]

theorem bodyCharacters?_charData (s : List Char) :
    GroupFile.bodyCharacters? (charData s) = some s := by
  have closed : charData s = '<' :: ("![CDATA[".toList ++ s ++ [']', ']'] ++ ['>']) := by
    simp [charData]
  have trimmed : Text.trim (charData s) = charData s := by
    rw [closed]
    exact Text.trim_eq_self (by decide) (by decide) _
  have opened : Text.dropWord? "<![CDATA[".toList (charData s) = some (s ++ "]]>".toList) := by
    simp [charData, Text.dropWord?]
  rw [GroupFile.bodyCharacters?, trimmed, opened, Option.bind_some,
    Text.dropLastWord?_eq_some_iff.2 rfl]

theorem bodyCharacters?_escape (entities : Reader.ResolvesEntities) (s : List Char) :
    GroupFile.bodyCharacters? (escape s) = some s := by
  have text : Text.dropWord? "<![CDATA[".toList (Text.trim (escape s)) = none := by
    rw [Option.eq_none_iff_forall_not_mem]
    intro rest opened
    have begins := Text.dropWord?_eq_some_iff.1 opened
    refine Markup.not_mem_escape s (Text.mem_of_mem_trim ?_)
    rw [begins]
    exact List.mem_append_left _ (by decide)
  rw [GroupFile.bodyCharacters?, text, Option.bind_none, entities.escape]

/-- The body is what stands between the tags, unless it ends with half of a line end. -/
theorem templateBody?_content (entities : Reader.ResolvesEntities) (inSection : Bool)
    {t : TemplateDeclaration} (ends : t.body.toList.getLast? ≠ some '\r') :
    GroupFile.templateBody? (t.content inSection).written = some t.body := by
  have characters : GroupFile.bodyCharacters? (t.content inSection).written = some t.lines := by
    unfold content
    split
    · exact bodyCharacters?_charData t.lines
    · exact bodyCharacters?_escape entities t.lines
  have first : GroupFile.dropLineEnd t.lines = t.body.toList ++ ['\n'] := rfl
  have last : GroupFile.dropBlankLastLine (t.body.toList ++ ['\n']) = t.body.toList := by
    have split : Text.splitAtLast? '\n' (t.body.toList ++ ['\n']) = some (t.body.toList, []) := by
      simp [Text.splitAtLast?, Text.splitAtWord?, Text.dropWord?]
    have whole : Text.dropLastWord? ['\r'] t.body.toList = none := by
      rw [Option.eq_none_iff_forall_not_mem]
      intro rest returns
      rw [Option.mem_def, Text.dropLastWord?_eq_some_iff] at returns
      simp [returns] at ends
    rw [GroupFile.dropBlankLastLine, split]
    simp [whole, Text.allBlank]
  rw [GroupFile.templateBody?, characters, Option.map_some, first, last, String.ofList_toList]

end

/-! ## Elements -/

/-- A formal parameter that can stand in a list of them. -/
structure WritableFormal (s : String) : Prop where
  plain : Plain s.toList
  ne_nil : s.toList ≠ []
  comma : ',' ∉ s.toList
  trimmed : Text.trim s.toList = s.toList

/-- A template that can be written. -/
structure Writable (t : TemplateDeclaration) : Prop where
  name : Plain t.name.toList
  formals : ∀ s ∈ t.formals, WritableFormal s
  body : t.body.toList.getLast? ≠ some '\r'

def attributes (t : TemplateDeclaration) : List Attribute :=
  [⟨"name".toList, t.name.toList⟩,
    ⟨"args".toList, [','].intercalate (t.formals.map String.toList)⟩]

def node (inSection : Bool) (t : TemplateDeclaration) : Node :=
  .element "template".toList t.attributes [t.content inSection]

theorem plain_intercalate {parts : List (List Char)} (plain : ∀ part ∈ parts, Plain part) :
    Plain ([','].intercalate parts) := by
  induction parts with
  | nil => nofun
  | cons part rest ih =>
    obtain ⟨first, others⟩ := List.forall_mem_cons.1 plain
    cases rest with
    | nil => simpa using first
    | cons next more =>
      intro c member
      rw [List.intercalate_cons_cons, List.mem_append, List.mem_append] at member
      rcases member with (here | comma) | later
      · exact first c here
      · rw [List.mem_singleton.1 comma]
        decide
      · exact ih others c later

theorem formalsOfText_intercalate {formals : List String}
    (writable : ∀ s ∈ formals, WritableFormal s) :
    GroupFile.formalsOfText ([','].intercalate (formals.map String.toList)) = formals := by
  rcases List.eq_nil_or_concat formals with rfl | ⟨before, last, nonempty⟩
  · rfl
  · have ne_nil : formals.map String.toList ≠ [] := by simp [nonempty]
    have apart : ∀ part ∈ formals.map String.toList, ',' ∉ part := by
      rw [List.forall_mem_map]
      exact fun s member => (writable s member).comma
    have trimmed : (formals.map String.toList).map Text.trim = formals.map String.toList := by
      rw [List.map_map]
      exact List.map_congr_left fun s member => (writable s member).trimmed
    have kept : (formals.map String.toList).filter (fun part => !part.isEmpty) =
        formals.map String.toList := by
      rw [List.filter_eq_self, List.forall_mem_map]
      intro s member
      simpa using (writable s member).ne_nil
    rw [GroupFile.formalsOfText, Text.splitOn_intercalate ne_nil apart, trimmed, kept, List.map_map]
    simp [Function.comp_def]

theorem Writable.attributes {t : TemplateDeclaration} (writable : t.Writable) :
    WritableAttributes t.attributes := by
  have formals : Plain ([','].intercalate (t.formals.map String.toList)) := by
    refine plain_intercalate (List.forall_mem_map.2 fun s member => ?_)
    exact (writable.formals s member).plain
  refine ⟨?_, by simp [TemplateDeclaration.attributes]⟩
  simp only [TemplateDeclaration.attributes, List.forall_mem_cons, List.not_mem_nil,
    false_implies, implies_true, and_true]
  exact ⟨Markup.writable_mk (by decide) writable.name, Markup.writable_mk (by decide) formals⟩

theorem Writable.wellFormed {t : TemplateDeclaration} (writable : t.Writable) (inSection : Bool) :
    (t.node inSection).WellFormed :=
  .element (by decide) writable.attributes (List.forall_mem_singleton.2 (t.wellFormed_content _))

theorem templateHeader_attributes [Reader] (found : Reader.FindsAttributes)
    {t : TemplateDeclaration} (writable : t.Writable) :
    GroupFile.templateHeader (attributesText t.attributes) = .ok (t.name, t.formals) := by
  have read := found writable.attributes
  rw [GroupFile.templateHeader, read, read]
  simp [TemplateDeclaration.attributes, formalsOfText_intercalate writable.formals]

end TemplateDeclaration

namespace GroupFile

/-- How an alias is written. -/
def aliasAttributes (entry : String × String) : List Attribute :=
  [⟨"name".toList, entry.1.toList⟩, ⟨"target".toList, entry.2.toList⟩]

def aliasNode (entry : String × String) : Node := .empty "alias".toList (aliasAttributes entry)

/-- How a file may be laid out. -/
structure Layout where
  /-- What stands between the elements. -/
  gap : List Char
  blank : ∀ c ∈ gap, Markup.isSpace c = true
  /-- Which templates have their bodies in a section of character data. -/
  inSection : Nat → Bool

/-- How delimiters are named. -/
def delimitersName (d : Delimiters) : String := if d = .angle then "angle" else "dollar"

def attributes (file : GroupFile) : List Attribute :=
  [⟨"name".toList, file.name.toList⟩] ++
    (file.extends?.toList.map fun parent => ⟨"extends".toList, parent.toList⟩) ++
    [⟨"delimiters".toList, (delimitersName file.delimiters).toList⟩]

def templateNodes (gap : List Char) (inSection : Nat → Bool) : List TemplateDeclaration → List Node
  | [] => []
  | t :: rest => t.node (inSection 0) :: .text gap :: templateNodes gap (fun n => inSection (n + 1)) rest

def aliasNodes (gap : List Char) : List (String × String) → List Node
  | [] => []
  | entry :: rest => aliasNode entry :: .text gap :: aliasNodes gap rest

/-- What stands inside the element `group`. -/
def content (file : GroupFile) (layout : Layout) : List Node :=
  .text layout.gap :: (templateNodes layout.gap layout.inSection file.templates ++
    aliasNodes layout.gap file.aliases)

def print (file : GroupFile) (layout : Layout) : List Char :=
  (Node.element "group".toList file.attributes (file.content layout)).written

/-- A file that can be written. -/
structure Writable (file : GroupFile) : Prop where
  name : Plain file.name.toList
  parent {parent : String} :
    file.extends? = some parent → Plain parent.toList ∧ Text.allBlank parent.toList = false
  delimiters : file.delimiters = .dollar ∨ file.delimiters = .angle
  templates : ∀ t ∈ file.templates, t.Writable
  aliases : ∀ entry ∈ file.aliases, Plain entry.1.toList ∧ Plain entry.2.toList

section

variable {file : GroupFile} {entry : String × String}

theorem Writable.attributes (writable : file.Writable) : WritableAttributes file.attributes := by
  have delimiters : Plain (delimitersName file.delimiters).toList := by
    rcases writable.delimiters with same | same <;> rw [same] <;> decide
  constructor
  · simp only [GroupFile.attributes, List.forall_mem_append, List.forall_mem_map,
      List.forall_mem_cons, List.not_mem_nil, false_implies, implies_true, and_true,
      Option.mem_toList]
    refine ⟨⟨Markup.writable_mk (by decide) writable.name, fun parent extended => ?_⟩,
      Markup.writable_mk (by decide) delimiters⟩
    exact Markup.writable_mk (by decide) (writable.parent extended).1
  · cases extended : file.extends? <;> simp [GroupFile.attributes, extended]

theorem writable_aliasAttributes (name : Plain entry.1.toList) (target : Plain entry.2.toList) :
    WritableAttributes (aliasAttributes entry) := by
  refine ⟨?_, by simp [aliasAttributes]⟩
  simp only [aliasAttributes, List.forall_mem_cons, List.not_mem_nil, false_implies, implies_true,
    and_true]
  exact ⟨Markup.writable_mk (by decide) name, Markup.writable_mk (by decide) target⟩

theorem wellFormed_templateNodes {templates : List TemplateDeclaration}
    (writable : ∀ t ∈ templates, t.Writable) (gap : List Char) (inSection : Nat → Bool) :
    ∀ node ∈ templateNodes gap inSection templates, node.WellFormed := by
  induction templates generalizing inSection with
  | nil => exact List.forall_mem_nil _
  | cons t templates ih =>
    obtain ⟨first, others⟩ := List.forall_mem_cons.1 writable
    exact List.forall_mem_cons.2 ⟨first.wellFormed _, List.forall_mem_cons.2 ⟨.text gap, ih others _⟩⟩

theorem wellFormed_aliasNodes {aliases : List (String × String)}
    (plain : ∀ entry ∈ aliases, Plain entry.1.toList ∧ Plain entry.2.toList) (gap : List Char) :
    ∀ node ∈ aliasNodes gap aliases, node.WellFormed := by
  induction aliases with
  | nil => exact List.forall_mem_nil _
  | cons entry aliases ih =>
    obtain ⟨⟨name, target⟩, others⟩ := List.forall_mem_cons.1 plain
    have first : (aliasNode entry).WellFormed :=
      .empty (by decide) (writable_aliasAttributes name target)
    exact List.forall_mem_cons.2 ⟨first, List.forall_mem_cons.2 ⟨.text gap, ih others⟩⟩

theorem Writable.wellFormed (writable : file.Writable) (layout : Layout) :
    (Node.element "group".toList file.attributes (file.content layout)).WellFormed := by
  refine .element (by decide) writable.attributes (List.forall_mem_cons.2 ⟨.text _, ?_⟩)
  exact List.forall_mem_append.2 ⟨wellFormed_templateNodes writable.templates _ _,
    wellFormed_aliasNodes writable.aliases _⟩

end

/-! ## Reading -/

section

variable [Reader] {file : GroupFile} {entry : String × String} {before rest text : List Char}

theorem foldlM_step {p p' : Progress} {e : Markup.Event}
    (taken : Progress.step text p e = .ok p') (events : List Markup.Event) :
    (e :: events).foldlM (Progress.step text) p = events.foldlM (Progress.step text) p' := by
  rw [List.foldlM_cons, taken]
  rfl

theorem foldlM_append {p p' : Progress} {es : List Markup.Event}
    (taken : es.foldlM (Progress.step text) p = .ok p') (events : List Markup.Event) :
    (es ++ events).foldlM (Progress.step text) p = events.foldlM (Progress.step text) p' := by
  rw [List.foldlM_append, taken]
  rfl

theorem ofAttributes_attributes (found : Reader.FindsAttributes) (writable : file.Writable) :
    ofAttributes (attributesText file.attributes) =
      .ok ⟨file.name, file.extends?, file.delimiters, [], []⟩ := by
  have read := found writable.attributes
  have word : Delimiters.ofName? (delimitersName file.delimiters) = some file.delimiters := by
    rcases writable.delimiters with same | same <;> rw [same] <;> decide
  -- No two of the names are the same, so each of the attributes is found by its own.
  have name : file.attributes.find? (fun a => a.name = "name".toList) =
      some ⟨"name".toList, file.name.toList⟩ := rfl
  have parent : file.attributes.find? (fun a => a.name = "extends".toList) =
      file.extends?.map fun parent => ⟨"extends".toList, parent.toList⟩ := by
    unfold GroupFile.attributes
    cases file.extends? <;> rfl
  have delimiters : file.attributes.find? (fun a => a.name = "delimiters".toList) =
      some ⟨"delimiters".toList, (delimitersName file.delimiters).toList⟩ := by
    unfold GroupFile.attributes
    cases file.extends? <;> rfl
  have kept : file.extends?.filter (fun s => !Text.allBlank s.toList) = file.extends? := by
    cases extended : file.extends? with
    | none => rfl
    | some parent =>
      rw [Option.filter, (writable.parent extended).2]
      rfl
  rw [ofAttributes, read, read, read, name, parent, delimiters]
  simp only [Option.map_some, Option.map_map, Function.comp_def, String.ofList_toList,
    Option.map_id_fun', id, kept, word]

theorem aliasOfAttributes_attributes (found : Reader.FindsAttributes)
    (name : Plain entry.1.toList) (target : Plain entry.2.toList) :
    aliasOfAttributes (attributesText (aliasAttributes entry)) = .ok entry := by
  have read := found (writable_aliasAttributes name target)
  rw [aliasOfAttributes, read, read]
  simp [aliasAttributes]

/-- A template adds itself to the file: its body is what stands between the offsets of its tags. -/
theorem foldlM_template (found : Reader.FindsAttributes) (entities : Reader.ResolvesEntities)
    {t : TemplateDeclaration} (writable : t.Writable) (inSection : Bool)
    (whole : text = before ++ ((t.node inSection).written ++ rest)) :
    ((t.node inSection).events (byteLength before)).foldlM (Progress.step text)
        ⟨some file, none⟩ =
      .ok ⟨some { file with templates := file.templates ++ [t] }, none⟩ := by
  have element : Element.ofName? "template".toList = some .template := by decide
  let opened := before ++ startTag "template".toList t.attributes
  have start : byteLength before + byteLength (startTag "template".toList t.attributes) =
      byteLength opened := (Text.byteLength_append _ _).symm
  have parts : text = opened ++ ((t.content inSection).written ++
      (endTag "template".toList ++ rest)) := by
    simp [whole, TemplateDeclaration.node, Node.written, Node.allWritten, opened]
  have length : byteLength (endTag "template".toList) = Progress.endTagLength := by decide
  have stop : byteLength opened + byteLength (t.content inSection).written +
      byteLength (endTag "template".toList) - Progress.endTagLength =
      byteLength opened + byteLength (t.content inSection).written := by
    rw [length, Nat.add_sub_cancel]
  have long : ¬ byteLength opened + byteLength (t.content inSection).written +
      byteLength (endTag "template".toList) < Progress.endTagLength := by
    omega
  have begins : Progress.step text ⟨some file, none⟩
      (.opened "template".toList (attributesText t.attributes) (byteLength opened)) =
      .ok ⟨some file, some ⟨t.name, t.formals, byteLength opened, 0⟩⟩ := by
    simp only [Progress.step, Progress.onOpened, element,
      TemplateDeclaration.templateHeader_attributes found writable]
    rfl
  have ends : Progress.step text ⟨some file, some ⟨t.name, t.formals, byteLength opened, 0⟩⟩
      (.closed "template".toList (byteLength opened + byteLength (t.content inSection).written +
        byteLength (endTag "template".toList))) =
      .ok ⟨some { file with templates := file.templates ++ [t] }, none⟩ := by
    have cut : Text.cutBytes? (byteLength opened)
        (byteLength opened + byteLength (t.content inSection).written) text =
        some (t.content inSection).written := by
      rw [parts, Text.cutBytes?_append]
    have body : Progress.bodyText text ⟨t.name, t.formals, byteLength opened, 0⟩
        (byteLength opened + byteLength (t.content inSection).written +
          byteLength (endTag "template".toList)) = .ok t.body := by
      rw [Progress.bodyText, if_neg long, stop, cut]
      simp only [TemplateDeclaration.templateBody?_content entities inSection writable.body,
        Option.elim_some]
    simp only [Progress.step, Progress.insideTemplate, element, if_true, Progress.onTemplateEnd,
      body]
    rfl
  have events : (t.node inSection).events (byteLength before) =
      [.opened "template".toList (attributesText t.attributes) (byteLength opened),
        .closed "template".toList (byteLength opened + byteLength (t.content inSection).written +
          byteLength (endTag "template".toList))] := by
    simp only [TemplateDeclaration.node, Node.events, Node.allEvents, Node.allWritten, start,
      TemplateDeclaration.events_content, List.append_nil, List.nil_append]
  rw [events, foldlM_step begins, foldlM_step ends]
  rfl

theorem foldlM_alias (found : Reader.FindsAttributes) (name : Plain entry.1.toList)
    (target : Plain entry.2.toList) (text : List Char) (start : Nat) :
    ((aliasNode entry).events start).foldlM (Progress.step text) ⟨some file, none⟩ =
      .ok ⟨some { file with aliases := file.aliases ++ [entry] }, none⟩ := by
  have element : Element.ofName? "alias".toList = some .aliasEntry := by decide
  have entered : Progress.step text ⟨some file, none⟩
      (.empty "alias".toList (attributesText (aliasAttributes entry))) =
      .ok ⟨some { file with aliases := file.aliases ++ [entry] }, none⟩ := by
    simp only [Progress.step, Progress.onEmpty, element,
      aliasOfAttributes_attributes found name target]
    rfl
  rw [aliasNode, Node.events, foldlM_step entered]
  rfl

theorem foldlM_templateNodes (found : Reader.FindsAttributes) (entities : Reader.ResolvesEntities)
    {templates : List TemplateDeclaration} (writable : ∀ t ∈ templates, t.Writable)
    (gap : List Char) (inSection : Nat → Bool)
    (whole : text = before ++ (Node.allWritten (templateNodes gap inSection templates) ++ rest)) :
    (Node.allEvents (byteLength before) (templateNodes gap inSection templates)).foldlM
        (Progress.step text) ⟨some file, none⟩ =
      .ok ⟨some { file with templates := file.templates ++ templates }, none⟩ := by
  induction templates generalizing inSection file before with
  | nil =>
    rw [List.append_nil]
    rfl
  | cons t templates ih =>
    obtain ⟨first, others⟩ := List.forall_mem_cons.1 writable
    have later : text = (before ++ ((t.node (inSection 0)).written ++ escape gap)) ++
        (Node.allWritten (templateNodes gap (fun n => inSection (n + 1)) templates) ++ rest) := by
      simp [whole, templateNodes, Node.allWritten, Node.written]
    have place : byteLength before + byteLength (t.node (inSection 0)).written +
        byteLength (escape gap) =
        byteLength (before ++ ((t.node (inSection 0)).written ++ escape gap)) := by
      rw [Text.byteLength_append, Text.byteLength_append, Nat.add_assoc]
    have here : text = before ++ ((t.node (inSection 0)).written ++ (escape gap ++
        (Node.allWritten (templateNodes gap (fun n => inSection (n + 1)) templates) ++ rest))) := by
      simp [later]
    rw [templateNodes, Node.allEvents, foldlM_append (foldlM_template found entities first _ here),
      Node.allEvents, Node.events, List.nil_append, Node.written, place, ih others _ later,
      List.append_assoc, List.singleton_append]

theorem foldlM_aliasNodes (found : Reader.FindsAttributes) {aliases : List (String × String)}
    (plain : ∀ entry ∈ aliases, Plain entry.1.toList ∧ Plain entry.2.toList) (gap : List Char)
    (text : List Char) (start : Nat) :
    (Node.allEvents start (aliasNodes gap aliases)).foldlM (Progress.step text)
        ⟨some file, none⟩ =
      .ok ⟨some { file with aliases := file.aliases ++ aliases }, none⟩ := by
  induction aliases generalizing file start with
  | nil =>
    rw [List.append_nil]
    rfl
  | cons entry aliases ih =>
    obtain ⟨⟨name, target⟩, others⟩ := List.forall_mem_cons.1 plain
    rw [aliasNodes, Node.allEvents, foldlM_append (foldlM_alias found name target text _),
      Node.allEvents, Node.events, List.nil_append, ih others, List.append_assoc,
      List.singleton_append]

/-- The start tag of the group begins the file, its templates and aliases enter it one after another,
and the end tag leaves it as it is. -/
theorem foldlM_group (found : Reader.FindsAttributes) (entities : Reader.ResolvesEntities)
    (writable : file.Writable) (layout : Layout) :
    ((Node.element "group".toList file.attributes (file.content layout)).events 0).foldlM
      (Progress.step (file.print layout)) .start = .ok ⟨some file, none⟩ := by
  generalize printed : file.print layout = text
  obtain ⟨gap, blank, inSection⟩ := layout
  have element : Element.ofName? "group".toList = some .group := by decide
  have begins (stop : Nat) : Progress.step text .start
      (.opened "group".toList (attributesText file.attributes) stop) =
      .ok ⟨some ⟨file.name, file.extends?, file.delimiters, [], []⟩, none⟩ := by
    simp only [Progress.step, Progress.start, Progress.onOpened, element,
      ofAttributes_attributes found writable]
    rfl
  let tag := startTag "group".toList file.attributes
  have whole : text = (tag ++ escape gap) ++
      (Node.allWritten (templateNodes gap inSection file.templates) ++
        (Node.allWritten (aliasNodes gap file.aliases) ++ endTag "group".toList)) := by
    rw [← printed]
    simp [print, content, Node.written, Node.allWritten, tag]
  rw [Node.events, foldlM_step (begins _), content, Node.allEvents, Node.events, List.nil_append,
    Node.written, Nat.zero_add, ← Text.byteLength_append, Node.allEvents_append, List.append_assoc,
    foldlM_append (foldlM_templateNodes found entities writable.templates gap inSection whole),
    foldlM_append (foldlM_aliasNodes found writable.aliases gap text _)]
  rfl

/-- What was written is read back, by every reader that finds the tags of an element with the offsets
behind them, its attributes, and the five entities in a text. -/
theorem parse_print (elements : Reader.ReadsElements) (found : Reader.FindsAttributes)
    (entities : Reader.ResolvesEntities) (writable : file.Writable) (layout : Layout) :
    parse (file.print layout) = .ok file := by
  have read := foldlM_group found entities writable layout
  rw [← elements (writable.wellFormed layout)] at read
  exact congrArg (Except.bind · Progress.finish) read

end

/-- A body that would close its element, and one that would close a section. -/
def pageFile : GroupFile where
  name := "page"
  extends? := some "base"
  delimiters := .angle
  templates := [⟨"row", ["name", "phone"], "<tr></template>\n\n "⟩, ⟨"end", [], " ]]> & \"a\"\r\n"⟩]
  aliases := [("line", "row")]

/-- Every element on a line of its own, and every body in a section if it can be. -/
def Layout.inLines : Layout := ⟨['\n', ' ', ' '], List.all_eq_true.1 rfl, fun _ => true⟩

theorem parse_print_pageFile : parse (pageFile.print .inLines) = .ok pageFile := by
  have row : TemplateDeclaration.Writable ⟨"row", ["name", "phone"], "<tr></template>\n\n "⟩ := by
    refine ⟨by decide, fun s member => ?_, by decide⟩
    simp only [List.mem_cons, List.not_mem_nil, or_false] at member
    rcases member with rfl | rfl
    · exact ⟨by decide, by decide, by decide, by decide⟩
    · exact ⟨by decide, by decide, by decide, by decide⟩
  have ending : TemplateDeclaration.Writable ⟨"end", [], " ]]> & \"a\"\r\n"⟩ :=
    ⟨by decide, nofun, by decide⟩
  refine parse_print Markup.standard_readsElements Markup.standard_findsAttributes
    Markup.standard_resolvesEntities ⟨by decide, ?_, Or.inr rfl, ?_, by decide⟩ .inLines
  · rintro parent ⟨⟩
    exact ⟨by decide, by decide⟩
  · exact List.forall_mem_cons.2 ⟨row, List.forall_mem_cons.2 ⟨ending, nofun⟩⟩

end GroupFile
end Stencil
