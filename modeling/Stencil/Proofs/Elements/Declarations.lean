import Mathlib
import Stencil.Markup.Standard
import Stencil.Proofs.Elements.Bodies
/-!
# What a group file declares

The elements of a document are listed in their order: a template is one of them with all that
stands between its tags, so whatever its body may hold declares nothing. Each template and each
alias that is listed behind the last group is in the file, in its place and once. The start tag of
a group begins the file anew, whatever was declared before it.
-/
namespace Stencil

open Markup (Event Reader)
open Text (betweenBytes)

namespace GroupFile

section

variable [Reader]

/-- An element of a document, outside the bodies of its templates. -/
inductive Entry where
  | group (attributes : List Char)
  /-- A template with both of its tags, and the offsets behind them. -/
  | template (attributes : List Char) (start stop : Nat)
  | emptyTemplate (attributes : List Char)
  | aliasEntry (attributes : List Char)
  deriving DecidableEq, Repr

namespace Entry

def isGroup : Entry → Bool
  | group .. => true
  | _ => false

def isTemplate : Entry → Bool
  | template .. | emptyTemplate .. => true
  | _ => false

def isAlias : Entry → Bool
  | aliasEntry .. => true
  | _ => false

/-- The element that a tag is on its own. The tags of an alias need not be empty, those of a group
must not be. -/
def ofTag? : Event → Option Entry
  | .opened name attributes _ =>
    match Element.ofName? name with
    | some .group => some (.group attributes)
    | some .aliasEntry => some (.aliasEntry attributes)
    | _ => none
  | .empty name attributes =>
    match Element.ofName? name with
    | some .template => some (.emptyTemplate attributes)
    | some .aliasEntry => some (.aliasEntry attributes)
    | _ => none
  | .closed .. | .broken => none

/-- The template that an element declares. What stands between the tags is cut out as if the end tag
had no blanks in it. -/
def DeclaresTemplate (text : List Char) : Entry → TemplateDeclaration → Prop
  | template attributes start stop, t =>
    templateHeader attributes = .ok (t.name, t.formals) ∧
      templateBody? (betweenBytes start (stop - Progress.endTagLength) text) = some t.body
  | emptyTemplate attributes, t =>
    templateHeader attributes = .ok (t.name, t.formals) ∧ t.body = ""
  | _, _ => False

def DeclaresAlias : Entry → String × String → Prop
  | aliasEntry attributes, entry => aliasOfAttributes attributes = .ok entry
  | _, _ => False

end Entry

/-- The templates and aliases of a file are those that the elements declare, one for each and in
their order. -/
structure Holds (text : List Char) (entries : List Entry) (file : GroupFile) : Prop where
  templates :
    List.Forall₂ (Entry.DeclaresTemplate text) (entries.filter Entry.isTemplate) file.templates
  aliases : List.Forall₂ Entry.DeclaresAlias (entries.filter Entry.isAlias) file.aliases

end

/-! ## The elements of a document -/

def OpensBody : Event → Prop
  | .opened name _ _ => Element.ofName? name = some .template
  | _ => False

def ClosesBody : Event → Prop
  | .closed name _ => Element.ofName? name = some .template
  | _ => False

/-- Events inside a body that close `depth` elements `template` more than they open, and at no place
a further one. -/
inductive Encloses : Nat → List Event → Prop
  | nil : Encloses 0 []
  | opened {depth : Nat} {e : Event} {es : List Event} (opens : OpensBody e)
      (inner : Encloses (depth + 1) es) : Encloses depth (e :: es)
  | closed {depth : Nat} {e : Event} {es : List Event} (closes : ClosesBody e)
      (inner : Encloses depth es) : Encloses (depth + 1) (e :: es)
  | other {depth : Nat} {e : Event} {es : List Event} (opens : ¬OpensBody e)
      (closes : ¬ClosesBody e) (inner : Encloses depth es) : Encloses depth (e :: es)

/-- The elements of a document with the events `es`. -/
inductive Document : List Event → List Entry → Prop
  | nil : Document [] []
  | element {e : Event} {entry : Entry} {es : List Event} {entries : List Entry}
      (stands : Entry.ofTag? e = some entry) (later : Document es entries) :
      Document (e :: es) (entry :: entries)
  | template {name attributes name' : List Char} {start stop : Nat} {body es : List Event}
      {entries : List Entry} (opens : OpensBody (.opened name attributes start))
      (inside : Encloses 0 body) (closes : ClosesBody (.closed name' stop))
      (later : Document es entries) :
      Document (.opened name attributes start :: (body ++ .closed name' stop :: es))
        (.template attributes start stop :: entries)
  | passedOver {e : Event} {es : List Event} {entries : List Entry}
      (stands : Entry.ofTag? e = none) (opens : ¬OpensBody e) (later : Document es entries) :
      Document (e :: es) entries

variable {text : List Char} {e : Event} {es es' body body' : List Event} {entry : Entry}
  {entries entries' : List Entry} {name attributes : List Char} {depth : Nat}

theorem OpensBody.not_closesBody (opens : OpensBody e) : ¬ClosesBody e := by
  cases e with
  | opened => exact id
  | _ => cases opens

theorem OpensBody.ofTag? (opens : OpensBody e) : Entry.ofTag? e = none := by
  cases e with
  | opened name attributes stop =>
    have named : Element.ofName? name = some .template := opens
    simp [Entry.ofTag?, named]
  | _ => cases opens

/-- A body ends at one place only. -/
theorem Encloses.unique {name' : List Char} {stop stop' : Nat} (inside : Encloses depth body)
    (inside' : Encloses depth body') (closes : ClosesBody (.closed name stop))
    (closes' : ClosesBody (.closed name' stop'))
    (same : body ++ .closed name stop :: es = body' ++ .closed name' stop' :: es') :
    stop = stop' ∧ es = es' := by
  induction inside generalizing body' with
  | nil =>
    cases inside' with
    | nil =>
      obtain ⟨closed, later⟩ := List.cons.inj same
      cases closed
      exact ⟨rfl, later⟩
    | opened opens =>
      obtain ⟨rfl, -⟩ := List.cons.inj same
      cases opens
    | other _ closes'' =>
      obtain ⟨rfl, -⟩ := List.cons.inj same
      exact absurd closes closes''
  | opened opens _ ih =>
    cases inside' with
    | nil =>
      obtain ⟨rfl, -⟩ := List.cons.inj same
      cases opens
    | opened _ inner' => exact ih inner' (List.cons.inj same).2
    | closed closes'' =>
      obtain ⟨rfl, -⟩ := List.cons.inj same
      exact absurd closes'' opens.not_closesBody
    | other opens' =>
      obtain ⟨rfl, -⟩ := List.cons.inj same
      exact absurd opens opens'
  | closed here _ ih =>
    cases inside' with
    | opened opens =>
      obtain ⟨rfl, -⟩ := List.cons.inj same
      exact absurd here opens.not_closesBody
    | closed _ inner' => exact ih inner' (List.cons.inj same).2
    | other _ closes'' =>
      obtain ⟨rfl, -⟩ := List.cons.inj same
      exact absurd here closes''
  | other noOpening noClosing _ ih =>
    cases inside' with
    | nil =>
      obtain ⟨rfl, -⟩ := List.cons.inj same
      exact absurd closes' noClosing
    | opened opens =>
      obtain ⟨rfl, -⟩ := List.cons.inj same
      exact absurd opens noOpening
    | closed here =>
      obtain ⟨rfl, -⟩ := List.cons.inj same
      exact absurd here noClosing
    | other _ _ inner' => exact ih inner' (List.cons.inj same).2

/-- A document has its elements and no others. -/
theorem Document.unique (document : Document es entries) (document' : Document es entries') :
    entries' = entries := by
  induction document generalizing entries' with
  | nil =>
    cases document'
    rfl
  | element stands _ ih =>
    cases document' with
    | element stands' later =>
      rw [ih later, Option.some.inj (stands'.symm.trans stands)]
    | template opens => rw [opens.ofTag?] at stands; cases stands
    | passedOver stands' => rw [stands'] at stands; cases stands
  | template opens inside closes later ih =>
    generalize whole : _ ++ _ :: _ = rest at document'
    cases document' with
    | element stands => rw [opens.ofTag?] at stands; cases stands
    | template _ inside' closes' later' =>
      obtain ⟨rfl, rfl⟩ := inside.unique inside' closes closes' whole
      rw [ih later']
    | passedOver _ opens' => exact absurd opens opens'
  | passedOver stands noOpening _ ih =>
    cases document' with
    | element stands' => rw [stands] at stands'; cases stands'
    | template opens => exact absurd opens noOpening
    | passedOver _ _ later => exact ih later

/-! ## What the elements make of a file -/

section

variable [Reader]

/-- What one element makes of the file read so far. -/
inductive Enters (text : List Char) : Option GroupFile → Entry → GroupFile → Prop
  | group {file? : Option GroupFile} {attributes : List Char} {file : GroupFile}
      (begins : ofAttributes attributes = .ok file) : Enters text file? (.group attributes) file
  | template {file : GroupFile} {entry : Entry} {t : TemplateDeclaration}
      (declares : entry.DeclaresTemplate text t) :
      Enters text (some file) entry { file with templates := file.templates ++ [t] }
  | aliasEntry {file : GroupFile} {entry : Entry} {a : String × String}
      (declares : entry.DeclaresAlias a) :
      Enters text (some file) entry { file with aliases := file.aliases ++ [a] }

/-- What a list of elements makes of the file read so far. -/
inductive Builds (text : List Char) : Option GroupFile → List Entry → Option GroupFile → Prop
  | nil {file? : Option GroupFile} : Builds text file? [] file?
  | cons {file? last? : Option GroupFile} {file : GroupFile} {entry : Entry} {entries : List Entry}
      (enters : Enters text file? entry file) (later : Builds text (some file) entries last?) :
      Builds text file? (entry :: entries) last?

variable {p q : Progress} {file last : GroupFile} {file? : Option GroupFile}

theorem Progress.enters_onOpened {stop : Nat}
    (stands : Entry.ofTag? (.opened name attributes stop) = some entry)
    (taken : p.onOpened name attributes stop = .ok q) :
    q.open? = none ∧ ∃ file, q.file? = some file ∧ Enters text p.file? entry file := by
  simp only [Entry.ofTag?] at stands
  split at stands
  case h_1 named =>
    cases stands
    simp only [Progress.onOpened, named] at taken
    obtain ⟨file, begins, rfl⟩ := Progress.exists_of_map_eq_ok taken
    exact ⟨rfl, file, rfl, .group begins⟩
  case h_2 named =>
    cases stands
    simp only [Progress.onOpened, named] at taken
    cases group : p.file? with
    | none =>
      rw [group] at taken
      cases taken
    | some file =>
      rw [group] at taken
      obtain ⟨a, declares, rfl⟩ := Progress.exists_of_map_eq_ok taken
      exact ⟨rfl, _, rfl, .aliasEntry declares⟩
  case h_3 => cases stands

theorem Progress.enters_onEmpty
    (stands : Entry.ofTag? (.empty name attributes) = some entry)
    (taken : p.onEmpty name attributes = .ok q) :
    q.open? = none ∧ ∃ file, q.file? = some file ∧ Enters text p.file? entry file := by
  simp only [Entry.ofTag?] at stands
  split at stands
  case h_1 named =>
    cases stands
    simp only [Progress.onEmpty, named] at taken
    cases group : p.file? with
    | none =>
      rw [group] at taken
      cases taken
    | some file =>
      rw [group] at taken
      obtain ⟨⟨name, formals⟩, header, rfl⟩ := Progress.exists_of_map_eq_ok taken
      exact ⟨rfl, _, rfl, .template ⟨header, rfl⟩⟩
  case h_2 named =>
    cases stands
    simp only [Progress.onEmpty, named] at taken
    cases group : p.file? with
    | none =>
      rw [group] at taken
      cases taken
    | some file =>
      rw [group] at taken
      obtain ⟨a, declares, rfl⟩ := Progress.exists_of_map_eq_ok taken
      exact ⟨rfl, _, rfl, .aliasEntry declares⟩
  case h_3 => cases stands

/-- A tag that is an element on its own enters the file, or is refused. -/
theorem Progress.enters_of_ofTag? (outside : p.open? = none) (stands : Entry.ofTag? e = some entry)
    (taken : p.step text e = .ok q) :
    q.open? = none ∧ ∃ file, q.file? = some file ∧ Enters text p.file? entry file := by
  simp only [Progress.step, outside] at taken
  cases e with
  | opened => exact Progress.enters_onOpened stands taken
  | empty => exact Progress.enters_onEmpty stands taken
  | _ => cases stands

/-- A tag that is no element changes nothing outside the bodies. -/
theorem Progress.unchanged_of_ofTag? (outside : p.open? = none) (stands : Entry.ofTag? e = none)
    (noOpening : ¬OpensBody e) (taken : p.step text e = .ok q) : q = p := by
  simp only [Progress.step, outside] at taken
  cases e with
  | opened name attributes stop =>
    cases named : Element.ofName? name with
    | none =>
      simp only [Progress.onOpened, named] at taken
      cases taken
      rfl
    | some element =>
      cases element with
      | template => exact absurd named noOpening
      | group => simp [Entry.ofTag?, named] at stands
      | aliasEntry => simp [Entry.ofTag?, named] at stands
  | empty name attributes =>
    cases named : Element.ofName? name with
    | none =>
      simp only [Progress.onEmpty, named] at taken
      cases taken
      rfl
    | some element =>
      cases element with
      | group =>
        simp only [Progress.onEmpty, named] at taken
        cases taken
        rfl
      | template => simp [Entry.ofTag?, named] at stands
      | aliasEntry => simp [Entry.ofTag?, named] at stands
  | closed =>
    cases taken
    rfl
  | broken => cases taken

/-- The start tag of a template opens it, inside a group. -/
theorem Progress.opened_of_opensBody {start : Nat} (outside : p.open? = none)
    (opens : OpensBody (.opened name attributes start))
    (taken : p.step text (.opened name attributes start) = .ok q) :
    ∃ file t, p.file? = some file ∧ templateHeader attributes = .ok (t.name, t.formals) ∧
      t.start = start ∧ t.depth = 0 ∧ q = ⟨some file, some t⟩ := by
  have named : Element.ofName? name = some .template := opens
  simp only [Progress.step, outside, Progress.onOpened, named] at taken
  cases group : p.file? with
  | none =>
    rw [group] at taken
    cases taken
  | some file =>
    rw [group] at taken
    obtain ⟨⟨name, formals⟩, header, rfl⟩ := Progress.exists_of_map_eq_ok taken
    exact ⟨file, ⟨name, formals, start, 0⟩, rfl, header, rfl, rfl, rfl⟩

theorem Progress.closed_of_onTemplateEnd {t : OpenTemplate} {stop : Nat}
    (ended : Progress.onTemplateEnd text ⟨some file, some t⟩ t stop = .ok p) :
    ∃ content,
      templateBody? (betweenBytes t.start (stop - Progress.endTagLength) text) = some content ∧
      p = .withTemplate file ⟨t.name, t.formals, content⟩ := by
  obtain ⟨content, found, rfl⟩ := Progress.exists_of_map_eq_ok ended
  exact ⟨content, Progress.templateBody?_of_bodyText found, rfl⟩

/-- An event inside a body either leaves it open, as deep as the event says, or closes it. -/
theorem Progress.inside_or_closing {t : OpenTemplate}
    (taken : Progress.step text ⟨some file, some t⟩ e = .ok p) :
    (∃ depth, p = ⟨some file, some { t with depth }⟩ ∧
      ∀ {es}, Encloses depth es → Encloses t.depth (e :: es)) ∨
    ∃ name stop, e = .closed name stop ∧ ClosesBody e ∧ t.depth = 0 ∧
      Progress.onTemplateEnd text ⟨some file, some t⟩ t stop = .ok p := by
  simp only [Progress.step] at taken
  cases e with
  | opened name attributes stop =>
    left
    by_cases named : Element.ofName? name = some .template
    · simp only [Progress.insideTemplate, if_pos named] at taken
      cases taken
      exact ⟨t.depth + 1, rfl, .opened named⟩
    · simp only [Progress.insideTemplate, if_neg named] at taken
      cases taken
      exact ⟨t.depth, rfl, .other named id⟩
  | closed name stop =>
    by_cases named : Element.ofName? name = some .template
    · simp only [Progress.insideTemplate, if_pos named] at taken
      cases level : t.depth with
      | zero =>
        rw [level] at taken
        exact .inr ⟨name, stop, rfl, named, rfl, taken⟩
      | succ depth =>
        rw [level] at taken
        cases taken
        exact .inl ⟨depth, rfl, .closed named⟩
    · simp only [Progress.insideTemplate, if_neg named] at taken
      cases taken
      exact .inl ⟨t.depth, rfl, .other id named⟩
  | empty name attributes =>
    cases taken
    exact .inl ⟨t.depth, rfl, .other id id⟩
  | broken => cases taken

/-- A body that is left has an end tag; what stands before the tag is no more than text. -/
theorem Progress.exists_closing {t : OpenTemplate}
    (taken : es.foldlM (Progress.step text) ⟨some file, some t⟩ = .ok q) (left : q.open? = none) :
    ∃ body name stop later content, es = body ++ .closed name stop :: later ∧
      Encloses t.depth body ∧ ClosesBody (.closed name stop) ∧
      templateBody? (betweenBytes t.start (stop - Progress.endTagLength) text) = some content ∧
      later.foldlM (Progress.step text) (.withTemplate file ⟨t.name, t.formals, content⟩) =
        .ok q := by
  induction es generalizing t with
  | nil =>
    cases taken
    cases left
  | cons e es ih =>
    cases one : Progress.step text ⟨some file, some t⟩ e with
    | error =>
      rw [foldlM_step_error one] at taken
      cases taken
    | ok p =>
      rw [foldlM_step one] at taken
      rcases Progress.inside_or_closing one with ⟨depth, rfl, enclosed⟩ |
        ⟨name, stop, rfl, closes, outermost, ended⟩
      · obtain ⟨body, name, stop, later, content, rfl, inside, rest⟩ := ih taken
        exact ⟨e :: body, name, stop, later, content, rfl, enclosed inside, rest⟩
      · obtain ⟨content, found, rfl⟩ := Progress.closed_of_onTemplateEnd ended
        refine ⟨[], name, stop, es, content, rfl, ?_, closes, found, taken⟩
        rw [outermost]
        exact .nil

/-- The elements of an accepted document build its file. -/
theorem Progress.exists_document (outside : p.open? = none)
    (taken : es.foldlM (Progress.step text) p = .ok q) (left : q.open? = none) :
    ∃ entries, Document es entries ∧ Builds text p.file? entries q.file? := by
  -- A template is passed with its whole body: the events that follow are no tail of `es`.
  induction size : es.length using Nat.strong_induction_on generalizing es p with
  | _ n ih =>
  cases es with
  | nil =>
    cases taken
    exact ⟨[], .nil, .nil⟩
  | cons e es =>
    cases one : p.step text e with
    | error =>
      rw [foldlM_step_error one] at taken
      cases taken
    | ok p' =>
      rw [foldlM_step one] at taken
      have shorter : es.length < n := by
        rw [← size]
        exact Nat.lt_succ_self _
      cases stands : Entry.ofTag? e with
      | some entry =>
        obtain ⟨outside', file, group, enters⟩ := Progress.enters_of_ofTag? outside stands one
        obtain ⟨entries, document, builds⟩ := ih _ shorter outside' taken rfl
        rw [group] at builds
        exact ⟨entry :: entries, .element stands document, .cons enters builds⟩
      | none =>
        by_cases opens : OpensBody e
        · cases e with
          | opened name attributes start =>
            obtain ⟨file, t, group, header, rfl, outermost, rfl⟩ :=
              Progress.opened_of_opensBody outside opens one
            obtain ⟨body, name', stop, later, content, rfl, inside, closes, found, taken⟩ :=
              Progress.exists_closing taken left
            have shorter : later.length < n := by
              simp only [List.length_append, List.length_cons] at shorter
              omega
            obtain ⟨entries, document, builds⟩ := ih _ shorter rfl taken rfl
            rw [outermost] at inside
            refine ⟨_, .template opens inside closes document, ?_⟩
            rw [group]
            exact .cons (.template ⟨header, found⟩) builds
          | _ => cases opens
        · obtain rfl := Progress.unchanged_of_ofTag? outside stands opens one
          obtain ⟨entries, document, builds⟩ := ih _ shorter outside taken rfl
          exact ⟨entries, .passedOver stands opens document, builds⟩

/-! ## Nothing is lost behind the last group -/

theorem ofAttributes_bare (begins : ofAttributes attributes = .ok file) :
    file.templates = [] ∧ file.aliases = [] := by
  unfold ofAttributes at begins
  split at begins
  case h_1 => cases begins
  case h_2 =>
    dsimp only at begins
    split at begins
    case h_1 =>
      cases begins
      exact ⟨rfl, rfl⟩
    case h_2 =>
      split at begins
      all_goals cases begins
      exact ⟨rfl, rfl⟩

/-- A file that has what the elements declare, and of the rest what `file` has. -/
def Extends (text : List Char) (file : GroupFile) (entries : List Entry) (last : GroupFile) :
    Prop :=
  ∃ templates aliases,
    last = { file with
      templates := file.templates ++ templates, aliases := file.aliases ++ aliases } ∧
    List.Forall₂ (Entry.DeclaresTemplate text) (entries.filter Entry.isTemplate) templates ∧
    List.Forall₂ Entry.DeclaresAlias (entries.filter Entry.isAlias) aliases

theorem Enters.group_or_extends (enters : Enters text file? entry file)
    (extended : Extends text file entries last) :
    (∃ attributes, entry = .group attributes ∧ ofAttributes attributes = .ok file) ∨
    ∃ first, file? = some first ∧ entry.isGroup = false ∧
      Extends text first (entry :: entries) last := by
  obtain ⟨templates, aliases, rfl, inTemplates, inAliases⟩ := extended
  cases enters with
  | group begins => exact .inl ⟨_, rfl, begins⟩
  | @template first _ t declares =>
    refine .inr ⟨first, rfl, ?_⟩
    cases entry with
    | template | emptyTemplate =>
      exact ⟨rfl, t :: templates, aliases, by simp, .cons declares inTemplates, inAliases⟩
    | _ => cases declares
  | @aliasEntry first _ a declares =>
    refine .inr ⟨first, rfl, ?_⟩
    cases entry with
    | aliasEntry =>
      exact ⟨rfl, templates, a :: aliases, by simp, inTemplates, .cons declares inAliases⟩
    | _ => cases declares

/-- Either the elements have no group among them and extend the file that was there, or the file is
made of those behind the last one. -/
theorem Builds.extends_or_group (builds : Builds text file? entries (some last)) :
    (∃ file, file? = some file ∧ (∀ entry ∈ entries, entry.isGroup = false) ∧
      Extends text file entries last) ∨
    ∃ before attributes behind file, entries = before ++ .group attributes :: behind ∧
      ofAttributes attributes = .ok file ∧ (∀ entry ∈ behind, entry.isGroup = false) ∧
      Extends text file behind last := by
  generalize same : some last = last? at builds
  induction builds with
  | nil =>
    subst same
    exact .inl ⟨last, rfl, nofun, [], [], by simp, .nil, .nil⟩
  | @cons _ _ _ entry entries enters _ ih =>
    rcases ih same with ⟨_, ⟨rfl⟩, noGroup, extended⟩ |
      ⟨before, attributes, behind, file, rfl, begins⟩
    · rcases enters.group_or_extends extended with ⟨attributes, rfl, begins⟩ |
        ⟨first, rfl, other, extended⟩
      · exact .inr ⟨[], attributes, entries, _, rfl, begins, noGroup, extended⟩
      · exact .inl ⟨first, rfl, List.forall_mem_cons.2 ⟨other, noGroup⟩, extended⟩
    · exact .inr ⟨entry :: before, attributes, behind, file, rfl, begins⟩

/-- The first element of a file is a group. -/
theorem Builds.head_isGroup (builds : Builds text none (entry :: entries) file?) :
    entry.isGroup = true := by
  cases builds with
  | cons enters =>
    cases enters
    rfl

/-- A file is announced by the last group of its document, and has every template and every alias
behind that. So nothing is lost in a document with one group. -/
theorem declarations_behind_last_group_kept (accepted : parse text = .ok file) :
    ∃ before attributes behind,
      (∀ entries, Document (Reader.events text) entries ↔
        entries = before ++ .group attributes :: behind) ∧
      ofAttributes attributes = .ok { file with templates := [], aliases := [] } ∧
      (∀ entry ∈ behind, entry.isGroup = false) ∧ Holds text behind file ∧
      ((∀ entry ∈ before, entry.isGroup = false) →
        Holds text (before ++ .group attributes :: behind) file) := by
  unfold parse at accepted
  cases folded : (Reader.events text).foldlM (Progress.step text) .start with
  | error =>
    rw [folded] at accepted
    cases accepted
  | ok p =>
    have finished : p.finish = .ok file := by
      rw [folded] at accepted
      exact accepted
    obtain ⟨left, group⟩ : p.open? = none ∧ p.file? = some file := by
      unfold Progress.finish at finished
      split at finished
      case h_1 => cases finished
      case h_2 left group =>
        cases finished
        exact ⟨left, group⟩
      case h_3 => cases finished
    obtain ⟨entries, document, builds⟩ := Progress.exists_document rfl folded left
    rw [group] at builds
    rcases builds.extends_or_group with ⟨_, ⟨⟩, -⟩ |
      ⟨before, attributes, behind, first, rfl, begins, noGroup, templates, aliases, rfl, kept⟩
    obtain ⟨noTemplates, noAliases⟩ := ofAttributes_bare begins
    have holds : Holds text behind { first with
        templates := first.templates ++ templates, aliases := first.aliases ++ aliases } := by
      rw [noTemplates, noAliases]
      exact ⟨kept.1, kept.2⟩
    refine ⟨before, attributes, behind,
      fun others => ⟨document.unique, fun same => same ▸ document⟩, ?_, noGroup, holds, ?_⟩
    · rw [begins]
      obtain ⟨name, extends?, delimiters, _, _⟩ := first
      cases noTemplates
      cases noAliases
      rfl
    · intro noneBefore
      cases before with
      | nil => exact ⟨holds.templates, holds.aliases⟩
      | cons entry before =>
        have noGroup := noneBefore entry List.mem_cons_self
        rw [builds.head_isGroup] at noGroup
        cases noGroup

end

/-- A row whose body has the tag of an alias in it. -/
def markedRowText : List Char :=
  "<group name='g'><template name='t'><alias/></template></group>".toList

def markedRowEvents : List Event :=
  [.opened "group".toList " name='g'".toList 16,
    .opened "template".toList " name='t'".toList 35, .empty "alias".toList [],
    .closed "template".toList 54, .closed "group".toList 62]

/-- The group and its row, and no alias. -/
def markedRowEntries : List Entry :=
  [.group " name='g'".toList, .template " name='t'".toList 35 54]

theorem document_markedRow : Document (Reader.events markedRowText) markedRowEntries := by
  have events : Reader.events markedRowText = markedRowEvents := by
    unfold markedRowText markedRowEvents
    cbv
  have row : Document (.opened "template".toList " name='t'".toList 35 ::
      ([.empty "alias".toList []] ++ .closed "template".toList 54 :: [.closed "group".toList 62]))
      [.template " name='t'".toList 35 54] :=
    .template rfl (.other id id .nil) rfl (.passedOver rfl id .nil)
  rw [events]
  exact .element rfl row

theorem markedRow_kept :
    parse markedRowText = .ok ⟨"g", none, .dollar, [⟨"t", [], "<alias/>"⟩], []⟩ ∧
    Holds markedRowText markedRowEntries ⟨"g", none, .dollar, [⟨"t", [], "<alias/>"⟩], []⟩ := by
  have accepted : parse markedRowText =
      .ok ⟨"g", none, .dollar, [⟨"t", [], "<alias/>"⟩], []⟩ := by
    unfold markedRowText
    cbv
  obtain ⟨before, attributes, behind, entries, -, noGroup, -, holds⟩ :=
    declarations_behind_last_group_kept accepted
  have same := (entries _).1 document_markedRow
  rw [← same] at holds
  refine ⟨accepted, holds ?_⟩
  cases before with
  | nil => exact fun _ member => absurd member List.not_mem_nil
  | cons entry before =>
    have member : Entry.group attributes ∈ [Entry.template " name='t'".toList 35 54] := by
      rw [(List.cons.inj same).2]
      exact List.mem_append_right before List.mem_cons_self
    cases List.mem_singleton.1 member

/-- Two groups, each with a template. -/
def twoGroupsText : List Char :=
  ("<groups><group name='g'><template name='x'/></group>" ++
    "<group name='g'><template name='y'/></group></groups>").toList

def twoGroupsEvents : List Event :=
  [.opened "groups".toList [] 8, .opened "group".toList " name='g'".toList 24,
    .empty "template".toList " name='x'".toList, .closed "group".toList 52,
    .opened "group".toList " name='g'".toList 68, .empty "template".toList " name='y'".toList,
    .closed "group".toList 96, .closed "groups".toList 105]

def twoGroupsEntries : List Entry :=
  [.group " name='g'".toList, .emptyTemplate " name='x'".toList, .group " name='g'".toList,
    .emptyTemplate " name='y'".toList]

/-- The template of the first group is lost. -/
theorem second_group_loses_template :
    Document (Reader.events twoGroupsText) twoGroupsEntries ∧
    parse twoGroupsText = .ok ⟨"g", none, .dollar, [⟨"y", [], ""⟩], []⟩ ∧
    ¬Holds twoGroupsText twoGroupsEntries ⟨"g", none, .dollar, [⟨"y", [], ""⟩], []⟩ := by
  have events : Reader.events twoGroupsText = twoGroupsEvents := by
    unfold twoGroupsText twoGroupsEvents
    cbv
  have document : Document twoGroupsEvents twoGroupsEntries := by
    refine .passedOver rfl (by rintro ⟨⟩) (.element rfl (.element rfl (.passedOver rfl id ?_)))
    exact .element rfl (.element rfl (.passedOver rfl id (.passedOver rfl id .nil)))
  refine ⟨?_, ?_, fun holds => ?_⟩
  · rw [events]
    exact document
  · have begins (file? : Option GroupFile) (stop : Nat) :
        Progress.step twoGroupsText ⟨file?, none⟩
          (.opened "group".toList " name='g'".toList stop) =
        .ok ⟨some ⟨"g", none, .dollar, [], []⟩, none⟩ := by
      have header : ofAttributes " name='g'".toList = .ok ⟨"g", none, .dollar, [], []⟩ := by cbv
      exact congrArg (Except.map _) header
    have x : Progress.step twoGroupsText ⟨some ⟨"g", none, .dollar, [], []⟩, none⟩
        (.empty "template".toList " name='x'".toList) =
        .ok ⟨some ⟨"g", none, .dollar, [⟨"x", [], ""⟩], []⟩, none⟩ := by
      have header : templateHeader " name='x'".toList = .ok ("x", []) := by cbv
      exact congrArg (Except.map _) header
    have y : Progress.step twoGroupsText ⟨some ⟨"g", none, .dollar, [], []⟩, none⟩
        (.empty "template".toList " name='y'".toList) =
        .ok ⟨some ⟨"g", none, .dollar, [⟨"y", [], ""⟩], []⟩, none⟩ := by
      have header : templateHeader " name='y'".toList = .ok ("y", []) := by cbv
      exact congrArg (Except.map _) header
    have other (p : Progress) (outside : p.open? = none) (name : List Char) (stop : Nat) :
        Progress.step twoGroupsText p (.closed name stop) = .ok p := by
      rw [Progress.step, outside]
    have unknown : Progress.step twoGroupsText .start (.opened "groups".toList [] 8) =
        .ok ⟨none, none⟩ := rfl
    rw [parse, events, twoGroupsEvents, foldlM_step unknown, foldlM_step (begins _ _),
      foldlM_step x, foldlM_step (other _ rfl _ _), foldlM_step (begins _ _), foldlM_step y,
      foldlM_step (other _ rfl _ _), foldlM_step (other _ rfl _ _)]
    rfl
  · exact absurd holds.templates.length_eq (by decide)

end GroupFile
end Stencil
