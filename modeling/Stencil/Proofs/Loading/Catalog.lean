import Mathlib.Data.List.Perm.Basic
import Mathlib.Logic.Function.Basic
import Stencil.Group.Load
/-!
# Catalogs

A catalog says what is registered under each name, whatever place the groups have in a library.
Filling and linking groups are steps on one entry of a catalog that may fail. The steps of two files
change places, so that the order of the files does not matter.
-/
namespace Stencil

/-- Steps that change places in pairs may be taken in any order, failures included. -/
theorem foldlM_eq_of_perm {α β : Type} {step : β → α → Option β} {items items' : List α}
    (perm : items.Perm items')
    (commute : ∀ x ∈ items, ∀ y ∈ items, ∀ b,
      (step b x).bind (fun b => step b y) = (step b y).bind (fun b => step b x))
    (b : β) : items.foldlM step b = items'.foldlM step b := by
  induction perm generalizing b with
  | nil => rfl
  | cons first _ ih =>
    rw [List.foldlM_cons, List.foldlM_cons]
    refine congrArg (step b first).bind (funext fun b => ih ?_ b)
    exact fun x member y member' =>
      commute x (List.mem_cons_of_mem first member) y (List.mem_cons_of_mem first member')
  | swap x y rest =>
    have swapped := commute y List.mem_cons_self x
      (List.mem_cons_of_mem y List.mem_cons_self) b
    simp only [List.foldlM_cons, Option.bind_eq_bind, ← Option.bind_assoc, swapped]
  | trans first _ ih ih' =>
    refine (ih commute b).trans (ih' ?_ b)
    exact fun x member y member' => commute x (first.mem_iff.2 member) y (first.mem_iff.2 member')

/-- What a group shows of itself. -/
structure GroupView where
  delimiters : Delimiters
  template? : String → Option Template
  alias? : String → Option String
  /-- The name of the group that it extends. -/
  parent? : Option String

namespace GroupView

variable {group : String} {v : GroupView}

def empty (d : Delimiters) : GroupView := ⟨d, fun _ => none, fun _ => none, none⟩

def withTemplate (v : GroupView) (name : String) (t : Template) : GroupView :=
  { v with template? := Function.update v.template? name (some t) }

def withAlias (v : GroupView) (entry : String × String) : GroupView :=
  { v with alias? := Function.update v.alias? entry.1 (some entry.2) }

/-- What a declaration defines in the group of a name, if its source compiles. -/
def declared? (group : String) (d : Delimiters) (t : TemplateDeclaration) : Option Template :=
  match Template.compile d t.name t.body with
  | .ok compiled => some ((compiled.withFormals t.formals).inGroup group)
  | .error _ => none

/-- Defines a template whose name is still free. -/
def define (group : String) (v : GroupView) (t : TemplateDeclaration) : Option GroupView :=
  if (v.template? t.name).isSome then none
  else (declared? group v.delimiters t).map (v.withTemplate t.name)

/-- Defines the templates of a file and adds its aliases. -/
def fill (group : String) (v : GroupView) (file : GroupFile) : Option GroupView :=
  (file.templates.foldlM (define group) v).map fun v => file.aliases.foldl withAlias v

@[simp] theorem delimiters_withTemplate (v : GroupView) (name : String) (t : Template) :
    (v.withTemplate name t).delimiters = v.delimiters := rfl

theorem template?_withTemplate (v : GroupView) (name other : String) (t : Template) :
    (v.withTemplate name t).template? other = if other = name then some t else v.template? other :=
  Function.update_apply _ _ _ _

theorem withTemplate_comm (v : GroupView) {name other : String} (ne : name ≠ other)
    (t u : Template) :
    (v.withTemplate name t).withTemplate other u = (v.withTemplate other u).withTemplate name t :=
  congrArg (GroupView.mk v.delimiters · v.alias? v.parent?) (Function.update_comm ne _ _ _)

/-- Whichever of two templates comes first takes a name that both have. -/
theorem define_bind_define_of_eq (v : GroupView) {s t : TemplateDeclaration}
    (same : s.name = t.name) : (define group v s).bind (fun v => define group v t) = none := by
  unfold define
  split
  · rfl
  · cases declared? group v.delimiters s with
    | none => rfl
    | some compiled => simp [template?_withTemplate, same]

theorem define_comm (v : GroupView) (s t : TemplateDeclaration) :
    (define group v s).bind (fun v => define group v t) =
      (define group v t).bind (fun v => define group v s) := by
  by_cases same : s.name = t.name
  · rw [define_bind_define_of_eq v same, define_bind_define_of_eq v same.symm]
  · unfold define
    cases taken : v.template? s.name <;> cases taken' : v.template? t.name <;>
      cases compiles : declared? group v.delimiters s <;>
      cases compiles' : declared? group v.delimiters t <;>
      simp [taken, taken', compiles, compiles', template?_withTemplate, same, Ne.symm same,
        withTemplate_comm v same]

theorem define_withAlias (v : GroupView) (entry : String × String) (t : TemplateDeclaration) :
    define group (v.withAlias entry) t = (define group v t).map fun v => v.withAlias entry := by
  unfold define
  rw [apply_ite (Option.map _), Option.map_map]
  rfl

/-- Aliases have no part in defining templates. -/
theorem defineAll_withAliases (v : GroupView) (aliases : List (String × String))
    (templates : List TemplateDeclaration) :
    templates.foldlM (define group) (aliases.foldl withAlias v) =
      (templates.foldlM (define group) v).map fun v => aliases.foldl withAlias v := by
  have one (v : GroupView) (t : TemplateDeclaration) :
      define group (aliases.foldl withAlias v) t =
        (define group v t).map fun v => aliases.foldl withAlias v := by
    induction aliases generalizing v with
    | nil => simp
    | cons entry rest ih =>
      simp only [List.foldl_cons, ih, define_withAlias, Option.map_map]
      rfl
  induction templates generalizing v with
  | nil => rfl
  | cons t rest ih =>
    simp only [List.foldlM_cons, one, Option.bind_eq_bind, Option.bind_map, Option.map_bind]
    exact congrArg (define group v t).bind (funext fun v => ih v)

theorem fill_bind_fill (v : GroupView) (f g : GroupFile) :
    (fill group v f).bind (fun v => fill group v g) =
      ((f.templates ++ g.templates).foldlM (define group) v).map fun v =>
        (f.aliases ++ g.aliases).foldl withAlias v := by
  simp only [fill, List.foldlM_append, Option.bind_eq_bind, Option.bind_map, Option.map_bind,
    List.foldl_append]
  refine congrArg (f.templates.foldlM (define group) v).bind (funext fun v => ?_)
  simp only [Function.comp_apply, defineAll_withAliases, Option.map_map]
  rfl

end GroupView

/-- Files that say the same of a group that both are of. -/
structure GroupFile.Agree (f g : GroupFile) : Prop where
  delimiters : f.name = g.name → f.delimiters = g.delimiters
  target {entry entry' : String × String} :
    f.name = g.name → entry ∈ f.aliases → entry' ∈ g.aliases → entry.1 = entry'.1 →
    entry.2 = entry'.2

theorem GroupFile.agree_iff {f g : GroupFile} : f.Agree g ↔ (f.name = g.name →
    f.delimiters = g.delimiters ∧
      ∀ entry ∈ f.aliases, ∀ entry' ∈ g.aliases, entry.1 = entry'.1 → entry.2 = entry'.2) :=
  ⟨fun agree named => ⟨agree.delimiters named, fun _ member _ => agree.target named member⟩,
    fun same => ⟨fun named => (same named).1, fun named member => (same named).2 _ member _⟩⟩

instance (f g : GroupFile) : Decidable (f.Agree g) := decidable_of_iff' _ GroupFile.agree_iff

namespace GroupView

variable {group : String}

theorem withAlias_comm (v : GroupView) {entry entry' : String × String}
    (agree : entry.1 = entry'.1 → entry.2 = entry'.2) :
    (v.withAlias entry).withAlias entry' = (v.withAlias entry').withAlias entry := by
  by_cases same : entry.1 = entry'.1
  · simp [withAlias, same, agree same]
  · simp [withAlias, Function.update_comm same]

/-- Two files of a group change places. -/
theorem fill_comm (group : String) (v : GroupView) {f g : GroupFile} (named : f.name = g.name)
    (agree : f.Agree g) (left : f.Agree f) (right : g.Agree g) :
    (fill group v f).bind (fun v => fill group v g) =
      (fill group v g).bind (fun v => fill group v f) := by
  rw [fill_bind_fill, fill_bind_fill,
    foldlM_eq_of_perm List.perm_append_comm fun s _ t _ v => define_comm v s t]
  refine congrArg (Option.map · _) (funext fun v => ?_)
  refine List.Perm.foldl_eq' List.perm_append_comm ?_ v
  intro entry member entry' member' v
  refine withAlias_comm v ?_
  rcases List.mem_append.1 member with inLeft | inRight <;>
    rcases List.mem_append.1 member' with inLeft' | inRight'
  · exact left.target rfl inLeft inLeft'
  · exact agree.target named inLeft inRight'
  · exact fun same => (agree.target named inLeft' inRight same.symm).symm
  · exact right.target rfl inRight inRight'

end GroupView

/-- What is registered under each name. -/
abbrev Catalog := String → Option GroupView

namespace Catalog

def put (c : Catalog) (name : String) (v : GroupView) : Catalog := Function.update c name (some v)

/-- Fills the group of a file, which is made if need be. -/
def fill (c : Catalog) (file : GroupFile) : Option Catalog :=
  (((c file.name).getD (.empty file.delimiters)).fill file.name file).map (c.put file.name)

/-- Makes the group of a name extend another one, once and for all. -/
def extend (c : Catalog) (name parent : String) : Option Catalog :=
  match c name with
  | none => some c
  | some v =>
    if v.parent?.isSome then none else some (c.put name { v with parent? := some parent })

/-- Makes the group of a file extend the group that the file names. -/
def link (c : Catalog) (file : GroupFile) : Option Catalog :=
  match file.extends? with
  | none => some c
  | some parent => if c parent = none then none else c.extend file.name parent

def register (c : Catalog) (files : List GroupFile) : Option Catalog :=
  (files.foldlM fill c).bind fun c => files.foldlM link c

variable {c : Catalog} {f g : GroupFile}

@[simp] theorem put_self (name : String) (v : GroupView) : c.put name v name = some v := by
  simp [put]

theorem put_of_ne {name other : String} (ne : other ≠ name) (v : GroupView) :
    c.put name v other = c other :=
  Function.update_of_ne ne _ _

@[simp] theorem put_put (name : String) (v : GroupView) : (c.put name v).put name = c.put name :=
  funext fun _ => Function.update_idem _ _ _

theorem put_comm {name other : String} (ne : name ≠ other) (v w : GroupView) :
    (c.put name v).put other w = (c.put other w).put name v :=
  Function.update_comm ne _ _ _

theorem put_eq_self {name : String} {v : GroupView} (found : c name = some v) : c.put name v = c := by
  rw [put, ← found, Function.update_eq_self]

theorem fill_comm (c : Catalog) (agree : f.Agree g) (left : f.Agree f) (right : g.Agree g) :
    (c.fill f).bind (fun c => c.fill g) = (c.fill g).bind (fun c => c.fill f) := by
  by_cases same : f.name = g.name
  · have swapped := congrArg (Option.map (c.put g.name)) (GroupView.fill_comm g.name
      ((c g.name).getD (.empty g.delimiters)) same agree left right)
    simp only [Option.map_bind] at swapped
    simpa only [fill, same, agree.delimiters same, Option.bind_map, Function.comp_def, put_self,
      Option.getD_some, put_put] using swapped
  · simp only [fill, Option.bind_map, Function.comp_def, put_of_ne same, put_of_ne (Ne.symm same)]
    cases ((c f.name).getD (.empty f.delimiters)).fill f.name f <;>
      cases ((c g.name).getD (.empty g.delimiters)).fill g.name g <;>
      simp [put_comm same]

/-- Extending a group registers nothing new. -/
theorem eq_none_iff_of_extend {name parent : String} {after : Catalog}
    (extended : c.extend name parent = some after) (other : String) :
    after other = none ↔ c other = none := by
  unfold extend at extended
  split at extended
  case h_1 => rw [Option.some.inj extended]
  case h_2 v found =>
    split at extended
    · cases extended
    · obtain rfl := Option.some.inj extended
      by_cases same : other = name
      · simp [same, found]
      · rw [put_of_ne same]

/-- Whether a name is known is settled before a group is extended as well as after. -/
theorem extend_bind_guard (c : Catalog) (name parent other : String) (k : Catalog → Option Catalog) :
    ((c.extend name parent).bind fun c => if c other = none then none else k c) =
      if c other = none then none else (c.extend name parent).bind k := by
  rcases extended : c.extend name parent with _ | after
  · simp
  · simp only [Option.bind_some, eq_none_iff_of_extend extended other]

theorem extend_comm (c : Catalog) (n p m q : String) :
    (c.extend n p).bind (fun c => c.extend m q) = (c.extend m q).bind (fun c => c.extend n p) := by
  by_cases same : n = m
  · subst same
    rcases found : c n with _ | v
    · simp [extend, found]
    · cases parent : v.parent? <;> simp [extend, found, parent]
  · rcases found : c n with _ | v <;> rcases found' : c m with _ | w
    · simp [extend, found, found']
    · cases parent' : w.parent? <;> simp [extend, found, found', parent', put_of_ne same]
    · cases parent : v.parent? <;> simp [extend, found, found', parent, put_of_ne (Ne.symm same)]
    · cases parent : v.parent? <;> cases parent' : w.parent? <;>
        simp [extend, found, found', parent, parent', put_of_ne same, put_of_ne (Ne.symm same),
          put_comm same]

theorem link_comm (c : Catalog) (f g : GroupFile) :
    (c.link f).bind (fun c => c.link g) = (c.link g).bind (fun c => c.link f) := by
  rcases extended : f.extends? with _ | p <;> rcases extended' : g.extends? with _ | q
  case none.none => simp [link, extended, extended']
  case none.some => simp [link, extended]
  case some.none => simp [link, extended']
  case some.some =>
    by_cases unknown : c p = none <;> by_cases unknown' : c q = none <;>
      simp [link, extended, extended', unknown, unknown', extend_bind_guard, extend_comm c f.name]

/-- The order of the files does not matter. -/
theorem register_perm {files files' : List GroupFile} (perm : files.Perm files')
    (agree : ∀ f ∈ files, ∀ g ∈ files, f.Agree g) (c : Catalog) :
    c.register files = c.register files' := by
  have commute (f : GroupFile) (member : f ∈ files) (g : GroupFile) (member' : g ∈ files)
      (c : Catalog) : (c.fill f).bind (fun c => c.fill g) = (c.fill g).bind (fun c => c.fill f) :=
    fill_comm c (agree f member g member') (agree f member f member) (agree g member' g member')
  have filled : files.foldlM fill c = files'.foldlM fill c := foldlM_eq_of_perm perm commute c
  rw [register, register, filled]
  refine congrArg (Option.bind _) (funext fun c => ?_)
  exact foldlM_eq_of_perm perm (fun f _ g _ c => link_comm c f g) c

end Catalog
end Stencil
