import Stencil.Proofs.Loading.Catalog
/-!
# Loading as steps on catalogs

Filling and linking the groups of a library does to its catalog what the steps on catalogs say, and
fails where they fail. That needs the places of a library to be in order, which holds of every
library that is built by adding, registering and changing groups.
-/
namespace Stencil

theorem Template.name_of_compile {d : Delimiters} {name source : String} {t : Template}
    (compiles : compile d name source = .ok t) : t.name = name := by
  rw [← String.ofList_toList (s := source), compile_eq_ok_iff] at compiles
  obtain ⟨-, rfl⟩ := compiles
  rfl

namespace Library

variable {l l' : Library} {id parent : GroupId} {g : Group} {name : String}

/-! ## Places -/

/-- The place was given out. -/
def Holds (l : Library) (id : GroupId) : Prop := id.index < l.groups.length

/-- Every place in use was given out, and groups are registered under their own names. -/
structure Sound (l : Library) : Prop where
  registered {name : String} {id : GroupId} : l.group? name = some id → l.Holds id
  named {name : String} {id : GroupId} : l.group? name = some id → (l.get id).name = name
  parents {id parent : GroupId} : (l.get id).parent? = some parent → l.Holds parent

theorem get_set_self (inside : l.Holds id) (g : Group) : (l.set id g).get id = g := by
  simp [get, set, List.getElem?_set_self inside]

theorem get_set_of_ne {other : GroupId} (ne : other ≠ id) (g : Group) :
    (l.set id g).get other = l.get other := by
  have apart : id.index ≠ other.index := fun same => ne (congrArg GroupId.mk same).symm
  simp [get, set, List.getElem?_set_ne apart]

theorem set_of_not_holds (outside : ¬ l.Holds id) (g : Group) : l.set id g = l := by
  simp [set, List.set_eq_of_length_le (Nat.not_lt.1 outside)]

@[simp] theorem holds_set {other : GroupId} : (l.set id g).Holds other ↔ l.Holds other := by
  simp [Holds, set]

@[simp] theorem group?_set : (l.set id g).group? name = l.group? name := rfl

/-- A group that keeps its name does not change the name of any place. -/
theorem name_get_set (kept : g.name = (l.get id).name) (other : GroupId) :
    ((l.set id g).get other).name = (l.get other).name := by
  by_cases inside : l.Holds id
  · by_cases same : other = id
    · rw [same, get_set_self inside, kept]
    · rw [get_set_of_ne same]
  · rw [set_of_not_holds inside]

theorem get_add_self (g : Group) : (l.add g).2.get (l.add g).1 = g := by
  simp [get, add]

theorem get_add_of_holds {other : GroupId} (inside : l.Holds other) (g : Group) :
    (l.add g).2.get other = l.get other := by
  simp [get, add, List.getElem?_append_left inside]

/-- A place of the larger library is an old one, the new one or none at all. -/
theorem get_add_of_not_holds {other : GroupId} (outside : ¬ l.Holds other) (g : Group) :
    (l.add g).2.get other = g ∨ (l.add g).2.get other = default := by
  simp only [get, add]
  rw [List.getElem?_append_right (Nat.not_lt.1 outside)]
  cases other.index - l.groups.length with
  | zero => exact Or.inl rfl
  | succ n => exact Or.inr rfl

theorem Holds.add (inside : l.Holds id) (g : Group) : (l.add g).2.Holds id := by
  simp only [Holds, Library.add, List.length_append] at inside ⊢
  omega

theorem holds_add_self (g : Group) : (l.add g).2.Holds (l.add g).1 := by
  simp [Holds, add]

namespace Sound

theorem empty : Library.empty.Sound where
  registered found := by cases found
  named found := by cases found
  parents {id parent} found := by
    simp [Library.get, Library.empty, default, Group.empty] at found

/-- A group may be changed in all but its name. -/
theorem set (sound : l.Sound) (kept : g.name = (l.get id).name)
    (parents : ∀ parent, g.parent? = some parent → l.Holds parent) : (l.set id g).Sound where
  registered found := holds_set.2 (sound.registered found)
  named found := (name_get_set kept _).trans (sound.named found)
  parents {other parent} found := by
    rw [holds_set]
    by_cases inside : l.Holds id
    · by_cases same : other = id
      · rw [same, get_set_self inside] at found
        exact parents parent found
      · rw [get_set_of_ne same] at found
        exact sound.parents found
    · rw [set_of_not_holds inside] at found
      exact sound.parents found

theorem add (sound : l.Sound) (name : String) (d : Delimiters) :
    (l.add (.empty name d)).2.Sound where
  registered found := (sound.registered found).add _
  named {name id} found := by
    rw [get_add_of_holds (sound.registered found)]
    exact sound.named found
  parents {other parent} found := by
    by_cases inside : l.Holds other
    · rw [get_add_of_holds inside] at found
      exact (sound.parents found).add _
    · rcases get_add_of_not_holds inside (.empty name d) with new | none
      · rw [new] at found
        cases found
      · rw [none] at found
        cases found

theorem register (sound : l.Sound) (inside : l.Holds id) : (l.register id).Sound where
  registered {name other} found := by
    simp only [group?, Library.register, Table.find?_insert] at found
    split at found
    · obtain rfl := Option.some.inj found
      exact inside
    · exact sound.registered found
  named {name other} found := by
    simp only [group?, Library.register, Table.find?_insert] at found
    split at found
    · rename_i own
      obtain rfl := Option.some.inj found
      exact own.symm
    · exact sound.named found
  parents found := sound.parents found

theorem clear (sound : l.Sound) : l.clear.Sound where
  registered found := by cases found
  named found := by cases found
  parents found := sound.parents found

end Sound

/-! ## Views -/

/-- What a group shows of itself in a library. -/
def viewOf (l : Library) (g : Group) : GroupView where
  delimiters := g.delimiters
  template? name := g.templates.find? name
  alias? name := g.aliases.find? name
  parent? := g.parent?.map fun parent => (l.get parent).name

/-- What the group at a place shows of itself. -/
def view (l : Library) (id : GroupId) : GroupView := l.viewOf (l.get id)

/-- What is registered in a library under each name. -/
def catalog (l : Library) : Catalog := fun name => (l.group? name).map l.view

theorem viewOf_insert {t : Template} : l.viewOf (g.insert t) =
    (l.viewOf g).withTemplate t.name (t.inGroup g.name) := by
  simp only [viewOf, Group.insert, GroupView.withTemplate, GroupView.mk.injEq, true_and, and_true]
  exact funext fun name => by rw [Table.find?_insert, Function.update_apply]

theorem viewOf_withAlias {entry : String × String} : l.viewOf (g.withAlias entry.1 entry.2) =
    (l.viewOf g).withAlias entry := by
  simp only [viewOf, Group.withAlias, GroupView.withAlias, GroupView.mk.injEq, true_and, and_true]
  exact funext fun name => by rw [Table.find?_insert, Function.update_apply]

theorem viewOf_set {h : Group} (kept : g.name = (l.get id).name) :
    (l.set id g).viewOf h = l.viewOf h := by
  simp only [viewOf, name_get_set kept]

theorem view_set_of_ne {other : GroupId} (ne : other ≠ id) (kept : g.name = (l.get id).name) :
    (l.set id g).view other = l.view other := by
  rw [view, get_set_of_ne ne, viewOf_set kept, view]

/-- A library that differs from another one in what a registered group shows. -/
structure Edits (l : Library) (name : String) (id : GroupId) (l' : Library) : Prop where
  sound : l'.Sound
  found : l'.group? name = some id
  catalog_eq : l'.catalog = l.catalog.put name (l'.view id)

theorem catalog_of_group? (found : l.group? name = some id) : l.catalog name = some (l.view id) := by
  simp [catalog, found]

theorem Edits.refl (sound : l.Sound) (found : l.group? name = some id) : Edits l name id l :=
  ⟨sound, found, (Catalog.put_eq_self (catalog_of_group? found)).symm⟩

theorem Edits.trans {l'' : Library} (first : Edits l name id l') (second : Edits l' name id l'') :
    Edits l name id l'' := by
  refine ⟨second.sound, second.found, ?_⟩
  rw [second.catalog_eq, first.catalog_eq, Catalog.put_put]

/-- Changing a registered group changes the catalog under its name only. -/
theorem edits_set (sound : l.Sound) (found : l.group? name = some id)
    (kept : g.name = (l.get id).name)
    (parents : ∀ parent, g.parent? = some parent → l.Holds parent) :
    Edits l name id (l.set id g) ∧ (l.set id g).view id = l.viewOf g := by
  have shown : (l.set id g).view id = l.viewOf g := by
    rw [view, get_set_self (sound.registered found), viewOf_set kept]
  refine ⟨⟨sound.set kept parents, found, funext fun other => ?_⟩, shown⟩
  by_cases same : other = name
  · rw [same, Catalog.put_self, catalog_of_group? (l := l.set id g) found]
  · rw [Catalog.put_of_ne same, catalog, catalog, group?_set]
    cases found' : l.group? other with
    | none => rfl
    | some id' =>
      have ne : id' ≠ id := by
        rintro rfl
        exact same ((sound.named found').symm.trans (sound.named found))
      rw [Option.map_some, Option.map_some, view_set_of_ne ne kept]

/-! ## Steps -/

theorem define_cases (sound : l.Sound) (found : l.group? name = some id)
    (t : TemplateDeclaration) :
    (∃ e, l.define id t.name t.formals t.body = .error e ∧ (l.view id).define name t = none) ∨
    ∃ u l', l.define id t.name t.formals t.body = .ok (u, l') ∧ Edits l name id l' ∧
      (l.view id).define name t = some (l'.view id) := by
  have shown : ((l.view id).template? t.name).isSome = (l.get id).templates.contains t.name := rfl
  unfold define Group.define GroupView.define
  rw [shown]
  split
  case isTrue => exact Or.inl ⟨_, rfl, rfl⟩
  case isFalse =>
    cases compiles : Template.compile (l.get id).delimiters t.name t.body with
    | error e =>
      refine Or.inl ⟨e, rfl, ?_⟩
      simp [GroupView.declared?, view, viewOf, compiles]
    | ok u =>
      let defined := (u.withFormals t.formals).inGroup (l.get id).name
      obtain ⟨edits, after⟩ := edits_set sound found (g := (l.get id).insert defined) rfl
        fun _ parent => sound.parents parent
      refine Or.inr ⟨defined, _, rfl, edits, ?_⟩
      have own : u.name = t.name := Template.name_of_compile compiles
      have given : GroupView.declared? name (l.view id).delimiters t =
          some ((u.withFormals t.formals).inGroup name) := by
        simp [GroupView.declared?, view, viewOf, compiles]
      rw [given, after, viewOf_insert, ← own, Option.map_some]
      simp only [defined, sound.named found]
      rfl

/-- A step on a library against a step on its catalog. -/
inductive Shows : Loaded → Option Catalog → Prop where
  | ok {l : Library} (sound : l.Sound) : Shows (l, .ok ()) (some l.catalog)
  | error {l : Library} {e : LoadProblem} : Shows (l, .error e) none

/-- The step on the library has gone well only if the one on its catalog has. -/
theorem Shows.eq_some {result : Loaded} {after? : Option Catalog} (shows : Shows result after?)
    (ok : result.2 = .ok ()) : after? = some result.1.catalog := by
  cases shows with
  | ok => rfl
  | error => cases ok

theorem Shows.of_some {result : Loaded} {after : Catalog} (shows : Shows result (some after)) :
    result.2 = .ok () ∧ result.1.catalog = after := by
  cases shows
  exact ⟨rfl, rfl⟩

theorem defineAll_cases (sound : l.Sound) (found : l.group? name = some id)
    (templates : List TemplateDeclaration) :
    (∃ l' e, l.defineAll id name templates = (l', .error e) ∧
      templates.foldlM (GroupView.define name) (l.view id) = none) ∨
    ∃ l', l.defineAll id name templates = (l', .ok ()) ∧ Edits l name id l' ∧
      templates.foldlM (GroupView.define name) (l.view id) = some (l'.view id) := by
  induction templates generalizing l with
  | nil => exact Or.inr ⟨l, rfl, .refl sound found, rfl⟩
  | cons t rest ih =>
    rw [defineAll, List.foldlM_cons]
    rcases define_cases sound found t with ⟨e, refused, none⟩ | ⟨u, l₁, defined, edits, some⟩
    · rw [refused, none]
      exact Or.inl ⟨_, _, rfl, rfl⟩
    · rw [defined, some]
      rcases ih edits.sound edits.found with ⟨l₂, e, refused, none⟩ | ⟨l₂, filled, edits', some'⟩
      · exact Or.inl ⟨l₂, e, refused, none⟩
      · exact Or.inr ⟨l₂, filled, edits.trans edits', some'⟩

theorem edits_addAliases (sound : l.Sound) (found : l.group? name = some id)
    (aliases : List (String × String)) :
    Edits l name id (l.addAliases id aliases) ∧
      (l.addAliases id aliases).view id = aliases.foldl GroupView.withAlias (l.view id) := by
  induction aliases generalizing l with
  | nil => exact ⟨.refl sound found, rfl⟩
  | cons entry rest ih =>
    obtain ⟨edits, shown⟩ := edits_set sound found
      (g := (l.get id).withAlias entry.1 entry.2) rfl fun _ parent => sound.parents parent
    obtain ⟨edits', shown'⟩ := ih edits.sound edits.found
    refine ⟨edits.trans edits', shown'.trans ?_⟩
    rw [shown, viewOf_withAlias]
    rfl

/-- The group of a name is there afterwards, and an empty one if it was not there. -/
theorem groupOrCreate_spec (sound : l.Sound) (name : String) (d : Delimiters) :
    ∃ id l', l.groupOrCreate name d = (id, l') ∧ l'.Sound ∧ l'.group? name = some id ∧
      l'.view id = (l.catalog name).getD (.empty d) ∧
      l'.catalog = l.catalog.put name (l'.view id) := by
  unfold groupOrCreate
  cases found : l.group? name with
  | some id =>
    have shown := catalog_of_group? found
    exact ⟨id, l, rfl, sound, found, by simp [shown], (Catalog.put_eq_self shown).symm⟩
  | none =>
    let new := (l.add (.empty name d)).1
    let l' := (l.add (.empty name d)).2.register new
    have own : l'.get new = .empty name d := get_add_self _
    have named : ((l.add (.empty name d)).2.get new).name = name := by
      rw [get_add_self]
      rfl
    have registered (other : String) :
        l'.group? other = if other = name then some new else l.group? other := by
      simp only [l', group?, register, Table.find?_insert, named]
      rfl
    have shown : l'.view new = .empty d := by
      rw [view, own]
      rfl
    refine ⟨new, l', rfl, (sound.add name d).register (holds_add_self _), by simp [registered],
      by simp [shown, catalog, found], funext fun other => ?_⟩
    simp only [catalog, registered, Catalog.put, Function.update_apply]
    by_cases same : other = name
    · simp [same]
    · simp only [same, if_false]
      cases found' : l.group? other with
      | none => rfl
      | some id =>
        have inside := sound.registered found'
        have kept : l'.get id = l.get id := get_add_of_holds inside _
        have parents {parent : GroupId} (extended : (l.get id).parent? = some parent) :
            l'.get parent = l.get parent := get_add_of_holds (sound.parents extended) _
        rw [Option.map_some, Option.map_some, view, kept, view, viewOf, viewOf]
        cases extended : (l.get id).parent? with
        | none => rfl
        | some parent => simp [parents extended]

theorem shows_fill (sound : l.Sound) (file : GroupFile) :
    Shows (l.fill file) (l.catalog.fill file) := by
  obtain ⟨id, l₁, made, sound₁, found, shown, catalog_eq⟩ :=
    groupOrCreate_spec sound file.name file.delimiters
  rw [fill, made, Catalog.fill, ← shown, GroupView.fill]
  dsimp only
  rcases defineAll_cases sound₁ found file.templates with
    ⟨l₂, e, refused, none⟩ | ⟨l₂, filled, edits, some⟩
  · rw [refused, none]
    exact .error
  · obtain ⟨edits', shown'⟩ := edits_addAliases edits.sound edits.found file.aliases
    have after := (edits.trans edits').catalog_eq
    rw [catalog_eq, Catalog.put_put] at after
    rw [filled, some, Option.map_some, Option.map_some, ← shown', ← after]
    exact .ok edits'.sound

theorem shows_link (sound : l.Sound) (file : GroupFile) :
    Shows (l.link file) (l.catalog.link file) := by
  unfold link Catalog.link
  cases file.extends? with
  | none => exact .ok sound
  | some parentName =>
    cases known : l.group? parentName with
    | none =>
      simp only [catalog, known, Option.map_none, if_true]
      exact .error
    | some parent =>
      have present : l.catalog parentName ≠ none := by simp [catalog, known]
      simp only [known, present, if_false, Catalog.extend]
      cases found : l.group? file.name with
      | none =>
        simp only [catalog, found, Option.map_none]
        exact .ok sound
      | some id =>
        simp only [catalog_of_group? found, setParent]
        have shown : (l.view id).parent?.isSome = (l.get id).parent?.isSome := by
          simp [view, viewOf]
        rw [shown]
        cases extended : (l.get id).parent? with
        | some old => exact .error
        | none =>
          let g : Group := { l.get id with parent? := some parent }
          obtain ⟨edits, after⟩ := edits_set sound found (g := g) rfl
            fun _ same => Option.some.inj same ▸ sound.registered known
          have put := edits.catalog_eq
          rw [after] at put
          simp only [g, viewOf, Option.map_some, sound.named known] at put
          simp only [Option.isSome_none, Bool.false_eq_true, if_false]
          rw [view, viewOf, ← put]
          exact .ok edits.sound

theorem shows_forFiles {step : Library → GroupFile → Loaded}
    {step' : Catalog → GroupFile → Option Catalog}
    (shows_step : ∀ {l : Library}, l.Sound → ∀ file, Shows (step l file) (step' l.catalog file))
    (sound : l.Sound) (files : List GroupFile) :
    Shows (forFiles step l files) (files.foldlM step' l.catalog) := by
  induction files generalizing l with
  | nil => exact .ok sound
  | cons file rest ih =>
    have first := shows_step sound file
    rw [forFiles, List.foldlM_cons]
    generalize step l file = result at first
    generalize step' l.catalog file = result' at first
    cases first with
    | ok sound => exact ih sound
    | error => exact .error

theorem shows_registerAll (sound : l.Sound) (files : List GroupFile) :
    Shows (l.registerAll files) (l.catalog.register files) := by
  have filled := shows_forFiles shows_fill sound files
  rw [registerAll, Catalog.register]
  generalize forFiles fill l files = result at filled
  generalize files.foldlM Catalog.fill l.catalog = result' at filled
  cases filled with
  | ok sound => exact shows_forFiles shows_link sound files
  | error => exact .error

/-! ## What registering keeps -/

/-- A property of libraries that each step of registering files keeps. -/
structure Kept (P : Library → Prop) : Prop where
  create {l : Library} (holds : P l) (name : String) (d : Delimiters) :
    P ((l.add (.empty name d)).2.register (l.add (.empty name d)).1)
  define {l l' : Library} (holds : P l) {id : GroupId} {name source : String}
    {formals : List String} {t : Template} (defined : l.define id name formals source = .ok (t, l')) :
    P l'
  addAlias {l : Library} (holds : P l) (id : GroupId) (name target : String) :
    P (l.addAlias id name target)
  setParent {l l' : Library} (holds : P l) {id parent : GroupId} {name : String}
    (known : l.group? name = some parent) (extended : l.setParent id parent = .ok l') : P l'

namespace Kept

variable {P : Library → Prop} (kept : Kept P)
include kept

theorem groupOrCreate (holds : P l) (name : String) (d : Delimiters) :
    P (l.groupOrCreate name d).2 := by
  unfold Library.groupOrCreate
  split
  · exact holds
  · exact kept.create holds name d

theorem defineAll (holds : P l) (id : GroupId) (group : String)
    (templates : List TemplateDeclaration) : P (l.defineAll id group templates).1 := by
  induction templates generalizing l with
  | nil => exact holds
  | cons t rest ih =>
    rw [Library.defineAll]
    split
    · exact holds
    · rename_i defined
      exact ih (kept.define holds defined)

theorem addAliases (holds : P l) (id : GroupId) (aliases : List (String × String)) :
    P (l.addAliases id aliases) := by
  induction aliases generalizing l with
  | nil => exact holds
  | cons entry rest ih => exact ih (kept.addAlias holds id entry.1 entry.2)

theorem fill (holds : P l) (file : GroupFile) : P (l.fill file).1 := by
  have filled := kept.defineAll (kept.groupOrCreate holds file.name file.delimiters)
    (l.groupOrCreate file.name file.delimiters).1 file.name file.templates
  rw [Library.fill]
  dsimp only
  split
  · rename_i same
    rw [same] at filled
    exact kept.addAliases filled _ _
  · rename_i same
    rwa [same] at filled

theorem link (holds : P l) (file : GroupFile) : P (l.link file).1 := by
  unfold Library.link
  split
  · exact holds
  · split
    · exact holds
    · rename_i known
      split
      · exact holds
      · split
        · rename_i extended
          exact kept.setParent holds known extended
        · exact holds

omit kept in
theorem forFiles {step : Library → GroupFile → Loaded}
    (kept_step : ∀ {l : Library}, P l → ∀ file, P (step l file).1) (holds : P l)
    (files : List GroupFile) : P (forFiles step l files).1 := by
  induction files generalizing l with
  | nil => exact holds
  | cons file rest ih =>
    have first := kept_step holds file
    rw [Library.forFiles]
    split
    · rename_i same
      rw [same] at first
      exact ih first
    · rename_i same
      rwa [same] at first

/-- Registering files keeps what its steps keep, also where it fails. -/
theorem registerAll (holds : P l) (files : List GroupFile) : P (l.registerAll files).1 := by
  have filled := forFiles kept.fill holds files
  rw [Library.registerAll]
  split
  · rename_i same
    rw [same] at filled
    exact forFiles kept.link filled files
  · rename_i same
    rwa [same] at filled

end Kept

/-! ## Libraries that come about -/

/-- A library that was made empty and has had groups added, registered and changed since. -/
inductive Built : Library → Prop where
  | empty : Built .empty
  | add {l : Library} (built : Built l) (name : String) (d : Delimiters) :
    Built (l.add (.empty name d)).2
  | register {l : Library} (built : Built l) {id : GroupId} (inside : l.Holds id) :
    Built (l.register id)
  | define {l l' : Library} (built : Built l) {id : GroupId} {name source : String}
    {formals : List String} {t : Template} (defined : l.define id name formals source = .ok (t, l')) :
    Built l'
  | insert {l : Library} (built : Built l) (id : GroupId) (t : Template) : Built (l.insert id t)
  | addAlias {l : Library} (built : Built l) (id : GroupId) (name target : String) :
    Built (l.addAlias id name target)
  | setParent {l l' : Library} (built : Built l) {id parent : GroupId} (inside : l.Holds parent)
    (extended : l.setParent id parent = .ok l') : Built l'
  | clear {l : Library} (built : Built l) : Built l.clear

namespace Built

theorem sound (built : l.Built) : l.Sound := by
  induction built with
  | empty => exact .empty
  | add _ name d ih => exact ih.add name d
  | register _ inside ih => exact ih.register inside
  | define _ defined ih =>
    unfold Library.define Group.define at defined
    split at defined
    · cases defined
    · split at defined
      · cases defined
      · cases defined
        exact ih.set rfl fun _ parent => ih.parents parent
  | insert _ id t ih => exact ih.set rfl fun _ parent => ih.parents parent
  | addAlias _ id name target ih => exact ih.set rfl fun _ parent => ih.parents parent
  | setParent _ inside extended ih =>
    unfold Library.setParent at extended
    dsimp only at extended
    split at extended
    · cases extended
    · cases extended
      exact ih.set rfl fun _ same => Option.some.inj same ▸ inside
  | clear _ ih => exact ih.clear

theorem kept : Kept Built where
  create built name d := (built.add name d).register (holds_add_self _)
  define built _ _ _ _ _ defined := built.define defined
  addAlias := addAlias
  setParent built _ _ _ known extended := built.setParent (built.sound.registered known) extended

/-- Loading files makes a library that was built into another one, also where it fails. -/
theorem registerAll (built : l.Built) (files : List GroupFile) : (l.registerAll files).1.Built :=
  kept.registerAll built files

end Built

/-- Files that can be registered in one order can be registered in any other, and what is registered
afterwards is the same. -/
theorem registerAll_perm {files files' : List GroupFile} (built : l.Built)
    (perm : files.Perm files') (agree : ∀ f ∈ files, ∀ g ∈ files, f.Agree g)
    (registered : (l.registerAll files).2 = .ok ()) :
    (l.registerAll files').2 = .ok () ∧
      (l.registerAll files').1.catalog = (l.registerAll files).1.catalog := by
  have after := (shows_registerAll built.sound files).eq_some registered
  have shows := shows_registerAll built.sound files'
  rw [← Catalog.register_perm perm agree, after] at shows
  exact shows.of_some

/-- A group of two files, one of which makes it extend a group that comes behind. -/
def pages : List GroupFile :=
  [⟨"page", some "base", .dollar, [⟨"title", [], "b"⟩], [("head", "title")]⟩,
    ⟨"page", none, .dollar, [⟨"body", ["x"], "c"⟩], [("head", "title")]⟩,
    ⟨"base", none, .angle, [⟨"title", [], "a"⟩], []⟩]

/-- In both orders the page extends its base, with the templates and the alias of both its files. -/
theorem reversed_pages_register : (Library.empty.registerAll pages).2 = .ok () ∧
    (Library.empty.registerAll pages.reverse).2 = .ok () ∧
    (Library.empty.registerAll pages.reverse).1.catalog =
      (Library.empty.registerAll pages).1.catalog ∧
    ((Library.empty.registerAll pages.reverse).1.catalog "page").map (fun v =>
        (v.parent?, v.alias? "head", (v.template? "title").isSome, (v.template? "body").isSome)) =
      some (some "base", some "title", true, true) := by
  have registered : (Library.empty.registerAll pages).2 = .ok () := by decide +kernel
  have agree : ∀ f ∈ pages, ∀ g ∈ pages, f.Agree g := by decide
  obtain ⟨reversed, same⟩ :=
    registerAll_perm .empty (List.reverse_perm pages).symm agree registered
  exact ⟨registered, reversed, same, by decide +kernel⟩

end Library
end Stencil
