import Stencil.Markup.Standard
import Stencil.Proofs.Loading.Library
/-!
# What loading leaves

Loading adds to a library and takes nothing away, so that what one file has brought in is there when
the last file has been registered: the group of each file with the templates that it declares, and
the group that it extends. A group keeps the delimiters that it was made with. The templates of a
file are compiled with those, whatever delimiters the file itself declares.
-/
namespace Stencil

/-- The group `h` is `g` with more templates, with other aliases, or with a parent that `g` does not
have. -/
structure Group.Grows (g h : Group) : Prop where
  name : h.name = g.name
  delimiters : h.delimiters = g.delimiters
  template {name : String} {t : Template} :
    g.templates.find? name = some t → h.templates.find? name = some t
  parent {parent : GroupId} : g.parent? = some parent → h.parent? = some parent

/-- The group has a template of its own for a declaration, compiled with the group's delimiters. -/
def Group.Declares (g : Group) (t : TemplateDeclaration) : Prop :=
  ∃ compiled, Template.compile g.delimiters t.name t.body = .ok compiled ∧
    g.templates.find? t.name = some ((compiled.withFormals t.formals).inGroup g.name)

namespace Group

variable {g h k : Group} {t : TemplateDeclaration}

theorem Grows.refl (g : Group) : g.Grows g := ⟨rfl, rfl, id, id⟩

theorem Grows.trans (first : g.Grows h) (second : h.Grows k) : g.Grows k where
  name := second.name.trans first.name
  delimiters := second.delimiters.trans first.delimiters
  template found := second.template (first.template found)
  parent extended := second.parent (first.parent extended)

theorem Grows.declares (grows : g.Grows h) (declares : g.Declares t) : h.Declares t := by
  obtain ⟨compiled, compiles, found⟩ := declares
  refine ⟨compiled, ?_, ?_⟩
  · rw [grows.delimiters]
    exact compiles
  · rw [grows.name]
    exact grows.template found

theorem grows_withAlias (g : Group) (name target : String) : g.Grows (g.withAlias name target) :=
  ⟨rfl, rfl, id, id⟩

/-- A definition takes a name that is free. -/
theorem define_ok {u : Template} (defined : g.define t.name t.formals t.body = .ok (u, h)) :
    g.Grows h ∧ h.Declares t := by
  unfold define at defined
  split at defined
  · cases defined
  · rename_i free
    split at defined
    · cases defined
    · rename_i compiled compiles
      cases defined
      have own : compiled.name = t.name := Template.name_of_compile compiles
      have found (name : String) :
          (g.insert ((compiled.withFormals t.formals).inGroup g.name)).templates.find? name =
            if name = t.name then some ((compiled.withFormals t.formals).inGroup g.name)
            else g.templates.find? name := by
        rw [insert, Table.find?_insert]
        exact own ▸ rfl
      refine ⟨⟨rfl, rfl, fun {name u} old => ?_, id⟩, compiled, compiles, ?_⟩
      · rw [found, if_neg]
        · exact old
        · rintro rfl
          simp [Table.contains, old] at free
      · rw [found, if_pos rfl]
        rfl

end Group

namespace Library

/-- The library `l'` has all places and registrations of `l`, and its groups have grown. -/
structure Grows (l l' : Library) : Prop where
  holds {id : GroupId} : l.Holds id → l'.Holds id
  registered {name : String} {id : GroupId} : l.group? name = some id → l'.group? name = some id
  group {id : GroupId} : l.Holds id → (l.get id).Grows (l'.get id)

variable {l l' l'' : Library} {id parent : GroupId} {g : Group} {name : String}

theorem Grows.refl (l : Library) : l.Grows l := ⟨id, id, fun _ => .refl _⟩

theorem Grows.trans (first : l.Grows l') (second : l'.Grows l'') : l.Grows l'' where
  holds inside := second.holds (first.holds inside)
  registered found := second.registered (first.registered found)
  group inside := (first.group inside).trans (second.group (first.holds inside))

theorem grows_set (grows : (l.get id).Grows g) : l.Grows (l.set id g) where
  holds := holds_set.2
  registered found := found
  group {other} inside := by
    by_cases same : other = id
    · rw [same, get_set_self (same ▸ inside)]
      exact grows
    · rw [get_set_of_ne same]
      exact .refl _

/-! ## Filling -/

theorem define_ok {t : TemplateDeclaration} {u : Template} (inside : l.Holds id)
    (defined : l.define id t.name t.formals t.body = .ok (u, l')) :
    l.Grows l' ∧ (l'.get id).Declares t := by
  unfold define at defined
  rcases result : (l.get id).define t.name t.formals t.body with e | ⟨v, g⟩
  · rw [result] at defined
    cases defined
  · rw [result] at defined
    cases defined
    obtain ⟨grows, declares⟩ := Group.define_ok result
    refine ⟨grows_set grows, ?_⟩
    rw [get_set_self inside]
    exact declares

theorem defineAll_ok {group : String} {templates : List TemplateDeclaration} (inside : l.Holds id)
    (defined : l.defineAll id group templates = (l', .ok ())) :
    l.Grows l' ∧ ∀ t ∈ templates, (l'.get id).Declares t := by
  induction templates generalizing l with
  | nil =>
    cases defined
    exact ⟨.refl _, fun _ member => absurd member List.not_mem_nil⟩
  | cons t rest ih =>
    rw [defineAll] at defined
    split at defined
    · cases defined
    · rename_i first
      obtain ⟨grows, declares⟩ := define_ok inside first
      obtain ⟨grows', others⟩ := ih (grows.holds inside) defined
      refine ⟨grows.trans grows', ?_⟩
      intro other member
      rcases List.mem_cons.1 member with rfl | member
      · exact (grows'.group (grows.holds inside)).declares declares
      · exact others other member

theorem grows_addAliases (l : Library) (id : GroupId) (aliases : List (String × String)) :
    l.Grows (l.addAliases id aliases) := by
  induction aliases generalizing l with
  | nil => exact .refl l
  | cons entry rest ih => exact (grows_set (Group.grows_withAlias _ _ _)).trans (ih _)

/-- What is new in a library has a place of its own and a name that was free. -/
theorem grows_groupOrCreate (sound : l.Sound) (name : String) (d : Delimiters) :
    ∃ id l', l.groupOrCreate name d = (id, l') ∧ l.Grows l' ∧ l'.Holds id ∧
      l'.group? name = some id := by
  unfold groupOrCreate
  cases known : l.group? name with
  | some id => exact ⟨id, l, rfl, .refl l, sound.registered known, known⟩
  | none =>
    let new := (l.add (.empty name d)).1
    let l' := (l.add (.empty name d)).2.register new
    have named : ((l.add (.empty name d)).2.get new).name = name := by
      rw [get_add_self]
      rfl
    have registered (other : String) :
        l'.group? other = if other = name then some new else l.group? other := by
      simp only [l', group?, register, Table.find?_insert, named]
      rfl
    refine ⟨new, l', rfl, ⟨fun inside => inside.add _, ?_, ?_⟩, holds_add_self _, ?_⟩
    · intro other id found
      rw [registered, if_neg]
      · exact found
      · rintro rfl
        rw [known] at found
        cases found
    · intro other inside
      have kept : l'.get other = l.get other := get_add_of_holds inside _
      rw [kept]
      exact .refl _
    · rw [registered, if_pos rfl]

/-- The group of a file is registered and has the templates that the file declares. -/
def Filled (l : Library) (file : GroupFile) : Prop :=
  ∃ id, l.group? file.name = some id ∧ l.Holds id ∧
    ∀ t ∈ file.templates, (l.get id).Declares t

variable {file : GroupFile}

theorem Filled.grow (grows : l.Grows l') (filled : l.Filled file) : l'.Filled file := by
  obtain ⟨id, found, inside, declares⟩ := filled
  refine ⟨id, grows.registered found, grows.holds inside, ?_⟩
  intro t member
  exact (grows.group inside).declares (declares t member)

theorem fill_ok (sound : l.Sound) (filled : l.fill file = (l', .ok ())) :
    l.Grows l' ∧ l'.Filled file := by
  obtain ⟨id, l₁, made, grows, inside, found⟩ :=
    grows_groupOrCreate sound file.name file.delimiters
  rw [fill, made] at filled
  dsimp only at filled
  split at filled
  · rename_i l₂ defined
    cases filled
    obtain ⟨grows', declares⟩ := defineAll_ok inside defined
    have aliased := grows_addAliases l₂ id file.aliases
    have behind := grows'.trans aliased
    refine ⟨grows.trans behind, id, behind.registered found, behind.holds inside, ?_⟩
    intro t member
    exact (aliased.group (grows'.holds inside)).declares (declares t member)
  · cases filled

/-! ## Linking -/

/-- The group of a file extends the group that is registered under the name that the file gives. -/
def Linked (l : Library) (file : GroupFile) : Prop :=
  ∀ parentName, file.extends? = some parentName → ∃ id parent,
    l.group? file.name = some id ∧ l.Holds id ∧ l.group? parentName = some parent ∧
      (l.get id).parent? = some parent

theorem Linked.grow (grows : l.Grows l') (linked : l.Linked file) : l'.Linked file := by
  intro parentName named
  obtain ⟨id, parent, found, inside, known, extended⟩ := linked parentName named
  exact ⟨id, parent, grows.registered found, grows.holds inside, grows.registered known,
    (grows.group inside).parent extended⟩

/-- A group whose parent is set had none. -/
theorem setParent_ok (inside : l.Holds id) (extended : l.setParent id parent = .ok l') :
    l.Grows l' ∧ (l'.get id).parent? = some parent := by
  unfold setParent at extended
  dsimp only at extended
  split at extended
  · cases extended
  · rename_i orphan
    cases extended
    refine ⟨grows_set ⟨rfl, rfl, fun found => found, ?_⟩, ?_⟩
    · intro other found
      rw [orphan] at found
      cases found
    · rw [get_set_self inside]

theorem link_ok (filled : l.Filled file)
    (linked : l.link file = (l', .ok ())) : l.Grows l' ∧ l'.Linked file := by
  obtain ⟨id, found, inside, -⟩ := filled
  unfold link at linked
  split at linked
  · rename_i alone
    cases linked
    exact ⟨.refl l, fun parentName named => by rw [alone] at named; cases named⟩
  · rename_i parentName named
    split at linked
    · cases linked
    · rename_i parent known
      rw [found] at linked
      dsimp only at linked
      split at linked
      · rename_i extended
        cases linked
        obtain ⟨grows, parent_eq⟩ := setParent_ok inside extended
        refine ⟨grows, fun name same => ?_⟩
        obtain rfl := Option.some.inj (named.symm.trans same)
        exact ⟨id, parent, grows.registered found, grows.holds inside, grows.registered known,
          parent_eq⟩
      · cases linked

/-! ## All files -/

/-- What each file brings about in turn is there at the end, if it lasts while the library grows. -/
theorem forFiles_ok {step : Library → GroupFile → Loaded} {P Q : Library → GroupFile → Prop}
    (lasting : ∀ {l l' : Library} {file}, l.Grows l' → P l file → P l' file)
    (lasting' : ∀ {l l' : Library} {file}, l.Grows l' → Q l file → Q l' file)
    (each : ∀ {l l' : Library} {file}, l.Built → P l file → step l file = (l', .ok ()) →
      l'.Built ∧ l.Grows l' ∧ Q l' file)
    {files : List GroupFile} (built : l.Built) (before : ∀ file ∈ files, P l file)
    (done : forFiles step l files = (l', .ok ())) :
    l'.Built ∧ l.Grows l' ∧ ∀ file ∈ files, Q l' file := by
  induction files generalizing l with
  | nil =>
    cases done
    exact ⟨built, .refl _, fun _ member => absurd member List.not_mem_nil⟩
  | cons file rest ih =>
    rw [forFiles] at done
    split at done
    · rename_i l₁ first
      obtain ⟨built₁, grows, brought⟩ := each built (before file List.mem_cons_self) first
      obtain ⟨built', grows', others⟩ := ih built₁
        (fun other member => lasting grows (before other (List.mem_cons_of_mem file member))) done
      refine ⟨built', grows.trans grows', ?_⟩
      intro other member
      rcases List.mem_cons.1 member with rfl | member
      · exact lasting' grows' brought
      · exact others other member
    · cases done

theorem registerAll_ok {files : List GroupFile} (built : l.Built)
    (registered : l.registerAll files = (l', .ok ())) :
    ∀ file ∈ files, l'.Filled file ∧ l'.Linked file := by
  rw [registerAll] at registered
  split at registered
  · rename_i l₁ filling
    obtain ⟨built₁, -, filled⟩ := forFiles_ok (P := fun _ _ => True) (Q := Filled) (fun _ _ => trivial)
      Filled.grow (fun {l l₂ file} built _ done => by
        have after := Built.kept.fill built file
        rw [done] at after
        exact ⟨after, fill_ok built.sound done⟩) built (fun _ _ => trivial) filling
    obtain ⟨-, grows, linked⟩ := forFiles_ok (P := Filled) (Q := Linked) Filled.grow Linked.grow
      (fun {l l₂ file} built filled done => by
        have after := Built.kept.link built file
        rw [done] at after
        exact ⟨after, link_ok filled done⟩) built₁ filled registered
    exact fun file member => ⟨(filled file member).grow grows, linked file member⟩
  · cases registered

end Library

/-! ## Delimiters -/

theorem GroupView.delimiters_define {group : String} {v w : GroupView} {t : TemplateDeclaration}
    (defined : v.define group t = some w) : w.delimiters = v.delimiters := by
  unfold define at defined
  split at defined
  · cases defined
  · obtain ⟨u, -, rfl⟩ := Option.map_eq_some_iff.1 defined
    rfl

theorem GroupView.delimiters_fill {group : String} {v w : GroupView} {file : GroupFile}
    (filled : v.fill group file = some w) : w.delimiters = v.delimiters := by
  have defining {templates : List TemplateDeclaration} {v w : GroupView}
      (defined : templates.foldlM (define group) v = some w) : w.delimiters = v.delimiters := by
    induction templates generalizing v with
    | nil =>
      cases defined
      rfl
    | cons t rest ih =>
      obtain ⟨u, first, others⟩ := Option.bind_eq_some_iff.1 defined
      exact (ih others).trans (delimiters_define first)
  have aliasing (v : GroupView) (aliases : List (String × String)) :
      (aliases.foldl withAlias v).delimiters = v.delimiters := by
    induction aliases generalizing v with
    | nil => rfl
    | cons entry rest ih => exact ih (v.withAlias entry)
  obtain ⟨u, defined, rfl⟩ := Option.map_eq_some_iff.1 filled
  rw [aliasing, defining defined]

/-- What the first file of a group declares. -/
def GroupFile.delimitersOf? (files : List GroupFile) (group : String) : Option Delimiters :=
  (files.find? fun file => file.name = group).map GroupFile.delimiters

/-- A file declares what the first file of its group does, if all files of the group agree. -/
theorem GroupFile.delimitersOf?_eq {files : List GroupFile} {file : GroupFile} (member : file ∈ files)
    (agree : ∀ f ∈ files, f.name = file.name → f.delimiters = file.delimiters) :
    delimitersOf? files file.name = some file.delimiters := by
  unfold delimitersOf?
  cases found : files.find? fun f => f.name = file.name with
  | none => simpa using List.find?_eq_none.1 found file member
  | some first =>
    have named : first.name = file.name := by simpa using List.find?_some found
    rw [Option.map_some, agree first (List.mem_of_find?_eq_some found) named]

namespace Catalog

variable {c after : Catalog} {file : GroupFile}

/-- The delimiters of the group that is registered under a name. -/
def delimiters? (c : Catalog) (name : String) : Option Delimiters :=
  (c name).map GroupView.delimiters

theorem delimiters?_fill (filled : c.fill file = some after) (name : String) :
    after.delimiters? name = (c.delimiters? name).or (GroupFile.delimitersOf? [file] name) := by
  obtain ⟨w, filling, rfl⟩ := Option.map_eq_some_iff.1 filled
  have kept := GroupView.delimiters_fill filling
  by_cases same : file.name = name
  · subst same
    rw [delimiters?, put_self, Option.map_some, kept, delimiters?]
    cases c file.name <;> simp [GroupFile.delimitersOf?, GroupView.empty]
  · rw [delimiters?, put_of_ne (Ne.symm same), delimiters?]
    simp [GroupFile.delimitersOf?, same]

theorem delimiters?_link (linked : c.link file = some after) :
    after.delimiters? = c.delimiters? := by
  funext name
  unfold link at linked
  split at linked
  · rw [Option.some.inj linked]
  · split at linked
    · cases linked
    · unfold extend at linked
      split at linked
      · rw [Option.some.inj linked]
      · rename_i v found
        split at linked
        · cases linked
        · obtain rfl := Option.some.inj linked
          by_cases same : name = file.name
          · subst same
            rw [delimiters?, put_self, delimiters?, found]
            rfl
          · rw [delimiters?, put_of_ne same, delimiters?]

theorem delimiters?_register {files : List GroupFile} (registered : c.register files = some after)
    (name : String) :
    after.delimiters? name = (c.delimiters? name).or (GroupFile.delimitersOf? files name) := by
  obtain ⟨filled, filling, linking⟩ := Option.bind_eq_some_iff.1 registered
  have linked {files : List GroupFile} {c after : Catalog}
      (linking : files.foldlM link c = some after) : after.delimiters? = c.delimiters? := by
    induction files generalizing c with
    | nil =>
      cases linking
      rfl
    | cons file rest ih =>
      obtain ⟨next, first, others⟩ := Option.bind_eq_some_iff.1 linking
      rw [ih others, delimiters?_link first]
  rw [linked linking]
  clear linking registered
  induction files generalizing c with
  | nil =>
    cases filling
    simp [GroupFile.delimitersOf?]
  | cons file rest ih =>
    obtain ⟨next, first, others⟩ := Option.bind_eq_some_iff.1 filling
    rw [ih others, delimiters?_fill first, Option.or_assoc]
    congr 1
    by_cases same : file.name = name <;> simp [GroupFile.delimitersOf?, same]

end Catalog

namespace Library

/-- A library that has read and registered group files holds, for each of them, the group of its name
with all templates that it declares and with the parent that it names. The templates are compiled
with the delimiters of the group: those that it had before, or else those that the first file of the
group declares. -/
theorem loadSources_leaves [Markup.Reader] {l : Library} (built : l.Built)
    {sources : List (String × String)} (loaded : (l.loadSources sources).2 = .ok ()) :
    let l' := (l.loadSources sources).1
    ∃ files, GroupFile.parseAll sources = .ok files ∧ ∀ file ∈ files, ∃ id,
      l'.group? file.name = some id ∧ (l'.get id).name = file.name ∧
      (∀ t ∈ file.templates, (l'.get id).Declares t) ∧
      (∀ parentName, file.extends? = some parentName → ∃ parent,
        l'.group? parentName = some parent ∧ (l'.get id).parent? = some parent) ∧
      some (l'.get id).delimiters =
        (l.catalog.delimiters? file.name).or (GroupFile.delimitersOf? files file.name) ∧
      ((∀ d, l.catalog.delimiters? file.name = some d → d = file.delimiters) →
        (∀ f ∈ files, f.name = file.name → f.delimiters = file.delimiters) →
        (l'.get id).delimiters = file.delimiters) := by
  intro l'
  obtain ⟨files, parsed, registered⟩ : ∃ files, GroupFile.parseAll sources = .ok files ∧
      l.registerAll files = (l', .ok ()) := by
    rw [← loaded]
    simp only [l', loadSources] at loaded ⊢
    cases parsed : GroupFile.parseAll sources with
    | error e =>
      rw [parsed] at loaded
      cases loaded
    | ok files => exact ⟨files, rfl, rfl⟩
  have sound : l'.Sound := by
    have after := built.registerAll files
    rw [registered] at after
    exact after.sound
  refine ⟨files, parsed, fun file member => ?_⟩
  obtain ⟨⟨id, found, inside, declares⟩, linked⟩ := registerAll_ok built registered file member
  have settled : some (l'.get id).delimiters =
      (l.catalog.delimiters? file.name).or (GroupFile.delimitersOf? files file.name) := by
    have shows := shows_registerAll built.sound files
    rw [registered] at shows
    rw [← Catalog.delimiters?_register (shows.eq_some rfl), Catalog.delimiters?,
      catalog_of_group? found]
    rfl
  refine ⟨id, found, sound.named found, declares, ?_, settled, ?_⟩
  · intro parentName named
    obtain ⟨id', parent, found', -, known, extended⟩ := linked parentName named
    obtain rfl := Option.some.inj (found.symm.trans found')
    exact ⟨parent, known, extended⟩
  · intro before agree
    rw [GroupFile.delimitersOf?_eq member agree] at settled
    cases old : l.catalog.delimiters? file.name with
    | none => simpa [old] using settled
    | some d => simpa [old, before d old] using settled

/-- A page in two files, the second of which declares other delimiters than the first. -/
def splitPage : List GroupFile :=
  [⟨"page", some "base", .dollar, [⟨"head", [], "a"⟩], []⟩,
    ⟨"page", none, .angle, [⟨"row", ["x"], "a<x>"⟩], []⟩, ⟨"base", none, .dollar, [], []⟩]

def splitSources : List (String × String) :=
  [("a.xml", "<group name='page' extends='base'><template name='head'>a</template></group>"),
    ("b.xml", "<group name='page' delimiters='angle'>" ++
      "<template name='row' args='x'>a&lt;x></template></group>"),
    ("c.xml", "<group name='base'></group>")]

theorem parseAll_splitSources : GroupFile.parseAll splitSources = .ok splitPage := by
  decide +kernel

theorem loadSources_splitSources :
    Library.empty.loadSources splitSources = Library.empty.registerAll splitPage := by
  rw [loadSources, parseAll_splitSources]

theorem splitPage_left :
    let l' := (Library.empty.loadSources splitSources).1
    (Library.empty.loadSources splitSources).2 = .ok () ∧
      ∃ id parent, l'.group? "page" = some id ∧ (l'.get id).delimiters = .dollar ∧
        (l'.get id).Declares ⟨"row", ["x"], "a<x>"⟩ ∧
        l'.group? "base" = some parent ∧ (l'.get id).parent? = some parent := by
  intro l'
  have loaded : (Library.empty.loadSources splitSources).2 = .ok () := by
    rw [loadSources_splitSources]
    decide +kernel
  obtain ⟨files, parsed, left⟩ := loadSources_leaves .empty loaded
  obtain rfl := Except.ok.inj (parseAll_splitSources.symm.trans parsed)
  obtain ⟨id, found, -, -, extended, delimiters, -⟩ := left splitPage[0] (by decide)
  obtain ⟨id', found', -, declares, -⟩ := left splitPage[1] (by decide)
  obtain rfl := Option.some.inj (found.symm.trans found')
  obtain ⟨parent, known, parent_eq⟩ := extended "base" rfl
  exact ⟨loaded, id, parent, found, Option.some.inj (delimiters.trans (by decide)),
    declares _ (by decide), known, parent_eq⟩

/-- The template of the second file is not what its source means with the delimiters of that file:
it writes the source. -/
theorem declared_delimiters_ignored :
    let l' := (Library.empty.loadSources splitSources).1
    (Library.empty.loadSources splitSources).2 = .ok () ∧
      (∃ files, GroupFile.parseAll splitSources = .ok files ∧
        ⟨"page", none, .angle, [⟨"row", ["x"], "a<x>"⟩], []⟩ ∈ files) ∧
      ∀ id, l'.group? "page" = some id →
        ¬ ∃ compiled, Template.compile .angle "row" "a<x>" = .ok compiled ∧
          (l'.get id).templates.find? "row" =
            some ((compiled.withFormals ["x"]).inGroup "page") := by
  intro l'
  have same : l' = (Library.empty.registerAll splitPage).1 := by
    rw [← loadSources_splitSources]
  refine ⟨?_, ⟨splitPage, parseAll_splitSources, by decide⟩, ?_⟩
  · rw [loadSources_splitSources]
    decide +kernel
  · rw [same]
    rintro id found ⟨compiled, compiles, own⟩
    have place : (Library.empty.registerAll splitPage).1.group? "page" = some ⟨0⟩ := by
      decide +kernel
    obtain rfl := Option.some.inj (place.symm.trans found)
    -- The source is one literal to the group, and a literal and an expression to its file.
    have one : (((Library.empty.registerAll splitPage).1.get ⟨0⟩).templates.find? "row").map
        (·.chunks.length) = some 1 := by decide +kernel
    have two : (Template.compile .angle "row" "a<x>").toOption.map (·.chunks.length) =
        some 2 := by decide +kernel
    rw [own, Option.map_some] at one
    rw [compiles, Except.toOption, Option.map_some] at two
    exact absurd (two.symm.trans one) (by decide)

end Library
end Stencil
