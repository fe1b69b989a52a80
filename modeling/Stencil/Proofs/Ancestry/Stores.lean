import Stencil.Proofs.Ancestry.Aliases
/-!
# Groups under requests

What may be asked of a library about its groups: to define or insert a template, to add an alias, to
make a group extend another one. A request that is refused changes nothing. Whatever has been asked,
every group has its templates under their own names and marked with its own, so that what a lookup
finds tells where it was found.
-/
namespace Stencil

/-- Own templates stand under their own names and are marked with the name of the group. -/
def Group.Marked (g : Group) : Prop :=
  ∀ key t, g.templates.find? key = some t → t.name = key ∧ t.group = some g.name

theorem Group.Marked.empty (name : String) (d : Delimiters) : (Group.empty name d).Marked := nofun

theorem Group.Marked.insert {g : Group} (marked : g.Marked) (t : Template) :
    (g.insert t).Marked := by
  intro key u found
  simp only [Group.insert, Table.find?_insert] at found
  split at found
  · rename_i own
    cases found
    exact ⟨own.symm, rfl⟩
  · exact marked key u found

/-- A definition fails if the name is taken, or else if the source has an error. -/
theorem Group.define_eq_error_iff {g : Group} {name source : String} {formals : List String}
    {e : TemplateError} : g.define name formals source = .error e ↔
      (g.templates.find? name).isSome ∧ .groupRefused (.alreadyDefined name g.name) = e ∨
      g.templates.find? name = none ∧ Template.compile g.delimiters name source = .error e := by
  unfold define Table.contains
  cases g.templates.find? name with
  | some t => simp
  | none =>
    cases Template.compile g.delimiters name source with
    | ok t => simp
    | error e' => simp

namespace Library

variable {l l' : Library} {id : GroupId} {g : Group}

/-- The templates of all groups are marked. -/
def Marked (l : Library) : Prop := ∀ id, (l.get id).Marked

theorem Marked.set (marked : l.Marked) (own : g.Marked) : (l.set id g).Marked := by
  intro other
  by_cases inside : l.Holds id
  · by_cases same : other = id
    · rw [same, get_set_self inside]
      exact own
    · rw [get_set_of_ne same]
      exact marked other
  · rw [set_of_not_holds inside]
    exact marked other

theorem Marked.add (marked : l.Marked) (name : String) (d : Delimiters) :
    (l.add (.empty name d)).2.Marked := by
  intro other
  by_cases inside : l.Holds other
  · rw [get_add_of_holds inside]
    exact marked other
  · rcases get_add_of_not_holds inside (.empty name d) with new | none
    · rw [new]
      exact .empty name d
    · rw [none]
      exact .empty "" .dollar

/-- A library that was built has its templates marked. -/
theorem Built.marked (built : l.Built) : l.Marked := by
  induction built with
  | empty => exact fun _ => .empty "" .dollar
  | add _ name d ih => exact ih.add name d
  | register _ _ ih => exact ih
  | @define _ _ _ id _ _ _ _ defined ih =>
    unfold Library.define Group.define at defined
    split at defined
    · cases defined
    · split at defined
      · cases defined
      · cases defined
        exact ih.set ((ih id).insert _)
  | insert _ id t ih => exact ih.set ((ih id).insert t)
  | addAlias _ id _ _ ih => exact ih.set (ih id)
  | @setParent _ _ _ id _ _ extended ih =>
    unfold Library.setParent at extended
    dsimp only at extended
    split at extended
    · cases extended
    · cases extended
      exact ih.set (ih id)
  | clear _ ih => exact ih

/-! ## Requests -/

inductive Request where
  | define (id : GroupId) (name : String) (formals : List String) (source : String)
  | insert (id : GroupId) (t : Template)
  | addAlias (id : GroupId) (name target : String)
  | setParent (id parent : GroupId)

/-- The request is about groups of the library. -/
def Request.Known (l : Library) : Request → Prop
  | define id _ _ _ => l.Holds id
  | insert id _ => l.Holds id
  | addAlias id _ _ => l.Holds id
  | setParent id parent => l.Holds id ∧ l.Holds parent

/-- Why a request is refused: a group has a template of the name, the source of a new one has an
error, or the group extends another one already. -/
inductive Request.Refused (l : Library) : Request → TemplateError → Prop
  | taken {id : GroupId} {name source : String} {formals : List String}
    (taken : ((l.get id).templates.find? name).isSome) :
    Refused l (.define id name formals source)
      (.groupRefused (.alreadyDefined name (l.get id).name))
  | faulty {id : GroupId} {name source : String} {formals : List String} {e : TemplateError}
    (free : (l.get id).templates.find? name = none)
    (faulty : Template.compile (l.get id).delimiters name source = .error e) :
    Refused l (.define id name formals source) e
  | extended {id parent old : GroupId} (extended : l.Extends id old) :
    Refused l (.setParent id parent)
      (.groupRefused (.alreadyExtends (l.get id).name (l.get parent).name))

/-- What a library becomes when something is asked of it, and how the request ends. -/
def answer (l : Library) : Request → Library × Except TemplateError Unit
  | .define id name formals source =>
    match l.define id name formals source with
    | .ok (_, l') => (l', .ok ())
    | .error e => (l, .error e)
  | .insert id t => (l.insert id t, .ok ())
  | .addAlias id name target => (l.addAlias id name target, .ok ())
  | .setParent id parent =>
    match l.setParent id parent with
    | .ok l' => (l', .ok ())
    | .error e => (l, .error e)

/-- The library after a request, be it carried out or not. -/
def serve (l : Library) (r : Request) : Library := (l.answer r).1

def serveAll (l : Library) (requests : List Request) : Library := requests.foldl serve l

theorem answer_define_eq_error_iff {name source : String} {formals : List String}
    {e : TemplateError} : (l.answer (.define id name formals source)).2 = .error e ↔
      (l.get id).define name formals source = .error e := by
  rw [answer, define]
  cases (l.get id).define name formals source with
  | ok => exact ⟨nofun, nofun⟩
  | error => simp [Except.map]

theorem answer_eq_error_iff {r : Request} {e : TemplateError} :
    (l.answer r).2 = .error e ↔ r.Refused l e := by
  constructor
  · intro refused
    cases r with
    | define id name formals source =>
      rcases Group.define_eq_error_iff.1 (answer_define_eq_error_iff.1 refused) with
        ⟨taken, rfl⟩ | ⟨free, faulty⟩
      · exact .taken taken
      · exact .faulty free faulty
    | insert => cases refused
    | addAlias => cases refused
    | setParent id parent =>
      rw [answer, Library.setParent] at refused
      cases extended : (l.get id).parent? with
      | none =>
        rw [extended] at refused
        cases refused
      | some old =>
        rw [extended] at refused
        cases refused
        exact .extended extended
  · intro refused
    cases refused with
    | taken taken =>
      exact answer_define_eq_error_iff.2 (Group.define_eq_error_iff.2 (.inl ⟨taken, rfl⟩))
    | faulty free faulty =>
      exact answer_define_eq_error_iff.2 (Group.define_eq_error_iff.2 (.inr ⟨free, faulty⟩))
    | extended extended =>
      rw [answer, Library.setParent, show (l.get _).parent? = some _ from extended]

/-- A request that is refused leaves the library as it was. -/
theorem serve_of_refused {r : Request} {e : TemplateError}
    (refused : (l.answer r).2 = .error e) : l.serve r = l := by
  unfold serve
  cases r with
  | define id name formals source =>
    rw [answer] at refused ⊢
    cases defined : l.define id name formals source with
    | error => rfl
    | ok => simp [defined] at refused
  | insert => cases refused
  | addAlias => cases refused
  | setParent id parent =>
    rw [answer] at refused ⊢
    cases extended : l.setParent id parent with
    | error => rfl
    | ok => simp [extended] at refused

/-- No request gives out a place or takes one back. -/
theorem length_groups_serve (l : Library) (r : Request) :
    (l.serve r).groups.length = l.groups.length := by
  unfold serve
  cases r with
  | define id name formals source =>
    rw [answer, define]
    cases (l.get id).define name formals source with
    | error => rfl
    | ok => exact List.length_set
  | insert => exact List.length_set
  | addAlias => exact List.length_set
  | setParent id parent =>
    rw [answer, Library.setParent]
    cases (l.get id).parent? with
    | some => rfl
    | none => exact List.length_set

theorem holds_serve (l : Library) (r : Request) (id : GroupId) :
    (l.serve r).Holds id ↔ l.Holds id := by
  rw [Holds, length_groups_serve, Holds]

theorem Request.Known.serve {r s : Request} (known : s.Known l) : s.Known (l.serve r) := by
  cases s with
  | define => exact (holds_serve l r _).2 known
  | insert => exact (holds_serve l r _).2 known
  | addAlias => exact (holds_serve l r _).2 known
  | setParent => exact ⟨(holds_serve l r _).2 known.1, (holds_serve l r _).2 known.2⟩

theorem Built.serve (built : l.Built) {r : Request} (known : r.Known l) : (l.serve r).Built := by
  unfold Library.serve
  cases r with
  | define id name formals source =>
    rw [answer]
    cases defined : l.define id name formals source with
    | error => exact built
    | ok => exact built.define defined
  | insert id t => exact built.insert id t
  | addAlias id name target => exact built.addAlias id name target
  | setParent id parent =>
    rw [answer]
    cases extended : l.setParent id parent with
    | error => exact built
    | ok => exact built.setParent known.2 extended

theorem Built.serveAll (built : l.Built) {requests : List Request}
    (known : ∀ r ∈ requests, r.Known l) : (l.serveAll requests).Built := by
  induction requests generalizing l with
  | nil => exact built
  | cons r rest ih =>
    obtain ⟨first, others⟩ := List.forall_mem_cons.1 known
    exact ih (built.serve first) fun s member => (others s member).serve

/-! ## What lookups find -/

/-- What a lookup finds is a template that a group of the chain has now. -/
theorem Marked.of_lookup (marked : l.Marked) {above : List GroupId}
    (ancestry : l.Ancestry (id :: above)) {name : String} {t : Template}
    (found : l.lookup id name = some t) :
    ∃ h ∈ id :: above, (l.get h).templates.find? t.name = some t ∧
      t.group = some (l.get h).name ∧
      (t.name = name ∨ ∃ k ∈ id :: above, ∃ other, (l.get k).aliases.find? other = some t.name) := by
  rw [lookup_eq ancestry] at found
  obtain ⟨start, key, leads, g, member, stored⟩ := Lineage.exists_leads_of_lookup found
  obtain ⟨h, inChain, rfl⟩ := List.mem_map.1 (leads.suffix.subset member)
  obtain ⟨rfl, group⟩ := marked h key t stored
  refine ⟨h, inChain, stored, group, ?_⟩
  rcases leads.eq_or_target with same | ⟨g, member, other, entry⟩
  · exact .inl same
  · obtain ⟨k, inChain', rfl⟩ := List.mem_map.1 member
    exact .inr ⟨k, inChain', other, entry⟩

/-- Requests keep the groups of a library consistent, as long as no group becomes its own ancestor:
what is found is the current template of a group of the chain, under its own name and marked with
that group's, and the name is the one asked for or what an alias of the chain stands for. Own
templates come first, then what aliases stand for, then what is inherited. A request that is
refused leaves everything as it was. -/
theorem groups_stay_consistent (built : l.Built) {requests : List Request}
    (known : ∀ r ∈ requests, r.Known l) :
    let after := l.serveAll requests
    after.Acyclic →
      (∀ id, after.Holds id → ∃ above, after.Ancestry (id :: above) ∧ ∀ name,
        (∀ t, after.lookup id name = some t →
          ∃ h ∈ id :: above, (after.get h).templates.find? t.name = some t ∧
            t.group = some (after.get h).name ∧
            (t.name = name ∨
              ∃ k ∈ id :: above, ∃ other, (after.get k).aliases.find? other = some t.name)) ∧
        after.lookup id name =
          ((after.get id).templates.find? name <|>
            (((after.get id).aliases.find? name).bind fun target =>
              (after.get id).templates.find? target <|> after.inherited id target) <|>
            after.inherited id name)) ∧
      ∀ r e, ((after.answer r).2 = .error e ↔ r.Refused after e) ∧
        ((after.answer r).2 = .error e → after.serve r = after) := by
  intro after acyclic
  have built' : after.Built := built.serveAll known
  refine ⟨fun id inside => ?_, fun r e => ⟨answer_eq_error_iff, serve_of_refused⟩⟩
  obtain ⟨above, ancestry⟩ := built'.sound.exists_ancestry acyclic inside
  exact ⟨above, ancestry, fun name =>
    ⟨fun t found => built'.marked.of_lookup ancestry found, lookup_unfold ancestry name⟩⟩

namespace Request

def base : GroupId := ⟨0⟩

def page : GroupId := ⟨1⟩

/-- Two groups without templates, both registered. -/
def groups : Library :=
  let (base, l) := Library.empty.add (.empty "base" .dollar)
  let (page, l) := (l.register base).add (.empty "page" .dollar)
  l.register page

/-- Two of them are refused: a second template of one name, and a second parent. -/
def sample : List Request :=
  [.define base "row" [] "a", .define base "row" [] "c", .define page "row" [] "$super.row()$b",
    .addAlias page "line" "row", .setParent page base, .setParent page page]

def served : Library := groups.serveAll sample

theorem built_groups : groups.Built :=
  ((((Built.empty.add "base" .dollar).register (holds_add_self _)).add "page" .dollar).register
    (holds_add_self _))

theorem known_sample : ∀ r ∈ sample, r.Known groups := by
  have inside (n : Nat) (few : n < 2) : groups.Holds ⟨n⟩ := few
  have base := inside 0 (by decide)
  have page := inside 1 (by decide)
  simp only [sample, List.forall_mem_cons]
  exact ⟨base, base, page, page, ⟨page, base⟩, ⟨page, page⟩, nofun⟩

theorem ancestry_served : served.Ancestry [page, base] := by
  have extended : (served.get page).parent? = some base := by decide +kernel
  have last : (served.get base).parent? = none := by decide +kernel
  have inside : 0 < served.groups.length := by decide +kernel
  exact .child extended (.root inside last)

theorem acyclic_served : served.Acyclic := by
  have size : served.groups.length = 2 := by decide +kernel
  refine acyclic_of_ancestry fun id inside => ?_
  obtain ⟨n⟩ := id
  rw [Holds, size] at inside
  have few : n < 2 := inside
  obtain rfl | rfl : n = 0 ∨ n = 1 := by omega
  · exact ⟨[], ancestry_served.suffix (List.suffix_cons page [base])⟩
  · exact ⟨[base], ancestry_served⟩

end Request

/-- After the requests the alias leads to a template that is marked with its group, and another
template of that name is refused. -/
theorem served_groups_consistent :
    (∀ r ∈ Request.sample, r.Known Request.groups) ∧ Request.served.Acyclic ∧
      (∃ t h, Request.served.lookup Request.page "line" = some t ∧
        (Request.served.get h).templates.find? t.name = some t ∧
        t.group = some (Request.served.get h).name) ∧
      Request.served.serve (.define Request.base "row" [] "d") = Request.served := by
  have known := Request.known_sample
  obtain ⟨consistent, unchanged⟩ :=
    groups_stay_consistent Request.built_groups known Request.acyclic_served
  refine ⟨known, Request.acyclic_served, ?_, ?_⟩
  · have inside : Request.served.Holds Request.page :=
      Request.ancestry_served.holds _ List.mem_cons_self
    have some : (Request.served.lookup Request.page "line").isSome := by decide +kernel
    obtain ⟨t, found⟩ := Option.isSome_iff_exists.1 some
    obtain ⟨above, -, lookups⟩ := consistent Request.page inside
    obtain ⟨h, -, stored, group, -⟩ := (lookups "line").1 t found
    exact ⟨t, h, found, stored, group⟩
  · have taken : ((Request.served.get Request.base).templates.find? "row").isSome := by
      decide +kernel
    obtain ⟨refused, same⟩ := unchanged (.define Request.base "row" [] "d") _
    exact same (refused.2 (.taken taken))

end Library
end Stencil
