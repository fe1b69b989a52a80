import Stencil.Proofs.Captured.Sources
import Stencil.Proofs.Drafting.Basic
import Stencil.Proofs.Loading.Library
/-!
# Registries of compiled templates

A library whose templates were compiled finds none that opens an indentation with a line end in it,
under whatever alias and from whatever group it is looked up.
-/
namespace Stencil

variable {P : Template → Prop} {allowed : String → Prop}

/-- All templates of the group have the property. -/
def Group.Each (P : Template → Prop) (g : Group) : Prop :=
  ∀ name t, g.templates.find? name = some t → P t

def Library.Each (P : Template → Prop) (l : Library) : Prop := ∀ g ∈ l.groups, g.Each P

theorem Group.Each.empty (name : String) (d : Delimiters) : (Group.empty name d).Each P := nofun

theorem Group.Each.insert {g : Group} (each : g.Each P) {t : Template}
    (new : P (t.inGroup g.name)) : (g.insert t).Each P := by
  intro name u found
  simp only [Group.insert, Table.find?_insert] at found
  split at found
  · cases found
    exact new
  · exact each name u found

theorem Lineage.of_lookup {l : Lineage} (each : ∀ g ∈ l, g.Each P) {name : String} {t : Template}
    (found : l.lookup name = some t) : P t := by
  induction l generalizing name with
  | nil => cases found
  | cons g ancestors ih =>
    obtain ⟨here, above⟩ := List.forall_mem_cons.1 each
    simp only [lookup, Option.orElse_eq_orElse, Option.orElse_eq_or, Option.or_eq_some_iff,
      Option.bind_eq_some_iff] at found
    rcases found with own | ⟨-, ⟨target, -, own | ⟨-, inherited⟩⟩ | ⟨-, inherited⟩⟩
    · exact here _ t own
    · exact here _ t own
    · exact ih above inherited
    · exact ih above inherited

namespace Library.Each

variable {l : Library}

theorem get (each : l.Each P) (id : GroupId) : (l.get id).Each P := by
  unfold Library.get
  cases found : l.groups[id.index]? with
  | none => exact .empty "" .dollar
  | some g => exact each g (List.mem_of_getElem? found)

theorem set (each : l.Each P) (id : GroupId) {g : Group} (new : g.Each P) :
    (l.set id g).Each P := by
  intro g' member
  rcases List.mem_or_eq_of_mem_set member with member | rfl
  · exact each g' member
  · exact new

/-- The templates that registering files brings into a library have sources. -/
theorem kept : Library.Kept (Library.Each Template.HasSource) where
  create {l} each name d := by
    have added : (l.add (.empty name d)).2.Each Template.HasSource :=
      List.forall_mem_append.2 ⟨each, List.forall_mem_singleton.2 (.empty name d)⟩
    exact added
  define {l l'} each id name source formals t defined := by
    unfold Library.define Group.define at defined
    split at defined
    · cases defined
    · split at defined
      · cases defined
      · rename_i compiled compiles
        cases defined
        exact each.set id ((each.get id).insert ⟨_, _, _, compiled, compiles, rfl⟩)
  addAlias {l} each id name target := each.set id (each.get id)
  setParent {l l'} each id parent name known extended := by
    unfold Library.setParent at extended
    dsimp only at extended
    split at extended
    · cases extended
    · cases extended
      exact each.set id (each.get id)

/-- A library of group files has only templates with sources. -/
theorem registerAll (files : List GroupFile) :
    (Library.empty.registerAll files).1.Each Template.HasSource :=
  kept.registerAll (fun _ member => absurd member List.not_mem_nil) files

theorem chain (each : l.Each P) (n : Nat) (id? : Option GroupId) :
    ∀ g ∈ l.chain n id?, g.Each P := by
  fun_induction l.chain n id? with
  | case1 => nofun
  | case2 => nofun
  | case3 n id g found ih =>
    exact List.forall_mem_cons.2 ⟨each g (List.mem_of_getElem? found), ih⟩
  | case4 => nofun

theorem of_lookup (each : l.Each P) {id : GroupId} {name : String} {t : Template}
    (found : l.lookup id name = some t) : P t :=
  Lineage.of_lookup (each.chain _ _) found

theorem of_lookupSuper (each : l.Each P) {id : GroupId} {group name : String} {t : Template}
    (found : l.lookupSuper id group name = some t) : P t := by
  refine Lineage.of_lookup (fun g member => ?_) found
  have above : ((l.lineage id).fromGroup group).tail.Sublist (l.lineage id) :=
    (List.tail_sublist _).trans (List.dropWhile_sublist _)
  exact each.chain _ _ g (above.subset member)

/-! ## What their registries find -/

theorem registry (each : l.Each fun t => Within allowed t.indents) : l.registry.Opens allowed where
  named {name t} found := by
    simp only [Library.registry, lookupQualified, bind, Option.bind_eq_some_iff] at found
    obtain ⟨_, -, id, -, found⟩ := found
    exact each.of_lookup found
  inherited {group name t} found := by
    obtain ⟨id, -, found⟩ := Option.bind_eq_some_iff.1 found
    exact each.of_lookupSuper found

theorem groupRegistry (each : l.Each fun t => Within allowed t.indents) (id : GroupId) :
    (l.groupRegistry id).Opens allowed where
  named found := each.of_lookup found
  inherited found := each.of_lookupSuper found

/-- Templates that have sources open no indentations with line ends in them. -/
theorem unbroken (each : l.Each Template.HasSource) :
    l.Each fun t => Within Unbroken t.indents :=
  fun g member name t found => (each g member name t found).within

end Library.Each
end Stencil
