import Stencil.Proofs.Ancestry.Stores
import Stencil.Proofs.Searching
/-!
# References to the parent's templates

A template that a group defines may refer to another one by a name that is looked up from the
group's parent upwards. What is found belongs to a strict ancestor, so that such references, each
from the template that the one before has found, come to an end.
-/
namespace Stencil

namespace Library

variable {l : Library} {id x y : GroupId} {ids above : List GroupId} {name : String} {t : Template}

/-- The second template is found for a name from the parent of the first one's group upwards. -/
def RefersTo (super : String → String → Option Template) (t t' : Template) : Prop :=
  ∃ group name, t.group = some group ∧ super group name = some t'

/-- References from the groups of a chain to the templates of their parents go upwards. -/
structure Ascending (l : Library) (ids : List GroupId)
    (super : String → String → Option Template) : Prop where
  /-- What a group refers to belongs to a strict ancestor. -/
  strict {x : GroupId} {name : String} {t : Template} : x ∈ ids →
    super (l.get x).name name = some t →
    ∃ y ∈ ids, Relation.TransGen l.Extends x y ∧ t.group = some (l.get y).name
  /-- There are fewer references in a row than groups. -/
  ends {x : GroupId} {t : Template} {found : List Template} : x ∈ ids →
    t.group = some (l.get x).name → (t :: found).IsChain (RefersTo super) →
    found.length < ids.length

/-- References that go up one by one run out of groups. -/
theorem Ascending.of_strict {super : String → String → Option Template} (ancestry : l.Ancestry ids)
    (strict : ∀ x ∈ ids, ∀ name t, super (l.get x).name name = some t →
      ∃ y ∈ ids, Relation.TransGen l.Extends x y ∧ t.group = some (l.get y).name) :
    l.Ascending ids super where
  strict member found := strict _ member _ _ found
  ends {x t found} member group references := by
    suffices bound : ∀ above, x :: above <:+ ids → found.length ≤ above.length by
      obtain ⟨above, part, -⟩ := ancestry.of_mem member
      have shorter := part.length_le
      have bound := bound above part
      rw [List.length_cons] at shorter
      omega
    clear member
    induction found generalizing x t with
    | nil => exact fun _ _ => Nat.zero_le _
    | cons t' found ih =>
      intro above part
      obtain ⟨⟨group', name, same, refers⟩, later⟩ := List.isChain_cons_cons.1 references
      rw [group, Option.some.injEq] at same
      rw [← same] at refers
      obtain ⟨y, -, path, group''⟩ := strict x (part.subset List.mem_cons_self) name t' refers
      have higher := (ancestry.suffix part).mem_iff_transGen.2 path
      obtain ⟨between, above', rfl⟩ := List.append_of_mem higher
      have part' : y :: above' <:+ ids :=
        ((List.suffix_append between _).trans (List.suffix_cons x _)).trans part
      have bound := ih group'' later above' part'
      simp only [List.length_append, List.length_cons]
      omega

/-- What the groups of a list find is marked with one of them. -/
theorem Marked.group_of_lookup (marked : l.Marked)
    (found : Lineage.lookup (ids.map l.get) name = some t) :
    ∃ y ∈ ids, t.group = some (l.get y).name := by
  obtain ⟨start, key, leads, g, member, stored⟩ := Lineage.exists_leads_of_lookup found
  obtain ⟨y, inside, rfl⟩ := List.mem_map.1 (leads.suffix.subset member)
  exact ⟨y, inside, (marked y key t stored).2⟩

/-- Of different names the search upwards meets the group that was meant. -/
theorem fromGroup_eq (distinct : (ids.map fun x => (l.get x).name).Nodup)
    (part : x :: above <:+ ids) :
    Lineage.fromGroup (ids.map l.get) (l.get x).name = (x :: above).map l.get := by
  obtain ⟨below, rfl⟩ := part
  rw [List.map_append] at distinct
  have differ : ∀ g ∈ below.map l.get, decide (g.name ≠ (l.get x).name) = true := by
    intro g member
    obtain ⟨y, below', rfl⟩ := List.mem_map.1 member
    have apart := (List.nodup_append.1 distinct).2.2
    exact decide_eq_true (apart _ (List.mem_map_of_mem below') _ List.mem_cons_self)
  rw [Lineage.fromGroup, List.map_append, List.dropWhile_append_of_pos differ, List.map_cons,
    List.dropWhile_cons_of_neg (by simp)]

/-- A reference is looked up in what stands above the group in the chain. -/
theorem lookupSuper_eq (ancestry : l.Ancestry (id :: ids))
    (distinct : ((id :: ids).map fun x => (l.get x).name).Nodup) (part : x :: above <:+ id :: ids)
    (name : String) :
    l.lookupSuper id (l.get x).name name = Lineage.lookup (above.map l.get) name := by
  rw [lookupSuper, Lineage.lookupSuper, lineage_eq ancestry, fromGroup_eq distinct part]
  rfl

theorem ascending_lookupSuper (marked : l.Marked) (ancestry : l.Ancestry (id :: above))
    (distinct : ((id :: above).map fun x => (l.get x).name).Nodup) :
    l.Ascending (id :: above) (l.lookupSuper id) := by
  refine .of_strict ancestry fun x member name t found => ?_
  obtain ⟨higher, part, ancestry'⟩ := ancestry.of_mem member
  rw [lookupSuper_eq ancestry distinct part] at found
  obtain ⟨y, inside, group⟩ := marked.group_of_lookup found
  exact ⟨y, part.subset (List.mem_cons_of_mem x inside), ancestry'.mem_iff_transGen.1 inside, group⟩

theorem ascending_lookupSuperQualified (marked : l.Marked) (ancestry : l.Ancestry ids)
    (distinct : (ids.map fun x => (l.get x).name).Nodup)
    (registered : ∀ x ∈ ids, l.group? (l.get x).name = some x) :
    l.Ascending ids l.lookupSuperQualified := by
  refine .of_strict ancestry fun x member name t found => ?_
  obtain ⟨higher, part, ancestry'⟩ := ancestry.of_mem member
  have distinct' : ((x :: higher).map fun x => (l.get x).name).Nodup :=
    (part.sublist.map _).nodup distinct
  rw [lookupSuperQualified, registered x member, Option.bind_some,
    lookupSuper_eq ancestry' distinct' List.suffix_rfl] at found
  obtain ⟨y, inside, group⟩ := marked.group_of_lookup found
  exact ⟨y, part.subset (List.mem_cons_of_mem x inside), ancestry'.mem_iff_transGen.1 inside, group⟩

/-- A qualified name is looked up in the group that is registered under its first part. -/
theorem lookupQualified_eq {group : String} (registered : l.group? group = some id)
    (undotted : '.' ∉ name.toList) : l.lookupQualified (group ++ "." ++ name) = l.lookup id name := by
  have split : Text.splitAtLast? '.' (group ++ "." ++ name).toList =
      some (group.toList, name.toList) := by
    rw [String.toList_append, String.toList_append, List.append_assoc]
    exact Text.splitAtLast?_append undotted _
  rw [lookupQualified, split]
  simp [registered]

/-- In a chain of groups of different names, whatever the first one finds is marked with a group of
the chain, and what a template refers to from the parent of its group upwards, through the first
group, belongs to a strict ancestor of that group; so there are fewer such references in a row than
groups. The same holds through the library, as long as the groups of the chain are registered. -/
theorem super_strictly_ascends (built : l.Built) (ancestry : l.Ancestry (id :: above))
    (distinct : ((id :: above).map fun x => (l.get x).name).Nodup) :
    (∀ name t, l.lookup id name = some t → ∃ x ∈ id :: above, t.group = some (l.get x).name) ∧
    l.Ascending (id :: above) (l.lookupSuper id) ∧
    ((∀ x ∈ id :: above, l.group? (l.get x).name = some x) →
      (∀ name, '.' ∉ name.toList →
        l.lookupQualified ((l.get id).name ++ "." ++ name) = l.lookup id name) ∧
      l.Ascending (id :: above) l.lookupSuperQualified) := by
  have marked := built.marked
  refine ⟨fun name t found => ?_, ascending_lookupSuper marked ancestry distinct,
    fun registered => ⟨fun name undotted => ?_, ?_⟩⟩
  · rw [lookup_eq ancestry] at found
    exact marked.group_of_lookup found
  · exact lookupQualified_eq (registered id List.mem_cons_self) undotted
  · exact ascending_lookupSuperQualified marked ancestry distinct registered

/-- A template of the lower group refers to the one of its name above, and that to none. -/
theorem served_rows_ascend :
    Request.served.Ancestry [Request.page, Request.base] ∧
      ([Request.page, Request.base].map fun x => (Request.served.get x).name).Nodup ∧
      Request.served.Ascending [Request.page, Request.base] Request.served.lookupSuperQualified ∧
      (Request.served.lookupSuperQualified "page" "row").bind Template.group = some "base" ∧
      (Request.served.lookupSuperQualified "base" "row").isNone := by
  have built : Request.served.Built := Request.built_groups.serveAll Request.known_sample
  have distinct : ([Request.page, Request.base].map fun x => (Request.served.get x).name).Nodup := by
    decide +kernel
  have registered : ∀ x ∈ [Request.page, Request.base],
      Request.served.group? (Request.served.get x).name = some x := by
    decide +kernel
  obtain ⟨-, -, throughLibrary⟩ := super_strictly_ascends built Request.ancestry_served distinct
  exact ⟨Request.ancestry_served, distinct, (throughLibrary registered).2, by decide +kernel,
    by decide +kernel⟩

end Library
end Stencil
