import Stencil.Proofs.Ancestry.Chains
/-!
# Aliases along a chain of groups

A lookup finds a template under the name it was asked for or under one that aliases lead to. The
target of an alias is not looked for among the aliases of its own group, but it is among those of
the groups above: every alias on the way belongs to a group above that of the alias before. So one
alias is followed in a group, and more than one only if the target of an alias is itself an alias
further up.
-/
namespace Stencil
namespace Lineage

variable {l above start : Lineage} {g : Group} {name target key : String} {t : Template}

/-- Aliases lead from a name in a lineage to a key, which is then looked for among the own templates
of the groups in `start`: all groups from some place upwards, that of the last alias if there is
one. -/
inductive Leads : Lineage → String → Lineage → String → Prop
  | self {l start : Lineage} {name : String} (within : start <:+ l) : Leads l name start name
  | last {l above : Lineage} {g : Group} {name target : String} (within : g :: above <:+ l)
      (entry : g.aliases.find? name = some target) : Leads l name (g :: above) target
  | onwards {l above start : Lineage} {g : Group} {name target key : String}
      (within : g :: above <:+ l) (entry : g.aliases.find? name = some target)
      (leads : Leads above target start key) : Leads l name start key

/-- No target of an alias is an alias in a group further up. -/
def Direct (l : Lineage) : Prop :=
  ∀ g above, g :: above <:+ l → ∀ name target, g.aliases.find? name = some target →
    ∀ h ∈ above, h.aliases.find? target = none

theorem Leads.cons (leads : Leads above name start key) : Leads (g :: above) name start key := by
  have higher : above <:+ g :: above := List.suffix_cons g above
  cases leads with
  | self within => exact .self (within.trans higher)
  | last within entry => exact .last (within.trans higher) entry
  | onwards within entry leads => exact .onwards (within.trans higher) entry leads

/-- The groups that are asked for the key belong to the lineage. -/
theorem Leads.suffix (leads : Leads l name start key) : start <:+ l := by
  induction leads with
  | self within => exact within
  | last within _ => exact within
  | @onwards l above start g _ _ _ within _ _ ih =>
    exact ih.trans ((List.suffix_cons g above).trans within)

/-- Without aliases of aliases the key is the name or the target of an alias for it. -/
theorem Leads.eq_or_alias (leads : Leads l name start key) (direct : l.Direct) :
    key = name ∨ ∃ g ∈ l, g.aliases.find? name = some key := by
  cases leads with
  | self => exact .inl rfl
  | last within entry => exact .inr ⟨_, within.subset List.mem_cons_self, entry⟩
  | @onwards _ above _ g _ target _ within entry leads =>
    have none := direct g above within name target entry
    cases leads with
    | self => exact .inr ⟨g, within.subset List.mem_cons_self, entry⟩
    | last higher again =>
      rw [none _ (higher.subset List.mem_cons_self)] at again
      cases again
    | onwards higher again =>
      rw [none _ (higher.subset List.mem_cons_self)] at again
      cases again

/-- The key is the name itself or what some alias stands for. -/
theorem Leads.eq_or_target (leads : Leads l name start key) :
    key = name ∨ ∃ g ∈ l, ∃ other, g.aliases.find? other = some key := by
  induction leads with
  | self => exact .inl rfl
  | last within entry => exact .inr ⟨_, within.subset List.mem_cons_self, _, entry⟩
  | @onwards l above _ g _ _ _ within entry _ ih =>
    rcases ih with rfl | ⟨h, member, target⟩
    · exact .inr ⟨g, within.subset List.mem_cons_self, _, entry⟩
    · exact .inr ⟨h, within.subset (List.mem_cons_of_mem g member), target⟩

theorem lookup_cons_eq_some_iff : lookup (g :: above) name = some t ↔
    g.templates.find? name = some t ∨
      g.templates.find? name = none ∧
        ((∃ target, g.aliases.find? name = some target ∧
            (g.templates.find? target = some t ∨
              g.templates.find? target = none ∧ lookup above target = some t)) ∨
          ((g.aliases.find? name).bind fun target =>
              g.templates.find? target <|> lookup above target) = none ∧
            lookup above name = some t) := by
  simp only [lookup, Option.orElse_eq_orElse, Option.orElse_eq_or, Option.or_eq_some_iff,
    Option.bind_eq_some_iff]

/-- What is found stands in one of the groups under a key that aliases lead to. -/
theorem exists_leads_of_lookup (found : l.lookup name = some t) :
    ∃ start key, Leads l name start key ∧ ∃ g ∈ start, g.templates.find? key = some t := by
  induction l generalizing name with
  | nil => cases found
  | cons g above ih =>
    have whole : g :: above <:+ g :: above := List.suffix_rfl
    rcases lookup_cons_eq_some_iff.1 found with
      own | ⟨-, ⟨target, entry, own | ⟨-, inherited⟩⟩ | ⟨-, inherited⟩⟩
    · exact ⟨g :: above, name, .self whole, g, List.mem_cons_self, own⟩
    · exact ⟨g :: above, target, .last whole entry, g, List.mem_cons_self, own⟩
    · obtain ⟨start, key, leads, stored⟩ := ih inherited
      exact ⟨start, key, .onwards whole entry leads, stored⟩
    · obtain ⟨start, key, leads, stored⟩ := ih inherited
      exact ⟨start, key, leads.cons, stored⟩

theorem isSome_lookup_cons : (lookup (g :: above) name).isSome ↔
    (g.templates.find? name).isSome ∨
      (∃ target, g.aliases.find? name = some target ∧
        ((g.templates.find? target).isSome ∨ (lookup above target).isSome)) ∨
      (lookup above name).isSome := by
  cases entry : g.aliases.find? name <;>
    simp [lookup, Option.orElse_eq_orElse, Option.orElse_eq_or, Option.isSome_or, entry, or_assoc]

/-- What the groups further up find for a name is not lost, though a lower one may come before. -/
theorem isSome_lookup_of_suffix (within : above <:+ l) (found : (above.lookup name).isSome) :
    (l.lookup name).isSome := by
  induction l with
  | nil => rwa [List.eq_nil_of_suffix_nil within] at found
  | cons g rest ih =>
    rcases List.suffix_cons_iff.1 within with rfl | higher
    · exact found
    · exact isSome_lookup_cons.2 (.inr (.inr (ih higher)))

theorem isSome_lookup_of_mem (member : g ∈ l) (stored : (g.templates.find? name).isSome) :
    (l.lookup name).isSome := by
  obtain ⟨below, above, rfl⟩ := List.append_of_mem member
  exact isSome_lookup_of_suffix (List.suffix_append below (g :: above))
    (isSome_lookup_cons.2 (.inl stored))

/-- Something is found wherever aliases lead to a key that a group has. -/
theorem Leads.isSome_lookup (leads : Leads l name start key) (member : g ∈ start)
    (stored : (g.templates.find? key).isSome) : (l.lookup name).isSome := by
  induction leads with
  | self within => exact isSome_lookup_of_mem (within.subset member) stored
  | @last l above h name target within entry =>
    refine isSome_lookup_of_suffix within (isSome_lookup_cons.2 (.inr (.inl ⟨target, entry, ?_⟩)))
    rcases List.mem_cons.1 member with rfl | higher
    · exact .inl stored
    · exact .inr (isSome_lookup_of_mem higher stored)
  | onwards within entry _ ih =>
    exact isSome_lookup_of_suffix within
      (isSome_lookup_cons.2 (.inr (.inl ⟨_, entry, .inr (ih member stored)⟩)))

end Lineage

/-- A lookup finds a template exactly if aliases lead from the name to a key that a group has, each
alias from a group above that of the one before; it stands under such a key. It stands under the
name or the target of one alias for it wherever no target is an alias further up. -/
theorem lookup_follows_aliases_upwards {l : Library} {id : GroupId} {above : List GroupId}
    (ancestry : l.Ancestry (id :: above)) (name : String) :
    let groups : Lineage := (id :: above).map l.get
    (∀ t, l.lookup id name = some t → ∃ start key, groups.Leads name start key ∧
      ∃ g ∈ start, g.templates.find? key = some t) ∧
    ((l.lookup id name).isSome ↔ ∃ start key, groups.Leads name start key ∧
      ∃ g ∈ start, (g.templates.find? key).isSome) ∧
    (groups.Direct → ∀ t, l.lookup id name = some t → ∃ key,
      (∃ g ∈ groups, g.templates.find? key = some t) ∧
        (key = name ∨ ∃ g ∈ groups, g.aliases.find? name = some key)) := by
  intro groups
  have asked : l.lookup id name = groups.lookup name := Library.lookup_eq ancestry name
  rw [asked]
  refine ⟨fun t => Lineage.exists_leads_of_lookup, ⟨fun found => ?_, ?_⟩, fun direct t found => ?_⟩
  · obtain ⟨t, found⟩ := Option.isSome_iff_exists.1 found
    obtain ⟨start, key, leads, g, member, stored⟩ := Lineage.exists_leads_of_lookup found
    exact ⟨start, key, leads, g, member, Option.isSome_of_mem stored⟩
  · rintro ⟨start, key, leads, g, member, stored⟩
    exact leads.isSome_lookup member stored
  · obtain ⟨start, key, leads, g, member, stored⟩ := Lineage.exists_leads_of_lookup found
    exact ⟨key, ⟨g, leads.suffix.subset member, stored⟩, leads.eq_or_alias direct⟩

namespace Aliases

/-- A group with an alias for a template of its own, and one that extends it and gives the alias
another name. -/
def library : Library :=
  let define := do
    let (base, l) := Library.empty.add (.empty "base" .dollar)
    let (_, l) ← l.define base "cell" [] "x"
    let (page, l) := (l.addAlias base "row" "cell").add (.empty "page" .dollar)
    (l.addAlias page "line" "row").setParent page base
  match define with
  | .ok l => l
  | .error _ => .empty

def base : GroupId := ⟨0⟩

def page : GroupId := ⟨1⟩

theorem ancestry : library.Ancestry [page, base] := by
  have extended : (library.get page).parent? = some base := by decide +kernel
  have last : (library.get base).parent? = none := by decide +kernel
  have inside : 0 < library.groups.length := by decide +kernel
  exact .child extended (.root inside last)

end Aliases

/-- The alias leads to another one in the group above, and that to a template. -/
theorem alias_of_alias_found : Aliases.library.Ancestry [Aliases.page, Aliases.base] ∧
    (Aliases.library.lookup Aliases.page "line").isSome := by
  have line : (Aliases.library.get Aliases.page).aliases.find? "line" = some "row" := by
    decide +kernel
  have row : (Aliases.library.get Aliases.base).aliases.find? "row" = some "cell" := by
    decide +kernel
  have stored : ((Aliases.library.get Aliases.base).templates.find? "cell").isSome := by
    decide +kernel
  obtain ⟨-, found, -⟩ := lookup_follows_aliases_upwards Aliases.ancestry "line"
  exact ⟨Aliases.ancestry, found.2 ⟨_, "cell",
    .onwards List.suffix_rfl line (.last List.suffix_rfl row), _, List.mem_cons_self, stored⟩⟩

/-- Something is found for an alias, although neither the group nor its parent has a template under
its name or under the one target that it has. -/
theorem alias_target_resolved_above :
    let groups := [Aliases.library.get Aliases.page, Aliases.library.get Aliases.base]
    (Aliases.library.lookup Aliases.page "line").isSome ∧
      ∀ key, (key = "line" ∨ ∃ g ∈ groups, g.aliases.find? "line" = some key) →
        ∀ g ∈ groups, g.templates.find? key = none := by
  intro groups
  refine ⟨by decide +kernel, fun key named => ?_⟩
  have targets : ∀ g ∈ groups, g.aliases.find? "line" = some "row" ∨
      g.aliases.find? "line" = none := by decide +kernel
  rcases named with rfl | ⟨g, member, entry⟩
  · decide +kernel
  · have same : key = "row" := by
      rcases targets g member with row | none
      · exact Option.some.inj (entry.symm.trans row)
      · rw [none] at entry
        cases entry
    rw [same]
    decide +kernel

end Stencil
