import Mathlib.Data.List.Chain
import Mathlib.Data.List.Nodup
import Mathlib.Data.List.Perm.Subperm
import Mathlib.Logic.Relation
import Stencil.Proofs.Loading.Library
/-!
# Groups and their ancestors

The groups that a lookup asks are those from one group upwards to one that extends none. The walk
upwards is cut off at a number of steps that is never too small for a chain that ends, so a lookup
in such a chain asks the group itself first and leaves the rest to its parent.
-/
namespace Stencil
namespace Library

variable {l : Library} {id parent x y : GroupId} {ids above below : List GroupId}

/-- The first group extends the second. -/
def Extends (l : Library) (id parent : GroupId) : Prop := (l.get id).parent? = some parent

/-- No group is an ancestor of itself. -/
def Acyclic (l : Library) : Prop := ∀ id, ¬ Relation.TransGen l.Extends id id

/-- A group with all its ancestors behind it: each extends the next one, and the last extends none.
No such list goes around in a circle. -/
inductive Ancestry (l : Library) : List GroupId → Prop
  | root {id : GroupId} (inside : l.Holds id) (last : (l.get id).parent? = none) : Ancestry l [id]
  | child {id parent : GroupId} {above : List GroupId} (extended : l.Extends id parent)
      (ancestry : Ancestry l (parent :: above)) : Ancestry l (id :: parent :: above)

theorem get_eq_default (outside : ¬ l.Holds id) : l.get id = default := by
  have bound : l.groups.length ≤ id.index := Nat.not_lt.1 outside
  simp [get, bound]

/-- A place that was never given out extends nothing. -/
theorem Extends.inside (extended : l.Extends id parent) : l.Holds id := by
  by_contra outside
  rw [Extends, get_eq_default outside] at extended
  cases extended

theorem Extends.unique (first : l.Extends id x) (second : l.Extends id y) : x = y :=
  Option.some.inj (first.symm.trans second)

theorem getElem?_of_holds (inside : l.Holds id) : l.groups[id.index]? = some (l.get id) := by
  have bound : id.index < l.groups.length := inside
  simp [get, bound]

/-- Every group of a walk upwards is an ancestor of all before it. -/
theorem ascending_of_isChain (walk : ids.IsChain l.Extends) :
    ids.Pairwise (Relation.TransGen l.Extends) := by
  have steps : ids.IsChain (Relation.TransGen l.Extends) := walk.imp fun _ _ step => .single step
  exact List.isChain_iff_pairwise.1 steps

/-! ## Chains that end -/

namespace Ancestry

theorem holds (ancestry : l.Ancestry ids) : ∀ x ∈ ids, l.Holds x := by
  induction ancestry with
  | root inside => exact List.forall_mem_singleton.2 inside
  | child extended _ ih => exact List.forall_mem_cons.2 ⟨extended.inside, ih⟩

theorem isChain (ancestry : l.Ancestry ids) : ids.IsChain l.Extends := by
  induction ancestry with
  | root => exact .singleton _
  | child extended _ ih => exact .cons_cons extended ih

/-- A group has one line of ancestors only. -/
theorem unique (first : l.Ancestry (id :: above)) (second : l.Ancestry (id :: below)) :
    above = below := by
  generalize same : id :: above = ids at first
  induction first generalizing id above below with
  | root _ last =>
    obtain ⟨rfl, rfl⟩ := List.cons.inj same
    cases second with
    | root => rfl
    | child extended =>
      rw [Extends, last] at extended
      cases extended
  | child extended _ ih =>
    obtain ⟨rfl, rfl⟩ := List.cons.inj same
    cases second with
    | root _ last =>
      rw [Extends, last] at extended
      cases extended
    | child extended' ancestry' =>
      obtain rfl := extended.unique extended'
      exact congrArg _ (ih ancestry' rfl)

/-- Every part of a chain that goes on to its end is the chain of its own first group. -/
theorem suffix (ancestry : l.Ancestry ids) (part : x :: above <:+ ids) :
    l.Ancestry (x :: above) := by
  induction ancestry with
  | root inside last =>
    rcases List.suffix_cons_iff.1 part with same | part
    · exact same ▸ .root inside last
    · cases List.eq_nil_of_suffix_nil part
  | child extended ancestry ih =>
    rcases List.suffix_cons_iff.1 part with same | part
    · exact same ▸ .child extended ancestry
    · exact ih part

theorem of_mem (ancestry : l.Ancestry ids) (member : x ∈ ids) :
    ∃ above, x :: above <:+ ids ∧ l.Ancestry (x :: above) := by
  obtain ⟨before, above, rfl⟩ := List.append_of_mem member
  have part := List.suffix_append before (x :: above)
  exact ⟨above, part, ancestry.suffix part⟩

/-- No group comes twice: what is above it would be the same both times. -/
theorem nodup (ancestry : l.Ancestry ids) : ids.Nodup := by
  induction ancestry with
  | root => exact List.pairwise_singleton _ _
  | @child id parent above extended ancestry ih =>
    refine List.nodup_cons.2 ⟨fun again => ?_, ih⟩
    obtain ⟨rest, part, ancestry'⟩ := ancestry.of_mem again
    have same := (Ancestry.child extended ancestry).unique ancestry'
    have shorter := part.length_le
    rw [← same, List.length_cons] at shorter
    omega

/-- What stands behind a group in its chain are its ancestors. -/
theorem mem_iff_transGen (ancestry : l.Ancestry (x :: above)) :
    y ∈ above ↔ Relation.TransGen l.Extends x y := by
  constructor
  · intro member
    exact (List.pairwise_cons.1 (ascending_of_isChain ancestry.isChain)).1 y member
  · intro path
    generalize same : x :: above = ids at ancestry
    induction ancestry generalizing x above with
    | root _ last =>
      obtain ⟨rfl, rfl⟩ := List.cons.inj same
      obtain ⟨z, extended, -⟩ := Relation.TransGen.head'_iff.1 path
      rw [Extends, last] at extended
      cases extended
    | child extended _ ih =>
      obtain ⟨rfl, rfl⟩ := List.cons.inj same
      obtain ⟨z, extended', further⟩ := Relation.TransGen.head'_iff.1 path
      obtain rfl := extended.unique extended'
      rcases Relation.reflTransGen_iff_eq_or_transGen.1 further with rfl | path
      · exact List.mem_cons_self
      · exact List.mem_cons_of_mem _ (ih path rfl)

end Ancestry

/-- Different places that were given out are no more than the groups. -/
theorem length_le_of_nodup (nodup : ids.Nodup) (inside : ∀ x ∈ ids, l.Holds x) :
    ids.length ≤ l.groups.length := by
  have injective : Function.Injective GroupId.index := fun x y same => by
    cases x
    cases y
    exact congrArg GroupId.mk same
  have within : ids.map GroupId.index ⊆ List.range l.groups.length := by
    intro n member
    obtain ⟨x, asked, rfl⟩ := List.mem_map.1 member
    exact List.mem_range.2 (inside x asked)
  have bound := ((nodup.map injective).subperm within).length_le
  rwa [List.length_map, List.length_range] at bound

theorem chain_eq (ancestry : l.Ancestry (id :: above)) {n : Nat} (enough : above.length < n) :
    l.chain n (some id) = (id :: above).map l.get := by
  generalize same : id :: above = ids at ancestry
  induction ancestry generalizing id above n with
  | root inside last =>
    obtain ⟨rfl, rfl⟩ := List.cons.inj same
    obtain ⟨n, rfl⟩ := Nat.exists_eq_succ_of_ne_zero (Nat.ne_of_gt enough)
    simp only [chain, getElem?_of_holds inside, last]
    cases n with
    | zero => rfl
    | succ n => rfl
  | child extended ancestry ih =>
    obtain ⟨rfl, rfl⟩ := List.cons.inj same
    obtain ⟨n, rfl⟩ := Nat.exists_eq_succ_of_ne_zero (Nat.ne_of_gt (Nat.zero_lt_of_lt enough))
    simp only [chain, getElem?_of_holds extended.inside, List.map_cons]
    rw [show (l.get id).parent? = some _ from extended, ih (Nat.lt_of_succ_lt_succ enough) rfl,
      List.map_cons]

/-- The walk upwards is not cut off. -/
theorem lineage_eq (ancestry : l.Ancestry (id :: above)) :
    l.lineage id = (id :: above).map l.get := by
  have bound := length_le_of_nodup ancestry.nodup ancestry.holds
  refine chain_eq ancestry ?_
  have enough : l.groups.length ≤ l.reach := by
    rw [reach]
    omega
  rw [List.length_cons] at bound
  omega

/-! ## Libraries without circles -/

/-- A walk upwards comes to an end, as it would otherwise meet more groups than there are. -/
theorem Sound.exists_ancestry (sound : l.Sound) (acyclic : l.Acyclic) (inside : l.Holds id) :
    ∃ above, l.Ancestry (id :: above) := by
  suffices walk : ∀ n (before : List GroupId) (id : GroupId), l.Holds id →
      (before ++ [id]).IsChain l.Extends → (∀ x ∈ before, l.Holds x) →
      l.groups.length ≤ before.length + n → ∃ above, l.Ancestry (id :: above) from
    walk l.groups.length [] id inside (.singleton id) nofun (Nat.le_add_left _ _)
  intro n
  induction n with
  | zero =>
    intro before id inside walked passed long
    -- Two places of the walk that are the same would make a circle.
    have differ {x y : GroupId} (path : Relation.TransGen l.Extends x y) : x ≠ y := by
      rintro rfl
      exact acyclic x path
    have apart : (before ++ [id]).Nodup := (ascending_of_isChain walked).imp differ
    have within : ∀ x ∈ before ++ [id], l.Holds x :=
      List.forall_mem_append.2 ⟨passed, List.forall_mem_singleton.2 inside⟩
    have bound := length_le_of_nodup apart within
    rw [List.length_append, List.length_singleton] at bound
    omega
  | succ n ih =>
    intro before id inside walked passed long
    cases extended : (l.get id).parent? with
    | none => exact ⟨[], .root inside extended⟩
    | some parent =>
      have step : (before ++ [id] ++ [parent]).IsChain l.Extends := by
        rw [List.append_assoc]
        exact List.isChain_append_cons_cons.2 ⟨walked, extended, .singleton parent⟩
      have passed' : ∀ x ∈ before ++ [id], l.Holds x :=
        List.forall_mem_append.2 ⟨passed, List.forall_mem_singleton.2 inside⟩
      obtain ⟨above, ancestry⟩ := ih (before ++ [id]) parent (sound.parents extended) step passed' (by
        rw [List.length_append, List.length_singleton]
        omega)
      exact ⟨parent :: above, .child extended ancestry⟩

/-- Where every walk upwards comes to an end there are no circles. -/
theorem acyclic_of_ancestry (ends : ∀ id, l.Holds id → ∃ above, l.Ancestry (id :: above)) :
    l.Acyclic := by
  intro id circle
  obtain ⟨parent, extended, -⟩ := Relation.TransGen.head'_iff.1 circle
  obtain ⟨above, ancestry⟩ := ends id extended.inside
  exact (List.nodup_cons.1 ancestry.nodup).1 (ancestry.mem_iff_transGen.2 circle)

/-! ## Lookups -/

theorem lookup_eq (ancestry : l.Ancestry (id :: above)) (name : String) :
    l.lookup id name = Lineage.lookup ((id :: above).map l.get) name := by
  rw [lookup, lineage_eq ancestry]

/-- What a group's parent finds, if it has one. -/
def inherited (l : Library) (id : GroupId) (name : String) : Option Template :=
  (l.get id).parent?.bind fun parent => l.lookup parent name

theorem inherited_eq (ancestry : l.Ancestry (id :: above)) (name : String) :
    l.inherited id name = Lineage.lookup (above.map l.get) name := by
  cases ancestry with
  | root inside last =>
    rw [inherited, last]
    rfl
  | child extended ancestry =>
    rw [inherited, show (l.get id).parent? = some _ from extended, Option.bind_some,
      lookup_eq ancestry]

/-- A group asks itself for the name, then for the target of its alias, which it leaves to its
parent if it has none of that name, and then leaves the name to its parent. -/
theorem lookup_unfold (ancestry : l.Ancestry (id :: above)) (name : String) :
    l.lookup id name =
      ((l.get id).templates.find? name <|>
        (((l.get id).aliases.find? name).bind fun target =>
          (l.get id).templates.find? target <|> l.inherited id target) <|>
        l.inherited id name) := by
  rw [lookup_eq ancestry, List.map_cons, Lineage.lookup]
  simp only [inherited_eq ancestry]

end Library
end Stencil
