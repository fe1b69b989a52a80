import Stencil.Arena
import Stencil.Value.ListFunction
import Stencil.Render.Basic
/-!
# Handles inside values

Which handles a value holds, at any depth of lists, maps, aggregates and the properties of host
objects, and when two values correspond under a relation between handles. Rendering takes values
apart and puts them into new lists; the lemmas here say that this invents no handles.
-/
namespace Stencil

/-- The value holds the handle, at whatever depth. -/
inductive Value.Holds (h : Handle) : Value → Prop
  | template : Holds h (.template h)
  | list {items : List Value} {v : Value} : v ∈ items → Holds h v → Holds h (.list items)
  | map {entries : List (String × Value)} {name : String} {v : Value} :
    (name, v) ∈ entries → Holds h v → Holds h (.map entries)
  | aggregate {fields : List (String × Value)} {name : String} {v : Value} :
    (name, v) ∈ fields → Holds h v → Holds h (.aggregate fields)
  | object {o : HostObject} {name : String} {v : Value} :
    o.property? name = some v → Holds h v → Holds h (.object o)

namespace Table

variable {α : Type}

theorem mem_of_find? {name : String} {t : Table α} {a : α} (found : find? name t = some a) :
    (name, a) ∈ t := by
  induction t with
  | nil => simp [find?] at found
  | cons entry rest ih =>
    obtain ⟨n, b⟩ := entry
    simp only [find?] at found
    split at found
    · rename_i same
      subst same
      simp_all
    · exact List.mem_cons_of_mem _ (ih found)

end Table

namespace Value

variable {h : Handle} {v : Value}

theorem holds_of_mem_values {entries : Table Value} (member : v ∈ Table.values entries)
    (holds : v.Holds h) : (map entries).Holds h := by
  obtain ⟨⟨name, w⟩, entry, rfl⟩ := List.mem_map.1 member
  exact .map entry holds

theorem holds_of_mem_elements {element : Value} (member : element ∈ v.elements)
    (holds : element.Holds h) : v.Holds h := by
  cases v with
  | null => simp [elements] at member
  | list items => exact .list member holds
  | map entries => exact holds_of_mem_values member holds
  | _ =>
    simp only [elements, List.mem_singleton] at member
    exact member ▸ holds

theorem holds_of_mem_spread {element : Value} (member : element ∈ Evaluator.spread v)
    (holds : element.Holds h) : v.Holds h := by
  cases v with
  | list items => exact .list member holds
  | map entries => exact holds_of_mem_values member holds
  | _ =>
    simp only [Evaluator.spread, List.mem_singleton] at member
    exact member ▸ holds

@[simp] theorem not_holds_null : ¬ null.Holds h := by rintro ⟨⟩
@[simp] theorem not_holds_text (s : String) : ¬ (text s).Holds h := by rintro ⟨⟩
@[simp] theorem not_holds_int (n : Int64) : ¬ (int n).Holds h := by rintro ⟨⟩
@[simp] theorem not_holds_bool (b : Bool) : ¬ (bool b).Holds h := by rintro ⟨⟩

theorem holds_template_iff {x : Handle} : (template x).Holds h ↔ x = h := by
  constructor
  · rintro ⟨⟩
    rfl
  · rintro rfl
    exact .template

theorem holds_list_iff {items : List Value} :
    (list items).Holds h ↔ ∃ v ∈ items, v.Holds h := by
  constructor
  · intro holds
    cases holds with
    | list member holds => exact ⟨_, member, holds⟩
  · rintro ⟨v, member, holds⟩
    exact .list member holds

/-- A property of a map comes from the map. -/
theorem holds_of_mapProperty {entries : Table Value} {name : String}
    (found : mapProperty entries name = some v) (holds : v.Holds h) :
    (map entries).Holds h := by
  simp only [mapProperty, Option.orElse_eq_orElse, Option.orElse_eq_or,
    Option.or_eq_some_iff] at found
  rcases found with entry | ⟨-, entry | ⟨-, whole⟩⟩
  · exact .map (Table.mem_of_find? entry) holds
  · exact .map (Table.mem_of_find? entry) holds
  · split at whole
    · obtain rfl := Option.some.inj whole
      obtain ⟨key, member, holds⟩ := holds_list_iff.1 holds
      obtain ⟨s, -, rfl⟩ := List.mem_map.1 member
      exact absurd holds (not_holds_text s)
    · obtain rfl := Option.some.inj whole
      obtain ⟨entry, member, holds⟩ := holds_list_iff.1 holds
      exact holds_of_mem_values member holds
    · cases whole

/-- Adding a value to an attribute puts the two together. -/
theorem holds_of_merged {old? : Option Value} (holds : (Arena.merged old? v).Holds h) :
    v.Holds h ∨ ∃ old, old? = some old ∧ old.Holds h := by
  have joined {items : List Value} (holds : (list (items ++ [v])).Holds h) :
      v.Holds h ∨ ∃ item ∈ items, item.Holds h := by
    obtain ⟨w, member, holds⟩ := holds_list_iff.1 holds
    rcases List.mem_append.1 member with member | member
    · exact Or.inr ⟨w, member, holds⟩
    · exact Or.inl (List.mem_singleton.1 member ▸ holds)
  unfold Arena.merged at holds
  split at holds
  · exact Or.inl holds
  · exact (joined holds).imp_right fun ⟨item, member, holds⟩ => ⟨_, rfl, .list member holds⟩
  · rename_i old _
    exact (@joined [old] holds).imp_right fun ⟨item, member, holds⟩ =>
      ⟨old, rfl, List.mem_singleton.1 member ▸ holds⟩

end Value

namespace Activation

/-- One of the two tables of the activation binds a name to the value. -/
def Stores (act : Activation) (v : Value) : Prop :=
  ∃ name, act.attributes.find? name = some v ∨ act.arguments.find? name = some v

theorem stores_of_lookup {act : Activation} {name : String} {v : Value}
    (found : act.lookup name = some v) : act.Stores v := by
  simp only [lookup, Option.orElse_eq_orElse, Option.orElse_eq_or,
    Option.or_eq_some_iff] at found
  rcases found with given | ⟨-, set⟩
  · exact ⟨name, Or.inr given⟩
  · exact ⟨name, Or.inl set⟩

theorem stores_of_property {act : Activation} {name : String} {v : Value}
    (found : act.property name = some v) : act.Stores v := by
  simp only [property, Option.orElse_eq_orElse, Option.orElse_eq_or,
    Option.or_eq_some_iff] at found
  rcases found with set | ⟨-, given⟩
  · exact ⟨name, Or.inl set⟩
  · exact ⟨name, Or.inr given⟩

theorem stores_of_insert_argument {act : Activation} {name : String} {v w : Value}
    (stores : Stores { act with arguments := act.arguments.insert name v } w) :
    w = v ∨ act.Stores w := by
  obtain ⟨other, set | given⟩ := stores
  · exact Or.inr ⟨other, Or.inl set⟩
  · rw [Table.find?_insert] at given
    split at given
    · exact Or.inl (Option.some.inj given).symm
    · exact Or.inr ⟨other, Or.inr given⟩

theorem stores_of_insert_attribute {act : Activation} {name : String} {v w : Value}
    (stores : Stores { act with attributes := act.attributes.insert name v } w) :
    w = v ∨ act.Stores w := by
  obtain ⟨other, set | given⟩ := stores
  · rw [Table.find?_insert] at set
    split at set
    · exact Or.inl (Option.some.inj set).symm
    · exact Or.inr ⟨other, Or.inl set⟩
  · exact Or.inr ⟨other, Or.inr given⟩

theorem not_stores_of_empty {act : Activation} {v : Value} (attributes : act.attributes = .empty)
    (arguments : act.arguments = .empty) : ¬ act.Stores v := by
  rintro ⟨name, set | given⟩
  · rw [attributes, Table.find?_empty] at set
    cases set
  · rw [arguments, Table.find?_empty] at given
    cases given

end Activation
end Stencil
