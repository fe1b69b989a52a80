import Mathlib.Data.List.Forall2
import Stencil.Proofs.Handles
/-!
# Corresponding values

Two renders that do the same with different handles get values that correspond: one value with
handles that stand for themselves, two instances whose handles stand for each other, or lists of
corresponding values. Rendering makes no other values that hold handles; maps, aggregates and host
objects come from the host as they are.
-/
namespace Stencil
namespace Value

/-- The values correspond when handles do as `P` says. -/
inductive Paired (P : Handle → Handle → Prop) : Value → Value → Prop
  | same {v : Value} : (∀ h, v.Holds h → P h h) → Paired P v v
  | template {h h' : Handle} : P h h' → Paired P (.template h) (.template h')
  | list {items items' : List Value} : items.length = items'.length →
    (∀ p ∈ items.zip items', Paired P p.1 p.2) → Paired P (.list items) (.list items')

namespace Paired

variable {P P' : Handle → Handle → Prop} {v v' : Value} {items items' : List Value}

theorem mono (weaker : ∀ h h', P h h' → P' h h') (paired : Paired P v v') : Paired P' v v' := by
  induction paired with
  | same fixed => exact .same fun h holds => weaker h h (fixed h holds)
  | template twin => exact .template (weaker _ _ twin)
  | list lengths _ ih => exact .list lengths ih

/-- Under a relation that only pairs handles with themselves a value corresponds to itself alone. -/
theorem eq_of_diagonal (diagonal : ∀ h h', P h h' → h = h') (paired : Paired P v v') : v = v' := by
  induction paired with
  | same => rfl
  | template twin => rw [diagonal _ _ twin]
  | list lengths _ ih =>
    congr 1
    refine List.ext_getElem lengths fun i within within' => ih (_, _) ?_
    exact List.mem_iff_getElem.2 ⟨i, by simp; omega, by simp⟩

/-- Every handle in a value stands for one, and so does every handle in a corresponding value. -/
theorem exists_of_holds (paired : Paired P v v') :
    (∀ h, v.Holds h → ∃ h', P h h') ∧ ∀ h', v'.Holds h' → ∃ h, P h h' := by
  induction paired with
  | same fixed => exact ⟨fun h holds => ⟨h, fixed h holds⟩, fun h holds => ⟨h, fixed h holds⟩⟩
  | @template x x' twin =>
    constructor
    · intro h holds
      obtain rfl := holds_template_iff.1 holds
      exact ⟨x', twin⟩
    · intro h holds
      obtain rfl := holds_template_iff.1 holds
      exact ⟨x, twin⟩
  | @list items items' lengths _ ih =>
    have elements (i : Nat) (lt : i < items.length) :=
      ih (items[i], items'[i]) (List.mem_iff_getElem.2 ⟨i, by simp; omega, by simp⟩)
    constructor
    · intro h holds
      obtain ⟨v, member, holds⟩ := holds_list_iff.1 holds
      obtain ⟨i, lt, rfl⟩ := List.mem_iff_getElem.1 member
      exact (elements i lt).1 h holds
    · intro h holds
      obtain ⟨v, member, holds⟩ := holds_list_iff.1 holds
      obtain ⟨i, lt, rfl⟩ := List.mem_iff_getElem.1 member
      exact (elements i (lengths ▸ lt)).2 h holds

/-- Where handles only stand for themselves a value corresponds to itself alone, and its handles are
among those. -/
theorem fixed {Q : Handle → Prop} (paired : Paired (fun h h' => h = h' ∧ Q h) v v') :
    v = v' ∧ ∀ h, v.Holds h → Q h := by
  refine ⟨paired.eq_of_diagonal fun _ _ twin => twin.1, fun h holds => ?_⟩
  obtain ⟨h', rfl, isFixed⟩ := paired.exists_of_holds.1 h holds
  exact isFixed

theorem of_forall₂ (all : List.Forall₂ (Paired P) items items') :
    Paired P (.list items) (.list items') := by
  obtain ⟨lengths, each⟩ := List.forall₂_iff_zip.1 all
  exact .list lengths fun p member => each member

theorem forall₂_same (fixed : ∀ v ∈ items, ∀ h, v.Holds h → P h h) :
    List.Forall₂ (Paired P) items items :=
  List.forall₂_same.2 fun v member => .same (fixed v member)

theorem forall₂_of_list (lengths : items.length = items'.length)
    (each : ∀ p ∈ items.zip items', Paired P p.1 p.2) : List.Forall₂ (Paired P) items items' :=
  List.forall₂_iff_zip.2 ⟨lengths, fun member => each _ member⟩

theorem null : Paired P .null .null := .same fun _ holds => absurd holds not_holds_null

theorem text (s : String) : Paired P (.text s) (.text s) :=
  .same fun _ holds => absurd holds (not_holds_text s)

theorem int (n : Int64) : Paired P (.int n) (.int n) :=
  .same fun _ holds => absurd holds (not_holds_int n)

theorem bool (b : Bool) : Paired P (.bool b) (.bool b) :=
  .same fun _ holds => absurd holds (not_holds_bool b)

theorem isNull_eq (paired : Paired P v v') : v.isNull = v'.isNull := by
  cases paired <;> rfl

theorem truthy_eq (paired : Paired P v v') : v.truthy = v'.truthy := by
  cases paired with
  | same => rfl
  | template => rfl
  | @list items items' lengths _ => cases items <;> cases items' <;> simp_all [truthy]

theorem elements (paired : Paired P v v') :
    List.Forall₂ (Paired P) v.elements v'.elements := by
  cases paired with
  | same fixed =>
    exact forall₂_same fun w member h holds => fixed h (holds_of_mem_elements member holds)
  | template twin => exact .cons (.template twin) .nil
  | list lengths each => exact forall₂_of_list lengths each

theorem spread (paired : Paired P v v') :
    List.Forall₂ (Paired P) (Evaluator.spread v) (Evaluator.spread v') := by
  cases paired with
  | same fixed =>
    exact forall₂_same fun w member h holds => fixed h (holds_of_mem_spread member holds)
  | template twin => exact .cons (.template twin) .nil
  | list lengths each => exact forall₂_of_list lengths each

theorem head?_getD (all : List.Forall₂ (Paired P) items items') :
    Paired P (items.head?.getD .null) (items'.head?.getD .null) := by
  cases all with
  | nil => exact null
  | cons first _ => exact first

theorem listOrNull (all : List.Forall₂ (Paired P) items items') :
    Paired P (Value.listOrNull items) (Value.listOrNull items') := by
  cases all with
  | nil => exact null
  | cons first rest => exact of_forall₂ (.cons first rest)

theorem filter_isNull (all : List.Forall₂ (Paired P) items items') :
    List.Forall₂ (Paired P) (items.filter fun v => !v.isNull)
      (items'.filter fun v => !v.isNull) := by
  induction all with
  | nil => exact .nil
  | @cons v v' _ _ first _ ih =>
    by_cases isNull : v.isNull
    · simpa [isNull, ← first.isNull_eq] using ih
    · simpa [isNull, ← first.isNull_eq] using And.intro first ih

/-- List functions take corresponding values to corresponding values. -/
theorem apply (f : Builtin) (paired : Paired P v v') : Paired P (f.apply v) (f.apply v') := by
  have all := paired.elements
  cases f with
  | first => exact head?_getD all
  | rest =>
    simp only [Builtin.apply, ← List.drop_one]
    exact listOrNull (List.forall₂_drop 1 all)
  | last =>
    simp only [Builtin.apply, List.getLast?_eq_head?_reverse]
    exact head?_getD (List.forall₂_reverse_iff.2 all)
  | length =>
    simp only [Builtin.apply, all.length_eq]
    exact int _
  | strip => exact listOrNull (filter_isNull all)
  | trunc =>
    simp only [Builtin.apply, List.dropLast_eq_take, all.length_eq]
    exact listOrNull (List.forall₂_take _ all)

end Paired
end Value
end Stencil
