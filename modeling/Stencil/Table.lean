/-!
# Tables

Named entries in the order of their names, each name at most once.
-/
namespace Stencil

abbrev Table (α : Type) := List (String × α)

namespace Table

variable {α β : Type}

def empty : Table α := []

def find? (name : String) : Table α → Option α
  | [] => none
  | (n, a) :: rest => if n = name then some a else find? name rest

def contains (t : Table α) (name : String) : Bool := (find? name t).isSome

/-- Enters a value under a name, replacing the value that was there. -/
def insert (name : String) (a : α) : Table α → Table α
  | [] => [(name, a)]
  | (n, b) :: rest =>
    if name < n then (name, a) :: (n, b) :: rest
    else if name = n then (name, a) :: rest
    else (n, b) :: insert name a rest

def erase (name : String) (t : Table α) : Table α := t.filter fun entry => entry.1 ≠ name

/-- Of two entries of one name the later counts. -/
def ofList (entries : List (String × α)) : Table α :=
  entries.foldl (fun t entry => insert entry.1 entry.2 t) empty

def keys (t : Table α) : List String := t.map Prod.fst

def values (t : Table α) : List α := t.map Prod.snd

/-- The names of a table stand in their order. -/
def IsOrdered (t : Table α) : Prop := t.Pairwise fun a b => a.1 < b.1

@[simp] theorem find?_empty (name : String) : find? name (empty : Table α) = none := rfl

@[simp] theorem find?_insert_self (name : String) (a : α) (t : Table α) :
    find? name (insert name a t) = some a := by
  induction t with
  | nil => simp [insert, find?]
  | cons entry rest ih =>
    obtain ⟨n, b⟩ := entry
    simp only [insert]
    split
    · simp [find?]
    · split
      · simp [find?]
      · rename_i h
        simp [find?, Ne.symm h, ih]

theorem find?_insert_of_ne {name other : String} (h : other ≠ name) (a : α) (t : Table α) :
    find? other (insert name a t) = find? other t := by
  induction t with
  | nil => simp [insert, find?, h.symm]
  | cons entry rest ih =>
    obtain ⟨n, b⟩ := entry
    simp only [insert]
    split
    · simp [find?, h.symm]
    · split
      · rename_i hn
        subst hn
        simp [find?, h.symm]
      · simp [find?, ih]

theorem find?_insert (name other : String) (a : α) (t : Table α) :
    find? other (insert name a t) = if other = name then some a else find? other t := by
  by_cases h : other = name
  · simp [h]
  · simp [h, find?_insert_of_ne h]

theorem mem_of_mem_insert {name : String} {a : α} {t : Table α} {entry : String × α}
    (h : entry ∈ insert name a t) : entry = (name, a) ∨ entry ∈ t := by
  induction t with
  | nil => simpa [insert] using h
  | cons first rest ih =>
    obtain ⟨n, b⟩ := first
    simp only [insert] at h
    split at h
    · simpa using h
    · split at h
      · simp only [List.mem_cons] at h ⊢
        rcases h with h | h
        · exact Or.inl h
        · exact Or.inr (Or.inr h)
      · simp only [List.mem_cons] at h ⊢
        rcases h with h | h
        · exact Or.inr (Or.inl h)
        · rcases ih h with h | h
          · exact Or.inl h
          · exact Or.inr (Or.inr h)

/-- The order of the names is kept. -/
theorem isOrdered_insert {t : Table α} (h : IsOrdered t) (name : String) (a : α) :
    IsOrdered (insert name a t) := by
  induction t with
  | nil => simp [insert, IsOrdered]
  | cons first rest ih =>
    obtain ⟨n, b⟩ := first
    obtain ⟨below, ordered⟩ := List.pairwise_cons.1 h
    simp only [insert]
    split
    · rename_i lt
      refine List.pairwise_cons.2 ⟨fun entry mem => ?_, h⟩
      rcases List.mem_cons.1 mem with rfl | mem
      · exact lt
      · exact String.lt_trans lt (below entry mem)
    · split
      · rename_i eq
        exact List.pairwise_cons.2 ⟨fun entry mem => eq ▸ below entry mem, ordered⟩
      · rename_i notLt notEq
        have lt : n < name :=
          String.not_le.1 fun le => notEq (String.le_antisymm le (String.not_lt.1 notLt))
        refine List.pairwise_cons.2 ⟨fun entry mem => ?_, ih ordered⟩
        rcases mem_of_mem_insert mem with rfl | mem
        · exact lt
        · exact below entry mem

theorem find?_erase (name other : String) (t : Table α) :
    find? other (erase name t) = if other = name then none else find? other t := by
  induction t with
  | nil => simp [erase, find?]
  | cons entry rest ih =>
    obtain ⟨n, b⟩ := entry
    simp only [erase] at ih
    by_cases hn : n = name
    · subst hn
      by_cases ho : other = n <;> simp_all [erase, find?, eq_comm]
    · by_cases ho : n = other <;> simp_all [erase, find?]

end Table
end Stencil
