import Stencil.Proofs.Closed
import Stencil.Proofs.Sequence
/-!
# The instances of an application

What an application that has no arguments of its own binds in its instances: the tables of arguments
that they are entered with, and what is looked up in them.
-/
namespace Stencil

/-- A template applied inside `scope`. Nothing but arguments is bound in it. -/
def Activation.applied (scope : Handle) (t : Template) (arguments : Table Value) : Activation :=
  ⟨t, .empty, arguments, some scope, .template⟩

/-- The state with one more instance of a template inside `scope`. -/
def RenderState.applying (s : RenderState) (scope : Handle) (t : Template)
    (arguments : Table Value) : RenderState :=
  { s with arena := (s.arena.push (.applied scope t arguments)).2 }

namespace Arena

variable {a b : Arena} {scope h : Handle} {t : Template} {arguments : Table Value} {name : String}
  {v : Value}

theorem modify_push (a : Arena) (act : Activation) (f : Activation → Activation) :
    (a.push act).2.modify (a.push act).1 f = (a.push (f act)).2 := by
  simp only [push, modify, size]
  congr 1
  apply Array.ext
  · simp
  · intro i inModified _
    have bound : i < a.slots.size + 1 := by simpa using inModified
    simp only [Array.getElem_modify, Array.getElem_push]
    by_cases last : a.slots.size = i
    · simp [last]
    · have older : i < a.slots.size := by omega
      simp [last, older]

theorem setArgument_push (a : Arena) (scope : Handle) (t : Template) (arguments : Table Value)
    (name : String) (v : Value) :
    (a.push (.applied scope t arguments)).2.setArgument ⟨a.size⟩ name v =
      (a.push (.applied scope t (arguments.insert name v))).2 :=
  modify_push a _ _

/-! ## Instances -/

/-- The activation of a handle is a template applied inside `scope`. -/
structure Applied (a : Arena) (scope : Handle) (t : Template) (arguments : Table Value)
    (h : Handle) : Prop where
  inside : a.contains h
  get : a.get h = .applied scope t arguments

theorem Applied.template (applied : a.Applied scope t arguments h) : (a.get h).template = t := by
  rw [applied.get]
  rfl

theorem applied_push (a : Arena) (scope : Handle) (t : Template) (arguments : Table Value) :
    (a.push (.applied scope t arguments)).2.Applied scope t arguments ⟨a.size⟩ where
  inside := by simp [contains]
  get := get_push_self a _

theorem Applied.push (applied : a.Applied scope t arguments h) (act : Activation) :
    (a.push act).2.Applied scope t arguments h where
  inside := (keeps_push a act).contains applied.inside
  get := by rw [get_push_of_contains applied.inside, applied.get]

/-- A name comes to a value in an instance, here and in every arena that goes on from here and binds
no arguments anew. -/
def Gives (a : Arena) (h : Handle) (name : String) (v : Value) : Prop :=
  ∀ b, a.Keeps b → b.resolve h name = .found v

theorem Gives.keep (gives : a.Gives h name v) (keeps : a.Keeps b) : b.Gives h name v :=
  fun c kept => gives c (keeps.trans kept)

/-- The arguments of an instance are looked up first. -/
theorem Applied.gives (applied : a.Applied scope t arguments h)
    (bound : arguments.find? name = some v) : a.Gives h name v := by
  intro b keeps
  have found : (b.get h).arguments.find? name = some v := by
    rw [keeps.arguments applied.inside, applied.get]
    exact bound
  simp [resolve, resolveFrom, Activation.lookup, found]

/-- Applies a template inside `scope` once for each table of arguments. -/
def applyAll (a : Arena) (scope : Handle) (t : Template) : List (Table Value) → Arena
  | [] => a
  | arguments :: rest => (a.push (.applied scope t arguments)).2.applyAll scope t rest

/-- The handles that an arena gives out next. -/
def nextHandles (a : Arena) (n : Nat) : List Handle := (List.range' a.size n).map Handle.mk

theorem nextHandles_succ (a : Arena) (act : Activation) (n : Nat) :
    a.nextHandles (n + 1) = ⟨a.size⟩ :: (a.push act).2.nextHandles n := by
  rw [nextHandles, nextHandles, size_push, List.range'_succ, List.map_cons]

theorem getElem?_nextHandles {n j : Nat} (found : (a.nextHandles n)[j]? = some h) :
    j < n ∧ h = ⟨a.size + j⟩ := by
  obtain ⟨inside, rfl⟩ := List.getElem?_eq_some_iff.1 found
  have inside : j < n := by simpa [nextHandles] using inside
  exact ⟨inside, by simp [nextHandles]⟩

theorem keeps_applyAll (a : Arena) (scope : Handle) (t : Template) (tables : List (Table Value)) :
    a.Keeps (a.applyAll scope t tables) := by
  induction tables generalizing a with
  | nil => exact .refl a
  | cons arguments rest ih => exact (keeps_push a _).trans (ih _)

theorem Applied.applyAll (applied : a.Applied scope t arguments h) (outer : Handle)
    (other : Template) (tables : List (Table Value)) :
    (a.applyAll outer other tables).Applied scope t arguments h := by
  induction tables generalizing a with
  | nil => exact applied
  | cons _ rest ih => exact ih (applied.push _)

/-- The instances come one after another behind what the arena had. -/
theorem applied_applyAll {tables : List (Table Value)} {j : Nat}
    (table : tables[j]? = some arguments) :
    (a.applyAll scope t tables).Applied scope t arguments ⟨a.size + j⟩ := by
  induction tables generalizing a j with
  | nil => simp at table
  | cons first rest ih =>
    cases j with
    | zero =>
      obtain rfl : first = arguments := by simpa using table
      exact (applied_push a scope t first).applyAll scope t rest
    | succ j =>
      have later := ih (a := (a.push (.applied scope t first)).2) (j := j) (by simpa using table)
      rwa [size_push, show a.size + 1 + j = a.size + (j + 1) by omega] at later

end Arena

namespace Evaluator

open Arena

variable {setting : Setting} {ev : Evaluator} {scope : Handle} {t : Template} {s : RenderState}

/-! ## One argument for each formal parameter -/

/-- What a step of an aligned application has for a formal parameter, unless it is null. -/
def given? (element? : Option Value) : Option Value := element?.filter fun v => !v.isNull

theorem given?_of_not_null {v : Value} (notNull : v.isNull = false) : given? (some v) = some v := by
  simp [given?, Option.filter, notNull]

/-- Enters what there is for a formal parameter. -/
def enterGiven (arguments : Table Value) (cell : String × Option Value) : Table Value :=
  match given? cell.2 with
  | some v => arguments.insert cell.1 v
  | none => arguments

/-- The arguments of the instance for one step of an aligned application. -/
def rowArguments (formals : List String) (row : List (Option Value)) (step : Nat) : Table Value :=
  ((formals.zip row).foldl enterGiven .empty).insert indexName (.int (.ofNat step))

/-- The arguments of the instance for one element of a rotating application. -/
def elementArguments (t : Template) (index : Nat) (element : Value) : Table Value :=
  let arguments := match soleFormal? t with
    | some formal => Table.empty.insert formal element
    | none => .empty
  ((arguments.insert elementName element).insert formerElementName element).insert indexName
    (.int (.ofNat index))

theorem find?_enterGiven (arguments : Table Value) (cell : String × Option Value) (name : String) :
    (enterGiven arguments cell).find? name =
      if name = cell.1 then given? cell.2 <|> arguments.find? name else arguments.find? name := by
  unfold enterGiven
  cases given? cell.2 with
  | none => simp
  | some v => simp [Table.find?_insert]

theorem find?_enterAll_of_not_mem {formals : List String} {name : String}
    (other : name ∉ formals) (row : List (Option Value)) (arguments : Table Value) :
    ((formals.zip row).foldl enterGiven arguments).find? name = arguments.find? name := by
  induction formals generalizing row arguments with
  | nil => rfl
  | cons formal formals ih =>
    cases row with
    | nil => rfl
    | cons element? row =>
      have ne : name ≠ formal := fun same => other (same ▸ List.mem_cons_self)
      have other : name ∉ formals := fun member => other (List.mem_cons_of_mem formal member)
      rw [List.zip_cons_cons, List.foldl_cons, ih other, find?_enterGiven, if_neg ne]

/-- As no other formal parameter has its name, each one keeps what it is bound to. -/
theorem find?_enterAll {formals : List String} (distinct : formals.Nodup) {i : Nat} {name : String}
    (formal : formals[i]? = some name) (row : List (Option Value)) (arguments : Table Value) :
    ((formals.zip row).foldl enterGiven arguments).find? name =
      (row[i]?.bind given? <|> arguments.find? name) := by
  induction formals generalizing row arguments i with
  | nil => simp at formal
  | cons first formals ih =>
    obtain ⟨fresh, distinct⟩ := List.nodup_cons.1 distinct
    cases row with
    | nil => simp
    | cons element? row =>
      rw [List.zip_cons_cons, List.foldl_cons]
      cases i with
      | zero =>
        obtain rfl : first = name := by simpa using formal
        simp [find?_enterAll_of_not_mem fresh, find?_enterGiven]
      | succ i =>
        have formal : formals[i]? = some name := by simpa using formal
        have ne : name ≠ first := fun same => fresh (same ▸ List.mem_of_getElem? formal)
        simp [ih distinct formal, find?_enterGiven, ne]

theorem find?_indexName_rowArguments (formals : List String) (row : List (Option Value))
    (step : Nat) : (rowArguments formals row step).find? indexName = some (.int (.ofNat step)) :=
  Table.find?_insert_self ..

/-- A formal parameter that has the name of the number is bound to the number. -/
theorem find?_rowArguments {formals : List String} (distinct : formals.Nodup) {i : Nat}
    {name : String} (formal : formals[i]? = some name) (row : List (Option Value)) (step : Nat) :
    (rowArguments formals row step).find? name =
      if name = indexName then some (.int (.ofNat step)) else row[i]?.bind given? := by
  simp [rowArguments, Table.find?_insert, find?_enterAll distinct formal]

theorem find?_elementArguments {formal : String} (sole : soleFormal? t = some formal) (index : Nat)
    (element : Value) :
    (elementArguments t index element).find? formal =
      some (if formal = indexName then .int (.ofNat index) else element) := by
  simp only [elementArguments, sole, Table.find?_insert]
  split_ifs <;> rfl

/-! ## Runs -/

theorem bindRow_push (a : Arena) (formals : List String) (row : List (Option Value)) (step : Nat) :
    bindRow ⟨a.size⟩ formals row step { s with arena := (a.push (.applied scope t .empty)).2 } =
      .ok () { s with arena := (a.push (.applied scope t (rowArguments formals row step))).2 } := by
  let entered (arguments : Table Value) : Arena := (a.push (.applied scope t arguments)).2
  have binds (arguments : Table Value) (cell : String × Option Value) :
      (match cell.2 with
        | some v =>
          if v.isNull then entered arguments
          else (entered arguments).setArgument ⟨a.size⟩ cell.1 v
        | none => entered arguments) = entered (enterGiven arguments cell) := by
    obtain ⟨formal, _ | v⟩ := cell
    · rfl
    · cases isNull : v.isNull
      · simp [entered, enterGiven, given?, Option.filter, isNull, setArgument_push]
      · simp [enterGiven, given?, Option.filter, isNull]
  simp only [bindRow, Run.changeArena]
  rw [List.foldl_hom entered binds]
  simp only [entered, setArgument_push]
  rfl

theorem bindElement_push (a : Arena) (t : Template) (index : Nat) (element : Value) :
    bindElement ⟨a.size⟩ t index element
        { s with arena := (a.push (.applied scope t .empty)).2 } =
      .ok () { s with
        arena := (a.push (.applied scope t (elementArguments t index element))).2 } := by
  cases sole : soleFormal? t <;>
    simp [bindElement, Run.changeArena, elementArguments, sole, setArgument_push]

/-- Without arguments of its own, an application binds nothing else. -/
theorem bindArguments_none (caller callee : Handle) (s : RenderState) :
    ev.bindArguments caller callee .none s = .ok () s := rfl

/-- The instance for an element is given the element before the arguments of the reference. -/
theorem applyTo_eq (scope : Handle) (t : Template) (args : Arguments) (index : Nat)
    (element : Value) (s : RenderState) :
    ev.applyTo scope t args index element s =
      (ev.bindArguments scope ⟨s.arena.size⟩ args >>= fun _ => pure (.template ⟨s.arena.size⟩))
        (s.applying scope t (elementArguments t index element)) := by
  have entered : Run.enter (fun a => a.embed scope t) s =
      .ok ⟨s.arena.size⟩ (s.applying scope t .empty) := rfl
  rw [applyTo, Run.bind_of_ok _ entered]
  exact Run.bind_of_ok _ (bindElement_push s.arena t index element)

theorem applyTo_none (index : Nat) (element : Value) :
    ev.applyTo scope t .none index element s =
      .ok (.template ⟨s.arena.size⟩) (s.applying scope t (elementArguments t index element)) := by
  rw [applyTo_eq, Run.bind_of_ok _ (bindArguments_none ..)]
  rfl

/-- The tables of arguments for the steps of an aligned application that come after the first `step`
ones. -/
def rowTables (formals : List String) (step : Nat) (rows : List (List (Option Value))) :
    List (Table Value) :=
  rows.mapIdx fun j row => rowArguments formals row (step + j + 1)

theorem applyRows_none (step : Nat) (rows : List (List (Option Value))) :
    ev.applyRows scope t .none step rows s =
      .ok ((s.arena.nextHandles rows.length).map .template)
        { s with arena := s.arena.applyAll scope t (rowTables t.formals step rows) } := by
  induction rows generalizing step s with
  | nil => rfl
  | cons row rest ih =>
    have entered : Run.enter (fun a => a.embed scope t) s =
        .ok ⟨s.arena.size⟩ { s with arena := (s.arena.push (.applied scope t .empty)).2 } := rfl
    rw [applyRows, Run.bind_of_ok _ entered, Run.bind_of_ok _ (bindRow_push s.arena ..),
      Run.bind_of_ok _ (bindArguments_none ..), Run.bind_of_ok _ (ih ..)]
    have tables : rowTables t.formals step (row :: rest) =
        rowArguments t.formals row (step + 1) :: rowTables t.formals (step + 1) rest := by
      simp [rowTables, List.mapIdx_cons, Nat.add_assoc, Nat.add_comm 1]
    rw [tables, List.length_cons, nextHandles_succ]
    rfl

end Evaluator
end Stencil
