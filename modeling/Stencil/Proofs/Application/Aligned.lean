import Stencil.Proofs.Application.Instances
import Stencil.Render.Evaluator
/-!
# Aligned application

How far several sources are walked side by side, and what the instance of each step is bound to. As
many sources as there are formal parameters are walked as far as the shortest; otherwise those that
there are parameters for are walked as far as the longest.
-/
namespace Stencil
namespace Evaluator

open Arena

variable {setting : Setting} {ev : Evaluator} {scope : Handle} {sources : List Expr}
  {ref : TemplateRef} {t : Template} {s s₁ s₂ : RenderState} {values : List Value}
  {lists : List (List Value)} {formals : List String} {i j : Nat}

/-! ## Lengths -/

/-- How many elements the shortest of the lists has, and 0 where there is no list. -/
def shortest (lists : List (List Value)) : Nat := ((lists.map List.length).min?).getD 0

def longest (lists : List (List Value)) : Nat := ((lists.map List.length).max?).getD 0

theorem shortest_le {l : List Value} (member : l ∈ lists) : shortest lists ≤ l.length := by
  have lengths : l.length ∈ lists.map List.length := List.mem_map_of_mem member
  cases least : (lists.map List.length).min? with
  | none => simp [shortest, least]
  | some n =>
    simp only [shortest, least, Option.getD_some]
    exact (List.min?_eq_some_iff.1 least).2 _ lengths

theorem le_longest {l : List Value} (member : l ∈ lists) : l.length ≤ longest lists := by
  have lengths : l.length ∈ lists.map List.length := List.mem_map_of_mem member
  cases most : (lists.map List.length).max? with
  | none =>
    rw [List.max?_eq_none_iff.1 most] at lengths
    cases lengths
  | some n =>
    simp only [longest, most, Option.getD_some]
    exact (List.max?_eq_some_iff.1 most).2 _ lengths

theorem exists_length_eq_shortest (nonempty : lists ≠ []) :
    ∃ l ∈ lists, l.length = shortest lists := by
  cases least : (lists.map List.length).min? with
  | none => simp_all [List.min?_eq_none_iff]
  | some n =>
    obtain ⟨l, member, length⟩ := List.mem_map.1 (List.min?_eq_some_iff.1 least).1
    exact ⟨l, member, by simp [shortest, least, length]⟩

theorem exists_length_eq_longest (nonempty : lists ≠ []) :
    ∃ l ∈ lists, l.length = longest lists := by
  cases most : (lists.map List.length).max? with
  | none => simp_all [List.max?_eq_none_iff]
  | some n =>
    obtain ⟨l, member, length⟩ := List.mem_map.1 (List.max?_eq_some_iff.1 most).1
    exact ⟨l, member, by simp [longest, most, length]⟩

theorem shortest_ne_longest_iff :
    shortest lists ≠ longest lists ↔ ∃ l ∈ lists, ∃ m ∈ lists, l.length ≠ m.length := by
  constructor
  · intro differ
    have nonempty : lists ≠ [] := by
      rintro rfl
      exact differ rfl
    obtain ⟨l, inside, short⟩ := exists_length_eq_shortest nonempty
    obtain ⟨m, within, long⟩ := exists_length_eq_longest nonempty
    exact ⟨l, inside, m, within, by rwa [short, long]⟩
  · rintro ⟨l, inside, m, within, differ⟩ same
    have := shortest_le inside
    have := shortest_le within
    have := le_longest inside
    have := le_longest within
    omega

/-- How many steps there are through the lists. -/
def stepCount (formals : List String) (lists : List (List Value)) : Nat :=
  if formals.length = lists.length then shortest lists else longest (lists.take formals.length)

theorem longest_walked (formals : List String) (lists : List (List Value)) :
    longest (walked formals lists) = stepCount formals lists := by
  unfold walked stepCount
  by_cases even : formals.length = lists.length
  · simp only [even, ne_eq, not_true_eq_false, if_false, if_true]
    change longest (lists.map fun l => l.take (shortest lists)) = shortest lists
    have cut (l : List Value) (member : l ∈ lists) :
        (l.take (shortest lists)).length = shortest lists := by
      have := shortest_le member
      simpa using this
    by_cases empty : lists = []
    · rw [empty]
      rfl
    · have nonempty : (lists.map fun l => l.take (shortest lists)) ≠ [] := by simpa using empty
      obtain ⟨l, member, long⟩ := exists_length_eq_longest nonempty
      obtain ⟨whole, inside, rfl⟩ := List.mem_map.1 member
      rw [← long, cut whole inside]
  · simp [even]

theorem length_rows (lists : List (List Value)) : (rows lists).length = longest lists := by
  simp [rows, longest]

theorem getElem?_rows (inside : j < longest lists) :
    (rows lists)[j]? = some (lists.map fun l => l[j]?) := by
  unfold longest at inside
  simp [rows, inside]

/-- The sources that are walked have the elements for a step that they have in full. -/
theorem getElem?_walked (parameter : i < formals.length) (inside : j < stepCount formals lists) :
    ((walked formals lists)[i]?.bind fun l => l[j]?) = lists[i]?.bind fun l => l[j]? := by
  unfold walked
  unfold stepCount at inside
  by_cases even : formals.length = lists.length
  · rw [if_pos even] at inside
    have inside : j < ((lists.map List.length).min?).getD 0 := inside
    simp [even, Option.bind_map, inside]
  · simp [even, parameter]

/-! ## Sources -/

/-- The sources have elements if each of them evaluates to a value that is not null. -/
theorem evalSources_ok_iff :
    ev.evalSources scope sources s = .ok (some lists) s₁ ↔
      ∃ values, sources.mapM (ev.eval scope) s = .ok values s₁ ∧
        (∀ v ∈ values, v.isNull = false) ∧ values.map Value.elements = lists := by
  induction sources generalizing s lists with
  | nil =>
    constructor
    · intro evaluated
      cases evaluated
      exact ⟨[], rfl, by simp, rfl⟩
    · rintro ⟨values, evaluated, -, rfl⟩
      cases evaluated
      rfl
  | cons e rest ih =>
    rw [List.mapM_cons, evalSources]
    constructor
    · intro evaluated
      obtain ⟨v, u, first, evaluated⟩ := Run.bind_ok evaluated
      cases isNull : v.isNull with
      | true =>
        rw [isNull] at evaluated
        cases evaluated
      | false =>
        rw [isNull] at evaluated
        obtain ⟨others?, u', evaluated, paired⟩ := Run.bind_ok evaluated
        cases others? with
        | none => cases paired
        | some others =>
          cases paired
          obtain ⟨values, mapped, present, rfl⟩ := ih.1 evaluated
          refine ⟨v :: values, ?_, by simpa [isNull] using present, rfl⟩
          rw [Run.bind_of_ok _ first, Run.bind_of_ok _ mapped]
          rfl
    · rintro ⟨values, evaluated, present, rfl⟩
      obtain ⟨v, u, first, evaluated⟩ := Run.bind_ok evaluated
      obtain ⟨others, u', mapped, paired⟩ := Run.bind_ok evaluated
      cases paired
      have notNull : v.isNull = false := present v List.mem_cons_self
      have later := ih.2 ⟨others, mapped, fun w member => present w (List.mem_cons_of_mem v member),
        rfl⟩
      rw [Run.bind_of_ok _ first, notNull]
      exact Run.bind_of_ok _ later

theorem length_of_mapM_ok (evaluated : sources.mapM (ev.eval scope) s = .ok values s₁) :
    values.length = sources.length := by
  induction sources generalizing s values with
  | nil =>
    cases evaluated
    rfl
  | cons e rest ih =>
    rw [List.mapM_cons] at evaluated
    obtain ⟨v, u, -, evaluated⟩ := Run.bind_ok evaluated
    obtain ⟨others, u, evaluated, paired⟩ := Run.bind_ok evaluated
    cases paired
    simp [ih evaluated]

/-! ## Runs -/

/-- What an aligned application reports of sources and formal parameters that do not fit. -/
def misreports (t : Template) (lists : List (List Value)) : List TemplateError :=
  (misalignment? t.formals lists).toList.map fun (expected, actual) =>
    .arityMismatch t.name expected actual

theorem misreports_eq (t : Template) (lists : List (List Value)) :
    misreports t lists =
      if t.formals.length ≠ lists.length then
        [.arityMismatch t.name t.formals.length lists.length]
      else if shortest lists ≠ longest lists then
        [.arityMismatch t.name (shortest lists) (longest lists)]
      else [] := by
  unfold misreports misalignment?
  split
  · rfl
  · change List.map _ (Option.toList (if shortest lists ≠ longest lists then
      some (shortest lists, longest lists) else none)) = _
    split <;> rfl

/-- The arguments of the instance for a step, `j` steps coming before it. -/
def alignedArguments (formals : List String) (lists : List (List Value)) (j : Nat) :
    Table Value :=
  rowArguments formals ((walked formals lists).map fun l => l[j]?) (j + 1)

/-- The tables of arguments that an aligned application has for its instances. -/
def alignedTables (formals : List String) (lists : List (List Value)) : List (Table Value) :=
  rowTables formals 0 (rows (walked formals lists))

theorem getElem?_alignedTables (inside : j < stepCount formals lists) :
    (alignedTables formals lists)[j]? = some (alignedArguments formals lists j) := by
  have row : (rows (walked formals lists))[j]? = some ((walked formals lists).map fun l => l[j]?) :=
    getElem?_rows (by rwa [longest_walked])
  simp [alignedTables, rowTables, alignedArguments, row]

theorem find?_alignedArguments (distinct : formals.Nodup) {name : String}
    (formal : formals[i]? = some name) (inside : j < stepCount formals lists) :
    (alignedArguments formals lists j).find? name =
      if name = indexName then some (.int (.ofNat (j + 1)))
      else given? (lists[i]?.bind fun l => l[j]?) := by
  have parameter : i < formals.length := (List.getElem?_eq_some_iff.1 formal).1
  rw [alignedArguments, find?_rowArguments distinct formal, ← getElem?_walked parameter inside]
  simp only [List.getElem?_map, Option.bind_map]
  cases (walked formals lists)[i]? <;> rfl

theorem applyAligned_none (evaluated : ev.evalSources scope sources s = .ok (some lists) s₁)
    (resolved : ev.referred setting scope ref s₁ = .ok (some (t, .none)) s₂) :
    ev.applyAligned setting scope sources ref s =
      .ok (.list ((s₂.arena.nextHandles (stepCount t.formals lists)).map .template))
        { s₂ with
          arena := s₂.arena.applyAll scope t (alignedTables t.formals lists)
          diagnostics := s₂.diagnostics ++ misreports t lists } := by
  have walk (ds : List TemplateError) :
      (do return .list (← ev.applyRows scope t .none 0 (rows (walked t.formals lists))) : Run Value)
          { s₂ with diagnostics := ds } =
        .ok (.list ((s₂.arena.nextHandles (stepCount t.formals lists)).map .template))
          { s₂ with
            arena := s₂.arena.applyAll scope t (alignedTables t.formals lists)
            diagnostics := ds } := by
    rw [Run.bind_of_ok _ (applyRows_none ..), length_rows, longest_walked]
    rfl
  rw [applyAligned, Run.bind_of_ok _ evaluated]
  dsimp only
  rw [Run.bind_of_ok _ resolved, misreports]
  dsimp only
  cases misalignment? t.formals lists with
  | none =>
    rw [Option.toList_none, List.map_nil, List.append_nil]
    exact walk s₂.diagnostics
  | some numbers => exact walk (s₂.diagnostics ++ [.arityMismatch t.name numbers.1 numbers.2])

end Evaluator

open Arena Evaluator in
/-- Of sources that are not null, a template without arguments of its own gets an instance for each
step: as many steps as the shortest source has elements if there are as many sources as formal
parameters, and otherwise as many as the longest source that there is a parameter for. An instance
has the elements of its step under the formal parameters, except where there is none or it is null,
and the number of the step. -/
theorem aligned_application_walks {setting : Setting} {ev : Evaluator} {scope : Handle}
    {sources : List Expr} {ref : TemplateRef} {t : Template} {s s₁ s₂ : RenderState}
    {values : List Value} (evaluated : sources.mapM (ev.eval scope) s = .ok values s₁)
    (present : ∀ v ∈ values, v.isNull = false)
    (resolved : ev.referred setting scope ref s₁ = .ok (some (t, .none)) s₂)
    (distinct : t.formals.Nodup) (unnumbered : indexName ∉ t.formals) :
    let lists := (values.map Value.elements).take t.formals.length
    let count := if sources.length = t.formals.length then shortest lists else longest lists
    let reports : List TemplateError :=
      if sources.length ≠ t.formals.length then
        [.arityMismatch t.name t.formals.length sources.length]
      else if ∃ l ∈ lists, ∃ m ∈ lists, l.length ≠ m.length then
        [.arityMismatch t.name (shortest lists) (longest lists)]
      else []
    ∃ a,
      ev.applyAligned setting scope sources ref s =
        .ok (.list ((s₂.arena.nextHandles count).map .template))
          { s₂ with arena := a, diagnostics := s₂.diagnostics ++ reports } ∧
      s₂.arena.Keeps a ∧
      ∀ j < count, ∃ arguments,
        a.Applied scope t arguments ⟨s₂.arena.size + j⟩ ∧
        arguments.find? indexName = some (.int (.ofNat (j + 1))) ∧
        ∀ (i : Nat) formal, t.formals[i]? = some formal →
          arguments.find? formal = given? (lists[i]?.bind fun l => l[j]?) := by
  intro lists count reports
  let whole := values.map Value.elements
  have given : ev.evalSources scope sources s = .ok (some whole) s₁ :=
    evalSources_ok_iff.2 ⟨values, evaluated, present, rfl⟩
  have length : whole.length = sources.length := by
    rw [List.length_map, length_of_mapM_ok evaluated]
  have even_lists (even : sources.length = t.formals.length) : lists = whole :=
    List.take_of_length_le (by rw [length, even])
  have counted : stepCount t.formals whole = count := by
    simp only [stepCount, count, length, eq_comm (a := t.formals.length)]
    split
    · rename_i even
      rw [even_lists even]
    · rfl
  have reported : misreports t whole = reports := by
    simp only [misreports_eq, reports, length, ne_comm (a := t.formals.length)]
    split
    · rfl
    · rename_i even
      rw [even_lists (not_not.1 even)]
      exact if_congr shortest_ne_longest_iff rfl rfl
  refine ⟨s₂.arena.applyAll scope t (alignedTables t.formals whole), ?_, keeps_applyAll .., ?_⟩
  · rw [applyAligned_none given resolved, counted, reported]
  · intro j inside
    rw [← counted] at inside
    refine ⟨alignedArguments t.formals whole j,
      applied_applyAll (getElem?_alignedTables inside), find?_indexName_rowArguments .., ?_⟩
    intro i formal parameter
    have named : formal ≠ indexName := fun same =>
      unnumbered (same ▸ List.mem_of_getElem? parameter)
    have walkedToo : i < t.formals.length := (List.getElem?_eq_some_iff.1 parameter).1
    rw [find?_alignedArguments distinct parameter inside, if_neg named,
      List.getElem?_take_of_lt walkedToo]

/-- A page with three columns. -/
def Evaluator.columns : RenderState :=
  let page := (Arena.empty.instantiate (.plain "page" [])).2
  let page := page.setAttribute ⟨0⟩ "a" (.list [.text "p", .text "q"])
  let page := page.setAttribute ⟨0⟩ "b" (.list [.null, .text "r", .text "s"])
  let page := page.setAttribute ⟨0⟩ "c" (.map [("k", .text "t")])
  ⟨page, [], .fresh .autoIndent⟩

/-- The shorter of two columns ends the walk. A null in the longer one is not bound. -/
theorem columns_walked :
    let ev := Evaluator.ofDepth .standard 1
    let row : Template := ⟨"row", ["x", "y"], [], true, none⟩
    ∃ u, ev.applyAligned .standard ⟨0⟩ [.attribute "b", .attribute "a"] (.inline row)
        Evaluator.columns = .ok (.list [.template ⟨1⟩, .template ⟨2⟩]) u ∧
      u.diagnostics = [.arityMismatch "row" 2 3] ∧
      (u.arena.get ⟨1⟩).arguments.find? "x" = none ∧
      (u.arena.get ⟨2⟩).arguments.find? "x" = some (.text "r") ∧
      (u.arena.get ⟨2⟩).arguments.find? "y" = some (.text "q") := by
  intro ev row
  have evaluated : [.attribute "b", .attribute "a"].mapM (ev.eval ⟨0⟩) Evaluator.columns =
      .ok [.list [.null, .text "r", .text "s"], .list [.text "p", .text "q"]]
        Evaluator.columns := rfl
  have resolved : ev.referred .standard ⟨0⟩ (.inline row) Evaluator.columns =
      .ok (some (row, .none)) Evaluator.columns := rfl
  obtain ⟨a, applied, -, instances⟩ := aligned_application_walks evaluated
    (by simp [Value.isNull]) resolved (by decide) (by decide)
  obtain ⟨_, first, -, bindsFirst⟩ := instances 0 (by decide)
  obtain ⟨_, second, -, bindsSecond⟩ := instances 1 (by decide)
  refine ⟨_, applied, rfl, ?_, ?_, ?_⟩
  · exact first.get ▸ bindsFirst 0 "x" rfl
  · exact second.get ▸ bindsSecond 0 "x" rfl
  · exact second.get ▸ bindsSecond 1 "y" rfl

/-- Of three columns a template with two parameters takes the first two, and there is an instance for
the second element of the one although the other has only one. -/
theorem columns_walked_past_shortest :
    let ev := Evaluator.ofDepth .standard 1
    let row : Template := ⟨"row", ["x", "y"], [], true, none⟩
    ∃ values u, [.attribute "a", .attribute "c", .attribute "b"].mapM (ev.eval ⟨0⟩)
        Evaluator.columns = .ok values Evaluator.columns ∧
      ev.applyAligned .standard ⟨0⟩ [.attribute "a", .attribute "c", .attribute "b"] (.inline row)
        Evaluator.columns = .ok (.list [.template ⟨1⟩, .template ⟨2⟩]) u ∧
      Evaluator.shortest ((values.map Value.elements).take 2) = 1 :=
  ⟨_, _, rfl, rfl, by decide⟩

end Stencil
