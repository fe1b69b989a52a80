import Stencil.Proofs.Application.Aligned
import Stencil.Proofs.Footprint
/-!
# Parameters of applied templates

What a formal parameter comes to in an instance that an application has bound it in: the element of
the step, whatever the names are that the application binds on its own, and the number of the step
where the parameter has that name. What is evaluated between two steps does not change it.
-/
namespace Stencil

/-- The arguments that come with a reference. -/
def TemplateRef.arguments : TemplateRef → Arguments
  | .named _ args => args
  | .inline _ => .none

namespace Evaluator

open Arena

variable {setting : Setting} {ev : Evaluator} {depth index : Nat} {scope : Handle}
  {templates : List TemplateRef} {ref : TemplateRef} {t : Template} {args : Arguments}
  {s u : RenderState} {elements instances : List Value} {a : Arena}

theorem arguments_of_referred (found : ev.referred setting scope ref s = .ok (some (t, args)) u) :
    args = ref.arguments := by
  cases ref with
  | «inline» template =>
    cases found
    rfl
  | named target given =>
    obtain ⟨found?, v, -, paired⟩ := Run.bind_ok found
    cases found? with
    | none => cases paired
    | some template =>
      cases paired
      rfl

/-- What a bound formal parameter comes to in the instance for an element. -/
def parameterValue (formal : String) (element : Value) (number : Nat) : Value :=
  if formal = indexName then .int (.ofNat number) else element

/-! ## Templates applied in turn -/

theorem keeps_of_footprint {α : Type} {x : Run α} {r : α} (inside : s.arena.contains scope)
    (footprint : (Footprint.invariant s.arena).Keeps scope Invariant.Any x)
    (ran : x s = .ok r u) : s.arena.Keeps u.arena := by
  have ends := footprint s (.refl s.arena) inside
  rw [ran] at ends
  cases ends with
  | ok extends_ => exact extends_.toKeeps

theorem upheld_footprint (setting : Setting) (a : Arena) (depth : Nat) :
    (Footprint.invariant a).Upheld (ofDepth setting depth) :=
  Invariant.upheld_ofDepth (Footprint.lawful setting a) (fun _ => trivial) depth

theorem keeps_eval {e : Expr} {v : Value} (inside : s.arena.contains scope)
    (ran : (ofDepth setting depth).eval scope e s = .ok v u) : s.arena.Keeps u.arena :=
  keeps_of_footprint inside ((upheld_footprint setting s.arena depth).eval scope e) ran

theorem keeps_referred {found? : Option (Template × Arguments)} (inside : s.arena.contains scope)
    (ran : (ofDepth setting depth).referred setting scope ref s = .ok found? u) :
    s.arena.Keeps u.arena := by
  have laws := Footprint.lawful setting s.arena
  have upheld := upheld_footprint setting s.arena depth
  exact keeps_of_footprint inside (Invariant.keeps_referred laws upheld ref) ran

/-- What the template whose turn it is refers to, `index` elements coming before. -/
def referredInTurn (setting : Setting) (ev : Evaluator) (scope : Handle)
    (templates : List TemplateRef) (index : Nat) : Run (Option (Template × Arguments)) :=
  match templates[index % templates.length]? with
  | some ref => ev.referred setting scope ref
  | none => pure none

theorem applyInTurn_cons (index : Nat) (element : Value) (rest : List Value) :
    ev.applyInTurn setting scope templates index (element :: rest) =
      referredInTurn setting ev scope templates index >>= fun
        | none => ev.applyInTurn setting scope templates (index + 1) rest
        | some (t, args) => do
          let instance_ ← ev.applyTo scope t args (index + 1) element
          let instances ← ev.applyInTurn setting scope templates (index + 1) rest
          return instance_ :: instances := by
  rw [applyInTurn, referredInTurn]
  cases templates[index % templates.length]? <;> rfl

theorem keeps_referredInTurn (inside : s.arena.contains scope)
    (plain : ∀ ref ∈ templates, ref.arguments = .none) {found? : Option (Template × Arguments)}
    (ran : referredInTurn setting (ofDepth setting depth) scope templates index s =
      .ok found? u) :
    s.arena.Keeps u.arena ∧ ∀ t args, found? = some (t, args) → args = .none := by
  unfold referredInTurn at ran
  cases turn : templates[index % templates.length]? with
  | none =>
    rw [turn] at ran
    cases ran
    exact ⟨.refl _, fun _ _ nothing => nomatch nothing⟩
  | some ref =>
    rw [turn] at ran
    refine ⟨keeps_referred inside ran, ?_⟩
    rintro t args rfl
    rw [arguments_of_referred ran, plain ref (List.mem_of_getElem? turn)]

/-- What an element gets at its turn, `step.2` elements coming before: nothing if its template is not
found, and otherwise an instance of the template. The arena was `first` when the application began and
is `last` now. -/
inductive Turn (setting : Setting) (ev : Evaluator) (scope : Handle) (templates : List TemplateRef)
    (first last : Arena) (step : Value × Nat) : Option Value → Prop
  | missing {s u : RenderState} :
    first.Keeps s.arena → referredInTurn setting ev scope templates step.2 s = .ok none u →
    Turn setting ev scope templates first last step none
  | applied {s u : RenderState} {t : Template} {h : Handle} :
    first.Keeps s.arena →
    referredInTurn setting ev scope templates step.2 s = .ok (some (t, .none)) u →
    (last.get h).template = t →
    (∀ formal, soleFormal? t = some formal →
      last.Gives h formal (parameterValue formal step.1 (step.2 + 1))) →
    Turn setting ev scope templates first last step (some (.template h))

/-- The instances of a rotating application are what the elements get at their turns. What is
evaluated at a later turn changes nothing of an earlier one. -/
theorem applyInTurn_turns (inside : s.arena.contains scope)
    (plain : ∀ ref ∈ templates, ref.arguments = .none) (since : a.Keeps s.arena)
    (ran : (ofDepth setting depth).applyInTurn setting scope templates index elements s =
      .ok instances u) :
    s.arena.Keeps u.arena ∧
      ∃ turns : List (Option Value), instances = turns.filterMap id ∧
        List.Forall₂ (Turn setting (ofDepth setting depth) scope templates a u.arena)
          (elements.zipIdx index) turns := by
  induction elements generalizing index s instances with
  | nil =>
    cases ran
    exact ⟨.refl _, [], rfl, .nil⟩
  | cons element rest ih =>
    rw [applyInTurn_cons] at ran
    obtain ⟨found?, s₁, found, ran⟩ := Run.bind_ok ran
    obtain ⟨keeps, noArguments⟩ := keeps_referredInTurn inside plain found
    cases found? with
    | none =>
      obtain ⟨kept, turns, same, turned⟩ :=
        ih (keeps.contains inside) (since.trans keeps) ran
      exact ⟨keeps.trans kept, none :: turns, same, .cons (.missing since found) turned⟩
    | some referred =>
      obtain ⟨t, args⟩ := referred
      obtain rfl := noArguments t args rfl
      dsimp only at ran
      rw [Run.bind_of_ok _ (applyTo_none ..)] at ran
      obtain ⟨others, u', ran, paired⟩ := Run.bind_ok ran
      cases paired
      let arguments := elementArguments t (index + 1) element
      have pushed := keeps_push s₁.arena (.applied scope t arguments)
      have applied := applied_push s₁.arena scope t arguments
      obtain ⟨kept, turns, same, turned⟩ :=
        ih (pushed.contains (keeps.contains inside)) ((since.trans keeps).trans pushed) ran
      have template : (u.arena.get ⟨s₁.arena.size⟩).template = t :=
        (kept.template applied.inside).trans applied.template
      refine ⟨(keeps.trans pushed).trans kept, some (.template ⟨s₁.arena.size⟩) :: turns, ?_,
        .cons (.applied since found template fun formal sole => ?_) turned⟩
      · rw [same]
        rfl
      · exact (applied.gives (find?_elementArguments sole (index + 1) element)).keep kept

/-! ## One template for several sources -/

/-- What an aligned application that comes to instances has walked and applied. -/
theorem applyAligned_ok {sources : List Expr}
    (ran : ev.applyAligned setting scope sources ref s = .ok (.list instances) u) :
    ∃ lists s₁ t args s₂, ev.evalSources scope sources s = .ok (some lists) s₁ ∧
      ev.referred setting scope ref s₁ = .ok (some (t, args)) s₂ := by
  obtain ⟨lists?, s₁, evaluated, ran⟩ := Run.bind_ok ran
  cases lists? with
  | none => cases ran
  | some lists =>
    obtain ⟨found?, s₂, found, ran⟩ := Run.bind_ok ran
    cases found? with
    | none => cases ran
    | some referred => exact ⟨lists, s₁, referred.1, referred.2, s₂, evaluated, found⟩

/-- The instances of an aligned application, one for each step. -/
theorem applyAligned_gives {sources : List Expr} (plain : ref.arguments = .none)
    (ran : ev.applyAligned setting scope sources ref s = .ok (.list instances) u) :
    ∃ values s₁ t s₂, sources.mapM (ev.eval scope) s = .ok values s₁ ∧
      ev.referred setting scope ref s₁ = .ok (some (t, .none)) s₂ ∧
      instances.length = stepCount t.formals (values.map Value.elements) ∧
      ∀ j instance_, instances[j]? = some instance_ → ∃ h, instance_ = .template h ∧
        (u.arena.get h).template = t ∧
        (t.formals.Nodup → ∀ (i : Nat) formal element, t.formals[i]? = some formal →
          (values[i]?.bind fun v => v.elements[j]?) = some element → element.isNull = false →
          u.arena.Gives h formal (parameterValue formal element (j + 1))) := by
  obtain ⟨lists, s₁, t, args, s₂, evaluated, found⟩ := applyAligned_ok ran
  obtain rfl : args = .none := (arguments_of_referred found).trans plain
  rw [applyAligned_none evaluated found] at ran
  cases ran
  obtain ⟨values, mapped, -, rfl⟩ := evalSources_ok_iff.1 evaluated
  refine ⟨values, s₁, t, s₂, mapped, found, by simp [nextHandles], fun j instance_ member => ?_⟩
  rw [List.getElem?_map, Option.map_eq_some_iff] at member
  obtain ⟨h, member, rfl⟩ := member
  obtain ⟨inside, rfl⟩ := getElem?_nextHandles member
  have applied : (s₂.arena.applyAll scope t _).Applied scope t _ ⟨s₂.arena.size + j⟩ :=
    applied_applyAll (getElem?_alignedTables inside)
  refine ⟨_, rfl, applied.template, fun distinct i formal element parameter source notNull =>
    applied.gives ?_⟩
  have given : given? ((values.map Value.elements)[i]?.bind fun l => l[j]?) = some element := by
    rw [List.getElem?_map, Option.bind_map, ← given?_of_not_null notNull, ← source]
    rfl
  rw [find?_alignedArguments distinct parameter inside, given, parameterValue]
  split_ifs <;> rfl

end Evaluator

open Evaluator in
/-- In the instance for a step, a formal parameter that the application binds comes to the element of
the step, whatever it is called, but for the name of the number: a parameter of that name comes to
the number of the step. This holds of templates applied in turn and of one applied to several sources
side by side. -/
theorem bound_parameter_gives_element (setting : Setting) (depth : Nat) {scope : Handle}
    {s u : RenderState} {instances : List Value} (inside : s.arena.contains scope) :
    let ev := ofDepth setting depth
    (∀ source templates, (∀ ref ∈ templates, ref.arguments = .none) →
      ev.applyRotating setting scope source templates s = .ok (.list instances) u →
      ∃ v s₁, ev.eval scope source s = .ok v s₁ ∧
        let elements := v.elements.filter fun element => !element.isNull
        ∃ turns : List (Option Value), instances = turns.filterMap id ∧
          List.Forall₂ (Turn setting ev scope templates s₁.arena u.arena) elements.zipIdx turns) ∧
    ∀ sources ref, ref.arguments = .none →
      ev.applyAligned setting scope sources ref s = .ok (.list instances) u →
      ∃ values s₁ t s₂, sources.mapM (ev.eval scope) s = .ok values s₁ ∧
        ev.referred setting scope ref s₁ = .ok (some (t, .none)) s₂ ∧
        instances.length = stepCount t.formals (values.map Value.elements) ∧
        ∀ j instance_, instances[j]? = some instance_ → ∃ h, instance_ = .template h ∧
          (u.arena.get h).template = t ∧
          (t.formals.Nodup → ∀ (i : Nat) formal element, t.formals[i]? = some formal →
            (values[i]?.bind fun v => v.elements[j]?) = some element → element.isNull = false →
            u.arena.Gives h formal (parameterValue formal element (j + 1))) := by
  intro ev
  constructor
  · intro source templates plain ran
    obtain ⟨v, s₁, evaluated, ran⟩ := Run.bind_ok ran
    have keeps := keeps_eval inside evaluated
    dsimp only at ran
    split at ran
    · cases ran
    · obtain ⟨others, u', ran, listed⟩ := Run.bind_ok ran
      cases listed
      obtain ⟨-, turned⟩ := applyInTurn_turns (keeps.contains inside) plain (.refl _) ran
      exact ⟨v, s₁, evaluated, turned⟩
  · intro sources ref plain ran
    exact applyAligned_gives plain ran

/-- Parameters called like the element and its older name come to the element, here behind a null. A
parameter called like the number comes to the number, here beside one that comes to the element. -/
theorem element_names_give_element :
    let ev := Evaluator.ofDepth .standard 1
    let item : Template := ⟨"item", ["it"], [], true, none⟩
    let row : Template := ⟨"row", ["attr", "i"], [], true, none⟩
    (∃ u, ev.applyRotating .standard ⟨0⟩ (.attribute "b") [.inline item] Evaluator.columns =
        .ok (.list [.template ⟨1⟩, .template ⟨2⟩]) u ∧
      u.arena.Gives ⟨2⟩ "it" (.text "s")) ∧
    ∃ u, ev.applyAligned .standard ⟨0⟩ [.attribute "a", .attribute "c"] (.inline row)
        Evaluator.columns = .ok (.list [.template ⟨1⟩]) u ∧
      u.arena.Gives ⟨1⟩ "attr" (.text "p") ∧ u.arena.Gives ⟨1⟩ "i" (.int 1) := by
  have inside : Evaluator.columns.arena.contains ⟨0⟩ := by decide
  refine ⟨⟨_, rfl, ?_⟩, ⟨_, rfl, ?_⟩⟩
  · obtain ⟨v, s₁, evaluated, turns, same, turned⟩ :=
      (bound_parameter_gives_element .standard 1 inside).1 (.attribute "b")
        [.inline ⟨"item", ["it"], [], true, none⟩] (by simp [TemplateRef.arguments]) rfl
    have column : (Evaluator.ofDepth .standard 1).eval ⟨0⟩ (.attribute "b") Evaluator.columns =
        .ok (.list [.null, .text "r", .text "s"]) Evaluator.columns := rfl
    cases column.symm.trans evaluated
    have turned : List.Forall₂ _ [(Value.text "r", 0), (Value.text "s", 1)] turns := turned
    obtain _ | ⟨first, _ | ⟨second, ⟨⟩⟩⟩ := turned
    cases first with
    | missing _ found => cases found
    | applied _ _ _ _ =>
      cases second with
      | missing _ found => cases found
      | applied _ found _ gives =>
        cases same
        cases found
        exact gives "it" rfl
  · obtain ⟨values, s₁, t, s₂, evaluated, found, -, gives⟩ :=
      (bound_parameter_gives_element .standard 1 inside).2 [.attribute "a", .attribute "c"]
        (.inline ⟨"row", ["attr", "i"], [], true, none⟩) rfl rfl
    have columns : [.attribute "a", .attribute "c"].mapM
        ((Evaluator.ofDepth .standard 1).eval ⟨0⟩) Evaluator.columns =
        .ok [.list [.text "p", .text "q"], .map [("k", .text "t")]] Evaluator.columns := rfl
    cases columns.symm.trans evaluated
    cases found
    obtain ⟨h, same, -, gives⟩ := gives 0 (.template ⟨1⟩) rfl
    cases same
    exact ⟨gives (by decide) 0 "attr" (.text "p") rfl rfl rfl,
      gives (by decide) 1 "i" (.text "t") rfl rfl rfl⟩

/-- A parameter called like the number does not come to the element, in neither application. -/
theorem index_name_gives_number :
    let ev := Evaluator.ofDepth .standard 1
    let item : Template := ⟨"item", ["i"], [], true, none⟩
    ev.eval ⟨0⟩ (.attribute "a") Evaluator.columns =
        .ok (.list [.text "p", .text "q"]) Evaluator.columns ∧
      (∃ u, ev.applyRotating .standard ⟨0⟩ (.attribute "a") [.inline item] Evaluator.columns =
          .ok (.list [.template ⟨1⟩, .template ⟨2⟩]) u ∧
        u.arena.resolve ⟨1⟩ "i" = .found (.int 1)) ∧
      ∃ u, ev.applyAligned .standard ⟨0⟩ [.attribute "a"] (.inline item) Evaluator.columns =
          .ok (.list [.template ⟨1⟩, .template ⟨2⟩]) u ∧
        u.arena.resolve ⟨1⟩ "i" = .found (.int 1) :=
  ⟨rfl, ⟨_, rfl, rfl⟩, ⟨_, rfl, rfl⟩⟩

end Stencil
