import Stencil.Proofs.Application.Parameters
import Stencil.Proofs.Arguments.Bindings
/-!
# Templates applied in turn

The loop of a rotating application, element by element: the reference whose turn it is comes to a
template or is reported, an instance is made inside the scope and given the element, and the
arguments of the reference are evaluated on top of that. Whatever the later turns evaluate, they
leave the instance as it is, since no value holds it before the application has ended.
-/
namespace Stencil

namespace Evaluator

open Arena

/-- What a reference comes to. One that is not found is reported once. -/
inductive Resolves (setting : Setting) (ev : Evaluator) (scope : Handle) (s : RenderState) :
    TemplateRef → Option Template → RenderState → Prop
  | inline {t : Template} : Resolves setting ev scope s (.inline t) (some t) s
  | found {target : Target} {args : Arguments} {name : String} {t : Template} {u : RenderState} :
    ev.target setting scope target s = .ok (name, some t) u →
    Resolves setting ev scope s (.named target args) (some t) u
  | missing {target : Target} {args : Arguments} {name : String} {u : RenderState} :
    ev.target setting scope target s = .ok (name, none) u →
    Resolves setting ev scope s (.named target args) none
      { u with diagnostics := u.diagnostics ++ [.templateNotFound name] }

/-- What the instance for an element is given before the arguments of the reference: the number of
the element, and the element under its two names and as the sole parameter. -/
def Seeds (t : Template) (number : Nat) (element : Value) (given : Table Value) : Prop :=
  ∀ name, given.find? name =
    if name = indexName then some (.int (.ofNat number))
    else if name = elementName ∨ name = formerElementName ∨ soleFormal? t = some name then
      some element
    else none

/-- An instance that an application has made, with the template and the arguments that it has in the
end. -/
structure Made where
  handle : Handle
  template : Template
  arguments : Table Value

/-- How templates are applied in turn to elements from a state on, `index` elements coming before:
the instances that are made, and how it ends. -/
inductive Turns (setting : Setting) (ev : Evaluator) (scope : Handle)
    (templates : List TemplateRef) : Nat → List Value → RenderState → List Made →
    EStateM.Result Stop RenderState Unit → Prop
  | done {index : Nat} {s : RenderState} :
    Turns setting ev scope templates index [] s [] (.ok () s)
  /-- The name of the template cannot be computed. -/
  | failed {index : Nat} {element : Value} {rest : List Value} {s u : RenderState}
    {target : Target} {args : Arguments} {cause : Stop} :
    templates[index % templates.length]? = some (.named target args) →
    ev.target setting scope target s = .error cause u →
    Turns setting ev scope templates index (element :: rest) s [] (.error cause u)
  | missing {index : Nat} {element : Value} {rest : List Value} {s s₁ : RenderState}
    {ref : TemplateRef} {made : List Made} {r : EStateM.Result Stop RenderState Unit} :
    templates[index % templates.length]? = some ref →
    Resolves setting ev scope s ref none s₁ →
    Turns setting ev scope templates (index + 1) rest s₁ made r →
    Turns setting ev scope templates index (element :: rest) s made r
  /-- The arguments of the reference cannot be evaluated. -/
  | stopped {index : Nat} {element : Value} {rest : List Value} {s s₁ u : RenderState}
    {ref : TemplateRef} {t : Template} {given : Table Value} {results : List (String × Value)}
    {cause : Stop} :
    templates[index % templates.length]? = some ref →
    Resolves setting ev scope s ref (some t) s₁ →
    Seeds t (index + 1) element given →
    ev.Supplies t scope ⟨s₁.arena.size⟩ given (s₁.applying scope t given) ref.arguments results
      (.error cause u) →
    Turns setting ev scope templates index (element :: rest) s [] (.error cause u)
  | applied {index : Nat} {element : Value} {rest : List Value} {s s₁ s₂ : RenderState}
    {ref : TemplateRef} {t : Template} {given : Table Value} {results : List (String × Value)}
    {made : List Made} {r : EStateM.Result Stop RenderState Unit} :
    templates[index % templates.length]? = some ref →
    Resolves setting ev scope s ref (some t) s₁ →
    Seeds t (index + 1) element given →
    ev.Supplies t scope ⟨s₁.arena.size⟩ given (s₁.applying scope t given) ref.arguments results
      (.ok () s₂) →
    Turns setting ev scope templates (index + 1) rest s₂ made r →
    Turns setting ev scope templates index (element :: rest) s
      (⟨⟨s₁.arena.size⟩, t, entered given results⟩ :: made) r

variable {setting : Setting} {ev : Evaluator} {depth index : Nat} {scope h : Handle}
  {templates : List TemplateRef} {ref : TemplateRef} {t : Template} {args : Arguments}
  {arguments : Table Value} {s u : RenderState} {element : Value} {elements values : List Value}

/-! ## Single turns -/

theorem seeds_elementArguments (t : Template) (number : Nat) (element : Value) :
    Seeds t number element (elementArguments t number element) := by
  intro name
  cases sole : soleFormal? t <;>
    simp only [elementArguments, sole, Table.find?_insert, Table.find?_empty] <;>
    grind

/-- The instance stores the element and its number only. -/
theorem Seeds.stores {given : Table Value} {number : Nat} (seeds : Seeds t number element given)
    {v : Value} (stores : (Activation.applied scope t given).Stores v) (holds : v.Holds h) :
    element.Holds h := by
  obtain ⟨name, set | given⟩ := stores
  · cases set
  · have found := (seeds name).symm.trans given
    split_ifs at found
    · cases Option.some.inj found
      exact absurd holds (Value.not_holds_int _)
    · exact Option.some.inj found ▸ holds

theorem referred_cases (setting : Setting) (ev : Evaluator) (scope : Handle) (ref : TemplateRef)
    (s : RenderState) :
    (∃ target cause u, ref = .named target ref.arguments ∧
      ev.target setting scope target s = .error cause u ∧
      ev.referred setting scope ref s = .error cause u) ∨
    ∃ found? u, Resolves setting ev scope s ref found? u ∧
      ev.referred setting scope ref s = .ok (found?.map fun t => (t, ref.arguments)) u := by
  cases ref with
  | «inline» t => exact .inr ⟨_, _, .inline, rfl⟩
  | named target args =>
    rw [referred, template?, bind_assoc]
    cases named : ev.target setting scope target s with
    | error cause u =>
      exact .inl ⟨target, cause, u, rfl, named, Run.bind_of_error _ named⟩
    | ok found u =>
      obtain ⟨name, found?⟩ := found
      rw [Run.bind_of_ok _ named]
      cases found? with
      | none => exact .inr ⟨_, _, .missing named, rfl⟩
      | some t => exact .inr ⟨_, _, .found named, rfl⟩

/-! ## Later turns -/

/-- What is evaluated for the elements leaves an instance as it is that neither they nor any value
in the arena holds. -/
theorem applied_after_turns {enclosing : Handle} (setting : Setting)
    (applied : s.arena.Applied enclosing t arguments h) (unheld : s.arena.Unheld h)
    (closed : s.arena.Closed IsInstance) (inside : s.arena.contains scope)
    (known : ∀ v ∈ elements, ∀ x, v.Holds x → s.arena.Knows IsInstance x)
    (apart : ∀ v ∈ elements, ¬ v.Holds h)
    (ended : (ofDepth setting depth).applyInTurn setting scope templates index elements s =
      .ok values u) :
    u.arena.Applied enclosing t arguments h := by
  have steady : (Steady.lockstep IsInstance setting.strict s.arena []).Lawful := Steady.lawful rfl
  have moved := Steady.moved_of_agrees (Lockstep.agrees_applyInTurn setting steady
    (Lockstep.related_ofDepth setting steady (Steady.enclosing setting) depth)
    ⟨⟨rfl, rfl⟩, Steady.standing_root closed inside nofun⟩ templates index
    (Value.Paired.forall₂_same fun v member x holds => ⟨rfl, known v member x holds⟩)) ended
  have standing := (Withheld.standing_of_agrees (Lockstep.agrees_applyInTurn setting
    (Withheld.lawful applied.inside) (Withheld.related setting applied.inside depth)
    ⟨⟨rfl, rfl⟩, Withheld.standing_refl unheld⟩ templates index
    (Value.Paired.forall₂_same fun v member x holds =>
      ⟨rfl, fun same => apart v member (same ▸ holds)⟩)) ended).1
  exact ⟨moved.keeps.contains applied.inside,
    (moved.keeps.get_eq applied.inside standing.link).trans applied.get⟩

/-! ## Runs -/

/-- What a run comes to with a result that is known once it has come to its end. -/
def returning {α : Type} (r : EStateM.Result Stop RenderState Unit) (v : α) :
    EStateM.Result Stop RenderState α :=
  match r with
  | .ok _ u => .ok v u
  | .error cause u => .error cause u

/-- A run that only makes something of another one's result ends like it. -/
theorem returning_bind {α β : Type} {x : Run α} {r : EStateM.Result Stop RenderState Unit} {v : α}
    (ran : x s = returning r v) (f : α → β) :
    (x >>= fun v => pure (f v)) s = returning r (f v) := by
  cases r with
  | error cause u => exact Run.bind_of_error _ ran
  | ok _ u => exact Run.bind_of_ok _ ran

theorem returning_unit (r : EStateM.Result Stop RenderState Unit) : returning r () = r := by
  cases r <;> rfl

def Made.value (made : Made) : Value := .template made.handle

/-- The instances are new in the arena and follow each other; they are as they were made in every
state that `r` may have come to. -/
structure Makes (scope : Handle) (a : Arena) (made : List Made)
    (r : EStateM.Result Stop RenderState Unit) : Prop where
  inOrder : made.Pairwise fun first second => first.handle.index < second.handle.index
  fresh : ∀ m ∈ made, ¬ a.contains m.handle
  applied : ∀ m ∈ made, ∀ u, r = .ok () u →
    u.arena.Applied scope m.template m.arguments m.handle

theorem Makes.nothing {a : Arena} (r : EStateM.Result Stop RenderState Unit) :
    Makes scope a [] r :=
  ⟨.nil, List.forall_mem_nil _, List.forall_mem_nil _⟩

theorem Makes.of_grows {a b : Arena} {made : List Made} {r : EStateM.Result Stop RenderState Unit}
    (makes : Makes scope b made r) (grows : Grows a b) : Makes scope a made r where
  inOrder := makes.inOrder
  fresh m member inside := makes.fresh m member (grows.contains inside)
  applied := makes.applied

/-- An instance has been made, given an element, and given the arguments of the reference. -/
structure Begun (scope : Handle) (t : Template) (arguments : Table Value) (h : Handle)
    (a b : Arena) : Prop extends Awaits b scope h where
  grows : Grows a b
  fresh : ¬ a.contains h
  applied : b.Applied scope t arguments h

theorem Makes.cons {a b : Arena} {made : List Made} {r : EStateM.Result Stop RenderState Unit}
    (begun : Begun scope t arguments h a b) (makes : Makes scope b made r)
    (applied : ∀ u, r = .ok () u → u.arena.Applied scope t arguments h) :
    Makes scope a (⟨h, t, arguments⟩ :: made) r where
  inOrder := by
    refine List.pairwise_cons.2 ⟨fun m member => ?_, makes.inOrder⟩
    have older : h.index < b.size := begun.inside
    have newer : ¬ m.handle.index < b.size := makes.fresh m member
    exact Nat.lt_of_lt_of_le older (Nat.not_lt.1 newer)
  fresh := List.forall_mem_cons.2 ⟨begun.fresh, (makes.of_grows begun.grows).fresh⟩
  applied := List.forall_mem_cons.2 ⟨applied, makes.applied⟩

/-- The instance for an element sees the element and its number before its other arguments. -/
theorem supplies_applyTo (setting : Setting) (depth : Nat) (closed : s.arena.Closed IsInstance)
    (inside : s.arena.contains scope)
    (known : ∀ x, element.Holds x → s.arena.Knows IsInstance x) (t : Template) (args : Arguments)
    (number : Nat) :
    let given := elementArguments t number element
    let callee : Handle := ⟨s.arena.size⟩
    ∃ results r, (ofDepth setting depth).Supplies t scope callee given (s.applying scope t given)
        args results r ∧
      (ofDepth setting depth).applyTo scope t args number element s =
        returning r (.template callee) ∧
      ∀ u, r = .ok () u → Begun scope t (entered given results) callee s.arena u.arena := by
  intro given callee
  let s₁ := s.applying scope t given
  have seeded : s₁.arena.get callee = .applied scope t given := get_push_self s.arena _
  have awaits : s₁.arena.Awaits scope callee :=
    closed.awaits_push inside (.applied scope t given) rfl fun v stores x holds =>
      known x ((seeds_elementArguments t number element).stores stores holds)
  obtain ⟨results, supplies, gives⟩ := supplies_bindArguments setting depth awaits args
  rw [seeded] at supplies
  rw [applyTo_eq]
  refine ⟨results, _, supplies, returning_bind (returning_unit _).symm _, fun u ended => ?_⟩
  have supplied := gives u ended
  exact {
    toAwaits := supplied.awaits
    grows := (keeps_push s.arena _).toGrows.trans supplied.grows
    fresh := Nat.lt_irrefl _
    applied := ⟨supplied.awaits.inside, supplied.callee.trans (by rw [seeded]; rfl)⟩ }

theorem turns_applyInTurn (setting : Setting) (depth : Nat) (nonempty : templates ≠ [])
    (index : Nat) (elements : List Value) (closed : s.arena.Closed IsInstance)
    (inside : s.arena.contains scope)
    (known : ∀ v ∈ elements, ∀ x, v.Holds x → s.arena.Knows IsInstance x) :
    ∃ made r, Turns setting (ofDepth setting depth) scope templates index elements s made r ∧
      (ofDepth setting depth).applyInTurn setting scope templates index elements s =
        returning r (made.map Made.value) ∧
      Makes scope s.arena made r := by
  induction elements generalizing index s with
  | nil => exact ⟨[], .ok () s, .done, rfl, .nothing _⟩
  | cons element rest ih =>
    obtain ⟨here, later⟩ := List.forall_mem_cons.1 known
    have turn : index % templates.length < templates.length :=
      Nat.mod_lt _ (List.length_pos_of_ne_nil nonempty)
    obtain ⟨ref, turn⟩ : ∃ ref, templates[index % templates.length]? = some ref :=
      ⟨_, List.getElem?_eq_getElem turn⟩
    have begun : referredInTurn setting (ofDepth setting depth) scope templates index =
        (ofDepth setting depth).referred setting scope ref := by
      rw [referredInTurn, turn]
    rw [applyInTurn_cons, begun]
    obtain ⟨target, cause, u, named, failed, stopped⟩ | ⟨found?, s₁, resolves, found⟩ :=
      referred_cases setting (ofDepth setting depth) scope ref s
    · rw [Run.bind_of_error _ stopped]
      exact ⟨[], .error cause u, .failed (named ▸ turn) failed, rfl, .nothing _⟩
    rw [Run.bind_of_ok _ found]
    have spares := referred_spares setting closed inside found
    have inside₁ := spares.contains inside
    cases found? with
    | none =>
      obtain ⟨made, r, turns, ran, makes⟩ := ih (index + 1) spares.closed inside₁
        fun v member x holds => (later v member x holds).grow spares.toGrows
      exact ⟨made, r, .missing turn resolves turns, ran, makes.of_grows spares.toGrows⟩
    | some t =>
      obtain ⟨results, r, supplies, applied, begins⟩ := supplies_applyTo setting depth
        spares.closed inside₁ (fun x holds => (here x holds).grow spares.toGrows) t ref.arguments
        (index + 1)
      dsimp only [Option.map]
      cases r with
      | error cause u =>
        rw [Run.bind_of_error _ applied]
        exact ⟨[], .error cause u,
          .stopped turn resolves (seeds_elementArguments _ _ _) supplies, rfl, .nothing _⟩
      | ok _ s₂ =>
        have begun := begins s₂ rfl
        have grown := spares.toGrows.trans begun.grows
        have later₂ (v : Value) (member : v ∈ rest) (x : Handle) (holds : v.Holds x) :=
          (later v member x holds).grow grown
        obtain ⟨made, r, turns, ran, makes⟩ :=
          ih (index + 1) begun.closed begun.caller_inside later₂
        rw [Run.bind_of_ok _ applied]
        refine ⟨_ :: made, r, .applied turn resolves (seeds_elementArguments _ _ _) supplies turns,
          returning_bind ran _, (Makes.cons begun makes fun u ended => ?_).of_grows spares.toGrows⟩
        rw [ended] at ran
        refine applied_after_turns setting begun.applied begun.unheld begun.closed
          begun.caller_inside later₂ (fun v member holds => ?_) ran
        exact begun.fresh (spares.contains (later v member _ holds).inside)

end Evaluator

open Evaluator

/-- A rotating application comes to null exactly if its source does, and otherwise to one new
instance for each turn whose template is found, in the order of the elements. Each instance has the
template of the reference whose turn it was, lies inside the scope, and has been given the element
and its number before the arguments of the reference were evaluated, which see and replace them. -/
theorem rotating_application_makes_instances (setting : Setting) (depth : Nat) {scope : Handle}
    {s : RenderState} (closed : s.arena.Closed IsInstance) (inside : s.arena.contains scope)
    (source : Expr) {templates : List TemplateRef} (nonempty : templates ≠ []) :
    let ev := Evaluator.ofDepth setting depth
    let run := ev.applyRotating setting scope source templates s
    (∀ cause u, ev.eval scope source s = .error cause u → run = .error cause u) ∧
    ∀ v s₁, ev.eval scope source s = .ok v s₁ →
      (v = .null → run = .ok .null s₁) ∧
      (v ≠ .null → ∃ made r,
        let elements := v.elements.filter fun element => !element.isNull
        ev.Turns setting scope templates 0 elements s₁ made r ∧
        run = returning r (.list (made.map Made.value)) ∧
        Makes scope s₁.arena made r) := by
  intro ev run
  refine ⟨fun cause u failed => Run.bind_of_error _ failed, fun v s₁ evaluated => ?_⟩
  have begun : run = _ := Run.bind_of_ok _ evaluated
  obtain ⟨spares, known, -⟩ := eval_spares setting closed inside evaluated
  refine ⟨?_, fun present => ?_⟩
  · rintro rfl
    exact begun
  · have listed : ¬ (v.isNull || templates.isEmpty) = true := by
      cases v <;> simp_all [Value.isNull]
    rw [if_neg listed] at begun
    obtain ⟨made, r, turns, ran, makes⟩ := turns_applyInTurn setting depth nonempty 0
      (v.elements.filter fun element => !element.isNull) spares.closed (spares.contains inside)
      fun element member x holds =>
        known x (Value.holds_of_mem_elements (List.mem_filter.1 member).1 holds)
    exact ⟨made, r, turns, begun.trans (returning_bind ran _), makes⟩

/-- Knows one template, which has parameters for the element and for a number. -/
def Setting.numbering : Setting :=
  let item : Template := ⟨"item", ["it", "n"], [], false, none⟩
  { Setting.standard with
    registry := ⟨fun name => if name = "item" then some item else none, fun _ _ => none⟩ }

/-- A page with one column. -/
def Evaluator.column : RenderState :=
  ⟨(Arena.empty.instantiate (.plain "page" [])).2.setAttribute ⟨0⟩ "b"
    (.list [.null, .text "r", .text "s"]), [], .fresh .autoIndent⟩

/-- The first of two elements goes to a template that is found. Its arguments see the number, and
replace the element. The second one goes to a template that is not found. -/
theorem numbered_item_is_made :
    let templates : List TemplateRef :=
      [.named (.name "item") (.named [("n", .attribute "i"), ("it", .text "z")]),
        .named (.name "other") .none]
    ∃ (made : List Made) (u : RenderState),
      (Evaluator.ofDepth .numbering 2).applyRotating .numbering ⟨0⟩ (.attribute "b") templates
        Evaluator.column = .ok (.list (made.map Made.value)) u ∧
      made.map Made.value = [.template ⟨1⟩] ∧ u.diagnostics = [.templateNotFound "other"] ∧
      (∀ m ∈ made, u.arena.Applied ⟨0⟩ m.template m.arguments m.handle) ∧
      (u.arena.get ⟨1⟩).arguments =
        [("attr", .text "r"), ("i", .int 1), ("it", .text "z"), ("n", .int 1)] := by
  intro templates
  have closed : Evaluator.column.arena.Closed IsInstance :=
    (Arena.closed_empty.instantiate _).setAttribute _ _ fun _ holds => by
      simp [Value.holds_list_iff] at holds
  have inside : Evaluator.column.arena.contains ⟨0⟩ := by decide
  have nonempty : templates ≠ [] := by simp [templates]
  obtain ⟨-, applied⟩ :=
    rotating_application_makes_instances .numbering 2 closed inside (.attribute "b") nonempty
  obtain ⟨made, r, -, ran, makes⟩ :=
    (applied (.list [.null, .text "r", .text "s"]) Evaluator.column rfl).2 nofun
  obtain ⟨u, ended, reported, arguments⟩ : ∃ u,
      (Evaluator.ofDepth .numbering 2).applyRotating .numbering ⟨0⟩ (.attribute "b") templates
        Evaluator.column = .ok (.list [.template ⟨1⟩]) u ∧
      u.diagnostics = [.templateNotFound "other"] ∧ (u.arena.get ⟨1⟩).arguments =
        [("attr", .text "r"), ("i", .int 1), ("it", .text "z"), ("n", .int 1)] :=
    ⟨_, rfl, rfl, rfl⟩
  rw [ended] at ran
  cases r with
  | error => cases ran
  | ok _ u' =>
    injection ran with listed same
    injection listed with values
    subst same
    exact ⟨made, u, values ▸ ended, values.symm, reported,
      fun m member => makes.applied m member u rfl, arguments⟩

end Stencil
