import Stencil.Proofs.Arguments.Scopes
import Stencil.Proofs.Sequence
/-!
# Arguments of calls

The expressions of a list of named arguments are all evaluated in one scope, in which names mean the
same from the first to the last of them: what the callee had been given before the list, and behind
it what they mean in the caller. The results are entered in the callee one after another. The value
of an only parameter is bound like one named argument.
-/
namespace Stencil

/-- Whether the template takes an argument of the name. One without formal parameters takes all. -/
def Template.accepts (t : Template) (name : String) : Bool :=
  t.formals.isEmpty || t.hasFormal name

/-- The state after a callee has been given a value, if it is not null. -/
def RenderState.giving (s : RenderState) (callee : Handle) (name : String) (v : Value) :
    RenderState :=
  if v.isNull then s else { s with arena := s.arena.setArgument callee name v }

namespace Evaluator

open Arena

/-- A table of arguments with results entered one after another, nulls left out. -/
def entered (given : Table Value) (results : List (String × Value)) : Table Value :=
  results.foldl
    (fun arguments result =>
      if result.2.isNull then arguments else arguments.insert result.1 result.2) given

/-- How a list of named arguments is evaluated in `scope` from a state on: the results that the
callee is given, and how it ends. Whatever is evaluated is so in an arena for which `means` holds. -/
inductive Assigns (ev : Evaluator) (t : Template) (callee scope : Handle) (means : Arena → Prop) :
    List (String × Expr) → RenderState → List (String × Value) →
    EStateM.Result Stop RenderState Unit → Prop
  | done {s : RenderState} : Assigns ev t callee scope means [] s [] (.ok () s)
  /-- The name is reported once, and its expression is passed over. -/
  | rejected {name : String} {e : Expr} {rest : List (String × Expr)} {s : RenderState}
    {results : List (String × Value)} {r : EStateM.Result Stop RenderState Unit} :
    t.accepts name = false →
    Assigns ev t callee scope means rest
      { s with diagnostics := s.diagnostics ++ [.unknownParameter t.name name] } results r →
    Assigns ev t callee scope means ((name, e) :: rest) s results r
  | stopped {name : String} {e : Expr} {rest : List (String × Expr)} {s u : RenderState}
    {cause : Stop} :
    t.accepts name = true → means s.arena → ev.eval scope e s = .error cause u →
    Assigns ev t callee scope means ((name, e) :: rest) s [] (.error cause u)
  | assigned {name : String} {e : Expr} {rest : List (String × Expr)} {s u : RenderState}
    {v : Value} {results : List (String × Value)} {r : EStateM.Result Stop RenderState Unit} :
    t.accepts name = true → means s.arena → ev.eval scope e s = .ok v u →
    Assigns ev t callee scope means rest (u.giving callee name v) results r →
    Assigns ev t callee scope means ((name, e) :: rest) s ((name, v) :: results) r

variable {setting : Setting} {ev : Evaluator} {depth : Nat} {caller callee scope : Handle}
  {t : Template} {s u : RenderState} {name : String} {e : Expr} {v : Value}
  {bindings : List (String × Expr)}

/-! ## Steps -/

theorem bindUnlessNull_eq (callee : Handle) (name : String) (v : Value) (s : RenderState) :
    bindUnlessNull callee name v s = .ok () (s.giving callee name v) := by
  unfold bindUnlessNull RenderState.giving
  cases v.isNull <;> rfl

theorem bindNamed_rejected (rejected : t.accepts name = false) (rest : List (String × Expr)) :
    ev.bindNamed callee scope t ((name, e) :: rest) s =
      ev.bindNamed callee scope t rest
        { s with diagnostics := s.diagnostics ++ [.unknownParameter t.name name] } := by
  have refused : (!t.formals.isEmpty && !t.hasFormal name) = true := by
    simpa [Template.accepts] using rejected
  rw [bindNamed, if_pos refused]
  rfl

theorem bindNamed_accepted (accepted : t.accepts name = true) (rest : List (String × Expr)) :
    ev.bindNamed callee scope t ((name, e) :: rest) =
      ev.eval scope e >>= fun v =>
        bindUnlessNull callee name v >>= fun _ => ev.bindNamed callee scope t rest := by
  have taken : ¬ (!t.formals.isEmpty && !t.hasFormal name) = true := by
    cases formals : t.formals.isEmpty <;> simp_all [Template.accepts]
  rw [bindNamed, if_neg taken]

theorem bindNamed_stopped (accepted : t.accepts name = true) (rest : List (String × Expr))
    {cause : Stop} (failed : ev.eval scope e s = .error cause u) :
    ev.bindNamed callee scope t ((name, e) :: rest) s = .error cause u := by
  rw [bindNamed_accepted accepted, Run.bind_of_error _ failed]

theorem bindNamed_assigned (accepted : t.accepts name = true) (rest : List (String × Expr))
    (evaluated : ev.eval scope e s = .ok v u) :
    ev.bindNamed callee scope t ((name, e) :: rest) s =
      ev.bindNamed callee scope t rest (u.giving callee name v) := by
  rw [bindNamed_accepted accepted, Run.bind_of_ok _ evaluated,
    Run.bind_of_ok _ (bindUnlessNull_eq callee name v u)]

/-- One argument has been evaluated and given to the callee. -/
theorem giving_progress (name : String) (calling : s.arena.Calling caller callee scope)
    (evaluated : (ofDepth setting depth).eval scope e s = .ok v u) :
    Progress caller callee scope s.arena (u.giving callee name v).arena ∧
      (u.giving callee name v).arena.get callee =
        { s.arena.get callee with
          arguments := entered (s.arena.get callee).arguments [(name, v)] } := by
  obtain ⟨spares, known, apart⟩ := eval_spares setting calling.closed calling.opened evaluated
  obtain ⟨progress, same⟩ := spares.progress calling
  unfold RenderState.giving
  cases isNull : v.isNull with
  | true =>
    refine ⟨progress, ?_⟩
    simp only [entered, List.foldl_cons, List.foldl_nil, isNull, if_true]
    exact same
  | false =>
    have given := progress.calling.setArgument name known (apart callee calling.inside calling.unheld)
    refine ⟨progress.trans given, ?_⟩
    simp only [entered, List.foldl_cons, List.foldl_nil, isNull, Bool.false_eq_true, if_false]
    rw [get_setArgument, if_pos ⟨rfl, progress.calling.inside⟩, same]

/-! ## Runs -/

/-- What a list of named arguments leaves behind: a call in progress still, and the callee as it was
but for the results. -/
structure Given (caller callee scope : Handle) (t : Template) (bindings : List (String × Expr))
    (results : List (String × Value)) (a b : Arena) : Prop where
  progress : Progress caller callee scope a b
  names : results.map Prod.fst = (bindings.map Prod.fst).filter t.accepts
  callee : b.get callee =
    { a.get callee with arguments := entered (a.get callee).arguments results }

theorem assigns_bindNamed (setting : Setting) (depth : Nat)
    (calling : s.arena.Calling caller callee scope) (t : Template)
    (bindings : List (String × Expr)) (means : Arena → Prop)
    (meant : ∀ b, Progress caller callee scope s.arena b → means b) :
    ∃ results, Assigns (ofDepth setting depth) t callee scope means bindings s results
        ((ofDepth setting depth).bindNamed callee scope t bindings s) ∧
      ∀ u, (ofDepth setting depth).bindNamed callee scope t bindings s = .ok () u →
        Given caller callee scope t bindings results s.arena u.arena := by
  induction bindings generalizing s with
  | nil =>
    refine ⟨[], .done, fun u ended => ?_⟩
    cases ended
    exact ⟨.refl calling, rfl, rfl⟩
  | cons binding rest ih =>
    obtain ⟨name, e⟩ := binding
    cases accepted : t.accepts name with
    | false =>
      let reported : RenderState :=
        { s with diagnostics := s.diagnostics ++ [.unknownParameter t.name name] }
      obtain ⟨results, assigns, gives⟩ := ih (s := reported) calling meant
      rw [bindNamed_rejected accepted]
      refine ⟨results, .rejected accepted assigns, fun u ended => ?_⟩
      have given := gives u ended
      exact ⟨given.progress, by simpa [accepted] using given.names, given.callee⟩
    | true =>
      have here := meant s.arena (.refl calling)
      cases evaluated : (ofDepth setting depth).eval scope e s with
      | error cause u =>
        rw [bindNamed_stopped accepted rest evaluated]
        exact ⟨[], .stopped accepted here evaluated, fun _ ended => nomatch ended⟩
      | ok v u =>
        obtain ⟨progress, bound⟩ := giving_progress name calling evaluated
        obtain ⟨results, assigns, gives⟩ :=
          ih progress.calling fun b later => meant b (progress.trans later)
        rw [bindNamed_assigned accepted rest evaluated]
        refine ⟨(name, v) :: results, .assigned accepted here evaluated assigns, fun w ended => ?_⟩
        have given := gives w ended
        refine ⟨progress.trans given.progress, by simpa [accepted] using given.names, ?_⟩
        rw [given.callee, bound]
        rfl

/-! ## Calls -/

/-- How a list of named arguments is evaluated in a scope that is opened for it. There a name means
what the callee has been given for it, and otherwise what it means in the caller. -/
def AssignsApart (ev : Evaluator) (t : Template) (caller callee : Handle) (given : Table Value)
    (s : RenderState) (bindings : List (String × Expr)) (results : List (String × Value))
    (r : EStateM.Result Stop RenderState Unit) : Prop :=
  let opened := s.arena.argumentScope caller given
  ev.Assigns t callee opened.1
    (fun b => ∀ name, b.resolve opened.1 name = s.arena.resolveBehind given caller name)
    bindings { s with arena := opened.2 } results r

/-- How the arguments of a call are evaluated from a state on, where the callee has been given some
already: the results that it is given in addition, and how it ends. -/
inductive Supplies (ev : Evaluator) (t : Template) (caller callee : Handle) (given : Table Value)
    (s : RenderState) : Arguments → List (String × Value) →
    EStateM.Result Stop RenderState Unit → Prop
  | none : Supplies ev t caller callee given s .none [] (.ok () s)
  /-- There is no one parameter for the value, which is reported. -/
  | mismatched {e : Expr} :
    t.formals.length ≠ 1 →
    Supplies ev t caller callee given s (.positional e) []
      (.ok () { s with
        diagnostics := s.diagnostics ++ [.arityMismatch t.name t.formals.length 1] })
  | positional {e : Expr} {formal : String} {results : List (String × Value)}
    {r : EStateM.Result Stop RenderState Unit} :
    t.formals = [formal] →
    ev.AssignsApart t caller callee given s [(formal, e)] results r →
    Supplies ev t caller callee given s (.positional e) results r
  | named {bindings : List (String × Expr)} {results : List (String × Value)}
    {r : EStateM.Result Stop RenderState Unit} :
    ev.AssignsApart t caller callee given s bindings results r →
    Supplies ev t caller callee given s (.named bindings) results r

/-- What the arguments of a call leave behind: the callee as it was but for the results. -/
structure Supplied (caller callee : Handle) (results : List (String × Value)) (a b : Arena) :
    Prop where
  awaits : b.Awaits caller callee
  grows : Grows a b
  callee : b.get callee =
    { a.get callee with arguments := entered (a.get callee).arguments results }

/-- The arguments of a call are evaluated in a scope of their own. -/
theorem bindArguments_named (ev : Evaluator) (caller callee : Handle) (s : RenderState)
    (bindings : List (String × Expr)) :
    let opened := s.arena.argumentScope caller (s.arena.get callee).arguments
    ev.bindArguments caller callee (.named bindings) s =
      ev.bindNamed callee opened.1 (s.arena.get callee).template bindings
        { s with arena := opened.2 } := rfl

/-- The value of an only parameter is bound like one named argument. -/
theorem bindArguments_positional (ev : Evaluator) (caller callee : Handle) (s : RenderState)
    (e : Expr) {formal : String} (only : (s.arena.get callee).template.formals = [formal]) :
    ev.bindArguments caller callee (.positional e) s =
      ev.bindArguments caller callee (.named [(formal, e)]) s := by
  have accepted : (s.arena.get callee).template.accepts formal = true := by
    simp [Template.accepts, Template.hasFormal, only]
  rw [bindArguments_named, bindNamed_accepted accepted, bindArguments, Run.arena_bind]
  simp only [only, bindNamed, bind_pure_unit]
  rfl

theorem bindArguments_mismatched (ev : Evaluator) (caller callee : Handle) (s : RenderState)
    (e : Expr) (other : (s.arena.get callee).template.formals.length ≠ 1) :
    let t := (s.arena.get callee).template
    ev.bindArguments caller callee (.positional e) s =
      .ok () { s with
        diagnostics := s.diagnostics ++ [.arityMismatch t.name t.formals.length 1] } := by
  rw [bindArguments, Run.arena_bind]
  rcases formals : (s.arena.get callee).template.formals with _ | ⟨first, _ | ⟨second, rest⟩⟩
  · simp only [formals]
    rfl
  · exact absurd (congrArg List.length formals) other
  · simp only [formals]
    rfl

/-- Names mean the same while a list of arguments is evaluated. -/
theorem assignsApart_bindArguments (setting : Setting) (depth : Nat)
    (awaits : s.arena.Awaits caller callee) (bindings : List (String × Expr)) :
    let t := (s.arena.get callee).template
    ∃ results, (ofDepth setting depth).AssignsApart t caller callee
        (s.arena.get callee).arguments s bindings results
        ((ofDepth setting depth).bindArguments caller callee (.named bindings) s) ∧
      ∀ u, (ofDepth setting depth).bindArguments caller callee (.named bindings) s = .ok () u →
        results.map Prod.fst = (bindings.map Prod.fst).filter t.accepts ∧
        Supplied caller callee results s.arena u.arena := by
  intro t
  let opened := s.arena.argumentScope caller (s.arena.get callee).arguments
  have calling : opened.2.Calling caller callee opened.1 := awaits.calling
  have kept : opened.2.get callee = s.arena.get callee :=
    get_push_of_contains awaits.inside _
  obtain ⟨results, assigns, gives⟩ := assigns_bindNamed setting depth
    (s := { s with arena := opened.2 }) calling t bindings
    (fun b => ∀ name, b.resolve opened.1 name =
      s.arena.resolveBehind (s.arena.get callee).arguments caller name)
    fun b progress name => (progress.resolve_eq calling name).trans
      (resolve_argumentScope awaits.closed awaits.caller_inside _ name)
  refine ⟨results, assigns, fun u ended => ?_⟩
  obtain ⟨progress, names, callee⟩ := gives u ended
  have grown : Grows s.arena opened.2 := (keeps_push s.arena _).toGrows
  exact ⟨names, progress.calling.toAwaits, grown.trans progress.grows, kept ▸ callee⟩

/-- Every kind of arguments is supplied so. -/
theorem supplies_bindArguments (setting : Setting) (depth : Nat)
    (awaits : s.arena.Awaits caller callee) (args : Arguments) :
    ∃ results, (ofDepth setting depth).Supplies (s.arena.get callee).template caller callee
        (s.arena.get callee).arguments s args results
        ((ofDepth setting depth).bindArguments caller callee args s) ∧
      ∀ u, (ofDepth setting depth).bindArguments caller callee args s = .ok () u →
        Supplied caller callee results s.arena u.arena := by
  cases args with
  | none =>
    refine ⟨[], .none, fun u ended => ?_⟩
    cases ended
    exact ⟨awaits, .refl _, rfl⟩
  | named bindings =>
    obtain ⟨results, assigns, gives⟩ := assignsApart_bindArguments setting depth awaits bindings
    exact ⟨results, .named assigns, fun u ended => (gives u ended).2⟩
  | positional e =>
    by_cases one : (s.arena.get callee).template.formals.length = 1
    · obtain ⟨formal, only⟩ := List.length_eq_one_iff.1 one
      rw [bindArguments_positional _ caller callee s e only]
      obtain ⟨results, assigns, gives⟩ :=
        assignsApart_bindArguments setting depth awaits [(formal, e)]
      exact ⟨results, .positional only assigns, fun u ended => (gives u ended).2⟩
    · rw [bindArguments_mismatched _ caller callee s e one]
      refine ⟨[], .mismatched one, fun u ended => ?_⟩
      cases ended
      exact ⟨awaits, .refl _, rfl⟩

end Evaluator
end Stencil
