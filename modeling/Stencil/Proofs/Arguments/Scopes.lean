import Stencil.Proofs.Withheld
/-!
# Scopes of arguments

What names mean in the scope that the arguments of a call are evaluated in: what the callee has been
given before the call's own arguments, and otherwise what they mean in the caller. Binding in the
callee does not change it, and no more does what the arguments evaluate.
-/
namespace Stencil

/-- Names are resolved in the second activation as in the first. An instance may be linked anew, but
no scope of arguments. -/
structure Activation.SameScope (act act' : Activation) : Prop where
  template : act'.template = act.template
  kind : act'.kind = act.kind
  attributes : act'.attributes = act.attributes
  arguments : act'.arguments = act.arguments
  link : act.kind = .arguments → act'.enclosing? = act.enclosing?

theorem Activation.SameScope.refl (act : Activation) : act.SameScope act :=
  ⟨rfl, rfl, rfl, rfl, fun _ => rfl⟩

theorem Activation.SameScope.trans {act act' act'' : Activation} (first : act.SameScope act')
    (second : act'.SameScope act'') : act.SameScope act'' where
  template := second.template.trans first.template
  kind := second.kind.trans first.kind
  attributes := second.attributes.trans first.attributes
  arguments := second.arguments.trans first.arguments
  link kind := (second.link (first.kind.trans kind)).trans (first.link kind)

theorem Activation.SameScope.lookup {act act' : Activation} (same : act.SameScope act')
    (name : String) : act'.lookup name = act.lookup name := by
  rw [Activation.lookup, Activation.lookup, same.arguments, same.attributes]

namespace Arena

variable {a b : Arena} {caller callee scope c h x : Handle} {v : Value}

/-- An activation that has kept its link too is the same. -/
theorem Keeps.get_eq (keeps : a.Keeps b) (inside : a.contains h)
    (link : (b.get h).enclosing? = (a.get h).enclosing?) : b.get h = a.get h := by
  have template := keeps.template inside
  have attributes := keeps.attributes inside
  have arguments := keeps.arguments inside
  have kind := keeps.kind inside
  cases left : b.get h
  cases right : a.get h
  simp_all

theorem Spares.get_eq (spares : a.Spares b) (inside : a.contains h) (unheld : a.Unheld h) :
    b.get h = a.get h :=
  spares.toKeeps.get_eq inside (spares.link inside unheld)

theorem Spares.sameScope (spares : a.Spares b) (closed : a.Closed IsInstance)
    (inside : a.contains x) : (a.get x).SameScope (b.get x) where
  template := spares.template inside
  kind := spares.kind inside
  attributes := spares.attributes inside
  arguments := spares.arguments inside
  link kind := spares.link inside (closed.unheld_of_arguments kind)

/-! ## Resolution -/

/-- A scope of arguments is younger than its caller, so the way to a name passes older scopes only
and is never cut off. -/
theorem resolveFrom_congr (closed : a.Closed IsInstance) (name : String) {n m : Nat}
    (same : ∀ x : Handle, x.index ≤ c.index → (a.get x).SameScope (b.get x)) (enough : c.index < n)
    (enough' : c.index < m) (declared : Bool) :
    b.resolveFrom name m c declared = a.resolveFrom name n c declared := by
  induction n generalizing m c declared with
  | zero => omega
  | succ n ih =>
    obtain ⟨m, rfl⟩ : ∃ k, m = k + 1 := ⟨m - 1, by omega⟩
    have here := same c (Nat.le_refl _)
    simp only [resolveFrom, here.template, here.kind, here.lookup]
    cases (a.get c).lookup name with
    | some v => rfl
    | none =>
      cases kind : (a.get c).kind with
      | template => rfl
      | arguments =>
        rw [here.link kind]
        cases link : (a.get c).enclosing? with
        | none => rfl
        | some e =>
          have older : e.index < c.index := closed.older (by simp [IsInstance]) c e kind link
          exact ih (fun x le => same x (by omega)) (by omega) (by omega) _

/-- Whether the template of the first scope declares the name is asked for anyway. -/
theorem resolveFrom_declared (a : Arena) (name : String) (n : Nat) (c : Handle) :
    a.resolveFrom name (n + 1) c ((a.get c).template.hasFormal name) =
      a.resolveFrom name (n + 1) c false := by
  simp [resolveFrom]

/-- What a name means where some values stand in front of a scope. -/
def resolveBehind (a : Arena) (given : Table Value) (c : Handle) (name : String) : Resolution :=
  match given.find? name with
  | some v => .found v
  | none => a.resolve c name

/-- In a scope of arguments, what is bound in it stands in front of the caller. -/
theorem resolve_argumentScope (closed : a.Closed IsInstance) (inside : a.contains caller)
    (given : Table Value) (name : String) :
    (a.argumentScope caller given).2.resolve (a.argumentScope caller given).1 name =
      a.resolveBehind given caller name := by
  let act : Activation := ⟨(a.get caller).template, .empty, given, some caller, .arguments⟩
  have older (x : Handle) (le : x.index ≤ caller.index) :
      (a.get x).SameScope ((a.push act).2.get x) := by
    rw [get_push_of_contains (Nat.lt_of_le_of_lt le inside)]
    exact .refl _
  have caller_resolves := resolveFrom_congr (n := a.size + 1) (m := a.size + 1) closed name older
    (Nat.lt_succ_of_lt inside) (Nat.lt_succ_of_lt inside)
  change (a.push act).2.resolveFrom name ((a.push act).2.size + 1) (a.push act).1 false = _
  rw [size_push, resolveFrom, get_push_self, resolveBehind, resolve]
  simp only [Activation.lookup, act, Bool.false_or]
  cases given.find? name with
  | some v => rfl
  | none =>
    rw [← resolveFrom_declared]
    exact caller_resolves _

/-! ## Calls in progress -/

/-- The callee is younger than the caller, and its handle has not been given away yet. -/
structure Awaits (a : Arena) (caller callee : Handle) : Prop where
  closed : a.Closed IsInstance
  older : caller.index < callee.index
  inside : a.contains callee
  unheld : a.Unheld callee

theorem Awaits.caller_inside (awaits : a.Awaits caller callee) : a.contains caller :=
  Nat.lt_trans awaits.older awaits.inside

/-- An instance waits for its arguments as soon as it is made. -/
theorem Closed.awaits_push (closed : a.Closed IsInstance) (inside : a.contains caller)
    (act : Activation) (link : act.enclosing? = some caller)
    (stored : ∀ v, act.Stores v → ∀ x, v.Holds x → a.Knows IsInstance x) :
    (a.push act).2.Awaits caller (a.push act).1 where
  closed := closed.push act (fun _ same => Option.some.inj (link.symm.trans same) ▸ inside) stored
  older := inside
  inside := by simp [contains]
  unheld := by
    have outside : ¬ a.contains (a.push act).1 := by simp [contains]
    exact (closed.unheld_of_not_contains outside).push fun v stores holds =>
      outside (stored v stores _ holds).inside

theorem Closed.awaits_embed (closed : a.Closed IsInstance) (inside : a.contains caller)
    (t : Template) : (a.embed caller t).2.Awaits caller (a.embed caller t).1 :=
  closed.awaits_push inside _ rfl fun _ stores =>
    absurd stores (Activation.not_stores_of_empty rfl rfl)

theorem Awaits.setArgument (awaits : a.Awaits caller callee) (name : String)
    (known : ∀ x, v.Holds x → a.Knows IsInstance x) (apart : ¬ v.Holds callee) :
    (a.setArgument callee name v).Awaits caller callee where
  closed := awaits.closed.setArgument callee name known
  older := awaits.older
  inside := (grows_setArgument a callee name v).contains awaits.inside
  unheld := awaits.unheld.setArgument callee name apart

/-- The arguments of a call are evaluated in `scope`, on top of the caller. -/
structure Calling (a : Arena) (caller callee scope : Handle) : Prop
    extends Awaits a caller callee where
  opened : a.contains scope
  apart : scope ≠ callee
  kind : (a.get scope).kind = .arguments
  link : a.Link scope caller

/-- The scope begins with what the callee has been given already. -/
theorem Awaits.calling (awaits : a.Awaits caller callee) :
    let opened := a.argumentScope caller (a.get callee).arguments
    opened.2.Calling caller callee opened.1 := by
  let act : Activation :=
    ⟨(a.get caller).template, .empty, (a.get callee).arguments, some caller, .arguments⟩
  have stored (v : Value) (stores : act.Stores v) : (a.get callee).Stores v := by
    obtain ⟨name, set | given⟩ := stores
    · cases set
    · exact ⟨name, Or.inr given⟩
  have lt : callee.index < a.size := awaits.inside
  constructor
  case toAwaits =>
    constructor
    case closed => exact awaits.closed.argumentScope awaits.caller_inside callee
    case older => exact awaits.older
    case inside => exact (keeps_push a act).contains awaits.inside
    case unheld => exact awaits.unheld.push fun v stores => awaits.unheld callee v (stored v stores)
  case opened => simp [argumentScope, contains]
  case apart =>
    intro same
    have index : a.size = callee.index := congrArg Handle.index same
    omega
  case kind => exact congrArg Activation.kind (get_push_self a act)
  case link => exact link_push a rfl

/-- What leaves all scopes but the callee as they are leaves the meaning of names as it is. -/
theorem Calling.resolve_eq (calling : a.Calling caller callee scope) (le : a.size ≤ b.size)
    (same : ∀ x, a.contains x → x ≠ callee → (a.get x).SameScope (b.get x)) (name : String) :
    b.resolve scope name = a.resolve scope name := by
  have caller_lt : caller.index < a.size := calling.caller_inside
  have callers (x : Handle) (le : x.index ≤ caller.index) : (a.get x).SameScope (b.get x) := by
    refine same x (Nat.lt_of_le_of_lt le caller_lt) fun isCallee => ?_
    have := calling.older
    rw [isCallee] at le
    omega
  have here := same scope calling.opened calling.apart
  have link : (a.get scope).enclosing? = some caller := calling.link
  simp only [resolve, resolveFrom, here.template, here.kind, here.lookup, here.link calling.kind,
    calling.kind, link]
  rw [resolveFrom_congr calling.closed name callers caller_lt (Nat.lt_of_lt_of_le caller_lt le)]

/-! ## Progress -/

/-- The call goes on in the second arena, and no scope but the callee has changed. -/
structure Progress (caller callee scope : Handle) (a b : Arena) : Prop where
  calling : b.Calling caller callee scope
  grows : Grows a b
  same {x : Handle} : a.contains x → x ≠ callee → (a.get x).SameScope (b.get x)

theorem Progress.of_awaits (calling : a.Calling caller callee scope)
    (awaits : b.Awaits caller callee) (grows : Grows a b)
    (same : ∀ x, a.contains x → x ≠ callee → (a.get x).SameScope (b.get x)) :
    Progress caller callee scope a b where
  grows := grows
  same {x} := same x
  calling :=
    have here := same scope calling.opened calling.apart
    { toAwaits := awaits
      opened := grows.contains calling.opened
      apart := calling.apart
      kind := here.kind.trans calling.kind
      link := (here.link calling.kind).trans calling.link }

theorem Progress.refl (calling : a.Calling caller callee scope) :
    Progress caller callee scope a a :=
  ⟨calling, .refl a, fun _ _ => .refl _⟩

theorem Progress.trans {b' : Arena} (first : Progress caller callee scope a b)
    (second : Progress caller callee scope b b') : Progress caller callee scope a b' where
  calling := second.calling
  grows := first.grows.trans second.grows
  same inside apart :=
    (first.same inside apart).trans (second.same (first.grows.contains inside) apart)

theorem Progress.resolve_eq (calling : a.Calling caller callee scope)
    (progress : Progress caller callee scope a b) (name : String) :
    b.resolve scope name = a.resolve scope name :=
  calling.resolve_eq progress.grows.size (fun _ => progress.same) name

/-- Evaluating one of the arguments changes the callee no more than the other scopes. -/
theorem Spares.progress (spares : a.Spares b) (calling : a.Calling caller callee scope) :
    Progress caller callee scope a b ∧ b.get callee = a.get callee := by
  have awaits : b.Awaits caller callee :=
    ⟨spares.closed, calling.older, spares.contains calling.inside,
      spares.unheld calling.inside calling.unheld⟩
  exact ⟨.of_awaits calling awaits spares.toGrows fun x inside _ =>
    spares.sameScope calling.closed inside, spares.get_eq calling.inside calling.unheld⟩

theorem Calling.setArgument (calling : a.Calling caller callee scope) (name : String)
    (known : ∀ x, v.Holds x → a.Knows IsInstance x) (apart : ¬ v.Holds callee) :
    Progress caller callee scope a (a.setArgument callee name v) := by
  refine .of_awaits calling (calling.toAwaits.setArgument name known apart)
    (grows_setArgument a callee name v) fun x _ other => ?_
  rw [get_setArgument, if_neg fun hit => other hit.1]
  exact .refl _

end Arena
end Stencil
