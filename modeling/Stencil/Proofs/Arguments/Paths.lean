import Stencil.Proofs.Arguments.Scopes
import Stencil.Proofs.Invariant.Step
import Stencil.Proofs.Reachable
import Stencil.Proofs.Sequence
/-!
# Paths to attributes

An attribute is looked for in the scopes of arguments that lie on top of an instance, from the
innermost one outwards, then in the instance, and nowhere else. The links between instances change
all the time and may run in circles; but a scope of arguments is made on top of a scope that is
there already, and no value holds its handle, so nothing links it anew. In every arena that hosts
and renders make there is therefore a finite path from each activation to an instance, and the bound
on the number of scopes that are looked at never comes into it.

This goes for the arenas in the middle of a render too. They are not the arena of any host, so it is
said of the render: it comes to the same if it looks names up in another way, one that goes by the
paths where there are some and may do anything at all where there are none.
-/
namespace Stencil

namespace Activation

variable {act : Activation} {name : String} {v : Value}

/-- The name is bound, as an argument or, unless it is one, as an attribute. -/
def Binds (act : Activation) (name : String) (v : Value) : Prop :=
  act.arguments.find? name = some v ∨
    act.arguments.find? name = none ∧ act.attributes.find? name = some v

/-- Neither an argument nor an attribute has the name. -/
def Lacks (act : Activation) (name : String) : Prop :=
  act.arguments.find? name = none ∧ act.attributes.find? name = none

theorem lookup_eq_some_iff : act.lookup name = some v ↔ act.Binds name v := by
  unfold lookup Binds
  cases act.arguments.find? name <;> simp

theorem lookup_eq_none_iff : act.lookup name = none ↔ act.Lacks name := by
  unfold lookup Lacks
  cases act.arguments.find? name <;> simp

end Activation

namespace Arena

variable {a b : Arena} {c h owner owner' : Handle} {path path' : List Handle} {name : String}
  {v : Value}

/-! ## Paths -/

/-- The scopes of arguments from a scope on, each on top of an older activation, and behind them the
instance that they lead to. -/
inductive PathFrom (a : Arena) : Handle → List Handle → Handle → Prop
  | owner {h : Handle} : a.contains h → (a.get h).kind = .template → PathFrom a h [h] h
  | scope {h caller owner : Handle} {path : List Handle} :
    a.contains h → (a.get h).kind = .arguments → a.Link h caller → caller.index < h.index →
    PathFrom a caller path owner → PathFrom a h (h :: path) owner

namespace PathFrom

/-- From a scope there is one path only. -/
theorem unique (first : a.PathFrom c path owner) (second : a.PathFrom c path' owner') :
    path' = path ∧ owner' = owner := by
  induction first generalizing path' with
  | owner _ kind =>
    cases second with
    | owner => exact ⟨rfl, rfl⟩
    | scope _ kind' =>
      rw [kind] at kind'
      cases kind'
  | scope _ kind link _ _ ih =>
    cases second with
    | owner _ kind' =>
      rw [kind] at kind'
      cases kind'
    | scope _ _ link' _ rest =>
      obtain rfl := Option.some.inj (link.symm.trans link')
      obtain ⟨rfl, rfl⟩ := ih rest
      exact ⟨rfl, rfl⟩

theorem inside (way : a.PathFrom c path owner) : a.contains c := by
  cases way with
  | owner inside => exact inside
  | scope inside => exact inside

/-- The activations of a path become older and older. -/
theorem length_le (way : a.PathFrom c path owner) : path.length ≤ c.index + 1 := by
  induction way with
  | owner => simp
  | scope _ _ _ older _ ih =>
    rw [List.length_cons]
    omega

theorem length_le_size (way : a.PathFrom c path owner) : path.length ≤ a.size :=
  Nat.le_trans way.length_le way.inside

/-! ## Resolution -/

/-- As many steps as the path is long are enough. -/
theorem resolveFrom_enough (way : a.PathFrom c path owner) (name : String) {n m : Nat}
    (enough : path.length ≤ n) (enough' : path.length ≤ m) (declared : Bool) :
    a.resolveFrom name n c declared = a.resolveFrom name m c declared := by
  induction way generalizing n m declared with
  | owner _ kind =>
    obtain ⟨n, rfl⟩ : ∃ k, n = k + 1 := Nat.exists_eq_add_of_le' enough
    obtain ⟨m, rfl⟩ : ∃ k, m = k + 1 := Nat.exists_eq_add_of_le' enough'
    simp only [resolveFrom, kind]
  | scope _ kind link _ _ ih =>
    rw [List.length_cons] at enough enough'
    obtain ⟨n, rfl⟩ : ∃ k, n = k + 1 := ⟨n - 1, by omega⟩
    obtain ⟨m, rfl⟩ : ∃ k, m = k + 1 := ⟨m - 1, by omega⟩
    rw [Link] at link
    simp only [resolveFrom, kind, link]
    rw [ih (Nat.le_of_succ_le_succ enough) (Nat.le_of_succ_le_succ enough')]

/-- The first activation that binds the name decides. Nothing is read of the others behind it, nor
of any off the path. -/
theorem resolveFrom_bound {before after : List Handle}
    (way : a.PathFrom c (before ++ h :: after) owner)
    (lacks : ∀ x ∈ before, (a.get x).Lacks name) (binds : (a.get h).Binds name v)
    (same : ∀ x ∈ before ++ [h], b.get x = a.get x) {n : Nat} (enough : before.length < n)
    (declared : Bool) : b.resolveFrom name n c declared = .found v := by
  obtain ⟨n, rfl⟩ : ∃ k, n = k + 1 := ⟨n - 1, by omega⟩
  induction before generalizing c n declared with
  | nil =>
    obtain rfl : c = h := by cases way <;> rfl
    simp only [resolveFrom, same c (by simp), Activation.lookup_eq_some_iff.2 binds]
  | cons first before ih =>
    simp only [List.length_cons, Nat.add_lt_add_iff_right] at enough
    obtain ⟨n, rfl⟩ : ∃ k, n = k + 1 := ⟨n - 1, by omega⟩
    generalize path_eq : first :: before ++ h :: after = path at way
    cases way with
    | owner => simp at path_eq
    | scope _ kind link _ rest =>
      obtain ⟨rfl, rfl⟩ := List.cons.inj path_eq
      have here : (a.get first).lookup name = none :=
        Activation.lookup_eq_none_iff.2 (lacks first (by simp))
      rw [Link] at link
      rw [resolveFrom]
      simp only [same first (by simp), here, kind, link]
      exact ih rest (fun x member => lacks x (by simp [member]))
        (fun x member => same x (List.mem_cons_of_mem _ member)) _ n enough

/-- Where nothing on the path binds the name, all of it has been looked at. -/
theorem resolveFrom_missing (way : a.PathFrom c path owner)
    (lacks : ∀ x ∈ path, (a.get x).Lacks name) {n : Nat} (enough : path.length ≤ n)
    (declared : Bool) :
    a.resolveFrom name n c declared =
      .missing (declared || path.any fun x => (a.get x).template.hasFormal name) owner := by
  induction way generalizing n declared with
  | @owner h _ kind =>
    obtain ⟨n, rfl⟩ : ∃ k, n = k + 1 := Nat.exists_eq_add_of_le' enough
    have here := Activation.lookup_eq_none_iff.2 (lacks h (by simp))
    simp [resolveFrom, here, kind]
  | @scope h caller owner path _ kind link _ _ ih =>
    rw [List.length_cons] at enough
    obtain ⟨n, rfl⟩ : ∃ k, n = k + 1 := ⟨n - 1, by omega⟩
    have here := Activation.lookup_eq_none_iff.2 (lacks h (by simp))
    rw [Link] at link
    simp only [resolveFrom, here, kind, link, List.any_cons]
    rw [ih (fun x member => lacks x (by simp [member])) (by omega), Bool.or_assoc]

/-- The scopes before the one that decides are scopes of the other arena too, which then has enough
of them. -/
theorem length_le_of_same {before after : List Handle}
    (way : a.PathFrom c (before ++ h :: after) owner)
    (same : ∀ x ∈ before ++ [h], b.get x = a.get x) : before.length ≤ b.size := by
  cases before with
  | nil => exact Nat.zero_le _
  | cons first before =>
    have short := way.length_le
    simp only [List.length_append, List.length_cons] at short ⊢
    generalize path_eq : first :: before ++ h :: after = path at way
    cases way with
    | owner => simp at path_eq
    | scope _ kind _ _ _ =>
      obtain ⟨rfl, rfl⟩ := List.cons.inj path_eq
      have within : b.contains first := by
        by_contra outside
        rw [← same first (by simp), get_eq_default outside] at kind
        cases kind
      have : first.index < b.size := within
      omega

end PathFrom

/-! ## Callers -/

/-- Every scope of arguments lies on top of a caller. -/
def Anchored (a : Arena) : Prop := ∀ h, (a.get h).kind = .arguments → ∃ caller, a.Link h caller

namespace Anchored

theorem empty : Anchored .empty := by
  intro h kind
  rw [get_eq_default (by simp [contains, size, Arena.empty])] at kind
  cases kind

theorem push (anchored : a.Anchored) {act : Activation}
    (link : act.kind = .arguments → ∃ caller, act.enclosing? = some caller) :
    (a.push act).2.Anchored := by
  intro x kind
  simp only [Link]
  rw [get_push] at kind ⊢
  split at kind
  · rename_i new
    rw [if_pos new]
    exact link kind
  · rename_i old
    rw [if_neg old]
    exact anchored x kind

theorem modify (anchored : a.Anchored) (h : Handle) {f : Activation → Activation}
    (kind : (f (a.get h)).kind = (a.get h).kind)
    (link : (a.get h).kind = .arguments →
      ∀ e, (a.get h).enclosing? = some e → ∃ e, (f (a.get h)).enclosing? = some e) :
    (a.modify h f).Anchored := by
  intro x isArguments
  simp only [Link]
  rw [get_modify_eq] at isArguments ⊢
  split at isArguments
  · rename_i hit
    obtain ⟨rfl, inside⟩ := hit
    rw [if_pos ⟨rfl, inside⟩]
    rw [kind] at isArguments
    obtain ⟨e, before⟩ := anchored x isArguments
    exact link isArguments e before
  · rename_i other
    rw [if_neg other]
    exact anchored x isArguments

theorem setAttribute (anchored : a.Anchored) (h : Handle) (name : String) (v : Value) :
    (a.setAttribute h name v).Anchored :=
  anchored.modify h rfl fun _ e link => ⟨e, link⟩

theorem addAttribute (anchored : a.Anchored) (h : Handle) (name : String) (v : Value) :
    (a.addAttribute h name v).Anchored := by
  unfold Arena.addAttribute
  split
  · exact anchored
  · exact anchored.setAttribute h name _

theorem setEnclosing (anchored : a.Anchored) (isInstance : (a.get h).kind = .template)
    (e? : Option Handle) : (a.setEnclosing h e?).Anchored := by
  refine anchored.modify h rfl fun isArguments => ?_
  rw [isInstance] at isArguments
  cases isArguments

theorem embed (anchored : a.Anchored) (e : Handle) (t : Template) : (a.embed e t).2.Anchored :=
  anchored.push fun _ => ⟨e, rfl⟩

theorem instantiate (anchored : a.Anchored) (t : Template) : (a.instantiate t).2.Anchored :=
  anchored.push nofun

/-- Callers are older in an arena that is closed, so the scopes of arguments come to an end. -/
theorem exists_path (anchored : a.Anchored) (closed : a.Closed IsInstance) (inside : a.contains h) :
    ∃ path owner, a.PathFrom h path owner := by
  induction index : h.index using Nat.strong_induction_on generalizing h with
  | _ n ih =>
    cases kind : (a.get h).kind with
    | template => exact ⟨[h], h, .owner inside kind⟩
    | arguments =>
      obtain ⟨caller, link⟩ := anchored h kind
      have older : caller.index < h.index := closed.older (by simp [IsInstance]) h caller kind link
      obtain ⟨path, owner, way⟩ := ih caller.index (index ▸ older) (closed.links h caller link) rfl
      exact ⟨h :: path, owner, .scope inside kind link older way⟩

end Anchored

/-- A property of arenas that each change of a render keeps. -/
structure Lasting (P : Arena → Prop) : Prop where
  embed {a : Arena} (c : Handle) (t : Template) : P a → P (a.embed c t).2
  arguments {a : Arena} (c : Handle) (bound : Table Value) : P a → P (a.argumentScope c bound).2
  argument {a : Arena} (h : Handle) (name : String) (v : Value) : P a → P (a.setArgument h name v)
  enclose {a : Arena} (c h : Handle) : P a → P (a.setEnclosing h (some c))

theorem lasting_anchored : Lasting Anchored where
  embed c t anchored := anchored.embed c t
  arguments c _ anchored := anchored.push fun _ => ⟨c, rfl⟩
  argument h _ _ anchored := anchored.modify h rfl fun _ e link => ⟨e, link⟩
  enclose c h anchored := anchored.modify h rfl fun _ _ _ => ⟨c, rfl⟩

end Arena

/-! ## Properties that last -/

variable {P : Arena → Prop}

/-- A render leaves an arena that has the property, however it ends. -/
theorem Arena.Lasting.render (lasting : Arena.Lasting P) {a : Arena} (holds : P a)
    (setting : Setting) (depth : Nat) (root : Handle) (w : Writer) :
    P (setting.renderWithin depth a root w).arena := by
  have laws : Invariant.Lawful ⟨fun a _ => P a, fun _ => True, fun _ => True, fun _ => True⟩
      setting := by
    constructor
    case report => exact fun holds _ => holds
    case embed => exact fun t holds _ => ⟨lasting.embed _ t holds, trivial⟩
    case arguments => exact fun holds _ _ => lasting.arguments _ _ holds
    case argument => exact fun name holds _ _ => lasting.argument _ name _ holds
    case enclose => exact fun holds _ _ => lasting.enclose _ _ holds
    all_goals
      intros
      trivial
  obtain ⟨⟨_, left⟩, -⟩ := laws.render (fun _ => trivial) depth a root w holds
  exact left

namespace Lockstep

variable {L : Lockstep} {setting : Setting}

/-- The same comparison, of renders in the first of which the arena has a property. -/
def keeping (L : Lockstep) (P : Arena → Prop) : Lockstep :=
  { L with
    Coupled := fun c c' a b => L.Coupled c c' a b ∧ P a
    Evolves := fun c c' a b a₁ b₁ => L.Evolves c c' a b a₁ b₁ ∧ P a₁
    Left := fun a b => L.Left a b ∧ P a }

instance [exact_ : L.Exact] : (L.keeping P).Exact := ⟨exact_.strict, exact_.fits⟩

theorem Lawful.keeping (laws : L.Lawful) (lasting : Arena.Lasting P) : (L.keeping P).Lawful where
  refl coupled := ⟨laws.refl coupled.1, coupled.2⟩
  trans first second := ⟨laws.trans first.1 second.1, second.2⟩
  coupled coupled evolves := ⟨laws.coupled coupled.1 evolves.1, evolves.2⟩
  left coupled := ⟨laws.left coupled.1, coupled.2⟩
  twin evolves twin := laws.twin evolves.1 twin
  made evolves made := laws.made evolves.1 made
  twin_of_made := laws.twin_of_made
  resolve name coupled := laws.resolve name coupled.1
  group coupled := laws.group coupled.1
  template coupled made := laws.template coupled.1 made
  similar coupled twin := laws.similar coupled.1 twin
  property name coupled twin := laws.property name coupled.1 twin
  embed t coupled :=
    have made := laws.embed t coupled.1
    ⟨⟨made.1, lasting.embed _ t coupled.2⟩, made.2⟩
  argument name coupled made same :=
    ⟨laws.argument name coupled.1 made same, lasting.argument _ name _ coupled.2⟩
  arguments coupled made :=
    have opened := laws.arguments coupled.1 made
    ⟨⟨opened.1, lasting.arguments _ _ coupled.2⟩, opened.2.1,
      fun _ _ evolves => ⟨opened.2.2 _ _ evolves.1, evolves.2⟩⟩

theorem Enclosing.keeping (enclosing : L.Enclosing setting) (lasting : Arena.Lasting P) :
    (L.keeping P).Enclosing setting := by
  intro c c' h h' a b coupled twin
  have encloses := enclosing coupled.1 twin
  have linked : P (a.setEnclosing h (some c)) := lasting.enclose c h coupled.2
  constructor
  case opened => exact encloses.opened
  case refused => exact encloses.refused
  case traces =>
    intro strict refused
    obtain ⟨traces, left⟩ := encloses.traces strict refused
    exact ⟨traces, left, linked⟩
  case entered =>
    intro allowed
    obtain ⟨inner, chunks, wider⟩ := encloses.entered allowed
    exact ⟨⟨inner, linked⟩, chunks, fun _ _ evolves => ⟨wider _ _ evolves.1, evolves.2⟩⟩

theorem Outcome.of_keeping {α β : Type} {c c' : Handle} {a b : Arena} {ds ds' : List TemplateError}
    {Q : Arena → Arena → α → β → Prop} {r : EStateM.Result Stop RenderState α}
    {r' : EStateM.Result Stop RenderState β}
    (outcome : (L.keeping P).Outcome c c' a b ds ds' Q r r') :
    L.Outcome c c' a b ds ds' Q r r' := by
  cases outcome with
  | ok fits reports evolves related => exact .ok fits reports evolves.1 related
  | error reports left => exact .error reports left.1
  | lax isLax => exact .lax isLax

end Lockstep

/-! ## Looking names up -/

/-- A way to look names up that goes by the paths. Nothing is asked of it where there is none. -/
structure FollowsPaths (look : Handle → String → Run Value) : Prop where
  bound {s : RenderState} {scope owner h : Handle} {before after : List Handle} {name : String}
      {v : Value} :
    s.arena.PathFrom scope (before ++ h :: after) owner →
    (∀ x ∈ before, (s.arena.get x).Lacks name) → (s.arena.get h).Binds name v →
    look scope name s = .ok v s
  declared {s : RenderState} {scope owner : Handle} {path : List Handle} {name : String} :
    s.arena.PathFrom scope path owner → (∀ x ∈ path, (s.arena.get x).Lacks name) →
    (∃ x ∈ path, (s.arena.get x).template.hasFormal name = true) →
    look scope name s = .ok .null s
  missing {s : RenderState} {scope owner : Handle} {path : List Handle} {name : String} :
    s.arena.PathFrom scope path owner → (∀ x ∈ path, (s.arena.get x).Lacks name) →
    (∀ x ∈ path, (s.arena.get x).template.hasFormal name = false) →
    look scope name s = .ok .null { s with
      diagnostics := s.diagnostics ++ [.missingAttribute (s.arena.get owner).name name] }

namespace Run

variable {scope owner : Handle} {name : String} {v : Value} {s : RenderState}

theorem resolveAttribute_of_found (found : s.arena.resolve scope name = .found v) :
    resolveAttribute scope name s = .ok v s := by
  rw [resolveAttribute, arena_bind, found]
  rfl

theorem resolveAttribute_of_missing {declared : Bool}
    (missing : s.arena.resolve scope name = .missing declared owner) :
    resolveAttribute scope name s = .ok .null
      (if declared then s else { s with
        diagnostics := s.diagnostics ++ [.missingAttribute (s.arena.get owner).name name] }) := by
  rw [resolveAttribute, arena_bind, missing]
  cases declared <;> rfl

/-- What has been found does not depend on what is further out. -/
theorem resolveAttribute_bound {a : Arena} {h : Handle} {before after : List Handle}
    (way : a.PathFrom scope (before ++ h :: after) owner)
    (lacks : ∀ x ∈ before, (a.get x).Lacks name) (binds : (a.get h).Binds name v)
    (same : ∀ x ∈ before ++ [h], s.arena.get x = a.get x) :
    resolveAttribute scope name s = .ok v s :=
  resolveAttribute_of_found <| way.resolveFrom_bound lacks binds same
    (Nat.lt_succ_of_le (way.length_le_of_same same)) false

theorem followsPaths_resolveAttribute : FollowsPaths resolveAttribute where
  bound way lacks binds := resolveAttribute_bound way lacks binds fun _ _ => rfl
  declared {s scope owner path name} way lacks declares := by
    have enough : path.length ≤ s.arena.size + 1 := Nat.le_succ_of_le way.length_le_size
    have resolved := way.resolveFrom_missing lacks enough false
    rw [Bool.false_or, List.any_eq_true.2 declares] at resolved
    exact resolveAttribute_of_missing resolved
  missing {s scope owner path name} way lacks silent := by
    have enough : path.length ≤ s.arena.size + 1 := Nat.le_succ_of_le way.length_le_size
    have resolved := way.resolveFrom_missing lacks enough false
    rw [Bool.false_or, List.any_eq_false.2 fun x member => by simp [silent x member]] at resolved
    exact resolveAttribute_of_missing resolved

end Run

/-- Along a path there is only one answer. -/
theorem FollowsPaths.eq {look : Handle → String → Run Value} (follows : FollowsPaths look)
    {s : RenderState} {scope owner : Handle} {path : List Handle}
    (way : s.arena.PathFrom scope path owner) (name : String) :
    look scope name s = Run.resolveAttribute scope name s := by
  have standard := Run.followsPaths_resolveAttribute
  cases found : path.find? fun x => ((s.arena.get x).lookup name).isSome with
  | some h =>
    obtain ⟨binds, before, after, rfl, first⟩ := List.find?_eq_some_iff_append.1 found
    obtain ⟨v, looked⟩ := Option.isSome_iff_exists.1 binds
    have binds := Activation.lookup_eq_some_iff.1 looked
    have lacks (x : Handle) (member : x ∈ before) : (s.arena.get x).Lacks name :=
      Activation.lookup_eq_none_iff.1 (by simpa using first x member)
    rw [follows.bound way lacks binds, standard.bound way lacks binds]
  | none =>
    have nothing := List.find?_eq_none.1 found
    have lacks (x : Handle) (member : x ∈ path) : (s.arena.get x).Lacks name :=
      Activation.lookup_eq_none_iff.1 (by simpa using nothing x member)
    by_cases declares : ∃ x ∈ path, (s.arena.get x).template.hasFormal name = true
    · rw [follows.declared way lacks declares, standard.declared way lacks declares]
    · simp only [not_exists, not_and, Bool.not_eq_true] at declares
      rw [follows.missing way lacks declares, standard.missing way lacks declares]

/-! ## Renders that look names up in another way -/

namespace Evaluator

/-- One step over `ev`, with names looked up by `look`. -/
def withNames (setting : Setting) (look : Handle → String → Run Value) (ev : Evaluator) :
    Evaluator :=
  { step setting ev with
    eval := fun scope e =>
      match e with
      | .attribute name => look scope name
      | e => (step setting ev).eval scope e }

/-- Goes at most `depth` steps deep, and looks names up by `look`. -/
def lookingUp (setting : Setting) (look : Handle → String → Run Value) : Nat → Evaluator
  | 0 => exhausted
  | depth + 1 => withNames setting look (lookingUp setting look depth)

end Evaluator

namespace Steady

open Arena

variable {a₀ : Arena} {setting : Setting} {look : Handle → String → Run Value}

theorem related_lookingUp (follows : FollowsPaths look) (depth : Nat) :
    ((lockstep IsInstance setting.strict a₀ []).keeping Anchored).Related
      (.ofDepth setting depth) (.lookingUp setting look depth) := by
  have instances : IsInstance .template := rfl
  have laws : ((lockstep IsInstance setting.strict a₀ []).keeping Anchored).Lawful :=
    (lawful instances).keeping lasting_anchored
  have encloses : ((lockstep IsInstance setting.strict a₀ []).keeping Anchored).Enclosing setting :=
    Lockstep.Enclosing.keeping (enclosing setting) lasting_anchored
  induction depth with
  | zero => exact Lockstep.related_exhausted laws
  | succ depth ih =>
    have steps := Lockstep.related_step setting laws encloses ih
    constructor
    case eval =>
      intro c c' a b e coupled
      cases e with
      | «attribute» name =>
        intro ds ds' w fits
        have resolved := Lockstep.agrees_resolveAttribute laws coupled name ds ds' w fits
        obtain ⟨⟨⟨rfl, rfl⟩, standing⟩, anchored⟩ := coupled
        obtain ⟨path, owner, way⟩ := anchored.exists_path standing.closed standing.inside
        have alike : look c name ⟨a, ds', w⟩ = Run.resolveAttribute c name ⟨a, ds', w⟩ :=
          follows.eq way name
        rw [← alike] at resolved
        exact resolved
      | _ => exact steps.eval _ coupled
    case write => exact steps.write
    case render => exact steps.render

end Steady

/-- At every moment of a render there is a path from the scope at which it looks a name up. -/
theorem outcome_lookingUp {look : Handle → String → Run Value} (follows : FollowsPaths look)
    (setting : Setting) (depth : Nat) {a : Arena} (closed : a.Closed IsInstance)
    (anchored : a.Anchored) {root : Handle} (inside : a.contains root) (w : Writer) :
    (Evaluator.lookingUp setting look depth).outcome a root w =
      setting.renderWithin depth a root w := by
  have rel : ((Steady.lockstep IsInstance setting.strict a []).keeping Arena.Anchored).Related
      (.ofDepth setting depth) (.lookingUp setting look depth) :=
    Steady.related_lookingUp follows depth
  have standing : Steady.Standing IsInstance setting.strict a [] root a :=
    Steady.standing_root closed inside nofun
  have outcome := rel.render (a.get root).template.chunks ⟨⟨⟨rfl, rfl⟩, standing⟩, anchored⟩
    [] [] w trivial
  have same := Steady.eq_of_outcome outcome.of_keeping
  unfold Evaluator.outcome Setting.renderWithin
  generalize (Evaluator.ofDepth setting depth).render root _ _ = ran at same ⊢
  subst same
  cases (Evaluator.lookingUp setting look depth).render root _ _ <;> rfl

namespace Reachable

open Arena

variable {host : List Handle} {a : Arena}

theorem anchored (reachable : Reachable host a) : a.Anchored := by
  induction reachable with
  | empty => exact .empty
  | instantiate t _ ih => exact ih.instantiate t
  | embed t _ _ ih => exact ih.embed _ t
  | setAttribute name _ _ _ ih => exact ih.setAttribute _ name _
  | addAttribute name _ _ _ ih => exact ih.addAttribute _ name _
  | setEnclosing before made _ ih => exact ih.setEnclosing (before.invariant.2 _ made).kind _
  | render setting depth w _ _ ih => exact lasting_anchored.render ih setting depth _ w

/-- In an arena that hosts and renders make, every activation has one path to an instance, and a
name is looked up along it: what the first activation binds that binds it, whatever stands in the
rest of the arena; or else null, and one error with the name of the instance unless a template on
the path declares the name. The bound on the number of scopes never comes into it. A render of the
arena gets by with any way to look names up that goes by the paths. -/
theorem attributes_along_paths (reachable : Reachable host a) :
    (∀ scope, a.contains scope → ∃ path owner, a.PathFrom scope path owner) ∧
    (∀ (b : Arena) {scope owner : Handle} {path : List Handle}, b.PathFrom scope path owner →
      (∀ {path' owner'}, b.PathFrom scope path' owner' → path' = path ∧ owner' = owner) ∧
      path.length ≤ b.size ∧
      ∀ name n, path.length ≤ n → b.resolveFrom name n scope false = b.resolve scope name) ∧
    FollowsPaths Run.resolveAttribute ∧
    (∀ (b : Arena) {scope h owner : Handle} {before after : List Handle} {name : String}
        {v : Value}, b.PathFrom scope (before ++ h :: after) owner →
      (∀ x ∈ before, (b.get x).Lacks name) → (b.get h).Binds name v →
      ∀ s : RenderState, (∀ x ∈ before ++ [h], s.arena.get x = b.get x) →
        Run.resolveAttribute scope name s = .ok v s) ∧
    ∀ look, FollowsPaths look → ∀ (setting : Setting) (depth : Nat), ∀ root ∈ host, ∀ w,
      (Evaluator.lookingUp setting look depth).outcome a root w =
        setting.renderWithin depth a root w := by
  obtain ⟨closed, known⟩ := reachable.invariant
  have anchored := reachable.anchored
  refine ⟨?paths, ?steps, Run.followsPaths_resolveAttribute, ?rest, ?renders⟩
  case paths => exact fun scope inside => anchored.exists_path closed inside
  case steps =>
    intro b scope owner path way
    have enough : path.length ≤ b.size + 1 := Nat.le_succ_of_le way.length_le_size
    exact ⟨way.unique, way.length_le_size,
      fun name n atLeast => way.resolveFrom_enough name atLeast enough false⟩
  case rest =>
    intro b scope h owner before after name v way lacks binds s same
    exact Run.resolveAttribute_bound way lacks binds same
  case renders =>
    exact fun look follows setting depth root made w =>
      outcome_lookingUp follows setting depth closed anchored (known root made).inside w

end Reachable

namespace Paths

/-- A page that has a name, and makes an item of the item that it makes of its name. -/
def page : Template :=
  let item (e : Expr) : Expr := .call (.name "item") (.named [("of", e)])
  ⟨"page", [], [.expression (item (item (.attribute "name"))) .none none], false, none⟩

def setting : Setting :=
  { Setting.standard with
    registry := ⟨fun _ => some ⟨"item", ["of"], [], false, none⟩, fun _ _ => none⟩ }

def arena : Arena := (Arena.empty.instantiate page).2.setAttribute ⟨0⟩ "name" (.text "x")

theorem reachable_arena : Reachable [⟨0⟩] arena := by
  refine .setAttribute "name" (.instantiate page .empty) (List.mem_singleton.2 rfl) ?_
  exact fun _ holds => absurd holds (Value.not_holds_text _)

/-- The scope of the inner call, on top of that of the outer one. -/
theorem name_of_page_found :
    let a := (setting.renderWithin 6 arena ⟨0⟩ (.fresh .noIndent)).arena
    Reachable [⟨0⟩] a ∧ a.PathFrom ⟨4⟩ [⟨4⟩, ⟨2⟩, ⟨0⟩] ⟨0⟩ ∧ ∀ ds w,
      Run.resolveAttribute ⟨4⟩ "name" ⟨a, ds, w⟩ = .ok (.text "x") ⟨a, ds, w⟩ ∧
      Run.resolveAttribute ⟨4⟩ "none" ⟨a, ds, w⟩ =
        .ok .null ⟨a, ds ++ [.missingAttribute "page" "none"], w⟩ := by
  intro a
  have reachable : Reachable [⟨0⟩] a :=
    .render setting 6 (.fresh .noIndent) reachable_arena (List.mem_singleton.2 rfl)
  have way : a.PathFrom ⟨4⟩ [⟨4⟩, ⟨2⟩, ⟨0⟩] ⟨0⟩ := by
    refine .scope (by decide) rfl rfl (by decide) ?_
    refine .scope (by decide) rfl rfl (by decide) ?_
    exact .owner (by decide) rfl
  obtain ⟨-, -, follows, -⟩ := reachable.attributes_along_paths
  have split : a.PathFrom ⟨4⟩ ([⟨4⟩, ⟨2⟩] ++ ⟨0⟩ :: []) ⟨0⟩ := way
  refine ⟨reachable, way, fun ds w => ⟨?_, ?_⟩⟩
  · refine follows.bound (s := ⟨a, ds, w⟩) split ?_ (Or.inr ⟨rfl, rfl⟩)
    simp only [List.forall_mem_cons, List.not_mem_nil]
    exact ⟨⟨rfl, rfl⟩, ⟨rfl, rfl⟩, fun _ => False.elim⟩
  · refine follows.missing (s := ⟨a, ds, w⟩) way ?_ ?_
    · simp only [List.forall_mem_cons, List.not_mem_nil]
      exact ⟨⟨rfl, rfl⟩, ⟨rfl, rfl⟩, ⟨rfl, rfl⟩, fun _ => False.elim⟩
    · simp only [List.forall_mem_cons, List.not_mem_nil]
      exact ⟨rfl, rfl, rfl, fun _ => False.elim⟩

end Paths

end Stencil
