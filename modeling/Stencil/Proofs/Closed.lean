import Stencil.Proofs.Handles
import Stencil.Proofs.Links
/-!
# Closed arenas

An arena is closed when its links and the values stored in it lead to its own activations. Each
single change that a host or a render makes keeps it closed. `kinds` tells of which kinds the
activations are whose handles are stored: in an arena that hosts and renders have built they are all
instances, and then the scopes of arguments keep the callers that they were made with.
-/
namespace Stencil

/-- The kind of the activations that values hold in an arena that hosts and renders have built. -/
def IsInstance (kind : ScopeKind) : Prop := kind = .template

namespace Arena

variable {kinds : ScopeKind → Prop} {a b c : Arena} {h e x : Handle} {v : Value}

/-- The handle is that of an activation of one of the kinds. -/
structure Knows (kinds : ScopeKind → Prop) (a : Arena) (x : Handle) : Prop where
  inside : a.contains x
  kind : kinds (a.get x).kind

structure Closed (kinds : ScopeKind → Prop) (a : Arena) : Prop where
  links : a.LinksInside
  stored {h : Handle} {v : Value} {x : Handle} :
    (a.get h).Stores v → v.Holds x → a.Knows kinds x
  /-- Where no value can hold a scope of arguments, its caller is older than it. -/
  older : ¬ kinds .arguments →
    ∀ h e, (a.get h).kind = .arguments → a.Link h e → e.index < h.index

/-- All links and all handles in stored values are those of activations of the arena. -/
abbrev InRange (a : Arena) : Prop := a.Closed fun _ => True

/-! ## Growth -/

/-- The activations of `a` are still there, with their templates and kinds. -/
structure Grows (a b : Arena) : Prop where
  size : a.size ≤ b.size
  template {x : Handle} : a.contains x → (b.get x).template = (a.get x).template
  kind {x : Handle} : a.contains x → (b.get x).kind = (a.get x).kind

/-- The activations of `a` are still there and may have changed in nothing but their links. -/
structure Keeps (a b : Arena) : Prop extends Grows a b where
  attributes {x : Handle} : a.contains x → (b.get x).attributes = (a.get x).attributes
  arguments {x : Handle} : a.contains x → (b.get x).arguments = (a.get x).arguments

theorem Grows.contains (grows : Grows a b) (inside : a.contains x) : b.contains x :=
  contains_of_size_le grows.size inside

theorem Grows.refl (a : Arena) : Grows a a := ⟨Nat.le_refl _, fun _ => rfl, fun _ => rfl⟩

theorem Grows.trans (first : Grows a b) (second : Grows b c) : Grows a c where
  size := Nat.le_trans first.size second.size
  template inside := (second.template (first.contains inside)).trans (first.template inside)
  kind inside := (second.kind (first.contains inside)).trans (first.kind inside)

theorem Keeps.refl (a : Arena) : Keeps a a := ⟨.refl a, fun _ => rfl, fun _ => rfl⟩

theorem Keeps.trans (first : Keeps a b) (second : Keeps b c) : Keeps a c where
  toGrows := first.toGrows.trans second.toGrows
  attributes inside := (second.attributes (first.contains inside)).trans (first.attributes inside)
  arguments inside := (second.arguments (first.contains inside)).trans (first.arguments inside)

theorem Knows.grow (grows : Grows a b) (knows : a.Knows kinds x) : b.Knows kinds x where
  inside := grows.contains knows.inside
  kind := by
    rw [grows.kind knows.inside]
    exact knows.kind

theorem keeps_push (a : Arena) (act : Activation) : Keeps a (a.push act).2 where
  size := by simp
  template inside := by rw [get_push_of_contains inside]
  kind inside := by rw [get_push_of_contains inside]
  attributes inside := by rw [get_push_of_contains inside]
  arguments inside := by rw [get_push_of_contains inside]

theorem knows_push (a : Arena) (act : Activation) (kind : kinds act.kind) :
    (a.push act).2.Knows kinds (a.push act).1 where
  inside := by simp [contains]
  kind := by rwa [get_push_self]

theorem grows_modify (a : Arena) (h : Handle) {f : Activation → Activation}
    (template : ∀ act, (f act).template = act.template) (kind : ∀ act, (f act).kind = act.kind) :
    Grows a (a.modify h f) where
  size := by simp
  template _ := by
    rw [get_modify_eq]
    split
    · exact template _
    · rfl
  kind _ := by
    rw [get_modify_eq]
    split
    · exact kind _
    · rfl

theorem keeps_setEnclosing (a : Arena) (h : Handle) (e? : Option Handle) :
    Keeps a (a.setEnclosing h e?) where
  toGrows := grows_modify a h (fun _ => rfl) (fun _ => rfl)
  attributes _ := by
    rw [get_setEnclosing]
    split <;> rfl
  arguments _ := by
    rw [get_setEnclosing]
    split <;> rfl

theorem grows_setArgument (a : Arena) (h : Handle) (name : String) (v : Value) :
    Grows a (a.setArgument h name v) :=
  grows_modify a h (fun _ => rfl) (fun _ => rfl)

theorem grows_setAttribute (a : Arena) (h : Handle) (name : String) (v : Value) :
    Grows a (a.setAttribute h name v) :=
  grows_modify a h (fun _ => rfl) (fun _ => rfl)

theorem grows_addAttribute (a : Arena) (h : Handle) (name : String) (v : Value) :
    Grows a (a.addAttribute h name v) := by
  unfold addAttribute
  split
  · exact .refl a
  · exact grows_setAttribute a h name _

/-- A change of an activation that `a` does not have keeps what `a` has. -/
theorem Keeps.setArgument (keeps : Keeps a b) (new : ¬ a.contains h) (name : String) (v : Value) :
    Keeps a (b.setArgument h name v) := by
  have same {x : Handle} (inside : a.contains x) : (b.setArgument h name v).get x = b.get x := by
    rw [get_setArgument, if_neg]
    rintro ⟨rfl, -⟩
    exact new inside
  constructor
  case toGrows => exact keeps.toGrows.trans (grows_setArgument b h name v)
  all_goals
    intro x inside
    rw [same inside]
  · exact keeps.attributes inside
  · exact keeps.arguments inside

/-! ## Changes -/

theorem closed_empty : Closed kinds empty := by
  have nothing (h : Handle) : empty.get h = default := by simp [get, empty]
  constructor
  case links =>
    intro h e link
    rw [Link, nothing] at link
    cases link
  case stored =>
    intro h v x stores
    rw [nothing] at stores
    exact absurd stores (Activation.not_stores_of_empty rfl rfl)
  case older =>
    intro _ h e isArguments
    rw [nothing] at isArguments
    cases isArguments

theorem Closed.push (closed : a.Closed kinds) (act : Activation)
    (link : ∀ e, act.enclosing? = some e → a.contains e)
    (stored : ∀ v, act.Stores v → ∀ x, v.Holds x → a.Knows kinds x) :
    (a.push act).2.Closed kinds := by
  have grows := (keeps_push a act).toGrows
  constructor
  case links =>
    intro h e step
    rw [Link, get_push] at step
    split at step
    · exact grows.contains (link e step)
    · exact grows.contains (closed.links h e step)
  case stored =>
    intro h v x stores holds
    rw [get_push] at stores
    split at stores
    · exact (stored v stores x holds).grow grows
    · exact (closed.stored stores holds).grow grows
  case older =>
    intro apart h e isArguments step
    rw [Link, get_push] at step
    rw [get_push] at isArguments
    split at step
    · rename_i new
      rw [new]
      exact link e step
    · rename_i old
      rw [if_neg old] at isArguments
      exact closed.older apart h e isArguments step

theorem Closed.modify (closed : a.Closed kinds) (h : Handle) {f : Activation → Activation}
    (template : ∀ act, (f act).template = act.template) (kind : ∀ act, (f act).kind = act.kind)
    (link : ∀ act e, (f act).enclosing? = some e →
      act.enclosing? = some e ∨ a.contains e ∧ kinds (a.get h).kind)
    (stored : ∀ act v, (f act).Stores v →
      act.Stores v ∨ ∀ x, v.Holds x → a.Knows kinds x) :
    (a.modify h f).Closed kinds := by
  have grows := grows_modify a h template kind
  have kinds_eq (x : Handle) : ((a.modify h f).get x).kind = (a.get x).kind := by
    rw [get_modify_eq]
    split
    · exact kind _
    · rfl
  have links (x e : Handle) (step : (a.modify h f).Link x e) :
      a.Link x e ∨ a.contains e ∧ kinds (a.get x).kind := by
    rw [Link, get_modify_eq] at step
    split at step
    · rename_i hit
      obtain ⟨rfl, -⟩ := hit
      exact link _ e step
    · exact Or.inl step
  constructor
  case links =>
    intro x e step
    rcases links x e step with before | ⟨inside, -⟩
    · exact grows.contains (closed.links x e before)
    · exact grows.contains inside
  case stored =>
    intro x v y stores holds
    rw [get_modify_eq] at stores
    split at stores
    · rcases stored _ v stores with before | known
      · exact (closed.stored before holds).grow grows
      · exact (known y holds).grow grows
    · exact (closed.stored stores holds).grow grows
  case older =>
    intro apart x e isArguments step
    rw [kinds_eq] at isArguments
    rcases links x e step with before | ⟨-, admitted⟩
    · exact closed.older apart x e isArguments before
    · exact absurd (isArguments ▸ admitted) apart

theorem Closed.setEnclosing (closed : a.Closed kinds) (admitted : kinds (a.get h).kind)
    {e? : Option Handle} (inside : ∀ e, e? = some e → a.contains e) :
    (a.setEnclosing h e?).Closed kinds := by
  refine closed.modify h (fun _ => rfl) (fun _ => rfl) ?_ ?_
  · exact fun _ e link => Or.inr ⟨inside e link, admitted⟩
  · exact fun _ _ stores => Or.inl stores

theorem Closed.setArgument (closed : a.Closed kinds) (h : Handle) (name : String)
    (known : ∀ x, v.Holds x → a.Knows kinds x) : (a.setArgument h name v).Closed kinds := by
  refine closed.modify h (fun _ => rfl) (fun _ => rfl) ?_ ?_
  · exact fun _ _ link => Or.inl link
  · intro _ w stores
    rcases Activation.stores_of_insert_argument stores with rfl | stores
    · exact Or.inr known
    · exact Or.inl stores

theorem Closed.setAttribute (closed : a.Closed kinds) (h : Handle) (name : String)
    (known : ∀ x, v.Holds x → a.Knows kinds x) : (a.setAttribute h name v).Closed kinds := by
  refine closed.modify h (fun _ => rfl) (fun _ => rfl) ?_ ?_
  · exact fun _ _ link => Or.inl link
  · intro _ w stores
    rcases Activation.stores_of_insert_attribute stores with rfl | stores
    · exact Or.inr known
    · exact Or.inl stores

theorem Closed.addAttribute (closed : a.Closed kinds) (h : Handle) (name : String)
    (known : ∀ x, v.Holds x → a.Knows kinds x) : (a.addAttribute h name v).Closed kinds := by
  unfold Arena.addAttribute
  split
  · exact closed
  · refine closed.setAttribute h name fun x holds => ?_
    rcases Value.holds_of_merged holds with holds | ⟨old, found, holds⟩
    · exact known x holds
    · exact closed.stored ⟨name, Or.inl found⟩ holds

theorem Closed.embed (closed : a.Closed kinds) (inside : a.contains e) (t : Template) :
    (a.embed e t).2.Closed kinds := by
  refine closed.push _ ?_ ?_
  · exact fun _ link => Option.some.inj link ▸ inside
  · exact fun _ stores => absurd stores (Activation.not_stores_of_empty rfl rfl)

theorem Closed.instantiate (closed : a.Closed kinds) (t : Template) :
    (a.instantiate t).2.Closed kinds := by
  refine closed.push _ ?_ ?_
  · intro e link
    cases link
  · exact fun _ stores => absurd stores (Activation.not_stores_of_empty rfl rfl)

/-- The scope of a call starts with arguments that an activation has already. -/
theorem Closed.argumentScope (closed : a.Closed kinds) (inside : a.contains e) (h : Handle) :
    (a.argumentScope e (a.get h).arguments).2.Closed kinds := by
  refine closed.push _ ?_ ?_
  · exact fun _ link => Option.some.inj link ▸ inside
  · rintro v ⟨name, set | given⟩ x holds
    · cases set
    · exact closed.stored ⟨name, Or.inr given⟩ holds

/-! ## Names -/

/-- What a name resolves to is stored in one of the scopes on the way. -/
theorem stores_of_resolveFrom {name : String} {n : Nat} {declared : Bool}
    (found : a.resolveFrom name n h declared = .found v) : ∃ x, (a.get x).Stores v := by
  induction n generalizing h declared with
  | zero => cases found
  | succ n ih =>
    simp only [resolveFrom] at found
    split at found
    · rename_i w looked
      cases found
      exact ⟨h, Activation.stores_of_lookup looked⟩
    · split at found
      · exact ih found
      · cases found

theorem Closed.knows_of_resolve (closed : a.Closed kinds) {name : String}
    (found : a.resolve h name = .found v) (holds : v.Holds x) : a.Knows kinds x := by
  obtain ⟨y, stores⟩ := stores_of_resolveFrom found
  exact closed.stored stores holds

end Arena
end Stencil
