import Mathlib.Data.Set.Basic
import Stencil.Proofs.Links
import Stencil.Proofs.Lockstep.Step
/-!
# No dynamic scoping

What an instance is rendered to does not depend on the attributes and arguments of the templates
around it. Two arenas that differ in nothing but the tables of some activations give the same render
for every other instance, as long as no value there leads into those activations: the scopes of
arguments, which do continue in their callers, are all made by the render itself and lead to
instances that it is rendering.
-/
namespace Stencil

/-- The arenas have the same templates, kinds and links, and the same tables outside `S`. -/
structure Arena.AgreeOutside (S : Set Handle) (a b : Arena) : Prop where
  size : a.size = b.size
  template (h : Handle) : (a.get h).template = (b.get h).template
  kind (h : Handle) : (a.get h).kind = (b.get h).kind
  enclosing (h : Handle) : (a.get h).enclosing? = (b.get h).enclosing?
  attributes (h : Handle) : h ∉ S → (a.get h).attributes = (b.get h).attributes
  arguments (h : Handle) : h ∉ S → (a.get h).arguments = (b.get h).arguments

/-- The values stored outside `S` hold handles of instances only, none of which is in `S`. -/
def Arena.NoHandleInto (S : Set Handle) (a : Arena) : Prop :=
  ∀ h, h ∉ S → ∀ v, (a.get h).Stores v → ∀ x, v.Holds x → x ∉ S ∧ (a.get x).kind = .template

namespace Scoping

variable (S : Set Handle) (a₀ : Arena)

/-- What a render can get at that begins with the arena `a₀` outside `S`: the instances outside `S`
and everything that it adds. -/
def InSight (h : Handle) : Prop := a₀.size ≤ h.index ∨ h ∉ S ∧ (a₀.get h).kind = .template

/-- The arenas of two renders that began with arenas which agree outside `S` with `a₀`. -/
structure Alike (a b : Arena) : Prop where
  size : a.size = b.size
  grown : a₀.size ≤ a.size
  template (h : Handle) : (a.get h).template = (b.get h).template
  kind (h : Handle) : (a.get h).kind = (b.get h).kind
  enclosing (h : Handle) : (a.get h).enclosing? = (b.get h).enclosing?
  inSight (h : Handle) : InSight S a₀ h → a.get h = b.get h
  kinds (h : Handle) : h.index < a₀.size → (a.get h).kind = (a₀.get h).kind
  scopes (h : Handle) : a₀.size ≤ h.index → (a.get h).kind = .arguments →
    ∀ e, a.Link h e → InSight S a₀ e
  stored (h : Handle) : InSight S a₀ h → ∀ v, (a.get h).Stores v → ∀ x, v.Holds x → InSight S a₀ x

variable {S : Set Handle} {a₀ a b : Arena}

/-! ## Changes -/

namespace Alike

theorem push (alike : Alike S a₀ a b) (act : Activation)
    (scopes : act.kind = .arguments → ∀ e, act.enclosing? = some e → InSight S a₀ e)
    (stored : ∀ v, act.Stores v → ∀ x, v.Holds x → InSight S a₀ x) :
    Alike S a₀ (a.push act).2 (b.push act).2 := by
  have sameNew : (b.push act).1 = (a.push act).1 := by simp [Arena.push, alike.size]
  have getA := Arena.get_push a act
  have getB (x : Handle) := Arena.get_push b act x
  simp only [sameNew] at getB
  have old {h : Handle} (lt : h.index < a₀.size) : h ≠ (a.push act).1 := by
    rintro rfl
    have := alike.grown
    simp at lt
    omega
  constructor
  case size => simp [alike.size]
  case grown =>
    have := alike.grown
    simp
    omega
  case kinds => exact fun h lt => by rw [getA, if_neg (old lt)]; exact alike.kinds h lt
  case scopes =>
    intro h new kind e link
    rw [Arena.Link, getA] at link
    rw [getA] at kind
    split at link
    · rename_i same
      rw [if_pos same] at kind
      exact scopes kind e link
    · rename_i other
      rw [if_neg other] at kind
      exact alike.scopes h new kind e link
  case stored =>
    intro h sight v stores
    rw [getA] at stores
    split at stores
    · exact stored v stores
    · exact alike.stored h sight v stores
  case inSight =>
    intro h sight
    rw [getA, getB]
    split
    · rfl
    · exact alike.inSight h sight
  all_goals
    intro h
    rw [getA, getB]
    split
    · rfl
  · exact alike.template h
  · exact alike.kind h
  · exact alike.enclosing h

theorem modify (alike : Alike S a₀ a b) (h : Handle) {f : Activation → Activation}
    (template : ∀ act, (f act).template = act.template) (kind : ∀ act, (f act).kind = act.kind)
    (enclosing : ∀ act act', act.enclosing? = act'.enclosing? →
      (f act).enclosing? = (f act').enclosing?)
    (scopes : ∀ act e, (f act).enclosing? = some e → act.enclosing? = some e ∨ InSight S a₀ e)
    (stored : ∀ act v, (f act).Stores v → act.Stores v ∨ ∀ x, v.Holds x → InSight S a₀ x) :
    Alike S a₀ (a.modify h f) (b.modify h f) := by
  have getA := Arena.get_modify_eq a h f
  have getB := Arena.get_modify_eq b h f
  have inside (x : Handle) : b.contains x ↔ a.contains x := by
    rw [Arena.contains, Arena.contains, alike.size]
  simp only [inside] at getB
  have kinds (x : Handle) : ((a.modify h f).get x).kind = (a.get x).kind := by
    rw [getA]
    split
    · exact kind _
    · rfl
  constructor
  case size => simp [alike.size]
  case grown => simpa using alike.grown
  case kinds => exact fun x lt => (kinds x).trans (alike.kinds x lt)
  case scopes =>
    intro x new isArguments e link
    rw [kinds] at isArguments
    rw [Arena.Link, getA] at link
    split at link
    · rcases scopes _ e link with before | sight
      · exact alike.scopes x new isArguments e before
      · exact sight
    · exact alike.scopes x new isArguments e link
  case stored =>
    intro x sight v stores
    rw [getA] at stores
    split at stores
    · rcases stored _ v stores with before | held
      · exact alike.stored x sight v before
      · exact held
    · exact alike.stored x sight v stores
  all_goals
    intro x
    rw [getA, getB]
    split
  · rw [template, template, alike.template x]
  · exact alike.template x
  · rw [kind, kind, alike.kind x]
  · exact alike.kind x
  · exact enclosing _ _ (alike.enclosing x)
  · exact alike.enclosing x
  · exact fun sight => congrArg f (alike.inSight x sight)
  · exact alike.inSight x

theorem setEnclosing (alike : Alike S a₀ a b) (h : Handle) {c : Handle}
    (sight : InSight S a₀ c) :
    Alike S a₀ (a.setEnclosing h (some c)) (b.setEnclosing h (some c)) := by
  refine alike.modify h (fun _ => rfl) (fun _ => rfl) (fun _ _ _ => rfl) ?_ ?_
  · intro act e link
    exact Or.inr (Option.some.inj link ▸ sight)
  · exact fun act v stores => Or.inl stores

theorem setArgument (alike : Alike S a₀ a b) (h : Handle) (name : String) {v : Value}
    (held : ∀ x, v.Holds x → InSight S a₀ x) :
    Alike S a₀ (a.setArgument h name v) (b.setArgument h name v) := by
  refine alike.modify h (fun _ => rfl) (fun _ => rfl) (fun _ _ same => same) ?_ ?_
  · exact fun act e link => Or.inl link
  · intro act w stores
    rcases Activation.stores_of_insert_argument stores with rfl | stores
    · exact Or.inr held
    · exact Or.inl stores

theorem sameLinks (alike : Alike S a₀ a b) : a.SameLinks b where
  size := alike.size
  enclosing := alike.enclosing
  kind := alike.kind
  name h := congrArg Template.name (alike.template h)
  group h := congrArg Template.group (alike.template h)

/-! ## Names -/

/-- From a scope in sight a name is never looked up in a table that the arenas may differ in. -/
theorem resolveFrom_paired (alike : Alike S a₀ a b) (name : String) (n : Nat) {c : Handle}
    (sight : InSight S a₀ c) (declared : Bool) :
    Resolution.Paired (fun h h' => h = h' ∧ InSight S a₀ h) a b
      (a.resolveFrom name n c declared) (b.resolveFrom name n c declared) := by
  have names := alike.sameLinks.name
  induction n generalizing c declared with
  | zero => exact .missing (names c)
  | succ n ih =>
    simp only [Arena.resolveFrom, ← alike.inSight c sight]
    split
    · rename_i v found
      exact .found (.same fun x holds =>
        ⟨rfl, alike.stored c sight v (Activation.stores_of_lookup found) x holds⟩)
    · split
      · rename_i caller isArguments link
        -- An older activation in sight is an instance, so this scope has been added by the render.
        have new : a₀.size ≤ c.index := by
          by_contra older
          rcases sight with new | ⟨-, isTemplate⟩
          · exact older new
          · rw [alike.kinds c (by omega), isTemplate] at isArguments
            cases isArguments
        exact ih (alike.scopes c new isArguments caller link) _
      · exact .missing (names c)

end Alike

/-! ## The two renders -/

/-- Renders of arenas that agree outside `S`, at scopes in sight. -/
def lockstep (S : Set Handle) (a₀ : Arena) : Lockstep where
  Twin _ _ h h' := h = h' ∧ InSight S a₀ h
  Made _ _ h h' := h = h' ∧ InSight S a₀ h
  Coupled c c' a b := (c = c' ∧ InSight S a₀ c) ∧ Alike S a₀ a b
  Evolves _ _ _ _ a₁ b₁ := Alike S a₀ a₁ b₁
  Left _ _ := True

instance : (lockstep S a₀).Exact := ⟨id, fun _ => trivial⟩

theorem fixed_of_same {v v' : Value} (same : (lockstep S a₀).Same a b v v') :
    v = v' ∧ ∀ x, v.Holds x → InSight S a₀ x :=
  Value.Paired.fixed same

theorem inSight_push (alike : Alike S a₀ a b) (act : Activation) :
    InSight S a₀ (a.push act).1 := Or.inl alike.grown

theorem push_eq (alike : Alike S a₀ a b) (act : Activation) :
    (a.push act).1 = (b.push act).1 := by
  simp [Arena.push, alike.size]

theorem lawful (S : Set Handle) (a₀ : Arena) : (lockstep S a₀).Lawful where
  refl coupled := coupled.2
  trans _ second := second
  coupled coupled evolves := ⟨coupled.1, evolves⟩
  left _ := trivial
  twin _ twin := twin
  made _ made := made
  twin_of_made made := made
  resolve name coupled := by
    obtain ⟨⟨rfl, sight⟩, alike⟩ := coupled
    rw [Arena.resolve, Arena.resolve, alike.size]
    exact alike.resolveFrom_paired name _ sight _
  group coupled := by
    obtain ⟨⟨rfl, -⟩, alike⟩ := coupled
    exact alike.sameLinks.groupOf_eq _
  template coupled made := by
    obtain ⟨rfl, -⟩ := made
    exact coupled.2.template _
  similar coupled twin := by
    obtain ⟨rfl, -⟩ := twin
    exact Template.similar_of_eq (coupled.2.template _)
  property {_ _ a b h _} name coupled twin := by
    obtain ⟨rfl, sight⟩ := twin
    rw [← coupled.2.inSight h sight]
    cases found : (a.get h).property name with
    | none => exact .none
    | some v =>
      exact .some (.same fun x holds =>
        ⟨rfl, coupled.2.stored h sight v (Activation.stores_of_property found) x holds⟩)
  embed t coupled := by
    obtain ⟨⟨rfl, -⟩, alike⟩ := coupled
    refine ⟨alike.push _ ?_ ?_, push_eq alike _, inSight_push alike _⟩
    · intro isArguments
      cases isArguments
    · exact fun v stores => absurd stores (Activation.not_stores_of_empty rfl rfl)
  argument name coupled made same := by
    obtain ⟨rfl, -⟩ := made
    obtain ⟨rfl, held⟩ := fixed_of_same same
    exact coupled.2.setArgument _ name held
  arguments {c _ a b h _} coupled made := by
    obtain ⟨⟨rfl, sight⟩, alike⟩ := coupled
    obtain ⟨rfl, made⟩ := made
    have bound : b.argumentScope c (b.get h).arguments =
        b.push ⟨(a.get c).template, .empty, (a.get h).arguments, some c, .arguments⟩ := by
      rw [Arena.argumentScope, ← alike.inSight h made, alike.template c]
    dsimp only
    rw [bound]
    refine ⟨⟨⟨push_eq alike _, inSight_push alike _⟩, alike.push _ ?_ ?_⟩, ⟨rfl, made⟩,
      fun _ _ evolves => evolves⟩
    · exact fun _ e link => Option.some.inj link ▸ sight
    · rintro v ⟨name, set | given⟩ x holds
      · cases set
      · exact alike.stored h made v ⟨name, Or.inr given⟩ x holds

theorem enclosing (S : Set Handle) (a₀ : Arena) (setting : Setting) :
    (lockstep S a₀).Enclosing setting := by
  rintro c _ h _ a b ⟨⟨rfl, sight⟩, alike⟩ ⟨rfl, inner⟩
  have linked := alike.setEnclosing h sight
  constructor
  case opened => exact trivial
  case refused => exact fun _ => linked.sameLinks.isSelfEnclosed_eq h
  case traces => exact fun _ _ => ⟨linked.sameLinks.trace_eq h, trivial⟩
  case entered =>
    exact fun _ => ⟨⟨⟨rfl, inner⟩, linked⟩, congrArg Template.chunks (linked.template h),
      fun _ _ evolves => evolves⟩

theorem alike_of_agreeOutside (agree : Arena.AgreeOutside S a b) (shut : a.NoHandleInto S) :
    Alike S a a b := by
  have beyond {h : Handle} (past : a.size ≤ h.index) : a.get h = default :=
    Arena.get_eq_default (Nat.not_lt.2 past)
  constructor
  case size => exact agree.size
  case grown => exact Nat.le_refl _
  case template => exact agree.template
  case kind => exact agree.kind
  case enclosing => exact agree.enclosing
  case kinds => exact fun _ _ => rfl
  case inSight =>
    rintro h (past | ⟨outside, -⟩)
    · rw [beyond past, Arena.get_eq_default (Nat.not_lt.2 (agree.size ▸ past))]
    · calc a.get h
          = ⟨(a.get h).template, (a.get h).attributes, (a.get h).arguments,
              (a.get h).enclosing?, (a.get h).kind⟩ := rfl
        _ = ⟨(b.get h).template, (b.get h).attributes, (b.get h).arguments,
              (b.get h).enclosing?, (b.get h).kind⟩ := by
            rw [agree.template, agree.attributes h outside, agree.arguments h outside,
              agree.enclosing, agree.kind]
        _ = b.get h := rfl
  case scopes =>
    intro h past _ e link
    rw [Arena.Link, beyond past] at link
    cases link
  case stored =>
    rintro h (past | ⟨outside, -⟩) v stores x holds
    · rw [beyond past] at stores
      exact absurd stores (Activation.not_stores_of_empty rfl rfl)
    · exact Or.inr (shut h outside v stores x holds)

end Scoping

/-- Nothing is scoped dynamically: a render of an instance outside `S` does not depend on the tables
of the activations in `S`, although its enclosing chain may run through them. It comes to the same
result, diagnostics and count included, and leaves a writer with the same text. -/
theorem render_eq_of_agreeOutside (setting : Setting) {S : Set Handle} {a b : Arena}
    (agree : Arena.AgreeOutside S a b) (shut : a.NoHandleInto S) {root : Handle}
    (outside : root ∉ S) (isTemplate : (a.get root).kind = .template) (depth : Nat) (w : Writer) :
    (setting.renderWithin depth a root w).result = (setting.renderWithin depth b root w).result ∧
    (setting.renderWithin depth a root w).writer =
      (setting.renderWithin depth b root w).writer := by
  have rel := Lockstep.related_ofDepth setting (Scoping.lawful S a)
    (Scoping.enclosing S a setting) depth
  have coupled : (Scoping.lockstep S a).Coupled root root a b :=
    ⟨⟨rfl, Or.inr ⟨outside, isTemplate⟩⟩, Scoping.alike_of_agreeOutside agree shut⟩
  obtain ⟨result, writer, -⟩ := Lockstep.render_outcome setting rel coupled (agree.template root) w
  exact ⟨result, writer⟩

/-- An instance that writes `x` inside one that has `x`. -/
def Scoping.nested (s : String) : Arena :=
  ⟨#[{ Activation.ofTemplate (.plain "outer" []) with attributes := [("x", .text s)] },
    { Activation.ofTemplate (.plain "inner" [.expression (.attribute "x") .none none]) with
      enclosing? := some ⟨0⟩ }]⟩

theorem render_nested_eq :
    Arena.AgreeOutside {⟨0⟩} (Scoping.nested "a") (Scoping.nested "b") ∧
    (Scoping.nested "a").NoHandleInto {⟨0⟩} ∧
    (Setting.standard.renderWithin 3 (Scoping.nested "a") ⟨1⟩ (.fresh .autoIndent)).result =
      (Setting.standard.renderWithin 3 (Scoping.nested "b") ⟨1⟩ (.fresh .autoIndent)).result := by
  have agree : Arena.AgreeOutside {⟨0⟩} (Scoping.nested "a") (Scoping.nested "b") := by
    constructor
    case size => rfl
    all_goals
      rintro ⟨_ | _ | n⟩
      all_goals simp [Scoping.nested, Arena.get]
  have shut : (Scoping.nested "a").NoHandleInto {⟨0⟩} := by
    intro h outside v stores
    have empty : ((Scoping.nested "a").get h).attributes = .empty ∧
        ((Scoping.nested "a").get h).arguments = .empty := by
      rcases h with ⟨_ | _ | n⟩
      · exact absurd rfl outside
      · exact ⟨rfl, rfl⟩
      · rw [Arena.get_eq_default (by simp [Arena.contains, Arena.size, Scoping.nested])]
        exact ⟨rfl, rfl⟩
    exact absurd stores (Activation.not_stores_of_empty empty.1 empty.2)
  exact ⟨agree, shut, (render_eq_of_agreeOutside .standard agree shut (by simp) rfl 3 _).1⟩

end Stencil
