import Stencil.Proofs.Closed
import Stencil.Proofs.Lockstep.Step
/-!
# What a render leaves as it is

A render in lockstep with itself. It keeps its arena closed, adds activations to it, and changes the
older ones in nothing but their links. A strict render that comes back to a scope has not changed
the links around it either, since an activation is only linked anew where it does not enclose the
scope already.
-/
namespace Stencil

def Setting.standardStrict : Setting := { Setting.standard with strict := true }

namespace Steady

open Arena

/-- The render is at the scope `c`, which the activations in progress enclose. -/
structure Standing (kinds : ScopeKind → Prop) (strict : Bool) (a₀ : Arena) (active : List Handle)
    (c : Handle) (a : Arena) : Prop where
  closed : a.Closed kinds
  keeps : Keeps a₀ a
  inside : a.contains c
  around : strict = true → ∀ h ∈ active, a.Reaches c h

/-- The render is back at the scope `c`, where the arena was `a` before. -/
structure Moved (kinds : ScopeKind → Prop) (strict : Bool) (a₀ : Arena) (c : Handle)
    (a a₁ : Arena) : Prop where
  closed : a₁.Closed kinds
  keeps : Keeps a₀ a₁
  grows : Grows a a₁
  frame : strict = true → Frame c a a₁

/-- A render that began with the arena `a₀`, while the activations in `active` are in progress. -/
def lockstep (kinds : ScopeKind → Prop) (strict : Bool) (a₀ : Arena) (active : List Handle) :
    Lockstep where
  Twin a _ h h' := h = h' ∧ a.Knows kinds h
  Made a _ h h' := (h = h' ∧ a.Knows kinds h) ∧ ¬ a₀.contains h
  Coupled c c' a b := (c = c' ∧ a = b) ∧ Standing kinds strict a₀ active c a
  Evolves c _ a _ a₁ b₁ := a₁ = b₁ ∧ Moved kinds strict a₀ c a a₁
  Left a b := a = b ∧ a.Closed kinds ∧ Keeps a₀ a

instance (kinds : ScopeKind → Prop) (strict : Bool) (a₀ : Arena) (active : List Handle) :
    (lockstep kinds strict a₀ active).Exact := ⟨id, fun _ => trivial⟩

variable {kinds : ScopeKind → Prop} {strict : Bool} {a₀ : Arena} {active : List Handle}
  {a a₁ a₂ b : Arena} {c h : Handle} {v v' : Value}

theorem fixed_of_same (same : (lockstep kinds strict a₀ active).Same a b v v') :
    v = v' ∧ ∀ x, v.Holds x → a.Knows kinds x :=
  Value.Paired.fixed same

theorem Standing.move (standing : Standing kinds strict a₀ active c a)
    (moved : Moved kinds strict a₀ c a a₁) : Standing kinds strict a₀ active c a₁ where
  closed := moved.closed
  keeps := moved.keeps
  inside := moved.grows.contains standing.inside
  around isStrict h member :=
    (moved.frame isStrict).reaches_iff.2 (standing.around isStrict h member)

theorem Standing.refl (standing : Standing kinds strict a₀ active c a) :
    Moved kinds strict a₀ c a a where
  closed := standing.closed
  keeps := standing.keeps
  grows := .refl a
  frame _ := .refl c a

theorem Moved.trans (first : Moved kinds strict a₀ c a a₁)
    (second : Moved kinds strict a₀ c a₁ a₂) : Moved kinds strict a₀ c a a₂ where
  closed := second.closed
  keeps := second.keeps
  grows := first.grows.trans second.grows
  frame isStrict := (first.frame isStrict).trans (second.frame isStrict)

/-- The scope of a call's arguments is enclosed by whatever encloses the caller. -/
theorem Standing.argumentScope (standing : Standing kinds strict a₀ active c a) (h : Handle) :
    let s := a.argumentScope c (a.get h).arguments
    Standing kinds strict a₀ active s.1 s.2 ∧
      ∀ a₂, Moved kinds strict a₀ s.1 s.2 a₂ → Moved kinds strict a₀ c a a₂ := by
  intro s
  have closed : s.2.Closed kinds := standing.closed.argumentScope standing.inside h
  have keeps : Keeps a s.2 := keeps_push a _
  have frame : Frame c a s.2 := frame_push standing.closed.links standing.inside _
  have link : s.2.Link s.1 c := link_push a rfl
  refine ⟨⟨closed, standing.keeps.trans keeps, ?_, ?_⟩, ?_⟩
  · simp [s, Arena.argumentScope, contains]
  · intro isStrict x member
    exact (frame.reaches_inner_iff link).2 (Or.inr (standing.around isStrict x member))
  · exact fun a₂ inner => ⟨inner.closed, inner.keeps, keeps.toGrows.trans inner.grows,
      fun isStrict => frame.of_inner link (inner.frame isStrict)⟩

theorem lawful (instances : kinds .template) :
    (lockstep kinds strict a₀ active).Lawful where
  refl coupled := ⟨coupled.1.2, coupled.2.refl⟩
  trans first second := ⟨second.1, first.2.trans second.2⟩
  coupled coupled evolves := ⟨⟨coupled.1.1, evolves.1⟩, coupled.2.move evolves.2⟩
  left coupled := ⟨coupled.1.2, coupled.2.closed, coupled.2.keeps⟩
  twin evolves twin := ⟨twin.1, twin.2.grow evolves.2.grows⟩
  made evolves made := ⟨⟨made.1.1, made.1.2.grow evolves.2.grows⟩, made.2⟩
  twin_of_made made := made.1
  resolve {c _ a _} name coupled := by
    obtain ⟨⟨rfl, rfl⟩, standing⟩ := coupled
    cases found : a.resolve c name with
    | found v =>
      exact .found (.same fun x holds => ⟨rfl, standing.closed.knows_of_resolve found holds⟩)
    | missing declared owner => exact .missing rfl
  group coupled := by
    obtain ⟨⟨rfl, rfl⟩, -⟩ := coupled
    rfl
  template coupled made := by
    obtain ⟨⟨-, rfl⟩, -⟩ := coupled
    rw [made.1.1]
  similar coupled twin := by
    obtain ⟨⟨-, rfl⟩, -⟩ := coupled
    exact Template.similar_of_eq (by rw [twin.1])
  property {_ _ a _ h _} name coupled twin := by
    obtain ⟨⟨-, rfl⟩, standing⟩ := coupled
    obtain ⟨rfl, -⟩ := twin
    cases found : (a.get h).property name with
    | none => exact .none
    | some v =>
      exact .some (.same fun x holds =>
        ⟨rfl, standing.closed.stored (Activation.stores_of_property found) holds⟩)
  embed {c _ a _} t coupled := by
    obtain ⟨⟨rfl, rfl⟩, standing⟩ := coupled
    have keeps : Keeps a (a.embed c t).2 := keeps_push a _
    have closed := standing.closed.embed standing.inside t
    refine ⟨⟨rfl, closed, standing.keeps.trans keeps, keeps.toGrows, ?_⟩, ⟨rfl, ?_⟩, ?_⟩
    · exact fun _ => frame_push standing.closed.links standing.inside _
    · exact knows_push a _ instances
    · have := standing.keeps.size
      simp only [Arena.embed, contains, push_index]
      omega
  argument {c _ a _ h _ _ _} name coupled made same := by
    obtain ⟨⟨rfl, rfl⟩, standing⟩ := coupled
    obtain ⟨⟨rfl, -⟩, new⟩ := made
    obtain ⟨rfl, known⟩ := fixed_of_same same
    exact ⟨rfl, standing.closed.setArgument h name known, standing.keeps.setArgument new name _,
      grows_setArgument a h name _, fun _ => frame_setArgument c a h name _⟩
  arguments {c _ a _ h _} coupled made := by
    obtain ⟨⟨rfl, rfl⟩, standing⟩ := coupled
    obtain ⟨⟨rfl, knows⟩, new⟩ := made
    obtain ⟨inner, wider⟩ := standing.argumentScope h
    exact ⟨⟨⟨rfl, rfl⟩, inner⟩, ⟨⟨rfl, knows.grow (keeps_push a _).toGrows⟩, new⟩,
      fun a₂ _ evolves => ⟨evolves.1, wider a₂ evolves.2⟩⟩

theorem Standing.link (standing : Standing kinds strict a₀ active c a) (knows : a.Knows kinds h) :
    (a.setEnclosing h (some c)).Closed kinds ∧ Keeps a₀ (a.setEnclosing h (some c)) := by
  refine ⟨standing.closed.setEnclosing knows.kind ?_,
    standing.keeps.trans (keeps_setEnclosing a _ _)⟩
  exact fun _ same => Option.some.inj same ▸ standing.inside

/-- An instance that does not enclose itself is put inside the scope without a change around it. -/
theorem Standing.enter (standing : Standing kinds strict a₀ active c a) (knows : a.Knows kinds h)
    (apart : strict = true → ¬ a.Reaches c h) :
    Standing kinds strict a₀ (h :: active) h (a.setEnclosing h (some c)) ∧
      ∀ a₂, Moved kinds strict a₀ h (a.setEnclosing h (some c)) a₂ →
        Moved kinds strict a₀ c a a₂ := by
  have keeps := keeps_setEnclosing a h (some c)
  obtain ⟨closed, kept⟩ := standing.link knows
  have frame (isStrict : strict = true) : Frame c a (a.setEnclosing h (some c)) :=
    frame_setEnclosing (apart isStrict) _
  have link : (a.setEnclosing h (some c)).Link h c := link_setEnclosing knows.inside
  refine ⟨⟨closed, kept, keeps.contains knows.inside, ?_⟩, ?_⟩
  · intro isStrict x member
    rw [(frame isStrict).reaches_inner_iff link]
    rcases List.mem_cons.1 member with same | member
    · exact Or.inl same
    · exact Or.inr (standing.around isStrict x member)
  · exact fun a₂ inner => ⟨inner.closed, inner.keeps, keeps.toGrows.trans inner.grows,
      fun isStrict => (frame isStrict).of_inner link (inner.frame isStrict)⟩

/-- What stands with more activations in progress stands with fewer. -/
theorem Standing.fewer (standing : Standing kinds strict a₀ (h :: active) c a) :
    Standing kinds strict a₀ active c a where
  closed := standing.closed
  keeps := standing.keeps
  inside := standing.inside
  around isStrict x member := standing.around isStrict x (List.mem_cons_of_mem h member)

/-- A strict render stops at an instance exactly if it encloses the scope already. -/
theorem Standing.refused_iff (standing : Standing kinds strict a₀ active c a)
    (knows : a.Knows kinds h) :
    (a.setEnclosing h (some c)).isSelfEnclosed h = true ↔ a.Reaches c h :=
  isSelfEnclosed_setEnclosing_iff standing.closed.links standing.inside knows.inside

theorem enclosing (setting : Setting) :
    (lockstep kinds setting.strict a₀ active).Enclosing setting := by
  rintro c _ h _ a _ ⟨⟨rfl, rfl⟩, standing⟩ ⟨rfl, knows⟩
  constructor
  case opened => exact trivial
  case refused => exact fun _ => rfl
  case traces => exact fun _ _ => ⟨rfl, rfl, standing.link knows⟩
  case entered =>
    intro allowed
    have apart (isStrict : setting.strict = true) := by
      have := allowed isStrict
      rwa [← Bool.not_eq_true, standing.refused_iff knows] at this
    obtain ⟨inner, wider⟩ := standing.enter knows apart
    exact ⟨⟨⟨rfl, rfl⟩, inner.fewer⟩, rfl, fun a₂ _ evolves => ⟨evolves.1, wider a₂ evolves.2⟩⟩

/-- A render begins with nothing in progress but its root, if that. -/
theorem standing_root (closed : a.Closed kinds) (inside : a.contains c)
    (only : ∀ h ∈ active, h = c) : Standing kinds strict a active c a where
  closed := closed
  keeps := .refl a
  inside := inside
  around _ h member := only h member ▸ .refl

theorem moved_of_agrees {α : Type} {Q : Arena → Arena → α → α → Prop} {x : Run α} {r : α}
    {ds : List TemplateError} {w : Writer} {t : RenderState}
    (agrees : (lockstep kinds strict a₀ active).Agrees c c a a Q x x)
    (ended : x ⟨a, ds, w⟩ = .ok r t) : Moved kinds strict a₀ c a t.arena := by
  obtain ⟨_, _, _, _, _, ⟨-, moved⟩, -⟩ := agrees.ends trivial ended ds
  exact moved

section Ends

variable (setting : Setting) (instances : kinds .template) (closed : a.Closed kinds)
  (inside : a.contains c) {depth n : Nat} {ds : List TemplateError} {w : Writer} {t : RenderState}
include instances closed inside

/-- Expressions and chunks move the arena alike. -/
theorem eval_moves {e : Expr}
    (ended : (Evaluator.ofDepth setting depth).eval c e ⟨a, ds, w⟩ = .ok v t) :
    Moved kinds setting.strict a c a t.arena := by
  have laws : (lockstep kinds setting.strict a []).Lawful := lawful instances
  have rel := Lockstep.related_ofDepth setting laws (enclosing setting) depth
  exact moved_of_agrees (rel.eval e ⟨⟨rfl, rfl⟩, standing_root closed inside nofun⟩) ended

theorem chunks_move {chunks : List Chunk}
    (ended : (Evaluator.ofDepth setting depth).render c chunks ⟨a, ds, w⟩ = .ok n t) :
    Moved kinds setting.strict a c a t.arena := by
  have laws : (lockstep kinds setting.strict a []).Lawful := lawful instances
  have rel := Lockstep.related_ofDepth setting laws (enclosing setting) depth
  exact moved_of_agrees (rel.render chunks ⟨⟨rfl, rfl⟩, standing_root closed inside nofun⟩) ended

end Ends

end Steady

/-- A render keeps its arena closed and what it found there, apart from links; and if it is strict
and comes to an end, the links around its root too. -/
theorem render_moves (setting : Setting) {kinds : ScopeKind → Prop} (instances : kinds .template)
    {a : Arena} (closed : a.Closed kinds) {root : Handle} (inside : a.contains root) (depth : Nat)
    (w : Writer) :
    (setting.renderWithin depth a root w).arena.Closed kinds ∧
    a.Keeps (setting.renderWithin depth a root w).arena ∧
    (setting.strict = true → ∀ r, (setting.renderWithin depth a root w).result = .ok r →
      Arena.Frame root a (setting.renderWithin depth a root w).arena) := by
  have laws : (Steady.lockstep kinds setting.strict a []).Lawful := Steady.lawful instances
  have rel := Lockstep.related_ofDepth setting laws (Steady.enclosing setting) depth
  have standing : Steady.Standing kinds setting.strict a [] root a :=
    Steady.standing_root closed inside nofun
  obtain ⟨-, -, ⟨-, moved⟩ | ⟨failed, -, closed, keeps⟩⟩ :=
    Lockstep.render_outcome setting rel ⟨⟨rfl, rfl⟩, standing⟩ rfl w
  · exact ⟨moved.closed, moved.keeps, fun isStrict _ _ => moved.frame isStrict⟩
  · exact ⟨closed, keeps, fun _ r ended => absurd ended (failed r)⟩

end Stencil
