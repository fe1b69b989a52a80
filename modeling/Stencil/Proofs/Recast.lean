import Stencil.Proofs.Guarded
/-!
# Another template for the root

Two renders of arenas that differ in nothing but the chunks of the root. They do the same until the
root is written again. A strict render stops there; any other one may be barred from it.
-/
namespace Stencil

/-- The activation with other chunks in its template. -/
def Activation.withChunks (act : Activation) (chunks : List Chunk) : Activation :=
  { act with template := { act.template with chunks } }

theorem Activation.withChunks_self (act : Activation) :
    act.withChunks act.template.chunks = act := by
  obtain ⟨t, _, _, _, _⟩ := act
  cases t
  rfl

/-- Gives an activation other chunks. -/
def Arena.recast (a : Arena) (h : Handle) (chunks : List Chunk) : Arena :=
  a.modify h fun act => act.withChunks chunks

namespace Evaluator

/-- Goes at most `depth` steps deep, and not into `root`. -/
def barred (setting : Setting) (root : Handle) : Nat → Evaluator
  | 0 => exhausted
  | depth + 1 =>
    { step setting (barred setting root depth) with
      write := fun scope v o =>
        match v with
        | .template h =>
          if h = root then refuse scope h
          else (barred setting root depth).writeTemplate setting scope h
        | v => (step setting (barred setting root depth)).write scope v o }

theorem barred_succ (setting : Setting) (root : Handle) (depth : Nat) :
    barred setting root (depth + 1) =
      withInstances setting (barred setting root depth) fun scope h =>
        if h = root then refuse scope h
        else (barred setting root depth).writeTemplate setting scope h := rfl

/-- Renders an activation's template. -/
def outcome (ev : Evaluator) (a : Arena) (root : Handle) (w : Writer) : RenderOutcome :=
  match ev.render root (a.get root).template.chunks ⟨a, [], w⟩ with
  | .ok chars s => ⟨.ok ⟨chars, s.diagnostics⟩, s.arena, s.writer⟩
  | .error cause s => ⟨.error cause, s.arena, s.writer⟩

/-- The run behind a render that comes to an end. -/
theorem ran_of_outcome {ev : Evaluator} {a : Arena} {root : Handle} {w : Writer} {r : Rendered}
    (ended : (ev.outcome a root w).result = .ok r) :
    ∃ t, ev.render root (a.get root).template.chunks ⟨a, [], w⟩ = .ok r.chars t ∧
      t.diagnostics = r.diagnostics ∧ t.writer = (ev.outcome a root w).writer := by
  unfold outcome at ended ⊢
  generalize ev.render root _ _ = run at ended ⊢
  cases run with
  | ok n t =>
    cases ended
    exact ⟨t, rfl, rfl, rfl⟩
  | error => cases ended

end Evaluator

/-- The render does not write its own root again: to bar it from that makes no difference. -/
structure Setting.WritesOnce (setting : Setting) (depth : Nat) (a : Arena) (root : Handle)
    (w : Writer) : Prop where
  result : ((Evaluator.barred setting root depth).outcome a root w).result =
    (setting.renderWithin depth a root w).result
  writer : ((Evaluator.barred setting root depth).outcome a root w).writer =
    (setting.renderWithin depth a root w).writer

namespace Recast

open Arena Steady

/-- The arenas have the same instances, apart from the chunks of `root`. The scopes of arguments may
have taken on those. -/
structure Alike (root : Handle) (first second : List Chunk) (a b : Arena) : Prop where
  size : a.size = b.size
  slots (h : Handle) : ∃ chunks, b.get h = (a.get h).withChunks chunks
  instances (h : Handle) : h ≠ root → (a.get h).kind = .template → b.get h = a.get h
  left : (a.get root).template.chunks = first
  right : (b.get root).template.chunks = second

variable {root c h : Handle} {first second : List Chunk} {a b : Arena}

/-- What the root is written with does not depend on its chunks where it is an element. -/
def MayWrite (root : Handle) (first second : List Chunk) (h : Handle) : Prop :=
  h = root → (Template.plain "" first).isPureConditional =
    (Template.plain "" second).isPureConditional

theorem get_recast (inside : a.contains root) (chunks : List Chunk) (x : Handle) :
    (a.recast root chunks).get x =
      if x = root then (a.get x).withChunks chunks else a.get x := by
  rw [recast, get_modify_eq]
  simp only [inside, and_true]

theorem alike_recast (inside : a.contains root) (left : (a.get root).template.chunks = first)
    (second : List Chunk) : Alike root first second a (a.recast root second) := by
  have slots := get_recast inside second
  constructor
  case size => simp [recast]
  case left => exact left
  case right =>
    rw [slots, if_pos rfl]
    rfl
  case slots =>
    intro x
    rw [slots]
    split
    · exact ⟨_, rfl⟩
    · exact ⟨_, (Activation.withChunks_self _).symm⟩
  case instances =>
    intro x other _
    rw [slots, if_neg other]

namespace Alike

/-! ## Changes -/

theorem push (alike : Alike root first second a b) (inside : a.contains root)
    (act act' : Activation) (recast : ∃ chunks, act' = act.withChunks chunks)
    (new : act.kind = .template → act' = act) :
    (a.push act).1 = (b.push act').1 ∧ Alike root first second (a.push act).2 (b.push act').2 := by
  have sameNew : (b.push act').1 = (a.push act).1 := by simp [Arena.push, alike.size]
  have getA := get_push a act
  have getB := get_push b act'
  simp only [sameNew] at getB
  have old : root ≠ (a.push act).1 := by
    rintro rfl
    exact absurd inside (by simp [contains])
  refine ⟨sameNew.symm, ?_⟩
  constructor
  case size => simp [alike.size]
  case left => rw [getA, if_neg old, alike.left]
  case right => rw [getB, if_neg old, alike.right]
  all_goals
    intro x
    rw [getA, getB]
    split
  · exact recast
  · exact alike.slots x
  · exact fun _ => new
  · exact alike.instances x

theorem modify (alike : Alike root first second a b) (x : Handle) {f : Activation → Activation}
    (template : ∀ act, (f act).template = act.template) (kind : ∀ act, (f act).kind = act.kind)
    (chunks : ∀ act chunks, f (act.withChunks chunks) = (f act).withChunks chunks) :
    Alike root first second (a.modify x f) (b.modify x f) := by
  have getA := get_modify_eq a x f
  have getB := get_modify_eq b x f
  have inside : b.contains x ↔ a.contains x := by rw [contains, contains, alike.size]
  simp only [inside] at getB
  constructor
  case size => simp [alike.size]
  case left =>
    rw [getA]
    split
    · rw [template, alike.left]
    · exact alike.left
  case right =>
    rw [getB]
    split
    · rw [template, alike.right]
    · exact alike.right
  all_goals
    intro y
    rw [getA, getB]
    split
  · obtain ⟨others, same⟩ := alike.slots y
    exact ⟨others, by rw [same, chunks]⟩
  · exact alike.slots y
  · intro other isTemplate
    rw [alike.instances y other ((kind _).symm.trans isTemplate)]
  · exact alike.instances y

theorem setEnclosing (alike : Alike root first second a b) (x : Handle) (e? : Option Handle) :
    Alike root first second (a.setEnclosing x e?) (b.setEnclosing x e?) :=
  alike.modify x (fun _ => rfl) (fun _ => rfl) fun _ _ => rfl

theorem setArgument (alike : Alike root first second a b) (x : Handle) (name : String) (v : Value) :
    Alike root first second (a.setArgument x name v) (b.setArgument x name v) :=
  alike.modify x (fun _ => rfl) (fun _ => rfl) fun _ _ => rfl

/-! ## Links and names -/

variable (alike : Alike root first second a b)
include alike

/-- What has nothing to do with chunks is the same of both activations. -/
theorem slot_eq {α : Type} {f : Activation → α}
    (blind : ∀ act chunks, f (act.withChunks chunks) = f act) (x : Handle) :
    f (a.get x) = f (b.get x) := by
  obtain ⟨chunks, same⟩ := alike.slots x
  rw [same, blind]

theorem sameLinks : a.SameLinks b where
  size := alike.size
  enclosing := alike.slot_eq (f := Activation.enclosing?) fun _ _ => rfl
  kind := alike.slot_eq (f := Activation.kind) fun _ _ => rfl
  name := alike.slot_eq (f := Activation.name) fun _ _ => rfl
  group := alike.slot_eq (f := fun act => act.template.group) fun _ _ => rfl

theorem within {x : Handle} (within : a.contains x) : b.contains x := by
  rwa [contains, ← alike.size]

theorem knows {kinds : ScopeKind → Prop} {x : Handle} (knows : a.Knows kinds x) :
    b.Knows kinds x :=
  ⟨alike.within knows.inside, alike.sameLinks.kind x ▸ knows.kind⟩

theorem closed {kinds : ScopeKind → Prop} (closed : a.Closed kinds) : b.Closed kinds := by
  have links {x e : Handle} (link : b.Link x e) : a.Link x e :=
    (alike.sameLinks.enclosing x).trans link
  constructor
  case links =>
    exact fun x e link => alike.within (closed.links x e (links link))
  case stored =>
    intro x v y stores holds
    have stores : (a.get x).Stores v := by
      rwa [alike.slot_eq (f := fun act => act.Stores v) fun _ _ => rfl]
    exact alike.knows (closed.stored stores holds)
  case older =>
    intro apart x e isArguments link
    rw [← alike.sameLinks.kind] at isArguments
    exact closed.older apart x e isArguments (links link)

theorem resolve_eq (x : Handle) (name : String) : b.resolve x name = a.resolve x name := by
  have from_eq (n : Nat) (x : Handle) (declared : Bool) :
      b.resolveFrom name n x declared = a.resolveFrom name n x declared := by
    induction n generalizing x declared with
    | zero => rfl
    | succ n ih =>
      obtain ⟨chunks, same⟩ := alike.slots x
      simp only [resolveFrom, same, ih]
      rfl
  rw [resolve, resolve, alike.size, from_eq]

theorem property_eq (x : Handle) (name : String) :
    (a.get x).property name = (b.get x).property name :=
  alike.slot_eq (f := fun act => act.property name) (fun _ _ => rfl) x

theorem similar (isTemplate : (a.get h).kind = .template) :
    (a.get h).template.Similar (MayWrite root first second h) (b.get h).template := by
  by_cases other : h = root
  · subst other
    refine ⟨alike.sameLinks.name h, fun written => ?_⟩
    rw [Template.isPureConditional, Template.isPureConditional, alike.left, alike.right]
    exact written rfl
  · exact Template.similar_of_eq (by rw [alike.instances h other isTemplate])

end Alike

/-! ## The two renders -/

/-- Renders of arenas that began as `a₀` apart from the chunks of the root, in which the root is in
progress. The first one may stop earlier. -/
def lockstep (setting : Setting) (a₀ : Arena) (root : Handle) (first second : List Chunk)
    (fits : Strategy → Prop) : Lockstep where
  Twin a _ h h' := h = h' ∧ a.Knows IsInstance h
  Made a _ h h' := (h = h' ∧ a.Knows IsInstance h) ∧ ¬ a₀.contains h
  Coupled c c' a b := (c = c' ∧ Alike root first second a b) ∧
    Standing IsInstance setting.strict a₀ [root] c a
  Evolves c _ a _ a₁ b₁ := Alike root first second a₁ b₁ ∧
    Moved IsInstance setting.strict a₀ c a a₁
  Left _ _ := True
  Open := MayWrite root first second
  Lax := True
  Fits := fits

variable {setting : Setting} {a₀ : Arena} {fits : Strategy → Prop}

theorem fixed_of_same {v v' : Value}
    (same : (lockstep setting a₀ root first second fits).Same a b v v') :
    v = v' ∧ ∀ x, v.Holds x → a.Knows IsInstance x :=
  Value.Paired.fixed same

theorem lawful (inside : a₀.contains root) :
    (lockstep setting a₀ root first second fits).Lawful := by
  have laws : (Steady.lockstep IsInstance setting.strict a₀ [root]).Lawful := Steady.lawful rfl
  constructor
  case refl => exact fun coupled => ⟨coupled.1.2, coupled.2.refl⟩
  case trans => exact fun first second => ⟨second.1, first.2.trans second.2⟩
  case coupled => exact fun coupled evolves => ⟨⟨coupled.1.1, evolves.1⟩, coupled.2.move evolves.2⟩
  case left => exact fun _ => trivial
  case twin => exact fun evolves twin => ⟨twin.1, twin.2.grow evolves.2.grows⟩
  case made =>
    exact fun evolves made => ⟨⟨made.1.1, made.1.2.grow evolves.2.grows⟩, made.2⟩
  case twin_of_made => exact fun made => made.1
  case resolve =>
    rintro c _ a b name ⟨⟨rfl, alike⟩, standing⟩
    rw [alike.resolve_eq]
    cases found : a.resolve c name with
    | found v =>
      exact .found (.same fun x holds => ⟨rfl, standing.closed.knows_of_resolve found holds⟩)
    | missing declared owner => exact .missing (alike.sameLinks.name owner)
  case group =>
    rintro c _ a b ⟨⟨rfl, alike⟩, -⟩
    exact alike.sameLinks.groupOf_eq c
  case template =>
    rintro c _ a b h _ ⟨⟨rfl, alike⟩, standing⟩ ⟨⟨rfl, knows⟩, new⟩
    have other : h ≠ root := by
      rintro rfl
      exact new inside
    rw [alike.instances h other knows.kind]
  case similar =>
    rintro c _ a b h _ ⟨⟨rfl, alike⟩, standing⟩ ⟨rfl, knows⟩
    exact alike.similar knows.kind
  case property =>
    rintro c _ a b h _ name ⟨⟨rfl, alike⟩, standing⟩ ⟨rfl, knows⟩
    rw [← alike.property_eq]
    cases found : (a.get h).property name with
    | none => exact .none
    | some v =>
      exact .some (.same fun x holds =>
        ⟨rfl, standing.closed.stored (Activation.stores_of_property found) holds⟩)
  case embed =>
    rintro c _ a b t ⟨⟨rfl, alike⟩, standing⟩
    obtain ⟨⟨-, moved⟩, made⟩ := laws.embed (c := c) (a := a) t ⟨⟨rfl, rfl⟩, standing⟩
    obtain ⟨same, alike⟩ := alike.push (standing.keeps.contains inside) _ _
      ⟨_, (Activation.withChunks_self { Activation.ofTemplate t with enclosing? := some c }).symm⟩
      fun _ => rfl
    exact ⟨⟨alike, moved⟩, ⟨same, made.1.2⟩, made.2⟩
  case argument =>
    rintro c _ a b h _ v _ name ⟨⟨rfl, alike⟩, standing⟩ ⟨⟨rfl, knows⟩, new⟩ same
    obtain ⟨rfl, known⟩ := fixed_of_same same
    obtain ⟨-, moved⟩ := laws.argument (c := c) (a := a) name ⟨⟨rfl, rfl⟩, standing⟩
      ⟨⟨rfl, knows⟩, new⟩ (.same fun x holds => ⟨rfl, known x holds⟩)
    exact ⟨alike.setArgument h name v, moved⟩
  case arguments =>
    rintro c _ a b h _ ⟨⟨rfl, alike⟩, standing⟩ ⟨⟨rfl, knows⟩, new⟩
    have other : h ≠ root := by
      rintro rfl
      exact new inside
    obtain ⟨inner, wider⟩ := standing.argumentScope h
    obtain ⟨chunks, caller⟩ := alike.slots c
    obtain ⟨same, alike⟩ := alike.push (standing.keeps.contains inside)
      ⟨(a.get c).template, .empty, (a.get h).arguments, some c, .arguments⟩
      ⟨(b.get c).template, .empty, (b.get h).arguments, some c, .arguments⟩
      ⟨chunks, by rw [caller, alike.instances h other knows.kind]; rfl⟩ nofun
    exact ⟨⟨⟨same, alike⟩, inner⟩, ⟨⟨rfl, knows.grow (keeps_push a _).toGrows⟩, new⟩,
      fun a₂ b₂ evolves => ⟨evolves.1, wider a₂ evolves.2⟩⟩

/-- Any other instance is enclosed as in a render by itself. -/
theorem encloses (coupled : (lockstep setting a₀ root first second fits).Coupled c c a b)
    (knows : a.Knows IsInstance h) (other : h ≠ root) :
    (lockstep setting a₀ root first second fits).Encloses setting c c h h a b := by
  obtain ⟨⟨-, alike⟩, standing⟩ := coupled
  have linked := alike.setEnclosing h (some c)
  have isTemplate : ((a.setEnclosing h (some c)).get h).kind = .template :=
    ((keeps_setEnclosing a h (some c)).kind knows.inside).trans knows.kind
  constructor
  case opened => exact fun isRoot => absurd isRoot other
  case refused => exact fun _ => linked.sameLinks.isSelfEnclosed_eq h
  case traces => exact fun _ _ => ⟨linked.sameLinks.trace_eq h, trivial⟩
  case entered =>
    intro allowed
    have apart (isStrict : setting.strict = true) := by
      have := allowed isStrict
      rwa [← Bool.not_eq_true, standing.refused_iff knows] at this
    obtain ⟨inner, wider⟩ := standing.enter knows apart
    exact ⟨⟨⟨rfl, linked⟩, inner.fewer⟩, by rw [linked.instances h other isTemplate],
      fun a₂ _ evolves => ⟨evolves.1, wider a₂ evolves.2⟩⟩

/-! ## Evaluators that agree -/

variable {ev ev' : Evaluator}

/-- A strict render that comes to the root again stops. -/
theorem agrees_root (isStrict : setting.strict = true) {y : Run Nat}
    {Q : Arena → Arena → Nat → Nat → Prop}
    (coupled : (lockstep setting a₀ root first second fits).Coupled c c a b)
    (knows : a.Knows IsInstance root) :
    (lockstep setting a₀ root first second fits).Agrees c c a b Q
      (ev.writeTemplate setting c root) y := by
  intro _ _ _ _
  have refused := (coupled.2.refused_iff knows).2
    (coupled.2.around isStrict root List.mem_cons_self)
  rw [Evaluator.writeTemplate_run, isStrict, refused]
  exact .lax trivial

variable [(lockstep setting a₀ root first second fits).Suits setting]

/-- Evaluators that do not go into the root agree with those that do. -/
theorem related_barred (inside : a₀.contains root) {depth deeper : Nat} (le : depth ≤ deeper) :
    (lockstep setting a₀ root first second fits).Related (.barred setting root depth)
      (.ofDepth setting deeper) := by
  induction depth generalizing deeper with
  | zero => exact Lockstep.related_exhausted_lax trivial _
  | succ depth ih =>
    obtain ⟨deeper, rfl⟩ : ∃ k, deeper = k + 1 := ⟨deeper - 1, by omega⟩
    have rel := ih (Nat.le_of_succ_le_succ le)
    rw [Evaluator.barred_succ, Evaluator.ofDepth_succ, Evaluator.step_eq_withInstances]
    refine Lockstep.related_withInstances setting (lawful inside) rel ?_
    rintro c _ h _ a b ⟨⟨rfl, alike⟩, standing⟩ ⟨rfl, knows⟩
    by_cases isRoot : h = root
    · rw [if_pos isRoot]
      exact fun _ _ _ _ => .lax trivial
    · rw [if_neg isRoot]
      exact Lockstep.agrees_writeTemplate setting rel
        (encloses ⟨⟨rfl, alike⟩, standing⟩ knows isRoot)

/-- Evaluators of a strict setting agree, of which the second one may go deeper. -/
theorem related_strict (isStrict : setting.strict = true) (inside : a₀.contains root)
    {depth deeper : Nat} (le : depth ≤ deeper) :
    (lockstep setting a₀ root first second fits).Related (.ofDepth setting depth)
      (.ofDepth setting deeper) := by
  induction depth generalizing deeper with
  | zero => exact Lockstep.related_exhausted_lax trivial _
  | succ depth ih =>
    obtain ⟨deeper, rfl⟩ : ∃ k, deeper = k + 1 := ⟨deeper - 1, by omega⟩
    have rel := ih (Nat.le_of_succ_le_succ le)
    simp only [Evaluator.ofDepth_succ, Evaluator.step_eq_withInstances]
    refine Lockstep.related_withInstances setting (lawful inside) rel ?_
    rintro c _ h _ a b ⟨⟨rfl, alike⟩, standing⟩ ⟨rfl, knows⟩
    by_cases isRoot : h = root
    · subst isRoot
      exact agrees_root isStrict ⟨⟨rfl, alike⟩, standing⟩ knows
    · exact Lockstep.agrees_writeTemplate setting rel
        (encloses ⟨⟨rfl, alike⟩, standing⟩ knows isRoot)

end Recast
end Stencil
