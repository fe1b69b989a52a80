import Stencil.Proofs.Links
import Stencil.Render.Call
/-!
# Invariants of renders

What holds of the arena and of the reports at every moment of a render, and why the render may stop.
An invariant is given by what is asked of the single changes that a render makes; a run keeps it if
each of its parts does, however the run ends.
-/
namespace Stencil

/-- Errors that a render reports and goes on after. -/
inductive TemplateError.Recoverable : TemplateError → Prop
  | missingAttribute {template name : String} : Recoverable (.missingAttribute template name)
  | unresolvedProperty {target property : String} :
    Recoverable (.unresolvedProperty target property)
  | arityMismatch {template : String} {expected actual : Nat} :
    Recoverable (.arityMismatch template expected actual)
  | templateNotFound {name : String} : Recoverable (.templateNotFound name)
  | unknownParameter {template name : String} : Recoverable (.unknownParameter template name)

theorem TemplateError.Recoverable.isFatal_eq_false {e : TemplateError} (recoverable : e.Recoverable) :
    e.isFatal = false := by
  cases recoverable <;> rfl

/-- Arenas in which arguments of an instance have been bound one after another, none of them to
null. -/
inductive Arena.Bound (h : Handle) (a : Arena) : Arena → Prop
  | refl : Bound h a a
  | bind {b : Arena} {name : String} {v : Value} :
    Bound h a b → v.isNull = false → Bound h a (b.setArgument h name v)

structure Invariant where
  Holds (a : Arena) (ds : List TemplateError) : Prop
  /-- Instances that the render may bind arguments of. -/
  Made : Handle → Prop
  /-- Instances that the render may write. -/
  Open : Handle → Prop := fun _ => True
  /-- Reasons for which the render may stop. -/
  Stops : Stop → Prop := fun _ => True

namespace Invariant

/-- What is asked of the single changes that a render makes. It binds no nulls. -/
structure Lawful (I : Invariant) (setting : Setting) : Prop where
  report {a ds e} : I.Holds a ds → e.Recoverable → I.Holds a (ds ++ [e])
  embed {a ds c} (t : Template) :
    I.Holds a ds → a.contains c → I.Holds (a.embed c t).2 ds ∧ I.Made (a.embed c t).1
  arguments {a ds c h} :
    I.Holds a ds → a.contains c → I.Made h →
    I.Holds (a.argumentScope c (a.get h).arguments).2 ds
  argument {a ds h v} (name : String) :
    I.Holds a ds → I.Made h → v.isNull = false → I.Holds (a.setArgument h name v) ds
  enclose {a ds c h} :
    I.Holds a ds → a.contains c → I.Open h → I.Holds (a.setEnclosing h (some c)) ds
  tooDeep : I.Stops .tooDeep
  full : I.Stops (.fatal .sinkFull)
  recursion (names : List String) :
    setting.strict = true → I.Stops (.fatal (.infiniteRecursion names))

/-- How a run ended that began with the arena `a`. If it came to an end, no activation was lost. -/
inductive Ends (I : Invariant) {α : Type} (a : Arena) (Q : α → Prop) :
    EStateM.Result Stop RenderState α → Prop
  | ok {r : α} {t : RenderState} :
    I.Holds t.arena t.diagnostics → a.size ≤ t.arena.size → Q r → Ends I a Q (.ok r t)
  | error {cause : Stop} {t : RenderState} :
    I.Holds t.arena t.diagnostics → I.Stops cause → Ends I a Q (.error cause t)

/-- A run at the scope `c` that keeps the invariant. -/
def Keeps (I : Invariant) {α : Type} (c : Handle) (Q : α → Prop) (x : Run α) : Prop :=
  ∀ s, I.Holds s.arena s.diagnostics → s.arena.contains c → I.Ends s.arena Q (x s)

/-- Any result. -/
def Any {α : Type} : α → Prop := fun _ => True

variable {I : Invariant} {α β : Type} {c h : Handle} {Q : α → Prop} {R : β → Prop} {a b : Arena}

theorem Ends.after {r : EStateM.Result Stop RenderState α} (le : a.size ≤ b.size)
    (ends : I.Ends b Q r) : I.Ends a Q r := by
  cases ends with
  | ok holds grown related => exact .ok holds (Nat.le_trans le grown) related
  | error holds stops => exact .error holds stops

theorem keeps_pure {r : α} (related : Q r) : I.Keeps c Q (pure r) :=
  fun _ holds _ => .ok holds (Nat.le_refl _) related

theorem keeps_bind {x : Run α} {f : α → Run β} (first : I.Keeps c Q x)
    (next : ∀ r, Q r → I.Keeps c R (f r)) : I.Keeps c R (x >>= f) := by
  intro s holds inside
  have begun := first s holds inside
  change I.Ends _ _ (EStateM.bind x f s)
  unfold EStateM.bind
  generalize x s = r at begun
  cases begun with
  | ok holds grown related =>
    have rest := next _ related _ holds (Arena.contains_of_size_le grown inside)
    exact rest.after grown
  | error holds stops => exact .error holds stops

theorem keeps_withArena {f : Arena → Run α} (keeps : ∀ a, I.Keeps c Q (f a)) :
    I.Keeps c Q (Run.arena >>= f) :=
  fun s holds inside => keeps s.arena s holds inside

theorem keeps_stop {cause : Stop} (stops : I.Stops cause) : I.Keeps c Q (Run.stop cause) :=
  fun _ holds _ => .error holds stops

theorem keeps_indented {x : Run α} (indent? : Option String) (keeps : I.Keeps c Q x) :
    I.Keeps c Q (Run.indented indent? x) := by
  cases indent? with
  | none => exact keeps
  | some indent =>
    intro s holds inside
    have inner := keeps { s with writer := s.writer.push indent } holds inside
    simp only [Run.indented]
    generalize x { s with writer := s.writer.push indent } = r at inner
    cases inner with
    | ok holds grown related => exact .ok holds grown related
    | error holds stops => exact .error holds stops

theorem keeps_captured {x : Run α} (strategy : Strategy) (keeps : I.Keeps c Q x) :
    I.Keeps c Any (Run.captured strategy x) := by
  intro s holds inside
  have inner := keeps { s with writer := .fresh strategy } holds inside
  simp only [Run.captured]
  generalize x { s with writer := .fresh strategy } = r at inner
  cases inner with
  | ok holds grown _ => exact .ok holds grown trivial
  | error holds stops => exact .error holds stops

section Rules

variable {setting : Setting} (laws : I.Lawful setting)
include laws

theorem keeps_report {e : TemplateError} (recoverable : e.Recoverable) :
    I.Keeps c Any (Run.report e) :=
  fun _ holds _ => .ok (laws.report holds recoverable) (Nat.le_refl _) trivial

theorem keeps_emit (text : String) : I.Keeps c Any (Run.emit text) := by
  intro s holds inside
  simp only [Run.emit]
  rcases s.writer.write text with ⟨after, count | count⟩
  · exact .error holds laws.full
  · exact .ok holds (Nat.le_refl _) trivial

theorem keeps_embed (t : Template) : I.Keeps c I.Made (Run.enter fun a => a.embed c t) := by
  intro s holds inside
  obtain ⟨holds, made⟩ := laws.embed t holds inside
  have grown : s.arena.size ≤ (s.arena.embed c t).2.size := by
    rw [Arena.embed, Arena.size_push]
    exact Nat.le_succ _
  exact .ok holds grown made

/-- The scope of a call's arguments is one of the arena's, like the caller. -/
theorem keeps_openArguments {f : Handle → Run α} (made : I.Made h)
    (next : ∀ scope, I.Keeps scope Q (f scope)) :
    I.Keeps c Q (Evaluator.openArguments c h >>= f) := by
  intro s holds inside
  have opened := laws.arguments holds inside made
  have grown : s.arena.size ≤ (s.arena.argumentScope c (s.arena.get h).arguments).2.size := by
    simp [Arena.argumentScope]
  have within : (s.arena.argumentScope c (s.arena.get h).arguments).2.contains
      (s.arena.argumentScope c (s.arena.get h).arguments).1 := by
    simp [Arena.argumentScope, Arena.contains]
  exact (next _ { s with arena := (s.arena.argumentScope c (s.arena.get h).arguments).2 }
    opened within).after grown

theorem Lawful.bound {ds : List TemplateError} (made : I.Made h) (bound : a.Bound h b)
    (holds : I.Holds a ds) : I.Holds b ds ∧ a.size = b.size := by
  induction bound with
  | refl => exact ⟨holds, rfl⟩
  | bind _ notNull ih =>
    exact ⟨laws.argument _ ih.1 made notNull, ih.2.trans (Arena.size_modify _ h _).symm⟩

theorem keeps_bound {f : Arena → Arena} (made : I.Made h) (bound : ∀ a : Arena, a.Bound h (f a)) :
    I.Keeps c Any (Run.changeArena f) := by
  intro s holds _
  obtain ⟨holds, size⟩ := laws.bound made (bound s.arena) holds
  exact .ok holds (Nat.le_of_eq size) trivial

end Rules

end Invariant
end Stencil
