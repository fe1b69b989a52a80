import Stencil.Proofs.Closed
import Stencil.Proofs.Invariant.Step
/-!
# What a render changes in its arena

A render adds activations to its arena, and binds arguments of these only. Of what it found there it
changes nothing but links, and only the links of the instances that it writes. This is so however
the render ends, and whatever the links and the stored values of the arena are.
-/
namespace Stencil

namespace Arena

/-- An activation that a render has made. -/
structure Fresh (a : Arena) (h : Handle) : Prop where
  enclosed : ∃ e, a.Link h e ∧ a.contains e
  attributes : (a.get h).attributes = .empty
  arguments : ∀ entry ∈ (a.get h).arguments, entry.2 ≠ .null

/-- The arena `b` has the activations of `a`, whose links may be other ones, and behind them those
that a render has made. -/
structure Extends (a b : Arena) : Prop extends Keeps a b where
  fresh {h : Handle} : b.contains h → ¬ a.contains h → b.Fresh h

variable {a b : Arena} {c h x : Handle} {v : Value}

theorem contains_push_iff (a : Arena) (act : Activation) :
    (a.push act).2.contains x ↔ x = (a.push act).1 ∨ a.contains x := by
  have new : x = (a.push act).1 ↔ x.index = a.size :=
    ⟨fun same => same ▸ rfl, fun same => by cases x; simp_all [Arena.push]⟩
  simp only [contains, size_push, new]
  omega

theorem Fresh.keep (fresh : a.Fresh x) (keeps : Keeps a b) (inside : a.contains x)
    (enclosed : ∃ e, b.Link x e ∧ b.contains e) : b.Fresh x where
  enclosed := enclosed
  attributes := (keeps.attributes inside).trans fresh.attributes
  arguments := by
    rw [keeps.arguments inside]
    exact fresh.arguments

theorem Fresh.push (fresh : a.Fresh x) (inside : a.contains x) (act : Activation) :
    (a.push act).2.Fresh x := by
  have keeps := keeps_push a act
  obtain ⟨e, link, within⟩ := fresh.enclosed
  refine fresh.keep keeps inside ⟨e, ?_, keeps.contains within⟩
  rw [Link, get_push_of_contains inside]
  exact link

theorem Fresh.setArgument (fresh : a.Fresh x) (h : Handle) (name : String) (notNull : v ≠ .null) :
    (a.setArgument h name v).Fresh x := by
  obtain ⟨e, link, within⟩ := fresh.enclosed
  have grows := grows_setArgument a h name v
  unfold Link at link
  constructor
  case enclosed =>
    refine ⟨e, ?_, grows.contains within⟩
    rw [Link, get_setArgument]
    split <;> exact link
  case attributes =>
    rw [get_setArgument]
    split <;> exact fresh.attributes
  case arguments =>
    intro entry member
    rw [get_setArgument] at member
    split at member
    · rcases Table.mem_of_mem_insert member with rfl | member
      · exact notNull
      · exact fresh.arguments entry member
    · exact fresh.arguments entry member

theorem Fresh.setEnclosing (fresh : a.Fresh x) (inside : a.contains x) (h : Handle)
    (scope : a.contains c) : (a.setEnclosing h (some c)).Fresh x := by
  have keeps := keeps_setEnclosing a h (some c)
  obtain ⟨e, link, within⟩ := fresh.enclosed
  refine fresh.keep keeps inside ?_
  by_cases hit : x = h ∧ a.contains h
  · refine ⟨c, ?_, keeps.contains scope⟩
    rw [Link, get_setEnclosing, if_pos hit]
  · refine ⟨e, ?_, keeps.contains within⟩
    rw [Link, get_setEnclosing, if_neg hit]
    exact link

namespace Extends

theorem refl (a : Arena) : Extends a a where
  toKeeps := .refl a
  fresh inside outside := absurd inside outside

theorem push (ext : Extends a b) {act : Activation}
    (enclosed : ∃ e, act.enclosing? = some e ∧ b.contains e) (attributes : act.attributes = .empty)
    (arguments : ∀ entry ∈ act.arguments, entry.2 ≠ .null) : Extends a (b.push act).2 where
  toKeeps := ext.toKeeps.trans (keeps_push b act)
  fresh {x} inside outside := by
    rcases (contains_push_iff b act).1 inside with rfl | old
    · obtain ⟨e, link, within⟩ := enclosed
      refine ⟨⟨e, link_push b link, (keeps_push b act).contains within⟩, ?_, ?_⟩
      · rwa [get_push_self]
      · rwa [get_push_self]
    · exact (ext.fresh old outside).push old act

theorem embed (ext : Extends a b) (scope : b.contains c) (t : Template) :
    Extends a (b.embed c t).2 ∧ ¬ a.contains (b.embed c t).1 := by
  refine ⟨ext.push ⟨c, rfl, scope⟩ rfl fun _ member => absurd member List.not_mem_nil, ?_⟩
  have := ext.size
  simp only [Arena.embed, contains, push_index]
  omega

/-- What is bound in an activation that a render has made is not null. -/
theorem arguments_ne_null (ext : Extends a b) (new : ¬ a.contains h) :
    ∀ entry ∈ (b.get h).arguments, entry.2 ≠ .null := by
  by_cases inside : b.contains h
  · exact (ext.fresh inside new).arguments
  · rw [get_eq_default inside]
    exact fun _ member => absurd member List.not_mem_nil

theorem setArgument (ext : Extends a b) (new : ¬ a.contains h) (name : String)
    (notNull : v ≠ .null) : Extends a (b.setArgument h name v) where
  toKeeps := ext.toKeeps.setArgument new name v
  fresh {x} inside outside := by
    have old : b.contains x := by
      rwa [contains, Arena.setArgument, size_modify] at inside
    exact (ext.fresh old outside).setArgument h name notNull

theorem setEnclosing (ext : Extends a b) (scope : b.contains c) (h : Handle) :
    Extends a (b.setEnclosing h (some c)) where
  toKeeps := ext.toKeeps.trans (keeps_setEnclosing b h (some c))
  fresh {x} inside outside := by
    have old : b.contains x := by rwa [contains, size_setEnclosing] at inside
    exact (ext.fresh old outside).setEnclosing old h scope

end Extends
end Arena

namespace Footprint

open Arena

/-- A render that began with the arena `a₀`. -/
def invariant (a₀ : Arena) : Invariant where
  Holds a _ := a₀.Extends a
  Made h := ¬ a₀.contains h

theorem lawful (setting : Setting) (a₀ : Arena) : (invariant a₀).Lawful setting where
  report holds _ := holds
  embed t holds inside := holds.embed inside t
  arguments {a _ c h} holds inside made :=
    holds.push ⟨c, rfl, inside⟩ rfl (holds.arguments_ne_null made)
  argument name holds made notNull :=
    holds.setArgument made name fun isNull => by
      rw [isNull] at notNull
      cases notNull
  enclose {_ _ _ h} holds inside _ := holds.setEnclosing inside h
  tooDeep := trivial
  full := trivial
  recursion _ _ := trivial

/-- A render that does not write `h`, whose link is `e?`. -/
def unlinked (h : Handle) (e? : Option Handle) : Invariant where
  Holds a _ := a.contains h ∧ (a.get h).enclosing? = e?
  Made _ := True
  Open x := x ≠ h

theorem lawful_unlinked (setting : Setting) (h : Handle) (e? : Option Handle) :
    (unlinked h e?).Lawful setting := by
  have push {a : Arena} {ds : List TemplateError} (holds : (unlinked h e?).Holds a ds)
      (act : Activation) : (unlinked h e?).Holds (a.push act).2 ds := by
    refine ⟨(keeps_push a act).contains holds.1, ?_⟩
    rw [get_push_of_contains holds.1]
    exact holds.2
  constructor
  case report => exact fun holds _ => holds
  case embed => exact fun _ holds _ => ⟨push holds _, trivial⟩
  case arguments => exact fun holds _ _ => push holds _
  case argument =>
    intro a _ x v name holds _ _
    refine ⟨(grows_setArgument a x name v).contains holds.1, ?_⟩
    rw [get_setArgument]
    split <;> exact holds.2
  case enclose =>
    intro a _ c x holds _ other
    refine ⟨(keeps_setEnclosing a x (some c)).contains holds.1, ?_⟩
    rw [get_setEnclosing, if_neg fun hit => other hit.1.symm]
    exact holds.2
  case recursion => exact fun _ _ => trivial
  all_goals exact trivial

end Footprint

namespace Evaluator

/-- Goes at most `depth` steps deep, and no further than to where it is to write `h`. -/
def before (setting : Setting) (h : Handle) : Nat → Evaluator
  | 0 => exhausted
  | depth + 1 =>
    withInstances setting (before setting h depth) fun scope x =>
      if x = h then Run.stop .tooDeep
      else (before setting h depth).writeTemplate setting scope x

end Evaluator

/-- The render writes an instance, or is about to when it is refused: the render comes to something
else if it has to stop there. -/
def Setting.Writes (setting : Setting) (depth : Nat) (a : Arena) (root : Handle) (w : Writer)
    (h : Handle) : Prop :=
  (Evaluator.before setting h depth).outcome a root w ≠ setting.renderWithin depth a root w

namespace Footprint

open Arena Invariant

variable {setting : Setting} {a : Arena} {h : Handle}

theorem upheld_before (setting : Setting) (h : Handle) (e? : Option Handle) (depth : Nat) :
    (unlinked h e?).Upheld (.before setting h depth) := by
  have laws := lawful_unlinked setting h e?
  induction depth with
  | zero => exact upheld_exhausted laws
  | succ depth ih =>
    refine upheld_withInstances laws ih fun c x => ?_
    split
    · exact keeps_stop trivial
    · rename_i other
      exact keeps_writeTemplate laws ih other

/-- An instance keeps its link up to where it is written. -/
theorem link_before (inside : a.contains h) (setting : Setting) (depth : Nat) (root : Handle)
    (w : Writer) :
    (((Evaluator.before setting h depth).outcome a root w).arena.get h).enclosing? =
      (a.get h).enclosing? := by
  have holds : (unlinked h (a.get h).enclosing?).Holds a [] := ⟨inside, rfl⟩
  obtain ⟨⟨_, _, link⟩, -⟩ := (upheld_before setting h _ depth).outcome a root w holds
  exact link

end Footprint

/-- However a render ends, it has added activations to its arena, each of them enclosed by one of the
arena and with no null among its arguments, and has changed nothing of the older ones but the links
of those that it writes. -/
theorem render_footprint (setting : Setting) (depth : Nat) (a : Arena) (root : Handle)
    (w : Writer) :
    let b := (setting.renderWithin depth a root w).arena
    a.Extends b ∧
      ∀ h, a.contains h → (b.get h).enclosing? ≠ (a.get h).enclosing? →
        setting.Writes depth a root w h := by
  intro b
  constructor
  · obtain ⟨⟨_, ext⟩, -⟩ :=
      (Footprint.lawful setting a).render (fun _ => trivial) depth a root w (.refl a)
    exact ext
  · intro h inside moved same
    have kept := Footprint.link_before inside setting depth root w
    rw [same] at kept
    exact moved kept

/-- An instance that writes another one, and then applies an inline template to a text. -/
def Footprint.page : Arena :=
  let inner := Template.plain "inner" [.literal "b"]
  let item : Template := ⟨"item", ["y"], [.expression (.attribute "y") .none none], true, none⟩
  let page := Template.plain "page" [.expression (.attribute "x") .none none,
    .expression (.apply (.text "cd") [.inline item]) .none none]
  ((Arena.empty.instantiate inner).2.instantiate page).2.setAttribute ⟨1⟩ "x" (.template ⟨0⟩)

theorem Footprint.page_writes_no_root :
    ¬ Setting.standard.Writes 8 page ⟨1⟩ (.onto .autoIndent (.upTo 2)) ⟨1⟩ :=
  fun differs => differs rfl

/-- The sink has no room for what the inline template writes. -/
theorem failing_render_footprint :
    let w := Writer.onto .autoIndent (.upTo 2)
    let outcome := Setting.standard.renderWithin 8 Footprint.page ⟨1⟩ w
    outcome.result = .error (.fatal .sinkFull) ∧
      Setting.standard.Writes 8 Footprint.page ⟨1⟩ w ⟨0⟩ ∧
      ¬ Setting.standard.Writes 8 Footprint.page ⟨1⟩ w ⟨1⟩ ∧
      outcome.arena.Fresh ⟨2⟩ ∧ outcome.arena.attribute? ⟨1⟩ "x" = some (.template ⟨0⟩) := by
  intro w outcome
  obtain ⟨ext, written⟩ := render_footprint .standard 8 Footprint.page ⟨1⟩ w
  have linked : (outcome.arena.get ⟨0⟩).enclosing? ≠ (Footprint.page.get ⟨0⟩).enclosing? := by
    decide +kernel
  refine ⟨by decide +kernel, written ⟨0⟩ (by decide) linked, Footprint.page_writes_no_root, ?_, ?_⟩
  · exact ext.fresh (by decide +kernel) (by decide)
  · rw [Arena.attribute?, ext.attributes (by decide)]
    rfl

end Stencil
