import Stencil.Proofs.Steady
/-!
# What hosts and renders make of an arena

A host makes instances, sets their attributes, changes their links and renders them, in any order.
It only has the handles that it got itself; a render puts no other handles in its hands, and what it
leaves behind is closed again.
-/
namespace Stencil

/-- The arenas that a host gets to, with the handles of the instances that it has made. -/
inductive Reachable : List Handle → Arena → Prop
  | empty : Reachable [] .empty
  | instantiate {host : List Handle} {a : Arena} (t : Template) :
    Reachable host a → Reachable ((a.instantiate t).1 :: host) (a.instantiate t).2
  | embed {host : List Handle} {a : Arena} {e : Handle} (t : Template) :
    Reachable host a → e ∈ host → Reachable ((a.embed e t).1 :: host) (a.embed e t).2
  | setAttribute {host : List Handle} {a : Arena} {h : Handle} {v : Value} (name : String) :
    Reachable host a → h ∈ host → (∀ x, v.Holds x → x ∈ host) →
    Reachable host (a.setAttribute h name v)
  | addAttribute {host : List Handle} {a : Arena} {h : Handle} {v : Value} (name : String) :
    Reachable host a → h ∈ host → (∀ x, v.Holds x → x ∈ host) →
    Reachable host (a.addAttribute h name v)
  | setEnclosing {host : List Handle} {a : Arena} {h : Handle} {e? : Option Handle} :
    Reachable host a → h ∈ host → (∀ e, e? = some e → e ∈ host) →
    Reachable host (a.setEnclosing h e?)
  /-- A render that may be of any setting, and end in any way. -/
  | render {host : List Handle} {a : Arena} {root : Handle} (setting : Setting) (depth : Nat)
      (w : Writer) :
    Reachable host a → root ∈ host →
    Reachable host (setting.renderWithin depth a root w).arena

namespace Reachable

open Arena

variable {host : List Handle} {a : Arena}

/-- Handles of the host are those of instances, and stay so. -/
theorem invariant (reachable : Reachable host a) :
    a.Closed IsInstance ∧ ∀ h ∈ host, a.Knows IsInstance h := by
  induction reachable with
  | empty => exact ⟨closed_empty, fun h member => absurd member List.not_mem_nil⟩
  | @instantiate host a t _ ih =>
    obtain ⟨closed, known⟩ := ih
    refine ⟨closed.instantiate t, fun h member => ?_⟩
    rcases List.mem_cons.1 member with rfl | member
    · exact knows_push a (.ofTemplate t) rfl
    · exact (known h member).grow (keeps_push a _).toGrows
  | @embed host a e t _ enclosing ih =>
    obtain ⟨closed, known⟩ := ih
    refine ⟨closed.embed (known e enclosing).inside t, fun h member => ?_⟩
    rcases List.mem_cons.1 member with rfl | member
    · exact knows_push a { Activation.ofTemplate t with enclosing? := some e } rfl
    · exact (known h member).grow (keeps_push a _).toGrows
  | @setAttribute host a h v name _ _ held ih =>
    obtain ⟨closed, known⟩ := ih
    exact ⟨closed.setAttribute h name fun x holds => known x (held x holds),
      fun x member => (known x member).grow (grows_setAttribute a h name v)⟩
  | @addAttribute host a h v name _ _ held ih =>
    obtain ⟨closed, known⟩ := ih
    exact ⟨closed.addAttribute h name fun x holds => known x (held x holds),
      fun x member => (known x member).grow (grows_addAttribute a h name v)⟩
  | @setEnclosing host a h e? _ made enclosing ih =>
    obtain ⟨closed, known⟩ := ih
    have inside (e : Handle) (same : e? = some e) := (known e (enclosing e same)).inside
    exact ⟨closed.setEnclosing (known h made).kind inside,
      fun x member => (known x member).grow (keeps_setEnclosing a h e?).toGrows⟩
  | @render host a root setting depth w _ made ih =>
    obtain ⟨closed, known⟩ := ih
    have instances : IsInstance .template := rfl
    obtain ⟨left, keeps, -⟩ :=
      render_moves setting instances closed (known root made).inside depth w
    exact ⟨left, fun x member => (known x member).grow keeps.toGrows⟩

end Reachable
end Stencil
