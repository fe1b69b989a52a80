import Stencil.Proofs.Footprint
/-!
# Attributes and arguments do not meet

A host sets attributes of instances that it has made itself; a render binds arguments of instances
that it has made itself. So no activation ever has both, and a property of a template value is what
its name stands for within the instance, although the two are looked for in opposite orders.
-/
namespace Stencil

/-- The arenas that a host gets to, with the handles of the instances that it has made. It may link
and render anything, and set attributes of its own instances to any values. The last three steps are
those of a render that is under way. -/
inductive Hosted : List Handle → Arena → Prop
  | empty : Hosted [] .empty
  | instantiate {host : List Handle} {a : Arena} (t : Template) :
    Hosted host a → Hosted ((a.instantiate t).1 :: host) (a.instantiate t).2
  | embed {host : List Handle} {a : Arena} (e : Handle) (t : Template) :
    Hosted host a → Hosted ((a.embed e t).1 :: host) (a.embed e t).2
  | setAttribute {host : List Handle} {a : Arena} {h : Handle} (name : String) (v : Value) :
    Hosted host a → h ∈ host → Hosted host (a.setAttribute h name v)
  | addAttribute {host : List Handle} {a : Arena} {h : Handle} (name : String) (v : Value) :
    Hosted host a → h ∈ host → Hosted host (a.addAttribute h name v)
  | setEnclosing {host : List Handle} {a : Arena} (h : Handle) (e? : Option Handle) :
    Hosted host a → Hosted host (a.setEnclosing h e?)
  /-- A render that may be of any setting, and end in any way. -/
  | render {host : List Handle} {a : Arena} (setting : Setting) (depth : Nat) (root : Handle)
      (w : Writer) :
    Hosted host a → Hosted host (setting.renderWithin depth a root w).arena
  /-- A call has made an instance, which the host does not get to know. -/
  | call {host : List Handle} {a : Arena} (caller : Handle) (t : Template) :
    Hosted host a → Hosted host (a.embed caller t).2
  /-- A call has opened the scope of its arguments. -/
  | scope {host : List Handle} {a : Arena} (caller h : Handle) :
    Hosted host a → Hosted host (a.argumentScope caller (a.get h).arguments).2
  /-- A call has bound an argument. -/
  | bind {host : List Handle} {a : Arena} {h : Handle} (name : String) (v : Value) :
    Hosted host a → h ∉ host → Hosted host (a.setArgument h name v)

/-- The order of the tables is of no account where one of them is empty. -/
theorem Activation.property_eq_lookup_of_empty {act : Activation}
    (apart : act.attributes = .empty ∨ act.arguments = .empty) (name : String) :
    act.property name = act.lookup name := by
  unfold property lookup
  rcases apart with none | none
  · simp [none]
  · simp [none]

namespace Arena

/-- The instances of a host have no arguments, and all other activations have no attributes. -/
structure Parted (host : List Handle) (a : Arena) : Prop where
  inside {h : Handle} : h ∈ host → a.contains h
  arguments {h : Handle} : h ∈ host → (a.get h).arguments = .empty
  attributes {h : Handle} : h ∉ host → (a.get h).attributes = .empty

namespace Parted

variable {host : List Handle} {a : Arena} {h : Handle}

theorem empty : Parted [] .empty where
  inside member := absurd member List.not_mem_nil
  arguments member := absurd member List.not_mem_nil
  attributes _ := rfl

theorem apart (parted : Parted host a) (h : Handle) :
    (a.get h).attributes = .empty ∨ (a.get h).arguments = .empty := by
  by_cases own : h ∈ host
  · exact .inr (parted.arguments own)
  · exact .inl (parted.attributes own)

/-- The next activation of an arena is not one of its host. -/
theorem next_not_mem (parted : Parted host a) (act : Activation) : (a.push act).1 ∉ host :=
  fun own => Nat.lt_irrefl _ (parted.inside own)

theorem push (parted : Parted host a) {act : Activation} (none : act.attributes = .empty) :
    Parted host (a.push act).2 where
  inside own := (keeps_push a act).contains (parted.inside own)
  arguments own := by
    rw [(keeps_push a act).arguments (parted.inside own)]
    exact parted.arguments own
  attributes other := by
    rw [get_push]
    split
    · exact none
    · exact parted.attributes other

theorem push_own (parted : Parted host a) {act : Activation} (attributes : act.attributes = .empty)
    (arguments : act.arguments = .empty) : Parted ((a.push act).1 :: host) (a.push act).2 where
  inside {h} own := by
    rcases List.mem_cons.1 own with rfl | own
    · exact (contains_push_iff a act).2 (.inl rfl)
    · exact (parted.push attributes).inside own
  arguments {h} own := by
    rcases List.mem_cons.1 own with rfl | own
    · rwa [get_push_self]
    · exact (parted.push attributes).arguments own
  attributes other := (parted.push attributes).attributes (List.not_mem_of_not_mem_cons other)

theorem setAttribute (parted : Parted host a) (own : h ∈ host) (name : String) (v : Value) :
    Parted host (a.setAttribute h name v) where
  inside member := (grows_setAttribute a h name v).contains (parted.inside member)
  arguments member := by
    rw [Arena.setAttribute, get_modify_eq]
    split <;> exact parted.arguments member
  attributes {x} other := by
    rw [Arena.setAttribute, get_modify_eq, if_neg]
    · exact parted.attributes other
    · rintro ⟨rfl, -⟩
      exact other own

theorem addAttribute (parted : Parted host a) (own : h ∈ host) (name : String) (v : Value) :
    Parted host (a.addAttribute h name v) := by
  unfold Arena.addAttribute
  split
  · exact parted
  · exact parted.setAttribute own name _

theorem setArgument (parted : Parted host a) (other : h ∉ host) (name : String) (v : Value) :
    Parted host (a.setArgument h name v) where
  inside member := (grows_setArgument a h name v).contains (parted.inside member)
  arguments {x} member := by
    rw [get_setArgument, if_neg]
    · exact parted.arguments member
    · rintro ⟨rfl, -⟩
      exact other member
  attributes outside := by
    rw [get_setArgument]
    split <;> exact parted.attributes outside

theorem setEnclosing (parted : Parted host a) (h : Handle) (e? : Option Handle) :
    Parted host (a.setEnclosing h e?) where
  inside member := (keeps_setEnclosing a h e?).contains (parted.inside member)
  arguments member := by
    rw [get_setEnclosing]
    split <;> exact parted.arguments member
  attributes other := by
    rw [get_setEnclosing]
    split <;> exact parted.attributes other

/-- A render that a host begins. It binds arguments of instances that are not the host's. -/
def invariant (host : List Handle) : Invariant where
  Holds a _ := a.Parted host
  Made h := h ∉ host

theorem lawful (setting : Setting) (host : List Handle) : (invariant host).Lawful setting where
  report holds _ := holds
  embed _ holds _ := ⟨holds.push rfl, holds.next_not_mem _⟩
  arguments holds _ _ := holds.push rfl
  argument name holds made _ := holds.setArgument made name _
  enclose holds _ _ := holds.setEnclosing _ _
  tooDeep := trivial
  full := trivial
  recursion _ _ := trivial

theorem render (parted : Parted host a) (setting : Setting) (depth : Nat) (root : Handle)
    (w : Writer) : Parted host (setting.renderWithin depth a root w).arena := by
  obtain ⟨⟨_, left⟩, -⟩ := (lawful setting host).render (fun _ => trivial) depth a root w parted
  exact left

end Parted
end Arena

theorem Hosted.parted {host : List Handle} {a : Arena} (hosted : Hosted host a) :
    a.Parted host := by
  induction hosted with
  | empty => exact .empty
  | instantiate t _ ih => exact ih.push_own rfl rfl
  | embed e t _ ih => exact ih.push_own rfl rfl
  | setAttribute name v _ own ih => exact ih.setAttribute own name v
  | addAttribute name v _ own ih => exact ih.addAttribute own name v
  | setEnclosing h e? _ ih => exact ih.setEnclosing h e?
  | render setting depth root w _ ih => exact ih.render setting depth root w
  | call caller t _ ih => exact ih.push rfl
  | scope caller h _ ih => exact ih.push rfl
  | bind name v _ other ih => exact ih.setArgument other name v

/-- A property of a template value is what its name stands for within the instance. -/
theorem Hosted.property_eq_lookup {host : List Handle} {a : Arena} (hosted : Hosted host a)
    (h : Handle) (name : String) :
    a.property (.template h) name = (a.get h).lookup name ∧
      ((a.get h).attributes = .empty ∨ (a.get h).arguments = .empty) := by
  have apart := hosted.parted.apart h
  exact ⟨Activation.property_eq_lookup_of_empty apart name, apart⟩

/-- The argument of an instance that a render has made of an inline template. -/
theorem inline_argument_found :
    let a := (Setting.standard.renderWithin 8 Footprint.page ⟨1⟩ (.fresh .autoIndent)).arena
    Hosted [⟨1⟩, ⟨0⟩] a ∧ a.property (.template ⟨2⟩) "y" = (a.get ⟨2⟩).lookup "y" ∧
      (a.get ⟨2⟩).arguments.find? "y" = some (.text "cd") := by
  intro a
  have page : Hosted [⟨1⟩, ⟨0⟩] Footprint.page :=
    .setAttribute "x" _ (.instantiate _ (.instantiate _ .empty)) (by decide)
  have hosted : Hosted [⟨1⟩, ⟨0⟩] a := .render _ _ _ _ page
  obtain ⟨same, -⟩ := hosted.property_eq_lookup ⟨2⟩ "y"
  exact ⟨hosted, same, by rfl⟩

end Stencil
