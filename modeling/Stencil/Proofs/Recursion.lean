import Mathlib.Data.List.Chain
import Stencil.Proofs.Closed
/-!
# Activations that enclose themselves

The enclosing chain of an activation is the walk along its links, cut off at the size of the arena.
An activation that encloses itself comes up in its own chain before the chain is cut off, and what
stands before it there is the circle that its links run in. The trace names the instances of this
circle, each as the one that directly encloses the next.
-/
namespace Stencil
namespace Arena

variable {a : Arena} {h x y z : Handle} {l l' : List Handle}

/-- `outer` directly encloses the second handle, but for scopes of arguments between the two. -/
inductive Surrounds (a : Arena) (outer : Handle) : Handle → Prop
  | link {inner : Handle} : a.Link inner outer → Surrounds a outer inner
  | skip {inner between : Handle} :
    a.Link inner between → (a.get between).kind = .arguments → Surrounds a outer between →
    Surrounds a outer inner

/-- The links of `h` lead to the second handle and from there back to `h`. -/
structure OnCycle (a : Arena) (h x : Handle) : Prop where
  out : Relation.TransGen a.Link h x
  back : Relation.TransGen a.Link x h

/-! ## Walks as lists -/

theorem Link.unique (first : a.Link x y) (second : a.Link x z) : y = z :=
  Option.some.inj (first.symm.trans second)

theorem length_chainFrom_le (a : Arena) (n : Nat) (from? : Option Handle) :
    (a.chainFrom n from?).length ≤ n := by
  induction n generalizing from? with
  | zero => exact Nat.le_refl 0
  | succ n ih =>
    cases from? with
    | none => exact Nat.zero_le _
    | some h => exact Nat.succ_le_succ (ih _)

/-- Each handle of a walk is linked to the next one. -/
theorem isChain_chainFrom (n : Nat) {from? : Option Handle}
    (begins : ∀ e, from? = some e → a.Link h e) : (h :: a.chainFrom n from?).IsChain a.Link := by
  induction n generalizing h from? with
  | zero => exact .singleton h
  | succ n ih =>
    cases from? with
    | none => exact .singleton h
    | some e => exact .cons_cons (begins e rfl) (ih fun _ link => link)

theorem isChain_enclosingChain (a : Arena) (h : Handle) :
    (h :: a.enclosingChain h).IsChain a.Link :=
  isChain_chainFrom a.size fun _ link => link

/-- Links are deterministic, so there is one way only from a handle to where another one is first
met. -/
theorem way_unique (way : (x :: l ++ [y]).IsChain a.Link) (way' : (x :: l' ++ [y]).IsChain a.Link)
    (first : y ∉ l) (first' : y ∉ l') : l = l' := by
  induction l generalizing x l' with
  | nil =>
    obtain ⟨link, -⟩ := List.isChain_cons_cons.1 way
    cases l' with
    | nil => rfl
    | cons z l' =>
      obtain ⟨link', -⟩ := List.isChain_cons_cons.1 way'
      exact absurd (link.unique link' ▸ List.mem_cons_self) first'
  | cons z l ih =>
    obtain ⟨link, way⟩ := List.isChain_cons_cons.1 way
    cases l' with
    | nil =>
      obtain ⟨link', -⟩ := List.isChain_cons_cons.1 way'
      exact absurd (link'.unique link ▸ List.mem_cons_self) first
    | cons z' l' =>
      obtain ⟨link', way'⟩ := List.isChain_cons_cons.1 way'
      obtain rfl := link.unique link'
      rw [ih way way' (fun member => first (List.mem_cons_of_mem z member))
        fun member => first' (List.mem_cons_of_mem z member)]

/-- No handle comes twice on the way to where another one is first met: the rest of the way would be
the same both times. -/
theorem nodup_of_way (way : (l ++ [y]).IsChain a.Link) (first : y ∉ l) : l.Nodup := by
  induction l with
  | nil => exact .nil
  | cons x l ih =>
    have tail : (l ++ [y]).IsChain a.Link := (List.isChain_cons.1 way).2
    have later : y ∉ l := fun member => first (List.mem_cons_of_mem x member)
    refine List.nodup_cons.2 ⟨fun again => ?_, ih tail later⟩
    obtain ⟨before, after, rfl⟩ := List.append_of_mem again
    have rest : (x :: after ++ [y]).IsChain a.Link := by
      rw [List.append_assoc] at tail
      exact (List.isChain_split.1 tail).2
    have same := way_unique way rest later fun member =>
      later (List.mem_append_right _ (List.mem_cons_of_mem x member))
    have lengths := congrArg List.length same
    simp only [List.length_append, List.length_cons] at lengths
    omega

theorem mem_of_link (way : (l ++ [y]).IsChain a.Link) (member : x ∈ l) (link : a.Link x z) :
    z ∈ l ++ [y] := by
  induction l with
  | nil => cases member
  | cons w l ih =>
    obtain ⟨step, tail⟩ := List.isChain_cons.1 way
    rcases List.mem_cons.1 member with rfl | member
    · obtain ⟨next, rest, split⟩ := List.exists_cons_of_ne_nil (l := l ++ [y]) (by simp)
      have link' : a.Link x next := step next (by simp [split])
      obtain rfl := link.unique link'
      have here : z ∈ l ++ [y] := by
        rw [split]
        exact List.mem_cons_self
      exact List.mem_cons_of_mem x here
    · exact List.mem_cons_of_mem w (ih tail member)

/-! ## Circles -/

/-- The handles that a circle of links from `h` to itself passes in between. -/
structure Circle (a : Arena) (h : Handle) (l : List Handle) : Prop where
  way : (h :: l ++ [h]).IsChain a.Link
  first : h ∉ l

theorem Circle.nodup (circle : a.Circle h l) : l.Nodup :=
  nodup_of_way (List.isChain_cons.1 circle.way).2 circle.first

/-- Links that have run into a circle never leave it. -/
theorem Circle.mem_of_reaches (circle : a.Circle h l) (reached : a.Reaches h x) : x ∈ h :: l := by
  induction reached with
  | refl => exact List.mem_cons_self
  | tail _ link ih =>
    have next := mem_of_link circle.way ih link
    rcases List.mem_append.1 next with member | last
    · exact member
    · exact List.mem_singleton.1 last ▸ List.mem_cons_self

theorem Circle.mem_iff (circle : a.Circle h l) : x ∈ l ↔ x ≠ h ∧ a.OnCycle h x := by
  constructor
  · intro member
    have steps : (h :: l ++ [h]).IsChain (Relation.TransGen a.Link) :=
      circle.way.imp fun _ _ => .single
    have ordered := List.isChain_iff_pairwise.1 steps
    rw [List.cons_append, List.pairwise_cons, List.pairwise_append] at ordered
    exact ⟨fun same => circle.first (same ▸ member),
      ordered.1 x (List.mem_append_left _ member), ordered.2.2.2 x member h List.mem_cons_self⟩
  · rintro ⟨other, cycle⟩
    exact (List.mem_cons.1 (circle.mem_of_reaches cycle.out.to_reflTransGen)).resolve_left other

/-- Where the scopes of arguments are left out of a way, each handle is directly enclosed by the next
one that is left. -/
theorem isChain_filter_surrounds (way : (x :: l ++ [y]).IsChain a.Link) :
    (x :: l.filter (fun w => (a.get w).kind = .template) ++ [y]).IsChain
      fun inner outer => a.Surrounds outer inner := by
  induction l generalizing x with
  | nil =>
    obtain ⟨link, -⟩ := List.isChain_cons_cons.1 way
    exact .cons_cons (.link link) (.singleton y)
  | cons z l ih =>
    obtain ⟨link, way⟩ := List.isChain_cons_cons.1 way
    have others := ih way
    cases kind : (a.get z).kind with
    | template =>
      rw [List.filter_cons_of_pos (by simp [kind])]
      exact .cons_cons (.link link) others
    | arguments =>
      rw [List.filter_cons_of_neg (by simp [kind])]
      obtain ⟨next, tail⟩ := List.isChain_cons.1 others
      exact List.isChain_cons.2 ⟨fun w head => .skip link kind (next w head), tail⟩

/-- The chain of an activation that encloses itself runs around the circle before it is cut off. -/
theorem circle_takeWhile (enclosed : a.isSelfEnclosed h = true) :
    a.Circle h ((a.enclosingChain h).takeWhile (· ≠ h)) := by
  have found : h ∈ a.enclosingChain h := List.contains_iff_mem.1 enclosed
  obtain ⟨around, rest, split, first⟩ := List.eq_append_cons_of_mem found
  have around_eq : (a.enclosingChain h).takeWhile (· ≠ h) = around := by
    rw [split, List.takeWhile_append_of_pos, List.takeWhile_cons_of_neg (by simp), List.append_nil]
    intro x member
    have other : x ≠ h := fun same => first (same ▸ member)
    simpa using other
  rw [around_eq]
  have chain := isChain_enclosingChain a h
  rw [split, ← List.cons_append] at chain
  exact ⟨(List.isChain_split.1 chain).1, first⟩

end Arena

open Arena in
/-- An activation is found to enclose itself exactly if one or more links lead from it back to it, in
an arena of any shape. The chain that this is read from always ends, follows the links, and has all
that encloses the activation. The trace of an activation that encloses itself names it first and
last, and between them the instances of its circle, each once and each directly enclosed by the one
before. -/
theorem self_enclosing_found {a : Arena} (inside : a.LinksInside) (h : Handle) :
    (a.isSelfEnclosed h = true ↔ Relation.TransGen a.Link h h) ∧
    ((a.enclosingChain h).length ≤ a.size ∧ (h :: a.enclosingChain h).IsChain a.Link ∧
      ∀ x, x ∈ a.enclosingChain h ↔ Relation.TransGen a.Link h x) ∧
    (a.isSelfEnclosed h = true → ∃ between : List Handle,
      a.trace h = (h :: between ++ [h]).map (fun x => (a.get x).name) ∧
      between.Nodup ∧
      (∀ x, x ∈ between ↔ x ≠ h ∧ a.OnCycle h x ∧ (a.get x).kind = .template) ∧
      (h :: between ++ [h]).IsChain a.Surrounds) := by
  refine ⟨isSelfEnclosed_iff inside, ⟨length_chainFrom_le a a.size _, isChain_enclosingChain a h,
    fun x => mem_enclosingChain_iff inside⟩, fun enclosed => ?_⟩
  have circle := circle_takeWhile enclosed
  let around := (a.enclosingChain h).takeWhile (· ≠ h)
  let templates := around.filter fun x => (a.get x).kind = .template
  refine ⟨templates.reverse, ?_, ?_, fun x => ?_, ?_⟩
  · simp [trace, templates, around]
  · exact List.nodup_reverse.2 (circle.nodup.filter _)
  · rw [List.mem_reverse, List.mem_filter, circle.mem_iff, decide_eq_true_iff, and_assoc]
  · have outwards := isChain_filter_surrounds circle.way
    rw [← List.isChain_reverse] at outwards
    simpa [templates, around] using outwards

/-- Two instances that enclose each other, the outer one through the scope of a call's arguments, and
a third inside them. -/
def Arena.entangled : Arena :=
  let outer := (Arena.empty.instantiate (.plain "outer" [])).2
  let scope := (outer.argumentScope ⟨0⟩ .empty).2
  let inner := (scope.embed ⟨1⟩ (.plain "inner" [])).2
  ((inner.embed ⟨2⟩ (.plain "innermost" [])).2).setEnclosing ⟨0⟩ (some ⟨2⟩)

/-- The circle is found from within, and the trace names the one other instance of it. The third
instance is linked to the circle and is not part of it. -/
theorem entangled_instances_found :
    Arena.entangled.isSelfEnclosed ⟨2⟩ = true ∧
      Relation.TransGen Arena.entangled.Link ⟨2⟩ ⟨2⟩ ∧
      ¬ Relation.TransGen Arena.entangled.Link ⟨3⟩ ⟨3⟩ ∧
      Arena.entangled.trace ⟨2⟩ = ["inner", "outer", "inner"] ∧
      Arena.entangled.Surrounds ⟨2⟩ ⟨0⟩ ∧ Arena.entangled.Surrounds ⟨0⟩ ⟨2⟩ := by
  have outer : (Arena.empty.instantiate (.plain "outer" [])).2.InRange :=
    Arena.closed_empty.instantiate _
  have scope := outer.argumentScope (e := ⟨0⟩) (by decide) ⟨0⟩
  have inner := scope.embed (e := ⟨1⟩) (by decide) (.plain "inner" [])
  have innermost := inner.embed (e := ⟨2⟩) (by decide) (.plain "innermost" [])
  have closed : Arena.entangled.InRange :=
    innermost.setEnclosing (h := ⟨0⟩) trivial fun e same => by
      cases same
      decide
  have enclosed : Arena.entangled.isSelfEnclosed ⟨2⟩ = true := by decide
  have free : ¬ Arena.entangled.isSelfEnclosed ⟨3⟩ = true := by decide
  have traced : Arena.entangled.trace ⟨2⟩ = ["inner", "outer", "inner"] := by decide
  obtain ⟨found, -, named⟩ := self_enclosing_found closed.links ⟨2⟩
  obtain ⟨unfound, -, -⟩ := self_enclosing_found closed.links ⟨3⟩
  obtain ⟨between, names, -, members, surrounded⟩ := named enclosed
  have single : between.length = 1 := by
    have lengths := congrArg List.length (traced.symm.trans names)
    simpa using lengths.symm
  obtain ⟨x, rfl⟩ := List.length_eq_one_iff.1 single
  have called : Arena.entangled.Link ⟨2⟩ ⟨1⟩ := rfl
  have cycle : Arena.entangled.OnCycle ⟨2⟩ ⟨0⟩ := ⟨.head called (.single rfl), .single rfl⟩
  have outer_between := (members ⟨0⟩).2 ⟨by decide, cycle, rfl⟩
  obtain rfl := List.mem_singleton.1 outer_between
  obtain ⟨around, rest⟩ := List.isChain_cons_cons.1 surrounded
  obtain ⟨within, -⟩ := List.isChain_cons_cons.1 rest
  exact ⟨enclosed, found.1 enclosed, fun path => free (unfound.2 path), traced, around, within⟩

end Stencil
