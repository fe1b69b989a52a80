import Mathlib.Data.Fintype.Card
import Mathlib.Logic.Relation
import Stencil.Arena
/-!
# Enclosing links

The handles that a scope reaches along its enclosing links. An arena is finite, so a walk gets to a
handle within as many links as there are activations, or never: the enclosing chain has everything
that encloses a scope, although it is cut off, and a handle that encloses itself is found there.

A frame says that nothing on the way outwards from a scope was linked anew.
-/
namespace Stencil
namespace Arena

variable {a b : Arena} {c h x : Handle}

/-! ## The activations after a change -/

theorem get_eq_default (outside : ¬ a.contains h) : a.get h = default := by
  have bound : a.slots.size ≤ h.index := Nat.le_of_not_lt outside
  simp [get, bound]

theorem get_modify_eq (a : Arena) (h : Handle) (f : Activation → Activation) (x : Handle) :
    (a.modify h f).get x = if x = h ∧ a.contains h then f (a.get x) else a.get x := by
  by_cases inside : a.contains h
  · rw [get_modify inside f x]
    by_cases same : x = h
    · subst same
      simp [inside]
    · simp [same]
  · have bound : a.slots.size ≤ h.index := Nat.le_of_not_lt inside
    have unchanged : a.slots.modify h.index f = a.slots := by
      apply Array.ext
      · simp
      · intro i inBefore inAfter
        have other : h.index ≠ i := by omega
        simp [Array.getElem_modify, other]
    simp [get, modify, unchanged, inside]

theorem get_setEnclosing (a : Arena) (h : Handle) (e : Option Handle) (x : Handle) :
    (a.setEnclosing h e).get x =
      if x = h ∧ a.contains h then { a.get x with enclosing? := e } else a.get x :=
  get_modify_eq a h _ x

theorem get_setArgument (a : Arena) (h : Handle) (name : String) (v : Value) (x : Handle) :
    (a.setArgument h name v).get x =
      if x = h ∧ a.contains h then
        { a.get x with arguments := (a.get x).arguments.insert name v }
      else a.get x :=
  get_modify_eq a h _ x

theorem get_push (a : Arena) (act : Activation) (x : Handle) :
    (a.push act).2.get x = if x = (a.push act).1 then act else a.get x := by
  by_cases new : x = (a.push act).1
  · rw [if_pos new, new, get_push_self]
  · rw [if_neg new]
    by_cases inside : a.contains x
    · exact get_push_of_contains inside act
    · have beyond : ¬ (a.push act).2.contains x := by
        intro within
        have bound : x.index < a.size + 1 := by simpa [contains] using within
        have atEnd : x.index = a.size := by
          have := Nat.le_of_not_lt inside
          omega
        exact new (by cases x; simp_all [push])
      rw [get_eq_default inside, get_eq_default beyond]

@[simp] theorem push_index (a : Arena) (act : Activation) : (a.push act).1.index = a.size := rfl

@[simp] theorem size_setEnclosing (a : Arena) (h : Handle) (e : Option Handle) :
    (a.setEnclosing h e).size = a.size := size_modify a h _

theorem contains_of_size_le (le : a.size ≤ b.size) (inside : a.contains h) : b.contains h :=
  Nat.lt_of_lt_of_le inside le

/-! ## Walks along the links -/

/-- The first handle is directly enclosed by the second. -/
def Link (a : Arena) (x y : Handle) : Prop := (a.get x).enclosing? = some y

theorem link_push (a : Arena) {act : Activation} (encloses : act.enclosing? = some c) :
    (a.push act).2.Link (a.push act).1 c := by
  rw [Link, get_push_self, encloses]

theorem link_setEnclosing (within : a.contains h) : (a.setEnclosing h (some c)).Link h c := by
  rw [Link, get_setEnclosing, if_pos ⟨rfl, within⟩]

/-- The second handle is the first or encloses it, directly or not. -/
abbrev Reaches (a : Arena) : Handle → Handle → Prop := Relation.ReflTransGen a.Link

/-- No link leads out of the arena. -/
def LinksInside (a : Arena) : Prop := ∀ x y, a.Link x y → a.contains y

/-- The handle that `n` links lead to. -/
def ancestor? (a : Arena) : Nat → Handle → Option Handle
  | 0, h => some h
  | n + 1, h => (a.get h).enclosing?.bind (ancestor? a n)

theorem ancestor?_add (a : Arena) (m n : Nat) (h : Handle) :
    a.ancestor? (m + n) h = (a.ancestor? m h).bind (a.ancestor? n) := by
  induction m generalizing h with
  | zero => simp [ancestor?]
  | succ m ih =>
    rw [Nat.succ_add]
    simp only [ancestor?, Option.bind_assoc]
    exact congrArg _ (funext ih)

theorem mem_chainFrom_iff (n : Nat) (from? : Option Handle) :
    x ∈ a.chainFrom n from? ↔ ∃ k < n, from?.bind (a.ancestor? k) = some x := by
  induction n generalizing from? with
  | zero => simp [chainFrom]
  | succ n ih =>
    cases from? with
    | none => simp [chainFrom]
    | some h =>
      simp only [chainFrom, List.mem_cons, ih, Option.bind_some]
      constructor
      · rintro (rfl | ⟨k, lt, found⟩)
        · exact ⟨0, by omega, rfl⟩
        · exact ⟨k + 1, by omega, found⟩
      · rintro ⟨k, lt, found⟩
        cases k with
        | zero => exact Or.inl (Option.some.inj found).symm
        | succ k => exact Or.inr ⟨k, by omega, found⟩

theorem transGen_iff : Relation.TransGen a.Link h x ↔ ∃ k, a.ancestor? (k + 1) h = some x := by
  constructor
  · intro path
    induction path with
    | single link => exact ⟨0, by rw [ancestor?, link]; rfl⟩
    | tail path link ih =>
      obtain ⟨k, walked⟩ := ih
      refine ⟨k + 1, ?_⟩
      rw [ancestor?_add a (k + 1) 1, walked]
      simp only [Option.bind_some, ancestor?]
      rw [link]
      rfl
  · rintro ⟨k, walked⟩
    induction k generalizing h with
    | zero =>
      simp only [ancestor?, Option.bind_eq_some_iff, Option.some.injEq] at walked
      obtain ⟨y, link, rfl⟩ := walked
      exact .single link
    | succ k ih =>
      rw [ancestor?, Option.bind_eq_some_iff] at walked
      obtain ⟨y, link, walked⟩ := walked
      exact .head link (ih walked)

theorem contains_of_ancestor? (inside : a.LinksInside) {k : Nat}
    (walked : a.ancestor? (k + 1) h = some x) : a.contains x := by
  rw [ancestor?_add a k 1, Option.bind_eq_some_iff] at walked
  obtain ⟨y, -, last⟩ := walked
  simp only [ancestor?, Option.bind_eq_some_iff, Option.some.injEq] at last
  obtain ⟨z, link, rfl⟩ := last
  exact inside y z link

/-- Of the handles on a shortest way no two are the same, so the arena has at least as many. -/
theorem shortest_way_le_size (inside : a.LinksInside) {n : Nat}
    (way : a.ancestor? (n + 1) h = some x)
    (shortest : ∀ m < n, a.ancestor? (m + 1) h ≠ some x) : n + 1 ≤ a.size := by
  have defined (i : Nat) (le : i ≤ n) : ∃ y, a.ancestor? (i + 1) h = some y := by
    have split := ancestor?_add a (i + 1) (n - i) h
    rw [show i + 1 + (n - i) = n + 1 by omega, way] at split
    obtain ⟨y, walked, -⟩ := Option.bind_eq_some_iff.1 split.symm
    exact ⟨y, walked⟩
  choose node walked using fun i : Fin (n + 1) => defined i (Nat.le_of_lt_succ i.isLt)
  -- From two equal handles the rest of the way is the same, so the part between can be left out.
  have distinct (i j : Fin (n + 1)) (same : node i = node j) : ¬ i.val < j.val := by
    intro lt
    have bound := j.isLt
    refine shortest (i + (n - j)) (by omega) ?_
    calc a.ancestor? (i + (n - j) + 1) h
        = (a.ancestor? (i + 1) h).bind (a.ancestor? (n - j)) := by
          rw [show i.val + (n - j) + 1 = i + 1 + (n - j) by omega, ancestor?_add]
      _ = (a.ancestor? (j + 1) h).bind (a.ancestor? (n - j)) := by rw [walked, walked, same]
      _ = some x := by rw [← ancestor?_add, show j.val + 1 + (n - j) = n + 1 by omega, way]
  let slot (i : Fin (n + 1)) : Fin a.size :=
    ⟨(node i).index, contains_of_ancestor? inside (walked i)⟩
  have injective : Function.Injective slot := by
    intro i j same
    have equal : node i = node j := by
      have index := Fin.mk.inj same
      cases hi : node i
      cases hj : node j
      simp_all
    have first := distinct i j equal
    have second := distinct j i equal.symm
    exact Fin.ext (by omega)
  simpa using Fintype.card_le_of_injective slot injective

/-- The enclosing chain is what links lead to, although it is cut off. -/
theorem mem_enclosingChain_iff (inside : a.LinksInside) :
    x ∈ a.enclosingChain h ↔ Relation.TransGen a.Link h x := by
  rw [transGen_iff, enclosingChain, mem_chainFrom_iff]
  constructor
  · rintro ⟨k, -, walked⟩
    exact ⟨k, walked⟩
  · intro way
    classical
    have shortest : ∀ m < Nat.find way, a.ancestor? (m + 1) h ≠ some x :=
      fun m lt => Nat.find_min way lt
    have bound := shortest_way_le_size inside (Nat.find_spec way) shortest
    exact ⟨Nat.find way, by omega, Nat.find_spec way⟩

/-- An activation is found in its own enclosing chain exactly if links lead from it back to it. -/
theorem isSelfEnclosed_iff (inside : a.LinksInside) :
    a.isSelfEnclosed h = true ↔ Relation.TransGen a.Link h h := by
  rw [isSelfEnclosed, List.contains_iff_mem, mem_enclosingChain_iff inside]

theorem contains_of_reaches (inside : a.LinksInside) (scope : a.contains c)
    (reached : a.Reaches c x) : a.contains x := by
  induction reached with
  | refl => exact scope
  | tail _ link _ => exact inside _ _ link

/-! ## Frames -/

/-- Every handle on the way outwards from `c` keeps its link. -/
def Frame (c : Handle) (a b : Arena) : Prop :=
  ∀ x, a.Reaches c x → (b.get x).enclosing? = (a.get x).enclosing?

namespace Frame

variable {a₁ a₂ : Arena}

theorem refl (c : Handle) (a : Arena) : Frame c a a := fun _ _ => rfl

theorem reaches_iff (frame : Frame c a b) : b.Reaches c x ↔ a.Reaches c x := by
  constructor
  · intro reached
    induction reached with
    | refl => exact .refl
    | tail _ link ih => exact ih.tail ((frame _ ih).symm.trans link)
  · intro reached
    induction reached with
    | refl => exact .refl
    | tail before link ih => exact ih.tail ((frame _ before).trans link)

theorem trans (first : Frame c a a₁) (second : Frame c a₁ a₂) : Frame c a a₂ :=
  fun x reached => (second x (first.reaches_iff.2 reached)).trans (first x reached)

/-- What is reached from an activation that `c` encloses. -/
theorem reaches_inner_iff (frame : Frame c a a₁) (link : a₁.Link h c) :
    a₁.Reaches h x ↔ x = h ∨ a.Reaches c x := by
  rw [← frame.reaches_iff]
  constructor
  · intro reached
    rcases Relation.ReflTransGen.cases_head reached with same | ⟨y, step, reached⟩
    · exact Or.inl same.symm
    · obtain rfl := Option.some.inj (link.symm.trans step)
      exact Or.inr reached
  · rintro (rfl | reached)
    · exact .refl
    · exact .head link reached

/-- A frame around an inner scope is one around the scope that encloses it. -/
theorem of_inner (frame : Frame c a a₁) (link : a₁.Link h c) (inner : Frame h a₁ a₂) :
    Frame c a a₂ :=
  fun x reached =>
    (inner x ((reaches_inner_iff frame link).2 (Or.inr reached))).trans (frame x reached)

/-- A walk from somewhere on the way outwards from `c` is the same. -/
theorem chainFrom_eq (frame : Frame c a b) (n : Nat) {from? : Option Handle}
    (reached : ∀ e, from? = some e → a.Reaches c e) :
    b.chainFrom n from? = a.chainFrom n from? := by
  induction n generalizing from? with
  | zero => rfl
  | succ n ih =>
    cases from? with
    | none => rfl
    | some x =>
      have here := reached x rfl
      rw [chainFrom, chainFrom, frame x here, ih fun e link => here.tail link]

end Frame

/-- The arenas are the same to whoever follows links, and asks for the groups and the names of the
activations on the way. -/
structure SameLinks (a b : Arena) : Prop where
  size : a.size = b.size
  enclosing (x : Handle) : (a.get x).enclosing? = (b.get x).enclosing?
  kind (x : Handle) : (a.get x).kind = (b.get x).kind
  name (x : Handle) : (a.get x).name = (b.get x).name
  group (x : Handle) : (a.get x).template.group = (b.get x).template.group

namespace SameLinks

variable (same : SameLinks a b) (h : Handle)
include same

theorem frame : Frame h a b := fun x _ => (same.enclosing x).symm

/-- Two arenas that differ in no links keep the same ones. -/
theorem frame_of_frame {a₁ b₁ : Arena} (same₁ : SameLinks a₁ b₁) (kept : Frame h a a₁) :
    Frame h b b₁ := by
  intro x reached
  rw [← same₁.enclosing, ← same.enclosing]
  exact kept x ((same.frame h).reaches_iff.1 reached)

theorem enclosingChain_eq : a.enclosingChain h = b.enclosingChain h := by
  have frame := same.frame h
  rw [enclosingChain, enclosingChain, same.size, ← same.enclosing,
    frame.chainFrom_eq _ fun e link => .single link]

theorem isSelfEnclosed_eq : a.isSelfEnclosed h = b.isSelfEnclosed h := by
  rw [isSelfEnclosed, isSelfEnclosed, same.enclosingChain_eq]

theorem groupOf_eq : a.groupOf h = b.groupOf h := by
  simp only [groupOf, same.enclosingChain_eq, same.group]

theorem trace_eq : a.trace h = b.trace h := by
  simp only [trace, same.enclosingChain_eq, same.name, same.kind]

end SameLinks

/-- A way to `h` does not depend on the link of `h` itself: it can end when it first meets `h`. -/
theorem reaches_of_links_eq (same : ∀ x, x ≠ h → (b.get x).enclosing? = (a.get x).enclosing?)
    (path : a.Reaches c h) : b.Reaches c h := by
  induction path using Relation.ReflTransGen.head_induction_on with
  | refl => exact .refl
  | @head x y step _ ih =>
    by_cases met : x = h
    · exact met ▸ .refl
    · exact .head ((same x met).trans step) ih

theorem LinksInside.setEnclosing (inside : a.LinksInside) (h : Handle) (scope : a.contains c) :
    (a.setEnclosing h (some c)).LinksInside := by
  intro x y step
  refine contains_of_size_le (Nat.le_of_eq (size_setEnclosing a h (some c)).symm) ?_
  rw [Link, get_setEnclosing] at step
  split at step
  · exact Option.some.inj step ▸ scope
  · exact inside x y step

/-- Once `c` encloses it, an activation encloses itself exactly if it enclosed `c` before. -/
theorem isSelfEnclosed_setEnclosing_iff (inside : a.LinksInside) (scope : a.contains c)
    (within : a.contains h) :
    (a.setEnclosing h (some c)).isSelfEnclosed h = true ↔ a.Reaches c h := by
  have others (x : Handle) (other : x ≠ h) :
      ((a.setEnclosing h (some c)).get x).enclosing? = (a.get x).enclosing? := by
    rw [get_setEnclosing, if_neg fun hit => other hit.1]
  have link : (a.setEnclosing h (some c)).Link h c := link_setEnclosing within
  rw [isSelfEnclosed_iff (inside.setEnclosing h scope), Relation.TransGen.head'_iff]
  constructor
  · rintro ⟨y, step, path⟩
    obtain rfl := Option.some.inj (link.symm.trans step)
    exact reaches_of_links_eq (fun x other => (others x other).symm) path
  · intro path
    exact ⟨c, link, reaches_of_links_eq others path⟩

/-- An activation that does not enclose `c` can be put inside it without a change around `c`. -/
theorem frame_setEnclosing (apart : ¬ a.Reaches c h) (e : Option Handle) :
    Frame c a (a.setEnclosing h e) := by
  intro x reached
  have other : x ≠ h := fun same => apart (same ▸ reached)
  rw [get_setEnclosing, if_neg fun hit => other hit.1]

/-- A new activation changes nothing around an older one. -/
theorem frame_push (inside : a.LinksInside) (scope : a.contains c) (act : Activation) :
    Frame c a (a.push act).2 := by
  intro x reached
  have old : a.contains x := contains_of_reaches inside scope reached
  rw [get_push_of_contains old]

theorem frame_setArgument (c : Handle) (a : Arena) (h : Handle) (name : String) (v : Value) :
    Frame c a (a.setArgument h name v) := by
  intro x _
  rw [get_setArgument]
  split <;> rfl

end Arena
end Stencil
