import Mathlib.Data.List.TakeWhile
import Stencil.Proofs.Closed
import Stencil.Proofs.Pairing
/-!
# Arenas that differ by a gap

Two arenas of which the second has more activations between those that both began with and those
that have been added since. Its handles are those of the first, the newer ones moved up by the gap.
Links may differ, except around the scopes that are looked at.
-/
namespace Stencil

/-- Keeps the handles below `floor` and moves the others up by `gap`. -/
def Handle.shift (floor gap : Nat) (h : Handle) : Handle :=
  if h.index < floor then h else ⟨h.index + gap⟩

namespace Handle

variable {floor gap : Nat} {h x : Handle}

theorem shift_of_lt (below : h.index < floor) : h.shift floor gap = h := if_pos below

theorem index_shift (floor gap : Nat) (h : Handle) :
    (h.shift floor gap).index = if h.index < floor then h.index else h.index + gap := by
  unfold shift
  split <;> rfl

theorem shift_injective (floor gap : Nat) : Function.Injective (shift floor gap) := by
  intro h x same
  have indices := congrArg index same
  rw [index_shift, index_shift] at indices
  have equal : h.index = x.index := by
    split at indices <;> split at indices <;> omega
  cases h
  cases x
  exact congrArg mk equal

theorem shift_index_lt (lt : h.index < x.index) :
    (h.shift floor gap).index < (x.shift floor gap).index := by
  rw [index_shift, index_shift]
  split <;> split <;> omega

end Handle

namespace Activation

/-- The activations have the same template and kind, and corresponding values in their tables. -/
structure Corresponds (P : Handle → Handle → Prop) (act act' : Activation) : Prop where
  template : act'.template = act.template
  kind : act'.kind = act.kind
  attributes (name : String) :
    Option.Rel (Value.Paired P) (act.attributes.find? name) (act'.attributes.find? name)
  arguments (name : String) :
    Option.Rel (Value.Paired P) (act.arguments.find? name) (act'.arguments.find? name)

variable {P P' : Handle → Handle → Prop} {act act' : Activation}

theorem rel_mono {v? v'? : Option Value} (weaker : ∀ h h', P h h' → P' h h')
    (related : Option.Rel (Value.Paired P) v? v'?) : Option.Rel (Value.Paired P') v? v'? := by
  cases related with
  | none => exact .none
  | some paired => exact .some (paired.mono weaker)

theorem Corresponds.mono (corresponds : Corresponds P act act')
    (weaker : ∀ h h', P h h' → P' h h') : Corresponds P' act act' where
  template := corresponds.template
  kind := corresponds.kind
  attributes name := rel_mono weaker (corresponds.attributes name)
  arguments name := rel_mono weaker (corresponds.arguments name)

theorem rel_orElse {v? v'? w? w'? : Option Value} (first : Option.Rel (Value.Paired P) v? v'?)
    (second : Option.Rel (Value.Paired P) w? w'?) :
    Option.Rel (Value.Paired P) (v? <|> w?) (v'? <|> w'?) := by
  cases first with
  | none => simpa using second
  | some paired => exact .some paired

theorem Corresponds.lookup (corresponds : Corresponds P act act') (name : String) :
    Option.Rel (Value.Paired P) (act.lookup name) (act'.lookup name) :=
  rel_orElse (corresponds.arguments name) (corresponds.attributes name)

theorem Corresponds.property (corresponds : Corresponds P act act') (name : String) :
    Option.Rel (Value.Paired P) (act.property name) (act'.property name) :=
  rel_orElse (corresponds.attributes name) (corresponds.arguments name)

/-- Activations correspond whatever their links are. -/
theorem Corresponds.link (corresponds : Corresponds P act act') (e? e'? : Option Handle) :
    Corresponds P { act with enclosing? := e? } { act' with enclosing? := e'? } :=
  ⟨corresponds.template, corresponds.kind, corresponds.attributes, corresponds.arguments⟩

theorem Corresponds.insert (corresponds : Corresponds P act act') (name : String) {v v' : Value}
    (paired : Value.Paired P v v') :
    Corresponds P { act with arguments := act.arguments.insert name v }
      { act' with arguments := act'.arguments.insert name v' } where
  template := corresponds.template
  kind := corresponds.kind
  attributes := corresponds.attributes
  arguments other := by
    rw [Table.find?_insert, Table.find?_insert]
    split
    · exact .some paired
    · exact corresponds.arguments other

/-- An activation corresponds to itself if every handle that it stores stands for itself. -/
theorem corresponds_self (fixed : ∀ v, act.Stores v → ∀ h, v.Holds h → P h h)
    (template : act'.template = act.template) (kind : act'.kind = act.kind)
    (attributes : act'.attributes = act.attributes) (arguments : act'.arguments = act.arguments) :
    Corresponds P act act' where
  template := template
  kind := kind
  attributes name := by
    rw [attributes]
    cases found : act.attributes.find? name with
    | none => exact .none
    | some v => exact .some (.same (fixed v ⟨name, Or.inl found⟩))
  arguments name := by
    rw [arguments]
    cases found : act.arguments.find? name with
    | none => exact .none
    | some v => exact .some (.same (fixed v ⟨name, Or.inr found⟩))

end Activation

namespace Arena

variable {floor gap : Nat} {a b a₁ b₁ : Arena} {c h x y : Handle}

/-- Handles of instances that stand for each other. -/
def Twins (floor gap : Nat) (a : Arena) (h h' : Handle) : Prop :=
  h' = h.shift floor gap ∧ a.Knows IsInstance h

/-- The second arena has what the first one has, with a gap at `floor`. -/
structure Renamed (floor gap : Nat) (a b : Arena) : Prop where
  size : b.size = a.size + gap
  grown : floor ≤ a.size
  left : a.Closed IsInstance
  right : b.Closed IsInstance
  slots {x : Handle} : a.contains x →
    (a.get x).Corresponds (Twins floor gap a) (b.get (x.shift floor gap))

theorem Twins.grow {h' : Handle} (grows : Grows a a₁) (twins : Twins floor gap a h h') :
    Twins floor gap a₁ h h' :=
  ⟨twins.1, twins.2.grow grows⟩

namespace Renamed

theorem contains_shift (renamed : Renamed floor gap a b) (inside : a.contains x) :
    b.contains (x.shift floor gap) := by
  have lt : x.index < a.size := inside
  rw [contains, Handle.index_shift, renamed.size]
  split <;> omega

theorem knows_shift (renamed : Renamed floor gap a b) (knows : a.Knows IsInstance x) :
    b.Knows IsInstance (x.shift floor gap) where
  inside := renamed.contains_shift knows.inside
  kind := by
    rw [(renamed.slots knows.inside).kind]
    exact knows.kind

/-! ## Changes -/

theorem push_shift (renamed : Renamed floor gap a b) (act act' : Activation) :
    (b.push act').1 = (a.push act).1.shift floor gap := by
  have notBelow : ¬ a.size < floor := Nat.not_lt.2 renamed.grown
  simp [push, Handle.shift, renamed.size, notBelow]

theorem push (renamed : Renamed floor gap a b) {act act' : Activation}
    (corresponds : act.Corresponds (Twins floor gap a) act')
    (left : (a.push act).2.Closed IsInstance) (right : (b.push act').2.Closed IsInstance) :
    Renamed floor gap (a.push act).2 (b.push act').2 where
  size := by
    rw [size_push, size_push, renamed.size]
    omega
  grown := by
    have := renamed.grown
    rw [size_push]
    omega
  left := left
  right := right
  slots {x} inside := by
    have weaker (h h' : Handle) : Twins floor gap a h h' → Twins floor gap (a.push act).2 h h' :=
      Twins.grow
        (keeps_push a act).toGrows
    rw [get_push, get_push, renamed.push_shift act act']
    by_cases new : x = (a.push act).1
    · rw [if_pos new, if_pos (congrArg _ new)]
      exact corresponds.mono weaker
    · have old : a.contains x := by
        have lt : x.index < a.size + 1 := by simpa [contains] using inside
        have ne : x.index ≠ a.size := fun same => new (by cases x; exact congrArg Handle.mk same)
        exact Nat.lt_of_le_of_ne (Nat.le_of_lt_succ lt) ne
      rw [if_neg new, if_neg fun same => new (Handle.shift_injective floor gap same)]
      exact (renamed.slots old).mono weaker

theorem modify (renamed : Renamed floor gap a b) (inside : a.contains h)
    {f f' : Activation → Activation} (grows : Grows a (a.modify h f))
    (same : ∀ act act', act.Corresponds (Twins floor gap a) act' →
      (f act).Corresponds (Twins floor gap a) (f' act'))
    (left : (a.modify h f).Closed IsInstance)
    (right : (b.modify (h.shift floor gap) f').Closed IsInstance) :
    Renamed floor gap (a.modify h f) (b.modify (h.shift floor gap) f') where
  size := by
    rw [size_modify, size_modify, renamed.size]
  grown := by
    rw [size_modify]
    exact renamed.grown
  left := left
  right := right
  slots {x} within := by
    have old : a.contains x := by simpa [contains] using within
    have weaker (h h' : Handle) : Twins floor gap a h h' → Twins floor gap (a.modify _ f) h h' :=
      Twins.grow grows
    rw [get_modify_eq, get_modify_eq]
    by_cases hit : x = h
    · subst hit
      rw [if_pos ⟨rfl, inside⟩, if_pos ⟨rfl, renamed.contains_shift inside⟩]
      exact (same _ _ (renamed.slots old)).mono weaker
    · rw [if_neg fun both => hit both.1,
        if_neg fun both => hit (Handle.shift_injective floor gap both.1)]
      exact (renamed.slots old).mono weaker

theorem setEnclosing (renamed : Renamed floor gap a b) (knows : a.Knows IsInstance h)
    (inside : a.contains c) :
    Renamed floor gap (a.setEnclosing h (some c))
      (b.setEnclosing (h.shift floor gap) (some (c.shift floor gap))) := by
  refine renamed.modify knows.inside (keeps_setEnclosing a h _).toGrows
    (fun _ _ corresponds => corresponds.link _ _) ?_ ?_
  · exact renamed.left.setEnclosing knows.kind fun e same => Option.some.inj same ▸ inside
  · exact renamed.right.setEnclosing (renamed.knows_shift knows).kind fun e same =>
      Option.some.inj same ▸ renamed.contains_shift inside

end Renamed

/-! ## Links -/

/-- The links around a scope are the same up to the gap. -/
def LinksAlike (floor gap : Nat) (c : Handle) (a b : Arena) : Prop :=
  ∀ x, a.Reaches c x →
    (b.get (x.shift floor gap)).enclosing? = (a.get x).enclosing?.map (Handle.shift floor gap)

namespace LinksAlike

theorem reaches (alike : LinksAlike floor gap c a b) (reached : a.Reaches c x) :
    b.Reaches (c.shift floor gap) (x.shift floor gap) := by
  induction reached with
  | refl => exact .refl
  | @tail y z reached link ih =>
    refine ih.tail ?_
    rw [Link, alike y reached, link]
    rfl

theorem exists_of_reaches (alike : LinksAlike floor gap c a b)
    (reached : b.Reaches (c.shift floor gap) y) :
    ∃ x, y = x.shift floor gap ∧ a.Reaches c x := by
  induction reached with
  | refl => exact ⟨c, rfl, .refl⟩
  | @tail y z _ link ih =>
    obtain ⟨x, rfl, reached⟩ := ih
    rw [Link, alike x reached, Option.map_eq_some_iff] at link
    obtain ⟨e, step, rfl⟩ := link
    exact ⟨e, rfl, reached.tail step⟩

theorem reaches_shift_iff (alike : LinksAlike floor gap c a b) :
    b.Reaches (c.shift floor gap) (x.shift floor gap) ↔ a.Reaches c x := by
  constructor
  · intro reached
    obtain ⟨x', same, reached⟩ := alike.exists_of_reaches reached
    rwa [Handle.shift_injective floor gap same]
  · exact alike.reaches

theorem frame (alike : LinksAlike floor gap c a b) (left : Frame c a a₁)
    (right : Frame (c.shift floor gap) b b₁) : LinksAlike floor gap c a₁ b₁ := by
  intro x reached
  have before := left.reaches_iff.1 reached
  rw [right _ (alike.reaches before), alike x before, left x before]

/-- Once a scope encloses `h`, links are the same around `h` if they were around the scope, and stay
the same around anything else. -/
theorem setEnclosing (alike : LinksAlike floor gap c a b) (renamed : Renamed floor gap a b)
    (inside : a.contains h) (around : x = h ∨ LinksAlike floor gap x a b) :
    LinksAlike floor gap x (a.setEnclosing h (some c))
      (b.setEnclosing (h.shift floor gap) (some (c.shift floor gap))) := by
  have others {y : Handle} (other : y ≠ h) :
      ((a.setEnclosing h (some c)).get y).enclosing? = (a.get y).enclosing? := by
    rw [get_setEnclosing, if_neg fun hit => other hit.1]
  -- A way outwards goes on from `c` each time that it comes to `h`.
  have outwards {y : Handle} (reached : (a.setEnclosing h (some c)).Reaches x y) :
      y = h ∨ a.Reaches c y ∨ x ≠ h ∧ a.Reaches x y := by
    induction reached with
    | refl => exact (Classical.em (x = h)).imp_right fun other => Or.inr ⟨other, .refl⟩
    | @tail y z _ link ih =>
      by_cases back : y = h
      · subst back
        obtain rfl := Option.some.inj ((link_setEnclosing inside).symm.trans link)
        exact Or.inr (Or.inl .refl)
      · have step : a.Link y z := (others back).symm.trans link
        exact Or.inr ((ih.resolve_left back).imp (·.tail step) (And.imp_right (·.tail step)))
  intro y reached
  by_cases hit : y = h
  · subst hit
    rw [get_setEnclosing, get_setEnclosing, if_pos ⟨rfl, renamed.contains_shift inside⟩,
      if_pos ⟨rfl, inside⟩]
    rfl
  · rw [others hit, get_setEnclosing,
      if_neg fun both => hit (Handle.shift_injective floor gap both.1)]
    rcases (outwards reached).resolve_left hit with fromScope | ⟨other, fromStart⟩
    · exact alike y fromScope
    · exact around.resolve_left other y fromStart

/-- The links around the scope of a call's arguments are the same if those around the caller are. -/
theorem push (alike : LinksAlike floor gap c a b) (renamed : Renamed floor gap a b)
    (inside : a.contains c) {act act' : Activation} (link : act.enclosing? = some c)
    (link' : act'.enclosing? = some (c.shift floor gap)) :
    LinksAlike floor gap (a.push act).1 (a.push act).2 (b.push act').2 := by
  have frame : Frame c a (a.push act).2 := frame_push renamed.left.links inside act
  have frame' : Frame (c.shift floor gap) b (b.push act').2 :=
    frame_push renamed.right.links (renamed.contains_shift inside) act'
  intro x reached
  rcases (frame.reaches_inner_iff (link_push a link)).1 reached with rfl | reached
  · rw [← renamed.push_shift act act', get_push_self, get_push_self, link, link']
    rfl
  · exact alike.frame frame frame' x (frame.reaches_iff.2 reached)

theorem chainFrom_eq (alike : LinksAlike floor gap c a b) (n : Nat) {from? : Option Handle}
    (reached : ∀ e, from? = some e → a.Reaches c e) :
    b.chainFrom n (from?.map (Handle.shift floor gap)) =
      (a.chainFrom n from?).map (Handle.shift floor gap) := by
  induction n generalizing from? with
  | zero => rfl
  | succ n ih =>
    cases from? with
    | none => rfl
    | some h =>
      have here := reached h rfl
      simp only [Option.map_some, chainFrom, List.map_cons]
      rw [alike h here, ih fun e link => here.tail link]

end LinksAlike

theorem chainFrom_prefix (a : Arena) (n m : Nat) (from? : Option Handle) :
    a.chainFrom n from? <+: a.chainFrom (n + m) from? := by
  induction n generalizing from? with
  | zero => exact List.nil_prefix
  | succ n ih =>
    cases from? with
    | none => simp [chainFrom]
    | some h =>
      rw [Nat.succ_add]
      exact (List.prefix_cons_inj h).2 (ih _)

theorem reaches_of_mem_chainFrom {n : Nat}
    (member : x ∈ a.chainFrom n (a.get c).enclosing?) : Relation.TransGen a.Link c x := by
  obtain ⟨k, -, walked⟩ := (mem_chainFrom_iff n _).1 member
  exact transGen_iff.2 ⟨k, walked⟩

/-- A scope's chain with a gap: the longer walk of the second arena repeats what is in the first. -/
theorem enclosingChain_shift (renamed : Renamed floor gap a b)
    (alike : LinksAlike floor gap c a b) :
    ∃ around, b.enclosingChain (c.shift floor gap) = around.map (Handle.shift floor gap) ∧
      a.enclosingChain c <+: around ∧ ∀ x ∈ around, x ∈ a.enclosingChain c := by
  refine ⟨a.chainFrom (a.size + gap) (a.get c).enclosing?, ?_, chainFrom_prefix a _ _ _, ?_⟩
  · rw [enclosingChain, renamed.size, alike c .refl]
    exact alike.chainFrom_eq _ fun e link => .single link
  · exact fun x member =>
      (mem_enclosingChain_iff renamed.left.links).2 (reaches_of_mem_chainFrom member)

theorem contains_of_mem_enclosingChain (inside : a.LinksInside) (scope : a.contains c)
    (member : x ∈ a.enclosingChain c) : a.contains x :=
  contains_of_reaches inside scope ((mem_enclosingChain_iff inside).1 member).to_reflTransGen

/-! ## What is looked up along links -/

theorem findSome?_eq_of_prefix {α β : Type} {l l' : List α} {f g : α → Option β}
    (shorter : l <+: l') (repeats : ∀ x ∈ l', x ∈ l) (same : ∀ x ∈ l, f x = g x) :
    l.findSome? f = l'.findSome? g := by
  have equal : l.findSome? f = l.findSome? g := by
    clear shorter repeats
    induction l with
    | nil => rfl
    | cons x rest ih =>
      rw [List.findSome?_cons, List.findSome?_cons, same x List.mem_cons_self,
        ih fun y member => same y (List.mem_cons_of_mem x member)]
  obtain ⟨more, rfl⟩ := shorter
  rw [List.findSome?_append, equal]
  cases found : l.findSome? g with
  | some y => rfl
  | none =>
    have nothing : more.findSome? g = none := List.findSome?_eq_none_iff.2 fun x member =>
      List.findSome?_eq_none_iff.1 found x (repeats x (List.mem_append_right l member))
    rw [nothing]
    rfl

theorem groupOf_shift (renamed : Renamed floor gap a b) (alike : LinksAlike floor gap c a b)
    (inside : a.contains c) : a.groupOf c = b.groupOf (c.shift floor gap) := by
  obtain ⟨around, chain, shorter, repeats⟩ := enclosingChain_shift renamed alike
  rw [groupOf, groupOf, chain, ← List.map_cons, List.findSome?_map]
  refine findSome?_eq_of_prefix ((List.prefix_cons_inj c).2 shorter) ?_ ?_
  · intro x member
    rcases List.mem_cons.1 member with rfl | member
    · exact List.mem_cons_self
    · exact List.mem_cons_of_mem c (repeats x member)
  · intro x member
    have within : a.contains x := by
      rcases List.mem_cons.1 member with rfl | member
      · exact inside
      · exact contains_of_mem_enclosingChain renamed.left.links inside member
    rw [Function.comp_apply, (renamed.slots within).template]

theorem takeWhile_eq_of_prefix {l l' : List Handle} (shorter : l <+: l') (member : h ∈ l) :
    l'.takeWhile (· ≠ h) = l.takeWhile (· ≠ h) := by
  obtain ⟨more, rfl⟩ := shorter
  rw [List.takeWhile_append, if_neg]
  intro whole
  have all := (List.takeWhile_prefix fun x => decide (x ≠ h)).eq_of_length whole
  simpa using List.takeWhile_eq_self_iff.1 all h member

/-- An activation that encloses itself does so in both arenas by the same names. -/
theorem trace_shift (renamed : Renamed floor gap a b) (alike : LinksAlike floor gap h a b)
    (inside : a.contains h) (circle : a.isSelfEnclosed h = true) :
    a.trace h = b.trace (h.shift floor gap) := by
  obtain ⟨around, chain, shorter, repeats⟩ := enclosingChain_shift renamed alike
  have member : h ∈ a.enclosingChain h := List.contains_iff_mem.1 circle
  have same : (b.enclosingChain (h.shift floor gap)).takeWhile (· ≠ h.shift floor gap) =
      ((a.enclosingChain h).takeWhile (· ≠ h)).map (Handle.shift floor gap) := by
    rw [chain, List.takeWhile_map, ← takeWhile_eq_of_prefix shorter member]
    congr 2
    funext x
    simp [(Handle.shift_injective floor gap).eq_iff]
  have within {x : Handle} (member : x ∈ (a.enclosingChain h).takeWhile (· ≠ h)) : a.contains x :=
    contains_of_mem_enclosingChain renamed.left.links inside
      ((List.takeWhile_prefix _).subset member)
  have names {x : Handle} (within : a.contains x) :
      (b.get (x.shift floor gap)).name = (a.get x).name :=
    congrArg Template.name (renamed.slots within).template
  simp only [trace]
  rw [same, List.filter_map, List.map_map, names inside]
  have templates : ((a.enclosingChain h).takeWhile (· ≠ h)).filter
        ((fun x => decide ((b.get x).kind = .template)) ∘ Handle.shift floor gap) =
      ((a.enclosingChain h).takeWhile (· ≠ h)).filter
        fun x => decide ((a.get x).kind = .template) :=
    List.filter_congr fun x member => by
      rw [Function.comp_apply, (renamed.slots (within member)).kind]
  rw [templates]
  congr 3
  refine List.map_congr_left fun x member => ?_
  rw [Function.comp_apply, names (within (List.mem_of_mem_filter member))]

end Arena
end Stencil
