import Stencil.Proofs.Links
import Stencil.Proofs.Lockstep.Step
/-!
# What a render can reach

A render sees no activations but those that it gets to from its root, by links and through stored
values, and those that it adds itself. Two arenas that agree on what can be reached from the root
give the same render, whatever else they hold.
-/
namespace Stencil

/-- One gets from the activation to the handle: by its link, or through a value stored in it. -/
inductive Activation.LeadsTo (act : Activation) (x : Handle) : Prop
  | enclosing : act.enclosing? = some x → LeadsTo act x
  | stored {v : Value} : act.Stores v → v.Holds x → LeadsTo act x

theorem Activation.not_leadsTo_default (x : Handle) : ¬ (default : Activation).LeadsTo x := by
  rintro (⟨⟨⟩⟩ | ⟨stores, -⟩)
  exact not_stores_of_empty rfl rfl stores

/-- One gets from the first handle to the second, in any number of steps. -/
abbrev Arena.LeadsTo (a : Arena) : Handle → Handle → Prop :=
  Relation.ReflTransGen fun h x => (a.get h).LeadsTo x

namespace Locality

/-- The arenas agree on everything in sight, from where nothing leads out of sight. What they do not
have yet is in sight. -/
structure Alike (Sight : Handle → Prop) (a b : Arena) : Prop where
  size : a.size = b.size
  beyond {h : Handle} : ¬ a.contains h → Sight h
  same {h : Handle} : Sight h → a.get h = b.get h
  shut {h x : Handle} : Sight h → (a.get h).LeadsTo x → Sight x

variable {Sight : Handle → Prop} {a b : Arena} {c h : Handle} {v v' : Value}

namespace Alike

/-! ## Changes -/

theorem push_fst (alike : Alike Sight a b) (act : Activation) :
    (a.push act).1 = (b.push act).1 := by
  simp [Arena.push, alike.size]

theorem push (alike : Alike Sight a b) {act : Activation}
    (leads : ∀ x, act.LeadsTo x → Sight x) :
    Alike Sight (a.push act).2 (b.push act).2 where
  size := by simp [alike.size]
  beyond := by
    intro h outside
    refine alike.beyond fun inside => outside ?_
    exact Arena.contains_of_size_le (by simp) inside
  same := by
    intro h sight
    rw [Arena.get_push, Arena.get_push, alike.push_fst]
    split
    · rfl
    · exact alike.same sight
  shut := by
    intro h x sight
    rw [Arena.get_push]
    split
    · exact leads x
    · exact alike.shut sight

theorem modify (alike : Alike Sight a b) (h : Handle) {f : Activation → Activation}
    (leads : ∀ act x, (f act).LeadsTo x → act.LeadsTo x ∨ Sight x) :
    Alike Sight (a.modify h f) (b.modify h f) where
  size := by simp [alike.size]
  beyond := by
    intro x outside
    refine alike.beyond fun inside => outside ?_
    exact Arena.contains_of_size_le (by simp) inside
  same := by
    intro x sight
    have getB := Arena.get_modify_eq b h f x
    have inside : b.contains h ↔ a.contains h := by rw [Arena.contains, Arena.contains, alike.size]
    simp only [inside] at getB
    rw [Arena.get_modify_eq, getB, alike.same sight]
  shut := by
    intro x y sight leadsTo
    rw [Arena.get_modify_eq] at leadsTo
    split at leadsTo
    · exact (leads _ y leadsTo).elim (alike.shut sight) id
    · exact alike.shut sight leadsTo

theorem setEnclosing (alike : Alike Sight a b) (h : Handle) (sight : Sight c) :
    Alike Sight (a.setEnclosing h (some c)) (b.setEnclosing h (some c)) := by
  refine alike.modify h ?_
  rintro act x (link | ⟨stores, holds⟩)
  · exact Or.inr (Option.some.inj link ▸ sight)
  · exact Or.inl (.stored stores holds)

theorem setArgument (alike : Alike Sight a b) (h : Handle) (name : String)
    (held : ∀ x, v.Holds x → Sight x) :
    Alike Sight (a.setArgument h name v) (b.setArgument h name v) := by
  refine alike.modify h ?_
  rintro act x (link | ⟨stores, holds⟩)
  · exact Or.inl (.enclosing link)
  · rcases Activation.stores_of_insert_argument stores with rfl | stores
    · exact Or.inr (held x holds)
    · exact Or.inl (.stored stores holds)

/-! ## Links and names -/

variable (alike : Alike Sight a b)
include alike

theorem name_eq (sight : Sight h) : (a.get h).name = (b.get h).name := by
  rw [alike.same sight]

theorem chainFrom_eq (n : Nat) {from? : Option Handle} (sight : ∀ h, from? = some h → Sight h) :
    a.chainFrom n from? = b.chainFrom n from? ∧ ∀ x ∈ a.chainFrom n from?, Sight x := by
  induction n generalizing from? with
  | zero => exact ⟨rfl, nofun⟩
  | succ n ih =>
    cases from? with
    | none => exact ⟨rfl, nofun⟩
    | some h =>
      have here := sight h rfl
      obtain ⟨same, others⟩ := ih fun x link => alike.shut here (.enclosing link)
      simp only [Arena.chainFrom]
      rw [← alike.same here, same]
      exact ⟨rfl, List.forall_mem_cons.2 ⟨here, same ▸ others⟩⟩

theorem enclosingChain_eq (sight : Sight h) :
    a.enclosingChain h = b.enclosingChain h ∧ ∀ x ∈ a.enclosingChain h, Sight x := by
  have chain := alike.chainFrom_eq a.size fun x link => alike.shut sight (.enclosing link)
  rw [Arena.enclosingChain, Arena.enclosingChain, ← alike.size, ← alike.same sight]
  exact chain

theorem isSelfEnclosed_eq (sight : Sight h) : a.isSelfEnclosed h = b.isSelfEnclosed h := by
  rw [Arena.isSelfEnclosed, Arena.isSelfEnclosed, (alike.enclosingChain_eq sight).1]

theorem trace_eq (sight : Sight h) : a.trace h = b.trace h := by
  obtain ⟨same, around⟩ := alike.enclosingChain_eq sight
  have inner (x : Handle) (member : x ∈ (a.enclosingChain h).takeWhile (· ≠ h)) : Sight x :=
    around x ((List.takeWhile_sublist _).subset member)
  simp only [Arena.trace]
  rw [alike.name_eq sight, ← same]
  generalize (a.enclosingChain h).takeWhile (· ≠ h) = scopes at inner
  have names : (scopes.filter fun x => (a.get x).kind = .template).map (fun x => (a.get x).name) =
      (scopes.filter fun x => (b.get x).kind = .template).map fun x => (b.get x).name := by
    rw [List.filter_congr fun x member => by rw [alike.same (inner x member)]]
    exact List.map_congr_left fun x member => alike.name_eq (inner x (List.mem_filter.1 member).1)
  rw [names]

theorem groupOf_eq (sight : Sight h) : a.groupOf h = b.groupOf h := by
  obtain ⟨same, around⟩ := alike.enclosingChain_eq sight
  have all : ∀ x ∈ h :: a.enclosingChain h, Sight x := List.forall_mem_cons.2 ⟨sight, around⟩
  rw [Arena.groupOf, Arena.groupOf, ← same]
  generalize h :: a.enclosingChain h = scopes at all
  induction scopes with
  | nil => rfl
  | cons x rest ih =>
    obtain ⟨here, others⟩ := List.forall_mem_cons.1 all
    rw [List.findSome?_cons, List.findSome?_cons, alike.same here, ih others]

theorem resolveFrom_paired (name : String) (n : Nat) (sight : Sight c) (declared : Bool) :
    Resolution.Paired (fun h h' => h = h' ∧ Sight h) a b (a.resolveFrom name n c declared)
      (b.resolveFrom name n c declared) := by
  induction n generalizing c declared with
  | zero => exact .missing (alike.name_eq sight)
  | succ n ih =>
    simp only [Arena.resolveFrom, ← alike.same sight]
    split
    · rename_i v found
      have stores := Activation.stores_of_lookup found
      exact .found (.same fun x holds => ⟨rfl, alike.shut sight (.stored stores holds)⟩)
    · split
      · rename_i caller _ link
        exact ih (alike.shut sight (.enclosing link)) _
      · exact .missing (alike.name_eq sight)

end Alike

/-! ## The two renders -/

/-- Renders of arenas that agree on everything in sight, at scopes in sight. -/
def lockstep (Sight : Handle → Prop) : Lockstep where
  Twin _ _ h h' := h = h' ∧ Sight h
  Made _ _ h h' := h = h' ∧ Sight h
  Coupled c c' a b := (c = c' ∧ Sight c) ∧ Alike Sight a b
  Evolves _ _ _ _ a₁ b₁ := Alike Sight a₁ b₁
  Left _ _ := True

instance : (lockstep Sight).Exact := ⟨id, fun _ => trivial⟩

theorem fixed_of_same (same : (lockstep Sight).Same a b v v') :
    v = v' ∧ ∀ x, v.Holds x → Sight x :=
  Value.Paired.fixed same

theorem sight_push (alike : Alike Sight a b) (act : Activation) : Sight (a.push act).1 :=
  alike.beyond (by simp [Arena.contains])

theorem lawful (Sight : Handle → Prop) : (lockstep Sight).Lawful where
  refl coupled := coupled.2
  trans _ second := second
  coupled coupled evolves := ⟨coupled.1, evolves⟩
  left _ := trivial
  twin _ twin := twin
  made _ made := made
  twin_of_made made := made
  resolve name coupled := by
    obtain ⟨⟨rfl, sight⟩, alike⟩ := coupled
    rw [Arena.resolve, Arena.resolve, alike.size]
    exact alike.resolveFrom_paired name _ sight _
  group coupled := by
    obtain ⟨⟨rfl, sight⟩, alike⟩ := coupled
    exact alike.groupOf_eq sight
  template coupled made := by
    obtain ⟨rfl, sight⟩ := made
    rw [coupled.2.same sight]
  similar coupled twin := by
    obtain ⟨rfl, sight⟩ := twin
    exact Template.similar_of_eq (by rw [coupled.2.same sight])
  property {_ _ a b h _} name coupled twin := by
    obtain ⟨rfl, sight⟩ := twin
    rw [← coupled.2.same sight]
    cases found : (a.get h).property name with
    | none => exact .none
    | some v =>
      have stores := Activation.stores_of_property found
      exact .some (.same fun x holds => ⟨rfl, coupled.2.shut sight (.stored stores holds)⟩)
  embed t coupled := by
    obtain ⟨⟨rfl, sight⟩, alike⟩ := coupled
    refine ⟨alike.push ?_, alike.push_fst _, sight_push alike _⟩
    rintro x (link | ⟨stores, -⟩)
    · exact Option.some.inj link ▸ sight
    · exact absurd stores (Activation.not_stores_of_empty rfl rfl)
  argument name coupled made same := by
    obtain ⟨rfl, -⟩ := made
    obtain ⟨rfl, held⟩ := fixed_of_same same
    exact coupled.2.setArgument _ name held
  arguments {c _ a b h _} coupled made := by
    obtain ⟨⟨rfl, sight⟩, alike⟩ := coupled
    obtain ⟨rfl, made⟩ := made
    have bound : b.argumentScope c (b.get h).arguments =
        b.push ⟨(a.get c).template, .empty, (a.get h).arguments, some c, .arguments⟩ := by
      rw [Arena.argumentScope, ← alike.same made, ← alike.same sight]
    dsimp only
    rw [bound]
    refine ⟨⟨⟨alike.push_fst _, sight_push alike _⟩, alike.push ?_⟩, ⟨rfl, made⟩,
      fun _ _ evolves => evolves⟩
    rintro x (link | ⟨⟨name, set | given⟩, holds⟩)
    · exact Option.some.inj link ▸ sight
    · cases set
    · exact alike.shut made (.stored ⟨name, Or.inr given⟩ holds)

theorem enclosing (Sight : Handle → Prop) (setting : Setting) :
    (lockstep Sight).Enclosing setting := by
  rintro c _ h _ a b ⟨⟨rfl, sight⟩, alike⟩ ⟨rfl, inner⟩
  have linked := alike.setEnclosing h sight
  constructor
  case opened => exact trivial
  case refused => exact fun _ => linked.isSelfEnclosed_eq inner
  case traces => exact fun _ _ => ⟨linked.trace_eq inner, trivial⟩
  case entered =>
    exact fun _ => ⟨⟨⟨rfl, inner⟩, linked⟩, by rw [linked.same inner], fun _ _ evolves => evolves⟩

/-- What cannot be reached from the root is out of sight. -/
theorem alike_of_same {root : Handle} (size : a.size = b.size)
    (same : ∀ h, a.LeadsTo root h → a.get h = b.get h) :
    Alike (fun h => a.LeadsTo root h ∨ ¬ a.contains h) a b := by
  constructor
  case size => exact size
  case beyond => exact Or.inr
  case same =>
    rintro h (reached | outside)
    · exact same h reached
    · have outside' : ¬ b.contains h := by rwa [Arena.contains, ← size]
      rw [Arena.get_eq_default outside, Arena.get_eq_default outside']
  case shut =>
    rintro h x (reached | outside) leads
    · exact Or.inl (reached.tail leads)
    · rw [Arena.get_eq_default outside] at leads
      exact absurd leads (Activation.not_leadsTo_default x)

end Locality

/-- A render depends on nothing in its arena but what can be reached from its root. -/
theorem render_eq_of_reached (setting : Setting) {a b : Arena} {root : Handle}
    (size : a.size = b.size) (same : ∀ h, a.LeadsTo root h → a.get h = b.get h) (depth : Nat)
    (w : Writer) :
    (setting.renderWithin depth a root w).result = (setting.renderWithin depth b root w).result ∧
    (setting.renderWithin depth a root w).writer = (setting.renderWithin depth b root w).writer := by
  have rel := Lockstep.related_ofDepth setting (Locality.lawful _)
    (Locality.enclosing (fun h => a.LeadsTo root h ∨ ¬ a.contains h) setting) depth
  have template : (a.get root).template = (b.get root).template := by rw [same root .refl]
  obtain ⟨result, writer, -⟩ := Lockstep.render_outcome setting rel
    ⟨⟨rfl, Or.inl .refl⟩, Locality.alike_of_same size same⟩ template w
  exact ⟨result, writer⟩

/-- The arena with nothing left in the activations out of sight. -/
def Arena.veiled (a : Arena) (Sight : Handle → Prop) [DecidablePred Sight] : Arena :=
  ⟨a.slots.mapIdx fun index act => if Sight ⟨index⟩ then act else default⟩

theorem Arena.get_veiled (a : Arena) (Sight : Handle → Prop) [DecidablePred Sight] (h : Handle) :
    (a.veiled Sight).get h = if Sight h then a.get h else default := by
  obtain ⟨index⟩ := h
  simp only [veiled, get, Array.getElem?_mapIdx]
  cases a.slots[index]? with
  | none => simp
  | some act => rfl

/-- A render does not notice what it cannot reach. -/
theorem render_veiled (setting : Setting) (a : Arena) (root : Handle)
    [DecidablePred (a.LeadsTo root)] (depth : Nat) (w : Writer) :
    let veiled := setting.renderWithin depth (a.veiled (a.LeadsTo root)) root w
    (setting.renderWithin depth a root w).result = veiled.result ∧
      (setting.renderWithin depth a root w).writer = veiled.writer := by
  have size : a.size = (a.veiled (a.LeadsTo root)).size := by simp [Arena.size, Arena.veiled]
  refine render_eq_of_reached setting size (fun h reached => ?_) depth w
  rw [Arena.get_veiled, if_pos reached]

end Stencil
